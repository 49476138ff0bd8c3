import LoopEscape.Diagnostic.Report
import LoopEscape.Files

/-!
# Failures

How an operation of the library can fail: with a report about the program, or in a way that no report
describes.
-/

namespace LoopEscape

inductive Failure
  | report (r : Report)
  | refused (r : Report)
  | inconsistent
  | undecodable
  | invalidValue (text : String)
  | outOfRange (text : String)
  | unreadable (text : String)
  | file (problem : FileProblem) (name : String)
  | missingModule (name : String)
  | notAPackage (name parent : String)
  | undefinedName (name : String)
  | notSupported
deriving Repr, Inhabited

namespace Failure

def tagPath (path : Option String) : Failure → Failure
  | report r => report (r.tagPath path)
  | refused r => refused (r.tagPath path)
  | f => f

def text (d : Display) : Failure → String
  | report r | refused r => r.fullText d
  | invalidValue t | outOfRange t | unreadable t => t
  | file problem name => problem.message ++ Text.quote name
  | missingModule name => "No module named " ++ Text.quote name
  | notAPackage name parent =>
    "No module named " ++ Text.quote name ++ "; " ++ Text.quote parent ++ " is not a package"
  | undefinedName name => "name " ++ Text.quote name ++ " is not defined"
  | inconsistent | undecodable | notSupported => ""

end Failure

end LoopEscape
