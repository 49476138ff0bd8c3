import LoopEscape.Diagnostic.Failure
import LoopEscape.Token.Scan
import LoopEscape.Token.Layout
import LoopEscape.Version.Pragma
import LoopEscape.Settings

/-!
# The dialect's marks

The dialect adds to the plain language labels on loops, labelled blocks, loops driven by callbacks and
jumps with labels and values.  Taken out of the source, they are kept as marks, each under the place
that the statement's keyword has in the plain code that is left.
-/

namespace LoopEscape

/-- A label in the break clause of a callback loop; `loops` tells that the body may also continue to
it. -/
structure EscapeLabel where
  label : String
  loops : Bool
  at_ : Position
deriving DecidableEq, Repr, Inhabited

structure LoopHeader where
  label : Option String
  escapes : List EscapeLabel
  result : Option String
deriving DecidableEq, Repr, Inhabited

structure LoopLabel where
  label : String
  at_ : Position
deriving DecidableEq, Repr, Inhabited

structure BlockHeader where
  label : String
  target : Option String
deriving DecidableEq, Repr, Inhabited

/-- What follows a jump's keyword: the target and the tokens of the value. -/
structure JumpTail where
  label : Option String
  value : List Token
deriving DecidableEq, Repr, Inhabited

abbrev Table (α : Type) := List (Position × α)

namespace Table

variable {α : Type}

def insert (t : Table α) (p : Position) (a : α) : Table α :=
  (t.filter fun e => e.1 != p) ++ [(p, a)]

def find? (t : Table α) (p : Position) : Option α := t.lookup p

def erase (t : Table α) (p : Position) : Table α := t.filter fun e => e.1 != p

end Table

structure Marks where
  loops : Table LoopLabel := []
  headers : Table LoopHeader := []
  blocks : Table BlockHeader := []
  jumps : Table JumpTail := []
deriving Repr, Inhabited

def reservedStart : String := "_cbit_"

def isReserved (name : String) : Bool := reservedStart.toList.isPrefixOf name.toList

/-! ### Faults -/

inductive DialectProblem
  | reserved
  | splitLabel
  | missingTarget
  | missingColon
  | noLabels
  | badLabel
  | repeatedLabel (label : String)
  | continueValue
  | missingValue
  | badJump (keyword : String)
deriving DecidableEq, Repr

namespace DialectProblem

def message : DialectProblem → String
  | reserved => "Names starting with `" ++ reservedStart ++ "` are reserved"
  | splitLabel => "a label must be on the same line as the statement it labels"
  | missingTarget => "expected a name after `as`"
  | missingColon => "expected `:` at the end of the cbit loop header"
  | noLabels => "expected at least one label after `break`"
  | badLabel => "expected a label"
  | repeatedLabel l => "label `" ++ l ++ "` declared twice"
  | continueValue => "`continue` cannot carry a value"
  | missingValue => "expected a value after `with`"
  | badJump k => "expected a label or `with <value>` after `" ++ k ++ "`"

def hint : DialectProblem → Option String
  | badJump k => some ("`" ++ k ++ " <label>`, `break [<label>] with <value>`")
  | _ => none

end DialectProblem

structure DialectFault where
  problem : DialectProblem
  at_ : Position
deriving DecidableEq, Repr

inductive PragmaProblem
  | versionTwice
  | debugTwice
  | unknown (word : String)
  | version (fault : VersionFault)
deriving DecidableEq, Repr

namespace PragmaProblem

def message : PragmaProblem → String
  | versionTwice => "pragma version specified twice!"
  | debugTwice => "pragma debug specified twice!"
  | unknown w => "Unknown pragma `" ++ w ++ "`"
  | version f => f.message

def kind : PragmaProblem → ReportKind
  | version _ => .version
  | _ => .pragma

end PragmaProblem

inductive StripFault
  | scan (fault : ScanFault)
  | dialect (fault : DialectFault)
  | pragma (problem : PragmaProblem) (at_ : Position)
  | layout (fault : LayoutFault)
  | unencodable
deriving Repr

def sourceSite (source : String) (line : Option Int) (column : Int) : Site :=
  { line, column := some column, source := some source }

def Position.site (source : String) (p : Position) : Site :=
  sourceSite source (some p.row) p.col

def syntaxReport (source : String) (text : String) (line : Option Int) (column : Int)
    (hint : Option String) : Report :=
  Report.make .syntactic text [sourceSite source line column] hint none

namespace ScanFault

def failure (source : String) : ScanFault → Failure
  | openString p => .report (syntaxReport source "EOF in multi-line string" (some p.row) p.col none)
  | openStatement row =>
    .report (syntaxReport source "EOF in multi-line statement" (some row) 0 none)
  | badDedent row width =>
    .report (syntaxReport source "unindent does not match any outer indentation level" (some row)
      ((if width = 0 then 1 else width) - 1 : Nat) none)
  | declaration fault => .report (syntaxReport source fault.message none 0 none)
  | undecodable => .undecodable

end ScanFault

namespace StripFault

def failure (source : String) : StripFault → Failure
  | scan fault => fault.failure source
  | dialect ⟨problem, p⟩ =>
    .report (syntaxReport source problem.message (some p.row) p.col problem.hint)
  | pragma problem p => .report (Report.at_ problem.kind problem.message (p.site source))
  | layout (.overlap s e) => .invalidValue (LayoutFault.overlap s e).message
  | layout .unopened => .outOfRange LayoutFault.unopened.message
  | unencodable => .undecodable

end StripFault

end LoopEscape
