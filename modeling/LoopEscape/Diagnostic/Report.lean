import LoopEscape.Diagnostic.Annotation

/-!
# Reports

A report is an error or a warning about a program: what is wrong, a hint, and the places it is about.
Its full text shows each place with a source annotation.
-/

namespace LoopEscape

open Text

inductive ReportKind
  | general
  | syntactic
  | structural
  | labelling
  | version
  | pragma
  | internal
  | panic
  | warning
  | unusedLabel
deriving DecidableEq, Repr, Inhabited

namespace ReportKind

def name : ReportKind → String
  | general => "CbitException"
  | syntactic => "SyntaxException"
  | structural => "StructureException"
  | labelling => "LabelResolutionException"
  | version => "VersionException"
  | pragma => "PragmaException"
  | internal => "CbitInternalException"
  | panic => "CompilerPanic"
  | warning => "CbitWarning"
  | unusedLabel => "UnusedLabel"

def isInternal : ReportKind → Bool
  | internal | panic => true
  | _ => false

def isWarning : ReportKind → Bool
  | warning | unusedLabel => true
  | _ => false

end ReportKind

/-- A place that a report is about.  Without a source nothing can be shown of it. -/
structure Site where
  line : Option Int := none
  column : Option Int := none
  source : Option String := none
  path : Option String := none
  function : Option String := none
  description : Option String := none
deriving Repr, Inhabited

structure Display where
  context : Nat := 1
  numbers : Bool := true
deriving Repr, Inhabited

structure Report where
  kind : ReportKind
  text : String := "Error Message not found."
  hint : Option String := none
  sites : List Site := []
  previous : Option Site := none
  path : Option String := none
  line : Option Int := none
  column : Option Int := none
deriving Repr, Inhabited

namespace Report

def make (kind : ReportKind) (text : String) (sites : List Site) (hint : Option String)
    (previous : Option Site) : Report :=
  { kind, text, hint, sites, previous
    line := sites.head?.bind (·.line)
    column := sites.head?.bind (·.column) }

def at_ (kind : ReportKind) (text : String) (site : Site) : Report :=
  make kind text [site] none none

def withSites (r : Report) (sites : List Site) : Report := { r with sites }

def message (r : Report) : String :=
  match r.hint with
  | none => r.text
  | some h => if h.isEmpty then r.text else r.text ++ "\n\n  (hint: " ++ h ++ ")"

def shownNumber : Option Int → String
  | none => "None"
  | some n => toString n

def showSite (d : Display) (path : Option String) (s : Site) : Option String :=
  match s.source with
  | none => none
  | some source =>
    let annotation := match s.line with
      | none => Except.ok ""
      | some line => annotate (source ++ " ") line s.column d.context d.numbers
    match annotation with
    | .error _ => none
    | .ok annotation =>
      let path := match s.path with
        | some p => if p.isEmpty then path else some p
        | none => path
      let file := match path with
        | none => ""
        | some p => if p == "<unknown>" then ""
            else "file \"" ++ p ++ ":" ++ shownNumber s.line ++ "\", "
      let function := match s.function with
        | none => ""
        | some f => if f.isEmpty then "" else "function \"" ++ f ++ "\", "
      let column := match s.column with
        | none => ""
        | some c => toString c
      let head := file ++ function ++ "line " ++ shownNumber s.line ++ ":" ++ column ++ " \n" ++
        annotation ++ "\n"
      let body := match s.description with
        | none => head
        | some text => text ++ "\n" ++ indentLines "  " head
      some (indentLines "  " body)

def plain (r : Report) : String :=
  "line " ++ shownNumber r.line ++ ":" ++ shownNumber r.column ++ " " ++ r.message

def render (d : Display) (r : Report) : String :=
  if r.sites.isEmpty then
    if r.line.isSome && r.column.isSome then r.plain else r.message
  else
    let previous := (r.previous.bind (showSite d r.path)).map
      (" (previously declared at):\n" ++ ·)
    let shown := previous.toList ++ r.sites.filterMap (showSite d r.path)
    if shown.isEmpty then r.plain
    else r.message ++ "\n\n" ++ "\n".intercalate shown

def fullText (d : Display) (r : Report) : String :=
  if r.kind.isInternal then
    r.render d ++ "\n\nThis is an unhandled internal compiler error."
  else r.render d

def combine (d : Display) : List Report → Option Report
  | [] => none
  | [r] => some r
  | rs => some {
      kind := .general
      text := "\n\n".intercalate ("Compilation failed with the following errors:" ::
        rs.map fun r => r.kind.name ++ ": " ++ r.fullText d) }

def tag (site : Site) (r : Report) : Report :=
  if r.sites.isEmpty && (r.line.isNone || r.line == some 0) then r.withSites [site] else r

def unforeseen (site : Site) (note : Option String) (text : String) : Report :=
  let suffix := match note with
    | none => ""
    | some n => if n.isEmpty then "" else ", " ++ n
  at_ .panic ("unhandled exception " ++ text ++ suffix) site

def tagPath (path : Option String) (r : Report) : Report :=
  if r.path.isNone then { r with path } else r

end Report

end LoopEscape
