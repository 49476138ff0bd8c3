import LoopEscape.Compile.Stage
import LoopEscape.Compile.Summary
import LoopEscape.Rules.Check
import LoopEscape.Tree.Outline

/-!
# Compiling

A program is compiled to any of several formats.  The formats are made one after the other; labels are
resolved for the first of them, and again only as long as that fails, so that a program that is
accepted warns once.
-/

namespace LoopEscape

open Text

inductive Format
  | source
  | loops
  | ast
  | astDump
  | code
deriving DecidableEq, Repr

namespace Format

def all : List Format := [source, loops, ast, astDump, code]

def name : Format → String
  | source => "source"
  | loops => "loops"
  | ast => "ast"
  | astDump => "ast_dump"
  | code => "code"

def ofName? (s : String) : Option Format := all.find? fun f => f.name == s

theorem ofName?_name (f : Format) : ofName? f.name = some f := by
  cases f <;> decide +kernel

end Format

def unsupportedFormat (name : String) : Failure :=
  .invalidValue ("Unsupported format type " ++ quote name)

inductive Output
  | text (s : String)
  | loops (summaries : List LoopSummary)
  | kinds (names : List String)

structure Job where
  source : Source
  settings : Option Settings := none
  environmentDebug : Bool := false
  display : Display := {}
  strict : Bool := false

structure Generated where
  body : List Stmt
  loops : List LoopSummary

namespace Job

def parse (job : Job) : Except Failure Module :=
  (parseSource job.strict job.source).mapError (·.tagPath job.source.path)

def settingsFor (job : Job) (m : Module) : Except Failure Settings :=
  match Settings.merge (job.settings.getD {}) m.settings with
  | .error c => .error (.invalidValue c.message)
  | .ok s => .ok { s with debug := some (s.debugOr job.environmentDebug) }

def read (job : Job) : Except Failure (Module × Settings) := do
  let m ← job.parse
  return (m, ← job.settingsFor m)

def generate (job : Job) (debug : Bool) (body : List Stmt) : Except Failure Generated := do
  let work : Except Failure Generated := do
    let (draft, loops) ← Draft.expand job.source debug { body }
    let draft ← draft.lower job.source
    return { body := draft.body, loops }
  work.mapError (·.tagPath job.source.path)

def codeName (job : Job) : String := job.source.path.getD "<cbit>"

def check (job : Job) (body : List Stmt) : Except Failure Unit :=
  if Stmt.anyLoneTry body then .error (.invalidValue "Try has neither except handlers nor finalbody")
  else match checkRules job.strict body with
    | Except.ok () => .ok ()
    | Except.error f => .error (.refused
        (syntaxReport job.source.text f.problem.message (some f.span.line) f.span.col none
          |>.tagPath job.source.path))

def output (job : Job) (g : Generated) : Format → Except Failure Output
  | .source => (Draft.text { body := g.body }).map fun t => .text (t ++ "\n")
  | .loops => .ok (.loops g.loops)
  | .ast => .ok (.kinds (g.body.map Stmt.kind))
  | .astDump => .ok (.text (moduleOutline g.body).dump)
  | .code => (job.check g.body).map fun _ => .text job.codeName

end Job

/-! ### Several formats -/

structure Compilation where
  log : WarningLog := {}
  generated : Option (Except Failure Generated) := none
  outputs : List (String × Output) := []
  aside : List Failure := []

namespace Compilation

def force (job : Job) (parsed : Except Failure (Module × Settings)) (c : Compilation) :
    Compilation × Except Failure Generated :=
  match c.generated with
  | some g => (c, g)
  | none =>
    match parsed with
    | .error f => (c, .error f)
    | .ok (m, settings) =>
      match job.source.resolve job.display c.log m.body with
      | (log, .error f) => ({ c with log }, .error (f.tagPath job.source.path))
      | (log, .ok body) =>
        let g := job.generate (settings.debugOr false) body
        ({ c with log, generated := some g }, g)

def make (job : Job) (parsed : Except Failure (Module × Settings)) (c : Compilation) (f : Format) :
    Compilation × Except Failure Output :=
  match c.force job parsed with
  | (c, .error e) => (c, .error e)
  | (c, .ok g) => (c, job.output g f)

/-- Makes formats in order, up to the first failure.  With `collect`, failures are put aside, except
for formats that do not exist. -/
def makeAll (job : Job) (collect : Bool) (parsed : Except Failure (Module × Settings))
    (c : Compilation) : List String → Compilation × Option Failure
  | [] => (c, none)
  | name :: rest =>
    match Format.ofName? name with
    | none => (c, some (unsupportedFormat name))
    | some f =>
      match c.make job parsed f with
      | (c, .ok o) => makeAll job collect parsed { c with outputs := c.outputs ++ [(name, o)] } rest
      | (c, .error e) =>
        if collect then makeAll job collect parsed { c with aside := c.aside ++ [e] } rest
        else (c, some e)

end Compilation

def compile (job : Job) (collect : Bool) (log : WarningLog) (formats : List String) :
    Compilation × Option Failure :=
  Compilation.makeAll job collect job.read { log } formats

end LoopEscape
