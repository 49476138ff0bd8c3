import LoopEscape.Dialect.Strip
import LoopEscape.Grammar.Doubtful

/-!
# Parsing the dialect

A source is parsed by taking the dialect's marks out, parsing the plain code that is left, and putting
each mark on the statement whose keyword stands at its place.  Afterwards no mark may be left over.
-/

namespace LoopEscape

open Text

structure Source where
  text : String
  path : Option String := none
deriving Repr, Inhabited

def Source.site (s : Source) (span : Span) (function : Option String) : Site :=
  { line := some span.line, column := some span.col, source := some s.text, path := s.path, function }

def Source.siteOf (s : Source) (loc : Loc) : Site := s.site loc.span loc.function

inductive AttachProblem
  | loopElse
  | blockElse
  | notACall
  | badValue
  | layout (fault : LayoutFault)
deriving DecidableEq, Repr

structure AttachFault where
  problem : AttachProblem
  line : Nat
  col : Nat
  function : Option String := none
deriving DecidableEq, Repr

namespace AttachFault

def atSpan (problem : AttachProblem) (span : Span) (function : Option String) : AttachFault :=
  { problem, line := span.line, col := span.col, function }

def message (f : AttachFault) : String :=
  match f.problem with
  | .loopElse => "a cbit loop cannot have an `else` clause"
  | .blockElse => "a labeled block cannot have an `else` clause"
  | .notACall => "expected a function or method call"
  | .badValue => "invalid value for `break ... with`"
  | .layout fault => fault.message

def failure (source : Source) (f : AttachFault) : Failure :=
  match f.problem with
  | .notACall =>
    .report (Report.at_ .structural f.message
      { line := some f.line, column := some f.col, source := some source.text, path := source.path,
        function := f.function })
  | .layout fault => (StripFault.layout fault).failure source.text
  | _ => .report (syntaxReport source.text f.message (some f.line) f.col none)

end AttachFault

/-! ### Putting marks back -/

abbrev Attach := StateT Marks (Except AttachFault)

abbrev Shifts := List (Nat × Nat)

namespace Attach

def shiftOf (shifts : Shifts) (row : Nat) : Nat := (shifts.lookup row).getD 0

def place (shifts : Shifts) (p : Position) : Position := ⟨p.row, p.col + shiftOf shifts p.row⟩

def key (shifts : Shifts) (loc : Loc) : Position :=
  ⟨loc.span.line, loc.span.col - shiftOf shifts loc.span.line⟩

def takeLabel (p : Position) : Attach (Option LoopLabel) := fun m =>
  .ok (m.loops.find? p, { m with loops := m.loops.erase p })

def takeHeader (p : Position) : Attach (Option LoopHeader) := fun m =>
  .ok (m.headers.find? p, { m with headers := m.headers.erase p })

def takeBlock (p : Position) : Attach (Option BlockHeader) := fun m =>
  .ok (m.blocks.find? p, { m with blocks := m.blocks.erase p })

def takeJump (p : Position) : Attach (Option JumpTail) := fun m =>
  .ok (m.jumps.find? p, { m with jumps := m.jumps.erase p })

def valueStart : String := "_ ="

def placeValue (shifts : Shifts) (firstRow : Nat) (p : Position) : Position :=
  place shifts
    (if p.row = 1 && firstRow = 1 then ⟨p.row, p.col - valueStart.length⟩ else p)

def parseValue (strict : Bool) (shifts : Shifts) (tokens : List Token) :
    Except AttachFault (Option Expr) :=
  match tokens with
  | [] => .ok none
  | first :: _ =>
    let at_ := place shifts first.start
    let fault : AttachFault := { problem := .badValue, line := at_.row, col := at_.col }
    match layout tokens with
    | .error e => .error { fault with problem := .layout e }
    | .ok code =>
      match parsePlain strict (placeValue shifts first.start.row) (valueStart ++ code) with
      | .ok (.assign _ [_] value :: _) => .ok (some value)
      | _ => .error fault

def refuseElse (problem : AttachProblem) : List Stmt → Attach Unit
  | [] => return ()
  | s :: _ => throw (AttachFault.atSpan problem s.loc.span none)

end Attach

open Attach

structure AttachContext where
  shifts : Shifts
  strict : Bool := false

mutual

/-- Puts marks on a statement and on those inside it, and notes the innermost function around each. -/
def Stmt.attach (ctx : AttachContext) (function : Option String) : Stmt → Attach Stmt
  | .function loc isAsync name params body decorators returns => do
    let body ← Stmt.attachAll ctx (some name) body
    return .function { loc with function := some name } isAsync name params body decorators returns
  | .class_ loc name bases keywords body decorators => do
    let body ← Stmt.attachAll ctx function body
    return .class_ { loc with function } name bases keywords body decorators
  | .for_ loc true mark target iter body orElse => do
    let body ← Stmt.attachAll ctx function body
    let orElse ← Stmt.attachAll ctx function orElse
    return .for_ { loc with function } true mark target iter body orElse
  | .for_ loc false mark target iter body orElse => do
    let header ← takeHeader (key ctx.shifts loc)
    let label ← takeLabel (key ctx.shifts loc)
    let body ← Stmt.attachAll ctx function body
    let orElse ← Stmt.attachAll ctx function orElse
    match header with
    | none =>
      return .for_ { loc with function } false { mark with label := label.map (·.label) } target
        iter body orElse
    | some header =>
      refuseElse .loopElse orElse
      if (CallForm.of? iter).isNone then throw (AttachFault.atSpan .notACall iter.span function)
      return .callbackLoop { loc with function } { toLoopHeader := header } target iter body
  | .while_ loc mark test body orElse => do
    let label ← takeLabel (key ctx.shifts loc)
    let body ← Stmt.attachAll ctx function body
    let orElse ← Stmt.attachAll ctx function orElse
    return .while_ { loc with function } { mark with label := label.map (·.label) } test body orElse
  | .if_ loc test body orElse => do
    let header ← takeBlock (key ctx.shifts loc)
    let body ← Stmt.attachAll ctx function body
    let orElse ← Stmt.attachAll ctx function orElse
    match header with
    | none => return .if_ { loc with function } test body orElse
    | some header =>
      refuseElse .blockElse orElse
      return .block { loc with function } header.label header.target body
  | .with_ loc isAsync items body => do
    let body ← Stmt.attachAll ctx function body
    return .with_ { loc with function } isAsync items body
  | .match_ loc subject cases => do
    let cases ← MatchCase.attachAll ctx function cases
    return .match_ { loc with function } subject cases
  | .try_ loc isStar body handlers orElse final => do
    let body ← Stmt.attachAll ctx function body
    let handlers ← Handler.attachAll ctx function handlers
    let orElse ← Stmt.attachAll ctx function orElse
    let final ← Stmt.attachAll ctx function final
    return .try_ { loc with function } isStar body handlers orElse final
  | .break_ loc _ _ => do
    match ← takeJump (key ctx.shifts loc) with
    | none => return .break_ { loc with function } none none
    | some tail => return .break_ { loc with function } tail.label (← parseValue ctx.strict ctx.shifts tail.value)
  | .continue_ loc _ => do
    match ← takeJump (key ctx.shifts loc) with
    | none => return .continue_ { loc with function } none
    | some tail => return .continue_ { loc with function } tail.label
  | .callbackLoop loc header target iter body => do
    let body ← Stmt.attachAll ctx function body
    return .callbackLoop { loc with function } header target iter body
  | .block loc label target body => do
    let body ← Stmt.attachAll ctx function body
    return .block { loc with function } label target body
  | .return_ loc value => return .return_ { loc with function } value
  | .delete loc targets => return .delete { loc with function } targets
  | .assign loc targets value => return .assign { loc with function } targets value
  | .augAssign loc target op value => return .augAssign { loc with function } target op value
  | .annAssign loc target typeHint value simple =>
    return .annAssign { loc with function } target typeHint value simple
  | .raise loc exc cause => return .raise { loc with function } exc cause
  | .assert_ loc test message => return .assert_ { loc with function } test message
  | .import_ loc names => return .import_ { loc with function } names
  | .importFrom loc module names level => return .importFrom { loc with function } module names level
  | .supportImport loc names => return .supportImport { loc with function } names
  | .global loc names => return .global { loc with function } names
  | .nonlocal loc names => return .nonlocal { loc with function } names
  | .expr loc value => return .expr { loc with function } value
  | .pass loc => return .pass { loc with function }

def Stmt.attachAll (ctx : AttachContext) (function : Option String) : List Stmt → Attach (List Stmt)
  | [] => return []
  | s :: rest => do
    let s ← Stmt.attach ctx function s
    let rest ← Stmt.attachAll ctx function rest
    return s :: rest

def Handler.attachAll (ctx : AttachContext) (function : Option String) :
    List Handler → Attach (List Handler)
  | [] => return []
  | .mk loc type name body :: rest => do
    let body ← Stmt.attachAll ctx function body
    let rest ← Handler.attachAll ctx function rest
    return .mk { loc with function } type name body :: rest

def MatchCase.attachAll (ctx : AttachContext) (function : Option String) :
    List MatchCase → Attach (List MatchCase)
  | [] => return []
  | .mk pattern guard body :: rest => do
    let body ← Stmt.attachAll ctx function body
    let rest ← MatchCase.attachAll ctx function rest
    return .mk pattern guard body :: rest

end

/-! ### Modules -/

/-- A parsed source: its statements and the settings that its pragmas give. -/
structure Module where
  body : List Stmt
  settings : Settings := {}
deriving Inhabited

def Marks.isEmpty (m : Marks) : Bool :=
  m.loops.isEmpty && m.headers.isEmpty && m.blocks.isEmpty && m.jumps.isEmpty

def Failure.inSource (path : Option String) : Failure → Failure
  | .report r => if r.kind = .syntactic then .report { r with path } else .report r
  | .refused r => .refused { r with path }
  | f => f

def parseText (strict : Bool) (source : Source) : Except Failure Module := do
  if source.text.contains '\x00' then
    throw (.report (syntaxReport source.text "No null bytes (\\x00) allowed in the source code."
      (some 1) 0 none))
  let stripped ← (strip source.text).mapError (·.failure source.text)
  let plain ← (parsePlain strict (place stripped.shifts) stripped.code).mapError fun f =>
    .refused (syntaxReport source.text f.message (some f.at_.row) f.at_.col none)
  let ctx : AttachContext := { shifts := stripped.shifts, strict }
  let (body, left) ← ((Stmt.attachAll ctx none plain).run stripped.marks).mapError (·.failure source)
  if left.isEmpty then return { body, settings := stripped.settings } else throw .inconsistent

def parseSource (strict : Bool) (source : Source) : Except Failure Module :=
  (parseText strict source).mapError (·.inSource source.path)

end LoopEscape
