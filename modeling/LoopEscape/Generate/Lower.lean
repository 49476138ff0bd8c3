import LoopEscape.Generate.Code
import LoopEscape.Dialect.Attach
import LoopEscape.Escape.Jump

/-!
# Lowering labels

A jump to the innermost loop becomes a plain jump, behind the assignment of its value.  Any other jump
raises an exception that belongs to its target, and the body of the target is put into a `try` that
catches it.  The classes of these exceptions are held by objects that the module defines at its start,
one for every target that is reached so.
-/

namespace LoopEscape

open Generate

inductive LowerProblem
  | outsideLoop
  | unresolved (label : String)
deriving DecidableEq, Repr

def LowerProblem.message : LowerProblem → String
  | outsideLoop => "jump outside of a loop"
  | unresolved l => "unresolved label `" ++ l ++ "`"

structure LowerFault where
  problem : LowerProblem
  loc : Loc
deriving DecidableEq, Repr

def LowerFault.report (source : Source) (f : LowerFault) : Report :=
  Report.at_ .panic f.problem.message (source.siteOf f.loc)

def JumpKind.plain (loc : Loc) : JumpKind → Stmt
  | break_ => .break_ loc none none
  | continue_ => .continue_ loc none

structure JumpTarget where
  loc : Loc
  label : Option String
  isLoop : Bool
  valueTarget : Option String
  holder : Option String := none
  raisesBreak : Bool := false
  raisesContinue : Bool := false
deriving DecidableEq, Repr, Inhabited

structure Holder where
  name : String
  label : String
  loc : Loc
deriving DecidableEq, Repr

structure LowerState where
  nextId : Nat := 1
  holders : List Holder := []
  targets : List JumpTarget := []

abbrev Lower := StateT LowerState (Except LowerFault)

namespace Lower

/-- The index of the target of a jump: the innermost with its label, or the innermost loop. -/
def targetIndex (targets : List JumpTarget) (label : Option String) : Option Nat :=
  match label with
  | none => targets.findIdx? (·.isLoop)
  | some l => targets.findIdx? fun t => t.label == some l

def isInnermost (targets : List JumpTarget) (i : Nat) : Bool := targets.findIdx? (·.isLoop) == some i

def ensureHolder (s : LowerState) (t : JumpTarget) : LowerState × JumpTarget × String :=
  match t.holder with
  | some h => (s, t, h)
  | none =>
    let h := generatedName ["label", toString s.nextId]
    ({ s with nextId := s.nextId + 1, holders := ⟨h, t.label.getD "", t.loc⟩ :: s.holders },
      { t with holder := some h }, h)

def raiseTo (loc : Loc) (kind : JumpKind) (i : Nat) (t : JumpTarget) (value : Option Expr)
    (s : LowerState) : List Stmt × LowerState :=
  let t := match kind with
    | .break_ => { t with raisesBreak := true }
    | .continue_ => { t with raisesContinue := true }
  let (s, t, holder) := ensureHolder s t
  let exc := call loc.span (attr loc.span (load loc.span holder) kind.name) value.toList
  ([.raise loc (some exc) none], { s with targets := s.targets.set i t })

def plainJump (loc : Loc) (kind : JumpKind) (t : JumpTarget) (value : Option Expr) : List Stmt :=
  let assigned := match value, t.valueTarget with
    | none, _ => []
    | some v, some target => [assign loc target v]
    | some v, none => [.expr loc v]
  assigned ++ [kind.plain loc]

def jump (loc : Loc) (kind : JumpKind) (label : Option String) (value : Option Expr) :
    Lower (List Stmt) := fun s =>
  match targetIndex s.targets label with
  | none =>
    .error ⟨match label with
      | none => .outsideLoop
      | some l => .unresolved l, loc⟩
  | some i =>
    let t := s.targets.getD i default
    if isInnermost s.targets i then .ok (plainJump loc kind t value, s)
    else .ok (raiseTo loc kind i t value s)

def inTarget {α : Type} (t : JumpTarget) (work : Lower α) : Lower (α × JumpTarget) := do
  modify fun s => { s with targets := t :: s.targets }
  let result ← work
  let t := (← get).targets.headD t
  modify fun s => { s with targets := s.targets.drop 1 }
  return (result, t)

def inScope {α : Type} (work : Lower α) : Lower α := do
  let outer := (← get).targets
  modify fun s => { s with targets := [] }
  let result ← work
  modify fun s => { s with targets := outer }
  return result

def jumpVariable : String := generatedName ["jump"]

def handler (t : JumpTarget) (kind : JumpKind) (body : List Stmt) : Handler :=
  let s := t.loc.span
  let type := attr s (load s (t.holder.getD "")) kind.name
  match kind, t.valueTarget with
  | .break_, some target =>
    .mk t.loc (some type) (some jumpVariable)
      (assign t.loc target (attr s (load s jumpVariable) "value") :: body)
  | _, _ => .mk t.loc (some type) none body

def loopHandlers (t : JumpTarget) : List Handler :=
  (if t.raisesContinue then [handler t .continue_ [.continue_ t.loc none]] else []) ++
    (if t.raisesBreak then [handler t .break_ [.break_ t.loc none none]] else [])

def catchJumps (t : JumpTarget) (body : List Stmt) : List Stmt :=
  let handlers := loopHandlers t
  if handlers.isEmpty then body else [.try_ t.loc false body handlers [] []]

def blockStmts (t : JumpTarget) (body : List Stmt) : List Stmt :=
  (t.valueTarget.toList.map fun target => assign t.loc target (nothing t.loc.span)) ++
    if t.raisesBreak then [.try_ t.loc false body [handler t .break_ [.pass t.loc]] [] []] else body

end Lower

open Lower

mutual

def Stmt.lower : Stmt → Lower (List Stmt)
  | .function loc isAsync name params body decorators returns => do
    let body ← inScope (Stmt.lowerAll body)
    return [.function loc isAsync name params body decorators returns]
  | .class_ loc name bases keywords body decorators => do
    let body ← inScope (Stmt.lowerAll body)
    return [.class_ loc name bases keywords body decorators]
  | .for_ loc isAsync mark target iter body orElse => do
    let (body, t) ← inTarget ⟨loc, mark.label, true, mark.valueTarget, none, false, false⟩
      (Stmt.lowerAll body)
    let orElse ← Stmt.lowerAll orElse
    return [.for_ loc isAsync {} target iter (catchJumps t body) orElse]
  | .while_ loc mark test body orElse => do
    let (body, t) ← inTarget ⟨loc, mark.label, true, mark.valueTarget, none, false, false⟩
      (Stmt.lowerAll body)
    let orElse ← Stmt.lowerAll orElse
    return [.while_ loc {} test (catchJumps t body) orElse]
  | .block loc label target body => do
    let (body, t) ← inTarget ⟨loc, some label, false, target, none, false, false⟩
      (Stmt.lowerAll body)
    return blockStmts t body
  | .break_ loc label value => jump loc .break_ label value
  | .continue_ loc label => jump loc .continue_ label none
  | .if_ loc test body orElse => do
    let body ← Stmt.lowerAll body
    let orElse ← Stmt.lowerAll orElse
    return [.if_ loc test body orElse]
  | .with_ loc isAsync items body => do
    let body ← Stmt.lowerAll body
    return [.with_ loc isAsync items body]
  | .match_ loc subject cases => do
    let cases ← MatchCase.lowerAll cases
    return [.match_ loc subject cases]
  | .try_ loc isStar body handlers orElse final => do
    let body ← Stmt.lowerAll body
    let handlers ← Handler.lowerAll handlers
    let orElse ← Stmt.lowerAll orElse
    let final ← Stmt.lowerAll final
    return [.try_ loc isStar body handlers orElse final]
  | .callbackLoop loc header target iter body => do
    let body ← Stmt.lowerAll body
    return [.callbackLoop loc header target iter body]
  | s => return [s]

def Stmt.lowerAll : List Stmt → Lower (List Stmt)
  | [] => return []
  | s :: rest => do
    let stmts ← Stmt.lower s
    let rest ← Stmt.lowerAll rest
    return stmts ++ rest

def Handler.lowerAll : List Handler → Lower (List Handler)
  | [] => return []
  | .mk loc type name body :: rest => do
    let body ← Stmt.lowerAll body
    let rest ← Handler.lowerAll rest
    return .mk loc type name body :: rest

def MatchCase.lowerAll : List MatchCase → Lower (List MatchCase)
  | [] => return []
  | .mk pattern guard body :: rest => do
    let body ← Stmt.lowerAll body
    let rest ← MatchCase.lowerAll rest
    return .mk pattern guard body :: rest

end

def Holder.definition (h : Holder) : Stmt :=
  let s := h.loc.span
  assign h.loc h.name (call s (support s "Label") [text s h.label])

def lowerLabels (firstId : Nat) (body : List Stmt) : Except LowerFault (List Stmt × Nat) := do
  let (body, state) ← (Stmt.lowerAll body).run { nextId := firstId }
  let holders := state.holders.reverse.map Holder.definition
  return (if holders.isEmpty then body else insertAfterImport holders body, state.nextId)

end LoopEscape
