import LoopEscape.Proofs.Meaning.World
import LoopEscape.Generate.Dispatch

/-!
# The meaning of statements

One evaluator gives meaning to the plain language and to the dialect.  A jump leaves statements until
it reaches the innermost loop or block with its label, or without a label the innermost loop.  A
callback loop runs its body in place, once for every element that the iterator function delivers; the
host says what an error becomes that leaves the body, as it says it for one that leaves a task.
Plain code, which is what all passes end with, has the usual meaning: labels are gone, and a jump that
was raised is caught by the clause for its class.

Every loop may make as many passes as a bound allows; running out of passes is an exit of its own.
A statement outside of the language considered is stuck.
-/

namespace LoopEscape

open Generate

inductive Exit (ε : Type)
  | normal
  | jump (kind : JumpKind) (label : Option String) (value : Datum)
  | returned (value : Datum)
  | raised (error : Thrown ε)
  /-- A task is suspended with a signal; it is never resumed. -/
  | suspended (signal : Datum)
  | stuck
  | exhausted

structure State (σ ε : Type) where
  frame : Frame σ ε
  world : World σ

abbrev Step (σ ε : Type) := State σ ε → Exit ε × State σ ε

/-- What asking for something does: it is answered, or ends the statement. -/
abbrev Query (σ ε α : Type) := State σ ε → Except (Exit ε) α × State σ ε

structure Machine (σ ε : Type) where
  host : Host σ ε
  globals : Globals
  bound : Nat

variable {σ ε α : Type}

namespace State

def set (st : State σ ε) (name : String) (l : Local σ ε) : State σ ε :=
  { st with frame := st.frame.set name l }

def erase (st : State σ ε) (name : String) : State σ ε := { st with frame := st.frame.erase name }

def ask (e : Event) (work : σ → σ × Except ε α) : Query σ ε α := fun st =>
  ((st.world.ask e work).1.mapError fun e => .raised (.ordinary e),
    { st with world := (st.world.ask e work).2 })

end State

namespace Step

def done : Step σ ε := fun st => (.normal, st)

def exit (e : Exit ε) : Step σ ε := fun st => (e, st)

def andThen (a b : Step σ ε) : Step σ ε := fun st =>
  match a st with
  | (.normal, st) => b st
  | r => r

end Step

def Query.andThen (q : Query σ ε α) (next : α → Step σ ε) : Step σ ε := fun st =>
  match q st with
  | (.ok a, st) => next a st
  | (.error e, st) => (e, st)

open Step

namespace Machine

variable (m : Machine σ ε)

def value? (st : State σ ε) (e : Expr) : Option Datum := e.value? m.globals st.frame

def evaluate (e : Expr) : Query σ ε Datum := fun st =>
  match m.value? st e with
  | some v => (.ok v, st)
  | none => State.ask (.evaluated e) (m.host.evaluate e) st

def evaluateOption : Option Expr → Query σ ε Datum
  | none => fun st => (.ok .none, st)
  | some e => m.evaluate e

def test (e : Expr) : Query σ ε Bool := fun st =>
  match m.value? st e with
  | some (.bool b) => (.ok b, st)
  | _ => State.ask (.tested e) (m.host.test e) st

def assignOutside (target : Expr) (v : Datum) : Step σ ε :=
  Query.andThen (State.ask (.bound target v) (m.host.assign target v)) fun _ => done

def assign (target : Expr) (v : Datum) : Step σ ε :=
  match target with
  | .name _ x .store =>
    if isReserved x then fun st => (.normal, st.set x (.value v)) else m.assignOutside target v
  | _ => m.assignOutside target v

def bind (loc : Loc) (name : Option String) (v : Datum) : Step σ ε :=
  match name with
  | none => done
  | some x => m.assign (store loc.span x) v

def perform (s : Stmt) : Step σ ε :=
  Query.andThen (State.ask (.performed s) (m.host.perform s)) fun _ => done

end Machine

/-! ### Loops and blocks -/

def LoopMark.owns (mark : LoopMark) (label : Option String) : Bool :=
  label.isNone || label == mark.label

def State.receive (target : Option String) (v : Datum) (st : State σ ε) : State σ ε :=
  match target with
  | none => st
  | some x => st.set x (.value v)

def LoopMark.afterPass (mark : LoopMark) (again : Step σ ε) (r : Exit ε × State σ ε) :
    Exit ε × State σ ε :=
  match r with
  | (.normal, st) => again st
  | (.jump kind label v, st) =>
    if mark.owns label then
      match kind with
      | .continue_ => again st
      | .break_ => (.normal, st.receive mark.valueTarget v)
    else (.jump kind label v, st)
  | r => r

def loop (mark : LoopMark) (head : Query σ ε Bool) (body orElse : Step σ ε) : Nat → Step σ ε
  | 0 => exit .exhausted
  | n + 1 => head.andThen fun
      | true => fun st => mark.afterPass (loop mark head body orElse n) (body st)
      | false => orElse

def afterBlock (label : String) (receive : Datum → Step σ ε) (r : Exit ε × State σ ε) :
    Exit ε × State σ ε :=
  match r with
  | (.jump kind (some l) v, st) =>
    if l = label then
      match kind with
      | .break_ => receive v st
      | .continue_ => (.stuck, st)
    else (.jump kind (some l) v, st)
  | r => r

def afterBody (handle : Thrown ε → Step σ ε) (orElse : Step σ ε) (r : Exit ε × State σ ε) :
    Exit ε × State σ ε :=
  match r with
  | (.normal, st) => orElse st
  | (.raised e, st) => handle e st
  | r => r

def Exit.tell (f : Thrown ε → σ → σ) : Exit ε → State σ ε → State σ ε
  | .raised e, st => { st with world := { st.world with store := f e st.world.store } }
  | _, st => st

/-- The exit of a last part goes before the exit that it follows, unless it is normal. -/
def Exit.lastly (e : Exit ε) : Exit ε → Exit ε
  | .normal => e
  | e' => e'

/-- The last part of a `try` runs whichever way the rest ends, and is told of an error.  Closing a
suspended task inside of it is not considered. -/
def finallyDo (host : Host σ ε) (final : Step σ ε) (r : Exit ε × State σ ε) : Exit ε × State σ ε :=
  match r with
  | (.stuck, st) => (.stuck, st)
  | (.exhausted, st) => (.exhausted, st)
  | (.suspended _, st) => (.stuck, st)
  | (exit, st) =>
    let r := final (exit.tell host.notice st)
    (exit.lastly r.1, exit.tell host.forget r.2)

def catchJump (cls : JumpLabel × JumpKind) (name : Option String) (body otherwise : Step σ ε)
    (e : Thrown ε) : Step σ ε := fun st =>
  match e with
  | .raised (.jump l kind v) =>
    if JumpLabel.catches cls (l, kind) then
      match name with
      | none => body st
      | some x => ((body (st.set x (.jump v))).1, (body (st.set x (.jump v))).2.erase x)
    else otherwise st
  | _ => otherwise st

/-! ### Iterator functions -/

/-- What one call of a callback leads to: the iteration goes on, or it is over. -/
inductive Pass (α : Type)
  | goOn (value : Datum)
  | stop (result : α)

inductive Driven (ε α : Type)
  | finished (result : Datum)
  | stopped (result : α)
  | failed (error : ε)
  | exhausted

def drive {κ : Type} (it : Iterator σ ε) (callback : κ → Datum → World σ → Pass α × κ × World σ) :
    Nat → κ → List Datum → World σ → Driven ε α × World σ
  | 0, _, _, w => (.exhausted, w)
  | n + 1, c, seen, w =>
    match it seen w.store with
    | (s, .finish v) => (.finished v, { w with store := s })
    | (s, .fail e) => (.failed e, { w with store := s })
    | (s, .deliver item) =>
      match callback c item (w.note (.delivered item) s) with
      | (.goOn v, c, w) => drive it callback n c (seen ++ [v]) w
      | (.stop r, _, w) => (.stopped r, w)

/-- What the outcome of a callback's call leads to.  A state of the iteration goes to the iterator
function, and an error ends its call.  Jumps that leave a task as errors are not considered. -/
def afterCall : Except (Thrown ε) Datum → Pass (Except (Exit ε) Datum)
  | .error (.raised (.jump ..)) => .stop (.error .stuck)
  | .error e => .stop (.error (.raised e))
  | .ok (.continue_ v) => .goOn v
  | .ok (.break_ v) => .stop (.ok (.break_ v))
  | .ok _ => .stop (.error .stuck)

/-- The callback that the support module makes of a task.  A callback that refuses the call does not
poll the task. -/
def relayCall (run : Datum → World σ → TaskEnd ε × World σ) (c : Callback (Raised ε) Unit) (item : Datum)
    (w : World σ) : Pass (Except (Exit ε) Datum) × Callback (Raised ε) Unit × World σ :=
  match run item w with
  | (.polled poll, w') =>
    let r := { c with task := fun _ _ => { poll } : Callback (Raised ε) Unit }.call item
    (afterCall r.outcome, r.callback, if c.debug && c.escaped.isSome then w else w')
  | (.stuck, w') => (.stop (.error .stuck), c, w')
  | (.exhausted, w') => (.stop (.error .exhausted), c, w')

/-- What a pass through the body of a callback loop leads to.  The loop itself is continued without
a value and broken with one, and `leave` is what errors become. -/
def afterCallback (leave : ε → ε) (label : Option String) (value : Datum) :
    Exit ε → Pass (Except (Exit ε) Datum)
  | .normal => .goOn value
  | .jump kind l v =>
    if l.isNone || l == label then
      match kind with
      | .continue_ => .goOn .none
      | .break_ => .stop (.ok v)
    else .stop (.error (.jump kind l v))
  | .raised e => .stop (.error (.raised (e.leave leave)))
  | e => .stop (.error e)

/-- The answer of a call; `finish` makes one of the result of an iteration that was not stopped. -/
def Driven.answer (finish : Datum → Datum) : Driven ε (Except (Exit ε) Datum) → Except (Exit ε) Datum
  | .finished v => .ok (finish v)
  | .stopped r => r
  | .failed e => .error (.raised (.ordinary e))
  | .exhausted => .error .exhausted

/-! ### Forms of generated code -/

def Exit.polled (leave : ε → ε) (slot : Option (Local σ ε)) : Exit ε → TaskEnd ε
  | .normal => .polled (.returned .none)
  | .returned v => .polled (.returned v)
  | .raised e => .polled (.raised (e.leave leave))
  | .suspended signal =>
    match slot with
    | some (.slot s) => .polled (.suspended signal s)
    | _ => .stuck
  | .exhausted => .exhausted
  | .jump .. | .stuck => .stuck

def pollTask (leave : ε → ε) (item slot : String) (body : Step σ ε) (v : Datum) (w : World σ) :
    TaskEnd ε × World σ :=
  let r := body ⟨(Frame.empty.set item (.value v)).set slot (.slot {}), w⟩
  (r.1.polled leave (r.2.frame slot), r.2.world)

def Params.taskNames? : Params → Option (String × String)
  | .mk [] [.mk _ item none none, .mk _ slot none none] none [] none => some (item, slot)
  | _ => none

def taskNames? (isAsync : Bool) (name : String) (params : Params) (decorators : List Expr)
    (returns : Option Expr) : Option (String × String) :=
  if isReserved name && !isAsync && decorators.isEmpty && returns.isNone then params.taskNames?
  else none

def Expr.abort? : Expr → Option (String × Expr)
  | .yield _ (some (.call _ (.member _ (.name _ slot .load) "record" .load) [flow] [])) =>
    if isReserved slot then some (slot, flow) else none
  | _ => none

/-- A call with the callback of a task as its last argument: the call without it, the name of the
task, and whether calls after a stop are refused. -/
def Expr.relayed? : Expr → Option (CallForm × String × Bool)
  | .call s func args keywords =>
    match args.getLast? with
    | some (.call _ (.member _ (.name _ owner .load) "relay" .load) [.name _ task .load] options) =>
      if owner = supportName then
        (CallForm.of? (.call s func args.dropLast keywords)).map
          fun form => (form, task, !options.isEmpty)
      else none
    | _ => none
  | _ => none

namespace Machine

variable (m : Machine σ ε)

def labelClass? : Expr → Option (JumpLabel × JumpKind)
  | .member _ (.name _ holder .load) kind .load =>
    (m.globals.labels holder).bind fun l =>
      if kind = JumpKind.break_.name then some (l, .break_)
      else if kind = JumpKind.continue_.name then some (l, .continue_)
      else none
  | _ => none

def drive {κ : Type} (form : CallForm)
    (callback : κ → Datum → World σ → Pass (Except (Exit ε) Datum) × κ × World σ) (c : κ)
    (finish : Datum → Datum) (next : Datum → Step σ ε) : Step σ ε :=
  Query.andThen (State.ask (.called form) (m.host.iterator form)) fun it =>
    Query.andThen (fun st =>
      let r := LoopEscape.drive it callback m.bound c [] st.world
      (r.1.answer finish, { st with world := r.2 })) next

def callRelayed (form : CallForm) (task : String) (debug : Bool) (next : Datum → Step σ ε) :
    Step σ ε := fun st =>
  match st.frame task with
  | some (.task run) =>
    m.drive form (relayCall run) { task := fun _ _ => { poll := .returned .none }, debug }
      .continue_ next st
  | _ => (.stuck, st)

def abort (slot : String) (flow : Expr) : Step σ ε := fun st =>
  match st.frame slot, m.value? st flow with
  | some (.slot s), some v =>
    match s.record v with
    | .ok s => (.suspended .abort, st.set slot (.slot s))
    | .error e => (.raised e, st)
  | _, _ => (.stuck, st)

def execExpr (e : Expr) : Step σ ε :=
  match e.abort? with
  | some (slot, flow) => m.abort slot flow
  | none => Query.andThen (m.evaluate e) fun _ => done

def execAssign (loc : Loc) (targets : List Expr) (value : Expr) : Step σ ε :=
  match targets with
  | [target] =>
    match value.relayed? with
    | some (form, task, debug) =>
      if m.globals.support then m.callRelayed form task debug (m.assign target) else exit .stuck
    | none => Query.andThen (m.evaluate value) (m.assign target)
  | _ => m.perform (.assign loc targets value)

/-- What generated code raises: a jump to a label, or that an iterator function has not kept the
protocol.  Anything else is left to the host. -/
def execRaise (loc : Loc) (exc cause : Option Expr) : Step σ ε :=
  match exc, cause with
  | some (.call _ func args []), none =>
    match m.labelClass? func, m.globals.support? func, args with
    | some (l, kind), _, [] => exit (.raised (.raised (.jump l kind .none)))
    | some (l, kind), _, [e] =>
      Query.andThen (m.evaluate e) fun v => exit (.raised (.raised (.jump l kind v)))
    | none, some "protocol_error", [e] =>
      Query.andThen (m.evaluate e) fun v => exit (.raised (.badResult v))
    | _, _, _ => m.perform (.raise loc exc cause)
  | _, _ => m.perform (.raise loc exc cause)

def advance (iterator : Datum) (target : Expr) : Query σ ε Bool := fun st =>
  match State.ask (.advanced iterator) (m.host.next iterator) st with
  | (.error e, st) => (.error e, st)
  | (.ok none, st) => (.ok false, st)
  | (.ok (some v), st) =>
    match m.assign target v st with
    | (.normal, st) => (.ok true, st)
    | (e, st) => (.error e, st)

def execFor (mark : LoopMark) (target iter : Expr) (body orElse : Step σ ε) : Step σ ε :=
  if m.globals.support? iter = some "ONCE" then
    (m.assign target .none).andThen fun st => mark.afterPass orElse (body st)
  else Query.andThen (State.ask (.opened iter) (m.host.open_ iter)) fun it =>
    loop mark (m.advance it target) body orElse m.bound

/-- One pass of a callback loop: the element is bound, and the body gives the value of the pass. -/
def callbackPass (frame : Frame σ ε) (label : Option String) (target : Expr)
    (body : State σ ε → (Exit ε × Datum) × State σ ε) (_ : Unit) (item : Datum) (w : World σ) :
    Pass (Except (Exit ε) Datum) × Unit × World σ :=
  match m.assign target item ⟨frame, w⟩ with
  | (.normal, st) =>
    (afterCallback m.host.leaving label (body st).1.2 (body st).1.1, (), (body st).2.world)
  | (e, st) => (afterCallback m.host.leaving label .none e, (), st.world)

def execCallback (loc : Loc) (header : CallbackHeader) (target iter : Expr)
    (body : State σ ε → (Exit ε × Datum) × State σ ε) : Step σ ε := fun st =>
  match CallForm.of? iter with
  | none => (.stuck, st)
  | some form =>
    m.drive form (m.callbackPass st.frame header.label target body) () id
      (m.bind loc header.result) st

end Machine

/-! ### Statements -/

def Stmt.onlyDeclare : List Stmt → Bool
  | [] => true
  | .global .. :: rest | .nonlocal .. :: rest => Stmt.onlyDeclare rest
  | _ => false

mutual

def Stmt.exec (m : Machine σ ε) : Stmt → Step σ ε
  | .function _ isAsync name params body decorators returns =>
    match taskNames? isAsync name params decorators returns with
    | some (item, slot) => fun st =>
      (.normal, st.set name (.task (pollTask m.host.leaving item slot (Stmt.execAll m body))))
    | none => exit .stuck
  | .return_ _ value => Query.andThen (m.evaluateOption value) fun v => exit (.returned v)
  | .assign loc targets value => m.execAssign loc targets value
  | .annAssign loc target typeHint value simple =>
    if value.isNone && simple then done
    else m.perform (.annAssign loc target typeHint value simple)
  | .for_ _ isAsync mark target iter body orElse =>
    if isAsync then exit .stuck
    else m.execFor mark target iter (Stmt.execAll m body) (Stmt.execAll m orElse)
  | .while_ _ mark test body orElse =>
    loop mark (m.test test) (Stmt.execAll m body) (Stmt.execAll m orElse) m.bound
  | .if_ _ test body orElse =>
    Query.andThen (m.test test) fun
      | true => Stmt.execAll m body
      | false => Stmt.execAll m orElse
  | .raise loc exc cause => m.execRaise loc exc cause
  | .try_ _ isStar body handlers orElse final => fun st =>
    let r := afterBody (fun e => Handler.execAll m e handlers) (Stmt.execAll m orElse)
      (Stmt.execAll m body st)
    if isStar then (.stuck, st)
    else if final.isEmpty then r else finallyDo m.host (Stmt.execAll m final) r
  | .global .. | .nonlocal .. | .pass .. => done
  | .expr _ e => m.execExpr e
  | .break_ _ label value =>
    Query.andThen (m.evaluateOption value) fun v => exit (.jump .break_ label v)
  | .continue_ _ label => exit (.jump .continue_ label .none)
  | .callbackLoop loc header target iter body =>
    m.execCallback loc header target iter (Stmt.execPass m body)
  | .block loc label target body =>
    (m.bind loc target .none).andThen fun st =>
      afterBlock label (m.bind loc target) (Stmt.execAll m body st)
  | .delete loc targets => m.perform (.delete loc targets)
  | .augAssign loc target op value => m.perform (.augAssign loc target op value)
  | .assert_ loc test message => m.perform (.assert_ loc test message)
  | .import_ loc names => m.perform (.import_ loc names)
  | .importFrom loc module names level => m.perform (.importFrom loc module names level)
  | .class_ .. | .with_ .. | .match_ .. | .supportImport .. => exit .stuck

def Stmt.execAll (m : Machine σ ε) : List Stmt → Step σ ε
  | [] => done
  | s :: rest => (Stmt.exec m s).andThen (Stmt.execAll m rest)

/-- Runs the body of a callback loop: an expression at its end is the value of the pass. -/
def Stmt.execPass (m : Machine σ ε) : List Stmt → State σ ε → (Exit ε × Datum) × State σ ε
  | [], st => ((.normal, .none), st)
  | s :: rest, st =>
    match s, Stmt.onlyDeclare rest with
    | .expr _ e, true =>
      match m.evaluate e st with
      | (.ok v, st) => ((.normal, v), st)
      | (.error exit, st) => ((exit, .none), st)
    | _, _ =>
      match Stmt.exec m s st with
      | (.normal, st) => Stmt.execPass m rest st
      | (exit, st) => ((exit, .none), st)

/-- Runs the clause of a `try` for an error; clauses for other classes than those of labels are not
considered. -/
def Handler.execAll (m : Machine σ ε) (e : Thrown ε) : List Handler → Step σ ε
  | [] => exit (.raised e)
  | .mk _ type name body :: rest =>
    match type.bind m.labelClass? with
    | some cls => catchJump cls name (Stmt.execAll m body) (Handler.execAll m e rest) e
    | none => exit .stuck

end

/-! ### Running one after the other -/

namespace Step

theorem andThen_done (a : Step σ ε) : a.andThen done = a := by
  funext st
  show (match a st with
    | (.normal, st) => (.normal, st)
    | r => r) = a st
  split <;> simp_all

theorem done_andThen (a : Step σ ε) : done.andThen a = a := rfl

theorem andThen_assoc (a b c : Step σ ε) : (a.andThen b).andThen c = a.andThen (b.andThen c) := by
  funext st
  simp only [andThen]
  rcases a st with ⟨_ | _, st⟩ <;> rfl

theorem andThen_of_normal {a b : Step σ ε} {st st' : State σ ε} (h : a st = (.normal, st')) :
    a.andThen b st = b st' := by
  simp only [andThen, h]

end Step

def Query.Ends (q : Query σ ε α) : Prop := ∀ st e, (q st).1 = .error e → e ≠ .normal

theorem Query.andThen_andThen {q : Query σ ε α} (hq : q.Ends) (f : α → Step σ ε) (b : Step σ ε) :
    Step.andThen (q.andThen f) b = q.andThen fun a => (f a).andThen b := by
  funext st
  have he := hq st
  simp only [Step.andThen, Query.andThen]
  rcases hr : q st with ⟨e | a, st'⟩
  · rw [hr] at he
    cases e with
    | normal => exact absurd rfl (he .normal rfl)
    | _ => rfl
  · rfl

theorem State.ask_ends (e : Event) (work : σ → σ × Except ε α) : Query.Ends (State.ask e work) := by
  intro st x hx
  simp only [State.ask] at hx
  cases h : (st.world.ask e work).1 with
  | error err => rw [h] at hx; cases hx; exact fun h => by cases h
  | ok a => rw [h] at hx; cases hx

theorem Machine.evaluate_ends (m : Machine σ ε) (e : Expr) : Query.Ends (m.evaluate e) := by
  intro st x hx
  unfold Machine.evaluate at hx
  split at hx
  · cases hx
  · exact State.ask_ends _ _ st x hx

theorem exec_assign {m : Machine σ ε} {loc : Loc} {x : String} {e : Expr} (h : e.relayed? = none) :
    Stmt.exec m (assign loc x e) = (m.evaluate e).andThen (m.assign (store loc.span x)) := by
  rw [assign, Stmt.exec]
  simp only [Machine.execAssign, h]

namespace Stmt

variable (m : Machine σ ε)

theorem execAll_nil : execAll m [] = done := by rw [execAll]

theorem execAll_cons (s : Stmt) (rest : List Stmt) :
    execAll m (s :: rest) = (exec m s).andThen (execAll m rest) := by rw [execAll]

theorem execAll_singleton (s : Stmt) : execAll m [s] = exec m s := by
  rw [execAll_cons, execAll_nil, andThen_done]

theorem execAll_append (a b : List Stmt) :
    execAll m (a ++ b) = (execAll m a).andThen (execAll m b) := by
  induction a with
  | nil => rw [List.nil_append, execAll_nil, done_andThen]
  | cons s rest ih => rw [List.cons_append, execAll_cons, ih, execAll_cons, andThen_assoc]

end Stmt

end LoopEscape
