import LoopEscape.Generate.Lower

/-!
# Jumps on their way out

What a jump meets on the way to its target: clauses of `try` statements, their last parts, and `with`
statements.  Here all statements of the language have a meaning, relative to a host that answers
requests: to evaluate, to assign, to enter and leave a `with`, or to say whether a clause is for an
exception.  With each request the host is told of the exception that is handled, which a request in the
last part of a `try` may look at as well as one in a clause.  Two programs that give the same results with
every host make the same requests in the same order, for a host can keep a list of them.

A jump to the innermost loop is native, and no request tells of it.  A jump to another target is far.
It is shown to clauses, last parts and `with` statements as an exception would be, and goes on unless one
of them stops it.  Lowered code has the same meaning with the exceptions of its holders in place of far
jumps.
-/

namespace LoopEscape.Crossing

open Generate Lower

/-! ### Hosts -/

/-- What user code is shown of what passes it: an error, or a jump by its kind and value. -/
inductive Seen (ν ε : Type)
  | error (e : ε)
  | jump (kind : JumpKind) (value : ν)

inductive Request (ν ε : Type)
  | perform (s : Stmt)
  | evaluate (e : Expr)
  | test (e : Expr)
  | assign (target : Expr) (value : ν)
  | open_ (isAsync : Bool) (iter : Expr)
  | next (isAsync : Bool) (iterator : ν)
  | fits (pattern : CasePattern) (subject : ν)
  | enter (isAsync : Bool) (item : WithItem)
  | receive (item : WithItem) (manager : ν)
  /-- Leaves it, because of an exception or not; the answer says whether the exception is over. -/
  | leave (isAsync : Bool) (manager : ν) (seen : Option (Seen ν ε))
  /-- Whether the class that a clause names is one of the exception. -/
  | accepts (type : Expr) (seen : Seen ν ε)
  | bind (name : String) (seen : Seen ν ε)
  | unbind (name : String)
  /-- What a clause of `except*` takes, and what it leaves of an error. -/
  | split (type : Expr) (seen : Seen ν ε)
  /-- What clauses of `except*` have raised, and what no clause has taken. -/
  | regroup (raised : List ε) (rest : Option ε)
  | openClass (header : Stmt)
  | closeClass (header : Stmt)

abbrev Request.Answer {ν ε : Type} : Request ν ε → Type
  | perform _ | assign .. | receive .. | bind .. | unbind _ | openClass _ | closeClass _ => Unit
  | evaluate _ | open_ .. | enter .. => ν
  | test _ | fits .. | leave .. | accepts .. => Bool
  | next .. => Option ν
  | split .. => Option ε × Option ε
  | regroup .. => ε

abbrev Host (σ ν ε : Type) :=
  (handled : Option (Seen ν ε)) → (q : Request ν ε) → σ → σ × Except ε q.Answer

/-! ### Exits -/

inductive Exit (ν ε : Type)
  | normal
  | near (kind : JumpKind)
  /-- A jump to another target, counted from the innermost one. -/
  | far (index : Nat) (kind : JumpKind) (value : ν)
  | thrown (holder : String) (kind : JumpKind) (value : ν)
  | returned (value : ν)
  | raised (e : ε)
  /-- No meaning: a jump without a target, or one out of a clause of `except*`. -/
  | stuck
  | exhausted

namespace Exit

variable {ν ε : Type}

def seen? : Exit ν ε → Option (Seen ν ε)
  | raised e => some (.error e)
  | far _ kind v | thrown _ kind v => some (.jump kind v)
  | _ => none

def value? : Exit ν ε → Option ν
  | far _ _ v | thrown _ _ v => some v
  | _ => none

def deeper : Exit ν ε → Exit ν ε
  | far i kind v => far (i + 1) kind v
  | x => x

def isFar : Exit ν ε → Bool
  | far .. => true
  | _ => false

end Exit

abbrev Step (σ ν ε : Type) := σ → Exit ν ε × σ

namespace Step

variable {σ ν ε : Type}

def done : Step σ ν ε := fun s => (.normal, s)

def exit (x : Exit ν ε) : Step σ ν ε := fun s => (x, s)

def andThen (a b : Step σ ν ε) : Step σ ν ε := fun s =>
  match a s with
  | (.normal, s) => b s
  | r => r

end Step

open Step

/-! ### Surroundings -/

structure Target where
  label : Option String
  isLoop : Bool
  valueTarget : Option String

/-- What is around a statement: the targets, the innermost first, and what the clause or last part around
it handles. -/
structure Around (ν ε : Type) where
  targets : List Target := []
  handling : Option (Exit ν ε) := none

namespace Around

variable {ν ε : Type}

def inside (a : Around ν ε) (t : Target) : Around ν ε :=
  ⟨t :: a.targets, a.handling.map Exit.deeper⟩

def innermost? (a : Around ν ε) : Option Nat := a.targets.findIdx? (·.isLoop)

def labelled? (a : Around ν ε) (label : String) : Option Nat :=
  a.targets.findIdx? fun t => t.label == some label

def valueTarget? (a : Around ν ε) (index : Nat) : Option String :=
  a.targets[index]?.bind Target.valueTarget

end Around

structure Machine (σ ν ε : Type) where
  host : Host σ ν ε
  noValue : ν
  bound : Nat
  /-- The names of the module's holders, each of which stands for one label. -/
  holders : List String := []
  native : Bool := false
  /-- What the host is told of. -/
  handled : Option (Seen ν ε) := none

variable {σ ν ε : Type}

namespace Machine

variable (m : Machine σ ν ε)

def ask (q : Request ν ε) (next : q.Answer → Step σ ν ε) : Step σ ν ε := fun s =>
  match m.host m.handled q s with
  | (s, .ok a) => next a s
  | (s, .error e) => (.raised e, s)

def perform (stmt : Stmt) : Step σ ν ε := m.ask (.perform stmt) fun _ => done

def value (around : Around ν ε) (e : Expr) (next : ν → Step σ ν ε) : Step σ ν ε :=
  match e with
  | .member _ (.name _ x .load) "value" .load =>
    match if x = jumpVariable then around.handling.bind Exit.value? else none with
    | some v => next v
    | none => m.ask (.evaluate e) next
  | _ => m.ask (.evaluate e) next

def valueOption (around : Around ν ε) (e : Option Expr) (next : ν → Step σ ν ε) : Step σ ν ε :=
  match e with
  | none => next m.noValue
  | some e => m.value around e next

def bind (loc : Loc) (name : Option String) (v : ν) : Step σ ν ε :=
  match name with
  | none => done
  | some x => m.ask (.assign (store loc.span x) v) fun _ => done

def assign (around : Around ν ε) (target value : Expr) : Step σ ν ε :=
  match target with
  | .name _ x .store =>
    if x ∈ m.holders then done
    else m.value around value fun v => m.ask (.assign target v) fun _ => done
  | _ => m.value around value fun v => m.ask (.assign target v) fun _ => done

/-! ### Jumps -/

def nearJump (around : Around ν ε) (loc : Loc) (kind : JumpKind) (valueTarget : Option String)
    (value : Option Expr) : Step σ ν ε :=
  match value with
  | none => exit (.near kind)
  | some e => m.value around e fun v => (m.bind loc valueTarget v).andThen (exit (.near kind))

def jump (around : Around ν ε) (loc : Loc) (kind : JumpKind) (label : Option String)
    (value : Option Expr) : Step σ ν ε :=
  match label with
  | none => m.nearJump around loc kind (around.innermost?.bind around.valueTarget?) value
  | some l =>
    match around.labelled? l with
    | none => exit .stuck
    | some i =>
      if around.innermost? = some i then m.nearJump around loc kind (around.valueTarget? i) value
      else m.valueOption around value fun v => exit (.far i kind v)

def holderClass? : Expr → Option (String × JumpKind)
  | .member _ (.name _ h .load) kind .load =>
    if h ∈ m.holders then
      if kind = JumpKind.break_.name then some (h, .break_)
      else if kind = JumpKind.continue_.name then some (h, .continue_)
      else none
    else none
  | _ => none

theorem holderClass?_none {m : Machine σ ν ε} (h : m.holders = []) (e : Expr) :
    m.holderClass? e = none := by
  unfold holderClass?
  split
  · rw [h]
    exact if_neg (by simp)
  · rfl

/-- Raises an exception of a holder, or once more what is handled; all else is the user's. -/
def raise (around : Around ν ε) (loc : Loc) (exc cause : Option Expr) : Step σ ν ε :=
  match exc, cause with
  | none, none =>
    match around.handling with
    | some x => exit x
    | none => m.perform (.raise loc none none)
  | some (.call s func args []), none =>
    match m.holderClass? func, args with
    | some (h, kind), [] => exit (.thrown h kind m.noValue)
    | some (h, kind), [e] => m.value around e fun v => exit (.thrown h kind v)
    | _, _ => m.perform (.raise loc (some (.call s func args [])) none)
  | exc, cause => m.perform (.raise loc exc cause)

/-! ### Loops and blocks -/

/-- What a loop does after a pass: it goes on, is broken, or is left for an outer target. -/
def afterPass (receive : ν → Step σ ν ε) (again : Step σ ν ε) (r : Exit ν ε × σ) : Exit ν ε × σ :=
  match r with
  | (.normal, s) | (.near .continue_, s) | (.far 0 .continue_ _, s) => again s
  | (.near .break_, s) => (.normal, s)
  | (.far 0 .break_ v, s) => receive v s
  | (.far (i + 1) kind v, s) => (.far i kind v, s)
  | r => r

def loop (head : (Bool → Step σ ν ε) → Step σ ν ε) (receive : ν → Step σ ν ε)
    (body orElse : Step σ ν ε) : Nat → Step σ ν ε
  | 0 => exit .exhausted
  | n + 1 => head fun
      | true => fun s => afterPass receive (loop head receive body orElse n) (body s)
      | false => orElse

def advance (isAsync : Bool) (iterator : ν) (target : Expr) (next : Bool → Step σ ν ε) :
    Step σ ν ε :=
  m.ask (.next isAsync iterator) fun
    | none => next false
    | some v => m.ask (.assign target v) fun _ => next true

def clear (around : Around ν ε) (loc : Loc) (name : Option String) : Step σ ν ε :=
  match name with
  | none => done
  | some x => m.assign around (store loc.span x) (nothing loc.span)

def afterBlock (receive : ν → Step σ ν ε) (r : Exit ν ε × σ) : Exit ν ε × σ :=
  match r with
  | (.far 0 .break_ v, s) => receive v s
  | (.far 0 .continue_ _, s) => (.stuck, s)
  | (.far (i + 1) kind v, s) => (.far i kind v, s)
  | r => r

def guarded (guard : Option Expr) (body rest : Step σ ν ε) : Step σ ν ε :=
  match guard with
  | none => body
  | some g => m.ask (.test g) fun b => if b then body else rest

/-! ### Statements that are left -/

def afterWith (isAsync : Bool) (manager : ν) (r : Exit ν ε × σ) : Exit ν ε × σ :=
  match r with
  | (.stuck, s) => (.stuck, s)
  | (.exhausted, s) => (.exhausted, s)
  | (x, s) =>
    m.ask (.leave isAsync manager x.seen?)
      (fun handled => if handled && x.seen?.isSome then done else exit x) s

def within (isAsync : Bool) (body : Step σ ν ε) : List WithItem → Step σ ν ε
  | [] => body
  | item :: rest => m.ask (.enter isAsync item) fun manager s =>
    m.afterWith isAsync manager
      (m.ask (.receive item manager) (fun _ => within isAsync body rest) s)

def shown? (x : Exit ν ε) : Option (Seen ν ε) := if m.native && x.isFar then none else x.seen?

def afterBody (handle : Exit ν ε → Seen ν ε → Step σ ν ε) (orElse : Step σ ν ε)
    (r : Exit ν ε × σ) : Exit ν ε × σ :=
  match r with
  | (.normal, s) => orElse s
  | (x, s) =>
    match m.shown? x with
    | some seen => handle x seen s
    | none => (x, s)

theorem afterBody_eq {x : Exit ν ε} (hx : x ≠ .normal) (handle : Exit ν ε → Seen ν ε → Step σ ν ε)
    (orElse : Step σ ν ε) (s : σ) :
    m.afterBody handle orElse (x, s) = (m.shown? x).elim (x, s) fun seen => handle x seen s := by
  unfold afterBody
  cases x with
  | normal => exact absurd rfl hx
  | _ => dsimp only; split <;> simp only [*, Option.elim_some, Option.elim_none]

/-- The last part of a `try` runs whichever way the rest ends, and its own exit goes before. -/
def finallyDo (final : Exit ν ε → Step σ ν ε) (r : Exit ν ε × σ) : Exit ν ε × σ :=
  match r with
  | (.stuck, s) => (.stuck, s)
  | (.exhausted, s) => (.exhausted, s)
  | (x, s) => ((final x).andThen (exit x)) s

def during (seen : Seen ν ε) : Machine σ ν ε := { m with handled := some seen }

/-- An exception that is on its way is handled by the last part. -/
def lastPart (around : Around ν ε) (final : Machine σ ν ε → Around ν ε → Step σ ν ε) (x : Exit ν ε) :
    Step σ ν ε :=
  match m.shown? x with
  | none => final m around
  | some seen => final (m.during seen) { around with handling := some x }

theorem finallyDo_done (r : Exit ν ε × σ) : finallyDo (fun _ => done) r = r := by
  obtain ⟨x, s⟩ := r
  cases x <;> rfl

theorem lastPart_done (around : Around ν ε) : m.lastPart around (fun _ _ => done) = fun _ => done := by
  funext x
  unfold lastPart
  split <;> rfl

def takes (type : Option Expr) (x : Exit ν ε) (seen : Seen ν ε) (next : Bool → Step σ ν ε) :
    Step σ ν ε :=
  match type with
  | none => next true
  | some e =>
    match m.holderClass? e, x with
    | some cls, .thrown h kind _ => next (decide (cls = (h, kind)))
    | some _, _ => next false
    | none, _ => m.ask (.accepts e seen) next

def named (name : Option String) (seen : Seen ν ε) (body : Step σ ν ε) : Step σ ν ε :=
  match name with
  | none => body
  | some n =>
    if n = jumpVariable then body
    else m.ask (.bind n seen) fun _ s => ((body s).1, (m.host m.handled (.unbind n) (body s).2).1)

/-- In a clause the exception is handled; in one for a holder there is no code of the user's. -/
def handling (type : Option Expr) (seen : Seen ν ε) : Machine σ ν ε :=
  if (type.bind m.holderClass?).isSome then m else m.during seen

def endStar (raised : List ε) (rest : Option (Exit ν ε)) : Step σ ν ε :=
  match raised, rest with
  | [], none => done
  | [], some x => exit x
  | es, none => m.ask (.regroup es none) fun e => exit (.raised e)
  | es, some (.raised e) => m.ask (.regroup es (some e)) fun e => exit (.raised e)
  | _, _ => exit .stuck

def afterStar (next : List ε → Step σ ν ε) (r : Exit ν ε × σ) : Exit ν ε × σ :=
  match r with
  | (.normal, s) => next [] s
  | (.raised e, s) => next [e] s
  | (.exhausted, s) => (.exhausted, s)
  | (_, s) => (.stuck, s)

end Machine

/-! ### Statements -/

namespace Machine

mutual

def run (m : Machine σ ν ε) (around : Around ν ε) : Stmt → Step σ ν ε
  | .function loc isAsync name params _ decorators returns =>
    m.perform (.function loc isAsync name params [] decorators returns)
  | .class_ loc name bases keywords body decorators =>
    m.ask (.openClass (.class_ loc name bases keywords [] decorators)) fun _ =>
      (runAll m {} body).andThen
        (m.ask (.closeClass (.class_ loc name bases keywords [] decorators)) fun _ => done)
  | .return_ _ value => m.valueOption around value fun v => exit (.returned v)
  | .assign _ [target] value => m.assign around target value
  | .for_ loc isAsync mark target iter body orElse =>
    m.ask (.open_ isAsync iter) fun it =>
      loop (m.advance isAsync it target) (m.bind loc mark.valueTarget)
        (runAll m (around.inside ⟨mark.label, true, mark.valueTarget⟩) body)
        (runAll m around orElse) m.bound
  | .while_ loc mark test body orElse =>
    loop (m.ask (.test test)) (m.bind loc mark.valueTarget)
      (runAll m (around.inside ⟨mark.label, true, mark.valueTarget⟩) body)
      (runAll m around orElse) m.bound
  | .if_ _ test body orElse =>
    m.ask (.test test) fun
      | true => runAll m around body
      | false => runAll m around orElse
  | .with_ _ isAsync items body => m.within isAsync (runAll m around body) items
  | .match_ _ subject cases => m.value around subject fun v => runCases m around v cases
  | .raise loc exc cause => m.raise around loc exc cause
  | .try_ _ isStar body handlers orElse final => fun s =>
    finallyDo (m.lastPart around fun m around => runAll m around final) <| m.afterBody
      (fun x seen =>
        if isStar then runStar m around x seen [] handlers else runClauses m around x seen handlers)
      (runAll m around orElse) (runAll m around body s)
  | .break_ loc label value => m.jump around loc .break_ label value
  | .continue_ loc label => m.jump around loc .continue_ label none
  | .block loc label target body =>
    (m.clear around loc target).andThen fun s =>
      afterBlock (m.bind loc target)
        (runAll m (around.inside ⟨some label, false, target⟩) body s)
  | .expr _ e => m.value around e fun _ => done
  | .pass _ | .supportImport .. => done
  | .callbackLoop .. => exit .stuck
  | .assign loc targets value => m.perform (.assign loc targets value)
  | .delete loc targets => m.perform (.delete loc targets)
  | .augAssign loc target op value => m.perform (.augAssign loc target op value)
  | .annAssign loc target typeHint value simple =>
    m.perform (.annAssign loc target typeHint value simple)
  | .assert_ loc test message => m.perform (.assert_ loc test message)
  | .import_ loc names => m.perform (.import_ loc names)
  | .importFrom loc module names level => m.perform (.importFrom loc module names level)
  | .global loc names => m.perform (.global loc names)
  | .nonlocal loc names => m.perform (.nonlocal loc names)

def runAll (m : Machine σ ν ε) (around : Around ν ε) : List Stmt → Step σ ν ε
  | [] => done
  | s :: rest => (run m around s).andThen (runAll m around rest)

def runClauses (m : Machine σ ν ε) (around : Around ν ε) (x : Exit ν ε) (seen : Seen ν ε) :
    List Handler → Step σ ν ε
  | [] => exit x
  | .mk _ type name body :: rest =>
    m.takes type x seen fun
      | true =>
        m.named name seen (runAll (m.handling type seen) { around with handling := some x } body)
      | false => runClauses m around x seen rest

/-- Runs the clauses of `except*` one after the other, each on what is left by those before. -/
def runStar (m : Machine σ ν ε) (around : Around ν ε) (x : Exit ν ε) (seen : Seen ν ε)
    (raised : List ε) : List Handler → Step σ ν ε
  | [] => m.endStar raised (some x)
  | .mk _ none _ _ :: _ => exit .stuck
  | .mk _ (some type) name body :: rest =>
    m.ask (.split type seen) fun (part, left) =>
      match part with
      | none => runStar m around x seen raised rest
      | some g => fun s =>
        afterStar
          (fun more =>
            match seen, left with
            | .error _, some e => runStar m around (.raised e) (.error e) (raised ++ more) rest
            | _, _ => m.endStar (raised ++ more) none)
          (m.named name (.error g)
            (runAll (m.during (.error g)) { around with handling := some (.raised g) } body) s)

def runCases (m : Machine σ ν ε) (around : Around ν ε) (v : ν) : List MatchCase → Step σ ν ε
  | [] => done
  | .mk pattern guard body :: rest =>
    m.ask (.fits pattern v) fun
      | false => runCases m around v rest
      | true => m.guarded guard (runAll m around body) (runCases m around v rest)

end

end Machine

/-! ### Running one after the other -/

namespace Step

theorem andThen_done (a : Step σ ν ε) : a.andThen done = a := by
  funext s
  show (match a s with
    | (.normal, s) => (.normal, s)
    | r => r) = a s
  split <;> simp_all

theorem done_andThen (a : Step σ ν ε) : done.andThen a = a := rfl

theorem andThen_assoc (a b c : Step σ ν ε) : (a.andThen b).andThen c = a.andThen (b.andThen c) := by
  funext s
  simp only [andThen]
  rcases a s with ⟨_ | _, s⟩ <;> rfl

end Step

namespace Machine

variable (m : Machine σ ν ε) (around : Around ν ε)

theorem runAll_singleton (s : Stmt) : m.runAll around [s] = m.run around s := by
  rw [runAll, runAll, andThen_done]

theorem run_try (loc : Loc) (isStar : Bool) (body : List Stmt) (handlers : List Handler)
    (orElse : List Stmt) (s : σ) :
    m.run around (.try_ loc isStar body handlers orElse []) s = m.afterBody
      (fun x seen => if isStar then m.runStar around x seen [] handlers
        else m.runClauses around x seen handlers)
      (m.runAll around orElse) (m.runAll around body s) := by
  simp only [run, runAll, lastPart_done, finallyDo_done]

theorem runAll_append (a b : List Stmt) :
    m.runAll around (a ++ b) = (m.runAll around a).andThen (m.runAll around b) := by
  induction a with
  | nil => rw [List.nil_append, runAll, done_andThen]
  | cons s rest ih => rw [List.cons_append, runAll, ih, runAll, andThen_assoc]

theorem ask_andThen (q : Request ν ε) (f : q.Answer → Step σ ν ε) (b : Step σ ν ε) :
    (m.ask q f).andThen b = m.ask q fun a => (f a).andThen b := by
  funext s
  simp only [Step.andThen, ask]
  rcases m.host m.handled q s with ⟨s, _ | _⟩ <;> rfl

theorem value_andThen (e : Expr) (f : ν → Step σ ν ε) (b : Step σ ν ε) :
    (m.value around e f).andThen b = m.value around e fun v => (f v).andThen b := by
  unfold value
  split
  · split
    · rfl
    · rw [ask_andThen]
  · rw [ask_andThen]

end Machine

end LoopEscape.Crossing
