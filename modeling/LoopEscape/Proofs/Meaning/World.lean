import LoopEscape.Relay.Basic
import LoopEscape.Generate.Lower
import LoopEscape.Execute.Basic

/-!
# What programs run in

A program is given meaning relative to a host, which knows what simple statements, expressions and
iterator functions do to a store of user variables.  Everything that the host is asked for is noted in
a trace, so that two programs with the same trace ask the same things in the same order.

Names that generated code owns are kept apart from the user's, in a frame of their own for each
function.  The few expressions that generated code is made of are evaluated here, without the host.
-/

namespace LoopEscape

open Generate

/-! ### Hosts -/

/-- A value of a program.  There may be objects among them that say for themselves what they equal. -/
abbrev Datum := Value Unit

/-- What code raises by itself: an error of the user's, or a jump to a label. -/
inductive Raised (ε : Type)
  | ordinary (error : ε)
  | jump (label : JumpLabel) (kind : JumpKind) (value : Datum)

abbrev Thrown (ε : Type) := RelayError (Raised ε) Unit

def Thrown.ordinary {ε : Type} (e : ε) : Thrown ε := .raised (.ordinary e)

def Thrown.leave {ε : Type} (f : ε → ε) : Thrown ε → Thrown ε
  | .raised (.ordinary e) => .raised (.ordinary (f e))
  | e => e

inductive Decision (ε : Type)
  | deliver (item : Datum)
  | finish (result : Datum)
  | fail (error : ε)

/-- An iterator function that keeps the protocol.  It decides what to do next from the values that its
callback has continued with; a `Break` of the callback it returns at once, so it is not asked then. -/
abbrev Iterator (σ ε : Type) := List Datum → σ → σ × Decision ε

structure Host (σ ε : Type) where
  perform : Stmt → σ → σ × Except ε Unit
  evaluate : Expr → σ → σ × Except ε Datum
  test : Expr → σ → σ × Except ε Bool
  assign : Expr → Datum → σ → σ × Except ε Unit
  open_ : Expr → σ → σ × Except ε Datum
  next : Datum → σ → σ × Except ε (Option Datum)
  /-- Evaluates the call of a callback loop up to the callback. -/
  iterator : CallForm → σ → σ × Except ε (Iterator σ ε)
  /-- What an error becomes that leaves a generator: the signal for the end of an iteration is replaced
  there. -/
  leaving : ε → ε := id
  /-- Makes an error known that is on its way while the last part of a `try` runs: what is asked for in
  there may look at it. -/
  notice : Thrown ε → σ → σ := fun _ => id
  forget : Thrown ε → σ → σ := fun _ => id

/-- A host for which an error that is not on its way any more is forgotten, and on which jumps that are on
their way have no effect. -/
structure Host.Blind {σ ε : Type} (host : Host σ ε) : Prop where
  restores : ∀ e s, host.forget e (host.notice e s) = s
  jump : ∀ l kind v s, host.notice (.raised (.jump l kind v)) s = s

inductive Event
  | performed (s : Stmt)
  | evaluated (e : Expr)
  | tested (e : Expr)
  | bound (target : Expr) (value : Datum)
  | opened (iter : Expr)
  | advanced (iterator : Datum)
  | called (form : CallForm)
  | delivered (item : Datum)

structure World (σ : Type) where
  store : σ
  trace : List Event := []

namespace World

variable {σ ε α : Type}

def note (w : World σ) (e : Event) (store : σ) : World σ := ⟨store, w.trace ++ [e]⟩

def ask (w : World σ) (e : Event) (work : σ → σ × Except ε α) : Except ε α × World σ :=
  ((work w.store).2, w.note e (work w.store).1)

end World

/-! ### Frames -/

inductive TaskEnd (ε : Type)
  | polled (poll : Poll (Raised ε) Unit)
  | stuck
  | exhausted

inductive Local (σ ε : Type)
  | value (v : Datum)
  | jump (v : Datum)
  | slot (s : Slot Unit)
  | task (run : Datum → World σ → TaskEnd ε × World σ)

abbrev Frame (σ ε : Type) := String → Option (Local σ ε)

namespace Frame

variable {σ ε : Type}

def empty : Frame σ ε := fun _ => none

def set (f : Frame σ ε) (name : String) (l : Local σ ε) : Frame σ ε :=
  fun x => if x = name then some l else f x

def erase (f : Frame σ ε) (name : String) : Frame σ ε := fun x => if x = name then none else f x

def lookup (f : Frame σ ε) (name : String) : Option (Local σ ε) :=
  if isReserved name then f name else none

end Frame

/-- What generated code finds in its module: whether the support module is there, and the labels. -/
structure Globals where
  support : Bool := false
  labels : String → Option JumpLabel := fun _ => none
  count : Nat := 0

namespace Globals

def support? (g : Globals) : Expr → Option String
  | .member _ (.name _ m .load) name .load =>
    if m = supportName ∧ g.support = true then some name else none
  | _ => none

def addLabel (g : Globals) (holder text : String) : Globals :=
  { g with labels := fun x => if x = holder then some ⟨g.count, text⟩ else g.labels x
           count := g.count + 1 }

def after (g : Globals) : Stmt → Globals
  | .supportImport .. => { g with support := true }
  | .assign _ [.name _ holder .store] (.call _ func [.const _ (.str codes _)] []) =>
    if g.support? func = some "Label" then g.addLabel holder (Text.ofCodes codes) else g
  | _ => g

def load (module : List Stmt) : Globals := module.foldl after {}

end Globals

/-! ### Expressions of generated code -/

def Value.attribute? (name : String) : Datum → Option Datum
  | .continue_ v | .break_ v | .earlyReturn v | .earlyBreak v =>
    if name = "value" then some v else Option.none
  | .breakTo label v =>
    if name = "value" then some v else if name = "label" then some label.value else Option.none
  | .continueTo label => if name = "label" then some label.value else Option.none
  | _ => Option.none

def Value.construct? : String → List Datum → Option Datum
  | "Continue", [v] => some (.continue_ v)
  | "Break", [v] => some (.break_ v)
  | "EarlyBreak", [v] => some (.earlyBreak v)
  | "BreakTo", [.text label, v] => some (.breakTo label v)
  | "ContinueTo", [.text label] => some (.continueTo label)
  | _, _ => Option.none

/-- The value of an expression of generated code; all other expressions are left to the host. -/
def Expr.value? {σ ε : Type} (g : Globals) (f : Frame σ ε) : Expr → Option Datum
  | .const _ l => Value.ofLiteral? l
  | .name _ x .load =>
    match f.lookup x with
    | some (.value v) => some v
    | _ => none
  | .member _ e field .load =>
    match e with
    | .name _ x .load =>
      match f.lookup x with
      | some (.value v) => v.attribute? field
      | some (.jump v) => if field = "value" then some v else none
      | _ => none
    | e => (Expr.value? g f e).bind (Value.attribute? field)
  | .call _ func [a] [] =>
    (g.support? func).bind fun what =>
      (Expr.value? g f a).bind fun v => Value.construct? what [v]
  | .call _ func [a, b] [] =>
    (g.support? func).bind fun what =>
      (Expr.value? g f a).bind fun v =>
        if what = "is_instance" then (g.support? b).map fun kind => .bool (v.isInstance kind)
        else (Expr.value? g f b).bind fun w => Value.construct? what [v, w]
  | .unary _ .not e =>
    match Expr.value? g f e with
    | some (.bool b) => some (.bool !b)
    | _ => none
  | .boolOp _ .and [a, b] =>
    match Expr.value? g f a with
    | some (.bool true) => Expr.value? g f b
    | some (.bool false) => some (.bool false)
    | _ => none
  | .compare _ a [(.eq, b)] =>
    (Expr.value? g f a).bind fun v => (Expr.value? g f b).map fun w => .bool (v.same w)
  | _ => none

end LoopEscape
