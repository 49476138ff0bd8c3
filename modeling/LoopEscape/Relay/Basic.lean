import LoopEscape.Relay.Value

/-!
# Relaying escapes

The body of a callback loop runs as a task: it is polled once for every element and closed right after.
It may return, which leaves the function around the loop, or record a state in its slot and suspend
itself with the signal for that.  A relay turns a task into the callback of an iterator function.
-/

namespace LoopEscape

open Text

/-- What can go wrong; `ε` are the errors that the code of a task may raise by itself. -/
inductive RelayError (ε : Type := String) (ω : Type := Empty)
  | recordedTwice (old new : Value ω)
  | suspended (signal : Value ω)
  | calledAgain (stop : Value ω)
  | badResult (result : Value ω)
  | notAState (value : Value ω)
  | emptySlot
  | raised (error : ε)
  | ignoredClose
  | frozen (field : String)
deriving Inhabited

namespace RelayError

def className : RelayError → String
  | recordedTwice _ _ | suspended _ => "RelayMisuseError"
  | calledAgain _ | badResult _ => "IteratorProtocolError"
  | notAState _ => "AttributeError"
  | emptySlot => "AssertionError"
  | raised _ => "ValueError"
  | ignoredClose => "RuntimeError"
  | frozen _ => "FrozenInstanceError"

def text : RelayError → String
  | recordedTwice old new => "escape recorded twice: " ++ old.shown ++ " and " ++ new.shown
  | suspended signal =>
    "the body of a cbit loop suspended with " ++ signal.render ++
      " (cbit loop bodies cannot contain `yield`)"
  | calledAgain stop => "callback invoked again after it returned " ++ stop.shown
  | badResult result =>
    if result.stops? == some true then
      "iterator function returned a break it did not receive: " ++ result.shown
    else "iterator function must return Continue or Break, got " ++ result.render
  | notAState v => quote v.className ++ " object has no attribute 'is_break'"
  | emptySlot => ""
  | raised t => t
  | ignoredClose => "generator ignored GeneratorExit"
  | frozen field => "cannot assign to field " ++ quote field

def payload? {ε ω : Type} : RelayError ε ω → Option (Value ω)
  | calledAgain v | badResult v => some v
  | _ => none

def message (e : RelayError) : String :=
  match e.payload? with
  | none => e.text
  | some v => (Value.tuple [.text e.text, v]).render

end RelayError

/-! ### Slots -/

/-- Takes the outcome of one run of a task.  An empty slot holds nothing. -/
structure Slot (ω : Type := Empty) where
  content : Value ω := .none
deriving Inhabited

namespace Slot

variable {ε ω : Type}

def isFilled (s : Slot ω) : Bool := !s.content.isNone

def record (s : Slot ω) (flow : Value ω) : Except (RelayError ε ω) (Slot ω) :=
  if s.isFilled then .error (.recordedTwice s.content flow) else .ok ⟨flow⟩

def take (s : Slot ω) : Except (RelayError ε ω) (Value ω) :=
  if s.isFilled then .ok s.content else .error .emptySlot

end Slot

/-! ### Tasks -/

inductive Poll (ε : Type := String) (ω : Type := Empty)
  | returned (value : Value ω)
  | raised (error : RelayError ε ω)
  | suspended (signal : Value ω) (slot : Slot ω)

structure TaskRun (ε : Type := String) (ω : Type := Empty) where
  poll : Poll ε ω
  closing : Option (RelayError ε ω) := none
  log : List (Value ω) := []

abbrev Task (ε : Type := String) (ω : Type := Empty) := Value ω → Slot ω → TaskRun ε ω

variable {ε ω : Type}

def Poll.outcome : Poll ε ω → Except (RelayError ε ω) (Value ω)
  | returned v => .ok (.break_ (.earlyReturn v))
  | raised e => .error e
  | suspended signal slot =>
    if signal.isAbort && slot.isFilled then slot.take else .error (.suspended signal)

def TaskRun.outcome (r : TaskRun ε ω) : Except (RelayError ε ω) (Value ω) :=
  match r.closing with
  | some e => .error e
  | none => r.poll.outcome

/-! ### Callbacks -/

structure Callback (ε : Type := String) (ω : Type := Empty) where
  task : Task ε ω
  debug : Bool := false
  escaped : Option (Value ω) := none

/-- The result of one call: the callback afterwards, what it returned, what the task logged. -/
structure CallResult (ε : Type := String) (ω : Type := Empty) where
  callback : Callback ε ω
  outcome : Except (RelayError ε ω) (Value ω)
  log : List (Value ω) := []

namespace Callback

def settle (c : Callback ε ω) (flow : Value ω) : Callback ε ω × Except (RelayError ε ω) (Value ω) :=
  if c.debug then
    match flow.stops? with
    | none => (c, .error (.notAState flow))
    | some true => ({ c with escaped := some flow }, .ok flow)
    | some false => (c, .ok flow)
  else (c, .ok flow)

def run (c : Callback ε ω) (item : Value ω) : CallResult ε ω :=
  let r := c.task item {}
  match r.outcome with
  | .error e => ⟨c, .error e, r.log⟩
  | .ok flow =>
    let (c, outcome) := c.settle flow
    ⟨c, outcome, r.log⟩

def call (c : Callback ε ω) (item : Value ω) : CallResult ε ω :=
  match c.debug, c.escaped with
  | true, some stop => ⟨c, .error (.calledAgain stop), []⟩
  | _, _ => c.run item

end Callback

end LoopEscape
