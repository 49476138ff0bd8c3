import LoopEscape.Relay.Script
import Mathlib.Data.List.Forall2

/-!
# The protocol of callbacks

A callback is running until it has returned a stop, and escaped from then on.  A callback that refuses
keeps to this over any number of calls: the calls that run the task come first, the last of them alone may
return a stop, and all later calls are refused.  One that does not refuse treats every call as its first
(`calls_protocol`).

What a call comes to is read off what the task does with its slot in this call (`Act.Yields`).  A task that was
suspended is closed before the call returns, and what it raises then takes the place of the state that it
recorded (`closing_replaces`).
-/

namespace LoopEscape

variable {ε ω : Type}

/-! ### What a task does on an element -/

abbrev Flow (ω : Type) := { v : Value ω // v.stops?.isSome = true }

/-- How the poll of a task ends; a task that was suspended may raise something when it is closed. -/
inductive PollEnd (ε ω : Type)
  | returned (value : Value ω)
  | raised (error : RelayError ε ω)
  | suspended (signal : Value ω) (closing : Option (RelayError ε ω))

/-- What a task does in a call: it records states one after the other, and ends its poll. -/
structure Act (ε ω : Type) where
  flows : List (Flow ω)
  ending : PollEnd ε ω
  log : List (Value ω) := []

/-- The slot after states were recorded.  A task that goes on after a refused record finds the slot as it
was. -/
def Slot.recordAll (s : Slot ω) (flows : List (Flow ω)) : Slot ω :=
  flows.foldl (fun s f => ((s.record (ε := Empty) f.1).toOption).getD s) s

def Task.acting (a : Act ε ω) : Task ε ω := fun _ slot =>
  match a.ending with
  | .returned v => { poll := .returned v, log := a.log }
  | .raised e => { poll := .raised e, log := a.log }
  | .suspended signal closing =>
    { poll := .suspended signal (slot.recordAll a.flows), closing, log := a.log }

inductive Act.Yields : Act ε ω → Except (RelayError ε ω) (Value ω) → Prop
  | returned {flows v log} : Yields ⟨flows, .returned v, log⟩ (.ok (.break_ (.earlyReturn v)))
  | escaped {f flows log} : Yields ⟨f :: flows, .suspended .abort none, log⟩ (.ok f)
  | unrecorded {signal log} : Yields ⟨[], .suspended signal none, log⟩ (.error (.suspended signal))
  | foreign {flows signal log} (h : signal.isAbort = false) :
      Yields ⟨flows, .suspended signal none, log⟩ (.error (.suspended signal))
  | raised {flows e log} : Yields ⟨flows, .raised e, log⟩ (.error e)
  | closing {flows signal e log} : Yields ⟨flows, .suspended signal (some e), log⟩ (.error e)

/-! ### Slots -/

namespace Flow

variable (f : Flow ω)

theorem isNone_eq_false : f.1.isNone = false := by
  obtain ⟨v, h⟩ := f
  cases v <;> first | rfl | cases h

theorem stops?_cases : f.1.stops? = some true ∨ f.1.stops? = some false := by
  obtain ⟨v, h⟩ := f
  cases v <;> first | exact .inl rfl | exact .inr rfl | cases h

end Flow

theorem Slot.record_filled (f : Flow ω) (v : Value ω) :
    Slot.record (ε := ε) ⟨f⟩ v = .error (.recordedTwice f v) := by
  simp [Slot.record, Slot.isFilled, f.isNone_eq_false]

theorem Slot.recordAll_cons (f : Flow ω) (flows : List (Flow ω)) : Slot.recordAll {} (f :: flows) = ⟨f⟩ := by
  have hkept : Slot.recordAll ⟨f⟩ flows = ⟨f⟩ := by
    induction flows with
    | nil => rfl
    | cons g flows ih =>
      rw [recordAll, List.foldl_cons, Slot.record_filled]
      exact ih
  exact hkept

/-! ### One call -/

variable {a : Act ε ω} {c : Callback ε ω} {item : Value ω}

def CallResult.Ran (r : CallResult ε ω) (a : Act ε ω) : Prop := a.Yields r.outcome ∧ r.log = a.log

def CallResult.Refused (r : CallResult ε ω) (stop : Value ω) : Prop :=
  r.outcome = .error (.calledAgain stop) ∧ r.log = []

def CallResult.Stops (r : CallResult ε ω) : Prop :=
  ∃ stop : Value ω, r.outcome = .ok stop ∧ stop.stops? = some true

theorem Act.yields_outcome (a : Act ε ω) (item : Value ω) : a.Yields (Task.acting a item {}).outcome := by
  rw [Task.acting]
  obtain ⟨flows, ending, log⟩ := a
  rcases ending with v | e | ⟨signal, _ | e⟩
  · exact .returned
  · exact .raised
  · -- Neither recorded nor suspended as an escape: the same error either way.
    have hmisused {slot : Slot ω} (h : (signal.isAbort && slot.isFilled) = false) :
        (Poll.suspended (ε := ε) signal slot).outcome = .error (.suspended signal) := by
      rw [Poll.outcome, h, if_neg Bool.false_ne_true]
    show Act.Yields _ (Poll.suspended signal (Slot.recordAll {} flows)).outcome
    rcases flows with _ | ⟨f, flows⟩
    · rw [hmisused (Bool.and_false _)]
      exact .unrecorded
    · rw [Slot.recordAll_cons]
      cases hs : signal.isAbort with
      | false =>
        rw [hmisused (by rw [hs, Bool.false_and])]
        exact .foreign hs
      | true =>
        have hfilled : (Poll.suspended (ε := ε) signal ⟨f⟩).outcome = .ok f := by
          simp [Poll.outcome, Slot.take, Slot.isFilled, f.isNone_eq_false, hs]
        rw [hfilled]
        cases signal <;> first | exact .escaped | cases hs
  · exact .closing

theorem Act.Yields.stops?_cases {v : Value ω} (h : a.Yields (.ok v)) :
    v.stops? = some true ∨ v.stops? = some false := by
  cases h with
  | returned => exact .inl rfl
  | @escaped f => exact f.stops?_cases

namespace Callback

def ofTask (task : Task ε ω) (debug : Bool) : Callback ε ω := { task, debug }

theorem run_cases (c : Callback ε ω) (item : Value ω) :
    (∃ e, c.run item = ⟨c, .error e, (c.task item {}).log⟩ ∧ ((c.task item {}).outcome = .error e ∨
      ∃ v, (c.task item {}).outcome = .ok v ∧ v.stops? = none)) ∨
    ∃ v, (c.task item {}).outcome = .ok v ∧
      (c.run item = ⟨{ c with escaped := some v }, .ok v, (c.task item {}).log⟩ ∧ c.debug = true ∧
        v.stops? = some true ∨
      c.run item = ⟨c, .ok v, (c.task item {}).log⟩ ∧ (c.debug = true → v.stops? = some false)) := by
  rw [run]
  cases (c.task item {}).outcome with
  | error e => exact .inl ⟨e, rfl, .inl rfl⟩
  | ok v =>
    cases hd : c.debug with
    | false => exact .inr ⟨v, rfl, .inr ⟨by simp [settle, hd], nofun⟩⟩
    | true =>
      rcases hv : v.stops? with _ | _ | _
      · exact .inl ⟨.notAState v, by simp only [settle, hd, hv, if_true], .inr ⟨v, rfl, hv⟩⟩
      · exact .inr ⟨v, rfl, .inr ⟨by simp only [settle, hd, hv, if_true], fun _ => hv⟩⟩
      · exact .inr ⟨v, rfl, .inl ⟨by simp only [settle, hd, hv, if_true], rfl, hv⟩⟩

theorem call_error {e : RelayError ε ω} (h : (c.call item).outcome = .error e) : (c.call item).callback = c := by
  have hrun (h : (c.run item).outcome = .error e) : (c.run item).callback = c := by
    rcases c.run_cases item with ⟨e, hr, -⟩ | ⟨v, -, ⟨hr, -⟩ | ⟨hr, -⟩⟩
    · rw [hr]
    · rw [hr] at h
      cases h
    · rw [hr]
  unfold call at h ⊢
  split
  · rfl
  · next hnot => exact hrun (by simpa only [hnot] using h)

theorem run_acting (item : Value ω) (htask : c.task = Task.acting a) : (c.run item).Ran a ∧
    ((∃ stop, (c.run item).outcome = .ok stop ∧ c.debug = true ∧ stop.stops? = some true ∧
        (c.run item).callback = { c with escaped := some stop }) ∨
      (c.debug = true → ¬ (c.run item).Stops) ∧ (c.run item).callback = c) := by
  have hyields := a.yields_outcome item
  have hlog : (Task.acting a item {}).log = a.log := by
    rw [Task.acting]
    split <;> rfl
  rw [← htask] at hyields hlog
  rcases c.run_cases item with ⟨e, hr, ho | ⟨v, ho, hv⟩⟩ | ⟨v, ho, ⟨hr, hd, hv⟩ | ⟨hr, hv⟩⟩
  · rw [hr]
    exact ⟨⟨ho ▸ hyields, hlog⟩, .inr ⟨fun _ ⟨_, h, _⟩ => (nomatch h), rfl⟩⟩
  · rw [ho] at hyields
    rcases hyields.stops?_cases with h | h <;> rw [hv] at h <;> cases h
  · rw [hr]
    exact ⟨⟨ho ▸ hyields, hlog⟩, .inl ⟨v, rfl, hd, hv, rfl⟩⟩
  · rw [hr]
    refine ⟨⟨ho ▸ hyields, hlog⟩, .inr ⟨fun hd ⟨stop, h, hstop⟩ => ?_, rfl⟩⟩
    cases h
    rw [hv hd] at hstop
    cases hstop

/-- Calls one after the other, each with what the task does in it: it need not act alike on elements that are
alike. -/
def calls (c : Callback ε ω) : List (Value ω × Act ε ω) → List (CallResult ε ω)
  | [] => []
  | (item, a) :: rest =>
    let r := { c with task := Task.acting a }.call item
    r :: r.callback.calls rest

theorem calls_task (c : Callback ε ω) (task : Task ε ω) (steps : List (Value ω × Act ε ω)) :
    { c with task }.calls steps = c.calls steps := by
  cases steps <;> rfl

/-- The first calls run, and of these only the last can return a stop; the others are refused. -/
def Obeys (steps : List (Value ω × Act ε ω)) (results : List (CallResult ε ω)) : Prop :=
  ∃ ran refused first later, steps = ran ++ refused ∧ results = first ++ later ∧
    List.Forall₂ (fun step r => r.Ran step.2) ran first ∧ (∀ r ∈ first.dropLast, ¬ r.Stops) ∧
    (refused = [] ∧ later = [] ∨ ∃ r stop, first.getLast? = some r ∧ r.outcome = .ok stop ∧
      stop.stops? = some true ∧ List.Forall₂ (fun _ r => r.Refused stop) refused later)

theorem calls_refused {task : Task ε ω} {stop : Value ω} (steps : List (Value ω × Act ε ω)) :
    List.Forall₂ (fun _ r => r.Refused stop) steps
      (calls { task, debug := true, escaped := some stop } steps) := by
  induction steps with
  | nil => exact .nil
  | cons step rest ih => exact .cons ⟨rfl, rfl⟩ (calls_task _ _ rest ▸ ih)

theorem calls_obey (task : Task ε ω) (steps : List (Value ω × Act ε ω)) :
    Obeys steps ((ofTask task true).calls steps) := by
  induction steps with
  | nil => exact ⟨[], [], [], [], rfl, rfl, .nil, nofun, .inl ⟨rfl, rfl⟩⟩
  | cons step rest ih =>
    obtain ⟨item, a⟩ := step
    let c := ofTask (Task.acting a) true
    have hcall : (ofTask task true).calls ((item, a) :: rest) =
        c.run item :: (c.run item).callback.calls rest := rfl
    obtain ⟨hran, ⟨stop, hout, -, hstop, hkept⟩ | ⟨hgoes, hkept⟩⟩ := c.run_acting item rfl
    · -- The stop is kept, and so all other calls are refused.
      refine ⟨[(item, a)], rest, [c.run item], _, rfl, hcall, .cons hran .nil, nofun,
        .inr ⟨c.run item, stop, rfl, hout, hstop, ?_⟩⟩
      rw [hkept]
      exact calls_refused rest
    · obtain ⟨ran, refused, first, later, rfl, heq, hfirst, hdrop, hlater⟩ := ih
      refine ⟨(item, a) :: ran, refused, c.run item :: first, later, rfl, ?_, .cons hran hfirst, ?_, ?_⟩
      · rw [hcall, hkept, List.cons_append, ← heq]
        exact congrArg _ (calls_task (ofTask task true) (Task.acting a) _)
      · cases first with
        | nil => exact nofun
        | cons => exact List.forall_mem_cons.2 ⟨hgoes rfl, hdrop⟩
      · refine hlater.imp_right fun ⟨r, stop, hlast, hrest⟩ => ⟨r, stop, ?_, hrest⟩
        rw [List.getLast?_cons, hlast]
        rfl

theorem calls_alike (task : Task ε ω) (steps : List (Value ω × Act ε ω)) :
    (ofTask task false).calls steps =
      steps.map fun step => (ofTask (Task.acting step.2) false).call step.1 := by
  induction steps with
  | nil => rfl
  | cons step rest ih =>
    let c := ofTask (Task.acting step.2) false
    have hkept : (c.run step.1).callback = c := by
      obtain ⟨-, ⟨_, -, hd, -⟩ | ⟨-, hkept⟩⟩ := c.run_acting step.1 rfl
      · cases hd
      · exact hkept
    have hcall : (ofTask task false).calls (step :: rest) = c.run step.1 :: (c.run step.1).callback.calls rest :=
      rfl
    rw [hcall, hkept, List.map_cons, ← ih]
    exact congrArg _ (calls_task (ofTask task false) (Task.acting step.2) rest)

end Callback

/-- Over any calls of a callback, in each of which its task acts as it likes: without refusing, each call runs
the task on a fresh slot, whatever was called before; with refusing, the calls run up to the first that returns
a stop, and the others are refused and do not run.  A call that raises changes nothing, and a slot keeps the
first state that is recorded and refuses all others. -/
theorem calls_protocol (task : Task ε ω) (steps : List (Value ω × Act ε ω)) :
    ((Callback.ofTask task false).calls steps =
        steps.map (fun step => (Callback.ofTask (Task.acting step.2) false).call step.1) ∧
      ∀ step ∈ steps, ((Callback.ofTask (Task.acting step.2) false).call step.1).Ran step.2) ∧
    Callback.Obeys steps ((Callback.ofTask task true).calls steps) ∧
    (∀ (c : Callback ε ω) (item : Value ω) (e : RelayError ε ω),
      (c.call item).outcome = .error e → (c.call item).callback = c) ∧
    ∀ (f : Flow ω) (flows : List (Flow ω)) (v : Value ω), Slot.recordAll {} (f :: flows) = ⟨f⟩ ∧
      (Slot.recordAll {} (f :: flows)).record (ε := ε) v = .error (.recordedTwice f v) :=
  ⟨⟨Callback.calls_alike task steps, fun _ _ => (Callback.run_acting _ rfl).1⟩,
    Callback.calls_obey task steps, fun _ _ _ => Callback.call_error, fun f flows v =>
      ⟨Slot.recordAll_cons f flows, Slot.recordAll_cons f flows ▸ Slot.record_filled f v⟩⟩

/-- A task that escapes with a stop and raises on its way out. -/
def lateTask : Task := Task.ofScript fun _ => [.protect [.escape (.break_ (.int 1))] none [.raise "late"]]

theorem closing_replaces :
    (lateTask (.int 1) {}).poll.outcome = .ok (.break_ (.int 1)) ∧
      ((Callback.ofTask lateTask false).call (.int 1)).outcome = .error (.raised "late") := by
  constructor <;> rfl

end LoopEscape
