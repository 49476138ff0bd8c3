import LoopEscape.Proofs.Meaning.Layers
import LoopEscape.Proofs.Label.Fit

/-!
# Passes of a callback loop

A pass through the body of a callback loop, and a call of the callback that the loop's task became,
lead to the same: the iteration goes on with the same value, or it is stopped for reasons that stand for
each other (`StopMatch`).  So an iterator function delivers the same elements to both, and ends with
results that match (`drive_matches`).
-/

namespace LoopEscape

open Generate Step

variable {σ ε : Type}

/-! ### Exits of the source -/

/-- An exit that a statement can have in a scope: a jump that fits the scope and carries a value only
where one is taken, or one that is no jump. -/
def Exit.Fits (scope : LabelScope) : Exit ε → Prop
  | .jump .break_ label v =>
    ∃ hasValue, breakProblem scope label hasValue = none ∧ (hasValue = false → v = .none)
  | .jump .continue_ label v => continueProblem scope label = none ∧ v = .none
  | .raised e => e.NoJump
  | .suspended _ | .stuck => False
  | _ => True

/-- Why the source stops an iteration, and what the callback of the task returns then. -/
inductive StopMatch (scope : LabelScope) (escapes : List EscapeLabel) :
    Except (Exit ε) Datum → Except (Exit ε) Datum → Prop
  | broken (v : Datum) : StopMatch scope escapes (.ok v) (.ok (.break_ (.earlyBreak v)))
  | returned (v : Datum) :
      StopMatch scope escapes (.error (.returned v)) (.ok (.break_ (.earlyReturn v)))
  | breakTo {e : EscapeLabel} {outer : LabelDecl} {v : Datum} (he : e ∈ escapes)
      (ho : scope.lookup e.label = some outer) (hv : outer.takesValue = false → v = .none) :
      StopMatch scope escapes (.error (.jump .break_ (some e.label) v))
        (.ok (.break_ (.breakTo e.label v)))
  | continueTo {e : EscapeLabel} {outer : LabelDecl} (he : e ∈ escapes) (hl : e.loops = true)
      (ho : scope.lookup e.label = some outer) (hc : outer.continues = true) :
      StopMatch scope escapes (.error (.jump .continue_ (some e.label) .none))
        (.ok (.break_ (.continueTo e.label)))
  | raised {e : Thrown ε} (h : e.NoJump) :
      StopMatch scope escapes (.error (.raised e)) (.error (.raised e))
  | exhausted : StopMatch scope escapes (.error .exhausted) (.error .exhausted)

inductive PassMatch {α β : Type} (R : α → β → Prop) : Pass α → Pass β → Prop
  | goOn (v : Datum) : PassMatch R (.goOn v) (.goOn v)
  | stop {a : α} {b : β} (h : R a b) : PassMatch R (.stop a) (.stop b)

inductive DrivenMatch {α β : Type} (R : α → β → Prop) : Driven ε α → Driven ε β → Prop
  | finished (v : Datum) : DrivenMatch R (.finished v) (.finished v)
  | stopped {a : α} {b : β} (h : R a b) : DrivenMatch R (.stopped a) (.stopped b)
  | failed (e : ε) : DrivenMatch R (.failed e) (.failed e)
  | exhausted : DrivenMatch R .exhausted .exhausted

/-! ### Iterator functions -/

theorem drive_matches {κ κ' α β : Type} {R : α → β → Prop} {Ready : κ' → Prop}
    {callback : κ → Datum → World σ → Pass α × κ × World σ}
    {callback' : κ' → Datum → World σ → Pass β × κ' × World σ}
    (h : ∀ c c' item w, Ready c' → PassMatch R (callback c item w).1 (callback' c' item w).1 ∧
      (callback' c' item w).2.2 = (callback c item w).2.2 ∧
      ((∃ v, (callback' c' item w).1 = .goOn v) → Ready (callback' c' item w).2.1))
    (it : Iterator σ ε) (n : Nat) (c : κ) (c' : κ') (seen : List Datum) (w : World σ)
    (hc : Ready c') :
    DrivenMatch R (drive it callback n c seen w).1 (drive it callback' n c' seen w).1 ∧
      (drive it callback' n c' seen w).2 = (drive it callback n c seen w).2 := by
  induction n generalizing c c' seen w with
  | zero => exact ⟨.exhausted, rfl⟩
  | succ n ih =>
    simp only [drive]
    rcases it seen w.store with ⟨s, item | v | e⟩
    · obtain ⟨hp, hw, hr⟩ := h c c' item (w.note (.delivered item) s) hc
      simp only
      generalize callback c item (w.note (.delivered item) s) = r at hp hw
      generalize callback' c' item (w.note (.delivered item) s) = r' at hp hw hr
      obtain ⟨p, c₁, w₁⟩ := r
      obtain ⟨p', c₁', w₁'⟩ := r'
      obtain rfl : w₁' = w₁ := hw
      cases hp with
      | goOn v => exact ih c₁ c₁' (seen ++ [v]) w₁' (hr ⟨v, rfl⟩)
      | stop hR => exact ⟨.stopped hR, rfl⟩
    · exact ⟨.finished v, rfl⟩
    · exact ⟨.failed e, rfl⟩

/-! ### From endings to passes -/

namespace Ending

def Polled : Ending ε → Prop
  | .recorded (.continue_ _) | .recorded (.break_ _) => True
  | .left (.returned _) | .left .exhausted => True
  | .left (.raised e) => e.NoJump
  | _ => False

def pass (leave : ε → ε) : Ending ε → Pass (Except (Exit ε) Datum)
  | .recorded (.continue_ v) => .goOn v
  | .recorded v => .stop (.ok v)
  | .left (.returned v) => .stop (.ok (.break_ (.earlyReturn v)))
  | .left (.raised e) => .stop (.error (.raised (e.leave leave)))
  | .left e => .stop (.error e)

theorem foldl_escape_recorded (escapes : List EscapeLabel) (flow : Datum) :
    escapes.foldl (fun y e => y.escape e) (recorded flow : Ending ε) = .recorded flow := by
  induction escapes with
  | nil => rfl
  | cons e rest ih => exact ih

theorem foldl_escape_left (escapes : List EscapeLabel) {exit : Exit ε}
    (h : ∀ kind l v, exit ≠ .jump kind l v) :
    escapes.foldl (fun y e => y.escape e) (left exit) = .left exit := by
  induction escapes with
  | nil => rfl
  | cons e rest ih =>
    rw [List.foldl_cons]
    cases exit with
    | jump kind l v => exact absurd rfl (h kind l v)
    | _ => exact ih

theorem foldl_escape_jump {escapes : List EscapeLabel} {e : EscapeLabel} (he : e ∈ escapes)
    (hn : (escapes.map (·.label)).Nodup) {kind : JumpKind} {v : Datum} {flow : Datum}
    (hf : (left (.jump kind (some e.label) v) : Ending ε).escape e = .recorded flow) :
    escapes.foldl (fun y e => y.escape e) (left (.jump kind (some e.label) v) : Ending ε) =
      .recorded flow := by
  induction escapes with
  | nil => exact absurd he (by simp)
  | cons e' rest ih =>
    rw [List.map_cons, List.nodup_cons] at hn
    rw [List.foldl_cons]
    rcases List.mem_cons.1 he with rfl | he
    · rw [hf, foldl_escape_recorded]
    · have hne : e.label ≠ e'.label := fun heq => hn.1 (List.mem_map.2 ⟨e, he, heq⟩)
      have hpass : (left (.jump kind (some e.label) v) : Ending ε).escape e' =
          .left (.jump kind (some e.label) v) := by simp [escape, hne]
      rw [hpass]
      exact ih he hn.2

end Ending

theorem Thrown.NoJump.leave {e : Thrown ε} (h : e.NoJump) (f : ε → ε) : (e.leave f).NoJump := by
  unfold Thrown.leave
  split
  · trivial
  · exact h

theorem pass_matches (leave : ε → ε) {scope : LabelScope} {escapes : List EscapeLabel} {ds : List LabelDecl}
    {label : Option String} (hds : scope.escapes escapes = .ok ds)
    (hn : (escapes.map (·.label)).Nodup) {exit : Exit ε} {value : Datum}
    (hf : exit.Fits (scope.enterCallback label ds)) (hv : exit ≠ .normal → value = .none) :
    (escapes.foldl (fun y e => y.escape e) (Ending.own label exit value)).Polled ∧
      PassMatch (StopMatch scope escapes) (afterCallback leave label value exit)
        ((escapes.foldl (fun y e => y.escape e) (Ending.own label exit value)).pass leave) := by
  cases exit with
  | normal =>
    rw [show Ending.own label (.normal : Exit ε) value = .recorded (.continue_ value) from rfl,
      Ending.foldl_escape_recorded]
    exact ⟨trivial, .goOn value⟩
  | returned v =>
    rw [show Ending.own label (.returned v : Exit ε) value = .left (.returned v) from rfl,
      Ending.foldl_escape_left _ (by simp)]
    exact ⟨trivial, .stop (.returned v)⟩
  | raised e =>
    rw [show Ending.own label (.raised e : Exit ε) value = .left (.raised e) from rfl,
      Ending.foldl_escape_left _ (by simp)]
    exact ⟨hf, .stop (.raised (hf.leave leave))⟩
  | exhausted =>
    rw [show Ending.own label (.exhausted : Exit ε) value = .left .exhausted from rfl,
      Ending.foldl_escape_left _ (by simp)]
    exact ⟨trivial, .stop .exhausted⟩
  | suspended _ => exact hf.elim
  | stuck => exact hf.elim
  | jump kind l v =>
    by_cases hown : (l.isNone || l == label) = true
    · cases kind with
      | continue_ =>
        obtain rfl := hv (by simp)
        simp only [Ending.own, hown, if_true, Ending.foldl_escape_recorded, afterCallback]
        exact ⟨trivial, .goOn .none⟩
      | break_ =>
        simp only [Ending.own, hown, if_true, Ending.foldl_escape_recorded, afterCallback]
        exact ⟨trivial, .stop (.broken v)⟩
    · have hpass : Ending.own label (.jump kind l v : Exit ε) value = .left (.jump kind l v) ∧
          afterCallback leave label value (.jump kind l v : Exit ε) = .stop (.error (.jump kind l v)) := by
        simp only [Ending.own, afterCallback, hown, Bool.false_eq_true, if_false, and_self]
      rw [hpass.1, hpass.2]
      obtain ⟨l, rfl⟩ : ∃ l', l = some l' := by
        cases l with
        | none => exact absurd rfl hown
        | some l => exact ⟨l, rfl⟩
      have hne : label ≠ some l := by
        rintro rfl
        exact hown (by simp)
      cases kind with
      | break_ =>
        obtain ⟨hasValue, hb, hvalue⟩ := hf
        obtain ⟨d, hd, htakes⟩ := breakProblem_some hb
        obtain ⟨hl, -⟩ | ⟨-, e, he, rfl, outer, ho, -, rfl⟩ :=
          LabelScope.lookup_enterCallback_cases hds hd
        · exact absurd hl hne
        · rw [Ending.foldl_escape_jump he hn (by simp only [Ending.escape, if_true]; rfl)]
          refine ⟨trivial, .stop (.breakTo he ho fun ht => hvalue ?_)⟩
          by_contra hc
          have := htakes (by simpa using hc)
          simp_all
      | continue_ =>
        obtain ⟨hc, rfl⟩ := hf
        obtain ⟨d, hd, hcont⟩ := continueProblem_some hc
        obtain ⟨hl, -⟩ | ⟨-, e, he, rfl, outer, ho, hloop, rfl⟩ :=
          LabelScope.lookup_enterCallback_cases hds hd
        · exact absurd hl hne
        · have hloops : e.loops = true := hcont
          rw [Ending.foldl_escape_jump he hn (by simp only [Ending.escape, if_true, hloops]; rfl)]
          exact ⟨trivial, .stop (.continueTo he hloops ho (hloop hloops))⟩

/-! ### Calls of a task's callback -/

theorem relayCall_polled {run : Datum → World σ → TaskEnd ε × World σ} {c : Callback (Raised ε) Unit}
    (hc : c.escaped = none) {v : Datum} {w w' : World σ} {poll : Poll (Raised ε) Unit}
    (hr : run v w = (.polled poll, w'))
    (hp : ∀ flow, poll.outcome = .ok flow → flow.stops?.isSome = true) :
    (relayCall run c v w).1 = afterCall poll.outcome ∧ (relayCall run c v w).2.2 = w' ∧
      ((∃ v', (relayCall run c v w).1 = .goOn v') → (relayCall run c v w).2.1.escaped = none) := by
  obtain ⟨task, debug, escaped⟩ := c
  obtain rfl : escaped = none := hc
  have hcall : ({ task := fun _ _ => { poll }, debug, escaped := none } : Callback (Raised ε) Unit).call v =
      Callback.run { task := fun _ _ => { poll }, debug, escaped := none } v := by
    cases debug <;> rfl
  simp only [relayCall, hr, hcall, Callback.run, TaskRun.outcome, Option.isSome_none, Bool.and_false,
    Bool.false_eq_true, if_false]
  cases ho : poll.outcome with
  | error e => exact ⟨rfl, trivial, fun _ => rfl⟩
  | ok flow =>
    have hs := hp flow ho
    cases debug with
    | false => exact ⟨rfl, trivial, fun _ => rfl⟩
    | true =>
      simp only [Callback.settle, if_true]
      cases flow with
      | continue_ u => exact ⟨rfl, trivial, fun _ => rfl⟩
      | break_ u => exact ⟨rfl, trivial, fun ⟨v', hv'⟩ => by cases hv'⟩
      | _ => cases hs

theorem relayCall_ending (leave : ε → ε) {body : Step σ ε} {item slot : String} {c : Callback (Raised ε) Unit}
    (hc : c.escaped = none) {x : Ending ε} {v : Datum} {w : World σ}
    (hx : x.Shows slot (body ⟨(Frame.empty.set item (.value v)).set slot (.slot {}), w⟩))
    (hp : x.Polled) :
    (relayCall (pollTask leave item slot body) c v w).1 = x.pass leave ∧
      (relayCall (pollTask leave item slot body) c v w).2.2 =
        (body ⟨(Frame.empty.set item (.value v)).set slot (.slot {}), w⟩).2.world ∧
      ((∃ v', (relayCall (pollTask leave item slot body) c v w).1 = .goOn v') →
        (relayCall (pollTask leave item slot body) c v w).2.1.escaped = none) := by
  cases hr : body ⟨(Frame.empty.set item (.value v)).set slot (.slot {}), w⟩ with
  | mk exit s =>
  rw [hr] at hx
  have hpoll : pollTask leave item slot body v w =
      (exit.polled leave (s.frame slot), s.world) := by
    simp only [pollTask, hr]
  cases x with
  | recorded flow =>
    obtain ⟨rfl, hslot⟩ : exit = .suspended .abort ∧ s.frame slot = some (.slot ⟨flow⟩) := hx
    rw [hslot] at hpoll
    cases flow with
    | continue_ u => exact relayCall_polled hc hpoll fun flow h => by cases h; rfl
    | break_ u => exact relayCall_polled hc hpoll fun flow h => by cases h; rfl
    | _ => exact hp.elim
  | left e =>
    obtain ⟨rfl, -⟩ : exit = e ∧ s.frame slot = some (.slot {}) := hx
    cases exit with
    | returned u => exact relayCall_polled hc hpoll fun flow h => by cases h; rfl
    | raised e =>
      have hp := Thrown.NoJump.leave hp leave
      simp only [Exit.polled] at hpoll
      simp only [Ending.pass]
      generalize e.leave leave = e at hp hpoll ⊢
      have hraised : afterCall (.error e) = .stop (.error (.raised e)) := by
        cases e with
        | raised e =>
          cases e with
          | jump => exact hp.elim
          | ordinary => rfl
        | _ => rfl
      have key := relayCall_polled hc hpoll fun flow h => by cases h
      rw [show (Poll.raised e).outcome = .error e from rfl, hraised] at key
      exact key
    | exhausted =>
      simp only [relayCall, hpoll, Exit.polled]
      exact ⟨rfl, trivial, fun ⟨v', hv'⟩ => by cases hv'⟩
    | _ => exact hp.elim

/-! ### The code of a task -/

section

variable {m : Machine σ ε}

theorem execAll_declarations (loc : Loc) (globals nonlocals : List String) :
    Stmt.execAll m (declarations loc globals nonlocals) = done := by
  unfold declarations
  split <;> split <;> simp [Stmt.execAll_nil, Stmt.execAll_cons, Stmt.exec, done_andThen]

theorem execAll_scopeStart (loc : Loc) (hoisted : Declarations) (wanted : List String) :
    Stmt.execAll m (scopeStart loc hoisted wanted) = done := by
  rw [scopeStart, Stmt.execAll_append, execAll_declarations, done_andThen]
  induction wanted.eraseDups with
  | nil => exact Stmt.execAll_nil m
  | cons x rest ih =>
    rw [List.map_cons, Stmt.execAll_cons, ih, andThen_done, variable_, Stmt.exec]
    rfl

theorem assign_unreserved {target : Expr} (h : Unreserved target.names) (v : Datum) :
    m.assign target v = m.assignOutside target v := by
  unfold Machine.assign
  split
  · rw [Expr.names_name, unreserved_cons] at h
    rw [if_neg (by simp [h.1])]
  · rfl

theorem assignOutside_cases (target : Expr) (v : Datum) (w : World σ) :
    ∃ e w', (e = .normal ∨ ∃ err, e = .raised (.ordinary err)) ∧
      ∀ f : Frame σ ε, m.assignOutside target v ⟨f, w⟩ = (e, ⟨f, w'⟩) := by
  cases hr : (w.ask (.bound target v) (m.host.assign target v)).1 with
  | error err =>
    refine ⟨.raised (.ordinary err), (w.ask (.bound target v) (m.host.assign target v)).2,
      .inr ⟨err, rfl⟩, fun f => ?_⟩
    simp only [Machine.assignOutside, Query.andThen, State.ask, hr, Except.mapError]
  | ok u =>
    refine ⟨.normal, (w.ask (.bound target v) (m.host.assign target v)).2, .inl rfl, fun f => ?_⟩
    simp only [Machine.assignOutside, Query.andThen, State.ask, hr, Except.mapError]
    rfl

def taskCode (t : Taxonomy) (loc : Loc) (label : Option String) (decls : Declarations)
    (target : Expr) (extra body : List Stmt) : List Stmt :=
  extra ++ declarations loc decls.globals decls.nonlocals ++
    .assign loc [target] (load loc.span t.names.item) ::
    assign loc t.names.value (nothing loc.span) :: layers t loc label body

theorem execAll_taskCode {k : Nat} {header : LoopHeader} {loc : Loc} {label : Option String}
    {decls : Declarations} {target : Expr} {extra body : List Stmt}
    (he : Stmt.execAll m extra = done) {st : State σ ε} {v : Datum}
    (hitem : st.frame (LoopNames.of k).item = some (.value v)) :
    Stmt.execAll m (taskCode (Taxonomy.of k header) loc label decls target extra body) st =
      (m.assign target v).andThen (fun st' => Stmt.execAll m
        (layers (Taxonomy.of k header) loc label body)
          (st'.set (LoopNames.of k).value (.value .none))) st := by
  have hload : m.value? st (load loc.span (LoopNames.of k).item) = some v :=
    value?_load (isReserved_generatedName _) hitem _
  have hbind : Stmt.exec m (.assign loc [target] (load loc.span (LoopNames.of k).item)) st =
      m.assign target v st := by
    have hr : (load loc.span (LoopNames.of k).item).relayed? = none := rfl
    rw [Stmt.exec]
    simp only [Machine.execAssign, hr, Query.andThen, evaluate_of_value? hload]
  have hclear : Stmt.exec m (assign loc (LoopNames.of k).value (nothing loc.span)) =
      fun st => (.normal, st.set (LoopNames.of k).value (.value .none)) := by
    funext st
    exact exec_assign_own (isReserved_generatedName _) rfl (value?_nothing _) loc
  rw [taskCode, Stmt.execAll_append, Stmt.execAll_append, he, execAll_declarations, done_andThen,
    done_andThen, Stmt.execAll_cons, Stmt.execAll_cons]
  show Step.andThen (Stmt.exec m (.assign loc [target] (load loc.span (LoopNames.of k).item)))
    ((Stmt.exec m (assign loc (LoopNames.of k).value (nothing loc.span))).andThen _) st = _
  rw [hclear]
  simp only [Step.andThen, hbind]

theorem call_matches (hs : m.globals.support = true) {k : Nat} {header : LoopHeader}
    {scope : LabelScope} {ds : List LabelDecl} (hds : scope.escapes header.escapes = .ok ds)
    (hn : (header.escapes.map (·.label)).Nodup) {loc : Loc} {decls : Declarations} {target : Expr}
    (ht : Unreserved target.names) {extra body : List Stmt} (he : Stmt.execAll m extra = done)
    {frame : Frame σ ε} {source : State σ ε → (Exit ε × Datum) × State σ ε}
    (hy : Yields m k (withValue (Taxonomy.of k header) body) fun w =>
      ((source ⟨frame, w⟩).1, (source ⟨frame, w⟩).2.world))
    (hf : ∀ w, (source ⟨frame, w⟩).1.1.Fits (scope.enterCallback header.label ds) ∧
      ((source ⟨frame, w⟩).1.1 ≠ .normal → (source ⟨frame, w⟩).1.2 = .none))
    {c : Callback (Raised ε) Unit} (hc : c.escaped = none) (u : Unit) (item : Datum) (w : World σ) :
    let r := m.callbackPass frame header.label target source u item w
    let r' := relayCall (pollTask m.host.leaving (LoopNames.of k).item (LoopNames.of k).slot
      (Stmt.execAll m (taskCode (Taxonomy.of k header) loc header.label decls target extra body))) c
      item w
    PassMatch (StopMatch scope header.escapes) r.1 r'.1 ∧ r'.2.2 = r.2.2 ∧
      ((∃ v, r'.1 = .goOn v) → r'.2.1.escaped = none) := by
  intro r r'
  let f : Frame σ ε := (Frame.empty.set (LoopNames.of k).item (.value item)).set
    (LoopNames.of k).slot (.slot {})
  have hitem : f (LoopNames.of k).item = some (.value item) := by
    have hne : (LoopNames.of k).item ≠ (LoopNames.of k).slot :=
      MadeName.text_ne (m := .item k) (n := .slot k) (by simp)
    simp [f, Frame.set, hne]
  have hslot : f (LoopNames.of k).slot = some (.slot {}) := if_pos rfl
  obtain ⟨e, w', hexit, hassign⟩ := assignOutside_cases (m := m) target item w
  have hrun : Stmt.execAll m (taskCode (Taxonomy.of k header) loc header.label decls target extra
      body) ⟨f, w⟩ = _ := execAll_taskCode he hitem
  simp only [assign_unreserved ht, Step.andThen, hassign] at hrun
  rcases hexit with rfl | ⟨err, rfl⟩
  · have hfresh : (State.set ⟨f, w'⟩ (LoopNames.of k).value (.value .none)).Fresh k := by
      have hne : (LoopNames.of k).slot ≠ (LoopNames.of k).value :=
        MadeName.text_ne (m := .slot k) (n := .value k) (by simp)
      exact ⟨by rw [State.set_frame, if_neg hne]; exact hslot, if_pos rfl⟩
    obtain ⟨hworld, hshows⟩ := layers_wraps hs header.label hy _ hfresh
    obtain ⟨hpolled, hmatch⟩ := pass_matches m.host.leaving hds hn (hf w').1 (hf w').2
    have hrun' : Stmt.execAll m (taskCode (Taxonomy.of k header) loc header.label decls target extra
        body) ⟨f, w⟩ = Stmt.execAll m (layers (Taxonomy.of k header) loc header.label body)
          (State.set ⟨f, w'⟩ (LoopNames.of k).value (.value .none)) := hrun
    rw [← hrun'] at hworld hshows
    obtain ⟨h₁, h₂, h₃⟩ := relayCall_ending m.host.leaving hc hshows hpolled
    have hr : r = (afterCallback m.host.leaving header.label (source ⟨frame, w'⟩).1.2
        (source ⟨frame, w'⟩).1.1, (), (source ⟨frame, w'⟩).2.world) := by
      simp only [r, Machine.callbackPass, assign_unreserved ht, hassign]
    rw [hr]
    exact ⟨h₁ ▸ hmatch, h₂.trans hworld, h₃⟩
  · have hshows : Ending.Shows (LoopNames.of k).slot (.left (.raised (.ordinary err)))
        (Stmt.execAll m (taskCode (Taxonomy.of k header) loc header.label decls target extra body)
          ⟨f, w⟩) := by
      rw [hrun]
      exact ⟨rfl, hslot⟩
    obtain ⟨h₁, h₂, h₃⟩ := relayCall_ending m.host.leaving hc hshows trivial
    have hr : r = (.stop (.error (.raised (.ordinary (m.host.leaving err)))), (), w') := by
      simp only [r, Machine.callbackPass, assign_unreserved ht, hassign]
      rfl
    rw [hr]
    refine ⟨h₁ ▸ .stop (.raised trivial), h₂.trans ?_, h₃⟩
    exact congrArg (fun r => r.2.world) hrun

end

end LoopEscape
