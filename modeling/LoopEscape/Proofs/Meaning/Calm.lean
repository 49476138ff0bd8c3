import LoopEscape.Proofs.Meaning.Exec

/-!
# What simple statements cannot do

A statement that is neither a jump nor contains one ends without jumping, raises no jump, and leaves
alone the generated names that it does not assign.  Such steps are called calm.
-/

namespace LoopEscape

open Generate Step

variable {σ ε α : Type}

def Thrown.NoJump : Thrown ε → Prop
  | .raised (.jump ..) => False
  | _ => True

/-- An exit that is no jump, neither made nor raised.  Plain code is not stuck and suspends no
task. -/
def Exit.Calm (plain : Bool) : Exit ε → Prop
  | .jump .. => False
  | .raised e => e.NoJump
  | .suspended _ | .stuck => plain = false
  | _ => True

def State.Keeps (names : List String) (st st' : State σ ε) : Prop :=
  ∀ x ∈ names, st'.frame x = st.frame x

namespace State.Keeps

variable {names : List String} {st st' st'' : State σ ε}

theorem refl (names : List String) (st : State σ ε) : Keeps names st st := fun _ _ => rfl

theorem trans (h : Keeps names st st') (h' : Keeps names st' st'') : Keeps names st st'' :=
  fun x hx => (h' x hx).trans (h x hx)

theorem of_frame_eq (h : st'.frame = st.frame) : Keeps names st st' := fun x _ => congrFun h x

theorem set {x : String} (hx : x ∉ names) (l : Local σ ε) : Keeps names st (st.set x l) := by
  intro y hy
  show (if y = x then some l else st.frame y) = st.frame y
  rw [if_neg fun h : y = x => hx (h ▸ hy)]

theorem mono {names' : List String} (h : Keeps names st st') (hn : ∀ x ∈ names', x ∈ names) :
    Keeps names' st st' := fun x hx => h x (hn x hx)

end State.Keeps

def Step.Calm (plain : Bool) (names : List String) (a : Step σ ε) : Prop :=
  ∀ st, State.Keeps names st (a st).2 ∧ (a st).1.Calm plain

def Query.Calm (plain : Bool) (names : List String) (q : Query σ ε α) : Prop :=
  ∀ st, State.Keeps names st (q st).2 ∧ ∀ e, (q st).1 = .error e → e.Calm plain

variable {plain : Bool} {names : List String}

theorem Step.calm_done : Step.Calm plain names (done : Step σ ε) := fun st => ⟨.refl _ st, trivial⟩

theorem Step.calm_exit {e : Exit ε} (h : e.Calm plain) :
    Step.Calm plain names (exit e : Step σ ε) := fun st => ⟨.refl _ st, h⟩

theorem Query.Calm.andThen {q : Query σ ε α} {next : α → Step σ ε} (hq : q.Calm plain names)
    (hn : ∀ a, (next a).Calm plain names) : (q.andThen next).Calm plain names := by
  intro st
  obtain ⟨hk, he⟩ := hq st
  unfold Query.andThen
  rcases hr : q st with ⟨_ | a, st'⟩
  · rw [hr] at hk he
    exact ⟨hk, he _ rfl⟩
  · rw [hr] at hk
    exact ⟨hk.trans (hn a st').1, (hn a st').2⟩

/-! ### Queries -/

theorem State.calm_ask (e : Event) (work : σ → σ × Except ε α) :
    Query.Calm plain names (State.ask e work) := by
  intro st
  refine ⟨.of_frame_eq rfl, fun x hx => ?_⟩
  simp only [State.ask] at hx
  rcases h : (st.world.ask e work).1 with err | a
  · rw [h] at hx
    cases hx
    trivial
  · rw [h] at hx
    cases hx

namespace Machine

variable (m : Machine σ ε)

theorem calm_evaluate (e : Expr) : Query.Calm plain names (m.evaluate e) := by
  intro st
  unfold evaluate
  split
  · exact ⟨.refl _ st, fun _ h => by cases h⟩
  · exact State.calm_ask _ _ st

theorem calm_evaluateOption (e : Option Expr) : Query.Calm plain names (m.evaluateOption e) := by
  cases e with
  | none => exact fun st => ⟨.refl _ st, fun _ h => by cases h⟩
  | some e => exact m.calm_evaluate e

theorem calm_test (e : Expr) : Query.Calm plain names (m.test e) := by
  intro st
  unfold test
  split
  · exact ⟨.refl _ st, fun _ h => by cases h⟩
  · exact State.calm_ask _ _ st

theorem calm_perform (s : Stmt) : Step.Calm plain names (m.perform s) :=
  (State.calm_ask _ _).andThen fun _ => calm_done

end Machine

/-! ### Assignments -/

def Expr.Avoids (names : List String) (target : Expr) : Prop :=
  ∀ s x, target = .name s x .store → x ∉ names

namespace Machine

variable (m : Machine σ ε)

theorem calm_assignOutside (target : Expr) (v : Datum) :
    Step.Calm plain names (m.assignOutside target v) :=
  (State.calm_ask _ _).andThen fun _ => calm_done

theorem calm_assign {target : Expr} (h : target.Avoids names) (v : Datum) :
    Step.Calm plain names (m.assign target v) := by
  unfold assign
  split
  · split
    · exact fun st => ⟨.set (h _ _ rfl) _, trivial⟩
    · exact m.calm_assignOutside _ v
  · exact m.calm_assignOutside _ v

theorem calm_bind {name : Option String} (h : ∀ x, name = some x → x ∉ names) (loc : Loc)
    (v : Datum) : Step.Calm plain names (m.bind loc name v) := by
  cases name with
  | none => exact calm_done
  | some x =>
    refine m.calm_assign (fun s y hy => ?_) v
    cases hy
    exact h x rfl

theorem calm_advance {target : Expr} (h : target.Avoids names) (it : Datum) :
    Query.Calm plain names (m.advance it target) := by
  intro st
  unfold advance
  have hask : Query.Calm plain names (State.ask (.advanced it) (m.host.next it)) :=
    State.calm_ask _ _
  obtain ⟨hk, he⟩ := hask st
  rcases hr : State.ask (.advanced it) (m.host.next it) st with ⟨e | _ | v, st'⟩
  · rw [hr] at hk he
    exact ⟨hk, fun x hx => by cases hx; exact he e rfl⟩
  · rw [hr] at hk
    exact ⟨hk, fun _ hx => by cases hx⟩
  · rw [hr] at hk
    have hassign : Step.Calm plain names (m.assign target v) := m.calm_assign h v
    obtain ⟨hk', hc⟩ := hassign st'
    dsimp only
    split
    · next heq => rw [heq] at hk'; exact ⟨hk.trans hk', fun _ hx => by cases hx⟩
    · next heq =>
        rw [heq] at hk' hc
        exact ⟨hk.trans hk', fun x hx => by cases hx; exact hc⟩

end Machine

/-! ### Calls of iterator functions -/

theorem drive_stopped {κ : Type} {it : Iterator σ ε}
    {callback : κ → Datum → World σ → Pass α × κ × World σ} {n : Nat} {c : κ} {seen : List Datum}
    {w : World σ} {r : α} (h : (drive it callback n c seen w).1 = .stopped r) :
    ∃ c item w, (callback c item w).1 = .stop r := by
  induction n generalizing c seen w with
  | zero => cases h
  | succ n ih =>
    simp only [drive] at h
    rcases hit : it seen w.store with ⟨s, item | v | e⟩
    · simp only [hit] at h
      rcases hc : callback c item (w.note (.delivered item) s) with ⟨v | r', c', w'⟩
      · simp only [hc] at h
        exact ih h
      · simp only [hc] at h
        cases h
        exact ⟨c, item, _, by rw [hc]⟩
    · simp only [hit] at h
      cases h
    · simp only [hit] at h
      cases h

theorem Machine.calm_drive (m : Machine σ ε) {κ : Type} (form : CallForm)
    {callback : κ → Datum → World σ → Pass (Except (Exit ε) Datum) × κ × World σ} (c : κ)
    (finish : Datum → Datum) {next : Datum → Step σ ε}
    (hc : ∀ c item w e, (callback c item w).1 = .stop (.error e) → e.Calm plain)
    (hn : ∀ v, (next v).Calm plain names) :
    Step.Calm plain names (m.drive form callback c finish next) := by
  refine (State.calm_ask _ _).andThen fun it => Query.Calm.andThen (fun st => ?_) hn
  refine ⟨.of_frame_eq rfl, fun e he => ?_⟩
  dsimp only at he
  rcases hd : (LoopEscape.drive it callback m.bound c [] st.world).1 with v | r | err | _
  · rw [hd] at he
    cases he
  · rw [hd] at he
    obtain ⟨c', item, w, hcb⟩ := drive_stopped hd
    exact hc c' item w e (by rw [hcb]; exact congrArg Pass.stop he)
  · rw [hd] at he
    cases he
    trivial
  · rw [hd] at he
    cases he
    trivial

theorem calm_afterCall (hp : plain = false) {o : Except (Thrown ε) Datum} {e : Exit ε}
    (h : afterCall o = .stop (.error e)) : e.Calm plain := by
  unfold afterCall at h
  split at h
  · cases h; exact hp
  · next x hx =>
    cases h
    show Thrown.NoJump x
    unfold Thrown.NoJump
    split
    · exact hx _ _ _ rfl
    · trivial
  · cases h
  · cases h
  · cases h; exact hp

theorem calm_relayCall (hp : plain = false) {run : Datum → World σ → TaskEnd ε × World σ} {c : Callback (Raised ε) Unit}
    {item : Datum} {w : World σ} {e : Exit ε} (h : (relayCall run c item w).1 = .stop (.error e)) :
    e.Calm plain := by
  unfold relayCall at h
  split at h
  · exact calm_afterCall hp h
  · cases h; exact hp
  · cases h; trivial

namespace Machine

variable (m : Machine σ ε)

theorem calm_callRelayed (hp : plain = false) (form : CallForm) (task : String) (debug : Bool)
    {next : Datum → Step σ ε} (hn : ∀ v, (next v).Calm plain names) :
    Step.Calm plain names (m.callRelayed form task debug next) := by
  intro st
  unfold callRelayed
  split
  · exact m.calm_drive form _ _ (fun _ _ _ _ => calm_relayCall hp) hn st
  · exact ⟨.refl _ st, hp⟩

theorem calm_execAssign (loc : Loc) {targets : List Expr} {value : Expr}
    (h : ∀ t ∈ targets, t.Avoids names) (hp : value.relayed? ≠ none → plain = false) :
    Step.Calm plain names (m.execAssign loc targets value) := by
  unfold execAssign
  split
  · next target =>
    have ht : target.Avoids names := h target (by simp)
    split
    · next heq =>
      have hp : plain = false := hp (by rw [heq]; simp)
      split
      · exact m.calm_callRelayed hp _ _ _ (m.calm_assign ht)
      · exact calm_exit hp
    · exact (m.calm_evaluate value).andThen (m.calm_assign ht)
  · exact m.calm_perform _

theorem calm_abort {slot : String} (h : slot ∉ names) (hp : plain = false) (flow : Expr) :
    Step.Calm plain names (m.abort slot flow) := by
  intro st
  unfold abort
  split
  · next s v _ _ =>
    by_cases hf : s.isFilled = true
    · simp only [Slot.record, hf, if_true]
      exact ⟨.refl _ st, trivial⟩
    · simp only [Slot.record, hf]
      exact ⟨.set h _, hp⟩
  · exact ⟨.refl _ st, hp⟩

theorem calm_execExpr {e : Expr}
    (h : ∀ slot flow, e.abort? = some (slot, flow) → plain = false ∧ slot ∉ names) :
    Step.Calm plain names (m.execExpr e) := by
  unfold execExpr
  split
  · next slot flow heq => exact m.calm_abort (h slot flow heq).2 (h slot flow heq).1 flow
  · exact (m.calm_evaluate e).andThen fun _ => calm_done

end Machine

end LoopEscape
