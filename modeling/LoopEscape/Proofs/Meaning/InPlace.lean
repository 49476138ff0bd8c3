import LoopEscape.Proofs.Meaning.Source

/-!
# Bodies that are read in place

An error that leaves the body of a callback loop leaves a generator, once loops are expanded, and is
replaced there if it is the signal for the end of an iteration.  Read in place, the body is no generator
(`Host.inPlace`).  The two readings agree on every run that does not end in such an error
(`execAll_inPlace`): without `try`, an error that is raised anywhere is what the run ends in.
-/

namespace LoopEscape

open Step

variable {σ ε : Type}

def Host.inPlace (host : Host σ ε) : Host σ ε := { host with leaving := id }

theorem Host.Blind.inPlace {host : Host σ ε} (h : host.Blind) : host.inPlace.Blind :=
  ⟨h.restores, h.jump⟩

def Machine.inPlace (m : Machine σ ε) : Machine σ ε := { m with host := m.host.inPlace }

/-- An error that becomes another one when it leaves a generator. -/
def Exit.Replaced (f : ε → ε) : Exit ε → Prop
  | .raised (.raised (.ordinary e)) => f e ≠ e
  | _ => False

/-! ### Steps -/

def Step.Agrees (f : ε → ε) (a a' : Step σ ε) : Prop := ∀ st, ¬ (a st).1.Replaced f → a' st = a st

namespace Step.Agrees

variable {f : ε → ε} {a a' b b' : Step σ ε}

theorem refl (a : Step σ ε) : Agrees f a a := fun _ _ => rfl

theorem andThen (ha : Agrees f a a') (hb : Agrees f b b') :
    Agrees f (a.andThen b) (a'.andThen b') := by
  intro st h
  have ha := ha st
  unfold Step.andThen at h ⊢
  rcases hr : a st with ⟨e, st'⟩
  rw [hr] at ha h
  cases e with
  | normal => rw [ha id]; exact hb st' h
  | _ => rw [ha h]

theorem query {α : Type} (q : Query σ ε α) {g g' : α → Step σ ε} (h : ∀ x, Agrees f (g x) (g' x)) :
    Agrees f (q.andThen g) (q.andThen g') := by
  intro st hst
  unfold Query.andThen at hst ⊢
  rcases hr : q st with ⟨e | x, st'⟩
  · rfl
  · rw [hr] at hst
    exact h x st' hst

theorem pass (mark : LoopMark) (ha : Agrees f a a') (hb : Agrees f b b') :
    Agrees f (fun st => mark.afterPass b (a st)) (fun st => mark.afterPass b' (a' st)) := by
  intro st h
  have ha := ha st
  simp only at h ⊢
  rcases hr : a st with ⟨e, st'⟩
  rw [hr] at ha h
  cases e with
  | normal => rw [ha id]; exact hb st' h
  | jump kind label v =>
    rw [ha id]
    simp only [LoopMark.afterPass] at h ⊢
    split
    · next ho =>
      rw [if_pos ho] at h
      cases kind with
      | continue_ => exact hb st' h
      | break_ => rfl
    · rfl
  | _ => rw [ha h]; rfl

theorem loop (mark : LoopMark) (head : Query σ ε Bool) (ha : Agrees f a a') (hb : Agrees f b b')
    (n : Nat) : Agrees f (loop mark head a b n) (LoopEscape.loop mark head a' b' n) := by
  induction n with
  | zero => exact refl _
  | succ n ih =>
    refine query head fun more => ?_
    cases more with
    | true => exact pass mark ha ih
    | false => exact hb

theorem block (label : String) (receive : Datum → Step σ ε) (ha : Agrees f a a') :
    Agrees f (fun st => afterBlock label receive (a st))
      (fun st => afterBlock label receive (a' st)) := by
  intro st h
  have ha := ha st
  simp only at h ⊢
  rcases hr : a st with ⟨e, st'⟩
  rw [hr] at ha h
  cases e with
  | raised => rw [ha h]
  | _ => rw [ha id]

end Step.Agrees

/-! ### Passes -/

def Pass.Replaced (f : ε → ε) : Pass (Except (Exit ε) Datum) → Prop
  | .stop (.error e) => e.Replaced f
  | _ => False

theorem Exit.Replaced.afterCallback {f : ε → ε} {exit : Exit ε} (h : exit.Replaced f)
    (label : Option String) (value : Datum) : (afterCallback id label value exit).Replaced f := by
  unfold Exit.Replaced at h
  split at h
  · exact h
  · exact h.elim

theorem afterCallback_inPlace {f : ε → ε} {exit : Exit ε} (h : ¬ exit.Replaced f)
    (label : Option String) (value : Datum) :
    afterCallback f label value exit = afterCallback id label value exit := by
  cases exit with
  | raised e =>
    have he : e.leave f = e.leave id := by
      unfold Thrown.leave
      split
      · next e => rw [not_not.1 (show ¬ f e ≠ e from h)]; rfl
      · rfl
    simp only [LoopEscape.afterCallback, he]
  | _ => rfl

theorem callbackPass_inPlace (m : Machine σ ε) (frame : Frame σ ε) (label : Option String)
    (target : Expr) {body body' : State σ ε → (Exit ε × Datum) × State σ ε}
    (hb : ∀ st, ¬ (body st).1.1.Replaced m.host.leaving → body' st = body st) (u : Unit) (item : Datum)
    (w : World σ)
    (h : ¬ (m.inPlace.callbackPass frame label target body u item w).1.Replaced m.host.leaving) :
    m.callbackPass frame label target body' u item w =
      m.inPlace.callbackPass frame label target body u item w := by
  have hassign : m.inPlace.assign target item = m.assign target item := rfl
  unfold Machine.callbackPass at h ⊢
  rw [hassign] at h ⊢
  rcases hr : m.assign target item ⟨frame, w⟩ with ⟨e, st⟩
  rw [hr] at h
  cases e with
  | normal =>
    have hexit : ¬ (body st).1.1.Replaced m.host.leaving := fun hr => h (hr.afterCallback _ _)
    simp only [hb st hexit, afterCallback_inPlace hexit]
    rfl
  | _ =>
    simp only at h ⊢
    rw [afterCallback_inPlace fun hr => h (Exit.Replaced.afterCallback hr label .none)]
    rfl

theorem drive_agrees {κ : Type} {f : ε → ε}
    {callback callback' : κ → Datum → World σ → Pass (Except (Exit ε) Datum) × κ × World σ}
    (h : ∀ c item w, ¬ (callback c item w).1.Replaced f → callback' c item w = callback c item w)
    (it : Iterator σ ε) (n : Nat) (c : κ) (seen : List Datum) (w : World σ)
    (hr : ∀ e, (drive it callback n c seen w).1 = .stopped (.error e) → ¬ e.Replaced f) :
    drive it callback' n c seen w = drive it callback n c seen w := by
  induction n generalizing c seen w with
  | zero => rfl
  | succ n ih =>
    simp only [drive] at hr ⊢
    rcases hit : it seen w.store with ⟨s, item | v | e⟩
    · have hc := h c item (w.note (.delivered item) s)
      simp only [hit] at hr ⊢
      rcases hp : callback c item (w.note (.delivered item) s) with ⟨p, c₁, w₁⟩
      rw [hp] at hc hr
      cases p with
      | goOn v =>
        rw [hc id]
        exact ih _ _ _ hr
      | stop r =>
        cases r with
        | error e => rw [hc (hr e rfl)]
        | ok v => rw [hc id]
    · rfl
    · rfl

theorem execCallback_inPlace (m : Machine σ ε) (loc : Loc) (header : CallbackHeader)
    (target iter : Expr) {body body' : State σ ε → (Exit ε × Datum) × State σ ε}
    (hb : ∀ st, ¬ (body st).1.1.Replaced m.host.leaving → body' st = body st) :
    Agrees m.host.leaving (m.inPlace.execCallback loc header target iter body)
      (m.execCallback loc header target iter body') := by
  unfold Machine.execCallback
  cases CallForm.of? iter with
  | none => exact .refl _
  | some form =>
    intro st
    refine (Agrees.query (State.ask (.called form) (m.host.iterator form)) fun it st₁ hst => ?_) st
    have hdrive := drive_agrees (callbackPass_inPlace m st.frame header.label target hb) it m.bound ()
      [] st₁.world fun e he hr => hst (by
        show Exit.Replaced _ (Query.andThen _ _ _).1
        simp only [Query.andThen, show m.inPlace.bound = m.bound from rfl, he, Driven.answer]
        exact hr)
    simp only [Query.andThen, hdrive]
    rfl

/-! ### Statements -/

theorem Step.Agrees.statement (m : Machine σ ε) {s : Stmt} (hc : s.Covered false)
    (hb : ∀ b ∈ s.bodies, Agrees m.host.leaving (Stmt.execAll m.inPlace b) (Stmt.execAll m b) ∧
      ∀ st, ¬ (Stmt.execPass m.inPlace b st).1.1.Replaced m.host.leaving →
        Stmt.execPass m b st = Stmt.execPass m.inPlace b st) :
    Agrees m.host.leaving (Stmt.exec m.inPlace s) (Stmt.exec m s) := by
  cases s with
  | for_ _ isAsync mark target iter body orElse =>
    obtain ⟨rfl, -⟩ := hc
    have hbody := (hb body (.head _)).1
    have horElse := (hb orElse (.tail _ (.head _))).1
    rw [Stmt.exec, Stmt.exec]
    simp only [Bool.false_eq_true, if_false, Machine.execFor]
    show Agrees _ (if m.globals.support? iter = some "ONCE" then _ else _) _
    split
    · exact .andThen (.refl _) (.pass mark hbody horElse)
    · exact .query _ fun it => .loop mark _ hbody horElse m.bound
  | while_ _ mark test body orElse =>
    rw [Stmt.exec, Stmt.exec]
    exact .loop mark _ (hb body (.head _)).1 (hb orElse (.tail _ (.head _))).1 m.bound
  | if_ _ test body orElse =>
    rw [Stmt.exec, Stmt.exec]
    refine .query (m.test test) fun holds => ?_
    cases holds with
    | true => exact (hb body (.head _)).1
    | false => exact (hb orElse (.tail _ (.head _))).1
  | callbackLoop loc header target iter body =>
    rw [Stmt.exec, Stmt.exec]
    exact execCallback_inPlace m loc header target iter (hb body (.head _)).2
  | block loc label target body =>
    rw [Stmt.exec, Stmt.exec]
    exact .andThen (.refl _) (.block label _ (hb body (.head _)).1)
  | try_ => cases hc.1
  | function | class_ | with_ | match_ | supportImport => exact hc.elim
  | _ =>
    rw [Stmt.exec, Stmt.exec]
    exact .refl _

theorem execAll_inPlace (m : Machine σ ε) {body : List Stmt} (hc : Stmt.CoveredAll false body) :
    Agrees m.host.leaving (Stmt.execAll m.inPlace body) (Stmt.execAll m body) ∧
      ∀ st, ¬ (Stmt.execPass m.inPlace body st).1.1.Replaced m.host.leaving →
        Stmt.execPass m body st = Stmt.execPass m.inPlace body st := by
  induction body using Stmt.suite_induction with
  | nil =>
    refine ⟨?_, fun st _ => by rw [Stmt.execPass, Stmt.execPass]⟩
    rw [Stmt.execAll_nil, Stmt.execAll_nil]
    exact .refl _
  | cons s rest ih ihrest =>
    obtain ⟨hc, hcr⟩ := hc
    obtain ⟨hown, hbodies⟩ := Stmt.every_iff.1 hc
    have hs := Agrees.statement m hown fun b hb => ih b hb (hbodies b hb)
    refine ⟨?_, fun st h => ?_⟩
    · rw [Stmt.execAll_cons, Stmt.execAll_cons]
      exact .andThen hs (ihrest hcr).1
    · replace hs := hs st
      unfold Stmt.execPass at h ⊢
      split
      · rfl
      · next s _ _ _ =>
        simp only at h
        rcases hr : Stmt.exec m.inPlace s st with ⟨e, st'⟩
        rw [hr] at hs h
        cases e with
        | normal =>
          rw [hs id]
          exact (ihrest hcr).2 st' h
        | _ => rw [hs h]

end LoopEscape
