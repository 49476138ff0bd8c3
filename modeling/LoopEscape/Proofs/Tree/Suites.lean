import LoopEscape.Proofs.Tree.Parts
import Mathlib.Data.List.Forall2

/-!
# Statements with new suites

A pass that goes through a module suite by suite makes of most statements the same statement with new
suites.
-/

namespace LoopEscape

theorem forall₂_exists_iff {α β : Type} {P : α → Prop} {Q : β → Prop} {l : List α} {l' : List β}
    (h : List.Forall₂ (fun a b => P a ↔ Q b) l l') : (∃ a ∈ l, P a) ↔ ∃ b ∈ l', Q b := by
  induction h with
  | nil => simp
  | cons hab _ ih => simp [hab, ih]

theorem forall₂_mem_right {α β : Type} {R : α → β → Prop} {l : List α} {l' : List β} (h : List.Forall₂ R l l')
    {b : β} (hb : b ∈ l') : ∃ a ∈ l, R a b := by
  induction h with
  | nil => cases hb
  | cons hab _ ih =>
    rcases List.mem_cons.1 hb with rfl | hb
    · exact ⟨_, .head _, hab⟩
    · obtain ⟨a, ha, h⟩ := ih hb
      exact ⟨a, .tail _ ha, h⟩

namespace Stmt

/-- The same statement with the suites `bs`.  Those that must not be empty are filled by `fill`, which is
told the place of the clause. -/
def refill (fill : Loc → List Stmt → List Stmt) : Stmt → List (List Stmt) → Stmt
  | for_ loc isAsync mark target iter _ _, [b, o] => for_ loc isAsync mark target iter (fill loc b) o
  | while_ loc mark test _ _, [b, o] => while_ loc mark test (fill loc b) o
  | if_ loc test _ _, [b, o] => if_ loc test (fill loc b) o
  | with_ loc isAsync items _, [b] => with_ loc isAsync items (fill loc b)
  | match_ loc subject cases, bs =>
    match_ loc subject (cases.zipWith (fun c b => c.mapBody fun _ => fill loc b) bs)
  | try_ loc isStar _ handlers _ _, b :: bs =>
    try_ loc isStar (fill loc b) (handlers.zipWith (fun h b => h.mapBody fun loc _ => fill loc b) bs)
      (bs.getD handlers.length []) (bs.getD (handlers.length + 1) [])
  | block loc label target _, [b] => block loc label target (fill loc b)
  | s, _ => s

/-- Neither a function, a class or a callback loop nor a declaration: what is expanded suite by suite. -/
def isInner : Stmt → Bool
  | function .. | class_ .. | callbackLoop .. | global .. | nonlocal .. => false
  | _ => true

variable {s : Stmt} {fill : Loc → List Stmt → List Stmt} {bs : List (List Stmt)}

theorem isInner_refill : (s.refill fill bs).isInner = s.isInner := by
  unfold refill
  split <;> rfl

theorem parts_of_isInner (hs : s.isInner = true) : s.parts = s.bodies := by
  cases s <;> first | rfl | cases hs

theorem refill_try {loc : Loc} {isStar : Bool} {body orElse final b o f : List Stmt} {handlers : List Handler}
    (hlen : bs.length = handlers.length) :
    (try_ loc isStar body handlers orElse final).refill fill (b :: (bs ++ [o, f])) =
      try_ loc isStar (fill loc b) (handlers.zipWith (fun h b => h.mapBody fun loc _ => fill loc b) bs) o f := by
  have hzip : handlers.zipWith (fun h b => h.mapBody fun loc _ => fill loc b) (bs ++ [o, f]) =
      handlers.zipWith (fun h b => h.mapBody fun loc _ => fill loc b) bs := by
    rw [← List.append_nil handlers, List.zipWith_append hlen.symm, List.append_nil]
    exact List.append_nil _
  simp [refill, hzip, ← hlen]

theorem forall₂_try {R : List Stmt → List Stmt → Prop} {body orElse final : List Stmt} {handlers : List Handler}
    (h : List.Forall₂ R (body :: handlers.map Handler.body ++ [orElse, final]) bs) :
    ∃ b hs o f, bs = b :: (hs ++ [o, f]) ∧ R body b ∧ List.Forall₂ R (handlers.map Handler.body) hs ∧
      R orElse o ∧ R final f := by
  rw [List.cons_append] at h
  obtain ⟨b, rest, hb, hrest, rfl⟩ := List.forall₂_cons_left_iff.1 h
  have htake := List.forall₂_take (handlers.map Handler.body).length hrest
  have hdrop := List.forall₂_drop (handlers.map Handler.body).length hrest
  rw [List.take_left] at htake
  rw [List.drop_left] at hdrop
  obtain ⟨o, _, ho, hrest, heq⟩ := List.forall₂_cons_left_iff.1 hdrop
  obtain ⟨f, _, hf, hnil, rfl⟩ := List.forall₂_cons_left_iff.1 hrest
  rw [List.forall₂_nil_left_iff.1 hnil] at heq
  exact ⟨b, _, o, f, congrArg _ ((List.take_append_drop ..).symm.trans (congrArg _ heq)), hb, htake, ho, hf⟩

theorem bodies_refill (hs : s.isInner = true) (hlen : s.bodies.length = bs.length) :
    List.Forall₂ (fun b b' => b' = b ∨ ∃ loc, b' = fill loc b) bs (s.refill fill bs).bodies := by
  have hall : List.Forall₂ (fun _ _ => True) s.bodies bs :=
    List.forall₂_of_length_eq_of_get hlen fun _ _ _ => trivial
  have hzip {α : Type} (f : α → List Stmt) (g : α → List Stmt → List Stmt)
      (hg : ∀ a b, ∃ loc, g a b = fill loc b) (l : List α) (bs : List (List Stmt))
      (h : List.Forall₂ (fun _ _ => True) (l.map f) bs) :
      List.Forall₂ (fun b b' => b' = b ∨ ∃ loc, b' = fill loc b) bs (l.zipWith g bs) := by
    induction l generalizing bs with
    | nil => cases h; exact .nil
    | cons a l ih =>
      obtain ⟨b, bs, -, hrest, rfl⟩ := List.forall₂_cons_left_iff.1 h
      exact .cons (.inr (hg a b)) (ih bs hrest)
  cases s with
  | for_ | while_ | if_ =>
    obtain ⟨b, _, -, h, rfl⟩ := List.forall₂_cons_left_iff.1 hall
    obtain ⟨o, _, -, hnil, rfl⟩ := List.forall₂_cons_left_iff.1 h
    rw [List.forall₂_nil_left_iff.1 hnil]
    exact .cons (.inr ⟨_, rfl⟩) (.cons (.inl rfl) .nil)
  | with_ | block =>
    obtain ⟨b, _, -, hnil, rfl⟩ := List.forall₂_cons_left_iff.1 hall
    rw [List.forall₂_nil_left_iff.1 hnil]
    exact .cons (.inr ⟨_, rfl⟩) .nil
  | match_ loc subject cases =>
    rw [refill, bodies, List.map_zipWith]
    exact hzip _ _ (fun c b => ⟨loc, MatchCase.body_mapBody⟩) _ _ hall
  | try_ loc isStar body handlers orElse final =>
    obtain ⟨b, hs, o, f, rfl, -, hhs, -, -⟩ := forall₂_try hall
    rw [refill_try (hhs.length_eq.symm.trans (List.length_map _)), bodies, List.map_zipWith]
    refine .cons (.inr ⟨loc, rfl⟩) (List.rel_append (hzip _ _ (fun h b => ⟨h.loc, Handler.body_mapBody⟩) _ _ hhs) ?_)
    exact .cons (.inl rfl) (.cons (.inl rfl) .nil)
  | function | class_ | callbackLoop => cases hs
  | _ => cases hall; exact .nil

theorem every_refill {P : Stmt → Prop} (hs : s.isInner = true) (hlen : s.bodies.length = bs.length)
    (hP : P (s.refill fill bs)) (hbs : ∀ b ∈ bs, EveryAll P b)
    (hfill : ∀ b ∈ bs, ∀ loc, EveryAll P (fill loc b)) : (s.refill fill bs).Every P := by
  refine every_iff.2 ⟨hP, fun b' hb' => ?_⟩
  obtain ⟨b, hb, rfl | ⟨loc, rfl⟩⟩ := forall₂_mem_right (bodies_refill hs hlen) hb'
  · exact hbs _ hb
  · exact hfill b hb loc

/-! ### Statements that keep their heads -/

abbrev withBodies (s : Stmt) (bs : List (List Stmt)) : Stmt := s.refill (fun _ b => b) bs

def isKept : Stmt → Bool
  | if_ .. | with_ .. | match_ .. | try_ .. => true
  | _ => false

theorem isKept_withBodies : (s.withBodies bs).isKept = s.isKept := by
  unfold withBodies refill
  split <;> rfl

theorem isInner_of_isKept (hs : s.isKept = true) : s.isInner = true := by
  cases s <;> first | rfl | cases hs

variable {R : List Stmt → List Stmt → Prop}

theorem bodies_withBodies (hs : s.isKept = true) (h : List.Forall₂ R s.bodies bs) :
    (s.withBodies bs).bodies = bs := by
  have hall := @bodies_refill s (fun _ b => b) bs (isInner_of_isKept hs) h.length_eq
  exact (List.forall₂_eq_eq_eq ▸ hall.imp fun b b' h => (h.elim id Exists.choose_spec).symm :
    bs = _).symm

theorem body_of_withBodies (hs : s.isKept = true) (h : List.Forall₂ R s.bodies bs) {b' : List Stmt}
    (hb' : b' ∈ (s.withBodies bs).bodies) : ∃ b ∈ s.bodies, R b b' :=
  forall₂_mem_right h (bodies_withBodies hs h ▸ hb')

theorem every_withBodies {P Q : Stmt → Prop} (hs : s.isKept = true)
    (h : List.Forall₂ (fun b b' => EveryAll P b → EveryAll Q b') s.bodies bs) (hP : s.Every P)
    (hQ : Q (s.withBodies bs)) : (s.withBodies bs).Every Q := by
  refine every_iff.2 ⟨hQ, fun b' hb' => ?_⟩
  obtain ⟨b, hb, ih⟩ := body_of_withBodies hs h hb'
  exact ih ((every_iff.1 hP).2 b hb)

end Stmt

end LoopEscape
