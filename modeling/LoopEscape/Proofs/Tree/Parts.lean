import LoopEscape.Proofs.Tree.Every

/-!
# The suites of a scope

The statements of a scope at any depth, nested functions and classes apart: the suites of a statement that
belong to its scope, induction over them, and the same statement with other suites.
-/

namespace LoopEscape

def Handler.body : Handler → List Stmt
  | .mk _ _ _ body => body

def MatchCase.body : MatchCase → List Stmt
  | .mk _ _ body => body

def Handler.loc : Handler → Loc
  | .mk loc _ _ _ => loc

def MatchCase.mapBody (f : List Stmt → List Stmt) : MatchCase → MatchCase
  | mk pattern guard body => mk pattern guard (f body)

def Handler.mapBody (f : Loc → List Stmt → List Stmt) : Handler → Handler
  | mk loc type name body => mk loc type name (f loc body)

section

variable {c : MatchCase} {h : Handler} {f f' : List Stmt → List Stmt} {g g' : Loc → List Stmt → List Stmt}

@[simp] theorem MatchCase.body_mapBody : (c.mapBody f).body = f c.body := by
  cases c; rfl

@[simp] theorem Handler.body_mapBody : (h.mapBody g).body = g h.loc h.body := by
  cases h; rfl

@[simp] theorem MatchCase.mapBody_mapBody : (c.mapBody f).mapBody f' = c.mapBody fun b => f' (f b) := by
  cases c; rfl

@[simp] theorem Handler.mapBody_mapBody :
    (h.mapBody g).mapBody g' = h.mapBody fun loc b => g' loc (g loc b) := by
  cases h; rfl

@[simp] theorem MatchCase.mapBody_inj : c.mapBody f = c.mapBody f' ↔ f c.body = f' c.body := by
  cases c; simp [mapBody, body]

@[simp] theorem Handler.mapBody_inj :
    h.mapBody g = h.mapBody g' ↔ g h.loc h.body = g' h.loc h.body := by
  cases h; simp [mapBody, body, loc]

end

namespace Stmt

def bodies : Stmt → List (List Stmt)
  | function _ _ _ _ body _ _ | class_ _ _ _ _ body _ | with_ _ _ _ body | callbackLoop _ _ _ _ body
  | block _ _ _ body => [body]
  | for_ _ _ _ _ _ body orElse | while_ _ _ _ body orElse | if_ _ _ body orElse => [body, orElse]
  | match_ _ _ cases => cases.map MatchCase.body
  | try_ _ _ body handlers orElse final => body :: handlers.map Handler.body ++ [orElse, final]
  | _ => []

def parts : Stmt → List (List Stmt)
  | function .. | class_ .. => []
  | s => s.bodies

/-- The same statement with other suites.  Those that must not be empty are changed by `main`, which is
told the place of the clause, the others by `rest`. -/
def mapParts (main : Loc → List Stmt → List Stmt) (rest : List Stmt → List Stmt) : Stmt → Stmt
  | for_ loc isAsync mark target iter body orElse =>
    for_ loc isAsync mark target iter (main loc body) (rest orElse)
  | while_ loc mark test body orElse => while_ loc mark test (main loc body) (rest orElse)
  | if_ loc test body orElse => if_ loc test (main loc body) (rest orElse)
  | with_ loc isAsync items body => with_ loc isAsync items (main loc body)
  | match_ loc subject cases => match_ loc subject (cases.map (.mapBody (main loc)))
  | try_ loc isStar body handlers orElse final =>
    try_ loc isStar (main loc body) (handlers.map (.mapBody main)) (rest orElse) (rest final)
  | callbackLoop loc header target iter body => callbackLoop loc header target iter (main loc body)
  | block loc label target body => block loc label target (main loc body)
  | s => s

theorem sizeOf_body_lt {s : Stmt} {b : List Stmt} (h : b ∈ s.bodies) : sizeOf b < sizeOf s := by
  cases s with
  | match_ loc subject cases =>
    obtain ⟨⟨pattern, guard, body⟩, hc, rfl⟩ := List.mem_map.1 h
    have := List.sizeOf_lt_of_mem hc
    simp only [MatchCase.body, MatchCase.mk.sizeOf_spec, match_.sizeOf_spec] at this ⊢
    omega
  | try_ loc isStar body handlers orElse final =>
    simp only [bodies, List.cons_append, List.mem_cons, List.mem_append, List.mem_map, List.not_mem_nil,
      or_false] at h
    obtain rfl | ⟨⟨loc, type, name, body⟩, hc, rfl⟩ | rfl | rfl := h
    · simp only [try_.sizeOf_spec]; omega
    · have := List.sizeOf_lt_of_mem hc
      simp only [Handler.body, Handler.mk.sizeOf_spec, try_.sizeOf_spec] at this ⊢
      omega
    · simp only [try_.sizeOf_spec]; omega
    · simp only [try_.sizeOf_spec]; omega
  | _ =>
    simp only [bodies, List.mem_cons, List.not_mem_nil, or_false] at h
    try (rcases h with rfl | rfl <;> simp <;> omega)

theorem bodies_induction {motive : List Stmt → Prop}
    (h : ∀ body, (∀ s ∈ body, ∀ b ∈ s.bodies, motive b) → motive body) (body : List Stmt) :
    motive body := by
  refine h body fun s hs b hb => ?_
  have hlt : sizeOf b < sizeOf body := Nat.lt_trans (sizeOf_body_lt hb) (List.sizeOf_lt_of_mem hs)
  exact bodies_induction h b
termination_by sizeOf body

theorem suite_induction {motive : List Stmt → Prop} (nil : motive [])
    (cons : ∀ s rest, (∀ b ∈ s.bodies, motive b) → motive rest → motive (s :: rest))
    (body : List Stmt) : motive body := by
  induction body using bodies_induction with
  | h body ih =>
    induction body with
    | nil => exact nil
    | cons s rest ihrest =>
      exact cons s rest (ih s (.head _)) (ihrest fun s hs => ih s (List.mem_cons_of_mem _ hs))

theorem body_of_part {s : Stmt} {b : List Stmt} (h : b ∈ s.parts) : b ∈ s.bodies := by
  cases s <;> first | exact h | cases h

theorem parts_induction {motive : List Stmt → Prop}
    (h : ∀ body, (∀ s ∈ body, ∀ b ∈ s.parts, motive b) → motive body) (body : List Stmt) :
    motive body :=
  bodies_induction (fun body ih => h body fun s hs b hb => ih s hs b (body_of_part hb)) body

variable {main main' : Loc → List Stmt → List Stmt} {rest rest' : List Stmt → List Stmt} {s : Stmt}

theorem mapParts_congr (hmain : ∀ b ∈ s.parts, ∀ loc, main loc b = main' loc b)
    (hrest : ∀ b ∈ s.parts, rest b = rest' b) : s.mapParts main rest = s.mapParts main' rest' := by
  cases s <;> simp_all [mapParts, parts, bodies, or_imp, forall_and]

theorem mapParts_mapParts : (s.mapParts main rest).mapParts main' rest' =
    s.mapParts (fun loc b => main' loc (main loc b)) (fun b => rest' (rest b)) := by
  cases s <;> simp [mapParts]

theorem forall_parts_mapParts {Q : List Stmt → Prop} (hmain : ∀ b ∈ s.parts, ∀ loc, Q (main loc b))
    (hrest : ∀ b ∈ s.parts, Q (rest b)) : ∀ b ∈ (s.mapParts main rest).parts, Q b := by
  cases s <;> simp_all [mapParts, parts, bodies, or_imp, forall_and]

/-! ### Properties of all statements -/

variable {P : Stmt → Prop}

theorem everyHandlers_mem {handlers : List Handler} :
    Handler.EveryAll P handlers ↔ ∀ h ∈ handlers, EveryAll P h.body := by
  rw [everyHandlers_iff]
  exact forall₂_congr fun ⟨_, _, _, body⟩ _ => iff_of_eq (and_true _)

theorem everyCases_mem {cases : List MatchCase} :
    MatchCase.EveryAll P cases ↔ ∀ c ∈ cases, EveryAll P c.body := by
  rw [everyCases_iff]
  exact forall₂_congr fun ⟨_, _, body⟩ _ => iff_of_eq (and_true _)

theorem every_iff : s.Every P ↔ P s ∧ ∀ b ∈ s.bodies, EveryAll P b := by
  cases s <;> simp [Every, bodies, everyHandlers_mem, everyCases_mem, or_imp, forall_and]

theorem Every.here (h : s.Every P) : P s := (every_iff.1 h).1

theorem Every.parts (h : s.Every P) : ∀ b ∈ s.parts, EveryAll P b :=
  fun b hb => (every_iff.1 h).2 b (body_of_part hb)

theorem every_mapParts (h : s.Every P)
    (hmain : ∀ loc b, EveryAll P (main loc b) ↔ EveryAll P (rest b)) :
    (s.mapParts main rest).Every P ↔
      P (s.mapParts main rest) ∧ ∀ b ∈ s.parts, EveryAll P (rest b) := by
  cases s <;> simp_all [mapParts, Every, Stmt.parts, bodies, everyHandlers_mem, everyCases_mem]
  grind

end Stmt

end LoopEscape
