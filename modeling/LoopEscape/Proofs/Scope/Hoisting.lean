import LoopEscape.Proofs.Scope.Declared
import LoopEscape.Proofs.Grammar.Native

/-!
# Hoisting

Taking the declarations out of the callback loops of a scope, seen from the statements of the scope: what
is taken out, what is left, and whether what is left can be written down again.

Main statements: the declarations of a scope are parted (`hoist_parts`), and the statements that are left
are whole exactly when no `try` without handlers has only declarations in its last clause
(`hoist_filled_iff`).
-/

namespace LoopEscape

open Declarations Stmt

variable {s t : Stmt} {looped looped' : Bool} {body : List Stmt}

/-- A statement of the scope of some statements, at any depth.  The flags tell whether a callback loop of
the scope is around the statements, and around the one that is meant. -/
inductive InScope : Bool → List Stmt → Bool → Stmt → Prop
  | here {looped : Bool} {body : List Stmt} {s : Stmt} (h : s ∈ body) : InScope looped body looped s
  | inside {looped looped' : Bool} {body suite : List Stmt} {s t : Stmt} (h : s ∈ body)
      (hs : suite ∈ s.parts) (ht : InScope (looped || s.IsCallbackLoop) suite looped' t) :
      InScope looped body looped' t

mutual

/-- Statements that are left as they are, but for the declarations in callback loops. -/
inductive Retained : Bool → List Stmt → List Stmt → Prop
  | nil {looped : Bool} : Retained looped [] []
  | gone {s : Stmt} {rest rest' : List Stmt} (hs : s.IsDeclaration) (h : Retained true rest rest') :
      Retained true (s :: rest) rest'
  | same {looped : Bool} {s : Stmt} {rest rest' : List Stmt} {main : Loc → List Stmt → List Stmt}
      {others : List Stmt → List Stmt} (hs : looped = true → ¬ s.IsDeclaration)
      (hmain : ∀ b ∈ s.parts, ∀ loc, RetainedBody (looped || s.IsCallbackLoop) b (main loc b))
      (hothers : ∀ b ∈ s.parts, Retained (looped || s.IsCallbackLoop) b (others b))
      (h : Retained looped rest rest') : Retained looped (s :: rest) (s.mapParts main others :: rest')

/-- A body that must not be empty has a statement that does nothing in it when nothing else is left. -/
inductive RetainedBody : Bool → List Stmt → List Stmt → Prop
  | some {looped : Bool} {body body' : List Stmt} (h : Retained looped body body') :
      RetainedBody looped body body'
  | none {body : List Stmt} (loc : Loc) (h : Retained true body []) : RetainedBody true body [.pass loc]

end

@[simp] theorem Stmt.isDeclaration_mapParts {main : Loc → List Stmt → List Stmt} {rest : List Stmt → List Stmt} :
    (s.mapParts main rest).IsDeclaration ↔ s.IsDeclaration := by
  cases s <;> rfl

@[simp] theorem Stmt.isCallbackLoop_mapParts {main : Loc → List Stmt → List Stmt} {rest : List Stmt → List Stmt} :
    (s.mapParts main rest).IsCallbackLoop ↔ s.IsCallbackLoop := by
  cases s <;> rfl

/-! ### What is taken out -/

theorem inScope_iff :
    InScope looped body looped' t ↔ ∃ s ∈ body, (looped' = looped ∧ t = s) ∨
      ∃ b ∈ s.parts, InScope (looped || s.IsCallbackLoop) b looped' t := by
  constructor
  · rintro (h | ⟨h, hb, ht⟩)
    · exact ⟨t, h, .inl ⟨rfl, rfl⟩⟩
    · exact ⟨_, h, .inr ⟨_, hb, ht⟩⟩
  · rintro ⟨s, hs, ⟨rfl, rfl⟩ | ⟨b, hb, ht⟩⟩
    · exact .here hs
    · exact .inside hs hb ht

theorem not_inScope_nil : ¬ InScope looped [] looped' t := by
  rintro (h | ⟨h, -, -⟩) <;> cases h

theorem inScope_cons {rest : List Stmt} :
    InScope looped (s :: rest) looped' t ↔ (looped' = looped ∧ t = s ∨
      ∃ b ∈ s.parts, InScope (looped || s.IsCallbackLoop) b looped' t) ∨ InScope looped rest looped' t := by
  rw [inScope_iff, inScope_iff]
  exact List.exists_mem_cons_iff ..

theorem forall_inScope_iff {Q : Bool → Stmt → Prop} :
    (∀ looped' t, InScope looped body looped' t → Q looped' t) ↔ ∀ s ∈ body, Q looped s ∧
      ∀ b ∈ s.parts, ∀ looped' t, InScope (looped || s.IsCallbackLoop) b looped' t → Q looped' t := by
  constructor
  · exact fun h s hs => ⟨h _ s (.here hs), fun b hb looped' t ht => h _ t (.inside hs hb ht)⟩
  · rintro h looped' t (hs | ⟨hs, hb, ht⟩)
    · exact (h t hs).1
    · exact (h _ hs).2 _ hb looped' t ht

theorem InScope.looped_mono (h : InScope looped body looped' t) (hl : looped = true) : looped' = true := by
  induction h with
  | here => exact hl
  | inside _ _ _ ih => exact ih (by rw [hl, Bool.true_or])

theorem has_declaredAll_iff {isGlobal : Bool} {x : String} (looped : Bool) (body : List Stmt) :
    (declaredAll body).Has isGlobal x ↔
      ∃ looped' t, InScope looped body looped' t ∧ t.Declares isGlobal x := by
  induction body using parts_induction generalizing looped with
  | h body ih =>
    rw [has_declaredAll_mem]
    simp only [has_declared_iff]
    constructor
    · rintro ⟨s, hs, hx | ⟨b, hb, hx⟩⟩
      · exact ⟨looped, s, .here hs, hx⟩
      · obtain ⟨looped', t, ht, hx⟩ := (ih s hs b hb _).1 hx
        exact ⟨looped', t, .inside hs hb ht, hx⟩
    · rintro ⟨looped', t, ht, hx⟩
      obtain ⟨s, hs, ⟨-, rfl⟩ | ⟨b, hb, ht⟩⟩ := inScope_iff.1 ht
      · exact ⟨t, hs, .inl hx⟩
      · exact ⟨s, hs, .inr ⟨b, hb, (ih s hs b hb _).2 ⟨looped', t, ht, hx⟩⟩⟩

theorem has_hoistedAll_iff {isGlobal : Bool} {x : String} (body : List Stmt) :
    (hoistedAll body).Has isGlobal x ↔ ∃ t, InScope false body true t ∧ t.Declares isGlobal x := by
  induction body using parts_induction with
  | h body ih =>
    rw [has_collected hoisted hoistedAll rfl fun _ _ => rfl]
    simp only [has_hoisted_iff]
    have hstep : ∀ s ∈ body, ∀ b ∈ s.parts,
        ((if s.IsCallbackLoop then writtenAll b else hoistedAll b).Has isGlobal x ↔
          ∃ t, InScope (false || s.IsCallbackLoop) b true t ∧ t.Declares isGlobal x) := by
      intro s hs b hb
      by_cases hloop : s.IsCallbackLoop
      · simp only [hloop, if_true, decide_true, Bool.false_or, has_writtenAll, has_declaredAll_iff true b]
        exact ⟨fun ⟨l, t, ht, hx⟩ => ⟨t, ht.looped_mono rfl ▸ ht, hx⟩, fun ⟨t, ht, hx⟩ => ⟨_, t, ht, hx⟩⟩
      · simp only [hloop, if_false, decide_false, Bool.or_false, ih s hs b hb]
    constructor
    · rintro ⟨s, hs, b, hb, hx⟩
      obtain ⟨t, ht, hx⟩ := (hstep s hs b hb).1 hx
      exact ⟨t, .inside hs hb ht, hx⟩
    · rintro ⟨t, ht, hx⟩
      obtain ⟨s, hs, ⟨h, -⟩ | ⟨b, hb, ht⟩⟩ := inScope_iff.1 ht
      · exact absurd h (by decide)
      · exact ⟨s, hs, b, hb, (hstep s hs b hb).2 ⟨t, ht, hx⟩⟩

/-! ### What is left -/

theorem mem_undeclaredAll (h : t ∈ undeclaredAll body) :
    ∃ s ∈ body, ¬ s.IsDeclaration ∧ t = s.mapParts bodyLeft undeclaredAll := by
  rw [undeclaredAll_eq, List.mem_flatMap] at h
  obtain ⟨s, hs, ht⟩ := h
  rw [undeclared_eq] at ht
  split at ht
  · cases ht
  · exact ⟨s, hs, ‹_›, List.mem_singleton.1 ht⟩

theorem bodyLeft_bodyLeft (loc : Loc) (h : undeclaredAll (undeclaredAll body) = undeclaredAll body) :
    bodyLeft loc (bodyLeft loc body) = bodyLeft loc body := by
  rw [bodyLeft, bodyLeft]
  cases hleft : undeclaredAll body with
  | nil => rfl
  | cons s rest =>
    rw [hleft] at h
    exact congrArg (orPass loc) h

theorem inScope_orPass {loc : Loc} (h : InScope looped (orPass loc body) looped' t) :
    t = .pass loc ∨ InScope looped body looped' t := by
  cases body with
  | nil =>
    obtain ⟨s, hs, h⟩ := inScope_iff.1 h
    cases List.mem_singleton.1 hs
    obtain ⟨-, rfl⟩ | ⟨b, hb, -⟩ := h
    · exact .inl rfl
    · cases hb
  | cons => exact .inr h

def Undeclaring (body : List Stmt) : Prop :=
  ∀ looped looped' t, InScope looped body looped' t → ¬ t.IsDeclaration

theorem Undeclaring.orPass (h : Undeclaring body) (loc : Loc) :
    Undeclaring (orPass loc body) := by
  intro looped looped' t ht
  obtain rfl | ht := inScope_orPass ht
  · exact id
  · exact h _ _ _ ht

theorem undeclaring_undeclaredAll (body : List Stmt) : Undeclaring (undeclaredAll body) := by
  induction body using parts_induction with
  | h body ih =>
    intro looped looped' t ht
    obtain ⟨t', ht', h⟩ := inScope_iff.1 ht
    obtain ⟨s, hs, hdecl, rfl⟩ := mem_undeclaredAll ht'
    obtain ⟨-, rfl⟩ | ⟨b, hb, h⟩ := h
    · rwa [isDeclaration_mapParts]
    · exact forall_parts_mapParts (fun b hb loc => (ih s hs b hb).orPass loc) (ih s hs) b hb _ _ _ h

theorem stripLoopsAll_no_declaration (h : InScope false (stripLoopsAll body) true t) : ¬ t.IsDeclaration := by
  induction body using parts_induction with
  | h body ih =>
    obtain ⟨t', ht', h⟩ := inScope_iff.1 h
    rw [stripLoopsAll_eq] at ht'
    obtain ⟨s, hs, rfl⟩ := List.mem_map.1 ht'
    obtain ⟨h, -⟩ | ⟨b, hb, h⟩ := h
    · cases h
    rw [stripLoops_eq] at hb h
    split at hb
    next hloop =>
      exact forall_parts_mapParts (fun b _ loc => (undeclaring_undeclaredAll b).orPass loc)
        (fun b _ => undeclaring_undeclaredAll b) b hb _ _ _ h
    next hloop =>
      simp only [hloop, if_false, isCallbackLoop_mapParts, decide_false, Bool.or_false] at h
      exact forall_parts_mapParts (Q := fun b => InScope false b true t → ¬ t.IsDeclaration)
        (fun b hb _ h => ih s hs b hb h) (fun b hb h => ih s hs b hb h) b hb h

theorem undeclaredAll_undeclaredAll (body : List Stmt) :
    undeclaredAll (undeclaredAll body) = undeclaredAll body := by
  induction body using parts_induction with
  | h body ih =>
    rw [undeclaredAll_eq body, undeclaredAll_eq, List.flatMap_assoc]
    refine List.flatMap_congr fun s hs => ?_
    rw [undeclared_eq]
    split
    next => rfl
    next hdecl =>
      have hdecl' : ¬ (s.mapParts bodyLeft undeclaredAll).IsDeclaration := by
        rwa [isDeclaration_mapParts]
      rw [List.flatMap_singleton, undeclared_eq, if_neg hdecl', mapParts_mapParts,
        mapParts_congr (fun b hb loc => bodyLeft_bodyLeft loc (ih s hs b hb)) (ih s hs)]

theorem stripLoopsAll_stripLoopsAll (body : List Stmt) :
    stripLoopsAll (stripLoopsAll body) = stripLoopsAll body := by
  induction body using parts_induction with
  | h body ih =>
    rw [stripLoopsAll_eq body, stripLoopsAll_eq, List.map_map]
    refine List.map_congr_left fun s hs => ?_
    rw [Function.comp_apply, stripLoops_eq s]
    split
    next hloop =>
      have hloop' : (s.mapParts bodyLeft undeclaredAll).IsCallbackLoop := by
        rwa [isCallbackLoop_mapParts]
      rw [stripLoops_eq, if_pos hloop', mapParts_mapParts]
      exact mapParts_congr (fun b _ loc => bodyLeft_bodyLeft loc (undeclaredAll_undeclaredAll b))
        (fun b _ => undeclaredAll_undeclaredAll b)
    next hloop =>
      have hloop' : ¬ (s.mapParts (fun _ => stripLoopsAll) stripLoopsAll).IsCallbackLoop := by
        rwa [isCallbackLoop_mapParts]
      rw [stripLoops_eq, if_neg hloop', mapParts_mapParts,
        mapParts_congr (fun b hb _ => ih s hs b hb) (ih s hs)]

theorem Retained.bodyLeft {b : List Stmt} (h : Retained true b (undeclaredAll b)) (loc : Loc) :
    RetainedBody true b (bodyLeft loc b) := by
  rw [Stmt.bodyLeft]
  revert h
  cases undeclaredAll b with
  | nil => exact .none loc
  | cons s rest => exact .some

theorem retained_undeclaredAll (body : List Stmt) : Retained true body (undeclaredAll body) := by
  induction body using parts_induction with
  | h body ih =>
    induction body with
    | nil => exact .nil
    | cons s rest ihrest =>
      have hrest := ihrest fun t ht => ih t (List.mem_cons_of_mem s ht)
      rw [undeclaredAll, undeclared_eq]
      split
      next hdecl => exact .gone hdecl hrest
      next hdecl =>
        have hparts := ih s List.mem_cons_self
        exact .same (fun _ => hdecl) (fun b hb loc => (hparts b hb).bodyLeft loc) hparts hrest

theorem retained_stripLoopsAll (body : List Stmt) : Retained false body (stripLoopsAll body) := by
  induction body using parts_induction with
  | h body ih =>
    induction body with
    | nil => exact .nil
    | cons s rest ihrest =>
      have hrest := ihrest fun t ht => ih t (List.mem_cons_of_mem s ht)
      rw [stripLoopsAll, stripLoops_eq]
      split
      next hloop =>
        refine .same (by simp) (fun b _ loc => ?_) (fun b _ => ?_) hrest
        all_goals rw [Bool.false_or, decide_eq_true hloop]
        · exact (retained_undeclaredAll b).bodyLeft loc
        · exact retained_undeclaredAll b
      next hloop =>
        have hparts := ih s List.mem_cons_self
        refine .same (by simp) (fun b hb _ => ?_) (fun b hb => ?_) hrest
        all_goals rw [Bool.false_or, decide_eq_false hloop]
        · exact .some (hparts b hb)
        · exact hparts b hb

theorem hoistedNames_stripLoopsAll (body : List Stmt) : hoistedNames (stripLoopsAll body) = {} := by
  have hempty : hoistedAll (stripLoopsAll body) = {} := by
    refine eq_empty fun isGlobal x hx => ?_
    obtain ⟨t, ht, hx⟩ := (has_hoistedAll_iff _).1 hx
    exact stripLoopsAll_no_declaration ht hx.isDeclaration
  rw [hoistedNames, hempty]
  rfl

/-- The declarations of a scope are parted into those in its callback loops and the rest.  The loops have
none left, all else is kept, and nothing is left to do. -/
theorem hoist_parts (body : List Stmt) :
    (∀ isGlobal x, (declaredNames body).Has isGlobal x ↔
      (hoist body).1.Has isGlobal x ∨ (declaredNames (hoist body).2).Has isGlobal x) ∧
    (∀ isGlobal x, (hoist body).1.Has isGlobal x ↔
      ∃ t, InScope false body true t ∧ t.Declares isGlobal x) ∧
    (∀ t, InScope false (hoist body).2 true t → ¬ t.IsDeclaration) ∧
    Retained false body (hoist body).2 ∧ hoist (hoist body).2 = ({}, (hoist body).2) := by
  refine ⟨fun isGlobal x => ?_, fun isGlobal x => ?_, fun t => stripLoopsAll_no_declaration,
    retained_stripLoopsAll body, ?_⟩
  · rw [declaredNames, has_unique, has_declaredAll, hoist, hoistedNames, has_unique, declaredNames,
      has_unique]
  · rw [hoist, hoistedNames, has_unique, has_hoistedAll_iff]
  · exact congrArg₂ Prod.mk (hoistedNames_stripLoopsAll body) (stripLoopsAll_stripLoopsAll body)

/-! ### Whole statements -/

namespace Stmt

def onlyFinal? : Stmt → Option (List Stmt)
  | try_ _ _ _ [] _ final => some final
  | _ => none

def KeepsFinal (s : Stmt) : Prop := ∀ final ∈ s.onlyFinal?, ∃ t ∈ final, ¬ t.IsDeclaration

variable {main : Loc → List Stmt → List Stmt} {rest : List Stmt → List Stmt} {P : Stmt → Prop}

theorem filled_mapParts (h : s.Filled) (hmain : ∀ loc b, b ≠ [] → main loc b ≠ []) :
    (s.mapParts main rest).Filled ↔ ∀ final ∈ s.onlyFinal?, rest final ≠ [] := by
  cases s with
  | try_ loc isStar body handlers orElse final =>
    obtain ⟨hbody, -, hhandlers⟩ := h
    have hhandlers' : ∀ h ∈ handlers.map (Handler.mapBody main), h.body ≠ [] := by
      rw [List.forall_mem_map]
      rintro ⟨loc, _, _, body⟩ hc
      exact hmain loc body (hhandlers _ hc)
    cases handlers <;> simp_all [mapParts, Filled, onlyFinal?]
  | match_ loc subject cases =>
    have hcases : ∀ c ∈ cases.map (MatchCase.mapBody (main loc)), c.body ≠ [] := by
      rw [List.forall_mem_map]
      rintro ⟨_, _, body⟩ hc
      exact hmain loc body (h.2 _ hc)
    simp_all [mapParts, Filled, onlyFinal?]
  | _ => simp_all [mapParts, Filled, onlyFinal?]

theorem everyAll_flatMap {α : Type} {f : α → List Stmt} {l : List α} :
    EveryAll P (l.flatMap f) ↔ ∀ a ∈ l, EveryAll P (f a) := by
  simp only [everyAll_iff, List.mem_flatMap]
  grind

theorem everyAll_orPass {loc : Loc} (hP : P (.pass loc)) :
    EveryAll P (orPass loc body) ↔ EveryAll P body := by
  cases body with
  | nil => simp [orPass, EveryAll, Every, hP]
  | cons => rfl

theorem orPass_ne_nil (loc : Loc) (body : List Stmt) : orPass loc body ≠ [] := by
  cases body <;> exact List.cons_ne_nil _ _

theorem undeclaredAll_ne_nil :
    undeclaredAll body ≠ [] ↔ ∃ t ∈ body, ¬ t.IsDeclaration := by
  rw [undeclaredAll_eq, Ne, List.flatMap_eq_nil_iff]
  simp [undeclared_eq]

theorem Filled.onlyFinal (h : s.Filled) : ∀ final ∈ s.onlyFinal?, final ≠ [] := by
  cases s with
  | try_ loc isStar body handlers orElse final => cases handlers <;> simp_all [Filled, onlyFinal?]
  | _ => simp [onlyFinal?]

theorem filled_left_iff (h : s.Every Filled) :
    (s.mapParts bodyLeft undeclaredAll).Every Filled ↔
      s.KeepsFinal ∧ ∀ b ∈ s.parts, EveryAll Filled (undeclaredAll b) := by
  have hmain (loc : Loc) (b : List Stmt) :
      EveryAll Filled (bodyLeft loc b) ↔ EveryAll Filled (undeclaredAll b) := everyAll_orPass trivial
  have hne (loc : Loc) (b : List Stmt) (_ : b ≠ []) : bodyLeft loc b ≠ [] := orPass_ne_nil loc _
  rw [every_mapParts h hmain, filled_mapParts h.here hne]
  exact and_congr_left' (forall₂_congr fun final _ => undeclaredAll_ne_nil)

theorem undeclaredAll_filled_iff (h : EveryAll Filled body) :
    EveryAll Filled (undeclaredAll body) ↔ ∀ looped t, InScope true body looped t → t.KeepsFinal := by
  induction body using parts_induction with
  | h body ih =>
    rw [forall_inScope_iff, undeclaredAll_eq, everyAll_flatMap]
    refine forall₂_congr fun s hs => ?_
    have hs' := everyAll_iff.1 h s hs
    rw [undeclared_eq, Bool.true_or]
    split
    next hdecl =>
      cases s <;> simp [IsDeclaration] at hdecl <;> simp [EveryAll, KeepsFinal, onlyFinal?, Stmt.parts, bodies]
    next hdecl =>
      rw [EveryAll, EveryAll, and_true, filled_left_iff hs']
      exact and_congr_right' (forall₂_congr fun b hb => ih s hs b hb (hs'.parts b hb))

end Stmt

/-- What is left of a scope is whole exactly when, inside of its callback loops, no `try` without handlers
has only declarations in its last clause. -/
theorem hoist_filled_iff {body : List Stmt} (h : EveryAll Filled body) :
    EveryAll Filled (hoist body).2 ↔ ∀ t, InScope false body true t → t.KeepsFinal := by
  induction body using parts_induction with
  | h body ih =>
    have hstep : ∀ s ∈ body, (s.stripLoops.Every Filled ↔
        ∀ b ∈ s.parts, ∀ t, InScope (false || s.IsCallbackLoop) b true t → t.KeepsFinal) := by
      intro s hs
      have hs' := everyAll_iff.1 h s hs
      rw [stripLoops_eq, Bool.false_or]
      split
      next hloop =>
        have hfinal : s.KeepsFinal := by
          cases s <;> first | exact hloop.elim | exact nofun
        rw [filled_left_iff hs', and_iff_right hfinal, decide_eq_true hloop]
        refine forall₂_congr fun b hb => (undeclaredAll_filled_iff (hs'.parts b hb)).trans ?_
        exact ⟨fun h t => h true t, fun h looped t ht => h t (ht.looped_mono rfl ▸ ht)⟩
      next hloop =>
        have hne (b : List Stmt) (hb : b ≠ []) : stripLoopsAll b ≠ [] := by
          rwa [stripLoopsAll_eq, Ne, List.map_eq_nil_iff]
        have hfilled : (s.mapParts (fun _ => stripLoopsAll) stripLoopsAll).Filled :=
          (filled_mapParts hs'.here fun _ => hne).2 fun final hf => hne _ (hs'.here.onlyFinal final hf)
        have hmain (loc : Loc) (b : List Stmt) :
            EveryAll Filled ((fun _ => stripLoopsAll) loc b) ↔ EveryAll Filled (stripLoopsAll b) := Iff.rfl
        rw [every_mapParts hs' hmain, and_iff_right hfilled, decide_eq_false hloop]
        exact forall₂_congr fun b hb => ih s hs b hb (hs'.parts b hb)
    rw [hoist, everyAll_iff, stripLoopsAll_eq, List.forall_mem_map]
    constructor
    · rintro h t ht
      obtain ⟨s, hs, ⟨h', -⟩ | ⟨b, hb, ht⟩⟩ := inScope_iff.1 ht
      · cases h'
      · exact (hstep s hs).1 (h s hs) b hb t ht
    · exact fun h s hs => (hstep s hs).2 fun b hb t ht => h t (.inside hs hb ht)

def lastClause (final : List Stmt) : List Stmt :=
  [.callbackLoop default default default default
    [.global default ["x"], .try_ default false [.nonlocal default ["y"]] [] [] final]]

theorem hoist_filled_lastClause :
    EveryAll Filled (lastClause [.global default ["z"], .pass default]) ∧
      EveryAll Filled (hoist (lastClause [.global default ["z"], .pass default])).2 := by
  have hfilled : EveryAll Filled (lastClause [.global default ["z"], .pass default]) := by
    simp [lastClause, EveryAll, Every, Filled, Handler.EveryAll]
  refine ⟨hfilled, (hoist_filled_iff hfilled).2 fun t ht => ?_⟩
  simp [lastClause, inScope_cons, not_inScope_nil, Stmt.parts, bodies] at ht
  rcases ht with ⟨-, rfl⟩ | ⟨-, rfl⟩ | ⟨-, rfl⟩ | ⟨-, rfl⟩ | ⟨-, rfl⟩ <;> simp [KeepsFinal, onlyFinal?, IsDeclaration]

/-- With nothing but a declaration in its last clause, a `try` is left that is none. -/
theorem hoist_lastClause_not_filled : EveryAll Filled (lastClause [.global default ["z"]]) ∧
    ¬ EveryAll Filled (hoist (lastClause [.global default ["z"]])).2 := by
  simp [lastClause, hoist, EveryAll, Every, Filled, Handler.EveryAll, stripLoopsAll, stripLoops,
    undeclaredAll, undeclared, orPass, Handler.undeclaredAll]

end LoopEscape
