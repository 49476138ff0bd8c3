import LoopEscape.Generate.Expand
import LoopEscape.Proofs.Tree.Every

/-!
# What generated code is made of

The statements that occur in the pieces of code made for a callback loop, piece by piece.  A property
that all of these statements have holds of the code.
-/

namespace LoopEscape

open Generate

variable {loc : Loc} {s : Stmt}

theorem mem_orPass {body : List Stmt} (h : s ∈ orPass loc body) : s ∈ body ∨ s = .pass loc := by
  cases body with
  | nil => exact .inr (List.mem_singleton.1 h)
  | cons => exact .inl h

theorem mem_declarations {globals nonlocals : List String}
    (h : s ∈ declarations loc globals nonlocals) :
    s = .global loc globals ∨ s = .nonlocal loc nonlocals := by
  rw [declarations, List.mem_append] at h
  rcases h with h | h
  · split at h
    · exact absurd h (by simp)
    · exact .inl (List.mem_singleton.1 h)
  · split at h
    · exact absurd h (by simp)
    · exact .inr (List.mem_singleton.1 h)

theorem mem_scopeStart {hoisted : Declarations} {wanted : List String}
    (h : s ∈ scopeStart loc hoisted wanted) :
    s = .global loc hoisted.globals ∨ s = .nonlocal loc hoisted.nonlocals ∨
      ∃ x ∈ wanted, s = variable_ loc x := by
  rcases List.mem_append.1 h with h | h
  · exact (mem_declarations h).imp_right .inl
  · obtain ⟨x, hx, rfl⟩ := List.mem_map.1 h
    exact .inr (.inr ⟨x, List.mem_eraseDups.1 hx, rfl⟩)

theorem insertAfterDoc_nil (body : List Stmt) : insertAfterDoc [] body = body := by
  cases body with
  | nil => rfl
  | cons s rest => exact ite_self (s :: rest)

theorem mem_insertAfterDoc {decls body : List Stmt} (h : s ∈ insertAfterDoc decls body) :
    s ∈ decls ∨ s ∈ body := by
  cases body with
  | nil => exact .inl h
  | cons t rest =>
    rw [insertAfterDoc] at h
    split at h
    · rcases List.mem_cons.1 h with rfl | h
      · exact .inr (by simp)
      · exact (List.mem_append.1 h).imp_right (List.mem_cons_of_mem _)
    · exact List.mem_append.1 h

theorem mem_withValue {t : Taxonomy} {body : List Stmt} (h : s ∈ withValue t body) :
    s ∈ body ∨ ∃ loc e, .expr loc e ∈ body ∧ s = assign loc t.names.value e := by
  fun_induction withValue t body with
  | case1 => exact .inl h
  | case2 loc e => exact .inr ⟨loc, e, by simp, List.mem_singleton.1 h⟩
  | case3 s' rest _ ih =>
    rcases List.mem_cons.1 h with rfl | h
    · exact .inl (by simp)
    · rcases ih h with h | ⟨loc, e, he, h⟩
      · exact .inl (List.mem_cons_of_mem _ h)
      · exact .inr ⟨loc, e, List.mem_cons_of_mem _ he, h⟩

/-- What is done behind a call, where one of the conditions on its result holds. -/
inductive Reaction (t : Taxonomy) (loc : Loc) (header : CallbackHeader) : Stmt → Prop
  | result : Reaction t loc header (setResult loc header.result (reason t loc.span))
  | broken : Reaction t loc header (setResult loc header.result (payload t loc.span))
  | wrong : Reaction t loc header (protocolError t loc)
  | returned : Reaction t loc header (.return_ loc (some (payload t loc.span)))
  | breakTo {e} (he : e ∈ header.escapes) : Reaction t loc header (breakTo t loc header e.label)
  | continueTo {e} (he : e ∈ header.escapes) (hl : e.loops = true) :
      Reaction t loc header (.continue_ loc (some e.label))

theorem mem_branches {t : Taxonomy} {header : CallbackHeader} {inFunction : Bool}
    {b : Expr × List Stmt} (h : b ∈ branches t loc header inFunction) :
    ∃ s, b.2 = [s] ∧ Reaction t loc header s := by
  simp only [branches, List.mem_append, List.mem_cons, List.not_mem_nil, or_false, List.mem_map,
    List.mem_filter] at h
  rcases h with (((((rfl | rfl) | h) | rfl) | ⟨e, he, rfl⟩) | ⟨e, he, rfl⟩)
  · exact ⟨_, rfl, .result⟩
  · exact ⟨_, rfl, .wrong⟩
  · split at h
    · rw [List.mem_singleton.1 h]
      exact ⟨_, rfl, .returned⟩
    · exact absurd h (by simp)
  · exact ⟨_, rfl, .broken⟩
  · exact ⟨_, rfl, .breakTo he⟩
  · exact ⟨_, rfl, .continueTo he.1 he.2⟩

/-! ### What holds of every statement -/

/-- What generated code is made of between the functions: anything but a function, a class, a callback loop
or an import. -/
def Stmt.isFrame : Stmt → Bool
  | .function .. | .class_ .. | .callbackLoop .. | .import_ .. | .importFrom .. | .supportImport .. => false
  | _ => true

section

variable {P : Stmt → Prop} (hP : ∀ s : Stmt, s.isFrame = true → P s) {t : Taxonomy} {body : List Stmt}
  {label : Option String}

theorem every_insertAfterDoc {start : List Stmt} (hs : Stmt.EveryAll P start) (h : Stmt.EveryAll P body) :
    Stmt.EveryAll P (insertAfterDoc start body) :=
  everyAll_iff.2 fun s hmem => (mem_insertAfterDoc hmem).elim (everyAll_iff.1 hs s) (everyAll_iff.1 h s)

include hP

theorem every_orPass (h : Stmt.EveryAll P body) : Stmt.EveryAll P (orPass loc body) := by
  cases body with
  | nil => exact ⟨hP _ rfl, trivial⟩
  | cons => exact h

theorem every_declarations {globals nonlocals : List String} :
    Stmt.EveryAll P (declarations loc globals nonlocals) := by
  refine everyAll_iff.2 fun s hs => ?_
  rcases mem_declarations hs with rfl | rfl <;> exact hP _ rfl

theorem every_scopeStart {hoisted : Declarations} {wanted : List String} :
    Stmt.EveryAll P (scopeStart loc hoisted wanted) := by
  refine everyAll_iff.2 fun s hs => ?_
  rcases mem_scopeStart hs with rfl | rfl | ⟨x, -, rfl⟩ <;> exact hP _ rfl

theorem every_ownLayer (h : Stmt.EveryAll P body) : Stmt.EveryAll P (ownLayer t loc label body) := by
  refine ⟨hP _ rfl, ⟨hP _ rfl, everyAll_iff.2 fun s hs => ?_, hP _ rfl, trivial⟩, hP _ rfl, trivial⟩
  rcases mem_withValue hs with hs | ⟨_, _, -, rfl⟩
  · exact everyAll_iff.1 h s hs
  · exact hP _ rfl

theorem every_layers (h : Stmt.EveryAll P body) : Stmt.EveryAll P (layers t loc label body) := by
  have hfold : ∀ (es : List EscapeLabel) (inner : List Stmt), Stmt.EveryAll P inner →
      Stmt.EveryAll P (es.foldl (escapeLayer t loc) inner) := by
    intro es
    induction es with
    | nil => exact fun _ hi => hi
    | cons e es ih =>
      refine fun inner hi => ih _ ?_
      unfold escapeLayer
      split
      · exact ⟨hP _ rfl, ⟨hP _ rfl, hi, hP _ rfl, trivial⟩, hP _ rfl, trivial⟩
      · exact ⟨⟨hP _ rfl, hi⟩, hP _ rfl, trivial⟩
  exact hfold _ _ (every_ownLayer hP h)

theorem every_dispatch {header : CallbackHeader} {iter : Expr} {inFunction debug : Bool} :
    Stmt.EveryAll P (dispatch t loc header iter inFunction debug) := by
  have hchain : ∀ bs : List (Expr × List Stmt), (∀ b ∈ bs, Stmt.EveryAll P b.2) →
      Stmt.EveryAll P (ifChain loc [protocolError t loc] bs) := by
    intro bs
    induction bs with
    | nil => exact fun _ => ⟨hP _ rfl, trivial⟩
    | cons b bs ih =>
      exact fun hb => ⟨⟨hP _ rfl, (List.forall_mem_cons.1 hb).1, ih (List.forall_mem_cons.1 hb).2⟩, trivial⟩
  refine ⟨hP _ rfl, hchain _ fun b hb => ?_⟩
  obtain ⟨s, hs, hreaction⟩ := mem_branches hb
  rw [hs]
  refine ⟨?_, trivial⟩
  cases hreaction with
  | result | broken => cases header.result <;> exact hP _ rfl
  | wrong | returned | breakTo | continueTo => exact hP _ rfl

end

end LoopEscape
