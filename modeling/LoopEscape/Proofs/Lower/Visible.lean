import LoopEscape.Proofs.Lower.Relation
import LoopEscape.Proofs.Label.Fit

/-!
# Visible labels and targets

What labels resolve to is said with scopes, what jumps are lowered to with the targets around.  A scope
and a list of targets agree (`LabelScope.Sees`) when every label that is visible has a target, and
every jump that fits the scope reaches one.
-/

namespace LoopEscape

/-! ### Targets on the way out -/

def Shape.isTarget (t : Option String × Bool) (label : Option String) : Bool :=
  match label with
  | none => t.2
  | some l => t.1 == some l

theorem Shape.index?_cons (t : Option String × Bool) (shape : Shape) (label : Option String) :
    Shape.index? (t :: shape) label =
      if isTarget t label then some 0 else (Shape.index? shape label).map (· + 1) := by
  cases label with
  | none =>
    simp only [Shape.index?, isTarget, List.findIdx?_cons]
    rfl
  | some l =>
    simp only [Shape.index?, isTarget, List.findIdx?_cons]
    rfl

namespace Shape.Resolves

variable {shape : Shape} {kind : JumpKind} {label : Option String}

theorem break_ (h : shape.Resolves kind label) : shape.Resolves .break_ label := by
  obtain ⟨i, t, hi, ht, -⟩ := h
  exact ⟨i, t, hi, ht, fun hk => by cases hk⟩

theorem head {t : Option String × Bool} (ht : isTarget t label = true)
    (hk : kind = .continue_ → t.2 = true) (shape : Shape) :
    Shape.Resolves (t :: shape) kind label :=
  ⟨0, t, by rw [index?_cons, if_pos ht], rfl, hk⟩

theorem cons (h : shape.Resolves kind label) {t : Option String × Bool}
    (hk : isTarget t label = true → kind = .continue_ → t.2 = true) :
    Shape.Resolves (t :: shape) kind label := by
  obtain ⟨i, u, hi, hu, hc⟩ := h
  by_cases ht : isTarget t label = true
  · exact .head ht (hk ht) shape
  · exact ⟨i + 1, u, by rw [index?_cons, if_neg ht, hi, Option.map_some], hu, hc⟩

end Shape.Resolves

/-! ### Scopes -/

/-- The kind of jumps that a label has to take: whatever can be continued can also be broken. -/
def LabelDecl.hardest (d : LabelDecl) : JumpKind := if d.continues then .continue_ else .break_

/-- Every visible label has a target that takes the jumps it should, and in a loop there is a loop. -/
structure LabelScope.Sees (scope : LabelScope) (shape : Shape) : Prop where
  label : ∀ l d, scope.lookup l = some d → shape.Resolves d.hardest (some l)
  loop : scope.innermost ≠ none → shape.Resolves .continue_ none

namespace LabelScope

variable {scope : LabelScope} {shape : Shape}

theorem sees_empty (kind : ScopeKind) : LabelScope.Sees { kind } [] :=
  ⟨fun _ _ h => (nomatch h), fun h => absurd rfl h⟩

theorem Sees.break_ (h : scope.Sees shape) {label : Option String} {hasValue : Bool}
    (hb : breakProblem scope label hasValue = none) : shape.Resolves .break_ label := by
  cases label with
  | none =>
    refine (h.loop fun hn => ?_).break_
    simp [breakProblem, hn] at hb
  | some l =>
    obtain ⟨d, hd, -⟩ := breakProblem_some hb
    exact (h.label l d hd).break_

theorem Sees.continue_ (h : scope.Sees shape) {label : Option String}
    (hb : continueProblem scope label = none) : shape.Resolves .continue_ label := by
  cases label with
  | none =>
    refine h.loop fun hn => ?_
    simp [continueProblem, hn] at hb
  | some l =>
    obtain ⟨d, hd, hc⟩ := continueProblem_some hb
    have hres := h.label l d hd
    rwa [LabelDecl.hardest, hc] at hres

theorem Sees.enterLoop (h : scope.Sees shape) (label : Option String) :
    (scope.enterLoop label).Sees ((label, true) :: shape) := by
  refine ⟨fun l d hd => ?_, fun _ => .head rfl (fun _ => rfl) shape⟩
  cases label with
  | none => exact (h.label l d hd).cons fun _ _ => rfl
  | some label =>
    replace hd : (scope.declare (some (.loop label))).lookup l = some d := hd
    rw [lookup_declare] at hd
    simp only at hd
    split at hd
    · next heq =>
      rw [← eq_of_beq heq]
      exact .head (by simp [Shape.isTarget, LabelDecl.loop]) (fun _ => rfl) shape
    · exact (h.label l d hd).cons fun _ _ => rfl

theorem Sees.enterBlock (h : scope.Sees shape) (label : String) :
    (scope.enterBlock label).Sees ((some label, false) :: shape) := by
  refine ⟨fun l d hd => ?_, fun hi => (h.loop hi).cons fun ht _ => ht⟩
  rw [LabelScope.enterBlock, lookup_declare] at hd
  simp only at hd
  split at hd
  · next heq =>
    rw [← eq_of_beq heq]
    cases hd
    exact .head (by simp [Shape.isTarget, LabelDecl.block]) (fun hk => by cases hk) shape
  · next hne =>
    refine (h.label l d hd).cons fun ht _ => ?_
    simp only [Shape.isTarget, beq_iff_eq, Option.some.injEq] at ht
    exact absurd ht (by simpa [LabelDecl.block] using hne)

end LabelScope

end LoopEscape
