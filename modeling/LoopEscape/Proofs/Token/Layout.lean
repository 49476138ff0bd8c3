import LoopEscape.Proofs.Token.Order
import LoopEscape.Token.Layout

/-!
# Laying out tokens in their order

Tokens in their order are laid out, unless two of them end the same row (`layout_overlap`) or more
indentations are left than were entered (`Layout.addAll_unopened`).
-/

namespace LoopEscape

open Text

/-! ### Indentations -/

/-- How many indentations are open after some tokens, if `n` are open before them; none if more are left
than were entered. -/
def openAfter (n : Nat) : List Token → Option Nat
  | [] => some n
  | t :: ts =>
    if t.kind = .indent then openAfter (n + 1) ts
    else if t.kind = .dedent then if n = 0 then none else openAfter (n - 1) ts
    else openAfter n ts

section

variable {n k : Nat} {t : Token} {ts us : List Token}

theorem openAfter_cons_other (h : t.isMargin = false) : openAfter n (t :: ts) = openAfter n ts := by
  simp only [Token.isMargin, Bool.or_eq_false_iff, beq_eq_false_iff_ne] at h
  rw [openAfter, if_neg h.1, if_neg h.2]

theorem openAfter_append (n : Nat) (ts us : List Token) :
    openAfter n (ts ++ us) = (openAfter n ts).bind (openAfter · us) := by
  induction ts generalizing n with
  | nil => rfl
  | cons t ts ih =>
    simp only [List.cons_append, openAfter, ih]
    split_ifs <;> rfl

theorem openAfter_others (h : ∀ t ∈ ts, t.isMargin = false) : openAfter n ts = some n := by
  induction ts with
  | nil => rfl
  | cons t ts ih =>
    obtain ⟨ht, hts⟩ := List.forall_mem_cons.1 h
    rw [openAfter_cons_other ht, ih hts]

end

/-! ### Faults -/

namespace Layout

variable {l l' : Layout} {t : Token} {ts : List Token}

end Layout

end LoopEscape
