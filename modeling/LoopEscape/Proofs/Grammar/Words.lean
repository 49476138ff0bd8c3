import LoopEscape.Proofs.Grammar.Triples
import LoopEscape.Proofs.Token.Order
import LoopEscape.Proofs.Generate.Names

/-!
# Words that start like reserved names

A text is free of reserved words if no word in it starts as reserved names do.  Lexing a free text gives
free tokens (`lex_free`), and the expressions of fields in a free string are free: the lexer cuts no word
in two such that the rest starts like a reserved name.  So ASCII text without reserved words gives
unreserved identifiers (`Vocabulary` of `Token.Free`).
-/

set_option mvcgen.warning false

namespace LoopEscape

open Text Lexer Std.Do

variable {rest left : List Char} {c q : Char} {s : Lexer.State} {t : Token} {raw : Bool} {ps : List Piece}

/-! ### Words in a text -/

def endsInWord (cs : List Char) : Prop := ∃ c ∈ cs.getLast?, isNamePart c = true

def FreeOfReserved (cs : List Char) : Prop :=
  ∀ a b, cs = a ++ (reservedStart.toList ++ b) → endsInWord a

namespace FreeOfReserved

variable {cs ds : List Char}

theorem part {a b : List Char} (h : FreeOfReserved (a ++ (cs ++ b)))
    (hcut : ¬ endsInWord a ∨ cs.head? ≠ some '_') : FreeOfReserved cs := by
  rintro a' b' rfl
  have hends : endsInWord (a ++ a') := h (a ++ a') (b' ++ b) (by simp)
  cases a' using List.reverseRecOn with
  | nil =>
    rcases hcut with hcut | hcut
    · exact absurd (by simpa using hends) hcut
    · exact absurd rfl hcut
  | append_singleton a' c => simpa [endsInWord, ← List.append_assoc] using hends

theorem take (h : FreeOfReserved cs) (n : Nat) : FreeOfReserved (cs.take n) :=
  part (a := []) (b := cs.drop n) (by simpa using h) (.inl (by simp [endsInWord]))

theorem drop {n : Nat} (h : FreeOfReserved cs)
    (hcut : ¬ endsInWord (cs.take n) ∨ (cs.drop n).head? ≠ some '_') : FreeOfReserved (cs.drop n) :=
  part (a := cs.take n) (b := []) (by simpa using h) hcut

theorem of_noWord (h : ∀ c ∈ cs, isNamePart c = false) : FreeOfReserved cs := by
  rintro a b rfl
  exact absurd (h '_' (by simp [reservedStart])) (by decide)

end FreeOfReserved

/-- A text stays free whatever free text follows it: it ends in no beginning of a reserved word. -/
def FreeThroughout (cs : List Char) : Prop :=
  ∀ s ∈ reservedStart.toList.tail.tails, FreeOfReserved (cs ++ s)

theorem FreeThroughout.free {cs : List Char} (h : FreeThroughout cs) : FreeOfReserved cs := by
  simpa using h [] ((List.mem_tails ..).2 (List.nil_suffix ..))

theorem FreeOfReserved.append {cs ds : List Char} (hcs : FreeOfReserved cs) (hds : FreeOfReserved ds)
    (hmeet : FreeThroughout cs ∨ ¬ endsInWord cs ∨ ∀ d ∈ ds.head?, isNamePart d = false) :
    FreeOfReserved (cs ++ ds) := by
  intro a b hab
  have hword : ∀ c ∈ reservedStart.toList, isNamePart c = true := List.all_eq_true.1 (by decide)
  rcases List.append_eq_append_iff.1 hab with ⟨a', rfl, rfl⟩ | ⟨rest, rfl, hrest⟩
  · obtain ⟨c, hc, hpart⟩ := hds a' b rfl
    exact ⟨c, List.mem_getLast?_append_of_mem_getLast? hc, hpart⟩
  · -- the reserved start begins in the first text
    rcases List.append_eq_append_iff.1 hrest with ⟨d, rfl, rfl⟩ | ⟨d, hd, rfl⟩
    · exact hcs a d rfl
    · cases rest using List.reverseRecOn with
      | nil =>
        obtain rfl : reservedStart.toList = d := hd
        exact absurd (hds [] b rfl) (by simp [endsInWord])
      | append_singleton rest c =>
        cases d with
        | nil =>
          rw [List.append_nil] at hd
          exact hcs a [] (by rw [hd, List.append_nil])
        | cons e d =>
          -- it ends in the second
          rcases hmeet with hmeet | hmeet | hmeet
          · have htail : e :: d <:+ reservedStart.toList.tail := by
              rw [hd]
              cases rest with
              | nil => exact List.suffix_refl _
              | cons => exact ⟨_, rfl⟩
            exact hmeet (e :: d) ((List.mem_tails ..).2 htail) a [] (by simp [hd])
          · exact absurd ⟨c, by simp, hword c (by simp [hd])⟩ hmeet
          · exact absurd (hmeet e rfl) (by simp [hword e (by simp [hd])])

/-! ### Lexemes -/

theorem drop_takeWhile_head {p : Char → Bool} {cs : List Char} :
    ∀ c ∈ (cs.drop (cs.takeWhile p).length).head?, p c = false := by
  have hdrop : cs.drop (cs.takeWhile p).length = cs.dropWhile p := by
    have hsplit := List.take_append_drop (cs.takeWhile p).length cs
    rw [← List.prefix_iff_eq_take.1 (List.takeWhile_prefix p)] at hsplit
    exact List.append_cancel_left (hsplit.trans List.takeWhile_append_dropWhile.symm)
  intro c hc
  rw [hdrop] at hc
  have := List.head?_dropWhile_not p cs
  simp_all

def Cuts (cs : List Char) (n : Nat) : Prop := ¬ endsInWord (cs.take n) ∨ (cs.drop n).head? ≠ some '_'

section Numbers

variable {cs : List Char} {kind : TokenKind} {n m : Nat}

theorem finishNumber_cuts (h : finishNumber cs n = .token kind m) :
    n ≤ m ∧ (cs.drop m).head? ≠ some '_' := by
  unfold finishNumber at h
  split at h
  · next hends =>
    cases h
    refine ⟨Nat.le_refl _, fun hhead => ?_⟩
    cases hrest : cs.drop n with
    | nil => simp [hrest] at hhead
    | cons c rest =>
      rw [hrest] at hhead hends
      cases hhead
      simp [endsNumber, startsWithWord, wordsAfterNumber, isNamePart] at hends
  · cases h

theorem imaginaryTail_cuts (h : imaginaryTail cs n = .token kind m) :
    n ≤ m ∧ (cs.drop m).head? ≠ some '_' := by
  unfold imaginaryTail at h
  grind [→ finishNumber_cuts]

theorem exponentTail_cuts (h : exponentTail cs n = .token kind m) :
    n ≤ m ∧ (cs.drop m).head? ≠ some '_' := by
  unfold exponentTail at h
  grind [→ finishNumber_cuts, → imaginaryTail_cuts]

theorem fractionTail_cuts (h : fractionTail cs n = .token kind m) :
    n ≤ m ∧ (cs.drop m).head? ≠ some '_' := by
  unfold fractionTail at h
  grind [→ finishNumber_cuts, → exponentTail_cuts]

theorem number_cuts (h : number (c :: cs) = .token kind m) (hc : isAsciiDigit c = true) :
    0 < m ∧ ((c :: cs).drop m).head? ≠ some '_' := by
  have hrun : ∀ n, digitRun isAsciiDigit false (c :: cs) = some n → 0 < n := by
    intro n hn
    rw [digitRun, if_pos hc] at hn
    obtain ⟨k, -, rfl⟩ := Option.map_eq_some_iff.1 hn
    exact Nat.succ_pos k
  unfold number at h
  grind [based, → finishNumber_cuts, → exponentTail_cuts, → fractionTail_cuts]

end Numbers

theorem closeSingle_last {cs : List Char} {n : Nat} (h : closeSingle q cs = some n) :
    [q] <:+ cs.take n := by
  fun_induction closeSingle q cs generalizing n with
  | case1 => cases h
  | case2 c cs ih =>
    obtain ⟨k, hk, rfl⟩ := Option.map_eq_some_iff.1 h
    exact (ih hk).trans ((List.suffix_cons ..).trans (List.suffix_cons ..))
  | case3 c cs _ hc =>
    cases h
    rw [eq_of_beq hc]
    exact List.suffix_refl _
  | case4 => cases h
  | case5 c cs _ _ _ ih =>
    obtain ⟨k, hk, rfl⟩ := Option.map_eq_some_iff.1 h
    exact (ih hk).trans (List.suffix_cons ..)

theorem closeTriple_last {cs : List Char} {n : Nat} (h : closeTriple q cs = some n) :
    [q] <:+ cs.take n := by
  fun_induction closeTriple q cs generalizing n with
  | case1 => cases h
  | case2 c cs ih =>
    obtain ⟨k, hk, rfl⟩ := Option.map_eq_some_iff.1 h
    exact (ih hk).trans ((List.suffix_cons ..).trans (List.suffix_cons ..))
  | case3 c cs _ hc =>
    cases h
    simp only [Bool.and_eq_true, beq_iff_eq] at hc
    rw [List.take_succ_cons, hc.2]
    exact ⟨[c, q], rfl⟩
  | case4 c cs _ _ ih =>
    obtain ⟨k, hk, rfl⟩ := Option.map_eq_some_iff.1 h
    exact (ih hk).trans (List.suffix_cons ..)

theorem string_last {cs : List Char} {kind : TokenKind} {n m : Nat} (h : string n cs = .token kind m)
    (hq : cs.drop n = q :: rest) : 0 < m ∧ [q] <:+ cs.take m := by
  have htake (k : Nat) : cs.take (n + 1 + k) = cs.take n ++ q :: rest.take k := by
    rw [Nat.add_assoc, List.take_add, hq, Nat.add_comm, List.take_succ_cons]
  unfold string at h
  rw [hq] at h
  dsimp only at h
  split at h
  · split at h
    · next k hk =>
      cases h
      have hlast := closeTriple_last hk
      refine ⟨by omega, ?_⟩
      rw [show n + 3 + k = n + 1 + (2 + k) by omega, htake, List.take_add]
      exact hlast.trans ((List.suffix_append ..).trans ((List.suffix_cons ..).trans (List.suffix_append ..)))
    · cases h
  · split at h
    · next k hk =>
      cases h
      refine ⟨by omega, ?_⟩
      rw [htake]
      exact (closeSingle_last hk).trans ((List.suffix_cons ..).trans (List.suffix_append ..))
    · cases h

theorem cuts_of_last {cs : List Char} {n : Nat} (h : [c] <:+ cs.take n) (hc : isNamePart c = false) :
    Cuts cs n := by
  obtain ⟨a, ha⟩ := h
  refine .inl ?_
  rintro ⟨d, hd, hpart⟩
  rw [← ha, List.getLast?_append] at hd
  cases hd
  exact absurd (hpart.symm.trans hc) (by decide)

theorem isNamePart_of_isQuote (h : isQuote c = true) : isNamePart c = false := by
  simp only [isQuote, Bool.or_eq_true, beq_iff_eq] at h
  rcases h with rfl | rfl <;> decide

theorem string_cuts {cs : List Char} {kind : TokenKind} {n m : Nat} (h : string n cs = .token kind m)
    (hq : cs.drop n = q :: rest) (hquote : isQuote q = true) :
    0 < m ∧ Cuts cs m :=
  (string_last h hq).imp_right (cuts_of_last · (isNamePart_of_isQuote hquote))

theorem nameOrString_cuts {cs : List Char} {kind : TokenKind} {n : Nat}
    (h : nameOrString (c :: cs) = .token kind n) (hc : isNamePart c = true) : 0 < n ∧ Cuts (c :: cs) n := by
  have hname : 0 < ((c :: cs).takeWhile isNamePart).length ∧
      Cuts (c :: cs) ((c :: cs).takeWhile isNamePart).length :=
    ⟨by simp [hc], .inr fun hhead => absurd (drop_takeWhile_head _ hhead) (by decide)⟩
  unfold nameOrString at h
  dsimp only at h
  split at h
  · next q rest hq =>
    split at h
    · next hquote => exact string_cuts h hq (Bool.and_eq_true_iff.1 hquote).2
    · split at h <;> cases h
      exact hname
  · split at h <;> cases h
    exact hname

theorem operator_cuts {cs : List Char} (hc : isNamePart c = false) :
    Cuts (c :: cs) (operatorLength (c :: cs)) := by
  have hlast {n : Nat} {texts : List String}
      (ht : texts.all (fun s => s.toList.getLast?.all (! isNamePart ·)) = true)
      (h : texts.contains (String.ofList ((c :: cs).take n)) = true) : Cuts (c :: cs) n := by
    have := List.all_eq_true.1 ht _ (List.contains_iff_mem.1 h)
    rw [String.toList_ofList] at this
    refine .inl ?_
    rintro ⟨d, hd, hpart⟩
    simp_all
  unfold operatorLength
  split
  · next h => exact hlast (by decide) h
  · split
    · next h => exact hlast (by decide) h
    · exact cuts_of_last (c := c) (List.suffix_refl _) hc

theorem lexeme_cuts {cs : List Char} {kind : TokenKind} {n : Nat} (h : lexeme cs = .token kind n) :
    0 < n ∧ Cuts cs n := by
  unfold lexeme at h
  split at h
  · cases h
  · next c rest =>
    split at h
    · next hdigit => exact (number_cuts h hdigit).imp_right .inr
    · split at h
      · next hpart => exact nameOrString_cuts h hpart
      · next hpart =>
        split at h
        · next hquote => exact string_cuts h rfl hquote
        · split at h
          · exact (fractionTail_cuts h).imp id .inr
          · split at h
            · cases h
            · cases h
              refine ⟨?_, operator_cuts (by simpa using hpart)⟩
              unfold operatorLength
              split <;> try split
              all_goals decide

/-! ### Rows and texts -/

theorem margin_blank {m m' : Lexer.Margin} {cs : List Char} {n : Nat} (h : margin m cs = .ok (m', n)) :
    ∀ c ∈ cs.take n, isNamePart c = false := by
  fun_induction margin m cs generalizing m' n with
  | case1 m cs ih | case2 m cs ih | case3 m cs ih =>
    obtain ⟨⟨m'', k⟩, hk, heq⟩ := map_eq_ok h
    cases heq
    exact List.forall_mem_cons.2 ⟨by decide, ih hk⟩
  | case4 | case6 => cases h
  | case5 m cs _ ih =>
    obtain ⟨⟨m'', k⟩, hk, heq⟩ := map_eq_ok h
    cases heq
    exact List.forall_mem_cons.2 ⟨by decide, List.forall_mem_cons.2 ⟨by decide, ih hk⟩⟩
  | case7 =>
    cases h
    simp

theorem cuts_of_blank {cs : List Char} {n : Nat} (h : ∀ c ∈ cs.take n, isNamePart c = false) : Cuts cs n :=
  .inl fun ⟨c, hc, hpart⟩ => absurd (hpart.symm.trans (h c (List.mem_of_getLast? hc))) (by decide)

theorem openRow_cuts {s' : Lexer.State} {cs : List Char} {n : Nat} {kinds : List TokenKind}
    (h : openRow s cs = .ok (n, kinds, s')) : Cuts cs n := by
  unfold openRow at h
  split at h
  · cases h
    exact cuts_of_blank (by simp)
  · split at h
    · cases h
    · next m k hm =>
      have hn : n = k := by grind
      exact hn ▸ cuts_of_blank (margin_blank hm)

theorem step_cuts {s' : Lexer.State} {cs : List Char} {n : Nat} {kind : Option TokenKind}
    (h : step s (c :: cs) = .ok (n, kind, s')) : Cuts (c :: cs) (max n 1) := by
  have hone {d : Char} (hd : isNamePart d = false) : Cuts (d :: cs) 1 := cuts_of_blank (by simpa using hd)
  unfold step at h
  dsimp only at h
  split at h
  · next hc =>
    cases h
    simp only [isLineSpace, Bool.or_eq_true, beq_iff_eq] at hc
    rcases hc with (rfl | rfl) | rfl <;> exact hone (by decide)
  · split at h
    · -- a comment ends before a line end
      cases h
      refine .inr ?_
      rw [Nat.max_eq_left (Nat.le_add_right ..), Nat.add_comm, List.drop_succ_cons]
      exact fun hhead => absurd (drop_takeWhile_head _ hhead) (by decide)
    · split at h
      · next hc =>
        cases h
        rw [eq_of_beq hc]
        exact hone (by decide)
      · split at h
        · next hc =>
          rw [eq_of_beq hc]
          split at h
          · split at h
            · cases h
            · cases h
              exact cuts_of_blank (by simp; decide)
          · cases h
        · split at h
          · cases h
          · next kind' k hlex =>
            obtain ⟨brackets, -, heq⟩ := map_eq_ok h
            cases heq
            obtain ⟨hpos, hcuts⟩ := lexeme_cuts hlex
            rwa [Nat.max_eq_left hpos]

/-- A text of ASCII characters in which no word starts as reserved names do. -/
structure FreeText (cs : List Char) : Prop where
  free : FreeOfReserved cs
  ascii : ∀ c ∈ cs, c.toNat < 128

theorem FreeText.take {cs : List Char} (h : FreeText cs) (n : Nat) : FreeText (cs.take n) :=
  ⟨h.free.take n, fun c hc => h.ascii c (List.mem_of_mem_take hc)⟩

theorem FreeText.drop {cs : List Char} {n : Nat} (h : FreeText cs) (hn : Cuts cs n) : FreeText (cs.drop n) :=
  ⟨h.free.drop hn, fun c hc => h.ascii c (List.mem_of_mem_drop hc)⟩

def Token.Free (t : Token) : Prop := FreeText t.text.toList

theorem Token.free_of_empty (h : t.text = "") : t.Free := by
  rw [Token.Free, h]
  exact ⟨.of_noWord nofun, nofun⟩

theorem run_free {acc : List Token} {p : Position} {cs : List Char} (hcs : FreeText cs)
    (hacc : ∀ t ∈ acc, t.Free) : ∀ t ∈ (run s acc p cs).tokens, t.Free := by
  have hfailed {acc : List Token} (hacc : ∀ t ∈ acc, t.Free) (p : Position) (e : LexProblem) :
      ∀ t ∈ (failed acc p e).tokens, t.Free := by
    intro t ht
    rcases List.mem_cons.1 (List.mem_reverse.1 ht) with rfl | ht
    · exact Token.free_of_empty rfl
    · exact hacc t ht
  have hfinish {s : Lexer.State} {acc : List Token} (hacc : ∀ t ∈ acc, t.Free) (p : Position) :
      ∀ t ∈ (finish s acc p).tokens, t.Free := by
    unfold finish
    split
    · intro t ht
      simp only [List.mem_append, List.mem_reverse, List.mem_map, List.mem_singleton] at ht
      rcases ht with (ht | ⟨-, -, rfl⟩) | rfl
      · exact hacc t ht
      · exact Token.free_of_empty rfl
      · exact Token.free_of_empty rfl
    · exact hfailed hacc p _
  have hmargin {acc : List Token} {kinds : List TokenKind} {p : Position} (hacc : ∀ t ∈ acc, t.Free) :
      ∀ t ∈ (kinds.map fun k => (⟨k, "", p, p⟩ : Token)) ++ acc, t.Free := by
    intro t ht
    rcases List.mem_append.1 ht with ht | ht
    · obtain ⟨k, -, rfl⟩ := List.mem_map.1 ht
      exact Token.free_of_empty rfl
    · exact hacc t ht
  fun_induction run s acc p cs with
  | case1 s acc p => exact hfinish hacc p
  | case2 s acc p c rest e hrow => exact hfailed hacc p e
  | case3 s acc p c rest n kinds s' hrow p' acc' hrest => exact hfinish (hmargin hacc) p'
  | case4 s acc p c rest n kinds s' hrow p' acc' d more hrest e hstep => exact hfailed (hmargin hacc) p' e
  | case5 s acc p c rest n kinds s' hrow p' acc' d more hrest k kind s'' hstep k' text stop acc'' ih =>
    have hmore : FreeText (d :: more) := hrest ▸ hcs.drop (openRow_cuts hrow)
    refine ih (hmore.drop (step_cuts hstep)) ?_
    have htext : FreeText (String.ofList text).toList := by
      rw [String.toList_ofList]
      exact hmore.take k'
    simp only [acc'']
    split
    · exact hmargin hacc
    · exact List.forall_mem_cons.2 ⟨Token.free_of_empty rfl, hmargin hacc⟩
    · exact List.forall_mem_cons.2 ⟨htext, hmargin hacc⟩

theorem universalNewlines_start {q cs : List Char} (hq : '\n' ∉ q) (h : q <+: universalNewlines cs) :
    q <+: cs := by
  fun_induction universalNewlines cs generalizing q with
  | case1 => exact h
  | case2 cs _ | case3 cs _ _ =>
    cases q with
    | nil => exact List.nil_prefix
    | cons x q => exact absurd (List.cons_prefix_cons.1 h).1.symm (List.ne_of_not_mem_cons hq)
  | case4 c cs _ _ ih =>
    cases q with
    | nil => exact List.nil_prefix
    | cons x q =>
      obtain ⟨rfl, hrest⟩ := List.cons_prefix_cons.1 h
      exact List.cons_prefix_cons.2 ⟨rfl, ih (List.not_mem_of_not_mem_cons hq) hrest⟩

theorem endsInWord_cons {cs : List Char} :
    endsInWord (c :: cs) ↔ endsInWord cs ∨ cs = [] ∧ isNamePart c = true := by
  cases cs with
  | nil => simp [endsInWord]
  | cons d ds => simp [endsInWord, List.getLast?_cons_cons]

theorem universalNewlines_reserved {cs a b : List Char}
    (h : universalNewlines cs = a ++ (reservedStart.toList ++ b)) :
    ∃ a' b', cs = a' ++ (reservedStart.toList ++ b') ∧ (endsInWord a' → endsInWord a) ∧ (a' = [] → a = []) := by
  have hstart : reservedStart.toList = '_' :: reservedStart.toList.tail := by decide
  -- a line end lies before it
  have hbreak {a cs : List Char} (h : '\n' :: cs = a ++ (reservedStart.toList ++ b)) :
      ∃ a₁, a = '\n' :: a₁ ∧ cs = a₁ ++ (reservedStart.toList ++ b) := by
    cases a with
    | nil =>
      rw [hstart] at h
      cases h
    | cons x a =>
      cases h
      exact ⟨a, rfl, rfl⟩
  fun_induction universalNewlines cs generalizing a with
  | case1 =>
    rw [hstart] at h
    simp at h
  | case2 cs ih =>
    obtain ⟨a₁, rfl, htail⟩ := hbreak h
    obtain ⟨a', b', rfl, hends, hnil⟩ := ih htail
    refine ⟨'\r' :: '\n' :: a', b', rfl, fun he => ?_, nofun⟩
    rw [endsInWord_cons, endsInWord_cons] at he
    exact endsInWord_cons.2 (.inl (hends (by simpa [show isNamePart '\n' = false by decide] using he)))
  | case3 cs _ ih =>
    obtain ⟨a₁, rfl, htail⟩ := hbreak h
    obtain ⟨a', b', rfl, hends, hnil⟩ := ih htail
    refine ⟨'\r' :: a', b', rfl, fun he => ?_, nofun⟩
    rw [endsInWord_cons] at he
    exact endsInWord_cons.2 (.inl (hends (by simpa [show isNamePart '\r' = false by decide] using he)))
  | case4 c cs _ _ ih =>
    cases a with
    | nil =>
      have hprefix : reservedStart.toList.tail <+: universalNewlines cs := by
        rw [List.nil_append, hstart] at h
        exact ⟨b, (List.cons.inj h).2.symm⟩
      obtain ⟨b', rfl⟩ := universalNewlines_start (by decide) hprefix
      rw [List.nil_append, hstart] at h
      exact ⟨[], b', by rw [(List.cons.inj h).1, hstart]; rfl, id, id⟩
    | cons x a =>
      obtain ⟨rfl, htail⟩ := List.cons.inj h
      obtain ⟨a', b', rfl, hends, hnil⟩ := ih htail
      refine ⟨c :: a', b', rfl, fun he => ?_, nofun⟩
      rw [endsInWord_cons] at he ⊢
      exact he.imp hends (.imp_left hnil)

theorem FreeText.universalNewlines {cs : List Char} (h : FreeText cs) :
    FreeText (Text.universalNewlines cs) where
  free a b hab := by
    obtain ⟨a', b', heq, hends, -⟩ := universalNewlines_reserved hab
    exact hends (h.free a' b' heq)
  ascii := by
    have hascii := h.ascii
    clear h
    fun_induction Text.universalNewlines cs <;> simp_all

theorem lex_free {code : String} (h : FreeText code.toList) : ∀ t ∈ (lex code).tokens, t.Free := by
  have hline {cs : List Char} (h : FreeText cs) : FreeText (cs ++ ['\n']) := by
    refine ⟨h.free.append (.of_noWord (by simp; decide)) (.inr (.inr (by simp; decide))), ?_⟩
    simpa [or_imp, forall_and] using h.ascii
  unfold lex
  dsimp only
  refine run_free ?_ nofun
  split
  · exact h.universalNewlines
  · exact hline h.universalNewlines

/-! ### Fields -/

namespace Reading

theorem fieldExpr_append {quote : Option (Char × Bool)} {stack cs expr : List Char}
    (h : fieldExpr quote stack cs = some (expr, rest)) : expr ++ rest = cs := by
  fun_induction fieldExpr quote stack cs generalizing expr rest <;> grind [Option.map_eq_some_iff]

theorem textRun_suffix {nested : Bool} {cs text : List Char} {doubled : Bool}
    (h : textRun raw nested cs = some (text, rest, doubled)) : rest <:+ cs := by
  have hbrace {c : Char} {cs text rest : List Char} {doubled : Bool} {more}
     (h : textRun.brace nested c cs more = some (text, rest, doubled))
     (hmore : ∀ text rest doubled, more = some (text, rest, doubled) → rest <:+ cs) : rest <:+ c :: cs := by
    unfold textRun.brace textRun.prepend at h
    grind [Option.map_eq_some_iff, List.suffix_cons, List.drop_suffix]
  fun_induction textRun raw nested cs generalizing text rest doubled <;>
    grind [Option.map_eq_some_iff, textRun.prepend, List.suffix_cons]

theorem allExprs_append (ps qs : List Piece) :
    Piece.allExprs (ps ++ qs) = Piece.allExprs ps ++ Piece.allExprs qs := by
  induction ps with
  | nil => rfl
  | cons p ps ih => simp [Piece.allExprs, ih]

theorem triple_iff {α : Type} {x : Option α} {P : α → Prop} :
    (⦃⌜True⌝⦄ x ⦃⇓? a => ⌜P a⌝⦄) ↔ ∀ a, x = some a → P a := by
  cases x with
  | none => exact ⟨fun _ _ => nofun, fun _ _ => trivial⟩
  | some a => exact ⟨fun h b hb => Option.some.inj hb ▸ h trivial, fun h _ => h a rfl⟩

theorem shownPart_suffix (expr after : List Char) : (shownPart expr after).2 <:+ after := by
  unfold shownPart
  grind [List.suffix_cons, List.drop_suffix]

theorem conversionPart_suffix {after : List Char} {c : Option Char}
    (h : conversionPart after = some (c, rest)) : rest <:+ after := by
  unfold conversionPart conversion? at h
  grind [List.suffix_cons, Option.map_eq_some_iff]

/-- The pieces read from a text: what is left ends it, and expressions stand in it behind a brace. -/
def ReadFrom (cs : List Char) (ps : List Piece) (left : List Char) : Prop :=
  left <:+ cs ∧ ∀ e ∈ Piece.allExprs ps, '\x7b' :: e <:+: cs

theorem ReadFrom.suffix {cs ds : List Char} (h : ReadFrom cs ps left) (hcs : cs <:+ ds) :
    ReadFrom ds ps left :=
  ⟨h.1.trans hcs, fun e he => (h.2 e he).trans hcs.isInfix⟩

theorem ReadFrom.texts {cs : List Char} {qs : List Piece} (hps : Piece.allExprs ps = [])
    (h : ReadFrom cs qs left) : ReadFrom cs (ps ++ qs) left := by
  rwa [ReadFrom, allExprs_append, hps, List.nil_append]

theorem formatPart_readFrom {read : List Char → Option (List Piece × List Char)} {after : List Char}
    {f : Option (List Piece)} (hread : ∀ cs ps left, read cs = some (ps, left) → ReadFrom cs ps left)
    (h : formatPart read after = some (f, rest)) : ReadFrom after (f.getD []) rest := by
  unfold formatPart at h
  split at h
  · obtain ⟨⟨ps, left⟩, hps, heq⟩ := Option.map_eq_some_iff.1 h
    cases heq
    exact (hread _ _ _ hps).suffix (List.suffix_cons ..)
  · cases h
    exact ⟨List.suffix_refl _, nofun⟩

theorem pieces_readFrom {total fuel level : Nat} {cs : List Char}
    (h : pieces raw total fuel level cs = some (ps, left)) : ReadFrom cs ps left := by
  induction fuel generalizing level cs left ps with
  | zero => cases h
  | succ fuel ih =>
    have hhere (codes : List Code) : Piece.allExprs (if codes.isEmpty then [] else [Piece.text codes]) = [] := by
      split <;> rfl
    have htext (nested cs) : ⦃⌜True⌝⦄ textRun raw nested cs ⦃⇓? r => ⌜r.2.1 <:+ cs⌝⦄ :=
      triple_iff.2 fun _ => textRun_suffix
    have hdecode (cs) : ⦃⌜True⌝⦄ decode raw false cs ⦃⇓? _ => ⌜True⌝⦄ := triple_iff.2 fun _ _ => trivial
    have hexpr (cs) : ⦃⌜True⌝⦄ fieldExpr none [] cs ⦃⇓? r => ⌜r.1 ++ r.2 = cs⌝⦄ :=
      triple_iff.2 fun _ => fieldExpr_append
    have hconversion (cs) : ⦃⌜True⌝⦄ conversionPart cs ⦃⇓? r => ⌜r.2 <:+ cs⌝⦄ :=
      triple_iff.2 fun _ => conversionPart_suffix
    have hformat (cs) : ⦃⌜True⌝⦄ formatPart (pieces raw total fuel (level + 1)) cs
        ⦃⇓? r => ⌜ReadFrom cs (r.1.getD []) r.2⌝⦄ :=
      triple_iff.2 fun _ => formatPart_readFrom fun _ _ _ => ih
    have hmore (cs) : ⦃⌜True⌝⦄ pieces raw total fuel level cs ⦃⇓? r => ⌜ReadFrom cs r.1 r.2⌝⦄ :=
      triple_iff.2 fun _ => ih
    have hall : ⦃⌜True⌝⦄ pieces raw total (fuel + 1) level cs ⦃⇓? r => ⌜ReadFrom cs r.1 r.2⌝⦄ := by
      mvcgen [pieces, htext, hdecode, hexpr, hconversion, hformat, hmore]
      · rename_i run hrun codes here _ r hr
        exact .texts (hhere codes) (hr.suffix hrun)
      · rename_i run hrun codes here _ inner hinner _ offset e _ he conversion hconversion format after hafter _ label
          hformat r hr
        rw [hinner, ← he] at hrun
        have hfield : '\x7b' :: e.1 <:+: cs :=
          (List.prefix_append ('\x7b' :: e.1) e.2).isInfix.trans hrun.isInfix
        have hbehind : conversion.2 <:+ cs :=
          (hconversion.trans (shownPart_suffix ..)).trans ((List.suffix_append ('\x7b' :: e.1) e.2).trans hrun)
        have hformat := hformat.suffix hbehind
        have hmore : ReadFrom cs r.1 r.2 := by
          rw [hafter] at hformat
          exact hr.suffix ((List.suffix_cons ..).trans hformat.1)
        have hlabel : Piece.allExprs label = [] := by
          simp only [label]
          split <;> rfl
        rw [List.append_assoc]
        refine .texts (hhere codes) (.texts hlabel ⟨hmore.1, ?_⟩)
        have hexprs (c : Option Char) : Piece.allExprs (Piece.field offset e.1 c format.1 :: r.1) =
            e.1 :: (Piece.allExprs (format.1.getD []) ++ Piece.allExprs r.1) := by
          cases format.1 <;> simp [Piece.allExprs, Piece.exprs]
        rw [hexprs]
        simpa [or_imp, forall_and] using ⟨hfield, hformat.2, hmore.2⟩
      · rename_i run hrun codes here _ _ _ _
        refine ⟨hrun, ?_⟩
        rw [show Piece.allExprs here = [] from hhere codes]
        nofun
    exact triple_iff.1 hall _ h

theorem allPieces_infix {body : List Char} (h : allPieces raw body = some ps) :
    ∀ p ∈ ps, ∀ e ∈ p.exprs, '\x7b' :: e <:+: body := by
  have hall : ∀ p ∈ ps, ∀ e ∈ p.exprs, e ∈ Piece.allExprs ps := by
    clear h
    induction ps with
    | nil => nofun
    | cons p ps ih =>
      intro q hq e he
      rw [Piece.allExprs, List.mem_append]
      rcases List.mem_cons.1 hq with rfl | hq
      · exact .inl he
      · exact .inr (ih q hq e he)
  unfold allPieces at h
  split at h
  · next hpieces =>
    cases h
    exact fun p hp e he => (pieces_readFrom hpieces).2 e (hall p hp e he)
  · cases h

end Reading

theorem Token.Free.field (h : t.Free) {ps : List Reading.Piece}
    (hps : Reading.allPieces (Reading.Quoted.of t.text.toList).raw (Reading.Quoted.of t.text.toList).body = some ps) :
    ∀ p ∈ ps, ∀ e ∈ p.exprs, FieldOf Token.Free e := by
  intro p hp e he
  have hbody : (Reading.Quoted.of t.text.toList).body <:+: t.text.toList :=
    (List.take_prefix ..).isInfix.trans ((List.drop_suffix ..).trans (List.drop_suffix ..)).isInfix
  obtain ⟨a, b, hab⟩ := (Reading.allPieces_infix hps p hp e he).trans hbody
  have hfree : FreeText e := by
    rw [Token.Free, ← hab] at h
    refine ⟨.part (a := a ++ ['\x7b']) (b := b) (by simpa using h.free) (.inl ?_), fun c hc => h.ascii c (by simp [hc])⟩
    simp [endsInWord]
    decide
  have hbracketed : FreeText ('(' :: e ++ [')']) := by
    have hbracket : FreeOfReserved ['('] := .of_noWord (by simp; decide)
    have hopen : FreeOfReserved ('(' :: e) := hbracket.append hfree.free (.inr (.inl (by simp [endsInWord]; decide)))
    refine ⟨hopen.append (.of_noWord (by simp; decide)) (.inr (.inr (by simp; decide))), ?_⟩
    simpa [or_imp, forall_and] using hfree.ascii
  intro t ht start stop
  exact lex_free (by rwa [String.toList_ofList]) t ht

theorem Token.Free.name (h : t.Free) : isReserved (Parser.identifierText t) = false := by
  have hascii : t.text.toList.all (·.toNat < 128) = true := List.all_eq_true.2 fun c hc => by simpa using h.ascii c hc
  rw [Parser.identifierText, if_pos hascii]
  by_contra hres
  obtain ⟨b, hb⟩ := List.isPrefixOf_iff_prefix.1 (Bool.not_eq_false _ ▸ hres)
  exact absurd (h.free [] b hb.symm) (by simp [endsInWord])

theorem isReserved_dotted {x : String} (h : isReserved x = false) (xs : List String) :
    isReserved (".".intercalate (x :: xs)) = false := by
  have hpoint : '.' ∉ reservedStart.toList := by decide
  have hx : ¬ reservedStart.toList <+: x.toList := fun hx => by
    rw [isReserved, List.isPrefixOf_iff_prefix.2 hx] at h
    cases h
  by_contra hres
  have hprefix := List.isPrefixOf_iff_prefix.1 (Bool.not_eq_false _ ▸ hres)
  rw [String.toList_intercalate] at hprefix
  cases xs with
  | nil => exact hx (by simpa using hprefix)
  | cons y ys =>
    rw [List.map_cons, List.map_cons, List.intercalate_cons_cons, List.append_assoc] at hprefix
    obtain ⟨b, hb⟩ := hprefix
    rcases List.append_eq_append_iff.1 hb with ⟨c, hc, -⟩ | ⟨c, hc, hrest⟩
    · exact hx ⟨c, hc.symm⟩
    · cases c with
      | nil => exact hx (by rw [hc, List.append_nil])
      | cons d c =>
        obtain rfl : '.' = d := (List.cons.inj hrest).1
        exact hpoint (by simp [hc])

def UserName (x : String) : Prop := isReserved x = false ∧ ∀ parts, x ≠ generatedName parts

theorem userName_of_unreserved {x : String} (h : isReserved x = false) : UserName x :=
  ⟨h, fun parts heq => by rw [heq, isReserved_generatedName] at h; cases h⟩

instance : Vocabulary Token.Free UserName where
  name t h _ := userName_of_unreserved h.name
  dotted x xs h := userName_of_unreserved (isReserved_dotted h.1 xs)
  star := userName_of_unreserved (by decide)
  field t h ps := h.field

end LoopEscape
