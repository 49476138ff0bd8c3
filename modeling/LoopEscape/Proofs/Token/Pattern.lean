import LoopEscape.Token.Scan

/-!
# How far patterns reach

A pattern matches characters that are there and no line end among them; a closed string reaches to its
quote.  So a token of a row holds no line end, unless it is one (`ofLine_fits`).
-/

namespace LoopEscape

open Text

/-! ### Places behind a text -/

/-- The first `n` characters are there, and none of them is a line end. -/
inductive Inline : List Char → Nat → Prop
  | zero (cs : List Char) : Inline cs 0
  | cons {c : Char} {cs : List Char} {n : Nat} (hc : c ≠ '\n') (h : Inline cs n) : Inline (c :: cs) (n + 1)

def NewlineLast (cs : List Char) : Prop := ∀ a b, cs = a ++ '\n' :: b → b = []

variable {cs : List Char} {n k : Nat} {p : Char → Bool} {q : Char}

namespace Inline

theorem le (h : Inline cs n) : n ≤ cs.length := by
  induction h with
  | zero => exact Nat.zero_le _
  | cons hc h ih => exact Nat.succ_le_succ ih

theorem notMem (h : Inline cs n) : '\n' ∉ cs.take n := by
  induction h with
  | zero => simp
  | cons hc h ih => simp [Ne.symm hc, ih]

theorem add (h : Inline cs n) (h' : Inline (cs.drop n) k) : Inline cs (n + k) := by
  induction h with
  | zero => rwa [Nat.zero_add]
  | cons hc h ih =>
    rw [Nat.add_right_comm]
    exact (ih h').cons hc

theorem ite {P : Prop} [Decidable P] (h : Inline cs n) (h' : Inline cs k) : Inline cs (if P then n else k) := by
  split <;> assumption

theorem before {text : List Char} (h : '\n' ∉ text) (rest : List Char) : Inline (text ++ rest) text.length := by
  induction text with
  | nil => exact zero _
  | cons c text ih => exact (ih (List.not_mem_of_not_mem_cons h)).cons (List.ne_of_not_mem_cons h).symm

end Inline

theorem NewlineLast.notMem {text rest : List Char} {c : Char} (h : NewlineLast (text ++ c :: rest)) : '\n' ∉ text := by
  intro hmem
  obtain ⟨a, b, rfl⟩ := List.append_of_mem hmem
  exact absurd (h a (b ++ c :: rest) (by simp)) (by simp)

namespace Pattern

theorem ne_newline (hp : p '\n' = false) {c : Char} (hc : p c = true) : c ≠ '\n' := by
  rintro rfl
  exact absurd (hc.symm.trans hp) (by decide)

theorem takeWhile_inline (hp : p '\n' = false) (cs : List Char) : Inline cs (cs.takeWhile p).length := by
  have h : Inline (cs.takeWhile p ++ cs.dropWhile p) _ := .before (fun hmem => ?_) _
  · rwa [List.takeWhile_append_dropWhile] at h
  · exact ne_newline hp (List.all_eq_true.1 List.all_takeWhile _ hmem) rfl

theorem digits_inline (hp : p '\n' = false) (cs : List Char) : Inline cs (digits p cs) := by
  fun_induction digits p cs with
  | case2 c d cs hc hd ih =>
    rw [Nat.add_comm]
    exact (ih.cons (by decide)).cons (ne_newline hp hc)
  | case3 c d cs hc hd => exact (Inline.zero _).cons (ne_newline hp hc)
  | case5 c cs _ hc ih =>
    rw [Nat.add_comm]
    exact ih.cons (ne_newline hp hc)
  | _ => exact .zero _

theorem prefixedDigits_inline (hp : p '\n' = false) (cs : List Char) : Inline cs (prefixedDigits p cs) := by
  unfold prefixedDigits
  split
  · exact .ite (.zero _) ((digits_inline hp _).cons (by decide))
  · exact digits_inline hp _

theorem exponent_inline (cs : List Char) : Inline cs (exponent cs) := by
  have hdigits (cs : List Char) : Inline cs (digits isAsciiDigit cs) := digits_inline (by decide) cs
  unfold exponent
  split
  · rename_i e s cs
    split
    · rename_i he
      have he := ne_newline (p := fun e => e == 'e' || e == 'E') (by decide) he
      split
      · rename_i hs
        have hs := ne_newline (p := fun s => s == '+' || s == '-') (by decide) hs
        exact .ite (.zero _) (((hdigits cs).cons hs).cons he)
      · exact .ite (.zero _) ((hdigits (s :: cs)).cons he)
    · exact .zero _
  · exact .zero _

theorem pointFloat_inline (cs : List Char) : Inline cs (pointFloat cs) := by
  unfold pointFloat
  dsimp only
  split
  · rename_i rest hrest
    refine .ite (.zero _) ?_
    have hpoint : Inline (cs.drop (digits isAsciiDigit cs)) (1 + digits isAsciiDigit rest) := by
      rw [hrest, Nat.add_comm]
      exact (digits_inline (by decide) _).cons (by decide)
    rw [Nat.add_assoc (digits isAsciiDigit cs)]
    exact ((digits_inline (by decide) cs).add hpoint).add (exponent_inline _)
  · exact .zero _

theorem float_inline (cs : List Char) : Inline cs (float cs) :=
  .ite (.ite (.zero _) ((digits_inline (by decide) cs).add (exponent_inline _))) (pointFloat_inline cs)

theorem withMark_inline (h : Inline cs n) : Inline cs (withMark cs n) := by
  unfold withMark
  split
  · exact .zero _
  · split
    · rename_i c rest hrest
      split
      · rename_i hc
        refine h.add ?_
        rw [hrest]
        exact (Inline.zero _).cons (ne_newline (by decide) hc)
      · exact .zero _
    · exact .zero _

theorem based_inline {letters : List Char} (hl : letters.contains '\n' = false) (hp : p '\n' = false)
    (cs : List Char) : Inline cs (based letters p cs) := by
  unfold based
  split
  · split
    · rename_i hb
      exact .ite (.zero _) (((prefixedDigits_inline hp _).cons (ne_newline hl hb)).cons (by decide))
    · exact .zero _
  · exact .zero _

theorem decimal_inline (cs : List Char) : Inline cs (decimal cs) := by
  unfold decimal
  split
  · split <;> exact digits_inline (by decide) _
  · exact .zero _

theorem number_inline (cs : List Char) : Inline cs (number cs) := by
  have hfloat := float_inline cs
  have hbased {letters : List Char} {p : Char → Bool} (hl : letters.contains '\n' = false) (hp : p '\n' = false) :=
    based_inline hl hp cs
  have himaginary : Inline cs (imaginary cs) :=
    .ite (withMark_inline hfloat) (withMark_inline (digits_inline (by decide) cs))
  have hinteger : Inline cs (integer cs) :=
    .ite (hbased (by decide) (by decide)) (.ite (hbased (by decide) (by decide))
      (.ite (hbased (by decide) (by decide)) (decimal_inline cs)))
  exact .ite himaginary (.ite hfloat hinteger)

def brackets : List Char := ['(', '[', '\x7b', ')', ']', '\x7d']

theorem operator_text (h : operator cs ≠ 0) :
    ∃ text ∈ longOperators ++ pairOperators ++ singleOperators, cs.take (operator cs) = text.toList ∧
      text.length = operator cs := by
  have htake {n : Nat} {texts : List String}
      (ht : ∀ s ∈ texts, s ∈ longOperators ++ pairOperators ++ singleOperators ∧ s.length = n)
      (h : texts.contains (String.ofList (cs.take n)) = true) :
      ∃ text ∈ longOperators ++ pairOperators ++ singleOperators, cs.take n = text.toList ∧ text.length = n := by
    obtain ⟨hmem, hlength⟩ := ht _ (List.contains_iff_mem.1 h)
    exact ⟨_, hmem, String.toList_ofList.symm, hlength⟩
  unfold operator at h ⊢
  split
  · rename_i h
    exact htake (by decide) h
  · split
    · rename_i h
      exact htake (by decide) h
    · split
      · rename_i h
        exact htake (by decide) h
      · simp_all

theorem operator_inline (h : operator cs ≠ 0) : Inline cs (operator cs) := by
  obtain ⟨text, hmem, htake, hlength⟩ := operator_text h
  have hline := Inline.before ((by decide : ∀ s ∈ longOperators ++ pairOperators ++ singleOperators, '\n' ∉ s.toList)
    text hmem) (cs.drop (operator cs))
  rwa [← htake, List.take_append_drop, htake, String.length_toList, hlength] at hline

/-- The first `n` characters end with a quote. -/
def Closes (q : Char) (cs : List Char) (n : Nat) : Prop := ∃ text rest, cs = text ++ q :: rest ∧ n = text.length + 1

namespace Closes

theorem cons {c : Char} (h : Closes q cs n) : Closes q (c :: cs) (n + 1) := by
  obtain ⟨text, rest, rfl, rfl⟩ := h
  exact ⟨c :: text, rest, rfl, rfl⟩

theorem le (h : Closes q cs n) : n ≤ cs.length := by
  obtain ⟨text, rest, rfl, rfl⟩ := h
  simp

theorem drop (h : Closes q (cs.drop k) n) (hk : k ≤ cs.length) : Closes q cs (k + n) := by
  obtain ⟨text, rest, hcs, rfl⟩ := h
  refine ⟨cs.take k ++ text, rest, ?_, ?_⟩
  · rw [List.append_assoc, ← hcs, List.take_append_drop]
  · rw [List.length_append, List.length_take, Nat.min_eq_left hk, Nat.add_assoc]

theorem inline (h : Closes q cs n) (hl : NewlineLast cs) (hq : isQuote q = true) : Inline cs n := by
  obtain ⟨text, rest, rfl, rfl⟩ := h
  have hline := Inline.before hl.notMem (q :: rest)
  refine hline.add (k := 1) ?_
  rw [List.drop_left]
  exact (Inline.zero _).cons (ne_newline (by decide) hq)

end Closes

theorem toQuote_closes (h : toQuote q cs = .closed n) : Closes q cs n := by
  have hadd {r : Reach} {k n : Nat} (h : r.add k = .closed n) : ∃ m, r = .closed m ∧ n = m + k := by
    cases r <;> simp_all [Reach.add]
  fun_induction toQuote q cs generalizing n with
  | case4 d cs _ _ ih =>
    obtain ⟨m, hm, rfl⟩ := hadd h
    exact (ih hm).cons.cons
  | case6 c cs _ _ _ _ hc =>
    cases h
    exact ⟨[], cs, by simpa using hc, rfl⟩
  | case7 c cs _ _ _ _ _ ih =>
    obtain ⟨m, hm, rfl⟩ := hadd h
    exact (ih hm).cons
  | _ => cases h

theorem closingQuote_closes (h : closingQuote q cs ≠ 0) : Closes q cs (closingQuote q cs) := by
  fun_induction closingQuote q cs with
  | case4 d cs _ n hn ih => exact (ih hn).cons.cons
  | case6 c cs _ _ hc => exact ⟨[], cs, by simpa using hc, rfl⟩
  | case8 c cs _ _ _ n hn ih => exact (ih hn).cons
  | _ => exact absurd rfl h

theorem closingTriple_closes (h : closingTriple q cs ≠ 0) : Closes q cs (closingTriple q cs) := by
  fun_induction closingTriple q cs with
  | case4 d cs _ n hn ih => exact (ih hn).cons.cons
  | case6 c cs _ _ hc =>
    have hcs := List.take_append_drop 2 cs
    rw [eq_of_beq (Bool.and_eq_true_iff.1 hc).2] at hcs
    exact ⟨[c, q], cs.drop 2, by rw [← hcs]; rfl, rfl⟩
  | case8 c cs _ _ _ n hn ih => exact (ih hn).cons
  | _ => exact absurd rfl h

end Pattern

/-! ### Lexemes -/

open Pattern

variable {kind : TokenKind}

theorem lineEnd_le (cs : List Char) : lineEnd cs ≤ cs.length := by
  unfold lineEnd
  split <;> simp

theorem stringStart_quote {rest : List Char} (h : stringStart cs = some n) (hq : cs.drop n = q :: rest) :
    isQuote q = true := by
  unfold stringStart at h
  dsimp only at h
  split at h
  · split at h
    · rename_i hdrop hprefix
      cases h
      cases hdrop.symm.trans hq
      exact (Bool.and_eq_true_iff.1 hprefix).1
    · cases h
  · cases h

namespace Lexeme

/-- What a lexeme says of the line that it begins. -/
def Fits (cs : List Char) : Lexeme → Prop
  | stray => True
  | backslash n => 0 < n ∧ n ≤ cs.length
  | unfinished q _ => isQuote q = true
  | token kind n =>
    kind ∉ [.encoding, .lineBreak, .indent, .dedent, .stray, .endMarker] ∧
      (kind = .newline → n = lineEnd cs ∧ n ≠ 0) ∧ (kind ≠ .newline → NewlineLast cs → Inline cs n ∧ 0 < n) ∧
      (kind = .op → ∀ c ∈ (cs.take n).head?, brackets.contains c = true → cs.take n = [c])

theorem Fits.inText (hk : kind ∈ [.name, .number, .string, .comment]) (h : NewlineLast cs → Inline cs n ∧ 0 < n) :
    (token kind n).Fits cs := by
  refine ⟨?_, ?_, fun _ => h, ?_⟩ <;> revert hk <;> cases kind <;> simp

theorem stringLexeme_fits (hn : stringStart cs = some n) : (stringLexeme n cs).Fits cs := by
  unfold stringLexeme
  split
  · rename_i q rest hq
    have hquote := stringStart_quote hn hq
    have hlen := congrArg List.length hq
    rw [List.length_drop, List.length_cons] at hlen
    have hrest : cs.drop (n + 1) = rest := by rw [← List.drop_drop, hq]; rfl
    split
    · rename_i htriple
      dsimp only
      split
      · exact hquote
      · rename_i hk
        have hthree := congrArg List.length (eq_of_beq htriple)
        simp only [List.length_take, List.length_cons, List.length_nil] at hthree
        have hclose := closingTriple_closes hk
        rw [← hrest, List.drop_drop] at hclose ⊢
        exact .inText (by decide) fun hl => ⟨(hclose.drop (by omega)).inline hl hquote, by omega⟩
    · split
      · rename_i m hm
        have hclose := toQuote_closes hm
        rw [← hrest] at hclose
        exact .inText (by decide) fun hl => ⟨(hclose.drop (by omega)).inline hl hquote, by omega⟩
      · exact hquote
      · split
        · trivial
        · rename_i hk
          refine .inText (by decide) fun hl => ⟨?_, Nat.pos_of_ne_zero hk⟩
          rw [← List.take_append_drop n cs, hq] at hl
          have hline := Inline.before hl.notMem (cs.drop n)
          rwa [List.take_append_drop, List.length_take, Nat.min_eq_left (by omega)] at hline
  · trivial

theorem ofLine_fits (cs : List Char) : (ofLine cs).Fits cs := by
  unfold ofLine
  split
  · trivial
  · rename_i rest
    have hle := lineEnd_le rest
    dsimp only
    split
    · trivial
    · exact ⟨Nat.succ_pos _, Nat.succ_le_succ hle⟩
  · rw [Nat.add_comm]
    exact .inText (by decide) fun _ => ⟨(takeWhile_inline (by decide) _).cons (by decide), Nat.succ_pos _⟩
  · dsimp only
    split
    · rename_i hn
      exact stringLexeme_fits hn
    · split
      · rename_i hne
        exact .inText (by decide) fun _ => ⟨number_inline cs, Nat.pos_of_ne_zero hne⟩
      · split
        · rename_i hne
          exact ⟨by decide, fun _ => ⟨rfl, hne⟩, fun hk => absurd rfl hk, nofun⟩
        · split
          · rename_i hne
            obtain ⟨text, hmem, htake, -⟩ := operator_text hne
            refine ⟨by decide, nofun, fun _ _ => ⟨operator_inline hne, Nat.pos_of_ne_zero hne⟩, fun _ => ?_⟩
            rw [htake]
            intro c hc hbracket
            have hall := (by decide : ∀ s ∈ longOperators ++ pairOperators ++ singleOperators,
              s.toList.head?.all (fun c => !brackets.contains c || s.toList == [c]) = true) text hmem
            rw [Option.mem_def.1 hc, Option.all_some, hbracket] at hall
            exact beq_iff_eq.1 hall
          · split
            · rename_i hne
              have hline : Inline cs (word cs) := takeWhile_inline (by decide) cs
              have hkind : wordKind cs = .name ∨ wordKind cs = .op := by
                unfold wordKind
                split
                · split <;> simp
                · simp
              rcases hkind with hk | hk <;> rw [hk]
              · exact .inText (by decide) fun _ => ⟨hline, Nat.pos_of_ne_zero hne⟩
              · refine ⟨by decide, nofun, fun _ _ => ⟨hline, Nat.pos_of_ne_zero hne⟩, fun _ c hc hbracket => ?_⟩
                -- a word begins with a character of words, which no bracket is
                have hword : isWord c = true := by
                  rw [word, ← List.prefix_iff_eq_take.1 (List.takeWhile_prefix _)] at hc
                  exact List.all_eq_true.1 List.all_takeWhile c (List.mem_of_mem_head? hc)
                have hall : brackets.all (!isWord ·) = true := by decide
                have hnot := List.all_eq_true.1 hall c (List.contains_iff_mem.1 hbracket)
                rw [hword] at hnot
                cases hnot
            · trivial

end Lexeme

theorem ofLine_le (hl : NewlineLast cs) (h : Lexeme.ofLine cs = .token kind n) : n ≤ cs.length := by
  obtain ⟨-, hnewline, hother, -⟩ : (Lexeme.token kind n).Fits cs := h ▸ Lexeme.ofLine_fits cs
  by_cases hk : kind = .newline
  · exact (hnewline hk).1 ▸ lineEnd_le cs
  · exact (hother hk hl).1.le

end LoopEscape
