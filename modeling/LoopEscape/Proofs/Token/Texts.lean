import LoopEscape.Proofs.Token.Layout
import Mathlib.Algebra.Ring.Int.Defs

/-!
# The texts of scanned tokens

The text of a scanned token reaches from its start to its stop, and what ends a row has the line end in its
text (`Token.Exact`).  Other than the tokens that close a text, only two kinds of tokens are not so: a string
that breaks off in a later row, and the end of a last row without line end (`scan_told`).  The same pass over
the scanner shows that the tokens stand in order (`scan_ordered`).
-/

namespace LoopEscape

open Text

/-! ### Places behind texts -/

/-- The place behind some characters. -/
def Position.after (p : Position) : List Char → Position
  | [] => p
  | c :: cs => if c = '\n' then Position.after ⟨p.row + 1, 0⟩ cs else Position.after ⟨p.row, p.col + 1⟩ cs

namespace Position

theorem after_append (p : Position) (xs ys : List Char) : p.after (xs ++ ys) = (p.after xs).after ys := by
  induction xs generalizing p with
  | nil => rfl
  | cons c xs ih =>
    rw [List.cons_append, after, after]
    split <;> exact ih _

theorem after_line (p : Position) {cs : List Char} (h : '\n' ∉ cs) : p.after cs = ⟨p.row, p.col + cs.length⟩ := by
  induction cs generalizing p with
  | nil => rfl
  | cons c cs ih =>
    rw [after, if_neg (List.ne_of_not_mem_cons h).symm, ih _ (List.not_mem_of_not_mem_cons h), List.length_cons]
    show (⟨p.row, p.col + 1 + cs.length⟩ : Position) = _
    rw [Nat.add_assoc, Nat.add_comm 1]

theorem row_le_after (p : Position) (cs : List Char) : p.row ≤ (p.after cs).row := by
  induction cs generalizing p with
  | nil => exact Nat.le_refl _
  | cons c cs ih =>
    rw [after]
    split
    · exact Nat.le_of_succ_le (ih ⟨p.row + 1, 0⟩)
    · exact ih ⟨p.row, p.col + 1⟩

/-- A move within a row carries over to the end of a text that stays in the row. -/
theorem after_moved (p : Position) (k : Nat) (cs : List Char) :
    after ⟨p.row, p.col + k⟩ cs =
      if (p.after cs).row = p.row then ⟨p.row, (p.after cs).col + k⟩ else p.after cs := by
  induction cs generalizing p with
  | nil => exact (if_pos rfl).symm
  | cons c cs ih =>
    rw [after, after]
    split
    · have hrow : p.row + 1 ≤ _ := row_le_after ⟨p.row + 1, 0⟩ cs
      rw [if_neg (by omega)]
    · rw [Nat.add_right_comm]
      exact ih ⟨p.row, p.col + 1⟩

theorem after_row (p : Position) {cs : List Char} (hl : NewlineLast cs) (h : cs.getLast? = some '\n') :
    p.after cs = ⟨p.row + 1, 0⟩ := by
  obtain ⟨init, rfl⟩ := List.getLast?_eq_some_iff.1 h
  rw [after_append, after_line p hl.notMem]
  rfl

end Position

/-! ### Exact tokens -/

def depthSum (ts : List Token) : Int := (ts.map Token.depthChange).sum

theorem depthSum_cons (t : Token) (ts : List Token) : depthSum (t :: ts) = t.depthChange + depthSum ts :=
  rfl

theorem depthSum_append (ts us : List Token) : depthSum (ts ++ us) = depthSum ts + depthSum us := by
  simp [depthSum]

theorem depthSum_zero {ts : List Token} (h : ∀ t ∈ ts, t.depthChange = 0) : depthSum ts = 0 := by
  induction ts with
  | nil => rfl
  | cons t ts ih =>
    obtain ⟨ht, hts⟩ := List.forall_mem_cons.1 h
    rw [depthSum_cons, ht, ih hts, Int.add_zero]

theorem depthSum_reverse (ts : List Token) : depthSum ts.reverse = depthSum ts := by
  simp [depthSum, List.sum_reverse]

namespace Token

/-- A string that breaks off in a row behind its first. -/
def Broken (t : Token) : Prop := t.kind = .stray ∧ t.stop.row ≠ t.start.row

/-- The place behind a token: the next row, if it ends its row. -/
def behind (t : Token) : Position := if t.endsRow then ⟨t.stop.row + 1, 0⟩ else t.stop

structure Exact (t : Token) : Prop where
  kind : t.kind ≠ .encoding
  text : t.start.after t.text.toList = t.behind

def Fine (t : Token) : Prop := t.isMargin = true ∨ t.stop.row = 0 ∨ t.Broken ∨ t.Exact

/-- A token may be one that closes a text. -/
def Closes (before : List Token) (t : Token) : Prop :=
  t.isMargin = true ∨ t.kind = .endMarker ∨ t.kind = .newline ∧ depthSum before = 0

def Told (before : List Token) (t : Token) (after : List Token) : Prop :=
  t.Fine ∨ t.Closes before ∨ t.kind = .lineBreak ∧ ∀ u ∈ after.head?, u.Closes (before ++ [t])

theorem Fine.inRow {kind : TokenKind} (hk : kind ∉ [.encoding, .newline, .lineBreak]) {text : List Char}
    (h : '\n' ∉ text) {row col stop : Nat} (hstop : stop = col + text.length) :
    (⟨kind, String.ofList text, ⟨row, col⟩, ⟨row, stop⟩⟩ : Token).Fine := by
  refine .inr (.inr (.inr ⟨fun hk' => hk (by simp [show kind = _ from hk']), ?_⟩))
  rw [String.toList_ofList, Position.after_line _ h, behind, if_neg (by simpa [endsRow, and_assoc] using hk), hstop]

theorem Fine.lineBreak {text : List Char} {row col stop : Nat} (hl : NewlineLast text)
    (h : text.getLast? = some '\n') : (⟨.lineBreak, String.ofList text, ⟨row, col⟩, ⟨row, stop⟩⟩ : Token).Fine :=
  .inr (.inr (.inr ⟨nofun, (congrArg _ String.toList_ofList).trans (Position.after_row _ hl h)⟩))

end Token

section

variable {cs : List Char} {kind : TokenKind} {n : Nat} (h : Lexeme.ofLine cs = .token kind n)
  (row start : Nat) (inside : Bool)

include h

theorem lexedToken_fine (hl : NewlineLast cs) : (lexedToken row start inside kind (cs.take (max n 1))).Fine := by
  obtain ⟨hkind, hnewline, hother, -⟩ : (Lexeme.token kind n).Fits cs := h ▸ Lexeme.ofLine_fits cs
  by_cases hk : kind = .newline
  · obtain ⟨hn, hne⟩ := hnewline hk
    have hafter (p : Position) : p.after (cs.take (max n 1)) = ⟨p.row + 1, 0⟩ := by
      rw [hn] at hne ⊢
      unfold lineEnd at hne ⊢
      split at hne
      · rfl
      · rfl
      · exact absurd rfl hne
    refine .inr (.inr (.inr ?_))
    unfold lexedToken
    subst hk
    cases inside <;> exact ⟨nofun, (congrArg _ String.toList_ofList).trans (hafter _)⟩
  · obtain ⟨hinline, hpos⟩ := hother hk hl
    unfold lexedToken
    rw [Nat.max_eq_left hpos, if_neg (by simp [hk])]
    exact .inRow (by revert hkind hk; cases kind <;> simp) hinline.notMem rfl

theorem lexedToken_depth (hl : NewlineLast cs) :
    bracketChange (if kind = .newline && inside then .lineBreak else kind) (cs.take (max n 1)) =
      (lexedToken row start inside kind (cs.take (max n 1))).depthChange := by
  obtain ⟨-, -, hother, hop⟩ : (Lexeme.token kind n).Fits cs := h ▸ Lexeme.ofLine_fits cs
  by_cases hk : kind = .op
  · subst hk
    rw [Nat.max_eq_left (hother nofun hl).2]
    replace hop := hop rfl
    generalize cs.take n = text at hop ⊢
    cases text with
    | nil => rfl
    | cons c rest =>
      have htext {d : Char} (hd : Pattern.brackets.contains d = true) :
          (lexedToken row start inside .op (c :: rest)).isOp (String.ofList [d]) = (c == d) := by
        show (String.ofList (c :: rest) == String.ofList [d]) = (c == d)
        by_cases hc : c = d
        · rw [hop c rfl (hc ▸ hd), hc, beq_self_eq_true, beq_self_eq_true]
        · rw [beq_eq_false_iff_ne.2 hc, beq_eq_false_iff_ne]
          intro heq
          simpa [hc] using congrArg String.toList heq
      have hopens : Token.isOpening _ = (c == '(' || c == '[' || c == '\x7b') :=
        congr (congrArg _ (congr (congrArg _ (htext (by decide))) (htext (by decide)))) (htext (by decide))
      have hcloses : Token.isClosing _ = (c == ')' || c == ']' || c == '\x7d') :=
        congr (congrArg _ (congr (congrArg _ (htext (by decide))) (htext (by decide)))) (htext (by decide))
      rw [Token.depthChange, hopens, hcloses]
      rfl
  · have hne : (if kind = .newline && inside then .lineBreak else kind) ≠ .op := by
      split <;> simp_all
    unfold bracketChange Token.depthChange Token.isOpening Token.isClosing Token.isOp lexedToken
    split <;> simp_all

end

/-! ### Scanned texts -/

structure Nested (n : Nat) (ts : List Token) : Prop where
  first : ∃ t ∈ ts.head?, t.kind = .encoding
  depth : openAfter 0 ts = some n

namespace Nested

variable {n k : Nat} {t : Token} {ts us : List Token}

theorem append (h : Nested n ts) (hus : openAfter n us = some k) : Nested k (ts ++ us) where
  first := by
    obtain ⟨t, ht, hk⟩ := h.first
    exact ⟨t, by simp [List.head?_append, Option.mem_def.1 ht], hk⟩
  depth := by rw [openAfter_append, h.depth]; exact hus

theorem cons (h : Nested n ts.reverse) (ht : t.isMargin = false) : Nested n (t :: ts).reverse := by
  rw [List.reverse_cons]
  exact h.append (openAfter_others (by simpa using ht))

theorem enter (h : Nested n ts.reverse) (ht : t.kind = .indent) : Nested (n + 1) (t :: ts).reverse := by
  rw [List.reverse_cons]
  exact h.append (by simp [openAfter, ht])

theorem leave (h : Nested (n + 1) ts.reverse) (ht : t.kind = .dedent) : Nested n (t :: ts).reverse := by
  rw [List.reverse_cons]
  exact h.append (by simp [openAfter, ht])

end Nested

/-- The part of a row from some column on; only a last row may lack the line end. -/
def RowEnd (ended : Prop) (cs : List Char) : Prop := NewlineLast cs ∧ (ended → cs ≠ [] → cs.getLast? = some '\n')

theorem RowEnd.drop {ended : Prop} {cs : List Char} (h : RowEnd ended cs) (n : Nat) : RowEnd ended (cs.drop n) := by
  refine ⟨h.1.drop n, fun he hne => ?_⟩
  have hlt : n < cs.length := Nat.lt_of_not_le fun hle => hne (List.drop_eq_nil_of_le hle)
  rw [List.getLast?_drop, if_neg (by omega)]
  exact h.2 he (by rintro rfl; simp at hlt)

structure OpenString.Reaches (row : Nat) (o : OpenString) : Prop where
  quote : Pattern.isQuote o.quote = true
  text : o.start.after o.text = ⟨row, 0⟩

def Between (ended : Prop) (row : Nat) (s : Scanner) (ts : List Token) : Prop :=
  match s.openString with
  | none => Opened row 0 ts
  | some o => Reached o.start ts ∧ o.start.row < row ∧ (ended → o.Reaches row)

structure Known (indents : Nat) (depth : Int) (acc : List Token) : Prop where
  nested : Nested indents acc.reverse
  depth : depth = depthSum acc
  fine : ∀ t ∈ acc, t.Fine

/-- What is known before a row, when the rows before it are ended; the last of them has the given width. -/
structure Scanned (ended : Prop) (row width : Nat) (s : Scanner) (acc : List Token) : Prop where
  nested : Nested s.indents.length acc.reverse
  depth : s.depth = depthSum acc
  last : ∀ t ∈ acc.head?, t.Fine ∨ ¬ ended ∧ t.kind = .lineBreak
  others : ∀ t ∈ acc.tail, t.Fine
  between : Between ended row s acc.reverse
  ends : ∀ t ∈ acc, t.stop ≤ ⟨row - 1, width⟩

section

variable {ended : Prop} {row col width : Nat} {s s' : Scanner} {acc acc' : List Token} {cs line : List Char}
  {t : Token}

theorem Scanned.known (h : Scanned True row width s acc) : Known s.indents.length s.depth acc := by
  refine ⟨h.nested, h.depth, ?_⟩
  cases acc with
  | nil => nofun
  | cons t acc => exact List.forall_mem_cons.2 ⟨(h.last t rfl).resolve_right (by simp), h.others⟩

theorem Known.cons {n n' : Nat} {d d' : Int} (h : Known n d acc) (hn : Nested n' (t :: acc).reverse)
    (hd : d' = d + t.depthChange) (ht : t.Fine) : Known n' d' (t :: acc) :=
  ⟨hn, by rw [hd, h.depth, depthSum_cons, Int.add_comm], List.forall_mem_cons.2 ⟨ht, h.fine⟩⟩

theorem Known.scanned (h : Known s.indents.length s.depth acc) (hb : Between ended row s acc.reverse)
    (he : ∀ t ∈ acc, t.stop ≤ ⟨row - 1, width⟩) : Scanned ended row width s acc :=
  ⟨h.nested, h.depth, fun t ht => .inl (h.fine t (List.mem_of_mem_head? ht)),
    fun t ht => h.fine t (List.mem_of_mem_tail ht), hb, he⟩

theorem Reached.stop_le (hr : Reached ⟨row, col⟩ acc.reverse) (h : col ≤ width) :
    ∀ t ∈ acc, t.stop ≤ ⟨row, width⟩ := fun t ht =>
  (hr.ends t (List.mem_reverse.2 ht)).trans (.inr ⟨rfl, h⟩)

theorem Known.nextRow (h : Known s.indents.length s.depth acc) (ho : s.openString = none)
    (hr : Reached ⟨row, col⟩ acc.reverse) (hc : col ≤ width) : Scanned ended (row + 1) width s acc := by
  refine h.scanned ?_ (hr.stop_le hc)
  rw [Between, ho]
  exact hr.nextRow (Nat.lt_succ_self row)

theorem length_blanks (cs : List Char) :
    (cs.takeWhile isLineSpace).length + (cs.drop (cs.takeWhile isLineSpace).length).length = cs.length := by
  have := (List.takeWhile_prefix isLineSpace (l := cs)).length_le
  rw [List.length_drop]
  omega

theorem scanLine_scanned (h : Known s.indents.length s.depth acc) (ho : s.openString = none)
    (hr : Reached ⟨row, col⟩ acc.reverse) (hl : RowEnd ended cs) :
    Scanned ended (row + 1) (col + cs.length) (scanLine row col s acc cs).1
      (scanLine row col s acc cs).2 := by
  fun_induction scanLine row col s acc cs with
  | case1 => exact h.nextRow ho hr (Nat.le_refl _)
  | case2 => exact h.nextRow ho hr (Nat.le_add_right ..)
  | case3 col s acc c cs blanks rest hne hx token ih =>
    -- a line end is a token
    have hc : c ≠ '\n' := by
      rintro rfl
      obtain rfl : cs = [] := hl.1 [] _ rfl
      exact absurd hx (by decide)
    have htoken : token.Fine := .inRow (by decide) (show '\n' ∉ [c] by simpa using hc.symm) rfl
    have hend : col + (c :: cs).length = col + 1 + cs.length := by
      rw [List.length_cons]
      omega
    rw [hend]
    refine ih (h.cons (h.nested.cons rfl) ?_ htoken) ho ?_ (hl.drop 1)
    · simp [token, Token.depthChange, Token.isOpening, Token.isClosing, Token.isOp]
    · rw [List.reverse_cons]
      exact hr.concat (le_refl _) rfl (.inRow (by decide) _ row (Nat.le_succ col)) rfl
  | case4 col s acc c cs blanks rest start hne n hx ih =>
    have hblanks : blanks.length + rest.length = (c :: cs).length := length_blanks _
    obtain ⟨hpos, hle⟩ : (Lexeme.backslash n).Fits rest := hx ▸ Lexeme.ofLine_fits rest
    have hend : col + (c :: cs).length = start + n + (rest.drop (max n 1)).length := by
      rw [List.length_drop]
      show _ = col + blanks.length + n + _
      omega
    rw [hend]
    exact ih h ho (hr.mono (.inr ⟨rfl, by show col ≤ col + _ + n; omega⟩))
      ((hl.drop _).drop _)
  | case5 col s acc c cs blanks rest start hne q triple hx =>
    have hrest : RowEnd ended rest := hl.drop _
    have hquote : (Lexeme.unfinished q triple).Fits rest := hx ▸ Lexeme.ofLine_fits rest
    refine Known.scanned h ⟨hr.mono (.inr ⟨rfl, Nat.le_add_right ..⟩), Nat.lt_succ_self row, fun he => ⟨hquote, ?_⟩⟩
      (hr.stop_le (Nat.le_add_right ..))
    exact Position.after_row _ hrest.1 (hrest.2 he fun h => hne (by rw [h]; rfl))
  | case6 col s acc c cs blanks rest start hne kind' n' hx n text kind token ih =>
    have hrest : RowEnd ended rest := hl.drop _
    have hblanks : blanks.length + rest.length = (c :: cs).length := length_blanks _
    have hpos : 0 < rest.length := List.length_pos_iff.2 fun h => hne (by rw [h]; rfl)
    have hn : n ≤ rest.length := Nat.max_le.2 ⟨ofLine_le hrest.1 hx, hpos⟩
    have htext : text.length = n := List.length_take_of_le hn
    have htoken : token = lexedToken row start (decide (0 < s.depth)) kind' text := by
      unfold lexedToken
      rw [htext]
      rfl
    have hmargin := htoken ▸ lexedToken_isMargin hx row start (decide (0 < s.depth)) text
    have hsound := htoken ▸ lexedToken_sound row start (decide (0 < s.depth)) kind' (by omega)
    have hstart : (⟨row, col⟩ : Position) ≤ token.start := .inr ⟨rfl, Nat.le_add_right ..⟩
    have hknown : Known s.indents.length (s.depth + bracketChange kind text) (token :: acc) := by
      refine h.cons (h.nested.cons hmargin) ?_ ?_
      · exact congrArg (s.depth + ·) (htoken ▸ lexedToken_depth hx row start (decide (0 < s.depth)) hrest.1)
      · exact htoken ▸ lexedToken_fine hx row start (decide (0 < s.depth)) hrest.1
    have hend : col + (c :: cs).length = start + n + (rest.drop n).length := by
      rw [List.length_drop]
      show _ = col + blanks.length + n + _
      omega
    rw [hend]
    cases he : token.endsRow with
    | true =>
      rw [drop_of_endsRow hx row start (decide (0 < s.depth)) hrest.1 (htoken ▸ he), scanLine]
      refine Known.scanned hknown ?_ (List.forall_mem_cons.2 ⟨.inr ⟨rfl, Nat.le_refl _⟩, hr.stop_le ?_⟩)
      · rw [Between, show Scanner.openString _ = none from ho, List.reverse_cons]
        exact hr.concat_nextRow hstart hmargin hsound (Nat.lt_succ_self row)
      · show col ≤ col + _ + n
        omega
    | false =>
      refine ih hknown ho ?_ (hrest.drop n)
      rw [List.reverse_cons]
      exact hr.concat hstart hmargin hsound he

theorem dedents_known {rest indents : List Nat} {depth : Int}
    (h : dedents row width col indents acc = .ok (rest, acc')) (hk : Known indents.length depth acc)
    (ho : Opened row col acc.reverse) : Known rest.length depth acc' ∧ Opened row col acc'.reverse := by
  induction indents generalizing acc with
  | nil =>
    cases h
    exact ⟨hk, ho⟩
  | cons i is ih =>
    rw [dedents] at h
    split at h
    · split at h
      · refine ih h (hk.cons (hk.nested.leave rfl) (Int.add_zero _).symm (.inl rfl)) ?_
        rw [List.reverse_cons]
        exact ho.margin rfl (.inRow (by decide) _ row (Nat.le_refl col)) rfl (le_refl _)
      · cases h
    · cases h
      exact ⟨hk, ho⟩

/-- A comment holds no line end, and the end of its row is behind it. -/
theorem comment_inline {rest comment : List Char} (hl : NewlineLast rest)
    (h : (rest.reverse.dropWhile fun c => c == '\r' || c == '\n').reverse = comment) :
    '\n' ∉ comment ∧ (rest.getLast? = some '\n' → rest.drop comment.length ≠ []) := by
  have hsplit : rest = comment ++ (rest.reverse.takeWhile fun c => c == '\r' || c == '\n').reverse := by
    rw [← h, ← List.reverse_append, List.takeWhile_append_dropWhile, List.reverse_reverse]
  have hnone : '\n' ∉ comment := by
    have hhead := List.head?_dropWhile_not (fun c => c == '\r' || c == '\n') rest.reverse
    rw [← h]
    cases hd : rest.reverse.dropWhile fun c => c == '\r' || c == '\n' with
    | nil => simp
    | cons x init =>
      rw [hd, List.head?_cons] at hhead
      rw [← h, hd, List.reverse_cons, List.append_assoc] at hsplit
      have hinit : '\n' ∉ init.reverse := (hsplit ▸ hl : NewlineLast (init.reverse ++ x :: _)).notMem
      have hx : x ≠ '\n' := by
        rintro rfl
        cases hhead
      simpa [hx.symm] using hinit
  refine ⟨hnone, fun hlast hnil => hnone ?_⟩
  rw [hsplit, List.drop_left] at hnil
  rw [hsplit, hnil, List.append_nil] at hlast
  exact List.mem_of_getLast? hlast

theorem scanFresh_scanned (h : scanFresh row s acc line = .ok (.next s' acc')) (ho : s.openString = none)
    (hk : Known s.indents.length s.depth acc) (hr : Opened row 0 acc.reverse) (hl : RowEnd ended line) :
    Scanned ended (row + 1) line.length s' acc' := by
  have hbefore : ∀ t ∈ acc, t.stop ≤ ⟨row, line.length⟩ := hr.reached.stop_le (Nat.zero_le _)
  have hrest : RowEnd ended (line.drop (line.takeWhile isLineSpace).length) := hl.drop _
  have hlength := length_blanks line
  -- the end of a row that has no statement
  have hbreak {acc : List Token} {col : Nat} {text : List Char} (hk : Known s.indents.length s.depth acc)
      (hr : Reached ⟨row, col⟩ acc.reverse) (hends : ∀ t ∈ acc, t.stop ≤ ⟨row, line.length⟩)
      (hcol : col ≤ line.length) (ht : RowEnd ended text) (hne : ended → text ≠ []) :
      Scanned ended (row + 1) line.length s
        (⟨.lineBreak, String.ofList text, ⟨row, col⟩, ⟨row, line.length⟩⟩ :: acc) := by
    refine ⟨hk.nested.cons rfl, ?_, ?_, hk.fine, ?_, List.forall_mem_cons.2 ⟨le_refl _, hends⟩⟩
    · rw [hk.depth, depthSum_cons]
      exact (Int.zero_add _).symm
    · rintro _ ⟨⟩
      exact (Classical.em ended).imp (fun he => .lineBreak ht.1 (ht.2 he (hne he))) (⟨·, rfl⟩)
    · rw [Between, ho, List.reverse_cons]
      exact hr.concat_nextRow (le_refl _) rfl (.inRow (by decide) _ row hcol) (Nat.lt_succ_self row)
  unfold scanFresh at h
  dsimp only at h
  generalize line.takeWhile isLineSpace = blanks at *
  generalize line.drop blanks.length = rest at *
  have hopened := hr.mono (Nat.zero_le blanks.length)
  split at h
  · cases h
  · rename_i c tail
    split at h
    · -- a comment, and the end of its row
      cases h
      obtain ⟨hcomment, hbehind⟩ := comment_inline hrest.1 rfl
      have hwidth : ((c :: tail).reverse.dropWhile fun c => c == '\r' || c == '\n').reverse.length ≤
          (c :: tail).length := by
        rw [List.length_reverse]
        exact (List.dropWhile_suffix _).length_le.trans_eq List.length_reverse
      generalize ((c :: tail).reverse.dropWhile fun c => c == '\r' || c == '\n').reverse = comment at *
      refine hbreak (hk.cons (hk.nested.cons rfl) (Int.add_zero _).symm (.inRow (by decide) hcomment rfl)) ?_
        (List.forall_mem_cons.2 ⟨.inr ⟨rfl, by show _ + _ ≤ line.length; omega⟩, hbefore⟩) (by omega)
        (hrest.drop _) fun he => hbehind (hrest.2 he (List.cons_ne_nil _ _))
      rw [List.reverse_cons]
      exact hopened.reached.concat (le_refl _) rfl (.inRow (by decide) _ row (Nat.le_add_right ..)) rfl
    · split at h
      · cases h
        exact hbreak hk hopened.reached hbefore (by omega) hrest fun _ => List.cons_ne_nil _ _
      · rw [← hlength]
        split at h
        · cases h
          refine scanLine_scanned (hk.cons (hk.nested.enter rfl) (Int.add_zero _).symm (.inl rfl)) ho ?_ hrest
          rw [List.reverse_cons]
          exact (hopened.margin rfl (.inRow (by decide) _ row (Nat.zero_le _)) rfl (le_refl _)).reached
        · split at h
          · cases h
          · rename_i hd
            cases h
            obtain ⟨hk, hopened⟩ := dedents_known hd hk hopened
            exact scanLine_scanned hk ho hopened.reached hrest

theorem scanOpenString_scanned {o : OpenString} (hk : Known s.indents.length s.depth acc)
    (hr : Reached o.start acc.reverse) (hrow : o.start.row < row) (ho : o.Reaches row)
    (hl : RowEnd ended line) (hne : ended → line ≠ []) :
    Scanned ended (row + 1) line.length (scanOpenString row s acc o line).1
      (scanOpenString row s acc o line).2 := by
  have hbefore : ∀ t ∈ acc, t.stop ≤ ⟨row, line.length⟩ := fun t ht =>
    (hr.ends t (List.mem_reverse.2 ht)).trans (.inl hrow)
  unfold scanOpenString
  dsimp only
  have hn := closing_closes o line
  generalize (if o.triple then Pattern.closingTriple o.quote line
      else Pattern.closingQuote o.quote line) = n at *
  split
  · rename_i hclosed
    have hinline := (hn hclosed).inline hl.1 ho.quote
    have hlength : line.length = n + (line.drop n).length := by
      rw [List.length_drop, Nat.add_sub_of_le (hn hclosed).le]
    rw [hlength]
    refine scanLine_scanned (hk.cons (hk.nested.cons rfl) (Int.add_zero _).symm
      (.inr (.inr (.inr ⟨nofun, ?_⟩)))) rfl ?_ (hl.drop n)
    · rw [String.toList_ofList, Position.after_append, ho.text, Position.after_line _ hinline.notMem,
        List.length_take_of_le hinline.le, Nat.zero_add]
      rfl
    · rw [List.reverse_cons]
      exact hr.concat (le_refl _) rfl (.overRows (by decide) _ hrow rfl) rfl
  · split
    · refine Known.scanned (hk.cons (hk.nested.cons rfl) (Int.add_zero _).symm
        (.inr (.inr (.inl ⟨rfl, hrow.ne'⟩)))) ?_ (List.forall_mem_cons.2 ⟨le_refl _, hbefore⟩)
      rw [List.reverse_cons]
      exact hr.concat_nextRow (le_refl _) rfl (.overRows (by decide) _ hrow rfl) (Nat.lt_succ_self row)
    · refine Known.scanned hk ⟨hr, Nat.lt_succ_of_lt hrow, fun he => ⟨ho.quote, ?_⟩⟩ hbefore
      rw [Position.after_append, ho.text]
      exact Position.after_row _ hl.1 (hl.2 he (hne he))

theorem closing_tokens {last : List Char} {ts : List Token} (h : depthSum ts = 0) {before after : List Token}
    {t : Token} (ht : closing row last s = before ++ t :: after) : t.Closes (ts ++ before) := by
  have hclosing : ∀ u ∈ closing row last s, u.depthChange = 0 ∧
      (u.isMargin = true ∨ u.kind = .endMarker ∨ u.kind = .newline) := by
    intro u hu
    unfold closing at hu
    simp only [List.mem_append, List.mem_ite_nil_right, List.mem_map, List.mem_singleton] at hu
    rcases hu with (⟨-, rfl⟩ | ⟨-, -, rfl⟩) | rfl
    · exact ⟨rfl, .inr (.inr rfl)⟩
    · exact ⟨rfl, .inl rfl⟩
    · exact ⟨rfl, .inr (.inl rfl)⟩
  have hbefore : depthSum before = 0 := depthSum_zero fun u hu => (hclosing u (ht ▸ List.mem_append_left _ hu)).1
  have hsum : depthSum (ts ++ before) = 0 := by rw [depthSum_append, h, hbefore]; rfl
  exact (hclosing t (by simp [ht])).2.imp id (.imp id (⟨·, hsum⟩))

theorem closing_nested {last : List Char} {ts : List Token}
    (h : Nested s.indents.length ts) : Nested 0 (ts ++ closing row last s) := by
  have hdedents : ∀ indents : List Nat, openAfter indents.length
      (indents.map fun _ => (⟨.dedent, "", ⟨row, 0⟩, ⟨row, 0⟩⟩ : Token)) = some 0 := by
    intro indents
    induction indents with
    | nil => rfl
    | cons i is ih => exact ih
  have hend (unended : Bool) : openAfter s.indents.length (if unended then
      [(⟨.newline, "", ⟨row - 1, last.length⟩, ⟨row - 1, last.length + 1⟩⟩ : Token)] else []) =
      some s.indents.length := by
    cases unended <;> rfl
  refine h.append ?_
  unfold closing
  dsimp only
  rw [openAfter_append, openAfter_append, hend, Option.bind_some, hdedents]
  rfl

/-- What is known of all tokens of a text. -/
structure Told (ts : List Token) : Prop where
  ordered : Ordered ts
  nested : Nested 0 ts
  tokens : ∀ before t after, ts = before ++ t :: after → t.Told before after

theorem Scanned.told {last : List Char} (h : Scanned ended row last.length s acc) (hpos : 0 < row)
    (ho : s.openString = none) (hd : s.depth = 0) : Told (acc.reverse ++ closing row last s) := by
  have hopened := h.between
  rw [Between, ho] at hopened
  have hordered := closing_ordered (s := s) hopened hpos fun t ht => h.ends t (List.mem_reverse.1 ht)
  have hdepth : depthSum acc.reverse = 0 := by rw [depthSum_reverse, ← h.depth, hd]
  refine ⟨hordered, closing_nested h.nested, fun before t after hts => ?_⟩
  rcases List.append_eq_append_iff.1 hts with ⟨as, rfl, hclosing⟩ | ⟨bs, hacc, hafter⟩
  · exact .inr (.inl (closing_tokens hdepth hclosing))
  · cases bs with
    | nil =>
      rw [List.append_nil] at hacc
      have hcloses := closing_tokens hdepth (show _ = [] ++ _ :: _ from hafter.symm)
      rw [List.append_nil, hacc] at hcloses
      exact .inr (.inl hcloses)
    | cons b bs =>
      obtain ⟨rfl, rfl⟩ := List.cons.inj hafter
      by_cases hne : bs = []
      · subst hne
        have hhead : t ∈ acc.head? := by
          rw [← List.getLast?_reverse, hacc, List.getLast?_concat]
          rfl
        refine (h.last t hhead).imp id fun hlast => .inr ⟨hlast.2, fun u hu => ?_⟩
        obtain ⟨rest, hclosing⟩ := List.head?_eq_some_iff.1 hu
        have hcloses := closing_tokens hdepth (show _ = [] ++ _ :: _ from hclosing)
        rwa [List.append_nil, hacc] at hcloses
      · refine .inl (h.others t ?_)
        have htail : acc.tail = (before ++ t :: bs).dropLast.reverse := by
          rw [← hacc, List.dropLast_reverse, List.reverse_reverse]
        rw [htail, List.dropLast_append_cons, List.dropLast_cons_of_ne_nil hne]
        simp

theorem scanLines_told {last : List Char} {ts : List Token} {lines : List (Option (List Char))}
    (h : scanLines row last s acc lines = .ok ts) (hl : Rows lines) (hpos : 0 < row)
    (hs : Scanned (lines ≠ []) row last.length s acc) : Told ts := by
  fun_induction scanLines row last s acc lines with
  | case1 | case3 | case4 | case6 => cases h
  | case2 row last s acc ho hd =>
    cases h
    exact hs.told hpos ho (by simpa using (Bool.and_eq_true_iff.1 hd).1)
  | case5 row last s acc line lines o ho s' acc' hscan ih =>
    obtain ⟨hlast, hended⟩ := hl.1 line rfl
    have hs : Scanned True row last.length s acc := by simpa using hs
    have hbetween := hs.between
    rw [Between, ho] at hbetween
    have hline := scanOpenString_scanned hs.known hbetween.1 hbetween.2.1 (hbetween.2.2 trivial)
      ⟨hlast, fun he _ => hended he⟩ fun he hnil => by simpa [hnil] using hended he
    rw [hscan] at hline
    exact ih h hl.2 (Nat.succ_pos row) hline
  | case7 row last s acc line lines ho _ s' acc' hscan ih =>
    obtain ⟨hlast, hended⟩ := hl.1 line rfl
    have hs : Scanned True row last.length s acc := by simpa using hs
    have hopened := hs.between
    rw [Between, ho] at hopened
    exact ih h hl.2 (Nat.succ_pos row) (scanFresh_scanned hscan ho hs.known hopened ⟨hlast, fun he _ => hended he⟩)
  | case8 row last s acc line lines ho hd s' acc' hscan =>
    cases h
    obtain ⟨rfl, rfl⟩ := scanFresh_stop hscan
    exact hs.told hpos ho (by simpa using (Bool.and_eq_true_iff.1 hd).1)
  | case9 row last s acc line lines ho _ s' acc' hscan ih =>
    obtain ⟨hlast, hended⟩ := hl.1 line rfl
    have hs : Scanned True row last.length s acc := by simpa using hs
    have hopened := hs.between
    rw [Between, ho] at hopened
    have hline := scanLine_scanned (s := { s with continued := false }) hs.known ho hopened.reached
      (⟨hlast, fun he _ => hended he⟩ : RowEnd _ line)
    rw [hscan, Nat.zero_add] at hline
    exact ih h hl.2 (Nat.succ_pos row) hline

end

theorem scan_told {source : String} {stream : TokenStream} (h : scan source = .ok stream) : Told stream.tokens := by
  unfold scan at h
  dsimp only at h
  split at h
  · cases h
  · rename_i encoding _
    obtain ⟨ts, hscan, rfl⟩ := map_eq_ok h
    have hnone : Reached ⟨0, 0⟩ [] := ⟨⟨.nil, nofun⟩, nofun, nofun⟩
    have hknown : Known 0 0 [⟨.encoding, "", ⟨0, 0⟩, ⟨0, 0⟩⟩] :=
      ⟨⟨⟨_, rfl, rfl⟩, rfl⟩, rfl, by simp [Token.Fine]⟩
    refine scanLines_told hscan (cutRows_rows encoding _ (by simp)) Nat.one_pos (Known.scanned hknown ?_ ?_)
    · exact hnone.concat_nextRow (le_refl _) rfl (.inRow (by decide) _ 0 (Nat.le_refl 0)) Nat.one_pos
    · exact List.forall_mem_singleton.2 (le_refl _)

theorem scan_ordered {source : String} {stream : TokenStream} (h : scan source = .ok stream) :
    Ordered stream.tokens := (scan_told h).ordered

/-! ### Laying out -/

def StandsAt (text : List Char) (p : Position) (piece : String) : Prop :=
  ∃ before after, text = before ++ piece.toList ++ after ∧ (⟨1, 0⟩ : Position).after before = p

namespace Layout

variable {l : Layout} {t : Token} {ts : List Token}

def text (l : Layout) : List Char := l.pieces.reverse.flatMap String.toList

theorem after_skipped (n : Nat) (p : Position) :
    p.after (Text.repeated "\\\n" n).toList = if n = 0 then p else ⟨p.row + n, 0⟩ := by
  rw [Text.repeated, String.toList_join]
  induction n generalizing p with
  | zero => rfl
  | succ n ih =>
    rw [List.replicate_succ, List.flatMap_cons, Position.after_append, ih]
    split <;> simp_all [Position.after]
    omega

theorem after_blanks (n : Nat) (p : Position) : p.after (Text.repeated " " n).toList = ⟨p.row, p.col + n⟩ := by
  rw [Text.repeated, String.toList_join]
  induction n generalizing p with
  | zero => rfl
  | succ n ih =>
    rw [List.replicate_succ, List.flatMap_cons, Position.after_append, ih]
    simp [Position.after]
    omega

/-- The text written so far ends where the layout is. -/
structure Written (l : Layout) : Prop where
  indents : l.indents = []
  text : (⟨1, 0⟩ : Position).after l.text = l.at_

theorem Written.advance {start : Position} (h : l.Written) (hle : l.at_ ≤ start) :
    ∃ l' more, l.advance start = .ok l' ∧ l'.indents = [] ∧ l'.text = l.text ++ more ∧
      (⟨1, 0⟩ : Position).after l'.text = start := by
  rw [Position.le_def] at hle
  have hbefore : ¬ start.before l.at_ = true := by
    simp only [Position.before, Bool.or_eq_true, Bool.and_eq_true, decide_eq_true_iff, beq_iff_eq]
    omega
  have htext : ∃ l', l.advance start = .ok l' ∧ l'.indents = [] ∧
      l'.text = l.text ++ ((Text.repeated "\\\n" (start.row - l.at_.row)).toList ++
        (Text.repeated " " (start.col - if start.row - l.at_.row = 0 then l.at_.col else 0)).toList) := by
    refine ⟨_, if_neg hbefore, h.indents, ?_⟩
    by_cases hskip : start.row - l.at_.row = 0 <;> simp [Layout.text, hskip, Text.repeated]
  obtain ⟨l', hl', hindents, htext⟩ := htext
  refine ⟨l', _, hl', hindents, htext, ?_⟩
  rw [htext, Position.after_append, Position.after_append, h.text, after_skipped, after_blanks]
  obtain ⟨row, col⟩ := start
  dsimp only at hle ⊢
  split <;> simp only [Position.mk.injEq] <;> omega

theorem Written.add (h : l.Written) (hm : t.isMargin = false) (hk : t.kind ≠ .encoding) (hle : l.at_ ≤ t.start) :
    ∃ l' before, l.add t = .ok l' ∧ l'.indents = [] ∧ l'.at_ = t.behind ∧
      l'.text = l.text ++ before ++ t.text.toList ∧ (⟨1, 0⟩ : Position).after (l.text ++ before) = t.start := by
  have hadd : ∃ l₁ : Layout, l₁.Written ∧ l₁.at_ = l.at_ ∧ l₁.text = l.text ∧
      l.add t = (l₁.advance t.start).map fun l => l.write t := by
    have hindent : l.indent t.start = l := by
      unfold indent
      rw [h.indents]
      split <;> simp_all
    unfold Layout.add
    cases hkind : t.kind with
    | newline | lineBreak => exact ⟨{ l with atRowStart := true }, ⟨h.indents, h.text⟩, rfl, rfl, rfl⟩
    | indent | dedent => simp [Token.isMargin, hkind] at hm
    | encoding => exact absurd hkind hk
    | _ => exact ⟨l, h, rfl, rfl, by rw [hindent]⟩
  obtain ⟨l₁, hw, hat, htext, hadd⟩ := hadd
  obtain ⟨l', more, hadvance, hindents, hmore, hstart⟩ := hw.advance (hat ▸ hle)
  rw [← htext]
  refine ⟨l'.write t, more, by rw [hadd, hadvance]; rfl, hindents, ?_, ?_, ?_⟩
  · simp [write, Token.behind, Token.endsRow, hk]
  · rw [← hmore]
    simp [Layout.text, write]
  · rwa [hmore] at hstart

theorem Written.addAll (h : l.Written) (hts : ts.Pairwise fun t u => t.Exact ∧ t.behind ≤ u.start)
    (hkinds : ∀ t ∈ ts, t.isMargin = false ∧ t.kind ≠ .encoding ∧ t.kind ≠ .endMarker)
    (hat : ∀ t ∈ ts, l.at_ ≤ t.start) :
    ∃ l' more, l.addAll ts = .ok l' ∧ l'.text = l.text ++ more ∧ ∀ t ∈ ts, StandsAt l'.text t.start t.text := by
  induction ts generalizing l with
  | nil => exact ⟨l, [], rfl, (List.append_nil _).symm, nofun⟩
  | cons t ts ih =>
    obtain ⟨hbefore, hts⟩ := List.pairwise_cons.1 hts
    obtain ⟨⟨hm, hk, hend⟩, hkinds⟩ := List.forall_mem_cons.1 hkinds
    obtain ⟨ht, -⟩ := List.forall_mem_cons.1 hat
    obtain ⟨l₁, before, hadd, hindents, hat₁, htext, hstart⟩ := h.add hm hk ht
    rw [Layout.addAll, if_neg hend, hadd]
    dsimp only
    cases ts with
    | nil =>
      exact ⟨l₁, _, rfl, by rw [htext, List.append_assoc],
        by simpa using ⟨_, [], by rw [htext, List.append_nil], hstart⟩⟩
    | cons u ts =>
      have hexact := (hbefore u (List.mem_cons_self ..)).1
      have hw : l₁.Written := ⟨hindents, by rw [htext, Position.after_append, hstart, hexact.text, hat₁]⟩
      obtain ⟨l', more, hall, hmore, hstands⟩ := ih hw hts hkinds fun v hv => hat₁ ▸ (hbefore v hv).2
      refine ⟨l', _, hall, by rw [hmore, htext, List.append_assoc, List.append_assoc],
        List.forall_mem_cons.2 ⟨?_, hstands⟩⟩
      exact ⟨_, more, by rw [hmore, htext], hstart⟩

end Layout

theorem layout_stands {ts : List Token} (hts : ts.Pairwise fun t u => t.Exact ∧ t.behind ≤ u.start)
    (hkinds : ∀ t ∈ ts, t.isMargin = false ∧ t.kind ≠ .encoding ∧ t.kind ≠ .endMarker)
    (hrows : ∀ t ∈ ts, 0 < t.start.row) :
    ∃ code, layout ts = .ok code ∧ ∀ t ∈ ts, StandsAt code.toList t.start t.text := by
  obtain ⟨l, -, hall, -, hstands⟩ := Layout.Written.addAll (l := {}) ⟨rfl, rfl⟩ hts hkinds fun t ht => by
    have := hrows t ht
    rw [Position.le_def]
    dsimp only
    omega
  refine ⟨_, by rw [layout, hall]; rfl, fun t ht => ?_⟩
  rw [String.toList_join]
  exact hstands t ht

end LoopEscape
