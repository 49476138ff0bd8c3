import LoopEscape.Proofs.Token.Pattern
import Mathlib.Order.Basic

/-!
# Where scanned tokens stand

Scanned tokens stand one behind the other, and what ends a row is the last in it.  Indentations and
their ends come before all other tokens of their row.  This is stated of any two tokens of a stream, an
earlier and a later one (`Token.Precedes`).
-/

namespace LoopEscape

open Text

variable {acc acc' : List Token} {line : List Char} {s : Scanner}

/-! ### Places -/

instance : Preorder Position where
  le p q := p.row < q.row ∨ p.row = q.row ∧ p.col ≤ q.col
  le_refl p := .inr ⟨rfl, Nat.le_refl _⟩
  le_trans p q r h h' := by omega

namespace Position

theorem le_def {p q : Position} : p ≤ q ↔ p.row < q.row ∨ p.row = q.row ∧ p.col ≤ q.col := Iff.rfl

theorem row_le {p q : Position} (h : p ≤ q) : p.row ≤ q.row := by
  rw [le_def] at h
  omega

end Position

/-! ### Tokens -/

namespace Token

/-- Indentations and their ends, which stand at the start of a row beside all other tokens. -/
def isMargin (t : Token) : Bool := t.kind == .indent || t.kind == .dedent

def endsRow (t : Token) : Bool :=
  t.kind == .encoding || t.kind == .newline || t.kind == .lineBreak

/-- The line end that closes a text without one. -/
def closesText (t : Token) : Bool := t.kind == .newline && t.text == ""

structure Sound (t : Token) : Prop where
  start_le_stop : t.start ≤ t.stop
  name : t.kind = .name → t.stop = ⟨t.start.row, t.start.col + t.text.length⟩ ∧ 0 < t.text.length
  oneRow : t.endsRow = true → t.stop.row = t.start.row

structure Precedes (t u : Token) : Prop where
  apart : u.isMargin = false → t.stop ≤ u.start
  newRow : t.endsRow = true → u.closesText = false → t.stop.row < u.start.row
  opens : t.isMargin = false → u.isMargin = true → t.stop.row < u.start.row
  behind : t.isMargin = true → t.start.row ≤ u.start.row

theorem closesText_of_endsRow {t : Token} (h : t.endsRow = false) : t.closesText = false := by
  simp_all [endsRow, closesText]

theorem isMargin_of_kind {t : Token} (h₁ : t.kind ≠ .indent) (h₂ : t.kind ≠ .dedent) :
    t.isMargin = false := by
  simp [isMargin, h₁, h₂]

theorem Sound.inRow {kind : TokenKind} (hk : kind ≠ .name) (text : String) (row : Nat) {a b : Nat}
    (h : a ≤ b) : (⟨kind, text, ⟨row, a⟩, ⟨row, b⟩⟩ : Token).Sound :=
  ⟨.inr ⟨rfl, h⟩, fun h => absurd h hk, fun _ => rfl⟩

theorem Sound.overRows {kind : TokenKind} (hk : kind ≠ .name) (text : String) {start stop : Position}
    (h : start.row < stop.row) (he : (⟨kind, text, start, stop⟩ : Token).endsRow = false) :
    (⟨kind, text, start, stop⟩ : Token).Sound :=
  ⟨.inl h, fun h => absurd h hk, fun h => absurd (h.symm.trans he) (by decide)⟩

end Token

structure Ordered (ts : List Token) : Prop where
  pairwise : ts.Pairwise Token.Precedes
  sound : ∀ t ∈ ts, t.Sound

structure Reached (p : Position) (ts : List Token) : Prop extends Ordered ts where
  ends : ∀ t ∈ ts, t.stop ≤ p
  rowEnds : ∀ t ∈ ts, t.endsRow = true → t.stop.row < p.row

structure Opened (row col : Nat) (ts : List Token) : Prop extends Ordered ts where
  before : ∀ t ∈ ts, t.isMargin = false → t.stop.row < row
  margins : ∀ t ∈ ts, t.isMargin = true → t.stop ≤ ⟨row, col⟩

theorem Ordered.margin_le {ts : List Token} {t u : Token} (h : Ordered ts) (ht : t ∈ ts) (hu : u ∈ ts)
    (hm : t.isMargin = true) (hm' : u.isMargin = false) (hrow : t.stop.row ≤ u.stop.row) :
    t.stop ≤ u.start := by
  obtain ⟨i, hi, rfl⟩ := List.mem_iff_getElem.1 ht
  obtain ⟨j, hj, rfl⟩ := List.mem_iff_getElem.1 hu
  rcases Nat.lt_trichotomy i j with hij | rfl | hji
  · exact (List.pairwise_iff_getElem.1 h.pairwise i j hi hj hij).apart hm'
  · exact absurd (hm.symm.trans hm') (by decide)
  · have := (List.pairwise_iff_getElem.1 h.pairwise j i hj hi hji).opens hm' hm
    have := Position.row_le (h.sound _ ht).start_le_stop
    omega

theorem Ordered.concat {ts : List Token} {t : Token} (h : Ordered ts) (ht : t.Sound)
    (hp : ∀ u ∈ ts, u.Precedes t) : Ordered (ts ++ [t]) where
  pairwise := by
    rw [List.pairwise_append]
    exact ⟨h.pairwise, List.pairwise_singleton .., fun u hu v hv => List.mem_singleton.1 hv ▸ hp u hu⟩
  sound := by
    simpa [or_imp, forall_and] using ⟨h.sound, ht⟩

namespace Reached

variable {p q : Position} {ts : List Token} {t : Token}

theorem mono (h : Reached p ts) (hpq : p ≤ q) : Reached q ts where
  toOrdered := h.toOrdered
  ends t ht := (h.ends t ht).trans hpq
  rowEnds t ht he := Nat.lt_of_lt_of_le (h.rowEnds t ht he) (Position.row_le hpq)

theorem nextRow (h : Reached p ts) {row : Nat} (hr : p.row < row) : Opened row 0 ts where
  toOrdered := h.toOrdered
  before t ht _ := Nat.lt_of_le_of_lt (Position.row_le (h.ends t ht)) hr
  margins t ht _ := .inl (Nat.lt_of_le_of_lt (Position.row_le (h.ends t ht)) hr)

theorem precedes (h : Reached p ts) (hp : p ≤ t.start) (hm : t.isMargin = false) :
    ∀ u ∈ ts, u.Precedes t := by
  intro u hu
  have hrow := Position.row_le hp
  refine ⟨fun _ => (h.ends u hu).trans hp, fun he _ => ?_, fun _ hm' => ?_, fun _ => ?_⟩
  · exact Nat.lt_of_lt_of_le (h.rowEnds u hu he) hrow
  · rw [hm] at hm'
    cases hm'
  · exact Position.row_le (((h.sound u hu).start_le_stop.trans (h.ends u hu)).trans hp)

theorem concat (h : Reached p ts) (hp : p ≤ t.start) (hm : t.isMargin = false) (ht : t.Sound)
    (he : t.endsRow = false) : Reached t.stop (ts ++ [t]) where
  toOrdered := h.toOrdered.concat ht (h.precedes hp hm)
  ends := by
    have hstop := hp.trans ht.start_le_stop
    simpa [or_imp, forall_and, le_refl] using fun u hu => (h.ends u hu).trans hstop
  rowEnds := by
    have hstop := Position.row_le (hp.trans ht.start_le_stop)
    simpa [or_imp, forall_and, he] using fun u hu hu' => Nat.lt_of_lt_of_le (h.rowEnds u hu hu') hstop

theorem concat_nextRow (h : Reached p ts) (hp : p ≤ t.start) (hm : t.isMargin = false) (ht : t.Sound)
    {row : Nat} (hr : t.stop.row < row) : Opened row 0 (ts ++ [t]) where
  toOrdered := h.toOrdered.concat ht (h.precedes hp hm)
  before := by
    have hstop := Position.row_le (hp.trans ht.start_le_stop)
    have hbefore : ∀ u ∈ ts, u.isMargin = false → u.stop.row < row := fun u hu _ => by
      have := Position.row_le (h.ends u hu)
      omega
    simpa [or_imp, forall_and, hr] using hbefore
  margins := by
    have hstop := Position.row_le (hp.trans ht.start_le_stop)
    have hbefore : ∀ u ∈ ts, u.isMargin = true → u.stop ≤ ⟨row, 0⟩ := fun u hu _ => by
      have := Position.row_le (h.ends u hu)
      exact .inl (by show u.stop.row < row; omega)
    simpa [or_imp, forall_and, hm] using hbefore

end Reached

namespace Opened

variable {row col : Nat} {ts : List Token} {t : Token}

theorem mono (h : Opened row col ts) {col' : Nat} (hc : col ≤ col') : Opened row col' ts where
  toOrdered := h.toOrdered
  before := h.before
  margins t ht hm := (h.margins t ht hm).trans (.inr ⟨rfl, hc⟩)

theorem reached (h : Opened row col ts) : Reached ⟨row, col⟩ ts where
  toOrdered := h.toOrdered
  ends t ht := by
    cases hm : t.isMargin with
    | true => exact h.margins t ht hm
    | false => exact .inl (h.before t ht hm)
  rowEnds t ht he := by
    have hm : t.isMargin = false := by
      cases t with
      | mk kind => cases kind <;> simp_all [Token.endsRow, Token.isMargin]
    exact h.before t ht hm

theorem margin (h : Opened row col ts) (hm : t.isMargin = true) (ht : t.Sound)
    (hs : t.start.row = row) (he : t.stop ≤ ⟨row, col⟩) : Opened row col (ts ++ [t]) where
  toOrdered := by
    refine h.toOrdered.concat ht fun u hu => ⟨fun hm' => ?_, fun he _ => ?_, fun hm' _ => ?_, fun _ => ?_⟩
    · rw [hm] at hm'
      cases hm'
    · exact hs ▸ h.reached.rowEnds u hu he
    · exact hs ▸ h.before u hu hm'
    · exact hs ▸ Position.row_le ((h.sound u hu).start_le_stop.trans (h.reached.ends u hu))
  before := by
    simpa [or_imp, forall_and, hm] using h.before
  margins := by
    simpa [or_imp, forall_and, hm, he] using h.margins

end Opened

/-! ### Lexemes -/

theorem NewlineLast.drop {cs : List Char} (h : NewlineLast cs) (n : Nat) : NewlineLast (cs.drop n) := by
  intro a b hab
  refine h (cs.take n ++ a) b ?_
  rw [List.append_assoc, ← hab, List.take_append_drop]

theorem newlineLast_of_notMem {cs : List Char} (h : '\n' ∉ cs) : NewlineLast cs := by
  rintro a b rfl
  exact absurd (List.mem_append_right a (List.mem_cons_self ..)) h

theorem newlineLast_concat {cs : List Char} (h : '\n' ∉ cs) : NewlineLast (cs ++ ['\n']) := by
  intro a b hab
  rcases List.eq_nil_or_concat b with rfl | ⟨b', x, rfl⟩
  · rfl
  · rw [List.concat_eq_append, ← List.cons_append, ← List.append_assoc] at hab
    have hcs : cs = a ++ '\n' :: b' := List.append_inj_left' hab rfl
    exact absurd (hcs ▸ List.mem_append_right a (List.mem_cons_self ..)) h

theorem drop_lineEnd {cs : List Char} (h : NewlineLast cs) (hn : lineEnd cs ≠ 0) :
    cs.drop (lineEnd cs) = [] := by
  unfold lineEnd at hn ⊢
  split at hn
  · exact h [] _ rfl
  · exact h ['\r'] _ rfl
  · exact absurd rfl hn

def lexedToken (row start : Nat) (inside : Bool) (kind : TokenKind) (text : List Char) : Token :=
  ⟨if kind = .newline && inside then .lineBreak else kind, String.ofList text, ⟨row, start⟩,
    ⟨row, start + text.length⟩⟩

theorem lexedToken_sound (row start : Nat) (inside : Bool) (kind : TokenKind) {text : List Char}
    (ht : 0 < text.length) : (lexedToken row start inside kind text).Sound where
  start_le_stop := .inr ⟨rfl, Nat.le_add_right ..⟩
  name _ := by
    rw [lexedToken, String.length_ofList]
    exact ⟨rfl, ht⟩
  oneRow _ := rfl

section

variable {cs : List Char} {kind : TokenKind} {n : Nat} (h : Lexeme.ofLine cs = .token kind n)
  (row start : Nat) (inside : Bool)

include h

theorem lexedToken_isMargin (text : List Char) :
    (lexedToken row start inside kind text).isMargin = false := by
  obtain ⟨hkind, -⟩ : (Lexeme.token kind n).Fits cs := h ▸ Lexeme.ofLine_fits cs
  unfold lexedToken Token.isMargin
  dsimp only
  split
  · rfl
  · cases kind <;> simp_all

theorem drop_of_endsRow (hl : NewlineLast cs) {text : List Char}
    (he : (lexedToken row start inside kind text).endsRow = true) : cs.drop (max n 1) = [] := by
  obtain ⟨hkind, hnewline, -⟩ : (Lexeme.token kind n).Fits cs := h ▸ Lexeme.ofLine_fits cs
  have hk : kind = .newline := by
    unfold lexedToken Token.endsRow at he
    dsimp only at he
    split at he
    · simp_all
    · cases kind <;> simp_all
  obtain ⟨rfl, hne⟩ := hnewline hk
  rw [show max (lineEnd cs) 1 = lineEnd cs by omega]
  exact drop_lineEnd hl hne

end

theorem closing_closes (o : OpenString) (line : List Char) :
    (if o.triple then Pattern.closingTriple o.quote line else Pattern.closingQuote o.quote line) ≠ 0 →
      Pattern.Closes o.quote line
        (if o.triple then Pattern.closingTriple o.quote line else Pattern.closingQuote o.quote line) := by
  split
  · exact Pattern.closingTriple_closes
  · exact Pattern.closingQuote_closes

/-! ### Texts -/

theorem closing_ordered {row : Nat} {last : List Char} {ts : List Token} (ho : Opened row 0 ts)
    (hpos : 0 < row) (hends : ∀ t ∈ ts, t.stop ≤ ⟨row - 1, last.length⟩) :
    Ordered (ts ++ closing row last s) := by
  have hdedents (indents : List Nat) {ts : List Token} (ho : Opened row 0 ts) :
      Opened row 0 (ts ++ indents.map fun _ => ⟨.dedent, "", ⟨row, 0⟩, ⟨row, 0⟩⟩) := by
    induction indents generalizing ts with
    | nil => simpa using ho
    | cons i is ih =>
      rw [List.map_cons, List.append_cons]
      exact ih (ho.margin rfl (.inRow (by decide) _ row (Nat.le_refl 0)) rfl (le_refl _))
  have hclosed {ts : List Token} (ho : Opened row 0 ts) :
      Ordered (ts ++ (s.indents.map fun _ => (⟨.dedent, "", ⟨row, 0⟩, ⟨row, 0⟩⟩ : Token)) ++
        [⟨.endMarker, "", ⟨row, 0⟩, ⟨row, 0⟩⟩]) :=
    ((hdedents s.indents ho).reached.concat (le_refl _) rfl
      (.inRow (by decide) _ row (Nat.le_refl 0)) rfl).toOrdered
  have hend (unended : Bool) : Ordered (ts ++ ((if unended then
      [(⟨.newline, "", ⟨row - 1, last.length⟩, ⟨row - 1, last.length + 1⟩⟩ : Token)] else []) ++
        (s.indents.map fun _ => (⟨.dedent, "", ⟨row, 0⟩, ⟨row, 0⟩⟩ : Token)) ++
        [⟨.endMarker, "", ⟨row, 0⟩, ⟨row, 0⟩⟩])) := by
    cases unended with
    | true =>
      -- the last row has no end: one is put behind all that is there
      rw [← List.append_assoc, ← List.append_assoc]
      refine hclosed ⟨ho.toOrdered.concat (.inRow (by decide) _ _ (Nat.le_succ _)) fun u hu => ?_, ?_, ?_⟩
      · exact ⟨fun _ => hends u hu, fun _ => nofun, fun _ => nofun, fun _ =>
          Position.row_le ((ho.sound u hu).start_le_stop.trans (hends u hu))⟩
      · have hrow : row - 1 < row := by omega
        simpa [or_imp, forall_and, hrow] using ho.before
      · simpa [or_imp, forall_and, Token.isMargin] using ho.margins
    | false =>
      rw [if_neg (by decide), List.nil_append, ← List.append_assoc]
      exact hclosed ho
  exact hend _

theorem scanFresh_stop {row : Nat} {s' : Scanner} (h : scanFresh row s acc line = .ok (.stop s' acc')) :
    s' = s ∧ acc' = acc := by
  unfold scanFresh at h
  dsimp only at h
  split at h
  · cases h
    exact ⟨rfl, rfl⟩
  · split at h
    · cases h
    · split at h
      · cases h
      · split at h
        · cases h
        · split at h <;> cases h

/-- Rows with a line end at their end only, which only the last may lack. -/
def Rows : List (Option (List Char)) → Prop
  | [] => True
  | r :: rs => (∀ line ∈ r, NewlineLast line ∧ (rs ≠ [] → line.getLast? = some '\n')) ∧ Rows rs

/-! ### Rows of a text -/

theorem newline_mem_utf8Char {c : Char} (h : '\n' ∈ (utf8Char c).map Char.ofNat) : c = '\n' := by
  obtain ⟨b, hb, hnl⟩ := List.mem_map.1 h
  have hbyte : b < 256 ∧ (c.toNat < 0x80 ∧ b = c.toNat ∨ 0x80 ≤ b) := by
    have hc : c.toNat < 0x110000 := by
      have : c.toNat.isValidChar := c.valid
      unfold Nat.isValidChar at this
      omega
    simp only [utf8Char] at hb
    split at hb <;> try split at hb
    all_goals try split at hb
    all_goals simp only [List.mem_cons, List.not_mem_nil, or_false] at hb; omega
  have hten : ∀ b < 256, Char.ofNat b = '\n' → b = 10 := by decide +kernel
  have := hten b hbyte.1 hnl
  obtain ⟨-, ⟨-, hbc⟩ | hlarge⟩ := hbyte
  · rw [← Char.ofNat_toNat c, ← hbc, hnl]
  · omega

theorem reread_row {e : Encoding} {cs ds : List Char} (h : e.reread cs = some ds) (hl : NewlineLast cs) :
    NewlineLast ds ∧ (cs.getLast? = some '\n' → ds.getLast? = some '\n') := by
  have hbytes : NewlineLast ((utf8Bytes cs).map Char.ofNat) ∧
      (cs.getLast? = some '\n' → ((utf8Bytes cs).map Char.ofNat).getLast? = some '\n') := by
    have hnone {cs : List Char} (h : '\n' ∉ cs) : '\n' ∉ (utf8Bytes cs).map Char.ofNat := by
      rw [utf8Bytes, List.map_flatMap]
      intro hmem
      obtain ⟨c, hc, hmem⟩ := List.mem_flatMap.1 hmem
      exact h (newline_mem_utf8Char hmem ▸ hc)
    rcases List.eq_nil_or_concat cs with rfl | ⟨init, x, rfl⟩
    · exact ⟨newlineLast_of_notMem (by simp [utf8Bytes]), nofun⟩
    · rw [List.concat_eq_append] at hl ⊢
      have hinit := hl.notMem
      by_cases hx : x = '\n'
      · rw [utf8Bytes, List.flatMap_append, List.map_append, hx]
        exact ⟨newlineLast_concat (hnone hinit), fun _ => List.getLast?_concat⟩
      · exact ⟨newlineLast_of_notMem (hnone (by simp [hinit, Ne.symm hx])), by simp [hx]⟩
  cases e with
  | utf8 => exact Option.some.inj h ▸ ⟨hl, id⟩
  | latin1 => exact Option.some.inj h ▸ hbytes
  | ascii =>
    unfold Encoding.reread Encoding.decode at h
    dsimp only at h
    split at h
    · exact Option.some.inj h ▸ hbytes
    · cases h

theorem cutRows_rows (e : Encoding) {row : List Char} (cs : List Char) (h : '\n' ∉ row) :
    Rows ((cutRows row cs).map e.reread) := by
  have hreverse : '\n' ∉ row.reverse := fun hmem => h (List.mem_reverse.1 hmem)
  induction cs generalizing row with
  | nil =>
    rw [cutRows]
    split
    · trivial
    · exact ⟨fun line hline => ⟨(reread_row hline (newlineLast_of_notMem hreverse)).1, fun h => absurd rfl h⟩, trivial⟩
  | cons c cs ih =>
    rw [cutRows]
    split
    · rename_i hc
      rw [List.reverse_cons, eq_of_beq hc]
      refine ⟨fun line hline => ?_, ih (by simp) (by simp)⟩
      obtain ⟨hlast, hended⟩ := reread_row hline (newlineLast_concat hreverse)
      exact ⟨hlast, fun _ => hended List.getLast?_concat⟩
    · rename_i hc
      have hrow : '\n' ∉ c :: row := by
        rw [List.mem_cons, not_or]
        exact ⟨fun hc' => hc (by rw [← hc']; rfl), h⟩
      exact ih hrow fun hmem => hrow (List.mem_reverse.1 hmem)

theorem map_eq_ok {ε α β : Type} {x : Except ε α} {f : α → β} {b : β} (h : x.map f = .ok b) :
    ∃ a, x = .ok a ∧ f a = b := by
  cases x with
  | error => cases h
  | ok a => exact ⟨a, rfl, Except.ok.inj h⟩

end LoopEscape
