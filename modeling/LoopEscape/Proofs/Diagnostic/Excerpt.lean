import LoopEscape.Diagnostic.Annotation
import LoopEscape.Proofs.Generate.Names
import LoopEscape.Proofs.Text.Lines
import Mathlib.Data.Bool.AllAny
import Mathlib.Data.List.GetD

/-!
# The layout of source annotations

An excerpt says which lines of a text are shown and how; its rows are what the annotation consists of,
one row for each line shown and one for the caret.  An annotation of a text in which only newlines end
lines is the rows of the excerpt (`annotateAround_rows`).
-/

namespace LoopEscape

open Text

/-- The line `line` of a text, counted from 1, with `context` lines on either side. -/
structure Excerpt where
  lines : List (List Char)
  line : Nat
  column : Option Nat
  context : Nat
  numbers : Bool

namespace Excerpt

variable (e : Excerpt)

def first : Nat := max 1 (e.line - e.context)

def last : Nat := min e.lines.length (e.line + e.context)

def before : List Nat := List.range' e.first (e.line + 1 - e.first)

def after : List Nat := List.range' (e.line + 1) (e.last - e.line)

def number (i : Nat) : List Char :=
  (if i = e.line then "---> ".toList else []) ++ (toString i).toList ++ [' ']

def width : Nat := ((e.before ++ e.after).map fun i => (e.number i).length).foldl max 0

def margin (i : Nat) : List Char :=
  if e.numbers then List.replicate (e.width - (e.number i).length) ' ' ++ e.number i else []

def bare (i : Nat) : List Char := dropBreak (e.lines.getD (i - 1) [])

def row (i : Nat) : List Char := trimRight (e.margin i ++ e.bare i)

def marker (c : Nat) : List Char := List.replicate ((e.margin e.line).length + c) '-' ++ ['^']

def rows : List (List Char) := e.before.map e.row ++ e.column.toList.map e.marker ++ e.after.map e.row

structure InRange : Prop where
  one_le : 1 ≤ e.line
  le_length : e.line ≤ e.lines.length

end Excerpt

/-! ## The line itself -/

/-- A line with no boundary but a newline, with or without a carriage return, at its end. -/
def Newlined (l : List Char) : Prop :=
  ∃ body, Unbroken body ∧ (body ≠ [] ∧ l = body ∨ l = body ++ ['\n'] ∨ l = body ++ ['\r', '\n'])

theorem newlined_of_isLine {l : List Char} (h : IsLine l) (hl : ∀ c ∈ l, isLineBreak c = true → c = '\n') :
    Newlined l := by
  rcases h with (@⟨body, c, hb, hc⟩ | @⟨body, hb⟩) | h
  · obtain rfl := hl c (by simp) hc
    exact ⟨body, hb, .inr (.inl rfl)⟩
  · exact ⟨body, hb, .inr (.inr rfl)⟩
  · exact ⟨l, h.2, .inl ⟨h.1, rfl⟩⟩

structure Closes (l l' : List Char) : Prop where
  ended : Terminated l'
  last : l'.getLast? = some '\n'
  head : l'.head? = l.head?
  bare : dropBreak l' = dropBreak l

theorem Newlined.endLine {l : List Char} (h : Newlined l) : Closes l (endLine l) := by
  obtain ⟨body, hb, ⟨hne, rfl⟩ | rfl | rfl⟩ := h
  · have hn : (l.drop (l.length - 2)).contains '\n' = false := by
      rw [List.contains_eq_mem, decide_eq_false_iff_not]
      exact fun hmem => absurd (hb _ (List.mem_of_mem_drop hmem)) (by decide)
    rw [LoopEscape.endLine, hn]
    refine ⟨.single hb (by decide), by simp, by simp [List.head?_append_of_ne_nil _ hne], ?_⟩
    exact (dropBreak_single hb (by decide)).trans (dropBreak_unbroken hb).symm
  · have hn : ((body ++ ['\n']).drop ((body ++ ['\n']).length - 2)).contains '\n' = true := by
      rw [List.contains_eq_mem, decide_eq_true_eq, List.drop_append_of_le_length (by simp)]
      simp
    rw [LoopEscape.endLine, hn]
    exact ⟨.single hb rfl, by simp, rfl, rfl⟩
  · have hn : ((body ++ ['\r', '\n']).drop ((body ++ ['\r', '\n']).length - 2)).contains '\n' = true := by
      simp
    rw [LoopEscape.endLine, hn]
    exact ⟨.pair hb, by simp, rfl, rfl⟩

theorem unbroken_caret (c : Nat) : Unbroken (List.replicate c '-' ++ ['^']) := by
  intro d hd
  simp only [List.mem_append, List.mem_replicate, List.mem_singleton] at hd
  rcases hd with ⟨-, rfl⟩ | rfl <;> decide

theorem slice_eq_map (ls : List (List Char)) {a b : Nat} (h : b ≤ ls.length) :
    (ls.take b).drop a = (List.range' (a + 1) (b - a)).map fun i => ls.getD (i - 1) [] := by
  refine List.ext_getElem (by simp; omega) fun k hk hk' => ?_
  simp only [List.length_drop, List.length_take] at hk
  simp [List.getElem_drop, List.getElem_take, List.getD_eq_getElem?_getD,
    List.getElem?_eq_getElem (show a + k < ls.length by omega), show a + 1 + k - 1 = a + k by omega]

/-! ## What is shown -/

theorem toList_repeated (s : String) (n : Nat) :
    (repeated s n).toList = (List.replicate n s.toList).flatten := by
  rw [repeated, String.toList_join, List.flatMap_def, List.map_replicate]

theorem toList_padLeft (width : Nat) (s : String) :
    (padLeft width s).toList = List.replicate (width - s.length) ' ' ++ s.toList := by
  rw [padLeft, String.toList_append, toList_repeated]
  simp

theorem le_foldl_max {n : Nat} {ns : List Nat} : ∀ {m : Nat}, n ≤ m ∨ n ∈ ns → n ≤ ns.foldl max m := by
  induction ns with
  | nil => simp
  | cons k ns ih =>
    intro m h
    refine ih ?_
    rcases h with h | h
    · exact .inl (by omega)
    · exact (List.mem_cons.1 h).imp (by omega) id

namespace Excerpt

variable {e : Excerpt}

theorem mem_before (h : e.InRange) : e.line ∈ e.before := by
  have := h.one_le
  simp only [before, first, List.mem_range'_1]
  omega

theorem length_margin {i : Nat} (hi : i ∈ e.before ++ e.after) :
    (e.margin i).length = if e.numbers then e.width else 0 := by
  have hwidth : (e.number i).length ≤ e.width := le_foldl_max (.inr (List.mem_map_of_mem hi))
  unfold margin
  split
  · simp; omega
  · rfl

theorem unbroken_number (i : Nat) : Unbroken (e.number i) := by
  have hdigits : Unbroken (toString i).toList := by
    intro c hc
    have hdigit := isDigit_of_mem_toString hc
    simp only [Char.isDigit, Bool.and_eq_true, decide_eq_true_eq, UInt32.le_iff_toNat_le] at hdigit
    have hlow : 48 ≤ c.toNat := hdigit.1
    have hhigh : c.toNat ≤ 57 := hdigit.2
    simp [isLineBreak]
    omega
  refine Unbroken.append (Unbroken.append ?_ hdigits) (by simp [Unbroken]; decide)
  split
  · simp [Unbroken]; decide
  · simp [Unbroken]

def pieces (e : Excerpt) : List (List Char) :=
  (e.lines.take (e.line - 1)).drop (e.first - 1) ++ endLine (e.lines.getD (e.line - 1) []) ::
    (e.column.toList.map (fun c => List.replicate c '-' ++ ['^', '\n']) ++
      (e.lines.take e.last).drop e.line)

def margins (e : Excerpt) : List (List Char) :=
  e.before.map e.margin ++ e.column.toList.map (fun _ => List.replicate (e.margin e.line).length '-') ++
    e.after.map e.margin

theorem cut_pieces (h : e.InRange) (hcut : Cut e.lines) (hline : Newlined (e.lines.getD (e.line - 1) [])) :
    Cut e.pieces := by
  have hpos := h.one_le
  have hlt : e.line - 1 < e.lines.length := by have := h.le_length; omega
  obtain ⟨hended, hlast, hhead, -⟩ := hline.endLine
  have hrest : Cut (endLine (e.lines.getD (e.line - 1) []) ::
      (e.column.toList.map (fun c => List.replicate c '-' ++ ['^', '\n']) ++
        (e.lines.take e.last).drop e.line)) := by
    refine Cut.newlined_cons ?_ hended hlast
    rcases e.column with _ | c
    · exact (hcut.take _).drop _
    · refine Cut.newlined_cons ((hcut.take _).drop _) ?_ (by simp)
      simpa using Terminated.single (c := '\n') (unbroken_caret c) (by decide)
  have hbefore := (hcut.take (e.line - 1)).drop (e.first - 1)
  refine ⟨hbefore.chain.append hrest.chain fun l hl next hnext => ?_, fun l hl => ?_⟩
  · -- The line before is followed by the line itself, which starts as its closed form does.
    obtain rfl : endLine (e.lines.getD (e.line - 1) []) = next := by simpa using hnext
    have hsplit : e.lines = e.lines.take (e.line - 1) ++ e.lines.drop (e.line - 1) := by simp
    have hchain := hcut.chain
    rw [hsplit, List.isChain_append] at hchain
    have hl' : l ∈ (e.lines.take (e.line - 1)).getLast? := by
      rw [List.getLast?_drop] at hl
      split at hl
      · cases hl
      · exact hl
    have hthis : e.lines.getD (e.line - 1) [] ∈ (e.lines.drop (e.line - 1)).head? := by
      simp [List.head?_drop, List.getD_eq_getElem?_getD, hlt]
    obtain ⟨hl, hparted⟩ := hchain.2.2 l hl' _ hthis
    exact ⟨hl, by rwa [Parted, hhead]⟩
  · rw [pieces, List.getLast?_append_of_ne_nil _ (by simp)] at hl
    exact hrest.last l hl

theorem map_dropBreak_pieces (h : e.InRange) (hline : Newlined (e.lines.getD (e.line - 1) [])) :
    e.pieces.map dropBreak = e.before.map e.bare ++
      e.column.toList.map (fun c => List.replicate c '-' ++ ['^']) ++ e.after.map e.bare := by
  have hpos := h.one_le
  have hle := h.le_length
  have hbefore : e.before.map e.bare = ((e.lines.take (e.line - 1)).drop (e.first - 1)).map dropBreak ++
      [e.bare e.line] := by
    have hfirst : 1 ≤ e.first ∧ e.first ≤ e.line := by unfold first; omega
    rw [slice_eq_map _ (by omega), before, show e.line + 1 - e.first = e.line - e.first + 1 by omega,
      List.range'_1_concat]
    simp [bare, Function.comp_def, show e.first - 1 + 1 = e.first by omega,
      show e.line - 1 - (e.first - 1) = e.line - e.first by omega,
      show e.first + (e.line - e.first) = e.line by omega]
  have hafter : e.after.map e.bare = ((e.lines.take e.last).drop e.line).map dropBreak := by
    rw [slice_eq_map _ (by unfold last; omega)]
    simp [after, bare, Function.comp_def]
  have hmark : (e.column.toList.map fun c => List.replicate c '-' ++ ['^', '\n']).map dropBreak =
      e.column.toList.map fun c => List.replicate c '-' ++ ['^'] := by
    rw [List.map_map]
    refine List.map_congr_left fun c _ => ?_
    simpa using dropBreak_single (unbroken_caret c) (c := '\n') (by decide)
  rw [hbefore, hafter, ← hmark, pieces, List.map_append, List.map_cons, List.map_append, hline.endLine.bare]
  simp [bare]

theorem zipWith_margins (e : Excerpt) :
    List.zipWith (· ++ ·) e.margins (e.before.map e.bare ++
      e.column.toList.map (fun c => List.replicate c '-' ++ ['^']) ++ e.after.map e.bare) =
    e.before.map (fun i => e.margin i ++ e.bare i) ++ e.column.toList.map e.marker ++
      e.after.map (fun i => e.margin i ++ e.bare i) := by
  rw [margins, List.zipWith_append (by simp), List.zipWith_append (by simp)]
  simp only [List.zipWith_map_left, List.zipWith_map_right, List.zipWith_self]
  simp [marker, ← List.append_assoc]

theorem map_trimRight (e : Excerpt) :
    (e.before.map (fun i => e.margin i ++ e.bare i) ++ e.column.toList.map e.marker ++
      e.after.map (fun i => e.margin i ++ e.bare i)).map trimRight = e.rows := by
  have hmarker (c : Nat) : trimRight (e.marker c) = e.marker c := by
    simp [trimRight, marker, show isBlank '^' = false by decide]
  simp only [rows, List.map_append, List.map_map, Function.comp_def, hmarker]
  rfl

theorem numberMargins_eq (h : e.InRange) (hnumbers : e.numbers = true) :
    (numberMargins e.first e.last e.line e.column.isSome).map String.toList = e.margins := by
  have hpos := h.one_le
  have hle := h.le_length
  have hfirst : e.first ≤ e.line := by unfold first; omega
  have hlast : e.line ≤ e.last := by unfold last; omega
  have hrange : List.range' e.first (e.last + 1 - e.first) = e.before ++ e.after := by
    have := List.range'_append_1 (s := e.first) (m := e.line + 1 - e.first) (n := e.last - e.line)
    rwa [show e.first + (e.line + 1 - e.first) = e.line + 1 by omega,
      show e.line + 1 - e.first + (e.last - e.line) = e.last + 1 - e.first by omega, eq_comm] at this
  have hnumber (i : Nat) : (if i = e.line then "---> " ++ toString i ++ " " else toString i ++ " ") =
      String.ofList (e.number i) := by
    rw [← String.toList_inj, String.toList_ofList, number]
    split <;> simp
  have hmargin (i : Nat) : (padLeft e.width (String.ofList (e.number i))).toList = e.margin i := by
    rw [toList_padLeft, margin, hnumbers]
    simp
  have hline : (e.margin e.line).length = e.width := by
    rw [length_margin (List.mem_append_left _ (mem_before h)), hnumbers]
    rfl
  have hwidth : ((e.before ++ e.after).map (String.length ∘ fun i => String.ofList (e.number i))).foldl max 0 =
      e.width := by
    simp [width, Function.comp_def]
  simp only [numberMargins, hnumber, hrange, List.map_map, hwidth]
  rcases hcolumn : e.column with _ | c
  · simp [margins, hcolumn, hmargin, Function.comp_def]
  · simp [margins, hcolumn, hmargin, Function.comp_def, toList_repeated, hline, before]

theorem length_margins (h : e.InRange) : e.margins.length = e.pieces.length := by
  have := h.one_le
  have := h.le_length
  simp [margins, pieces, before, after, first, last]
  omega

theorem unbroken_margin (i : Nat) : Unbroken (e.margin i) ∧ (e.margin i = [] ↔ e.numbers = false) := by
  unfold margin
  split
  · next hnumbers =>
    refine ⟨Unbroken.append (fun c hc => ?_) (unbroken_number i), by simp [number, hnumbers]⟩
    rw [(List.mem_replicate.1 hc).2]
    decide
  · next hnumbers => exact ⟨by simp [Unbroken], by simpa using hnumbers⟩

theorem margin_mem (e : Excerpt) : ∀ m ∈ e.margins, Unbroken m ∧ (m = [] ↔ e.numbers = false) := by
  intro m hm
  simp only [margins, List.mem_append, List.mem_map] at hm
  rcases hm with (⟨i, -, rfl⟩ | ⟨c, -, rfl⟩) | ⟨i, -, rfl⟩
  · exact unbroken_margin i
  · refine ⟨fun d hd => ?_, by simpa using (unbroken_margin e.line).2⟩
    rw [(List.mem_replicate.1 hd).2]
    decide
  · exact unbroken_margin i

theorem cut_margins (h : e.InRange) (hcut : Cut e.pieces) : Cut (List.zipWith (· ++ ·) e.margins e.pieces) ∧
    (e.numbers = false → List.zipWith (· ++ ·) e.margins e.pieces = e.pieces) := by
  have hms := e.margin_mem
  have hplain : e.numbers = false → List.zipWith (· ++ ·) e.margins e.pieces = e.pieces := by
    intro hnumbers
    rw [List.eq_replicate_of_mem fun m hm => (hms m hm).2.2 hnumbers, e.length_margins h]
    exact List.ext_getElem (by simp) fun k _ _ => by simp
  refine ⟨?_, hplain⟩
  by_cases hnumbers : e.numbers = false
  · rwa [hplain hnumbers]
  · exact hcut.margins fun m hm => ⟨(hms m hm).1, fun hnil => hnumbers ((hms m hm).2.1 hnil)⟩

end Excerpt

theorem indentText_each {ms : List String} {ls : List (List Char)} (h : Cut ls) (hlength : ms.length = ls.length) :
    indentText (String.ofList ls.flatten) (some (.each ms)) 1 =
      .ok (String.ofList (List.zipWith (· ++ ·) (ms.map String.toList) ls).flatten) := by
  have hrepeated (s : String) : repeated s 1 = s := by simp [repeated]
  have hjoin : ∀ (ms : List String) (ls : List (List Char)),
      String.join (List.zipWith (fun m l => m ++ String.ofList l) ms ls) =
        String.ofList (List.zipWith (· ++ ·) (ms.map String.toList) ls).flatten := by
    intro ms ls
    rw [← String.toList_inj, String.toList_join, String.toList_ofList, List.flatMap_def, List.map_zipWith,
      List.zipWith_map_left]
    simp
  simp [indentText, h.lines_flatten, hlength, hrepeated, List.zipWith_map_right, hjoin]

theorem annotate_eq {source : String} {e : Excerpt} (hlines : e.lines = lines source.toList) (h : e.InRange)
    (hline : Newlined (e.lines.getD (e.line - 1) [])) :
    annotate source e.line (e.column.map (↑)) e.context e.numbers =
      .ok ("\n".intercalate (e.rows.map String.ofList)) := by
  have hpos := h.one_le
  have hle := h.le_length
  have hcut : Cut e.pieces := e.cut_pieces h (hlines ▸ cut_lines _) hline
  -- The text with its margins is cut into the pieces, each with its own margin.
  obtain ⟨hqs, hplain⟩ := e.cut_margins h hcut
  have hrows : ((List.zipWith (· ++ ·) e.margins e.pieces).map dropBreak).map trimRight = e.rows := by
    rw [map_dropBreak_margins (fun m hm => (e.margin_mem m hm).1) hcut.isLine, e.map_dropBreak_pieces h hline,
      e.zipWith_margins, e.map_trimRight]
  have htext : (if e.numbers then indentText (String.ofList e.pieces.flatten)
      (some (.each (numberMargins e.first e.last e.line e.column.isSome))) 1
      else .ok (String.ofList e.pieces.flatten)) =
      .ok (String.ofList (List.zipWith (· ++ ·) e.margins e.pieces).flatten) := by
    split
    · next hnumbers =>
      have hms := e.numberMargins_eq h hnumbers
      rw [indentText_each hcut (by rw [← e.length_margins h, ← hms, List.length_map]), hms]
    · next hnumbers => rw [hplain (by simpa using hnumbers)]
  have hfirst : e.line - 1 - e.context = e.first - 1 := by unfold Excerpt.first; omega
  have hlast : min e.lines.length (e.line - 1 + e.context + 1) = e.last := by unfold Excerpt.last; congr 1; omega
  have hone : e.first - 1 + 1 = e.first := by unfold Excerpt.first; omega
  have hshown (mark : List Char)
      (hmark : mark = (e.column.toList.map fun c => List.replicate c '-' ++ ['^', '\n']).flatten) :
      ((e.lines.take (e.line - 1)).drop (e.first - 1)).flatten ++ endLine (e.lines.getD (e.line - 1) []) ++
        mark ++ ((e.lines.take e.last).drop (e.line - 1 + 1)).flatten = e.pieces.flatten := by
    simp [Excerpt.pieces, hmark, show e.line - 1 + 1 = e.line by omega]
  have hcount : e.last - (e.first - 1) + (if e.column.isSome then 1 else 0) = e.pieces.length := by
    rw [← e.length_margins h]
    cases hcolumn : e.column <;>
      simp [Excerpt.margins, Excerpt.before, Excerpt.after, Excerpt.first, Excerpt.last, hcolumn] <;> omega
  have hrange : ((e.line : Int) < 1 || (e.lines.length : Int) < e.line) = false := by simp; omega
  unfold annotate
  simp only [← hlines, hrange, Int.toNat_natCast, hfirst, hlast, hone, Option.isSome_map]
  rw [hshown, htext]
  · simp [Except.map, bareLines, hqs.lines_flatten, hcount, e.length_margins h, ← hrows]
  · cases e.column <;> simp

theorem newlined_rows {cs : List Char} (h : ∀ c ∈ cs, isLineBreak c = true → c = '\n') :
    ∀ r ∈ rows cs, Newlined r := by
  intro r hr
  refine newlined_of_isLine ((cut_lines cs).isLine r (lines_eq_rows h ▸ hr)) fun c hc => h c ?_
  rw [← flatten_rows cs]
  exact List.mem_flatten.2 ⟨r, hr, hc⟩

/-- Where only newlines end lines, the annotation of a line that exists is the rows of its excerpt. -/
theorem annotateAround_rows (source : String) (hsource : ∀ c ∈ source.toList, isLineBreak c = true → c = '\n')
    (line : Nat) (hpos : 1 ≤ line) (hle : line ≤ (rows source.toList).length) (column : Option Nat)
    (context : Nat) (numbers : Bool) :
    annotateAround source line (column.map (↑)) context numbers =
      .ok ("\n".intercalate
        ((Excerpt.mk (rows source.toList) line column context numbers).rows.map String.ofList)) := by
  have hlines := lines_eq_rows hsource
  have hline : Newlined ((rows source.toList).getD (line - 1) []) := by
    rw [List.getD_eq_getElem _ _ (by omega)]
    exact newlined_rows hsource _ (List.getElem_mem _)
  have hshown (numbers : Bool) :=
    annotate_eq (e := ⟨rows source.toList, line, column, context, numbers⟩) hlines.symm ⟨hpos, hle⟩ hline
  have hcontext : ¬(context : Int) < 0 := by omega
  cases numbers with
  | false => simp [annotateAround, hshown]
  | true => simp [annotateAround, hshown, hcontext, bind, Except.bind]

theorem annotateAround_rows_indented : annotateAround "one\n  two \nthree\n" 2 (some 2) 1 true =
    .ok "     1 one\n---> 2   two\n---------^\n     3 three" :=
  (annotateAround_rows "one\n  two \nthree\n" (List.all_iff_forall_prop.1 (by decide +kernel)) 2 (by decide)
    (by decide +kernel) (some 2) 1 true).trans (congrArg _ (by decide +kernel))

end LoopEscape
