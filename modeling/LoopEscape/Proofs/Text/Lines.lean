import LoopEscape.Text.Lines
import LoopEscape.Token.Scan
import Mathlib.Data.List.Chain

/-!
# The cut of a text into lines

`Cut` says which lists are the lines of some text: every line but the last ends in a boundary, and no
boundary goes on in the line after it.  The lines of a text are such a list (`cut_lines`), and such a
list is what its text is cut into again (`Cut.lines_flatten`).
-/

namespace LoopEscape.Text

def Unbroken (cs : List Char) : Prop := ∀ c ∈ cs, isLineBreak c = false

inductive Terminated : List Char → Prop
  | single {body : List Char} {c : Char} : Unbroken body → isLineBreak c = true → Terminated (body ++ [c])
  | pair {body : List Char} : Unbroken body → Terminated (body ++ ['\r', '\n'])

def IsLine (l : List Char) : Prop := Terminated l ∨ l ≠ [] ∧ Unbroken l

def Parted (l next : List Char) : Prop := l.getLast? = some '\r' → next.head? ≠ some '\n'

structure Cut (ls : List (List Char)) : Prop where
  chain : ls.IsChain fun l next => Terminated l ∧ Parted l next
  last : ∀ l ∈ ls.getLast?, IsLine l

variable {l m cs : List Char} {ls : List (List Char)}

theorem IsLine.ne_nil (h : IsLine l) : l ≠ [] := by
  rcases h with (_ | _) | h
  · simp
  · simp
  · exact h.1

theorem Cut.isLine (h : Cut ls) : ∀ l ∈ ls, IsLine l := by
  induction ls with
  | nil => simp
  | cons l ls ih =>
    cases ls with
    | nil => simpa using h.last
    | cons next ls =>
      obtain ⟨hl, hchain⟩ := List.isChain_cons_cons.1 h.chain
      rintro _ (_ | ⟨_, hmem⟩)
      · exact .inl hl.1
      · exact ih ⟨hchain, fun k hk => h.last k (by simpa using hk)⟩ _ hmem

theorem cutLines_unbroken (h : Unbroken m) : ∀ line, cutLines line (m ++ cs) = cutLines (m.reverse ++ line) cs := by
  induction m with
  | nil => simp
  | cons c m ih =>
    intro line
    have hc : isLineBreak c = false := h c (by simp)
    have hstep : cutLines line (c :: (m ++ cs)) = cutLines (c :: line) (m ++ cs) := by
      rw [cutLines]
      · simp [hc]
      · rintro _ rfl
        cases hc
    simpa [hstep] using ih (fun d hd => h d (by simp [hd])) (c :: line)

theorem lines_append (h : Terminated l) (hcs : Parted l cs) : lines (l ++ cs) = l :: lines cs := by
  rw [lines]
  cases h with
  | @single body c hb hc =>
    rw [List.append_assoc, cutLines_unbroken hb, List.append_nil, List.singleton_append, cutLines]
    · simp [hc, lines]
    · rintro _ rfl rfl
      exact hcs (by simp) rfl
  | pair hb => simp [cutLines_unbroken hb, cutLines, lines]

theorem lines_unbroken (hl : l ≠ []) (h : Unbroken l) : lines l = [l] := by
  have hcut : cutLines [] (l ++ []) = cutLines (l.reverse ++ []) [] := cutLines_unbroken h []
  simpa [lines, cutLines, hl] using hcut

theorem IsLine.lines_eq (h : IsLine l) : lines l = [l] := by
  rcases h with h | h
  · have hcut : lines (l ++ []) = l :: lines [] := lines_append h (by simp [Parted])
    simpa [lines, cutLines] using hcut
  · exact lines_unbroken h.1 h.2

theorem Cut.lines_flatten (h : Cut ls) : lines ls.flatten = ls := by
  induction ls with
  | nil => rfl
  | cons l ls ih =>
    cases ls with
    | nil => simpa using (h.isLine l (by simp)).lines_eq
    | cons next ls =>
      obtain ⟨hl, hchain⟩ := List.isChain_cons_cons.1 h.chain
      have hrest : Cut (next :: ls) := ⟨hchain, fun k hk => h.last k (by simpa using hk)⟩
      obtain ⟨c, next', rfl⟩ := List.exists_cons_of_ne_nil (hrest.isLine next (by simp)).ne_nil
      rw [List.flatten_cons, lines_append hl.1 (by simpa [Parted] using hl.2), ih hrest]

theorem Cut.cons (h : Cut (lines cs)) (hl : Terminated l) (hcs : Parted l cs) : Cut (l :: lines cs) := by
  have hflat := flatten_lines cs
  rcases hls : lines cs with _ | ⟨next, ls⟩
  · exact ⟨by simp, by simpa [IsLine] using Or.inl hl⟩
  · rw [hls] at h hflat
    obtain ⟨c, next', rfl⟩ := List.exists_cons_of_ne_nil (h.isLine next (by simp)).ne_nil
    refine ⟨List.isChain_cons_cons.2 ⟨⟨hl, ?_⟩, h.chain⟩, fun k hk => h.last k (by simpa using hk)⟩
    rw [← hflat] at hcs
    simpa [Parted] using hcs

theorem cut_cutLines (line cs : List Char) (h : Unbroken line) : Cut (cutLines line cs) := by
  have hreverse {line : List Char} (h : Unbroken line) : Unbroken line.reverse :=
    fun c hc => h c (List.mem_reverse.1 hc)
  fun_induction cutLines line cs with
  | case1 line hline => exact ⟨by simp, by simp⟩
  | case2 line hline => exact ⟨by simp, by simpa [IsLine, hreverse h] using Or.inr (by simpa using hline)⟩
  | case3 line cs ih =>
    refine (ih (by simp [Unbroken])).cons ?_ ?_
    · simpa using Terminated.pair (hreverse h)
    · simp [Parted]
  | case4 line c cs hpair hc ih =>
    refine (ih (by simp [Unbroken])).cons ?_ ?_
    · simpa using Terminated.single (hreverse h) hc
    · intro hlast hhead
      obtain ⟨tail, rfl⟩ := List.head?_eq_some_iff.1 hhead
      exact hpair tail (by simpa using hlast) rfl
  | case5 line c cs _ hc ih =>
    exact ih fun d hd => (List.mem_cons.1 hd).elim (fun e => e ▸ by simpa using hc) (h d)

theorem cut_lines (cs : List Char) : Cut (lines cs) := cut_cutLines [] cs (by simp [Unbroken])

theorem Cut.take (h : Cut ls) (k : Nat) : Cut (ls.take k) :=
  ⟨h.chain.take k, fun l hl => h.isLine l (List.mem_of_mem_take (List.mem_of_getLast? hl))⟩

theorem Cut.drop (h : Cut ls) (k : Nat) : Cut (ls.drop k) :=
  ⟨h.chain.drop k, fun l hl => h.isLine l (List.mem_of_mem_drop (List.mem_of_getLast? hl))⟩

theorem Cut.newlined_cons (h : Cut ls) (hl : Terminated l)
    (hlast : l.getLast? = some '\n') : Cut (l :: ls) := by
  refine ⟨h.chain.cons fun next _ => ⟨hl, by simp [Parted, hlast]⟩, fun k hk => ?_⟩
  rcases ls with _ | ⟨next, ls⟩
  · obtain rfl : l = k := by simpa using hk
    exact .inl hl
  · exact h.last k (by simpa using hk)

theorem lines_newline_append (h : m.getLast? = some '\n') : lines (m ++ cs) = lines m ++ lines cs := by
  have hnewline : ∀ l ∈ (lines m).getLast?, Terminated l ∧ l.getLast? = some '\n' := by
    intro l hl
    obtain ⟨before, hbefore⟩ := List.getLast?_eq_some_iff.1 hl
    have hline := (cut_lines m).isLine l (List.mem_of_getLast? hl)
    have hlast : l.getLast? = some '\n' := by
      rw [← flatten_lines m, hbefore, List.flatten_append, List.flatten_singleton,
        List.getLast?_append_of_ne_nil _ hline.ne_nil] at h
      exact h
    exact ⟨hline.resolve_right fun hl => absurd (hl.2 _ (List.mem_of_getLast? hlast)) (by decide), hlast⟩
  have hcut : Cut (lines m ++ lines cs) := by
    refine ⟨(cut_lines m).chain.append (cut_lines cs).chain fun l hl next _ => ?_, fun l hl => ?_⟩
    · exact ⟨(hnewline l hl).1, by simp [Parted, (hnewline l hl).2]⟩
    · exact (List.mem_append.1 (List.mem_of_getLast? hl)).elim ((cut_lines m).isLine l) ((cut_lines cs).isLine l)
  simpa [flatten_lines] using hcut.lines_flatten

/-! ## Boundaries and margins -/

theorem dropBreak_single (hm : Unbroken m) {c : Char} (hc : isLineBreak c = true) :
    dropBreak (m ++ [c]) = m := by
  rw [dropBreak, List.reverse_append]
  rcases hrev : m.reverse with _ | ⟨d, rest⟩
  · obtain rfl := List.reverse_eq_nil_iff.1 hrev
    simp [hc]
  · obtain rfl : m = rest.reverse ++ [d] := by rw [← List.reverse_reverse m, hrev, List.reverse_cons]
    have hd : d ≠ '\r' := by
      rintro rfl
      exact absurd (hm '\r' (by simp)) (by decide)
    simp [hc, hd]

theorem dropBreak_pair : dropBreak (m ++ ['\r', '\n']) = m := by
  simp [dropBreak]

theorem dropBreak_unbroken (h : Unbroken l) : dropBreak l = l := by
  rw [dropBreak]
  rcases hrev : l.reverse with _ | ⟨c, rest⟩
  · simpa using hrev.symm
  · have hc : isLineBreak c = false := h c (List.mem_reverse.1 (hrev ▸ List.mem_cons_self))
    have hn : c ≠ '\n' := by
      rintro rfl
      cases hc
    simp [hc, hn]

theorem IsLine.unbroken_dropBreak (h : IsLine l) : Unbroken (dropBreak l) := by
  rcases h with (@⟨body, c, hb, hc⟩ | @⟨body, hb⟩) | h
  · rwa [dropBreak_single hb hc]
  · rwa [dropBreak_pair]
  · rw [dropBreak_unbroken h.2]
    exact h.2

theorem Unbroken.append (hm : Unbroken m) (hl : Unbroken l) : Unbroken (m ++ l) :=
  fun c hc => (List.mem_append.1 hc).elim (hm c) (hl c)

theorem Terminated.margin (hm : Unbroken m) (hl : Terminated l) : Terminated (m ++ l) := by
  cases hl with
  | single hb hc => simpa using Terminated.single (hm.append hb) hc
  | pair hb => simpa using Terminated.pair (hm.append hb)

theorem IsLine.margin (hm : Unbroken m) (hl : IsLine l) : IsLine (m ++ l) :=
  hl.imp (.margin hm) fun h => ⟨by simp [h.1], hm.append h.2⟩

theorem dropBreak_margin (hm : Unbroken m) (hl : IsLine l) : dropBreak (m ++ l) = m ++ dropBreak l := by
  rcases hl with (@⟨body, c, hb, hc⟩ | @⟨body, hb⟩) | h
  · rw [← List.append_assoc, dropBreak_single (hm.append hb) hc, dropBreak_single hb hc]
  · rw [← List.append_assoc, dropBreak_pair, dropBreak_pair]
  · rw [dropBreak_unbroken h.2, dropBreak_unbroken (hm.append h.2)]

theorem map_dropBreak_margins {ms : List (List Char)} (hms : ∀ m ∈ ms, Unbroken m) (h : ∀ l ∈ ls, IsLine l) :
    (List.zipWith (· ++ ·) ms ls).map dropBreak = List.zipWith (· ++ ·) ms (ls.map dropBreak) := by
  induction ms generalizing ls with
  | nil => simp
  | cons m ms ih =>
    rcases ls with _ | ⟨l, ls⟩
    · simp
    · obtain ⟨hm, hms⟩ := List.forall_mem_cons.1 hms
      obtain ⟨hl, h⟩ := List.forall_mem_cons.1 h
      simp [dropBreak_margin hm hl, ih hms h]

theorem Cut.margins {ms : List (List Char)} (hms : ∀ m ∈ ms, Unbroken m ∧ m ≠ []) (h : Cut ls) :
    Cut (List.zipWith (· ++ ·) ms ls) := by
  induction ls generalizing ms with
  | nil => simpa using h
  | cons l ls ih =>
    rcases ms with _ | ⟨m, ms⟩
    · exact ⟨by simp, by simp⟩
    have hm := (hms m (by simp)).1
    rcases ls with _ | ⟨next, ls⟩
    · exact ⟨by simp, by simpa using (h.isLine l (by simp)).margin hm⟩
    rcases ms with _ | ⟨m', ms⟩
    · exact ⟨by simp, by simpa using (h.isLine l (by simp)).margin hm⟩
    obtain ⟨hl, hchain⟩ := List.isChain_cons_cons.1 h.chain
    have hrest : Cut (List.zipWith (· ++ ·) (m' :: ms) (next :: ls)) :=
      ih (fun k hk => hms k (List.mem_cons_of_mem _ hk)) ⟨hchain, fun k hk => h.last k (by simpa using hk)⟩
    refine ⟨List.isChain_cons_cons.2 ⟨⟨hl.1.margin hm, fun _ hhead => ?_⟩, hrest.chain⟩,
      fun k hk => hrest.last k (by simpa using hk)⟩
    -- The next line starts with its margin, which is no boundary.
    obtain ⟨hplain, hne⟩ := hms m' (by simp)
    obtain ⟨c, m', rfl⟩ := List.exists_cons_of_ne_nil hne
    obtain rfl : c = '\n' := by simpa using hhead
    exact absurd (hplain '\n' (by simp)) (by decide)

/-! ## Rows -/

theorem lines_eq_rows (h : ∀ c ∈ cs, isLineBreak c = true → c = '\n') : lines cs = rows cs := by
  suffices hcut : ∀ line, cutLines line cs = cutRows line cs from hcut []
  induction cs with
  | nil => intro line; simp [cutLines, cutRows]
  | cons c cs ih =>
    intro line
    have hrest := ih fun d hd => h d (List.mem_cons_of_mem _ hd)
    have hc : isLineBreak c = (c == '\n') := by
      rw [Bool.eq_iff_iff, beq_iff_eq]
      exact ⟨h c (by simp), fun e => e ▸ by decide⟩
    rw [cutLines]
    · simp only [cutRows, hc, hrest]
    · rintro _ rfl
      cases hc

theorem rows_append (cs : List Char) : ∃ whole left, cs = whole.flatten ++ left ∧ '\n' ∉ left ∧
    (∀ r ∈ whole, r.getLast? = some '\n') ∧ ∀ more, rows (cs ++ more) = whole ++ cutRows left.reverse more := by
  induction cs using List.reverseRecOn with
  | nil => exact ⟨[], [], by simp [rows]⟩
  | append_singleton cs c ih =>
    obtain ⟨whole, left, rfl, hleft, hwhole, hrows⟩ := ih
    by_cases hc : c = '\n'
    · subst hc
      refine ⟨whole ++ [left ++ ['\n']], [], by simp, by simp, fun r hr => ?_, fun more => ?_⟩
      · rcases List.mem_append.1 hr with hr | hr
        · exact hwhole r hr
        · simp [List.mem_singleton.1 hr]
      · rw [List.append_assoc, hrows, List.singleton_append, cutRows]
        simp
    · refine ⟨whole, left ++ [c], by simp, by simp [hleft, Ne.symm hc], hwhole, fun more => ?_⟩
      rw [List.append_assoc, hrows, List.singleton_append, cutRows]
      simp [hc]

end LoopEscape.Text
