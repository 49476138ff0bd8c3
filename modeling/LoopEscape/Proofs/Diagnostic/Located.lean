import LoopEscape.Dialect.Strip
import LoopEscape.Proofs.Diagnostic.Excerpt

/-!
# The line that an error is on

The scanner counts rows, which only newlines end, and an annotation counts lines, which other characters
end as well.  Where the two agree up to the row of a fault, the report on it shows that row, with the caret
below the column of the fault (`located_fault`).
-/

namespace LoopEscape

open Text

def StripFault.position? : StripFault → Option Position
  | .dialect fault => some fault.at_
  | .pragma _ p => some p
  | .scan (.openString p) => some p
  | _ => none

def Position.excerpt (d : Display) (source : String) (p : Position) : Excerpt :=
  ⟨lines (source ++ " ").toList, p.row, some p.col, d.context, d.numbers⟩

def indentedRow (row : List Char) : String :=
  (if row.all isBlank then "" else "  ") ++ String.ofList row ++ "\n"

/-! ## Rows and lines -/

section

variable {cs : List Char} {row : Nat}

theorem lines_whole {rs : List (List Char)} (h : ∀ r ∈ rs, Newlined r ∧ r.getLast? = some '\n')
    (rest : List Char) : lines (rs.flatten ++ rest) = rs ++ lines rest := by
  induction rs with
  | nil => rfl
  | cons r rs ih =>
    obtain ⟨⟨hr, hlast⟩, hrs⟩ := List.forall_mem_cons.1 h
    have hended : Terminated r := by
      obtain ⟨body, hb, ⟨-, rfl⟩ | rfl | rfl⟩ := hr
      · exact absurd (hb _ (List.mem_of_getLast? hlast)) (by decide)
      · exact .single hb (by decide)
      · exact .pair hb
    rw [List.flatten_cons, List.append_assoc, lines_append hended (by simp [Parted, hlast]), ih hrs, List.cons_append]

theorem Newlined.unbroken {r : List Char} (h : Newlined r) (hr : '\n' ∉ r) : Unbroken r := by
  obtain ⟨body, hb, ⟨-, rfl⟩ | rfl | rfl⟩ := h
  · exact hb
  · simp at hr
  · simp at hr

theorem line_eq_row (hrow : row ≤ (rows (cs ++ [' '])).length) (h : ∀ r ∈ (rows cs).take row, Newlined r) :
    row ≤ (lines (cs ++ [' '])).length ∧ ∀ i < row, ∃ r, (rows cs).getD i [] = r ∧
      ((lines (cs ++ [' '])).getD i [] = r ∧ Newlined r ∨
        (lines (cs ++ [' '])).getD i [] = r ++ [' '] ∧ Unbroken r) := by
  obtain ⟨whole, left, hcs, hleft, hwhole, happend⟩ := rows_append cs
  have hrows : rows cs = whole ++ if left = [] then [] else [left] := by
    simpa [cutRows] using happend []
  have hblank : rows (cs ++ [' ']) = whole ++ [left ++ [' ']] := by
    simpa [cutRows] using happend [' ']
  rw [hblank, List.length_append, List.length_singleton] at hrow
  rw [hrows] at h ⊢
  have hnewlined : ∀ r ∈ whole.take row, Newlined r ∧ r.getLast? = some '\n' := fun r hr =>
    ⟨h r (by rw [List.take_append]; exact List.mem_append_left _ hr), hwhole r (List.mem_of_mem_take hr)⟩
  have hunbroken (hlt : whole.length < row) : Unbroken left := by
    by_cases hnil : left = []
    · simp [hnil, Unbroken]
    · refine (h left ?_).unbroken hleft
      rw [List.take_of_length_le (by simp [hnil]; omega)]
      simp [hnil]
  -- Up to the row the lines are the rows; the last row has the blank behind it.
  obtain ⟨more, hlines⟩ : ∃ more, lines (cs ++ [' ']) = (whole ++ [left ++ [' ']]).take row ++ more := by
    by_cases hlt : whole.length < row
    · have hlast : Unbroken (left ++ [' ']) := (hunbroken hlt).append (by simp [Unbroken]; decide)
      refine ⟨[], ?_⟩
      rw [List.take_of_length_le hlt.le] at hnewlined
      rw [List.append_nil, List.take_of_length_le (by simp; omega), hcs, List.append_assoc, lines_whole hnewlined,
        lines_unbroken (by simp) hlast]
    · refine ⟨lines ((whole.drop row).flatten ++ left ++ [' ']), ?_⟩
      rw [List.take_append_of_le_length (by omega), ← lines_whole hnewlined, hcs, ← List.append_assoc,
        ← List.append_assoc, ← List.flatten_append, List.take_append_drop]
  refine ⟨by rw [hlines]; simp; omega, fun i hi => ⟨_, rfl, ?_⟩⟩
  have hline : (lines (cs ++ [' '])).getD i [] = (whole ++ [left ++ [' ']]).getD i [] := by
    rw [hlines, List.getD_append _ _ _ _ (by simp; omega)]
    simp [List.getD_eq_getElem?_getD, hi]
  rw [hline]
  by_cases hlt : i < whole.length
  · rw [List.getD_append _ _ _ _ hlt, List.getD_append _ _ _ _ hlt, List.getD_eq_getElem _ _ hlt]
    exact .inl ⟨rfl, (hnewlined _ (List.mem_take_iff_getElem.2 ⟨i, by omega, rfl⟩)).1⟩
  · obtain rfl : i = whole.length := by omega
    refine .inr ⟨?_, ?_⟩
    · by_cases hnil : left = [] <;> simp [hnil]
    · by_cases hnil : left = []
      · simp [hnil, Unbroken]
      · simpa [hnil] using hunbroken hi

theorem trimRight_blank (m : List Char) : trimRight (m ++ [' ']) = trimRight m := by
  simp [trimRight, show isBlank ' ' = true by decide]

end

section

variable {source : String} {p : Position} {d : Display}

theorem excerpt_line (hrow : p.row ≤ (rows (source ++ " ").toList).length)
    (h : ∀ r ∈ (rows source.toList).take p.row, Newlined r) (hpos : 1 ≤ p.row) :
    (p.excerpt d source).InRange ∧
      Newlined ((p.excerpt d source).lines.getD ((p.excerpt d source).line - 1) []) ∧
      ∀ i, 1 ≤ i → i ≤ p.row → (p.excerpt d source).row i =
        trimRight ((p.excerpt d source).margin i ++ dropBreak ((rows source.toList).getD (i - 1) [])) := by
  have htext : (source ++ " ").toList = source.toList ++ [' '] := by simp
  rw [htext] at hrow
  obtain ⟨hle, hlines⟩ := line_eq_row hrow h
  have hlines' : (p.excerpt d source).lines = lines (source.toList ++ [' ']) := congrArg lines htext
  refine ⟨⟨hpos, hlines' ▸ hle⟩, ?_, fun i hi hip => ?_⟩
  · rw [hlines']
    obtain ⟨r, -, ⟨hr, hn⟩ | ⟨hr, hu⟩⟩ := hlines (p.row - 1) (by omega)
    · exact hr ▸ hn
    · refine hr ▸ ⟨_, hu.append (l := [' ']) (by simp [Unbroken]; decide), .inl ⟨by simp, rfl⟩⟩
  · rw [Excerpt.row, Excerpt.bare, hlines']
    obtain ⟨r, hr, ⟨hl, -⟩ | ⟨hl, hu⟩⟩ := hlines (i - 1) (by omega)
    · rw [hl, hr]
    · rw [hl, hr, dropBreak_unbroken hu, dropBreak_unbroken (hu.append (by simp [Unbroken]; decide)), ← List.append_assoc,
        trimRight_blank]

/-! ## The text of a report -/

theorem indentLines_head (margin head text : String) :
    indentLines margin (head ++ " \n" ++ text ++ "\n") =
      indentLines margin (head ++ " \n") ++ indentLines margin (text ++ "\n") := by
  have hlast : (head ++ " \n").toList.getLast? = some '\n' := by simp
  rw [String.append_assoc, indentLines, String.toList_append, lines_newline_append hlast, List.map_append,
    String.join_append]
  rfl

theorem indentLines_rows {rs : List (List Char)} (hne : rs ≠ []) (h : ∀ r ∈ rs, Unbroken r) :
    indentLines "  " ("\n".intercalate (rs.map String.ofList) ++ "\n") = String.join (rs.map indentedRow) := by
  have htext : ("\n".intercalate (rs.map String.ofList) ++ "\n").toList = (rs.map (· ++ ['\n'])).flatten := by
    induction rs with
    | nil => exact absurd rfl hne
    | cons r rs ih =>
      rcases rs with _ | ⟨r', rs⟩
      · simp
      · have hrest := ih (by simp) fun k hk => h k (List.mem_cons_of_mem _ hk)
        simp only [List.map_cons, String.intercalate_cons_cons, String.append_assoc] at hrest ⊢
        rw [String.toList_append, String.toList_append, hrest]
        simp
  have hcut : Cut (rs.map (· ++ ['\n'])) := by
    clear hne htext
    induction rs with
    | nil => exact ⟨by simp, by simp⟩
    | cons r rs ih =>
      obtain ⟨hr, hrs⟩ := List.forall_mem_cons.1 h
      exact (ih hrs).newlined_cons (.single hr (by decide)) (by simp)
  rw [indentLines, htext, hcut.lines_flatten, List.map_map]
  refine congrArg String.join (List.map_congr_left fun r _ => ?_)
  have hall : (r ++ ['\n']).all isBlank = r.all isBlank := by simp [show isBlank '\n' = true by decide]
  rw [Function.comp_apply, hall, indentedRow]
  split <;> simp [← String.toList_inj]

theorem unbroken_rows {e : Excerpt} (h : Cut e.lines) : ∀ r ∈ e.rows, Unbroken r := by
  have hrow (i : Nat) : Unbroken (e.row i) := by
    intro c hc
    have hc : c ∈ e.margin i ++ e.bare i :=
      List.mem_reverse.1 ((List.dropWhile_sublist _).mem (List.mem_reverse.1 hc))
    refine (Excerpt.unbroken_margin i).1.append ?_ c hc
    unfold Excerpt.bare
    by_cases hi : i - 1 < e.lines.length
    · rw [List.getD_eq_getElem _ _ hi]
      exact (h.isLine _ (List.getElem_mem hi)).unbroken_dropBreak
    · rw [List.getD_eq_default _ _ (by omega)]
      simp [dropBreak, Unbroken]
  intro r hr
  simp only [Excerpt.rows, List.mem_append, List.mem_map] at hr
  rcases hr with (⟨i, -, rfl⟩ | ⟨c, -, rfl⟩) | ⟨i, -, rfl⟩
  · exact hrow i
  · exact unbroken_caret _
  · exact hrow i

theorem showSite_eq (path : Option String) (hpos : 1 ≤ p.row) (hrow : p.row ≤ (rows (source ++ " ").toList).length)
    (h : ∀ r ∈ (rows source.toList).take p.row, Newlined r) :
    ∃ head, Report.showSite d path (p.site source) =
      some (head ++ String.join ((p.excerpt d source).rows.map indentedRow)) := by
  obtain ⟨hrange, hline, -⟩ := excerpt_line (d := d) hrow h hpos
  have hannotate := annotate_eq (e := p.excerpt d source) rfl hrange hline
  have hne : (p.excerpt d source).rows ≠ [] := by
    simp [Excerpt.rows, Position.excerpt]
  have hrows := indentLines_rows hne (unbroken_rows (cut_lines _))
  simp only [Position.excerpt, Option.map_some] at hannotate
  simp only [Report.showSite, Position.site, sourceSite, hannotate]
  exact ⟨_, congrArg some ((indentLines_head "  " _ _).trans (congrArg _ hrows))⟩

end

/-- A fault located at a token in a row of the source is reported with the rows of an excerpt, in which the
lines up to that row are the rows that the scanner counts. -/
theorem located_fault (source : String) (fault : StripFault) (p : Position) (hfault : fault.position? = some p)
    (hpos : 1 ≤ p.row) (hrow : p.row ≤ (rows (source ++ " ").toList).length)
    (hrows : ∀ r ∈ (rows source.toList).take p.row, Newlined r) (path : Option String) (d : Display) :
    ∃ r : Report, fault.failure source = .report r ∧
      (∃ head, (r.tagPath path).fullText d =
        r.message ++ "\n\n" ++ head ++ String.join ((p.excerpt d source).rows.map indentedRow)) ∧
      ∀ i, 1 ≤ i → i ≤ p.row → (p.excerpt d source).row i =
        trimRight ((p.excerpt d source).margin i ++ dropBreak ((rows source.toList).getD (i - 1) [])) := by
  have hreport : ∃ r : Report, fault.failure source = .report r ∧ r.sites = [p.site source] ∧ r.previous = none ∧
      r.path = none ∧ r.kind.isInternal = false := by
    unfold StripFault.position? at hfault
    split at hfault
    · cases hfault
      exact ⟨_, rfl, rfl, rfl, rfl, rfl⟩
    · next problem q =>
      cases hfault
      exact ⟨_, rfl, rfl, rfl, rfl, by cases problem <;> rfl⟩
    · cases hfault
      exact ⟨_, rfl, rfl, rfl, rfl, rfl⟩
    · cases hfault
  obtain ⟨r, hr, hsites, hprevious, hpath, hkind⟩ := hreport
  obtain ⟨head, hhead⟩ := showSite_eq (d := d) path hpos hrow hrows
  refine ⟨r, hr, ⟨head, ?_⟩, (excerpt_line hrow hrows hpos).2.2⟩
  have htag : r.tagPath path = { r with path } := by simp [Report.tagPath, hpath]
  rw [htag, Report.fullText, if_neg (by simp [hkind])]
  simp [Report.render, hsites, hprevious, hhead, String.append_assoc, Report.message]

theorem located_fault_lastRow : ∃ r : Report,
    (StripFault.dialect ⟨.reserved, ⟨2, 4⟩⟩).failure "x = 1\ny = _cbit_a" = .report r ∧
      ∃ head, (r.tagPath none).fullText {} = r.message ++ "\n\n" ++ head ++
        "       1 x = 1\n  ---> 2 y = _cbit_a\n  -----------^\n" := by
  obtain ⟨r, hr, ⟨head, htext⟩, -⟩ := located_fault "x = 1\ny = _cbit_a" (.dialect ⟨.reserved, ⟨2, 4⟩⟩) ⟨2, 4⟩ rfl
    (by decide) (by decide +kernel)
    (fun r hr => newlined_rows (List.all_iff_forall_prop.1 (by decide +kernel)) r (List.mem_of_mem_take hr)) none {}
  refine ⟨r, hr, head, htext.trans (congrArg _ ?_)⟩
  decide +kernel

def dialectFault? : Except StripFault Stripped → Option DialectFault
  | .error (.dialect fault) => some fault
  | _ => none

theorem eq_error_of_dialectFault? {x : Except StripFault Stripped} {fault : DialectFault}
    (h : dialectFault? x = some fault) : x = .error (.dialect fault) := by
  unfold dialectFault? at h
  split at h
  · cases h
    rfl
  · cases h

def brokenRow : String := "a\x0cb\nc\n_cbit_x\n"

/-- After a form feed the report marks another row, and at the end of a text whose last row has no newline it
marks none. -/
theorem unlocated_fault :
    (strip brokenRow = .error (.dialect ⟨.reserved, ⟨3, 0⟩⟩) ∧
      (rows brokenRow.toList).getD 2 [] = "_cbit_x\n".toList ∧
      ∃ r : Report, (StripFault.dialect ⟨.reserved, ⟨3, 0⟩⟩).failure brokenRow = .report r ∧
        r.fullText {} = r.message ++ "\n\n  line 3:0 \n       2 b\n  ---> 3 c\n  -------^\n       4 _cbit_x\n") ∧
    ∃ r : Report, strip "cbit for x in y \\\n# c" = .error (.dialect ⟨.missingColon, ⟨3, 0⟩⟩) ∧
      (StripFault.dialect ⟨.missingColon, ⟨3, 0⟩⟩).failure "cbit for x in y \\\n# c" = .report r ∧
      r.fullText {} = "line 3:0 " ++ r.message :=
  ⟨⟨eq_error_of_dialectFault? (by decide +kernel), by decide +kernel, _, rfl, by decide +kernel⟩,
    _, eq_error_of_dialectFault? (by decide +kernel), rfl, by decide +kernel⟩

end LoopEscape
