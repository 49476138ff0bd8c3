import LoopEscape.Proofs.Dialect.Bookkeeping

/-!
# Values of jumps

The value of a jump is laid out at its place in the plain code and parsed behind the start of an assignment,
which pushes the first row to the right.  Outside brackets the tokens of a value have their texts exactly
there, and what is reported of them is their place in the source (`Stripper.run_values`), as long as the value
holds no indentation and no string that breaks off before its last token.
-/

namespace LoopEscape

open Attach

/-! ### Behind the start of an assignment -/

/-- Where a place of the plain code is in the code that is parsed for a value. -/
def Attach.pushed (p : Position) : Position := if p.row = 1 then ⟨1, p.col + valueStart.length⟩ else p

theorem placeValue_pushed (shifts : Shifts) {firstRow : Nat} {p : Position} (h : p.row = 1 → firstRow = 1) :
    placeValue shifts firstRow (pushed p) = place shifts p := by
  obtain ⟨row, col⟩ := p
  unfold placeValue pushed
  by_cases hp : row = 1
  · simp [hp, h hp]
  · simp [hp]

theorem pushed_after {p : Position} (h : 0 < p.row) (cs : List Char) : (pushed p).after cs = pushed (p.after cs) := by
  have hle := p.row_le_after cs
  unfold pushed
  split
  · rename_i hp
    have hmoved := p.after_moved valueStart.length cs
    rw [hp] at hmoved
    exact hmoved
  · rw [if_neg (by omega)]

theorem StandsAt.pushed {code piece : String} {p : Position} (h : StandsAt code.toList p piece) :
    StandsAt (valueStart ++ code).toList (Attach.pushed p) piece := by
  obtain ⟨before, after, hcode, rfl⟩ := h
  refine ⟨valueStart.toList ++ before, after, by simp [hcode], ?_⟩
  rw [Position.after_append, ← pushed_after Nat.one_pos]
  rfl

/-! ### The tokens of a value -/

section

variable {lead value after : List Token} (htold : Told (lead ++ value ++ after)) (hlead : depthSum lead = 0)
  (hform : ValueForm 0 value) (hmargin : ∀ t ∈ value, t.isMargin = false) (hrows : ∀ t ∈ value, 0 < t.stop.row)

include htold hlead hform hmargin hrows

theorem value_told {v w : List Token} {t : Token} (hv : value = v ++ t :: w) :
    t.Exact ∨ t.Broken ∨ w = [] ∧ t.kind = .lineBreak := by
  -- none of the tokens that close a text is in a value
  have hopen {v w : List Token} {t : Token} (hv : value = v ++ t :: w) : ¬ t.Closes (lead ++ v) := by
    have ht : t ∈ value := by simp [hv]
    rintro (h | h | ⟨h, hdepth⟩)
    · exact absurd (h.symm.trans (hmargin t ht)) (by decide)
    · exact hform.unended t ht h
    · refine hform.inBrackets v t w hv (by simp [Token.endsStatement, h]) ?_
      rwa [depthSum_append, hlead] at hdepth
  have ht : t ∈ value := by simp [hv]
  rcases htold.tokens (lead ++ v) t (w ++ after) (by simp [hv]) with (h | h | h | h) | h | ⟨hk, hnext⟩
  · exact absurd (h.symm.trans (hmargin t ht)) (by decide)
  · exact absurd h (hrows t ht).ne'
  · exact .inr (.inl h)
  · exact .inl h
  · exact absurd h (hopen hv)
  · cases w with
    | nil => exact .inr (.inr ⟨rfl, hk⟩)
    | cons u w =>
      refine absurd (hnext u rfl) ?_
      rw [List.append_assoc]
      exact hopen (w := w) (by simp [hv])

theorem value_apart (ho : Ordered value) :
    value.Pairwise fun t u => t.Broken ∨ t.Exact ∧ t.behind ≤ u.start := by
  have hnewline : ∀ u ∈ value, u.closesText = false := by
    intro u hu
    obtain ⟨v, w, hv⟩ := List.append_of_mem hu
    by_contra hcloses
    obtain ⟨hk, htext⟩ : u.kind = .newline ∧ u.text = "" := by simpa [Token.closesText] using hcloses
    rcases value_told htold hlead hform hmargin hrows hv with h | h | h
    · have hstart : u.start = ⟨u.stop.row + 1, 0⟩ := by
        simpa [htext, Token.behind, Token.endsRow, hk, Position.after] using h.text
      have hle := Position.row_le (ho.sound u hu).start_le_stop
      rw [hstart] at hle
      exact absurd hle (Nat.not_succ_le_self _)
    · simp [Token.Broken, hk] at h
    · simp [hk] at h
  have hsuffix (w : List Token) : ∀ v, value = v ++ w → w.Pairwise fun t u => t.Broken ∨ t.Exact ∧ t.behind ≤ u.start := by
    induction w with
    | nil => exact fun _ _ => .nil
    | cons t w ih =>
      intro v hv
      refine List.pairwise_cons.2 ⟨fun u hu => ?_, ih (v ++ [t]) (by simp [hv])⟩
      have hpair := (hv ▸ ho.pairwise : (v ++ t :: w).Pairwise _)
      have hprecedes : t.Precedes u := (List.pairwise_cons.1 (List.pairwise_append.1 hpair).2.1).1 u hu
      have hmem : u ∈ value := by simp [hv, hu]
      rcases value_told htold hlead hform hmargin hrows hv with h | h | ⟨rfl, -⟩
      · refine .inr ⟨h, ?_⟩
        unfold Token.behind
        split
        · rename_i he
          have := hprecedes.newRow he (hnewline u hmem)
          rw [Position.le_def]
          dsimp only
          omega
        · exact hprecedes.apart (hmargin u hmem)
      · exact .inl h
      · cases hu
  exact hsuffix value [] rfl

end

namespace Stripper

variable {s : Stripper} {parts : List Part} {t u : Token}

/-! ### Moved tokens -/

theorem place_start (hm : t.isMargin = false) :
    (s.place t).start = ⟨t.start.row, t.start.col - s.shiftOf t.start.row⟩ := by
  rw [place, if_neg (by simp [hm])]
  rfl

theorem place_stop (hm : t.isMargin = false) (hover : t.stop.row ≠ t.start.row → s.shiftOf t.stop.row = 0) :
    (s.place t).stop = ⟨t.stop.row, t.stop.col - s.shiftOf t.stop.row⟩ := by
  rw [place, if_neg (by simp [hm])]
  unfold shift
  dsimp only
  split
  · rfl
  · rename_i hrow
    rw [hover hrow]
    rfl

theorem place_broken (s : Stripper) (t : Token) : (s.place t).Broken ↔ t.Broken := by
  rw [Token.Broken, Token.Broken, place_kind, (s.place_rows t).1, (s.place_rows t).2]

theorem place_behind_le (hm : t.isMargin = false) (hm' : u.isMargin = false)
    (hover : t.stop.row ≠ t.start.row → s.shiftOf t.stop.row = 0) (h : t.behind ≤ u.start) :
    (s.place t).behind ≤ (s.place u).start := by
  unfold Token.behind at h ⊢
  rw [place_endsRow, place_start hm', place_stop hm hover]
  split at h
  · rename_i he
    rw [if_pos he]
    rw [Position.le_def] at h ⊢
    dsimp only at h ⊢
    omega
  · rename_i he
    rw [if_neg he]
    rw [Position.le_def] at h ⊢
    refine h.imp id fun ⟨hrow, hcol⟩ => ⟨hrow, ?_⟩
    dsimp only
    rw [hrow]
    omega

theorem place_exact (h : t.Exact) (hs : t.Sound) (hm : t.isMargin = false)
    (hover : t.stop.row ≠ t.start.row → s.shiftOf t.stop.row = 0) (hcol : s.shiftOf t.start.row ≤ t.start.col) :
    (s.place t).Exact := by
  refine ⟨place_kind s t ▸ h.kind, ?_⟩
  have hmoved := (s.place t).start.after_moved (s.shiftOf t.start.row) t.text.toList
  rw [place_text]
  generalize (s.place t).start.after t.text.toList = q at hmoved ⊢
  rw [place_start hm] at hmoved
  dsimp only at hmoved
  rw [Nat.sub_add_cancel hcol, h.text] at hmoved
  unfold Token.behind at hmoved ⊢
  rw [place_endsRow, (s.place_rows t).2, place_stop hm hover]
  by_cases he : t.endsRow = true
  · rw [if_pos he] at hmoved ⊢
    have hrow := hs.oneRow he
    split at hmoved
    · simp only [Position.mk.injEq] at hmoved
      omega
    · exact hmoved.symm
  · rw [if_neg he] at hmoved ⊢
    split at hmoved
    · rename_i hq
      rw [hmoved]
      exact congrArg₂ Position.mk hq (Nat.add_sub_cancel _ _).symm
    · rename_i hq
      rw [← hmoved] at hq ⊢
      rw [hover hq]
      rfl

/-! ### Values in their places -/

/-- A token of a value stands in the code that is parsed where it is in the plain code, and its ends are
reported where they are in the source. -/
structure InPlace (s : Stripper) (firstRow : Nat) (code : String) (t : Token) : Prop where
  stands : StandsAt (valueStart ++ code).toList (pushed (s.place t).start) t.text
  ends : t.endsRow = false → ¬ t.Broken → (pushed (s.place t).start).after t.text.toList = pushed (s.place t).stop
  start : placeValue s.adjustments firstRow (pushed (s.place t).start) = t.start
  stop : placeValue s.adjustments firstRow (pushed (s.place t).stop) = t.stop

/-- What is known of a value's tokens, of which comments are not kept. -/
structure ValueTokens (s : Stripper) (value : List Token) : Prop where
  ordered : Ordered value
  margin : ∀ t ∈ value, t.isMargin = false
  kinds : ∀ t ∈ value, t.kind ≠ .encoding ∧ t.kind ≠ .endMarker
  rows : ∀ t ∈ value, 0 < t.start.row
  columns : ∀ t ∈ value, s.shiftOf t.start.row ≤ t.start.col
  overRows : ∀ t ∈ value, t.stop.row ≠ t.start.row → s.shiftOf t.stop.row = 0
  apart : value.Pairwise fun t u => t.Broken ∨ t.Exact ∧ t.behind ≤ u.start
  exact : ∀ t ∈ value, t.endsRow = false → ¬ t.Broken → t.Exact

theorem Kept.valueTokens {before after : List Part} {keyword : Token} {label : Option Token} {c : WithClause}
    (hk : Kept s (before ++ .jump keyword label (some c) :: after))
    (ho : Ordered ((before ++ .jump keyword label (some c) :: after).flatMap Part.tokens))
    (htold : Told ((before ++ .jump keyword label (some c) :: after).flatMap Part.tokens))
    (hdepth : depthSum (before.flatMap Part.tokens) = 0) (hmargin : ∀ t ∈ c.read, t.isMargin = false) :
    s.ValueTokens c.value := by
  have hpart : Part.jump keyword label (some c) ∈ before ++ .jump keyword label (some c) :: after := by simp
  have hform := hk.values _ hpart c rfl
  obtain ⟨hkeyword, hlabel, hclause⟩ := hk.fits _ hpart
  have hname : keyword.kind = .name := hkeyword.elim (Token.isName_kind · |>.1) (Token.isName_kind ·.1 |>.1)
  have hsplit : (before ++ .jump keyword label (some c) :: after).flatMap Part.tokens =
      (before.flatMap Part.tokens ++ keyword :: (label.toList ++ [c.word])) ++ c.value ++ after.flatMap Part.tokens := by
    simp [Part.tokens, optionTokens, WithClause.tokens]
  rw [hsplit] at ho htold
  have hlead : depthSum (before.flatMap Part.tokens ++ keyword :: (label.toList ++ [c.word])) = 0 := by
    have hnames : ∀ t ∈ keyword :: (label.toList ++ [c.word]), t.kind = .name := by
      simpa [or_imp, forall_and, hname, (Token.isName_kind (hclause c rfl).1).1] using
        fun t ht => Token.isIdentifier_kind (hlabel t ht)
    rw [depthSum_append, hdepth, depthSum_zero fun t ht => ?_]
    · rfl
    · simp [Token.depthChange, Token.isOpening, Token.isClosing, Token.isOp, hnames t ht]
  have hmem {t : Token} (ht : t ∈ c.value) := List.mem_append_left (after.flatMap Part.tokens)
    (List.mem_append_right (before.flatMap Part.tokens ++ keyword :: (label.toList ++ [c.word])) ht)
  have hm : ∀ t ∈ c.value, t.isMargin = false := fun t ht => by
    by_cases hcomment : t.kind = .comment
    · simp [Token.isMargin, hcomment]
    · exact hmargin t (List.mem_filter.2 ⟨ht, by simpa using hcomment⟩)
  obtain ⟨hleft, -, -⟩ := List.pairwise_append.1 ho.pairwise
  obtain ⟨-, hvalue, hbetween⟩ := List.pairwise_append.1 hleft
  have hordered : Ordered c.value := ⟨hvalue, fun t ht => ho.sound t (hmem ht)⟩
  have hkeywordRow : 0 < keyword.start.row := by
    -- the first token of a text ends row 0
    obtain ⟨first, hfirst, hkind⟩ := htold.nested.first
    obtain ⟨rest, hrest⟩ := List.head?_eq_some_iff.1 hfirst
    have hmem : keyword ∈ first :: rest := hrest ▸ by simp
    rcases List.mem_cons.1 hmem with rfl | hmem
    · simp [hkind] at hname
    · have hprecedes := (List.pairwise_cons.1 (hrest ▸ ho.pairwise)).1 keyword hmem
      exact Nat.zero_lt_of_lt (hprecedes.newRow (by simp [Token.endsRow, hkind]) (by simp [Token.closesText, hname]))
  have hrows : ∀ t ∈ c.value, 0 < t.start.row := fun t ht => by
    have hle := (ho.sound keyword (by simp)).start_le_stop.trans ((hbetween keyword (by simp) t ht).apart (hm t ht))
    exact Nat.lt_of_lt_of_le hkeywordRow (Position.row_le hle)
  have hstops : ∀ t ∈ c.value, 0 < t.stop.row := fun t ht =>
    Nat.lt_of_lt_of_le (hrows t ht) (Position.row_le (hordered.sound t ht).start_le_stop)
  have htokens : ∀ t ∈ c.value, t.Exact ∨ t.Broken ∨ t.kind = .lineBreak := fun t ht => by
    obtain ⟨v, w, hv⟩ := List.append_of_mem ht
    exact (value_told htold hlead hform hm hstops hv).imp id (.imp id And.right)
  refine ⟨hordered, hm, fun t ht => ⟨?_, hform.unended t ht⟩, hrows,
    fun t ht => hk.value_columns hpart rfl ht (hm t ht), fun t ht => hk.overRows (hsplit ▸ hmem ht) (hm t ht),
    value_apart htold hlead hform hm hstops hordered, fun t ht he hb => ?_⟩
  · rcases htokens t ht with h | h | h
    · exact h.kind
    · simp [h.1]
    · simp [h]
  · rcases htokens t ht with h | h | h
    · exact h
    · exact absurd h hb
    · simp [Token.endsRow, h] at he

theorem ValueTokens.inPlace (hk : Kept s parts) {c : WithClause} (hv : s.ValueTokens c.value)
    (hbroken : c.read.Pairwise fun t _ => ¬ t.Broken) :
    ∃ code, layout (c.read.map s.place) = .ok code ∧
      ∀ t ∈ c.read, s.InPlace (startOf (c.read.map s.place)).row code t := by
  have hsub : c.read.Sublist c.value := List.filter_sublist
  have hexact {t : Token} (ht : t ∈ c.read) (h : t.Exact) : (s.place t).Exact :=
    place_exact h (hv.ordered.sound t (hsub.subset ht)) (hv.margin t (hsub.subset ht)) (hv.overRows t (hsub.subset ht))
      (hv.columns t (hsub.subset ht))
  have hpair : (c.read.map s.place).Pairwise fun t u => t.Exact ∧ t.behind ≤ u.start := by
    rw [List.pairwise_map]
    refine ((hv.apart.sublist hsub).and hbroken).imp_of_mem fun {t u} ht hu ⟨h, hb⟩ => ?_
    obtain ⟨he, hle⟩ := h.resolve_left hb
    exact ⟨hexact ht he, place_behind_le (hv.margin t (hsub.subset ht)) (hv.margin u (hsub.subset hu))
      (hv.overRows t (hsub.subset ht)) hle⟩
  obtain ⟨code, hcode, hstands⟩ := layout_stands hpair
    (List.forall_mem_map.2 fun t ht => ⟨place_isMargin s t ▸ hv.margin t (hsub.subset ht),
      place_kind s t ▸ hv.kinds t (hsub.subset ht)⟩)
    (List.forall_mem_map.2 fun t ht => (s.place_rows t).1 ▸ hv.rows t (hsub.subset ht))
  refine ⟨code, hcode, fun t ht => ?_⟩
  have hmem := hsub.subset ht
  have hm := hv.margin t hmem
  have hfirst : t.start.row = 1 → (startOf (c.read.map s.place)).row = 1 := by
    cases hread : c.read with
    | nil => simp [hread] at ht
    | cons first rest =>
      have hpos := hv.rows first (hsub.subset (by simp [hread]))
      show _ → (s.place first).start.row = 1
      rw [(s.place_rows first).1]
      rw [hread] at ht
      rcases List.mem_cons.1 ht with rfl | ht
      · exact id
      · have hprecedes := (List.pairwise_cons.1 (hread ▸ hv.ordered.pairwise.sublist hsub)).1 t ht
        have hle := Position.row_le ((hv.ordered.sound first (hsub.subset (by simp [hread]))).start_le_stop.trans
          (hprecedes.apart hm))
        omega
  have hstart := place_start (s := s) hm
  have hstop := place_stop hm (hv.overRows t hmem)
  have hsound := (hv.ordered.sound t hmem).start_le_stop
  refine ⟨?_, fun he hb => ?_, ?_, ?_⟩
  · rw [← place_text s t]
    exact (hstands _ (List.mem_map_of_mem ht)).pushed
  · have htext := (hexact ht (hv.exact t hmem he hb)).text
    rw [place_text, Token.behind, place_endsRow, if_neg (by simp [he])] at htext
    rw [pushed_after ((s.place_rows t).1 ▸ hv.rows t hmem), htext]
  · rw [placeValue_pushed _ (by rwa [hstart]), hstart, Attach.place, hk.adjustments_shiftOf]
    exact congrArg (Position.mk _) (Nat.sub_add_cancel (hv.columns t hmem))
  · have hrow := hv.rows t hmem
    rw [Position.le_def] at hsound
    have hcol : s.shiftOf t.stop.row ≤ t.stop.col := by
      have hcolumn := hv.columns t hmem
      by_cases hsame : t.stop.row = t.start.row
      · rw [hsame]
        omega
      · exact hv.overRows t hmem hsame ▸ Nat.zero_le _
    rw [placeValue_pushed _ fun h => hfirst (by rw [hstop] at h; dsimp only at h; omega), hstop, Attach.place,
      hk.adjustments_shiftOf]
    exact congrArg (Position.mk _) (Nat.sub_add_cancel hcol)

/-- A value outside brackets is laid out where it is in the plain code, unless it holds an indentation or a
string that breaks off before its last token: each of its tokens has its text there, and its ends are reported
where they are in the source. -/
theorem run_values {source : String} {stream : TokenStream} (hscan : scan source = .ok stream)
    (hrun : ({} : Stripper).run true stream.tokens = .ok s) :
    ∀ e ∈ s.marks.jumps, e.2.value ≠ [] → ∃ before keyword label clause after,
      stream.tokens = before ++ (Part.jump keyword label (some clause)).tokens ++ after ∧
      e = ((s.shift keyword).start, ⟨label.map (·.text), clause.read.map s.place⟩) ∧
      (depthSum before = 0 → (∀ t ∈ e.2.value, t.isMargin = false) → (e.2.value.Pairwise fun t _ => ¬ t.Broken) →
        ∃ code, layout e.2.value = .ok code ∧ ∀ t ∈ clause.read, s.InPlace (startOf e.2.value).row code t) := by
  obtain ⟨parts, hk, htokens⟩ := run_parts hscan hrun
  have ho := htokens ▸ scan_ordered hscan
  have htold := htokens ▸ scan_told hscan
  intro e he hne
  rw [hk.jumps] at he
  obtain ⟨p, hp, hentry⟩ := List.mem_filterMap.1 he
  obtain ⟨m, hplaced, rfl⟩ := Option.map_eq_some_iff.1 hentry
  obtain ⟨m, hm, rfl⟩ := Option.map_eq_some_iff.1 hplaced
  obtain ⟨before, after, rfl⟩ := List.append_of_mem hp
  obtain ⟨keyword, label, clause, rfl, rfl⟩ : ∃ keyword label clause, p = .jump keyword label (some clause) ∧
      m = (keyword, ⟨label.map (·.text), clause.read⟩) := by
    cases p with
    | jump keyword label value =>
      cases value with
      | none =>
        rw [Part.jumpMark?] at hm
        split at hm <;> cases hm
        exact absurd rfl hne
      | some clause =>
        rw [Part.jumpMark?, if_neg (by simp)] at hm
        cases hm
        exact ⟨keyword, label, clause, rfl, rfl⟩
    | _ => cases hm
  refine ⟨before.flatMap Part.tokens, keyword, label, clause, after.flatMap Part.tokens, by simp [htokens], rfl,
    fun hdepth hmargin hbroken => ?_⟩
  rw [List.forall_mem_map] at hmargin
  rw [List.pairwise_map] at hbroken
  exact (hk.valueTokens ho htold hdepth fun t ht => place_isMargin s t ▸ hmargin t ht).inPlace hk
    (hbroken.imp fun h => (place_broken s _).not.1 h)

def spreadSource : String := "L: for x in y: break L with (a, # b\n  \"\"\"c\n d\"\"\" + \\\n e)\n"

instance (t : Token) : Decidable t.Broken := inferInstanceAs (Decidable (_ ∧ _))

theorem run_values_spread : ∃ stream s, scan spreadSource = .ok stream ∧
    ({} : Stripper).run true stream.tokens = .ok s ∧ s.adjustments = [(1, 3)] ∧
    ∃ e ∈ s.marks.jumps, e.2.value.map (·.text) = ["(", "a", ",", "\n", "\"\"\"c\n d\"\"\"", "+", "e", ")"] ∧
      ∃ read : List Token, read.map s.place = e.2.value ∧
        ∃ code, layout e.2.value = .ok code ∧ ∀ t ∈ read, s.InPlace 1 code t := by
  have hrun : ((scan spreadSource).toOption.bind fun stream =>
      (({} : Stripper).run true stream.tokens).toOption.map fun s => (s.adjustments,
        s.marks.jumps.map fun e => (e.2.value.map (·.text), (startOf e.2.value).row,
          decide ((∀ n < stream.tokens.length, ∀ k ∈ stream.tokens[n]?, (s.shift k).start = e.1 →
            depthSum (stream.tokens.take n) = 0) ∧
          (∀ t ∈ e.2.value, t.isMargin = false) ∧ e.2.value.Pairwise fun t _ => ¬ t.Broken)))) =
      some ([(1, 3)], [(["(", "a", ",", "\n", "\"\"\"c\n d\"\"\"", "+", "e", ")"], 1, true)]) := by
    decide +kernel
  obtain ⟨stream, hscan, hrun⟩ := Option.bind_eq_some_iff.1 hrun
  obtain ⟨s, hs, hrun⟩ := Option.map_eq_some_iff.1 hrun
  have hscan := eq_ok_of_toOption hscan
  have hs := eq_ok_of_toOption hs
  obtain ⟨hadjust, hjumps⟩ := Prod.mk.inj hrun
  obtain ⟨e, hjumps, he⟩ := List.map_eq_singleton_iff.1 hjumps
  simp only [Prod.mk.injEq, decide_eq_true_eq] at he
  obtain ⟨htexts, hrow, hdepth, hmargin, hbroken⟩ := he
  have hmem : e ∈ s.marks.jumps := by simp [hjumps]
  obtain ⟨before, keyword, label, clause, after, htokens, heq, hvalue⟩ :=
    run_values hscan hs e hmem fun hnil => by simp [hnil] at htexts
  have hsplit : stream.tokens[before.length]? = some keyword ∧ stream.tokens.take before.length = before ∧
      before.length < stream.tokens.length := by
    simp [htokens, Part.tokens]
  have hzero := hdepth before.length hsplit.2.2 keyword hsplit.1 (by rw [heq])
  rw [hsplit.2.1] at hzero
  refine ⟨stream, s, hscan, hs, hadjust, e, hmem, htexts, clause.read, by rw [heq], ?_⟩
  rw [← hrow]
  exact hvalue hzero hmargin hbroken

/-- The last row is ended by no token, and the value goes on over the end of an indentation. -/
theorem run_values_indented : ∃ stream s, scan "L: block:\n    break L with \"\"\"\n# \"\"\"" = .ok stream ∧
    ({} : Stripper).run true stream.tokens = .ok s ∧
    s.marks.jumps.map (fun e => layout e.2.value) = [.error .unopened] := by
  have hrun : ((scan "L: block:\n    break L with \"\"\"\n# \"\"\"").toOption.bind fun stream =>
      (({} : Stripper).run true stream.tokens).toOption.map fun s => s.marks.jumps.map fun e => layout e.2.value) =
      some [.error .unopened] := by
    decide +kernel
  obtain ⟨stream, hscan, hrun⟩ := Option.bind_eq_some_iff.1 hrun
  obtain ⟨s, hs, hrun⟩ := Option.map_eq_some_iff.1 hrun
  exact ⟨stream, s, eq_ok_of_toOption hscan, eq_ok_of_toOption hs, hrun⟩

end Stripper

end LoopEscape
