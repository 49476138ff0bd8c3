import LoopEscape.Proofs.Dialect.Parts
import Mathlib.Data.List.Nodup
import Mathlib.Data.List.Forall2

/-!
# What becomes of the tokens

Every token of a source belongs to one part.  The tokens that parts go on with come out in their order,
each moved by what is taken out of its row in the end, although rows are shortened on the way: a row is
shortened before the first token of it that goes on, and no token of an earlier row reaches into it.
The invariant of a run is `Stripper.Kept`, what one part does to it is `Stripper.Kept.put`.
-/

namespace LoopEscape

/-! ### Parts and their tokens -/

structure Token.Inside (t u : Token) : Prop where
  margin : t.isMargin = false
  margin' : u.isMargin = false
  ends : t.endsRow = false
  ends' : u.endsRow = false
  start_le : u.start ≤ t.start
  start_le_stop : t.start ≤ t.stop
  stop_le : t.stop ≤ u.stop
  oneRow : t.stop.row = t.start.row

def Token.Within (t u : Token) : Prop := t = u ∨ t.Inside u

namespace Token.Within

variable {t u : Token}

theorem margin (h : t.Within u) : t.isMargin = u.isMargin :=
  h.elim (congrArg _) fun h => h.margin.trans h.margin'.symm

theorem ends (h : t.Within u) : t.endsRow = u.endsRow :=
  h.elim (congrArg _) fun h => h.ends.trans h.ends'.symm

theorem closesText (h : t.Within u) : t.closesText = u.closesText :=
  h.elim (congrArg _) fun h => (closesText_of_endsRow h.ends).trans (closesText_of_endsRow h.ends').symm

theorem start_le (h : t.Within u) : u.start ≤ t.start := h.elim (fun h => h ▸ le_refl _) Inside.start_le

theorem stop_le (h : t.Within u) : t.stop ≤ u.stop := h.elim (fun h => h ▸ le_refl _) Inside.stop_le

theorem row_le_stop (h : t.Within u) (hu : u.Sound) : t.start.row ≤ u.stop.row :=
  Position.row_le (h.elim (fun h => h ▸ hu.start_le_stop) fun h => h.start_le_stop.trans h.stop_le)

end Token.Within

theorem Token.Precedes.within {t u t' u' : Token} (h : t'.Precedes u') (ht : t.Within t') (hu : u.Within u') :
    t.Precedes u := by
  have hstop := Position.row_le ht.stop_le
  have hstart := Position.row_le hu.start_le
  refine ⟨fun hm => ?_, fun he he' => ?_, fun hm hm' => ?_, fun hm => ?_⟩
  · exact (ht.stop_le.trans (h.apart (hu.margin ▸ hm))).trans hu.start_le
  · have := h.newRow (ht.ends ▸ he) (hu.closesText ▸ he')
    omega
  · have := h.opens (ht.margin ▸ hm) (hu.margin ▸ hm')
    omega
  · obtain rfl | ht := ht
    · exact Nat.le_trans (h.behind hm) hstart
    · exact absurd (hm.symm.trans ht.margin) (by decide)

theorem Token.isName_kind {t : Token} {text : String} (h : t.isName text = true) :
    t.kind = .name ∧ t.text = text := by
  simpa [isName] using h

theorem Token.isMargin_name {t : Token} (h : t.kind = .name) : t.isMargin = false :=
  isMargin_of_kind (by simp [h]) (by simp [h])

theorem Token.isMargin_op {t : Token} {text : String} (h : t.isOp text = true) : t.isMargin = false := by
  have hk : t.kind = .op := by
    simp only [isOp, Bool.and_eq_true, beq_iff_eq] at h
    exact h.1
  exact isMargin_of_kind (by simp [hk]) (by simp [hk])

theorem Token.isIdentifier_kind {t : Token} (h : t.isIdentifier = true) : t.kind = .name := by
  simp only [isIdentifier, Bool.and_eq_true, beq_iff_eq] at h
  exact h.1

namespace Part

variable {p : Part} {first kept : Token}

theorem emits_within (hp : p.Fits) (hs : ∀ t ∈ p.tokens, t.Sound) :
    ∀ t ∈ p.emits, ∃ u ∈ p.tokens, t.Within u := by
  cases p with
  | plain t => exact fun u hu => ⟨u, hu, .inl rfl⟩
  | loop label keyword => exact fun u hu => ⟨u, List.mem_append_right _ hu, .inl rfl⟩
  | jump keyword label value =>
    intro u hu
    exact ⟨u, by simp [tokens, List.mem_singleton.1 hu], .inl rfl⟩
  | callback label word keyword header escapes result =>
    intro u hu
    refine ⟨u, ?_, .inl rfl⟩
    rcases List.mem_cons.1 hu with rfl | hu
    · simp [tokens]
    · simp [tokens, hu]
  | block label keyword target =>
    have hmem : keyword ∈ (block label keyword target).tokens := by simp [tokens]
    obtain ⟨hkind, htext⟩ := Token.isName_kind hp.2.1
    have hstop := ((hs keyword hmem).name hkind).1
    rw [htext, show "block".length = 5 by decide] at hstop
    have hmargin := Token.isMargin_name hkind
    have hends : keyword.endsRow = false := by simp [Token.endsRow, hkind]
    simp only [emits, List.mem_cons, List.not_mem_nil, or_false, forall_eq_or_imp, forall_eq]
    refine ⟨⟨keyword, hmem, .inr ⟨rfl, hmargin, rfl, hends, ?_, ?_, ?_, rfl⟩⟩,
      ⟨keyword, hmem, .inr ⟨rfl, hmargin, rfl, hends, ?_, ?_, ?_, rfl⟩⟩⟩
    all_goals
      simp only [hstop, Token.branch, Token.condition, Position.le_def]
      simp

theorem emits_pairwise (ht : p.tokens.Pairwise Token.Precedes) :
    p.emits.Pairwise Token.Precedes := by
  cases p with
  | plain | loop | jump => exact List.pairwise_singleton ..
  | block label keyword target =>
    refine List.pairwise_pair.2 ⟨fun _ => ?_, nofun, fun _ => nofun, nofun⟩
    simp only [Token.branch, Token.condition, Position.le_def]
    simp
  | callback label word keyword header escapes result =>
    have hsub : (keyword :: header).Sublist (callback label word keyword header escapes result).tokens := by
      refine .trans ?_ (List.sublist_append_right ..)
      exact ((List.sublist_append_left ..).cons_cons keyword).cons word
    exact ht.sublist hsub

theorem lead_split (hp : p.Fits) (h : p.lead? = some (first, kept)) :
    ∃ before after, p.tokens = first :: before ++ kept :: after ∧ first.kind = .name ∧
      kept.kind = .name ∧ (∀ t ∈ first :: before, t.isMargin = false) ∧
      ∀ t ∈ p.emits, ∃ u ∈ kept :: after, t.isMargin = u.isMargin ∧ u.start ≤ t.start := by
  cases p with
  | plain | jump => cases h
  | loop label keyword =>
    cases h
    obtain ⟨⟨hlabel, hcolon⟩, hk⟩ := hp
    have hname := Token.isIdentifier_kind hlabel
    refine ⟨[label.colon], [], rfl, hname, hk.elim (Token.isName_kind · |>.1) (Token.isName_kind · |>.1), ?_,
      fun t ht => ⟨t, ht, rfl, le_refl _⟩⟩
    simpa using ⟨Token.isMargin_name hname, Token.isMargin_op hcolon⟩
  | block label keyword target =>
    cases h
    obtain ⟨⟨hlabel, hcolon⟩, hk, -⟩ := hp
    have hname := Token.isIdentifier_kind hlabel
    have hkind := (Token.isName_kind hk).1
    refine ⟨[label.colon], optionTokens AsClause.tokens target, rfl, hname, hkind, ?_,
      fun t ht => ⟨_, List.mem_cons_self .., ?_⟩⟩
    · simpa using ⟨Token.isMargin_name hname, Token.isMargin_op hcolon⟩
    · rw [Token.isMargin_name hkind]
      simp only [emits, List.mem_cons, List.not_mem_nil, or_false] at ht
      rcases ht with rfl | rfl
      · exact ⟨rfl, le_refl _⟩
      · exact ⟨rfl, by simp [Token.condition, Position.le_def]⟩
  | callback label word keyword header escapes result =>
    obtain ⟨hlabel, hw, hk, -⟩ := hp
    have hword := (Token.isName_kind hw).1
    have hmem : ∀ t ∈ keyword :: header, ∃ u ∈ keyword :: (header ++
        (optionTokens BreakClause.tokens escapes ++ optionTokens AsClause.tokens result)),
        t.isMargin = u.isMargin ∧ u.start ≤ t.start := fun t ht =>
      ⟨t, (List.sublist_append_left header _).cons_cons keyword |>.subset ht, rfl, le_refl _⟩
    cases label with
    | none =>
      cases h
      exact ⟨[], _, rfl, hword, (Token.isName_kind hk).1, by simpa using Token.isMargin_name hword, hmem⟩
    | some label =>
      cases h
      obtain ⟨hl, hcolon⟩ := hlabel label rfl
      have hname := Token.isIdentifier_kind hl
      refine ⟨[label.colon, word], _, rfl, hname, (Token.isName_kind hk).1, ?_, hmem⟩
      simpa using ⟨Token.isMargin_name hname, Token.isMargin_op hcolon, Token.isMargin_name hword⟩

def marked? (p : Part) : Option Token :=
  (p.loopMark?.map (·.1)).or <| (p.headerMark?.map (·.1)).or <|
    (p.blockMark?.map (·.1)).or (p.jumpMark?.map (·.1))

theorem marked_emits (hp : p.Fits) {k : Token} (h : p.marked? = some k) :
    p.emits.head? = some k ∧ k.kind = .name := by
  cases p with
  | plain => cases h
  | loop label keyword =>
    cases h
    exact ⟨rfl, hp.2.elim (Token.isName_kind · |>.1) (Token.isName_kind · |>.1)⟩
  | block label keyword target =>
    cases h
    exact ⟨rfl, rfl⟩
  | callback label word keyword header escapes result =>
    cases h
    exact ⟨rfl, (Token.isName_kind hp.2.2.1).1⟩
  | jump keyword label value =>
    have hk : keyword.kind = .name :=
      hp.1.elim (Token.isName_kind · |>.1) (Token.isName_kind ·.1 |>.1)
    have hmark : k = keyword := by
      simp only [marked?, loopMark?, headerMark?, blockMark?, jumpMark?] at h
      split at h
      · cases h
      · cases h
        rfl
    exact ⟨by rw [hmark]; rfl, hmark ▸ hk⟩

theorem loopMark_marked (p : Part) (m : Token × LoopLabel) (h : p.loopMark? = some m) :
    p.marked? = some m.1 := by
  simp [marked?, h]

theorem headerMark_marked (p : Part) (m : Token × LoopHeader) (h : p.headerMark? = some m) :
    p.marked? = some m.1 := by
  cases p <;> cases h
  rfl

theorem blockMark_marked (p : Part) (m : Token × BlockHeader) (h : p.blockMark? = some m) :
    p.marked? = some m.1 := by
  cases p <;> cases h
  rfl

theorem jumpMark_marked (p : Part) (m : Token × JumpTail) (h : p.jumpMark? = some m) :
    p.marked? = some m.1 := by
  cases p with
  | jump => exact congrArg (Option.map (·.1)) h
  | _ => cases h

theorem loopMark_word (hp : p.Fits) {m : Token × LoopLabel} (h : p.loopMark? = some m) :
    m.1.isName "for" ∨ m.1.isName "while" := by
  cases p <;> cases h
  exact hp.2

theorem headerMark_word (hp : p.Fits) {m : Token × LoopHeader} (h : p.headerMark? = some m) :
    m.1.isName "for" := by
  cases p <;> cases h
  exact hp.2.2.1

theorem blockMark_word {m : Token × BlockHeader} (h : p.blockMark? = some m) : m.1.isName "if" := by
  cases p <;> cases h
  rfl

theorem jumpMark_word (hp : p.Fits) {m : Token × JumpTail} (h : p.jumpMark? = some m) :
    m.1.isName "break" ∨ m.1.isName "continue" := by
  cases p with
  | jump keyword label value =>
    rw [jumpMark?] at h
    split at h
    · cases h
    · cases h
      exact hp.1.imp id And.left
  | _ => cases h

theorem marked_extent (hp : p.Fits) (hs : ∀ t ∈ p.tokens, t.Sound) {k : Token} (h : p.marked? = some k) :
    k.stop.row = k.start.row ∧ k.start.col < k.stop.col := by
  obtain ⟨hhead, hkind⟩ := marked_emits hp h
  have hsource (hmem : k ∈ p.tokens) : k.stop.row = k.start.row ∧ k.start.col < k.stop.col := by
    obtain ⟨hstop, hpos⟩ := (hs k hmem).name hkind
    rw [hstop]
    exact ⟨rfl, Nat.lt_add_of_pos_right hpos⟩
  cases p with
  | plain => cases h
  | block label keyword target =>
    cases hhead
    exact ⟨rfl, Nat.lt_add_of_pos_right Nat.two_pos⟩
  | loop | callback | jump =>
    cases hhead
    exact hsource (by simp [tokens])

theorem value_tokens {c : WithClause} (hc : p.value? = some c) {t : Token} (ht : t ∈ c.value) : t ∈ p.tokens := by
  cases p with
  | jump keyword label value =>
    obtain rfl : value = some c := hc
    simp [tokens, optionTokens, WithClause.tokens, ht]
  | _ => cases hc

theorem jumpMark_value {m : Token × JumpTail} (h : p.jumpMark? = some m) {t : Token}
    (ht : t ∈ m.2.value) : t ∈ p.tokens := by
  cases p with
  | jump keyword label value =>
    rw [jumpMark?] at h
    split at h
    · cases h
    · cases h
      cases value with
      | none => cases ht
      | some c => exact value_tokens (p := jump keyword label (some c)) rfl (List.mem_filter.1 ht).1
  | _ => cases h

theorem emits_ordered {parts : List Part} (hp : ∀ p ∈ parts, p.Fits) (ho : Ordered (parts.flatMap tokens)) :
    (parts.flatMap emits).Pairwise Token.Precedes := by
  have hsound : ∀ p ∈ parts, ∀ t ∈ p.tokens, t.Sound := fun p hmem t ht =>
    ho.sound t (List.mem_flatMap.2 ⟨p, hmem, ht⟩)
  obtain ⟨hin, hbetween⟩ := List.pairwise_flatMap.1 ho.pairwise
  refine List.pairwise_flatMap.2 ⟨fun p hmem => emits_pairwise (hin p hmem), ?_⟩
  refine hbetween.imp_of_mem fun hp₁ hp₂ h t ht u hu => ?_
  obtain ⟨t', ht', htw⟩ := emits_within (hp _ hp₁) (hsound _ hp₁) t ht
  obtain ⟨u', hu', huw⟩ := emits_within (hp _ hp₂) (hsound _ hp₂) u hu
  exact (h t' ht' u' hu').within htw huw

end Part

/-! ### Shifts -/

theorem Table.insert_of_notMem {α : Type} {t : Table α} {p : Position} (a : α) (h : p ∉ t.map (·.1)) :
    t.insert p a = t ++ [(p, a)] := by
  rw [Table.insert, List.filter_eq_self.2]
  intro e he
  rw [bne_iff_ne]
  rintro rfl
  exact h (List.mem_map_of_mem he)

theorem lookup_filter_key {α β : Type} [BEq α] [LawfulBEq α] (f : α → Bool) (a : α)
    (l : List (α × β)) :
    (l.filter fun e => f e.1).lookup a = if f a then l.lookup a else none := by
  induction l with
  | nil => simp
  | cons e l ih =>
    obtain ⟨k, b⟩ := e
    by_cases ha : a = k
    · subst ha
      cases hf : f a <;> simp [hf, ih]
    · have hb : (a == k) = false := beq_eq_false_iff_ne.2 ha
      cases hf : f k <;> simp [hf, List.lookup_cons, hb, ih]

namespace Stripper

variable {s s' : Stripper} {first kept : Token} {p : Part}

theorem shiftOf_take (s : Stripper) (first kept : Token) (r : Nat) :
    (s.take first kept).shiftOf r =
      s.shiftOf r + if r = first.start.row then kept.start.col - first.start.col else 0 := by
  rw [shiftOf, take, List.lookup_append, lookup_filter_key (· != first.start.row)]
  by_cases hr : r = first.start.row
  · rw [hr, if_neg (by simp), Option.none_or, List.lookup_cons_self, if_pos rfl]
    rfl
  · have hb : (r == first.start.row) = false := beq_eq_false_iff_ne.2 hr
    rw [if_pos (bne_iff_ne.2 hr), List.lookup_cons, hb, if_neg hr]
    exact congrArg (Option.getD · 0) Option.or_none

theorem shift_congr {t : Token} (h : s'.shiftOf t.start.row = s.shiftOf t.start.row) :
    s'.shift t = s.shift t := by
  unfold shift
  split
  · rename_i hrow
    rw [hrow, h]
  · rw [h]

theorem shift_zero {t : Token} (h : s.shiftOf t.start.row = 0) : s.shift t = t := by
  have hstop : (if t.stop.row = t.start.row then (⟨t.stop.row, t.stop.col - s.shiftOf t.stop.row⟩ : Position)
      else t.stop) = t.stop := by
    split
    · rename_i hrow
      rw [hrow, h, ← hrow]
      rfl
    · rfl
  rw [shift, h, hstop]
  rfl

theorem emitAll_shifts (s : Stripper) (ts : List Token) : (s.emitAll ts).shifts = s.shifts := by
  induction ts generalizing s with
  | nil => rfl
  | cons t ts ih => exact ih (s.emit t)

theorem emitAll_emitted (s : Stripper) (ts : List Token) :
    (s.emitAll ts).emitted.reverse = s.emitted.reverse ++ ts.map s.shift := by
  induction ts generalizing s with
  | nil => exact (List.append_nil _).symm
  | cons t ts ih =>
    rw [emitAll, List.foldl_cons]
    rw [← emitAll, ih]
    show (s.shift t :: s.emitted).reverse ++ ts.map s.shift = _
    simp

theorem put_shifts (s : Stripper) (p : Part) : (s.put p).shifts = (s.takeLead p).shifts :=
  emitAll_shifts ..

theorem put_emitted (s : Stripper) (p : Part) :
    (s.put p).emitted.reverse = s.emitted.reverse ++ p.emits.map (s.takeLead p).shift := by
  have htake : (s.takeLead p).emitted = s.emitted := by
    unfold takeLead
    cases p.lead? <;> rfl
  exact (emitAll_emitted ..).trans (by rw [htake])

def place (s : Stripper) (t : Token) : Token := if t.isMargin then t else s.shift t

def entries {α : Type} (s : Stripper) (mark : Part → Option (Token × α)) (parts : List Part) : Table α :=
  parts.filterMap fun p => s.entry (mark p)

def placedJump (s : Stripper) (p : Part) : Option (Token × JumpTail) :=
  p.jumpMark?.map fun m => (m.1, { m.2 with value := m.2.value.map s.place })

theorem placedJump_marked (s : Stripper) (p : Part) (m : Token × JumpTail)
    (h : s.placedJump p = some m) : p.marked? = some m.1 := by
  obtain ⟨m', hm, rfl⟩ := Option.map_eq_some_iff.1 h
  exact Part.jumpMark_marked p m' hm

theorem mem_entries {α : Type} {parts : List Part} {mark : Part → Option (Token × α)} {e : Position × α}
    (h : e ∈ s.entries mark parts) : ∃ p ∈ parts, ∃ t, mark p = some (t, e.2) := by
  obtain ⟨p, hp, hentry⟩ := List.mem_filterMap.1 h
  obtain ⟨m, hm, rfl⟩ := Option.map_eq_some_iff.1 hentry
  exact ⟨p, hp, m.1, hm⟩

/-- A shortened row goes on with the token `k`, behind what was taken out. -/
structure Opens (s : Stripper) (parts : List Part) (r : Nat) (k : Token) : Prop where
  mem : k ∈ parts.flatMap Part.tokens
  margin : k.isMargin = false
  row : k.start.row = r
  first : ∃ f ∈ parts.flatMap Part.tokens, f.isMargin = false ∧ f.start.row = r ∧
    f.start.col + s.shiftOf r ≤ k.start.col
  emits : ∀ t ∈ parts.flatMap Part.emits, t.isMargin = false → t.start.row = r → k.start ≤ t.start
  values : ∀ q ∈ parts, ∀ c ∈ q.value?, ∀ t ∈ c.value, t.isMargin = false → t.start.row = r → k.start ≤ t.start
  overRows : ∀ t ∈ parts.flatMap Part.tokens, t.isMargin = false → t.stop.row = r → t.start.row = r

structure Kept (s : Stripper) (parts : List Part) : Prop where
  fits : ∀ p ∈ parts, p.Fits
  emitted : s.emitted.reverse = (parts.flatMap Part.emits).map s.place
  loops : s.marks.loops = s.entries Part.loopMark? parts
  headers : s.marks.headers = s.entries Part.headerMark? parts
  blocks : s.marks.blocks = s.entries Part.blockMark? parts
  jumps : s.marks.jumps = s.entries s.placedJump parts
  rows : ∀ r, s.shiftOf r ≠ 0 → ∃ k, Opens s parts r k
  values : ∀ q ∈ parts, ∀ c ∈ q.value?, ValueForm 0 c.value
  rowsOnce : (s.shifts.map (·.1)).Nodup

structure Next (parts : List Part) (p : Part) : Prop where
  ordered : Ordered (parts.flatMap Part.tokens ++ p.tokens)
  fits : p.Fits
  inRow : p.InRow
  value : ∀ c ∈ p.value?, ValueForm 0 c.value
  fresh : ∀ lead ∈ p.lead?, ∀ t ∈ parts.flatMap Part.tokens, t.isMargin = false →
    t.stop.row < lead.1.start.row

variable {parts : List Part}

theorem flatMap_concat {α : Type} (f : Part → List α) (parts : List Part) (p : Part) :
    (parts ++ [p]).flatMap f = parts.flatMap f ++ f p := by simp

theorem put_shiftOf (s : Stripper) (p : Part) : (s.put p).shiftOf = (s.takeLead p).shiftOf := by
  funext r
  rw [shiftOf, shiftOf, put_shifts]

theorem put_shift (s : Stripper) (p : Part) : (s.put p).shift = (s.takeLead p).shift :=
  funext fun _ => shift_congr (congrFun (put_shiftOf s p) _)

theorem takeLead_shiftOf (s : Stripper) (p : Part) (r : Nat) :
    (s.takeLead p).shiftOf r = s.shiftOf r + p.lead?.elim 0 fun lead =>
      if r = lead.1.start.row then lead.2.start.col - lead.1.start.col else 0 := by
  unfold takeLead
  cases p.lead? with
  | none => rfl
  | some lead => exact shiftOf_take ..

namespace Next

theorem shiftOf_put (h : Next parts p) (s : Stripper) {t : Token}
    (ht : t ∈ parts.flatMap Part.tokens) (hm : t.isMargin = false) {r : Nat} (hr : r ≤ t.stop.row) :
    (s.put p).shiftOf r = s.shiftOf r := by
  rw [put_shiftOf, takeLead_shiftOf]
  cases hlead : p.lead? with
  | none => rfl
  | some lead =>
    have := h.fresh lead hlead t ht hm
    exact congrArg _ (if_neg (by omega))

end Next

theorem Kept.within (hk : Kept s parts) (ho : Ordered (parts.flatMap Part.tokens)) {t : Token}
    (ht : t ∈ parts.flatMap Part.emits) : ∃ u ∈ parts.flatMap Part.tokens, t.Within u := by
  obtain ⟨q, hq, ht⟩ := List.mem_flatMap.1 ht
  obtain ⟨u, hu, hw⟩ := Part.emits_within (hk.fits q hq)
    (fun t ht => ho.sound t (List.mem_flatMap.2 ⟨q, hq, ht⟩)) t ht
  exact ⟨u, List.mem_flatMap.2 ⟨q, hq, hu⟩, hw⟩

theorem Next.ordered_left (h : Next parts p) : Ordered (parts.flatMap Part.tokens) where
  pairwise := (List.pairwise_append.1 h.ordered.pairwise).1
  sound t ht := h.ordered.sound t (List.mem_append_left _ ht)

theorem Next.precedes (h : Next parts p) {t u : Token} (ht : t ∈ parts.flatMap Part.tokens)
    (hu : u ∈ p.tokens) : t.Precedes u :=
  (List.pairwise_append.1 h.ordered.pairwise).2.2 t ht u hu

theorem Next.sound (h : Next parts p) : ∀ t ∈ p.tokens, t.Sound := fun t ht =>
  h.ordered.sound t (List.mem_append_right _ ht)

namespace Kept

theorem shiftOf_put (hk : Kept s parts) (h : Next parts p) {t : Token}
    (ht : t ∈ parts.flatMap Part.emits) (hm : t.isMargin = false) :
    (s.put p).shiftOf t.start.row = s.shiftOf t.start.row := by
  obtain ⟨u, hu, hw⟩ := hk.within h.ordered_left ht
  rcases hw with rfl | hw
  · exact h.shiftOf_put s hu hm (Position.row_le (h.ordered_left.sound t hu).start_le_stop)
  · exact h.shiftOf_put s hu hw.margin' (Position.row_le (hw.start_le_stop.trans hw.stop_le))

theorem shift_put (hk : Kept s parts) (h : Next parts p) {t : Token}
    (ht : t ∈ parts.flatMap Part.emits) (hm : t.isMargin = false) : (s.put p).shift t = s.shift t :=
  shift_congr (hk.shiftOf_put h ht hm)

theorem place_put (hk : Kept s parts) (h : Next parts p) {t : Token}
    (ht : t ∈ parts.flatMap Part.emits) : (s.put p).place t = s.place t := by
  unfold place
  split
  · rfl
  · rename_i hm
    exact hk.shift_put h ht (Bool.not_eq_true _ ▸ hm)

theorem shiftOf_le {t k : Token} (ho : Opens s parts t.start.row k) (h : k.start ≤ t.start) :
    s.shiftOf t.start.row ≤ t.start.col := by
  obtain ⟨f, -, -, -, hfirst⟩ := ho.first
  rw [Position.le_def, ho.row] at h
  omega

theorem columns (hk : Kept s parts) {t : Token} (ht : t ∈ parts.flatMap Part.emits) (hm : t.isMargin = false) :
    s.shiftOf t.start.row ≤ t.start.col := by
  by_contra hlt
  obtain ⟨k, hopens⟩ := hk.rows t.start.row (by omega)
  exact hlt (shiftOf_le hopens (hopens.emits t ht hm rfl))

theorem value_columns (hk : Kept s parts) {q : Part} (hq : q ∈ parts) {c : WithClause} (hc : c ∈ q.value?)
    {t : Token} (ht : t ∈ c.value) (hm : t.isMargin = false) : s.shiftOf t.start.row ≤ t.start.col := by
  by_contra hlt
  obtain ⟨k, hopens⟩ := hk.rows t.start.row (by omega)
  exact hlt (shiftOf_le hopens (hopens.values q hq c hc t ht hm rfl))

theorem overRows (hk : Kept s parts) {t : Token} (ht : t ∈ parts.flatMap Part.tokens) (hm : t.isMargin = false)
    (hrows : t.stop.row ≠ t.start.row) : s.shiftOf t.stop.row = 0 := by
  by_contra hne
  obtain ⟨k, hopens⟩ := hk.rows _ hne
  exact hrows (hopens.overRows t ht hm rfl).symm

theorem margins (hk : Kept s parts) (ho : Ordered (parts.flatMap Part.tokens)) {t d : Token}
    (ht : t ∈ parts.flatMap Part.emits) (hm : t.isMargin = false) (hd : d ∈ parts.flatMap Part.tokens)
    (hdm : d.isMargin = true) (hrow : d.stop.row = t.start.row) :
    d.stop.col + s.shiftOf t.start.row ≤ t.start.col := by
  by_cases hzero : s.shiftOf t.start.row = 0
  · obtain ⟨u, hu, hw⟩ := hk.within ho ht
    have hle := (ho.margin_le hd hu hdm (hw.margin ▸ hm) (hrow ▸ hw.row_le_stop (ho.sound u hu))).trans hw.start_le
    rw [Position.le_def] at hle
    omega
  · obtain ⟨k, hopens⟩ := hk.rows _ hzero
    obtain ⟨f, hf, hfm, hfrow, hfirst⟩ := hopens.first
    have hle := ho.margin_le hd hf hdm hfm
      (hrow.trans hfrow.symm ▸ Position.row_le (ho.sound f hf).start_le_stop)
    have hkt := hopens.emits t ht hm rfl
    rw [Position.le_def, hopens.row] at hkt
    rw [Position.le_def] at hle
    omega

theorem opens_before {r : Nat} {k : Token} (ho : Opens s parts r k) (h : Next parts p)
    (heq : (s.put p).shiftOf r = s.shiftOf r) : Opens (s.put p) (parts ++ [p]) r k := by
  have hstart {u : Token} (hu : u ∈ p.tokens) (hm : u.isMargin = false) : k.start ≤ u.start :=
    (h.ordered_left.sound k ho.mem).start_le_stop.trans ((h.precedes ho.mem hu).apart hm)
  obtain ⟨f, hf, hfirst⟩ := ho.first
  refine ⟨flatMap_concat .. ▸ List.mem_append_left _ ho.mem, ho.margin, ho.row,
    ⟨f, flatMap_concat .. ▸ List.mem_append_left _ hf, heq ▸ hfirst⟩, fun t ht hm hr => ?_, fun q hq c hc t ht hm hr => ?_,
    fun t ht hm hr => ?_⟩
  · rw [flatMap_concat, List.mem_append] at ht
    rcases ht with ht | ht
    · exact ho.emits t ht hm hr
    · obtain ⟨u, hu, rfl | hw⟩ := Part.emits_within h.fits h.sound t ht
      · exact hstart hu hm
      · exact (hstart hu hw.margin').trans hw.start_le
  · rcases List.mem_append.1 hq with hq | hq
    · exact ho.values q hq c hc t ht hm hr
    · obtain rfl := List.mem_singleton.1 hq
      exact hstart (Part.value_tokens hc ht) hm
  · rw [flatMap_concat, List.mem_append] at ht
    rcases ht with ht | ht
    · exact ho.overRows t ht hm hr
    · have := Position.row_le (hstart ht hm)
      have := Position.row_le (h.sound t ht).start_le_stop
      have := ho.row
      omega

theorem opens_lead (hk : Kept s parts) (h : Next parts p) {first kept : Token}
    (hlead : p.lead? = some (first, kept)) : Opens (s.put p) (parts ++ [p]) first.start.row kept := by
  obtain ⟨before, after, htokens, hname, hkept, hmargins, hemits⟩ := Part.lead_split h.fits hlead
  have hpair : (first :: before ++ kept :: after).Pairwise Token.Precedes :=
    htokens ▸ (List.pairwise_append.1 h.ordered.pairwise).2.1
  have hmk := Token.isMargin_name hkept
  have hmem : kept ∈ p.tokens := by simp [htokens]
  have hmem₁ : first ∈ p.tokens := by simp [htokens]
  have hstart {u : Token} (hu : u ∈ p.tokens) (hm : u.isMargin = false) : first.start ≤ u.start := by
    rw [htokens, List.cons_append] at hu
    rcases List.mem_cons.1 hu with rfl | hu
    · exact le_refl _
    · exact (h.sound first hmem₁).start_le_stop.trans ((List.pairwise_cons.1 hpair).1 u hu |>.apart hm)
  -- the row is fresh
  have hfresh {u : Token} (hu : u ∈ parts.flatMap Part.tokens) (hm : u.isMargin = false) :
      u.start.row ≤ u.stop.row ∧ u.stop.row < first.start.row :=
    ⟨Position.row_le (h.ordered_left.sound u hu).start_le_stop, h.fresh _ hlead u hu hm⟩
  have hzero : s.shiftOf first.start.row = 0 := by
    by_contra hne
    obtain ⟨k, hopens⟩ := hk.rows _ hne
    have := hfresh hopens.mem hopens.margin
    have := hopens.row
    omega
  have hcol : first.start.col ≤ kept.start.col := by
    have hle := hstart hmem hmk
    have hrow : kept.start.row = first.start.row := h.inRow _ hlead
    rw [Position.le_def] at hle
    omega
  refine ⟨flatMap_concat .. ▸ List.mem_append_right _ hmem, hmk, h.inRow _ hlead,
    ⟨first, flatMap_concat .. ▸ List.mem_append_right _ hmem₁, Token.isMargin_name hname, rfl, ?_⟩, fun t ht hm hr => ?_,
    fun q hq c hc t ht hm hr => ?_, fun t ht hm hr => ?_⟩
  · rw [put_shiftOf, takeLead_shiftOf, hlead, hzero, Option.elim_some, if_pos rfl, Nat.zero_add]
    exact Nat.le_of_eq (Nat.add_sub_of_le hcol)
  · rw [flatMap_concat, List.mem_append] at ht
    rcases ht with ht | ht
    · obtain ⟨u, hu, hw⟩ := hk.within h.ordered_left ht
      have := hfresh hu (hw.margin ▸ hm)
      have := hw.row_le_stop (h.ordered_left.sound u hu)
      omega
    · obtain ⟨u, hu, hmu, hle⟩ := hemits t ht
      rcases List.mem_cons.1 hu with rfl | hu
      · exact hle
      · have hafter := (List.pairwise_cons.1 (List.pairwise_append.1 hpair).2.1).1 u hu
        exact ((h.sound kept hmem).start_le_stop.trans (hafter.apart (hmu ▸ hm))).trans hle
  · rcases List.mem_append.1 hq with hq | hq
    · have := hfresh (List.mem_flatMap.2 ⟨q, hq, Part.value_tokens hc ht⟩) hm
      omega
    · obtain rfl := List.mem_singleton.1 hq
      cases q with
      | jump => cases hlead
      | _ => cases hc
  · rw [flatMap_concat, List.mem_append] at ht
    rcases ht with ht | ht
    · have := hfresh ht hm
      omega
    · have := Position.row_le (hstart ht hm)
      have := Position.row_le (h.sound t ht).start_le_stop
      omega

theorem shifted (hk : Kept s parts) {r : Nat} (hr : (s.put p).shiftOf r ≠ 0) :
    (∃ k, Opens s parts r k ∧ (s.put p).shiftOf r = s.shiftOf r) ∨
      ∃ first kept, p.lead? = some (first, kept) ∧ r = first.start.row := by
  have hshift := (congrFun (put_shiftOf s p) r).trans (takeLead_shiftOf s p r)
  cases hlead : p.lead? with
  | none =>
    rw [hlead, Option.elim_none, Nat.add_zero] at hshift
    exact .inl ((hk.rows r (hshift ▸ hr)).imp fun _ hk => ⟨hk, hshift⟩)
  | some lead =>
    by_cases hfirst : r = lead.1.start.row
    · exact .inr ⟨_, _, rfl, hfirst⟩
    · rw [hlead, Option.elim_some, if_neg hfirst, Nat.add_zero] at hshift
      exact .inl ((hk.rows r (hshift ▸ hr)).imp fun _ hk => ⟨hk, hshift⟩)

theorem rows_put (hk : Kept s parts) (h : Next parts p) (r : Nat) (hr : (s.put p).shiftOf r ≠ 0) :
    ∃ k, Opens (s.put p) (parts ++ [p]) r k := by
  rcases hk.shifted hr with ⟨k, hopens, heq⟩ | ⟨first, kept, hlead, rfl⟩
  · exact ⟨k, opens_before hopens h heq⟩
  · exact ⟨kept, hk.opens_lead h hlead⟩

theorem shift_margin (hk : Kept s parts) (h : Next parts p) {u : Token} (hu : u ∈ p.tokens)
    (hm : u.isMargin = true) : (s.put p).shift u = u := by
  refine shift_zero ?_
  by_contra hne
  -- a token before it in its row
  obtain ⟨k, hmem, hkm, hrow, hpre⟩ : ∃ k ∈ parts.flatMap Part.tokens ++ p.tokens, k.isMargin = false ∧
      k.start.row = u.start.row ∧ k.Precedes u := by
    rcases hk.shifted hne with ⟨k, hopens, -⟩ | ⟨first, kept, hlead, hrow⟩
    · exact ⟨k, List.mem_append_left _ hopens.mem, hopens.margin, hopens.row, h.precedes hopens.mem hu⟩
    · obtain ⟨before, after, htokens, hname, -⟩ := Part.lead_split h.fits hlead
      have hpair := (List.pairwise_append.1 h.ordered.pairwise).2.1
      rw [htokens, List.cons_append] at hpair hu
      rcases List.mem_cons.1 hu with rfl | hu
      · exact absurd (hm.symm.trans (Token.isMargin_name hname)) (by decide)
      · exact ⟨first, by simp [htokens], Token.isMargin_name hname, hrow.symm, (List.pairwise_cons.1 hpair).1 u hu⟩
  have := hpre.opens hkm hm
  have := Position.row_le (h.ordered.sound k hmem).start_le_stop
  omega

theorem shift_eq_place (hk : Kept s parts) (h : Next parts p) {u : Token} (hu : u ∈ p.tokens) :
    (s.put p).shift u = (s.put p).place u := by
  unfold place
  split
  · rename_i hm
    exact hk.shift_margin h hu hm
  · rfl

theorem place_ne {t u : Token} (ht : t.stop.row = t.start.row ∧ t.start.col < t.stop.col)
    (htu : t.stop ≤ u.start) (hcol : s.shiftOf t.start.row ≤ t.start.col) :
    (s.shift t).start ≠ (s.shift u).start := by
  intro heq
  simp only [shift, Position.mk.injEq] at heq
  obtain ⟨hrow, hshift⟩ := heq
  rw [Position.le_def] at htu
  rw [← hrow] at hshift
  omega

theorem enter_entries {α : Type} (hk : Kept s parts) (h : Next parts p)
    {mark mark' : Part → Option (Token × α)} (hmark : ∀ q ∈ parts, mark' q = mark q)
    (hmarked : ∀ q e, mark' q = some e → q.marked? = some e.1) :
    (s.entries mark parts).enter ((s.takeLead p).entry (mark' p)) =
      (s.put p).entries mark' (parts ++ [p]) := by
  have hfits : ∀ q ∈ parts ++ [p], q.Fits := by
    simpa [or_imp, forall_and] using ⟨hk.fits, h.fits⟩
  have hold : s.entries mark parts = (s.put p).entries mark' parts := by
    refine List.filterMap_congr fun q hq => ?_
    rw [hmark q hq]
    cases hm : mark q with
    | none => rfl
    | some e =>
      obtain ⟨hhead, hkind⟩ := Part.marked_emits (hk.fits q hq) (hmarked q e ((hmark q hq).trans hm))
      have hmem := List.mem_flatMap.2 ⟨q, hq, List.mem_of_mem_head? hhead⟩
      rw [entry, entry, Option.map_some, Option.map_some,
        hk.shift_put h hmem (Token.isMargin_name hkind)]
  rw [hold, entries, entries, List.filterMap_append, List.filterMap_cons, List.filterMap_nil]
  have hnew : (s.takeLead p).entry (mark' p) = (s.put p).entry (mark' p) := by
    rw [entry, entry, put_shift]
  rw [hnew]
  cases hm : mark' p with
  | none => simp [entry, Table.enter]
  | some e =>
    refine Table.insert_of_notMem _ ?_
    intro hmem
    obtain ⟨e', he', heq⟩ := List.mem_map.1 hmem
    obtain ⟨q, hq, hentry⟩ := List.mem_filterMap.1 he'
    obtain ⟨m, hm', rfl⟩ := Option.map_eq_some_iff.1 hentry
    have hmark' := hmarked q m hm'
    obtain ⟨hhead, hkind⟩ := Part.marked_emits (hk.fits q hq) hmark'
    obtain ⟨hhead', hkind'⟩ := Part.marked_emits h.fits (hmarked p e hm)
    have hq' := List.mem_flatMap.2 ⟨q, hq, List.mem_of_mem_head? hhead⟩
    have hapart := Part.emits_ordered hfits (flatMap_concat .. ▸ h.ordered)
    rw [flatMap_concat, List.pairwise_append] at hapart
    have hle := hapart.2.2 _ hq' e.1 (List.mem_of_mem_head? hhead')
      |>.apart (Token.isMargin_name hkind')
    have hsoundq : ∀ t ∈ q.tokens, t.Sound := fun t ht =>
      h.ordered_left.sound t (List.mem_flatMap.2 ⟨q, hq, ht⟩)
    have hcol : (s.put p).shiftOf m.1.start.row ≤ m.1.start.col := by
      rw [hk.shiftOf_put h hq' (Token.isMargin_name hkind)]
      exact hk.columns hq' (Token.isMargin_name hkind)
    exact place_ne (Part.marked_extent (hk.fits q hq) hsoundq hmark') hle hcol heq

theorem jumpEntry_put (hk : Kept s parts) (h : Next parts p) :
    (s.takeLead p).jumpEntry p = (s.takeLead p).entry ((s.put p).placedJump p) := by
  unfold jumpEntry placedJump entry
  cases hm : p.jumpMark? with
  | none => rfl
  | some m =>
    have hvalue : m.2.value.map (s.takeLead p).shift = m.2.value.map (s.put p).place := by
      refine List.map_congr_left fun t ht => ?_
      rw [← put_shift]
      exact hk.shift_eq_place h (Part.jumpMark_value hm ht)
    simp [hvalue]

theorem placedJump_put (h : Next parts p) (s : Stripper) {q : Part} (hq : q ∈ parts) :
    (s.put p).placedJump q = s.placedJump q := by
  unfold placedJump
  cases hm : q.jumpMark? with
  | none => rfl
  | some m =>
    have hvalue : m.2.value.map (s.put p).place = m.2.value.map s.place := by
      refine List.map_congr_left fun t ht => ?_
      have hmem := List.mem_flatMap.2 ⟨q, hq, Part.jumpMark_value hm ht⟩
      unfold place
      split
      · rfl
      · rename_i hmargin
        exact shift_congr (h.shiftOf_put s hmem (Bool.not_eq_true _ ▸ hmargin)
          (Position.row_le (h.ordered_left.sound t hmem).start_le_stop))
    simp [hvalue]

theorem emitted_put (hk : Kept s parts) (h : Next parts p) :
    (s.put p).emitted.reverse = ((parts ++ [p]).flatMap Part.emits).map (s.put p).place := by
  have hold : (parts.flatMap Part.emits).map s.place = (parts.flatMap Part.emits).map (s.put p).place :=
    List.map_congr_left fun t ht => (hk.place_put h ht).symm
  have hnew : p.emits.map (s.takeLead p).shift = p.emits.map (s.put p).place := by
    refine List.map_congr_left fun t ht => ?_
    rw [← put_shift]
    obtain ⟨u, hu, rfl | hin⟩ := Part.emits_within h.fits h.sound t ht
    · exact hk.shift_eq_place h hu
    · rw [place, hin.margin]
      rfl
  rw [put_emitted, hk.emitted, hold, hnew]
  simp

theorem rowsOnce_put (hk : Kept s parts) : ((s.put p).shifts.map (·.1)).Nodup := by
  rw [put_shifts, takeLead]
  cases p.lead? with
  | none => exact hk.rowsOnce
  | some lead =>
    rw [Option.elim_some, take, List.map_append]
    refine List.Nodup.append (hk.rowsOnce.sublist (List.filter_sublist.map _)) (by simp) ?_
    intro r hr hr'
    obtain ⟨e, he, rfl⟩ := List.mem_map.1 hr
    have hne := (List.mem_filter.1 he).2
    simp_all

theorem put (hk : Kept s parts) (h : Next parts p) : Kept (s.put p) (parts ++ [p]) where
  fits := by simpa [or_imp, forall_and] using ⟨hk.fits, h.fits⟩
  emitted := hk.emitted_put h
  loops := by
    show s.marks.loops.enter _ = _
    rw [hk.loops]
    exact hk.enter_entries h (fun _ _ => rfl) Part.loopMark_marked
  headers := by
    show s.marks.headers.enter _ = _
    rw [hk.headers]
    exact hk.enter_entries h (fun _ _ => rfl) Part.headerMark_marked
  blocks := by
    show s.marks.blocks.enter _ = _
    rw [hk.blocks]
    exact hk.enter_entries h (fun _ _ => rfl) Part.blockMark_marked
  jumps := by
    show s.marks.jumps.enter _ = _
    rw [hk.jumps, hk.jumpEntry_put h]
    exact hk.enter_entries h (fun q hq => placedJump_put h s hq) (s.put p).placedJump_marked
  rows := hk.rows_put h
  values := by simpa [or_imp, forall_and] using ⟨hk.values, h.value⟩
  rowsOnce := hk.rowsOnce_put

theorem settings (hk : Kept s parts) (settings : Settings) : Kept { s with settings } parts :=
  ⟨hk.fits, hk.emitted, hk.loops, hk.headers, hk.blocks, hk.jumps, fun r hr => by
    obtain ⟨k, hopens⟩ := hk.rows r hr
    exact ⟨k, hopens.mem, hopens.margin, hopens.row, hopens.first, hopens.emits, hopens.values, hopens.overRows⟩,
    hk.values, hk.rowsOnce⟩

theorem start : Kept {} [] where
  fits := by simp
  emitted := rfl
  loops := rfl
  headers := rfl
  blocks := rfl
  jumps := rfl
  rows r hr := absurd rfl hr
  values := by simp
  rowsOnce := List.nodup_nil

end Kept

/-! ### Runs -/

theorem notePragma_settings {t : Token} (h : s.notePragma t = .ok s') :
    ∃ settings, s' = { s with settings } := by
  unfold notePragma at h
  split at h
  · cases h
    exact ⟨s.settings, rfl⟩
  · split at h
    · cases h
      exact ⟨s.settings, rfl⟩
    · split at h
      · cases h
      · cases h
        exact ⟨_, rfl⟩

def Fresh (before ts : List Token) : Prop :=
  ∀ t ∈ before, t.isMargin = false → ∀ u ∈ ts.head?, u.kind = .name → t.stop.row < u.start.row

theorem fresh_of_boundary {before ts : List Token} {t : Token} (ho : Ordered (before ++ t :: ts))
    (hb : t.isBoundary = true) : Fresh (before ++ [t]) ts := by
  intro x hx hxm u hu hname
  have hmem : u ∈ ts := List.mem_of_mem_head? hu
  obtain ⟨-, htail, hbetween⟩ := List.pairwise_append.1 ho.pairwise
  have htu : t.Precedes u := (List.pairwise_cons.1 htail).1 u hmem
  have hu' : u.endsRow = false := by simp [Token.endsRow, hname]
  by_cases htm : t.isMargin = true
  · rcases List.mem_append.1 hx with hx | hx
    · have hopens := (hbetween x hx t (List.mem_cons_self ..)).opens hxm htm
      have hbehind := htu.behind htm
      omega
    · rw [List.mem_singleton.1 hx, htm] at hxm
      cases hxm
  · rw [Bool.not_eq_true] at htm
    have hends : t.endsRow = true := by
      cases hk : t.kind <;> simp_all [Token.isBoundary, Token.endsRow, Token.isMargin]
    have hrow := htu.newRow hends (Token.closesText_of_endsRow hu')
    rcases List.mem_append.1 hx with hx | hx
    · have happart := Position.row_le ((hbetween x hx t (List.mem_cons_self ..)).apart htm)
      have hstop := (ho.sound t (by simp)).oneRow hends
      omega
    · rw [List.mem_singleton.1 hx]
      exact hrow

theorem run_kept {fresh : Bool} {ts : List Token} (h : s.run fresh ts = .ok s') (hk : Kept s parts)
    (ho : Ordered (parts.flatMap Part.tokens ++ ts))
    (hfresh : fresh = true → Fresh (parts.flatMap Part.tokens) ts) :
    ∃ rest, Kept s' (parts ++ rest) ∧ ts = rest.flatMap Part.tokens := by
  fun_induction run s fresh ts generalizing parts with
  | case1 =>
    cases h
    exact ⟨[], by simpa using hk, rfl⟩
  | case2 | case3 | case4 => cases h
  | case5 s fresh t rest s₁ hpragma hname found s₂ left hconsume =>
    rename_i ih
    obtain ⟨settings, rfl⟩ := notePragma_settings hpragma
    obtain ⟨p, hputs, hlead, hstarts⟩ := consume_part hconsume
    have htokens : parts.flatMap Part.tokens ++ t :: rest =
        (parts ++ [p]).flatMap Part.tokens ++ left := by
      rw [hputs.tokens]
      simp
    have hordered : Ordered (parts.flatMap Part.tokens ++ p.tokens) := by
      have hsub : (parts.flatMap Part.tokens ++ p.tokens).Sublist
          ((parts ++ [p]).flatMap Part.tokens ++ left) := by simp
      exact ⟨(htokens ▸ ho.pairwise).sublist hsub, fun t ht => ho.sound t (htokens ▸ hsub.subset ht)⟩
    have hnext : Next parts p := by
      refine ⟨hordered, hputs.fits, hputs.inRow, hputs.value, ?_⟩
      rintro ⟨first, kept⟩ hp x hx hxm
      obtain ⟨before, after, hsplit, hkind, -⟩ := Part.lead_split hputs.fits hp
      have hfirst : t = first := by
        have := hputs.tokens
        rw [hsplit] at this
        exact (List.cons.inj this).1
      have hf : fresh = true := (Bool.and_eq_true_iff.1 (hlead (by rw [hp]; rfl))).1
      exact hfresh hf x hx hxm first (by simp [hfirst]) hkind
    rw [hputs.put] at ih h
    obtain ⟨rest', hkept, hrest⟩ := ih h ((hk.settings settings).put hnext) (htokens ▸ ho) fun hs => by
      obtain ⟨rfl, hboundary⟩ := hstarts hs
      have hleft : rest = left := (List.cons.inj hputs.tokens).2
      rw [List.flatMap_append]
      exact fresh_of_boundary (hleft ▸ ho) hboundary
    exact ⟨p :: rest', by simpa using hkept, by rw [hputs.tokens, hrest]; rfl⟩

theorem run_parts {source : String} {stream : TokenStream} (hscan : scan source = .ok stream)
    (hrun : ({} : Stripper).run true stream.tokens = .ok s) :
    ∃ parts, Kept s parts ∧ stream.tokens = parts.flatMap Part.tokens :=
  run_kept hrun Kept.start (scan_ordered hscan) fun _ => nofun

/-! ### What a run gives -/

theorem lookup_nonzero {l : List (Nat × Nat)} (h : (l.map (·.1)).Nodup) (r : Nat) :
    ((l.filter fun e => e.2 != 0).lookup r).getD 0 = (l.lookup r).getD 0 := by
  induction l with
  | nil => rfl
  | cons e l ih =>
    obtain ⟨k, v⟩ := e
    obtain ⟨hk, hl⟩ := List.nodup_cons.1 h
    by_cases hr : r = k
    · subst hr
      by_cases hv : v = 0
      · have hnone : l.lookup r = none := by
          rw [List.lookup_eq_none_iff]
          intro e he
          have hne : e.1 ≠ r := fun heq => hk (List.mem_map.2 ⟨e, he, heq⟩)
          simpa using hne.symm
        simp [hv, ih hl, hnone]
      · simp [hv]
    · have hb : (r == k) = false := beq_eq_false_iff_ne.2 hr
      by_cases hv : v = 0 <;> simp [hv, List.lookup_cons, hb, ih hl]

theorem Kept.adjustments_shiftOf (hk : Kept s parts) (r : Nat) :
    Attach.shiftOf s.adjustments r = s.shiftOf r :=
  lookup_nonzero hk.rowsOnce r

/-- A token of the source and what became of it: indentations apart, adding what was taken out of its
row gives its column back. -/
structure Moved (shifts : Shifts) (t u : Token) : Prop where
  kind : u.kind = t.kind
  text : u.text = t.text
  row : t.isMargin = false → u.start.row = t.start.row
  col : t.isMargin = false → u.start.col = t.start.col - Attach.shiftOf shifts t.start.row
  back : t.isMargin = false → Attach.place shifts u.start = t.start

theorem place_kind (s : Stripper) (t : Token) : (s.place t).kind = t.kind := by
  unfold place
  split <;> rfl

theorem place_isMargin (s : Stripper) (t : Token) : (s.place t).isMargin = t.isMargin := by
  rw [Token.isMargin, place_kind, ← Token.isMargin]

theorem place_endsRow (s : Stripper) (t : Token) : (s.place t).endsRow = t.endsRow := by
  rw [Token.endsRow, place_kind, ← Token.endsRow]

theorem place_text (s : Stripper) (t : Token) : (s.place t).text = t.text := by
  unfold place
  split <;> rfl

theorem place_closesText (s : Stripper) (t : Token) : (s.place t).closesText = t.closesText := by
  rw [Token.closesText, place_kind, place_text, ← Token.closesText]

theorem place_rows (s : Stripper) (t : Token) :
    (s.place t).start.row = t.start.row ∧ (s.place t).stop.row = t.stop.row := by
  unfold place
  split
  · exact ⟨rfl, rfl⟩
  · refine ⟨rfl, ?_⟩
    simp only [shift]
    split <;> rfl

theorem Kept.moved (hk : Kept s parts) {t : Token} (ht : t ∈ parts.flatMap Part.emits) :
    Moved s.adjustments t (s.place t) := by
  by_cases hm : t.isMargin = true
  · have hplace : s.place t = t := if_pos hm
    have hfalse {P : Prop} (h : t.isMargin = false) : P := absurd (hm.symm.trans h) (by decide)
    exact ⟨by rw [hplace], by rw [hplace], hfalse, hfalse, hfalse⟩
  · have hplace : s.place t = s.shift t := if_neg hm
    have hcol := hk.columns ht (by simpa using hm)
    rw [hplace]
    refine ⟨rfl, rfl, fun _ => rfl, fun _ => ?_, fun _ => ?_⟩
    · rw [hk.adjustments_shiftOf]
      rfl
    · simp only [Attach.place, shift, hk.adjustments_shiftOf]
      rw [Nat.sub_add_cancel hcol]

theorem Kept.precedes (hk : Kept s parts) (ho : Ordered (parts.flatMap Part.tokens)) {t u : Token}
    (ht : t ∈ parts.flatMap Part.emits) (hu : u ∈ parts.flatMap Part.emits) (htu : t.Precedes u) :
    (s.place t).Precedes (s.place u) := by
  have hrows := s.place_rows
  refine ⟨fun hm => ?_, fun he he' => ?_, fun hm hm' => ?_, fun hm => ?_⟩
  · rw [place_isMargin] at hm
    obtain ⟨v, hv, hw⟩ := hk.within ho ht
    have hle := htu.apart hm
    have hplace : (s.place u).start = ⟨u.start.row, u.start.col - s.shiftOf u.start.row⟩ := by
      rw [place, if_neg (by simp [hm])]
      rfl
    rw [hplace, Position.le_def, (hrows t).2]
    rw [Position.le_def] at hle
    refine hle.imp id fun ⟨hrow, hcol⟩ => ⟨hrow, ?_⟩
    cases htm : t.isMargin with
    | true =>
      obtain rfl | hin := hw
      · have hmargins := hk.margins ho hu hm hv htm hrow
        rw [place, if_pos htm]
        exact Nat.le_sub_of_add_le hmargins
      · exact absurd (htm.symm.trans hin.margin) (by decide)
    | false =>
      have hover : t.stop.row ≠ t.start.row → s.shiftOf t.stop.row = 0 := fun hover =>
        hw.elim (fun hw => hk.overRows (hw ▸ hv) htm hover) fun hin => absurd hin.oneRow hover
      rw [place, if_neg (by simp [htm])]
      simp only [shift]
      split
      · rw [hrow]
        exact Nat.sub_le_sub_right hcol _
      · rename_i hne
        rw [← hrow, hover hne]
        exact hcol
  · rw [(hrows t).2, (hrows u).1]
    exact htu.newRow (place_endsRow s t ▸ he) (place_closesText s u ▸ he')
  · rw [(hrows t).2, (hrows u).1]
    exact htu.opens (place_isMargin s t ▸ hm) (place_isMargin s u ▸ hm')
  · rw [(hrows t).1, (hrows u).1]
    exact htu.behind (place_isMargin s t ▸ hm)

theorem Kept.emitted_ordered (hk : Kept s parts) (ho : Ordered (parts.flatMap Part.tokens)) :
    s.emitted.reverse.Pairwise Token.Precedes := by
  rw [hk.emitted, List.pairwise_map]
  exact (Part.emits_ordered hk.fits ho).imp_of_mem fun ht hu htu => hk.precedes ho ht hu htu

theorem Kept.entry_emitted {α : Type} (hk : Kept s parts) {mark : Part → Option (Token × α)}
    (hmarked : ∀ q e, mark q = some e → q.marked? = some e.1) {e : Position × α}
    (he : e ∈ s.entries mark parts) :
    ∃ p ∈ parts, ∃ m, mark p = some m ∧ s.shift m.1 ∈ s.emitted ∧ (s.shift m.1).start = e.1 := by
  obtain ⟨p, hp, hentry⟩ := List.mem_filterMap.1 he
  obtain ⟨m, hm, rfl⟩ := Option.map_eq_some_iff.1 hentry
  obtain ⟨hhead, hkind⟩ := Part.marked_emits (hk.fits p hp) (hmarked p m hm)
  refine ⟨p, hp, m, hm, ?_, rfl⟩
  have hmem := List.mem_map_of_mem (f := s.place) (List.mem_flatMap.2 ⟨p, hp, List.mem_of_mem_head? hhead⟩)
  rw [← hk.emitted, List.mem_reverse] at hmem
  rwa [place, Token.isMargin_name hkind] at hmem

end Stripper

def Marks.keys (m : Marks) : List Position :=
  m.loops.map (·.1) ++ (m.headers.map (·.1) ++ (m.blocks.map (·.1) ++ m.jumps.map (·.1)))

namespace Stripper

variable {s : Stripper} {parts : List Part}

theorem entries_cons {α : Type} (s : Stripper) (mark : Part → Option (Token × α)) (p : Part) :
    (s.entries mark (p :: parts)).map (·.1) =
      ((mark p).map fun m => (s.shift m.1).start).toList ++ (s.entries mark parts).map (·.1) := by
  rw [entries, List.filterMap_cons, entry]
  cases mark p <;> rfl

theorem entries_perm (s : Stripper) (parts : List Part) :
    ((s.entries Part.loopMark? parts).map (·.1) ++ ((s.entries Part.headerMark? parts).map (·.1) ++
      ((s.entries Part.blockMark? parts).map (·.1) ++ (s.entries s.placedJump parts).map (·.1)))).Perm
      ((parts.filterMap Part.marked?).map fun k => (s.shift k).start) := by
  induction parts with
  | nil => exact .nil
  | cons p parts ih =>
    rw [entries_cons, entries_cons, entries_cons, entries_cons, List.filterMap_cons]
    cases p with
    | plain t => exact ih
    | loop label keyword => exact ih.cons _
    | callback label word keyword header escapes result => exact List.perm_middle.trans (ih.cons _)
    | block label keyword target =>
      refine .trans ?_ (ih.cons (s.shift keyword.branch).start)
      exact (List.perm_middle.append_left _).trans List.perm_middle
    | jump keyword label value =>
      have hmarked : (Part.jump keyword label value).marked? =
          (Part.jump keyword label value).jumpMark?.map (·.1) := rfl
      rw [placedJump, hmarked]
      cases (Part.jump keyword label value).jumpMark? with
      | none => exact ih
      | some m =>
        refine .trans ?_ (ih.cons (s.shift m.1).start)
        exact ((List.perm_middle.append_left _).trans List.perm_middle).append_left _
          |>.trans List.perm_middle

theorem Kept.keys_nodup (hk : Kept s parts) (ho : Ordered (parts.flatMap Part.tokens)) :
    s.marks.keys.Nodup := by
  rw [Marks.keys, hk.loops, hk.headers, hk.blocks, hk.jumps, (s.entries_perm parts).nodup_iff,
    List.Nodup, List.pairwise_map, List.pairwise_filterMap]
  have hapart := List.pairwise_flatMap.1 (Part.emits_ordered hk.fits ho) |>.2
  refine hapart.imp_of_mem fun {p q} hp hq h k hkp k' hkq => ?_
  obtain ⟨hhead, hkind⟩ := Part.marked_emits (hk.fits p hp) hkp
  obtain ⟨hhead', hkind'⟩ := Part.marked_emits (hk.fits q hq) hkq
  have hmem := List.mem_of_mem_head? hhead
  refine Kept.place_ne (Part.marked_extent (hk.fits p hp) (fun t ht => ?_) hkp) ?_ ?_
  · exact ho.sound t (List.mem_flatMap.2 ⟨p, hp, ht⟩)
  · exact (h k hmem k' (List.mem_of_mem_head? hhead')).apart (Token.isMargin_name hkind')
  · exact hk.columns (List.mem_flatMap.2 ⟨p, hp, hmem⟩) (Token.isMargin_name hkind)

/-- What a run has done with its tokens: they are cut into parts, each part has gone on and left its marks,
and nothing else has. -/
structure Accounts (ts : List Token) (s : Stripper) (parts : List Part) : Prop where
  fits : ∀ p ∈ parts, p.Fits
  -- every token belongs to one part, and what parts go on with comes out in its order
  tokens : ts = parts.flatMap Part.tokens
  moved : List.Forall₂ (Moved s.adjustments) (parts.flatMap Part.emits) s.emitted.reverse
  apart : (s.emitted.reverse.filter (!·.isMargin)).Pairwise fun t u => t.stop ≤ u.start
  -- every construct has its entry, and no two have the same place
  loops : s.marks.loops = s.entries Part.loopMark? parts
  headers : s.marks.headers = s.entries Part.headerMark? parts
  blocks : s.marks.blocks = s.entries Part.blockMark? parts
  jumps : s.marks.jumps = s.entries s.placedJump parts
  distinct : s.marks.keys.Nodup
  -- the places are those of emitted keywords
  loopWords : ∀ e ∈ s.marks.loops, ∃ t ∈ s.emitted, t.start = e.1 ∧ (t.isName "for" ∨ t.isName "while")
  headerWords : ∀ e ∈ s.marks.headers, ∃ t ∈ s.emitted, t.start = e.1 ∧ t.isName "for"
  blockWords : ∀ e ∈ s.marks.blocks, ∃ t ∈ s.emitted, t.start = e.1 ∧ t.isName "if"
  jumpWords : ∀ e ∈ s.marks.jumps, ∃ t ∈ s.emitted, t.start = e.1 ∧
    (t.isName "break" ∨ t.isName "continue")

theorem Kept.accounts (hk : Kept s parts) (ho : Ordered (parts.flatMap Part.tokens)) :
    Accounts (parts.flatMap Part.tokens) s parts := by
  refine ⟨hk.fits, rfl, ?_, ?_, hk.loops, hk.headers, hk.blocks, hk.jumps, hk.keys_nodup ho,
    fun e he => ?_, fun e he => ?_, fun e he => ?_, fun e he => ?_⟩
  · rw [hk.emitted, List.forall₂_map_right_iff, List.forall₂_same]
    exact fun t ht => hk.moved ht
  · exact List.pairwise_filter.2 ((hk.emitted_ordered ho).imp fun h _ hum => h.apart (by simpa using hum))
  · rw [hk.loops] at he
    obtain ⟨p, hp, m, hm, hmem, hstart⟩ := hk.entry_emitted Part.loopMark_marked he
    exact ⟨_, hmem, hstart, Part.loopMark_word (hk.fits p hp) hm⟩
  · rw [hk.headers] at he
    obtain ⟨p, hp, m, hm, hmem, hstart⟩ := hk.entry_emitted Part.headerMark_marked he
    exact ⟨_, hmem, hstart, Part.headerMark_word (hk.fits p hp) hm⟩
  · rw [hk.blocks] at he
    obtain ⟨p, hp, m, hm, hmem, hstart⟩ := hk.entry_emitted Part.blockMark_marked he
    exact ⟨_, hmem, hstart, Part.blockMark_word hm⟩
  · rw [hk.jumps] at he
    obtain ⟨p, hp, m, hm, hmem, hstart⟩ := hk.entry_emitted s.placedJump_marked he
    obtain ⟨m', hm', rfl⟩ := Option.map_eq_some_iff.1 hm
    have hword := Part.jumpMark_word (hk.fits p hp) hm'
    exact ⟨_, hmem, hstart, hword⟩

/-- Going through all tokens of a source accounts for each of them. -/
theorem run_accounts {source : String} {stream : TokenStream} (hscan : scan source = .ok stream)
    (hrun : ({} : Stripper).run true stream.tokens = .ok s) :
    ∃ parts, Accounts stream.tokens s parts := by
  obtain ⟨parts, hk, htokens⟩ := run_parts hscan hrun
  exact ⟨parts, htokens ▸ hk.accounts (htokens ▸ scan_ordered hscan)⟩

def nestedSource : String :=
  "L: for x in y:\n    M: block as z:\n        cbit for u in f(x) break L, loop M as w:\n" ++
  "            u; break M with (1,\n                2)\n"

theorem run_accounts_nested : ∃ stream s parts, scan nestedSource = .ok stream ∧
    ({} : Stripper).run true stream.tokens = .ok s ∧ Accounts stream.tokens s parts ∧
    s.marks.keys = [⟨1, 0⟩, ⟨3, 8⟩, ⟨2, 4⟩, ⟨4, 15⟩] ∧ s.adjustments = [(1, 3), (2, 3), (3, 5)] := by
  have hkeys : ((scan nestedSource).toOption.bind fun stream =>
      (({} : Stripper).run true stream.tokens).toOption.map fun s => (s.marks.keys, s.adjustments)) =
      some ([⟨1, 0⟩, ⟨3, 8⟩, ⟨2, 4⟩, ⟨4, 15⟩], [(1, 3), (2, 3), (3, 5)]) := by
    decide +kernel
  obtain ⟨stream, hscan, hkeys⟩ := Option.bind_eq_some_iff.1 hkeys
  obtain ⟨s, hrun, hkeys⟩ := Option.map_eq_some_iff.1 hkeys
  have hscan := eq_ok_of_toOption hscan
  have hrun := eq_ok_of_toOption hrun
  obtain ⟨parts, haccounts⟩ := run_accounts hscan hrun
  exact ⟨stream, s, parts, hscan, hrun, haccounts, congrArg (·.1) hkeys, congrArg (·.2) hkeys⟩

end Stripper

end LoopEscape
