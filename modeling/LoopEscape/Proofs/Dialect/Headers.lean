import LoopEscape.Proofs.Dialect.Stages
import LoopEscape.Proofs.Token.Texts

/-!
# Clauses

The clauses of headers and jumps with all their tokens, and the form of the header of a callback loop.
What a reader takes has the form of its clause (`…_sound`).
-/

namespace LoopEscape

variable {c t : Token} {depth : Int} {plain ts rest : List Token} {items : List EscapeItem}

def DistinctClause (es : List EscapeLabel) : Prop := (es.map (·.label)).Nodup

/-! ### Clauses -/

structure Labelling where
  label : Token
  colon : Token

/-- One label of a break clause, with the word `loop` before it and the comma behind it. -/
structure EscapeItem where
  word : Option Token
  label : Token
  comma : Option Token

structure BreakClause where
  word : Token
  items : List EscapeItem

structure AsClause where
  word : Token
  name : Token

structure WithClause where
  word : Token
  value : List Token

namespace Labelling

def tokens (l : Labelling) : List Token := [l.label, l.colon]

def Fits (l : Labelling) : Prop := l.label.isIdentifier ∧ l.colon.isOp ":"

end Labelling

namespace EscapeItem

def tokens (i : EscapeItem) : List Token := i.word.toList ++ i.label :: i.comma.toList

def read (i : EscapeItem) : EscapeLabel := ⟨i.label.text, i.word.isSome, i.label.start⟩

structure Fits (i : EscapeItem) : Prop where
  word : ∀ w ∈ i.word, w.isName "loop"
  label : i.label.isIdentifier ∧ i.label.text ≠ "loop"
  comma : ∀ c ∈ i.comma, c.isOp ","

end EscapeItem

namespace BreakClause

def tokens (c : BreakClause) : List Token := c.word :: c.items.flatMap (·.tokens)

def Fits (c : BreakClause) : Prop :=
  c.word.isName "break" ∧ (∀ i ∈ c.items, i.Fits) ∧ DistinctClause (c.items.map (·.read))

end BreakClause

namespace AsClause

def tokens (c : AsClause) : List Token := [c.word, c.name]

def Fits (c : AsClause) : Prop := c.word.isName "as" ∧ c.name.isIdentifier

end AsClause

namespace WithClause

def tokens (c : WithClause) : List Token := c.word :: c.value

def read (c : WithClause) : List Token := c.value.filter (·.kind != .comment)

def Fits (c : WithClause) : Prop := c.word.isName "with" ∧ c.read ≠ []

end WithClause

def optionTokens {α : Type} (tokens : α → List Token) (o : Option α) : List Token := o.elim [] tokens

/-! ### The form of a header -/

def Token.Unreserved (t : Token) : Prop := t.kind = .name → isReserved t.text = false

/-- The target and the call, from a depth of brackets on: they lie within one statement, hold `break`,
`as` and `:` inside brackets only, and what follows them stands outside brackets. -/
structure PlainHeader (depth : Int) (ts : List Token) : Prop where
  inStatement : ∀ t ∈ ts, t.kind ≠ .newline ∧ t.kind ≠ .endMarker
  unreserved : ∀ t ∈ ts, t.Unreserved
  inBrackets : ∀ before t after, ts = before ++ t :: after → endsPlainHeader t = true →
    depth + depthSum before ≠ 0
  closed : depth + depthSum ts = 0

def Divided : List EscapeItem → Prop
  | [] => False
  | [i] => i.comma = none
  | i :: rest => i.comma.isSome = true ∧ Divided rest

structure EscapeItems (before : List String) (items : List EscapeItem) : Prop where
  fits : ∀ i ∈ items, i.Fits
  divided : Divided items
  unreserved : ∀ i ∈ items, i.label.Unreserved
  distinct : (before ++ items.map (·.label.text)).Nodup

structure HeaderForm where
  plain : List Token
  escapes : Option BreakClause
  result : Option AsClause
  colon : Token

namespace HeaderForm

def tokens (f : HeaderForm) : List Token :=
  f.plain ++ (optionTokens BreakClause.tokens f.escapes ++ optionTokens AsClause.tokens f.result)

def header (f : HeaderForm) (label : Option String) : LoopHeader :=
  ⟨label, f.escapes.elim [] fun c => c.items.map (·.read), f.result.map (·.name.text)⟩

structure Correct (f : HeaderForm) : Prop where
  plain : PlainHeader 0 f.plain
  escapes : ∀ c ∈ f.escapes, c.word.isName "break" = true ∧ EscapeItems [] c.items
  result : ∀ c ∈ f.result, c.Fits ∧ c.name.Unreserved
  colon : f.colon.isOp ":" = true

end HeaderForm

/-! ### Readers -/

theorem checkName_eq_ok_iff {t : Token} : checkName t = .ok () ↔ t.Unreserved := by
  unfold checkName Token.Unreserved
  by_cases hk : t.kind = .name <;> cases hr : isReserved t.text <;> simp [hk]

/-- Such tokens stand inside brackets only, from a depth of brackets on. -/
def InBrackets (ends : Token → Bool) (depth : Int) (ts : List Token) : Prop :=
  ∀ before t after, ts = before ++ t :: after → ends t = true → depth + depthSum before ≠ 0

theorem InBrackets.cons {ends : Token → Bool} (hends : ends t = true → depth ≠ 0)
    (h : InBrackets ends (depth + t.depthChange) ts) : InBrackets ends depth (t :: ts) := by
  intro before u after hts hu
  cases before with
  | nil =>
    obtain ⟨rfl, -⟩ := List.cons.inj hts
    rw [show depth + depthSum [] = depth from Int.add_zero depth]
    exact hends hu
  | cons b before =>
    obtain ⟨rfl, htail⟩ := List.cons.inj hts
    rw [depthSum_cons, ← Int.add_assoc]
    exact h before u after htail hu

theorem plainHeader_sound (h : plainHeader depth ts = .ok (plain, rest)) :
    PlainHeader depth plain ∧ ts = plain ++ rest := by
  induction ts generalizing depth plain rest with
  | nil => cases h
  | cons t ts ih =>
    rw [plainHeader] at h
    split at h
    · cases h
    · rename_i hkind
      split at h
      · rename_i hends
        cases h
        refine ⟨⟨by simp, by simp, fun before u after hnil => absurd hnil (by simp), ?_⟩, rfl⟩
        simpa [depthSum] using (Bool.and_eq_true_iff.1 hends).1
      · rename_i hends
        obtain ⟨⟨⟩, hname, h⟩ := bind_eq_ok h
        obtain ⟨⟨plain', rest'⟩, hplain, h⟩ := bind_eq_ok h
        cases h
        obtain ⟨hform, rfl⟩ := ih hplain
        refine ⟨⟨?_, ?_, InBrackets.cons ?_ hform.inBrackets, ?_⟩, rfl⟩
        · exact List.forall_mem_cons.2 ⟨by simpa using hkind, hform.inStatement⟩
        · exact List.forall_mem_cons.2 ⟨checkName_eq_ok_iff.1 hname, hform.unreserved⟩
        · rintro ht rfl
          exact hends (by simp [ht])
        · rw [depthSum_cons, ← Int.add_assoc]
          exact hform.closed

theorem escapeLabel_sound {clause : Position} {before : List EscapeLabel} {loops : Bool} {e : EscapeLabel}
    (h : escapeLabel clause before loops t = .ok e) :
    (t.isIdentifier ∧ t.text ≠ "loop") ∧ e = ⟨t.text, loops, t.start⟩ ∧ t.Unreserved ∧
      t.text ∉ before.map (·.label) := by
  unfold escapeLabel at h
  split at h
  · split at h <;> cases h
  · rename_i ht
    obtain ⟨⟨⟩, hname, h⟩ := bind_eq_ok h
    split at h
    · cases h
    · rename_i hnew
      cases h
      exact ⟨by simpa using ht, rfl, checkName_eq_ok_iff.1 hname, by simpa using hnew⟩

theorem Divided.cons {i : EscapeItem} (hc : i.comma.isSome = true) (h : Divided items) :
    Divided (i :: items) := by
  cases items with
  | nil => exact h.elim
  | cons j items => exact ⟨hc, h⟩

theorem escapeLabels_sound {clause : Position} {before es : List EscapeLabel}
    (h : escapeLabels clause before ts = .ok (es, rest)) (hbefore : (before.map (·.label)).Nodup) :
    ∃ items, EscapeItems (before.map (·.label)) items ∧ ts = items.flatMap (·.tokens) ++ rest ∧
      es = before ++ items.map (·.read) := by
  -- one item, and what the reader takes behind its comma
  have hitem {before es : List EscapeLabel} {ts : List Token} {e : EscapeLabel} (word : Option Token) {label : Token}
      (comma : Option Token) (hword : ∀ w ∈ word, w.isName "loop") (hcomma : ∀ c ∈ comma, c.isOp ",")
      (he : escapeLabel clause before word.isSome label = .ok e) (hbefore : (before.map (·.label)).Nodup)
      (h : comma = none ∧ ts = rest ∧ es = before ++ [e] ∨ comma.isSome = true ∧
        (((before ++ [e]).map (·.label)).Nodup → ∃ items, EscapeItems ((before ++ [e]).map (·.label)) items ∧
          ts = items.flatMap (·.tokens) ++ rest ∧ es = before ++ [e] ++ items.map (·.read))) :
      ∃ items, EscapeItems (before.map (·.label)) items ∧
        (⟨word, label, comma⟩ : EscapeItem).tokens ++ ts = items.flatMap (·.tokens) ++ rest ∧
        es = before ++ items.map (·.read) := by
    obtain ⟨hlabel, rfl, hname, hnew⟩ := escapeLabel_sound he
    have hfits : (⟨word, label, comma⟩ : EscapeItem).Fits := ⟨hword, hlabel, hcomma⟩
    have hnodup : (before.map (·.label) ++ [label.text]).Nodup :=
      List.nodup_append.2 ⟨hbefore, by simp, by grind⟩
    rcases h with ⟨hnone, rfl, rfl⟩ | ⟨hsome, h⟩
    · exact ⟨[⟨word, label, comma⟩], ⟨by simpa using hfits, hnone, by simpa using hname, hnodup⟩, by simp, rfl⟩
    · rw [List.map_append] at h
      obtain ⟨items, hitems, rfl, rfl⟩ := h hnodup
      refine ⟨_ :: items, ⟨List.forall_mem_cons.2 ⟨hfits, hitems.fits⟩, hitems.divided.cons hsome,
        List.forall_mem_cons.2 ⟨hname, hitems.unreserved⟩, ?_⟩, by simp, by simp [EscapeItem.read]⟩
      simpa using hitems.distinct
  fun_induction escapeLabels clause before ts with
  | case1 | case2 => cases h
  | case3 before t =>
    obtain ⟨e, he, hes⟩ := map_eq_ok h
    cases hes
    exact hitem none none (by simp) (by simp) he hbefore (.inl ⟨rfl, rfl, rfl⟩)
  | case4 before w label ts hw ih =>
    obtain ⟨e, he, h⟩ := bind_eq_ok h
    have hword : ∀ w' ∈ some w, w'.isName "loop" := by simpa using hw
    cases ts with
    | nil =>
      cases h
      exact hitem (some w) none hword (by simp) he hbefore (.inl ⟨rfl, rfl, rfl⟩)
    | cons c ts =>
      dsimp only at h
      split at h
      · rename_i hc
        exact hitem (some w) (some c) hword (by simpa using hc) he hbefore (.inr ⟨rfl, ih _ h⟩)
      · cases h
        exact hitem (some w) none hword (by simp) he hbefore (.inl ⟨rfl, rfl, rfl⟩)
  | case5 before label c ts hw ih =>
    obtain ⟨e, he, h⟩ := bind_eq_ok h
    split at h
    · rename_i hc
      exact hitem none (some c) (by simp) (by simpa using hc) he hbefore (.inr ⟨rfl, ih _ h⟩)
    · cases h
      exact hitem none none (by simp) (by simp) he hbefore (.inl ⟨rfl, rfl, rfl⟩)

theorem breakClause_sound {es : List EscapeLabel} (h : breakClause ts = .ok (es, rest)) :
    ∃ c : Option BreakClause, ts = optionTokens BreakClause.tokens c ++ rest ∧
      es = c.elim [] (fun c => c.items.map (·.read)) ∧
      ∀ c' ∈ c, c'.word.isName "break" = true ∧ EscapeItems [] c'.items := by
  unfold breakClause at h
  split at h
  · rename_i t rest'
    split at h
    · rename_i ht
      obtain ⟨items, hitems, rfl, rfl⟩ := escapeLabels_sound h .nil
      exact ⟨some ⟨t, items⟩, rfl, rfl, by simpa using ⟨ht, hitems⟩⟩
    · cases h
      exact ⟨none, rfl, rfl, nofun⟩
  · cases h
    exact ⟨none, rfl, rfl, nofun⟩

theorem EscapeItems.clause_fits {c : BreakClause} (hw : c.word.isName "break" = true) (h : EscapeItems [] c.items) :
    c.Fits :=
  ⟨hw, h.fits, by simpa [DistinctClause, EscapeItem.read, Function.comp_def] using h.distinct⟩

theorem asClause_sound {target : Option String} (h : asClause ts = .ok (target, rest)) :
    ∃ c : Option AsClause, ts = optionTokens AsClause.tokens c ++ rest ∧ target = c.map (·.name.text) ∧
      ∀ c' ∈ c, c'.Fits ∧ c'.name.Unreserved := by
  unfold asClause at h
  split at h
  · rename_i t rest'
    split at h
    · rename_i ht
      split at h
      · cases h
      · rename_i n rest''
        split at h
        · cases h
        · rename_i hn
          obtain ⟨⟨⟩, hname, h⟩ := bind_eq_ok h
          cases h
          refine ⟨some ⟨t, n⟩, rfl, rfl, ?_⟩
          rintro _ ⟨⟩
          exact ⟨⟨ht, by simpa using hn⟩, checkName_eq_ok_iff.1 hname⟩
    · cases h
      exact ⟨none, rfl, rfl, by simp⟩
  · cases h
    exact ⟨none, rfl, rfl, by simp⟩

theorem loopHeader_sound {label : Option String} {left : List Token} {header : LoopHeader}
    (h : loopHeader label ts = .ok (plain, header, left)) :
    ∃ (f : HeaderForm) (rest : List Token), f.Correct ∧ ts = f.tokens ++ f.colon :: rest ∧ plain = f.plain ∧
      header = f.header label ∧ left = f.colon :: rest := by
  obtain ⟨⟨plain', rest₁⟩, hplain, h₁⟩ := bind_eq_ok h
  obtain ⟨⟨es, rest₂⟩, hbreak, h₂⟩ := bind_eq_ok h₁
  obtain ⟨⟨result, rest₃⟩, has, h₃⟩ := bind_eq_ok h₂
  obtain ⟨hform, rfl⟩ := plainHeader_sound hplain
  obtain ⟨escapes, rfl, rfl, hescapes⟩ := breakClause_sound hbreak
  obtain ⟨c, rfl, rfl, hresult⟩ := asClause_sound has
  dsimp only at h₃
  split at h₃
  · rename_i colon rest
    split at h₃
    · rename_i hcolon
      cases h₃
      exact ⟨⟨plain, escapes, c, colon⟩, rest, ⟨hform, hescapes, hresult, hcolon⟩,
        by simp [HeaderForm.tokens], rfl, rfl, rfl⟩
    · cases h₃
  · cases h₃

/-- The tokens of a value, from a depth of brackets on. -/
structure ValueForm (depth : Int) (ts : List Token) : Prop where
  unended : ∀ t ∈ ts, t.kind ≠ .endMarker
  inBrackets : InBrackets Token.endsStatement depth ts

theorem valueTokens_sound {value : List Token} (h : valueTokens depth ts = .ok (value, rest)) :
    ∃ all, ValueForm depth all ∧ ts = all ++ rest ∧ value = all.filter (·.kind != .comment) := by
  have hnil : ValueForm depth [] := ⟨nofun, fun before t after h => absurd h (by simp)⟩
  induction ts generalizing depth value rest with
  | nil =>
    cases h
    exact ⟨[], hnil, rfl, rfl⟩
  | cons t ts ih =>
    rw [valueTokens] at h
    split at h
    · cases h
      exact ⟨[], hnil, rfl, rfl⟩
    · rename_i hends
      obtain ⟨_, -, h⟩ := bind_eq_ok h
      obtain ⟨⟨value', rest'⟩, hvalue, h⟩ := bind_eq_ok h
      cases h
      obtain ⟨all, hall, rfl, rfl⟩ := ih hvalue ⟨nofun, fun before t after h => absurd h (by simp)⟩
      have hgoes : (t.endsStatement = true → depth ≠ 0) ∧ t.kind ≠ .endMarker := by simpa [imp_not_comm] using hends
      refine ⟨t :: all, ⟨List.forall_mem_cons.2 ⟨hgoes.2, hall.unended⟩, hall.inBrackets.cons hgoes.1⟩, rfl, ?_⟩
      by_cases ht : t.kind = .comment <;> simp [ht]

theorem jumpLabel_sound {label : Option String} (h : jumpLabel ts = .ok (label, rest)) :
    ∃ t : Option Token, ts = t.toList ++ rest ∧ label = t.map (·.text) ∧
      ∀ t' ∈ t, t'.isIdentifier := by
  unfold jumpLabel at h
  split at h
  · rename_i t rest'
    split at h
    · rename_i ht
      obtain ⟨_, -, h⟩ := bind_eq_ok h
      cases h
      exact ⟨some t, rfl, rfl, by simpa using ht⟩
    · cases h
      exact ⟨none, rfl, rfl, nofun⟩
  · cases h
    exact ⟨none, rfl, rfl, nofun⟩

theorem jumpValue_sound {keyword : String} {value : List Token} (h : jumpValue keyword ts = .ok (value, rest)) :
    ∃ c : Option WithClause, ts = optionTokens WithClause.tokens c ++ rest ∧ value = c.elim [] (·.read) ∧
      (keyword = "continue" → c = none) ∧ ∀ c' ∈ c, c'.Fits ∧ ValueForm 0 c'.value := by
  unfold jumpValue at h
  split at h
  · rename_i t rest'
    split at h
    · rename_i ht
      split at h
      · cases h
      · rename_i hkeyword
        obtain ⟨⟨value', rest''⟩, hvalue, h⟩ := bind_eq_ok h
        dsimp only at h
        split at h
        · cases h
        · rename_i hne
          cases h
          obtain ⟨all, hall, rfl, rfl⟩ := valueTokens_sound hvalue
          refine ⟨some ⟨t, all⟩, rfl, rfl, fun hk => absurd hk (by simpa using hkeyword), ?_⟩
          rintro _ ⟨⟩
          exact ⟨⟨ht, fun h => hne (List.isEmpty_iff.2 h)⟩, hall⟩
    · cases h
      exact ⟨none, rfl, rfl, fun _ => rfl, nofun⟩
  · cases h
    exact ⟨none, rfl, rfl, fun _ => rfl, nofun⟩

namespace Stripper

theorem emitAll_marks (s : Stripper) (ts : List Token) : (s.emitAll ts).marks = s.marks := by
  induction ts generalizing s with
  | nil => rfl
  | cons t ts ih => exact ih (s.emit t)

end Stripper

end LoopEscape
