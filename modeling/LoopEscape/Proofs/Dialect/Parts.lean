import LoopEscape.Proofs.Dialect.Headers

/-!
# The parts of a source

A source is a row of parts: tokens that stay as they are, and the constructs of the dialect with all
their tokens.  Each part says which tokens it goes on with in the plain code and which mark it leaves.
Going through the tokens takes one part after the other and puts it into the plain code
(`Stripper.consume_part`).
-/

namespace LoopEscape

/-! ### Parts -/

inductive Part
  | plain (t : Token)
  | loop (label : Labelling) (keyword : Token)
  | block (label : Labelling) (keyword : Token) (target : Option AsClause)
  | callback (label : Option Labelling) (word keyword : Token) (header : List Token)
      (escapes : Option BreakClause) (result : Option AsClause)
  | jump (keyword : Token) (label : Option Token) (value : Option WithClause)

def Token.branch (keyword : Token) : Token :=
  ⟨.name, "if", keyword.start, ⟨keyword.start.row, keyword.start.col + 2⟩⟩

def Token.condition (keyword : Token) : Token :=
  ⟨.number, "1", ⟨keyword.start.row, keyword.start.col + 3⟩,
    ⟨keyword.start.row, keyword.start.col + 4⟩⟩

namespace Part

def tokens : Part → List Token
  | plain t => [t]
  | loop label keyword => label.tokens ++ [keyword]
  | block label keyword target => label.tokens ++ keyword :: optionTokens AsClause.tokens target
  | callback label word keyword header escapes result =>
    optionTokens Labelling.tokens label ++ word :: keyword :: (header ++
      (optionTokens BreakClause.tokens escapes ++ optionTokens AsClause.tokens result))
  | jump keyword label value => keyword :: (label.toList ++ optionTokens WithClause.tokens value)

def emits : Part → List Token
  | plain t => [t]
  | loop _ keyword => [keyword]
  | block _ keyword _ => [keyword.branch, keyword.condition]
  | callback _ _ keyword header _ _ => keyword :: header
  | jump keyword _ _ => [keyword]

/-- The first token of what is taken out of the start of a row, and the keyword behind it. -/
def lead? : Part → Option (Token × Token)
  | plain _ | jump .. => none
  | loop label keyword | block label keyword _ => some (label.label, keyword)
  | callback label word keyword _ _ _ => some (label.elim word (·.label), keyword)

def loopMark? : Part → Option (Token × LoopLabel)
  | loop label keyword => some (keyword, ⟨label.label.text, label.label.start⟩)
  | _ => none

def headerMark? : Part → Option (Token × LoopHeader)
  | callback label _ keyword _ escapes result =>
    some (keyword, ⟨label.map (·.label.text), escapes.elim [] fun c => c.items.map (·.read),
      result.map (·.name.text)⟩)
  | _ => none

def blockMark? : Part → Option (Token × BlockHeader)
  | block label keyword target =>
    some (keyword.branch, ⟨label.label.text, target.map (·.name.text)⟩)
  | _ => none

def jumpMark? : Part → Option (Token × JumpTail)
  | jump keyword label value =>
    if label.isNone && value.isNone then none
    else some (keyword, ⟨label.map (·.text), value.elim [] (·.read)⟩)
  | _ => none

def value? : Part → Option WithClause
  | jump _ _ value => value
  | _ => none

def Fits : Part → Prop
  | plain t => t.isName "break" = false ∧ t.isName "continue" = false
  | loop label keyword => label.Fits ∧ (keyword.isName "for" ∨ keyword.isName "while")
  | block label keyword target =>
    label.Fits ∧ keyword.isName "block" ∧ ∀ c ∈ target, c.Fits
  | callback label word keyword header escapes result =>
    (∀ l ∈ label, l.Fits) ∧ word.isName "cbit" ∧ keyword.isName "for" ∧
      (∀ t ∈ header, t.kind ≠ .newline ∧ t.kind ≠ .endMarker) ∧ (∀ c ∈ escapes, c.Fits) ∧
      ∀ c ∈ result, c.Fits
  | jump keyword label value =>
    (keyword.isName "break" ∨ keyword.isName "continue" ∧ value = none) ∧
      (∀ t ∈ label, t.isIdentifier) ∧ ∀ c ∈ value, c.Fits

def InRow (p : Part) : Prop :=
  ∀ lead ∈ p.lead?, lead.2.start.row = lead.1.start.row

end Part

/-! ### Putting parts into the plain code -/

namespace Table

variable {α : Type}

def enter (t : Table α) (e : Option (Position × α)) : Table α := e.elim t fun e => t.insert e.1 e.2

end Table

namespace Stripper

def take (s : Stripper) (first kept : Token) : Stripper :=
  { s with shifts := (s.shifts.filter fun e => e.1 != first.start.row) ++
      [(first.start.row, s.shiftOf first.start.row + (kept.start.col - first.start.col))] }

def takeLead (s : Stripper) (p : Part) : Stripper := p.lead?.elim s fun lead => s.take lead.1 lead.2

def entry {α : Type} (s : Stripper) (mark : Option (Token × α)) : Option (Position × α) :=
  mark.map fun m => ((s.shift m.1).start, m.2)

def jumpEntry (s : Stripper) (p : Part) : Option (Position × JumpTail) :=
  (s.entry p.jumpMark?).map fun e => (e.1, { e.2 with value := e.2.value.map s.shift })

def put (s : Stripper) (p : Part) : Stripper :=
  { (s.takeLead p).emitAll p.emits with
    marks :=
      { loops := s.marks.loops.enter ((s.takeLead p).entry p.loopMark?)
        headers := s.marks.headers.enter ((s.takeLead p).entry p.headerMark?)
        blocks := s.marks.blocks.enter ((s.takeLead p).entry p.blockMark?)
        jumps := s.marks.jumps.enter ((s.takeLead p).jumpEntry p) } }

variable {s s' : Stripper} {t first kept label keyword word : Token} {ts rest left : List Token}

theorem dropLeading_eq (h : s.dropLeading first kept = .ok s') :
    kept.start.row = first.start.row ∧ s' = s.take first kept := by
  unfold dropLeading at h
  dsimp only at h
  split at h
  · cases h
  · rename_i hrow
    cases h
    exact ⟨Decidable.not_not.1 hrow, rfl⟩

structure Puts (s s' : Stripper) (ts left : List Token) (p : Part) : Prop where
  fits : p.Fits
  inRow : p.InRow
  value : ∀ c ∈ p.value?, ValueForm 0 c.value
  tokens : ts = p.tokens ++ left
  put : s' = s.put p

theorem labelLoop_part {l : Labelling} (hl : l.Fits) (hk : keyword.isName "for" ∨ keyword.isName "while")
    (h : s.labelLoop l.label keyword = .ok s') :
    s.Puts s' (l.tokens ++ keyword :: left) left (.loop l keyword) := by
  obtain ⟨s₁, hdrop, h⟩ := bind_eq_ok h
  obtain ⟨hrow, rfl⟩ := dropLeading_eq hdrop
  cases h
  exact ⟨⟨hl, hk⟩, by rintro _ ⟨⟩; exact hrow, nofun, by simp [Part.tokens], rfl⟩

theorem labelBlock_part {l : Labelling} (hl : l.Fits) (hk : keyword.isName "block")
    (h : s.labelBlock l.label keyword rest = .ok (s', left)) :
    ∃ target, s.Puts s' (l.tokens ++ keyword :: rest) left (.block l keyword target) := by
  obtain ⟨s₁, hdrop, h⟩ := bind_eq_ok h
  obtain ⟨hrow, rfl⟩ := dropLeading_eq hdrop
  obtain ⟨⟨target, left'⟩, has, h⟩ := bind_eq_ok h
  obtain ⟨c, rfl, rfl, hc⟩ := asClause_sound has
  cases h
  exact ⟨c, ⟨hl, hk, fun c' hc' => (hc c' hc').1⟩, by rintro _ ⟨⟩; exact hrow, nofun, by simp [Part.tokens], rfl⟩

theorem markLoop_part {l : Option Labelling} (hl : ∀ l' ∈ l, l'.Fits) (hw : word.isName "cbit")
    (hk : keyword.isName "for")
    (h : s.markLoop (l.map (·.label)) (l.elim word (·.label)) keyword rest = .ok (s', left)) :
    ∃ header escapes result, s.Puts s' (optionTokens Labelling.tokens l ++ word :: keyword :: rest) left
      (.callback l word keyword header escapes result) := by
  obtain ⟨s₁, hdrop, h⟩ := bind_eq_ok h
  obtain ⟨hrow, rfl⟩ := dropLeading_eq hdrop
  obtain ⟨⟨plain, header, left'⟩, hheader, hput⟩ := bind_eq_ok h
  obtain ⟨f, rest, hf, rfl, rfl, rfl, rfl⟩ := loopHeader_sound hheader
  cases hput
  refine ⟨f.plain, f.escapes, f.result, ⟨hl, hw, hk, hf.plain.inStatement,
    fun c hc => (hf.escapes c hc).2.clause_fits (hf.escapes c hc).1, fun c hc => (hf.result c hc).1⟩,
    by rintro _ ⟨⟩; exact hrow, nofun, by simp [Part.tokens, HeaderForm.tokens], ?_⟩
  simp only [emitAll_marks]
  cases l <;> rfl

theorem markJump_part (hk : keyword.isName "break" ∨ keyword.isName "continue")
    (h : s.markJump keyword rest = .ok (s', left)) :
    ∃ label value, s.Puts s' (keyword :: rest) left (.jump keyword label value) := by
  obtain ⟨⟨tail, left'⟩, htail, hput⟩ := bind_eq_ok h
  obtain ⟨⟨label, rest₁⟩, hlabel, htail₁⟩ := bind_eq_ok htail
  obtain ⟨⟨value, rest₂⟩, hvalue, htail₂⟩ := bind_eq_ok htail₁
  obtain ⟨t, rfl, rfl, ht⟩ := jumpLabel_sound hlabel
  obtain ⟨c, rfl, rfl, hcontinue, hc⟩ := jumpValue_sound hvalue
  have hread : tail = ⟨t.map (·.text), c.elim [] (·.read)⟩ ∧ left' = rest₂ := by
    dsimp only at htail₂
    split at htail₂
    · split at htail₂
      · cases htail₂
        exact ⟨rfl, rfl⟩
      · cases htail₂
    · cases htail₂
      exact ⟨rfl, rfl⟩
  obtain ⟨rfl, rfl⟩ := hread
  have hempty : ((t.map (·.text)).isNone && (c.elim [] (·.read)).isEmpty) =
      (t.isNone && c.isNone) := by
    cases c with
    | none => cases t <;> rfl
    | some c =>
      have : c.read.isEmpty = false := by simpa using (hc c rfl).1.2
      simp [this]
  have hfits : (Part.jump keyword t c).Fits := by
    refine ⟨hk.imp id fun hk => ⟨hk, hcontinue ?_⟩, ht, fun c' hc' => (hc c' hc').1⟩
    simp only [Token.isName, Bool.and_eq_true, beq_iff_eq] at hk
    exact hk.2
  dsimp only at hput
  rw [hempty] at hput
  refine ⟨t, c, hfits, by rintro _ ⟨⟩, fun c' hc' => (hc c' hc').2, ?_, ?_⟩
  · split at hput <;> cases hput <;> simp [Part.tokens]
  · split at hput <;> cases hput <;> rename_i hif
    all_goals
      simp only [put, jumpEntry, entry, Part.jumpMark?, hif]
      rfl

/-- The tokens that a construct begins with, and those behind its keyword. -/
inductive Begins (fresh : Bool) : List Token → Construct × List Token → Prop
  | loop {l : Labelling} {keyword : Token} {rest : List Token} (hfresh : fresh = true) (hl : l.Fits)
      (hk : keyword.isName "for" ∨ keyword.isName "while") :
      Begins fresh (l.tokens ++ keyword :: rest) (.labelledLoop l.label keyword, rest)
  | block {l : Labelling} {keyword : Token} {rest : List Token} (hfresh : fresh = true) (hl : l.Fits)
      (hk : keyword.isName "block") :
      Begins fresh (l.tokens ++ keyword :: rest) (.labelledBlock l.label keyword, rest)
  | callback {l : Option Labelling} {word keyword : Token} {rest : List Token} (hfresh : fresh = true)
      (hl : ∀ l' ∈ l, l'.Fits) (hw : word.isName "cbit") (hk : keyword.isName "for") :
      Begins fresh (optionTokens Labelling.tokens l ++ word :: keyword :: rest)
        (.callbackLoop (l.map (·.label)) (l.elim word (·.label)) keyword, rest)
  | jump {t : Token} {rest : List Token} (ht : t.isName "break" ∨ t.isName "continue") :
      Begins fresh (t :: rest) (.jump t, rest)
  | plain {t : Token} {rest : List Token}
      (ht : t.isName "break" = false ∧ t.isName "continue" = false) :
      Begins fresh (t :: rest) (.plain, rest)

theorem labelled?_begins {c : Construct × List Token} (h : labelled? t ts = some c) :
    Begins true (t :: ts) c := by
  unfold labelled? at h
  split at h
  · rename_i colon k rest
    split at h
    · cases h
    · rename_i hlabel
      have hl : (⟨t, colon⟩ : Labelling).Fits := by simpa [Labelling.Fits] using hlabel
      split at h
      · rename_i hk
        cases h
        exact .loop (l := ⟨t, colon⟩) rfl hl (by simpa using hk)
      · split at h
        · rename_i hk
          cases h
          exact .block (l := ⟨t, colon⟩) rfl hl (Bool.and_eq_true_iff.1 hk).1
        · split at h
          · split at h
            · rename_i hk
              cases h
              exact .callback (l := some ⟨t, colon⟩) rfl (by simpa using hl)
                (Bool.and_eq_true_iff.1 hk).1 (Bool.and_eq_true_iff.1 hk).2
            · cases h
          · cases h
  · cases h

theorem unlabelled?_begins {c : Construct × List Token} (h : unlabelled? t ts = some c) :
    Begins true (t :: ts) c := by
  unfold unlabelled? at h
  split at h
  · split at h
    · rename_i hk
      cases h
      exact .callback (l := none) rfl nofun (Bool.and_eq_true_iff.1 hk).1
        (Bool.and_eq_true_iff.1 hk).2
    · cases h
  · cases h

theorem construct_begins (fresh : Bool) (t : Token) (ts : List Token) :
    Begins fresh (t :: ts) (construct fresh t ts) := by
  unfold construct
  dsimp only
  split
  · rename_i c hfound
    split at hfound
    · rename_i hfresh
      rw [hfresh]
      rcases Option.or_eq_some_iff.1 hfound with h | ⟨-, h⟩
      · exact labelled?_begins h
      · exact unlabelled?_begins h
    · cases hfound
  · split
    · rename_i ht
      exact .jump (by simpa using ht)
    · rename_i ht
      exact .plain (by simpa using ht)

theorem consume_part {fresh : Bool}
    (h : s.consume t (construct fresh t rest).2 (construct fresh t rest).1 = .ok (s', left)) :
    ∃ p, s.Puts s' (t :: rest) left p ∧ (p.lead?.isSome → fresh = true) ∧
      (startsAfter t (construct fresh t rest).1 = true → p = .plain t ∧ t.isBoundary = true) := by
  have hbegins := construct_begins fresh t rest
  generalize construct fresh t rest = c, hts : t :: rest = ts at hbegins h ⊢
  cases hbegins with
  | loop hfresh hl hk =>
    obtain ⟨s₁, hlabel, hs⟩ := map_eq_ok h
    cases hs
    exact ⟨_, labelLoop_part hl hk hlabel, fun _ => hfresh, nofun⟩
  | block hfresh hl hk =>
    obtain ⟨target, hputs⟩ := labelBlock_part hl hk h
    exact ⟨_, hputs, fun _ => hfresh, nofun⟩
  | callback hfresh hl hw hk =>
    obtain ⟨header, escapes, result, hputs⟩ := markLoop_part hl hw hk h
    exact ⟨_, hputs, fun _ => hfresh, nofun⟩
  | jump ht =>
    obtain ⟨label, value, hputs⟩ := markJump_part ht h
    exact ⟨_, hputs, nofun, nofun⟩
  | plain ht =>
    cases hts
    cases h
    exact ⟨.plain t, ⟨ht, nofun, nofun, rfl, rfl⟩, nofun, fun h => ⟨rfl, h⟩⟩

end Stripper

end LoopEscape
