import LoopEscape.Proofs.Dialect.Bookkeeping

/-!
# The grammar of headers of callback loops

Behind `for`, the header of a callback loop is a target and a call, a break clause, an `as` clause and a
colon, where the clauses may be missing.  The reader takes exactly the headers of this form
(`loopHeader_eq_ok_iff`): each of its parts takes what the grammar writes (`…_complete`).  So a callback
loop at the start of a statement either leaves its header among the marks, with its plain tokens going on,
or is refused (`Stripper.run_callback`).
-/

namespace LoopEscape

variable {c : Token} {depth : Int} {plain : List Token} {items : List EscapeItem} {f : HeaderForm}

/-! ### The plain tokens -/

theorem endsPlainHeader_inStatement {t : Token} (h : endsPlainHeader t = true) :
    t.kind ≠ .newline ∧ t.kind ≠ .endMarker := by
  simp only [endsPlainHeader, Token.isName, Token.isOp, Bool.or_eq_true, Bool.and_eq_true,
    beq_iff_eq] at h
  rcases h with (⟨hk, -⟩ | ⟨hk, -⟩) | ⟨hk, -⟩ <;> simp [hk]

theorem PlainHeader.tail {t : Token} {ts : List Token} (h : PlainHeader depth (t :: ts)) :
    PlainHeader (depth + t.depthChange) ts where
  inStatement u hu := h.inStatement u (List.mem_cons_of_mem _ hu)
  unreserved u hu := h.unreserved u (List.mem_cons_of_mem _ hu)
  inBrackets before u after hts hu := by
    have hne := h.inBrackets (t :: before) u after (by rw [hts]; rfl) hu
    rwa [depthSum_cons, ← Int.add_assoc] at hne
  closed := by
    have hclosed := h.closed
    rwa [depthSum_cons, ← Int.add_assoc] at hclosed

theorem plainHeader_complete {rest : List Token} {t : Token} (h : PlainHeader depth plain)
    (ht : endsPlainHeader t = true) :
    plainHeader depth (plain ++ t :: rest) = .ok (plain, t :: rest) := by
  induction plain generalizing depth with
  | nil =>
    have hzero : depth = 0 := by simpa [depthSum] using h.closed
    obtain ⟨hnewline, hend⟩ := endsPlainHeader_inStatement ht
    simp [plainHeader, hnewline, hend, hzero, ht]
  | cons u plain ih =>
    obtain ⟨hnewline, hend⟩ := h.inStatement u (List.mem_cons_self ..)
    have hgoes : (depth == 0 && endsPlainHeader u) = false := by
      cases hu : endsPlainHeader u with
      | false => exact Bool.and_false _
      | true =>
        have hne := h.inBrackets [] u plain rfl hu
        simpa [depthSum] using hne
    have hname := checkName_eq_ok_iff.2 (h.unreserved u (List.mem_cons_self ..))
    rw [List.cons_append, plainHeader, if_neg (by simp [hnewline, hend]), if_neg (by simp [hgoes]), hname]
    show (plainHeader _ _ >>= _) = _
    rw [ih h.tail]
    rfl

/-! ### Break clauses -/

theorem EscapeItems.tail {before : List String} {i j : EscapeItem} (h : EscapeItems before (i :: j :: items)) :
    EscapeItems (before ++ [i.label.text]) (j :: items) where
  fits := (List.forall_mem_cons.1 h.fits).2
  divided := h.divided.2
  unreserved := (List.forall_mem_cons.1 h.unreserved).2
  distinct := by
    rw [List.append_assoc, List.singleton_append]
    exact h.distinct

theorem EscapeItems.head_new {before : List String} {i : EscapeItem} (h : EscapeItems before (i :: items)) :
    i.label.text ∉ before := by
  intro hmem
  exact (List.nodup_append.1 h.distinct).2.2 _ hmem _ (by simp) rfl

theorem escapeLabel_complete {clause : Position} {before : List EscapeLabel} {loops : Bool} {t : Token}
    (ht : t.isIdentifier = true ∧ t.text ≠ "loop") (hname : t.Unreserved)
    (hnew : t.text ∉ before.map (·.label)) :
    escapeLabel clause before loops t = .ok ⟨t.text, loops, t.start⟩ := by
  have hany : (before.any fun e => e.label == t.text) = false := by
    simpa using hnew
  rw [escapeLabel, if_neg (by simp [ht.1, ht.2]), checkName_eq_ok_iff.2 hname]
  show (if _ then _ else _) = _
  rw [hany]
  rfl

theorem isName_of_isOp {t : Token} {text name : String} (h : t.isOp text = true) : t.isName name = false := by
  simp only [Token.isOp, Bool.and_eq_true, beq_iff_eq] at h
  simp [Token.isName, h.1]

section Items

variable {clause : Position} {before : List EscapeLabel} {i : EscapeItem} {ts : List Token} {t : Token}

theorem EscapeItem.Fits.label_not_loop (h : i.Fits) : i.label.isName "loop" = false := by
  have hne := h.label.2
  simpa [Token.isName] using fun _ => hne

theorem escapeLabels_comma (hi : i.Fits) (hc : i.comma = some c)
    (hlabel : escapeLabel clause before i.word.isSome i.label = .ok i.read) :
    escapeLabels clause before (i.tokens ++ ts) = escapeLabels clause (before ++ [i.read]) ts := by
  have hplain := hi.label_not_loop
  obtain ⟨word, label, comma⟩ := i
  obtain rfl : comma = some c := hc
  have hcomma := hi.comma c rfl
  cases word with
  | none =>
    show escapeLabels clause before (label :: c :: ts) = _
    replace hlabel : escapeLabel clause before false label = .ok _ := hlabel
    rw [escapeLabels, if_neg (by simp [hplain]), hlabel]
    exact if_pos hcomma
  | some w =>
    show escapeLabels clause before (w :: label :: c :: ts) = _
    replace hlabel : escapeLabel clause before true label = .ok _ := hlabel
    rw [escapeLabels, if_pos (hi.word w rfl), hlabel]
    exact if_pos hcomma

theorem escapeLabels_last (hi : i.Fits) (hc : i.comma = none) (ht : t.isOp "," = false)
    (hlabel : escapeLabel clause before i.word.isSome i.label = .ok i.read) :
    escapeLabels clause before (i.tokens ++ t :: ts) = .ok (before ++ [i.read], t :: ts) := by
  have hplain := hi.label_not_loop
  obtain ⟨word, label, comma⟩ := i
  obtain rfl : comma = none := hc
  cases word with
  | none =>
    show escapeLabels clause before (label :: t :: ts) = _
    replace hlabel : escapeLabel clause before false label = .ok _ := hlabel
    rw [escapeLabels, if_neg (by simp [hplain]), hlabel]
    exact if_neg (by simp [ht])
  | some w =>
    show escapeLabels clause before (w :: label :: t :: ts) = _
    replace hlabel : escapeLabel clause before true label = .ok _ := hlabel
    rw [escapeLabels, if_pos (hi.word w rfl), hlabel]
    exact if_neg (by simp [ht])

end Items

theorem escapeLabels_complete {clause : Position} {before : List EscapeLabel} {t : Token} {rest : List Token}
    (h : EscapeItems (before.map (·.label)) items) (ht : t.isOp "," = false) :
    escapeLabels clause before (items.flatMap (·.tokens) ++ t :: rest) =
      .ok (before ++ items.map (·.read), t :: rest) := by
  induction items generalizing before with
  | nil => exact h.divided.elim
  | cons i items ih =>
    have hfits := h.fits i (List.mem_cons_self ..)
    have hlabel : escapeLabel clause before i.word.isSome i.label = .ok i.read :=
      escapeLabel_complete hfits.label (h.unreserved i (List.mem_cons_self ..)) h.head_new
    rw [List.flatMap_cons, List.append_assoc]
    cases items with
    | nil => exact escapeLabels_last hfits h.divided ht hlabel
    | cons j items =>
      obtain ⟨c, hc⟩ := Option.isSome_iff_exists.1 h.divided.1
      have htail : EscapeItems ((before ++ [i.read]).map (·.label)) (j :: items) := by
        rw [List.map_append]
        exact h.tail
      rw [escapeLabels_comma hfits hc hlabel, ih htail]
      simp

/-! ### Whole headers -/

theorem breakClause_complete {c : BreakClause} {t : Token} {rest : List Token}
    (hw : c.word.isName "break" = true) (h : EscapeItems [] c.items) (ht : t.isOp "," = false) :
    breakClause (c.tokens ++ t :: rest) = .ok (c.items.map (·.read), t :: rest) := by
  show (if c.word.isName "break" = true then _ else _) = _
  rw [if_pos hw]
  exact @escapeLabels_complete _ _ [] _ _ h ht

theorem asClause_complete {c : AsClause} {rest : List Token} (h : c.Fits) (hname : c.name.Unreserved) :
    asClause (c.tokens ++ rest) = .ok (some c.name.text, rest) := by
  show (if c.word.isName "as" = true then _ else _) = _
  rw [if_pos h.1, if_neg (by simp [h.2]), checkName_eq_ok_iff.2 hname]
  rfl

theorem asClause_none {t : Token} {rest : List Token} (h : t.isName "as" = false) :
    asClause (t :: rest) = .ok (none, t :: rest) :=
  if_neg (by simp [h])

theorem breakClause_none {t : Token} {rest : List Token} (h : t.isName "break" = false) :
    breakClause (t :: rest) = .ok ([], t :: rest) :=
  if_neg (by simp [h])

theorem HeaderForm.Correct.ends (h : f.Correct) (rest : List Token) :
    ∃ t more, optionTokens BreakClause.tokens f.escapes ++
        (optionTokens AsClause.tokens f.result ++ f.colon :: rest) = t :: more ∧ endsPlainHeader t = true := by
  have hcolon := h.colon
  cases hescapes : f.escapes with
  | some c => exact ⟨c.word, _, rfl, by simp [endsPlainHeader, (h.escapes c hescapes).1]⟩
  | none =>
    cases hresult : f.result with
    | some c => exact ⟨c.word, _, rfl, by simp [endsPlainHeader, (h.result c hresult).1.1]⟩
    | none => exact ⟨f.colon, rest, rfl, by simp [endsPlainHeader, hcolon]⟩

theorem HeaderForm.Correct.behind_escapes (h : f.Correct) (rest : List Token) :
    ∃ t more, optionTokens AsClause.tokens f.result ++ f.colon :: rest = t :: more ∧
      t.isOp "," = false ∧ t.isName "break" = false := by
  cases hresult : f.result with
  | some c =>
    obtain ⟨hk, htext⟩ : c.word.kind = .name ∧ c.word.text = "as" := by
      simpa [Token.isName] using (h.result c hresult).1.1
    exact ⟨c.word, _, rfl, by simp [Token.isOp, hk], by simp [Token.isName, htext]⟩
  | none =>
    obtain ⟨hk, htext⟩ : f.colon.kind = .op ∧ f.colon.text = ":" := by
      simpa [Token.isOp] using h.colon
    exact ⟨f.colon, rest, rfl, by simp [Token.isOp, htext], by simp [Token.isName, hk]⟩

theorem loopHeader_complete (h : f.Correct) (label : Option String) (rest : List Token) :
    loopHeader label (f.tokens ++ f.colon :: rest) = .ok (f.plain, f.header label, f.colon :: rest) := by
  have hplain : plainHeader 0 (f.tokens ++ f.colon :: rest) = .ok (f.plain,
      optionTokens BreakClause.tokens f.escapes ++ (optionTokens AsClause.tokens f.result ++ f.colon :: rest)) := by
    obtain ⟨t, more, hmore, ht⟩ := h.ends rest
    rw [HeaderForm.tokens, List.append_assoc, List.append_assoc, hmore]
    exact plainHeader_complete h.plain ht
  have hbreak : breakClause (optionTokens BreakClause.tokens f.escapes ++
        (optionTokens AsClause.tokens f.result ++ f.colon :: rest)) =
      .ok ((f.header label).escapes, optionTokens AsClause.tokens f.result ++ f.colon :: rest) := by
    obtain ⟨t, more, hmore, hcomma, hword⟩ := h.behind_escapes rest
    rw [hmore, HeaderForm.header]
    cases hescapes : f.escapes with
    | some c =>
      obtain ⟨hw, hitems⟩ := h.escapes c hescapes
      exact breakClause_complete hw hitems hcomma
    | none => exact breakClause_none hword
  have has : asClause (optionTokens AsClause.tokens f.result ++ f.colon :: rest) =
      .ok ((f.header label).result, f.colon :: rest) := by
    rw [HeaderForm.header]
    cases hresult : f.result with
    | some c =>
      obtain ⟨hfits, hname⟩ := h.result c hresult
      exact asClause_complete hfits hname
    | none => exact asClause_none (isName_of_isOp h.colon)
  rw [loopHeader, hplain]
  show (breakClause _ >>= _) = _
  rw [hbreak]
  show (asClause _ >>= _) = _
  rw [has]
  exact if_pos h.colon

theorem loopHeader_eq_ok_iff {label : Option String} {ts left : List Token} {header : LoopHeader} :
    loopHeader label ts = .ok (plain, header, left) ↔
      ∃ (f : HeaderForm) (rest : List Token), f.Correct ∧ ts = f.tokens ++ f.colon :: rest ∧
        plain = f.plain ∧ header = f.header label ∧ left = f.colon :: rest := by
  constructor
  · exact loopHeader_sound
  · rintro ⟨f, rest, h, rfl, rfl, rfl, rfl⟩
    exact loopHeader_complete h label rest

/-! ### Callback loops at the start of a statement -/

namespace Stripper

/-- The tokens of a callback loop up to `for`: its label if it has one, `cbit`, and `for`. -/
structure LoopStart where
  label : Option Labelling
  word : Token
  keyword : Token

namespace LoopStart

def tokens (l : LoopStart) : List Token := optionTokens Labelling.tokens l.label ++ [l.word, l.keyword]

def first (l : LoopStart) : Token := l.label.elim l.word (·.label)

structure Fits (l : LoopStart) : Prop where
  label : ∀ l' ∈ l.label, l'.Fits
  word : l.word.isName "cbit" = true
  keyword : l.keyword.isName "for" = true
  row : l.keyword.start.row = l.first.start.row

def name (l : LoopStart) : Option String := l.label.map (·.label.text)

theorem Fits.first_kind {l : LoopStart} (h : l.Fits) : l.first.kind = .name := by
  obtain ⟨label, word, keyword⟩ := l
  cases label with
  | none => exact (by simpa [Token.isName] using h.word : word.kind = .name ∧ _).1
  | some label =>
    have hlabel := (h.label label rfl).1
    simp only [Token.isIdentifier, Bool.and_eq_true, beq_iff_eq] at hlabel
    exact hlabel.1

end LoopStart

/-- Takes the start of a callback loop out, keeps its header, and goes on with its plain tokens. -/
def markHeader (s : Stripper) (l : LoopStart) (plain : List Token) (header : LoopHeader) : Stripper :=
  let s := s.take l.first l.keyword
  let place := (s.shift l.keyword).start
  { s.emitAll (l.keyword :: plain) with
    marks := { s.marks with headers := s.marks.headers.insert place header } }

variable {s : Stripper} {l : LoopStart} {ts : List Token}

theorem dropLeading_take {first kept : Token} (h : kept.start.row = first.start.row) :
    s.dropLeading first kept = .ok (s.take first kept) :=
  if_neg (by simp [h])

theorem markLoop_eq {label : Option Token} {left : List Token} {header : LoopHeader} (hl : l.Fits)
    (hlabel : label.map (·.text) = l.name) (h : loopHeader l.name ts = .ok (plain, header, left)) :
    s.markLoop label l.first l.keyword ts = .ok (s.markHeader l plain header, left) := by
  rw [markLoop, dropLeading_take hl.row]
  show (loopHeader _ _ >>= _) = _
  rw [hlabel, h]
  simp only [markHeader, emitAll_marks, bind, Except.bind, pure, Except.pure]
  rfl

theorem markLoop_fault {label : Option Token} {e : DialectFault} (hl : l.Fits)
    (hlabel : label.map (·.text) = l.name) (h : loopHeader l.name ts = .error e) :
    s.markLoop label l.first l.keyword ts = .error e := by
  rw [markLoop, dropLeading_take hl.row]
  show (loopHeader _ _ >>= _) = _
  rw [hlabel, h]
  rfl

theorem notePragma_of_kind {t : Token} (h : t.kind ≠ .comment) : s.notePragma t = .ok s :=
  if_pos (by simpa using h)

section Run

variable {t : Token} {rest left : List Token} {fresh : Bool} {s' : Stripper} {e : DialectFault}

theorem run_reserved (hk : t.kind ≠ .comment) (h : ¬ t.Unreserved) :
    ∃ e, s.run fresh (t :: rest) = .error (.dialect e) := by
  rw [run, notePragma_of_kind hk]
  dsimp only
  split
  · exact ⟨_, rfl⟩
  · rename_i hname
    exact absurd (checkName_eq_ok_iff.1 hname) h

theorem run_consumed (hk : t.kind ≠ .comment) (h : t.Unreserved)
    (hc : s.consume t (construct (fresh && s.depth ≤ 0) t rest).2 (construct (fresh && s.depth ≤ 0) t rest).1 =
      .ok (s', left)) :
    s.run fresh (t :: rest) = s'.run (startsAfter t (construct (fresh && s.depth ≤ 0) t rest).1) left := by
  rw [run, notePragma_of_kind hk]
  dsimp only
  rw [checkName_eq_ok_iff.2 h]
  dsimp only
  split
  · rename_i hfault
    cases hfault.symm.trans hc
  · rename_i hok
    cases hok.symm.trans hc
    rfl

theorem run_refused (hk : t.kind ≠ .comment) (h : t.Unreserved)
    (hc : s.consume t (construct (fresh && s.depth ≤ 0) t rest).2 (construct (fresh && s.depth ≤ 0) t rest).1 =
      .error e) :
    s.run fresh (t :: rest) = .error (.dialect e) := by
  rw [run, notePragma_of_kind hk]
  dsimp only
  rw [checkName_eq_ok_iff.2 h]
  dsimp only
  split
  · rename_i hfault
    cases hfault.symm.trans hc
    rfl
  · rename_i hok
    cases hok.symm.trans hc

end Run

theorem construct_callback (hl : l.Fits) :
    ∃ rest, l.tokens ++ ts = l.first :: rest ∧
      construct true l.first rest = (.callbackLoop (l.label.map (·.label)) l.first l.keyword, ts) := by
  obtain ⟨label, word, keyword⟩ := l
  obtain ⟨hlabel, hword, hkeyword, -⟩ := hl
  dsimp only at hlabel hword hkeyword
  obtain ⟨hwk, hwt⟩ : word.kind = .name ∧ word.text = "cbit" := by simpa [Token.isName] using hword
  have hcolon : keyword.isOp ":" = false := by
    have hk : keyword.kind = .name := (by simpa [Token.isName] using hkeyword : keyword.kind = .name ∧ _).1
    simp [Token.isOp, hk]
  cases label with
  | none =>
    refine ⟨keyword :: ts, rfl, ?_⟩
    have hnone : labelled? word (keyword :: ts) = none := by
      cases ts with
      | nil => rfl
      | cons k rest => simp [labelled?, hcolon]
    show construct true word (keyword :: ts) = _
    simp [construct, hnone, unlabelled?, hword, hkeyword, LoopStart.first]
  | some label =>
    obtain ⟨hname, hop⟩ := hlabel label rfl
    refine ⟨label.colon :: word :: keyword :: ts, rfl, ?_⟩
    have hsome : labelled? label.label (label.colon :: word :: keyword :: ts) =
        some (.callbackLoop (some label.label) label.label keyword, ts) := by
      have hloop (text : String) (hne : text ≠ "cbit") : word.isName text = false := by
        simp [Token.isName, hwt, hne.symm]
      simp [labelled?, hname, hop, hword, hkeyword, hloop]
    show construct true label.label (label.colon :: word :: keyword :: ts) = _
    simp [construct, hsome, LoopStart.first]

/-- The header of a callback loop is kept exactly if it has the form of the grammar, and then its plain
tokens and the colon go on; any other is refused.  A run at the start of a statement does so, unless the
first name is reserved: then it is refused as well. -/
theorem run_callback (s : Stripper) (l : LoopStart) (ts : List Token) (hl : l.Fits) (hd : s.depth ≤ 0) :
    let moved := s.take l.first l.keyword
    let kept := s.markLoop (l.label.map (·.label)) l.first l.keyword ts
    (∀ (f : HeaderForm) (rest : List Token), f.Correct → ts = f.tokens ++ f.colon :: rest →
      ∃ s' : Stripper, kept = .ok (s', f.colon :: rest) ∧
        s'.marks = { s.marks with headers := s.marks.headers.insert (moved.shift l.keyword).start (f.header l.name) } ∧
        (s'.emit f.colon).emitted.reverse =
          s.emitted.reverse ++ (l.keyword :: f.plain ++ [f.colon]).map moved.shift ∧
        (l.first.Unreserved → s.run true (l.tokens ++ ts) = (s'.emit f.colon).run false rest)) ∧
    ((¬ ∃ (f : HeaderForm) (rest : List Token), f.Correct ∧ ts = f.tokens ++ f.colon :: rest) →
      ∃ fault, kept = .error fault ∧
        (l.first.Unreserved → s.run true (l.tokens ++ ts) = .error (.dialect fault))) ∧
    (¬ l.first.Unreserved → ∃ fault, s.run true (l.tokens ++ ts) = .error (.dialect fault)) := by
  intro moved kept
  have hfirst : l.first.kind ≠ .comment := by simp [hl.first_kind]
  have hname : (l.label.map (·.label)).map (·.text) = l.name := by rw [Option.map_map]; rfl
  have hfresh : (true && decide (s.depth ≤ 0)) = true := by simpa using hd
  obtain ⟨rest₀, htokens, hconstruct⟩ := @construct_callback l ts hl
  rw [htokens]
  refine ⟨?form, ?noForm, fun h => run_reserved hfirst h⟩
  case form =>
    rintro f rest hcorrect rfl
    have hheader : loopHeader l.name (f.tokens ++ f.colon :: rest) = .ok (f.plain, f.header l.name, f.colon :: rest) :=
      loopHeader_eq_ok_iff.2 ⟨f, rest, hcorrect, rfl, rfl, rfl, rfl⟩
    have hmark := markLoop_eq (s := s) hl hname hheader
    have hcolonKind : f.colon.kind = .op := by
      have hcolon := hcorrect.colon
      simp only [Token.isOp, Bool.and_eq_true, beq_iff_eq] at hcolon
      exact hcolon.1
    refine ⟨s.markHeader l f.plain (f.header l.name), hmark, rfl, ?_, fun hfree => ?_⟩
    · have hcolon : (s.markHeader l f.plain (f.header l.name)).shift f.colon = moved.shift f.colon :=
        shift_congr (by rw [shiftOf, markHeader, emitAll_shifts]; rfl)
      rw [emit, List.reverse_cons, hcolon, markHeader, emitAll_emitted, List.map_append, List.append_assoc]
      rfl
    · rw [run_consumed hfirst hfree (by rw [hfresh, hconstruct]; exact hmark), hfresh, hconstruct]
      show run _ false (f.colon :: rest) = _
      have hplain : construct false f.colon rest = (.plain, rest) := by
        simp [construct, isName_of_isOp hcorrect.colon]
      rw [run_consumed (by simp [hcolonKind]) (by simp [Token.Unreserved, hcolonKind])
        (by rw [Bool.false_and, hplain]; rfl), Bool.false_and, hplain]
      simp [startsAfter, Token.isBoundary, hcolonKind]
  case noForm =>
    intro hno
    cases hheader : loopHeader l.name ts with
    | error e =>
      have hfault := markLoop_fault (s := s) hl hname hheader
      refine ⟨e, hfault, fun hfree => run_refused hfirst hfree ?_⟩
      rw [hfresh, hconstruct]
      exact hfault
    | ok r =>
      obtain ⟨f, rest, hcorrect, hts, -⟩ := loopHeader_eq_ok_iff.1 hheader
      exact absurd ⟨f, rest, hcorrect, hts⟩ hno

def searchStart : LoopStart where
  label := some ⟨⟨.name, "rows", ⟨1, 0⟩, ⟨1, 4⟩⟩, ⟨.op, ":", ⟨1, 4⟩, ⟨1, 5⟩⟩⟩
  word := ⟨.name, "cbit", ⟨1, 6⟩, ⟨1, 10⟩⟩
  keyword := ⟨.name, "for", ⟨1, 11⟩, ⟨1, 14⟩⟩

def searchForm : HeaderForm where
  plain :=
    [⟨.name, "x", ⟨1, 15⟩, ⟨1, 16⟩⟩, ⟨.name, "in", ⟨1, 17⟩, ⟨1, 19⟩⟩,
     ⟨.name, "each", ⟨1, 20⟩, ⟨1, 24⟩⟩, ⟨.op, "(", ⟨1, 24⟩, ⟨1, 25⟩⟩,
     ⟨.name, "xs", ⟨1, 25⟩, ⟨1, 27⟩⟩, ⟨.op, "[", ⟨1, 27⟩, ⟨1, 28⟩⟩,
     ⟨.number, "1", ⟨1, 28⟩, ⟨1, 29⟩⟩, ⟨.op, ":", ⟨1, 29⟩, ⟨1, 30⟩⟩,
     ⟨.op, "]", ⟨1, 30⟩, ⟨1, 31⟩⟩, ⟨.op, ")", ⟨1, 31⟩, ⟨1, 32⟩⟩]
  escapes := some ⟨⟨.name, "break", ⟨1, 33⟩, ⟨1, 38⟩⟩,
    [⟨some ⟨.name, "loop", ⟨1, 39⟩, ⟨1, 43⟩⟩, ⟨.name, "a", ⟨1, 44⟩, ⟨1, 45⟩⟩,
       some ⟨.op, ",", ⟨1, 45⟩, ⟨1, 46⟩⟩⟩,
     ⟨none, ⟨.name, "b", ⟨1, 47⟩, ⟨1, 48⟩⟩, none⟩]⟩
  result := some ⟨⟨.name, "as", ⟨1, 49⟩, ⟨1, 51⟩⟩, ⟨.name, "found", ⟨1, 52⟩, ⟨1, 57⟩⟩⟩
  colon := ⟨.op, ":", ⟨1, 57⟩, ⟨1, 58⟩⟩

theorem searchStart_fits : searchStart.Fits where
  label := by simp [searchStart, Labelling.Fits, Token.isOp]; decide
  word := by decide
  keyword := by decide
  row := rfl

theorem searchForm_correct : searchForm.Correct where
  plain := by
    have hplain : plainHeader 0 (searchForm.plain ++ [searchForm.colon]) =
        .ok (searchForm.plain, [searchForm.colon]) := by rfl
    exact (plainHeader_sound hplain).1
  escapes := by
    rintro c ⟨⟩
    have hfirst : EscapeItem.Fits ⟨some ⟨.name, "loop", ⟨1, 39⟩, ⟨1, 43⟩⟩, ⟨.name, "a", ⟨1, 44⟩, ⟨1, 45⟩⟩,
        some ⟨.op, ",", ⟨1, 45⟩, ⟨1, 46⟩⟩⟩ := ⟨by rintro w ⟨⟩; decide, by decide, by rintro c ⟨⟩; decide⟩
    have hlast : EscapeItem.Fits ⟨none, ⟨.name, "b", ⟨1, 47⟩, ⟨1, 48⟩⟩, none⟩ := ⟨nofun, by decide, nofun⟩
    exact ⟨by decide, List.forall_mem_cons.2 ⟨hfirst, List.forall_mem_singleton.2 hlast⟩, ⟨rfl, rfl⟩,
      List.forall_mem_cons.2 ⟨fun _ => by decide, List.forall_mem_singleton.2 fun _ => by decide⟩, by decide⟩
  result := by
    rintro c ⟨⟩
    exact ⟨⟨by decide, by decide⟩, fun _ => by decide⟩
  colon := by decide

theorem run_callback_search :
    searchStart.Fits ∧ searchForm.Correct ∧ ∃ s' : Stripper,
      ({} : Stripper).markLoop (searchStart.label.map (·.label)) searchStart.first searchStart.keyword
        (searchForm.tokens ++ [searchForm.colon]) = .ok (s', [searchForm.colon]) ∧
      s'.marks = { headers := [(⟨1, 0⟩, ⟨some "rows", [⟨"a", true, ⟨1, 44⟩⟩, ⟨"b", false, ⟨1, 47⟩⟩],
        some "found"⟩)] } := by
  have hread := (run_callback {} searchStart (searchForm.tokens ++ [searchForm.colon]) searchStart_fits
    (by decide)).1 searchForm [] searchForm_correct rfl
  obtain ⟨s', hkept, hmarks, -⟩ := hread
  exact ⟨searchStart_fits, searchForm_correct, s', hkept, hmarks⟩

end Stripper

end LoopEscape
