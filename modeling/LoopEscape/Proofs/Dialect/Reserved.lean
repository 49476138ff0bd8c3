import LoopEscape.Proofs.Grammar.Words
import LoopEscape.Proofs.Dialect.HeaderGrammar
import LoopEscape.Proofs.Dialect.Attached

/-!
# Reserved names in sources

Every name of a source is checked on the way (`Stripper.run_unreserved`), so a reserved word gets into
the plain code from other tokens only.  If these hold none, and no token ends in a beginning of a reserved
word that text behind it could complete, no identifier of the parsed source is reserved
(`parseSource_userNames`).  The second condition leaves out sources with names such as `_` or `_c`.
-/

namespace LoopEscape
open Text

/-! ### Every name is checked -/

def Checked (ts rest : List Token) : Prop := ∀ t ∈ ts, t ∈ rest ∨ t.Unreserved

theorem Checked.trans {a b c : List Token} (h : Checked a b) (h' : Checked b c) : Checked a c :=
  fun t ht => (h t ht).elim (h' t) .inr

theorem unreserved_isName {t : Token} {w : String} (h : t.isName w = true) (hw : isReserved w = false) :
    t.Unreserved := fun _ => by rw [(Token.isName_kind h).2, hw]

theorem unreserved_words : isReserved "for" = false ∧ isReserved "while" = false ∧ isReserved "block" = false ∧
    isReserved "cbit" = false ∧ isReserved "break" = false ∧ isReserved "loop" = false ∧
    isReserved "as" = false ∧ isReserved "with" = false := by
  decide

theorem unreserved_isOp {t : Token} {w : String} (h : t.isOp w = true) : t.Unreserved := fun hk => by
  simp [Token.isOp, hk] at h

attribute [local grind =] Checked checkName_eq_ok_iff
attribute [local grind →] unreserved_isName unreserved_isOp

theorem plainHeader_checked {depth : Int} {ts header rest : List Token}
    (h : plainHeader depth ts = .ok (header, rest)) : Checked ts rest := by
  induction ts generalizing depth header rest with
  | nil => cases h
  | cons t ts ih =>
    simp only [plainHeader, bind, Except.bind, pure, Except.pure] at h
    grind [unreserved_words]

theorem valueTokens_checked {depth : Int} {ts value rest : List Token}
    (h : valueTokens depth ts = .ok (value, rest)) : Checked ts rest := by
  induction ts generalizing depth value rest with
  | nil => exact fun t => nofun
  | cons t ts ih =>
    simp only [valueTokens, bind, Except.bind, pure, Except.pure] at h
    grind [unreserved_words]

theorem escapeLabels_checked {clause : Position} {before es : List EscapeLabel} {ts rest : List Token}
    (h : escapeLabels clause before ts = .ok (es, rest)) : Checked ts rest := by
  have hlabel {before loops t e} (h : escapeLabel clause before loops t = .ok e) : t.Unreserved := by
    simp only [escapeLabel, bind, Except.bind] at h
    grind [unreserved_words]
  fun_induction escapeLabels clause before ts with
  | case1 => cases h
  | case2 => cases h
  | case4 before t u ts ht ih =>
    simp only [bind, Except.bind, pure, Except.pure] at h
    cases ts <;> grind [unreserved_words]
  | _ =>
    simp only [bind, Except.bind, pure, Except.pure, Except.map] at h
    grind [unreserved_words]

theorem breakClause_checked {ts rest : List Token} {es : List EscapeLabel}
    (h : breakClause ts = .ok (es, rest)) : Checked ts rest := by
  unfold breakClause at h
  grind [unreserved_words, → escapeLabels_checked]

theorem asClause_checked {ts rest : List Token} {target : Option String}
    (h : asClause ts = .ok (target, rest)) : Checked ts rest := by
  simp only [asClause, bind, Except.bind, pure, Except.pure] at h
  grind [unreserved_words]

theorem loopHeader_checked {label : Option String} {ts header rest : List Token} {l : LoopHeader}
    (h : loopHeader label ts = .ok (header, l, rest)) : Checked ts rest := by
  simp only [loopHeader, bind, Except.bind, pure, Except.pure] at h
  grind [unreserved_words, → plainHeader_checked, → breakClause_checked, → asClause_checked]

theorem jumpLabel_checked {ts rest : List Token} {label : Option String}
    (h : jumpLabel ts = .ok (label, rest)) : Checked ts rest := by
  simp only [jumpLabel, bind, Except.bind, pure, Except.pure] at h
  grind [unreserved_words]

theorem jumpValue_checked {keyword : String} {ts value rest : List Token}
    (h : jumpValue keyword ts = .ok (value, rest)) : Checked ts rest := by
  simp only [jumpValue, bind, Except.bind, pure, Except.pure] at h
  grind [unreserved_words, → valueTokens_checked]

theorem jumpTail_checked {keyword : String} {ts rest : List Token} {tail : JumpTail}
    (h : jumpTail keyword ts = .ok (tail, rest)) : Checked ts rest := by
  simp only [jumpTail, bind, Except.bind, pure, Except.pure] at h
  grind [unreserved_words, → jumpLabel_checked, → jumpValue_checked]

namespace Stripper

theorem construct_checked (b : Bool) (t : Token) (ts : List Token) : Checked ts (construct b t ts).2 := by
  have hlabelled {c} (h : labelled? t ts = some c) : Checked ts c.2 := by
    unfold labelled? at h
    grind [unreserved_words]
  have hunlabelled {c} (h : unlabelled? t ts = some c) : Checked ts c.2 := by
    unfold unlabelled? at h
    grind [unreserved_words]
  unfold construct
  grind [Option.or_eq_some_iff]

theorem consume_checked {s s' : Stripper} {t : Token} {ts rest : List Token} {c : Construct}
    (h : s.consume t ts c = .ok (s', rest)) : Checked ts rest := by
  cases c with
  | labelledLoop label keyword =>
    obtain ⟨_, -, heq⟩ := map_eq_ok h
    cases heq
    exact fun t ht => .inl ht
  | labelledBlock label keyword =>
    obtain ⟨_, -, h⟩ := bind_eq_ok h
    obtain ⟨⟨target, rest'⟩, hclause, heq⟩ := bind_eq_ok h
    cases heq
    exact asClause_checked hclause
  | callbackLoop label first keyword =>
    obtain ⟨_, -, h⟩ := bind_eq_ok h
    obtain ⟨⟨plain, header, rest'⟩, hheader, heq⟩ := bind_eq_ok h
    cases heq
    exact loopHeader_checked hheader
  | jump keyword =>
    obtain ⟨⟨tail, rest'⟩, htail, h⟩ := bind_eq_ok h
    dsimp only at h
    split at h <;> cases h
    all_goals exact jumpTail_checked htail
  | plain =>
    cases h
    exact fun t ht => .inl ht

theorem run_unreserved {s s' : Stripper} {fresh : Bool} {ts : List Token} (h : s.run fresh ts = .ok s') :
    ∀ t ∈ ts, t.Unreserved := by
  fun_induction run s fresh ts with
  | case1 => simp
  | case2 => cases h
  | case3 => cases h
  | case4 => cases h
  | case5 s fresh t rest s₁ hnote hname found s₂ left hconsume ih =>
    refine List.forall_mem_cons.2 ⟨checkName_eq_ok_iff.1 hname, fun u hu => ?_⟩
    exact (Checked.trans (construct_checked _ _ _) (consume_checked hconsume) u hu).elim (ih h u) id

end Stripper

/-! ### The plain code -/

/-- A token that brings no reserved word into the code: a reserved name, which is refused, or ASCII text
that is free throughout. -/
structure Token.Plain (t : Token) : Prop where
  ascii : ∀ c ∈ t.text.toList, c.toNat < 128
  free : t.kind = .name ∧ isReserved t.text = true ∨ FreeThroughout t.text.toList

theorem FreeThroughout.append {cs ds : List Char} (hcs : FreeThroughout cs) (hds : FreeThroughout ds) :
    FreeThroughout (cs ++ ds) := fun s hs => by
  rw [List.append_assoc]
  exact hcs.free.append (hds s hs) (.inl hcs)

theorem FreeOfReserved.of_short {cs : List Char} (h : cs.length < reservedStart.toList.length) :
    FreeOfReserved cs := by
  rintro a b rfl
  simp only [List.length_append] at h
  omega

structure FreePiece (cs : List Char) : Prop where
  ascii : ∀ c ∈ cs, c.toNat < 128
  free : FreeThroughout cs

namespace FreePiece

variable {cs ds : List Char}

theorem append (hcs : FreePiece cs) (hds : FreePiece ds) : FreePiece (cs ++ ds) where
  ascii c hc := (List.mem_append.1 hc).elim (hcs.ascii c) (hds.ascii c)
  free := hcs.free.append hds.free

theorem of_free (hascii : ∀ c ∈ cs, c.toNat < 128) (hfree : FreeOfReserved cs) (hend : ¬ endsInWord cs) :
    FreePiece cs where
  ascii := hascii
  free s hs := by
    refine hfree.append (.of_short ?_) (.inr (.inl hend))
    exact Nat.lt_of_le_of_lt ((List.mem_tails ..).1 hs).length_le (by simp [reservedStart])

theorem of_noWord (h : ∀ c ∈ cs, c.toNat < 128 ∧ Lexer.isNamePart c = false) : FreePiece cs := by
  refine of_free (fun c hc => (h c hc).1) (.of_noWord fun c hc => (h c hc).2) ?_
  rintro ⟨c, hc, hpart⟩
  exact absurd (hpart.symm.trans (h c (List.mem_of_getLast? hc)).2) (by decide)

theorem flatMap {pieces : List String} (h : ∀ s ∈ pieces, FreePiece s.toList) :
    FreePiece (pieces.flatMap String.toList) := by
  induction pieces with
  | nil => exact of_noWord nofun
  | cons s pieces ih =>
    obtain ⟨hs, hrest⟩ := List.forall_mem_cons.1 h
    exact hs.append (ih hrest)

theorem repeated {s : String} (h : ∀ c ∈ s.toList, c.toNat < 128 ∧ Lexer.isNamePart c = false) (n : Nat) :
    FreePiece (Text.repeated s n).toList := by
  refine of_noWord fun c hc => ?_
  rw [Text.repeated, String.toList_join] at hc
  obtain ⟨s', hs', hc⟩ := List.mem_flatMap.1 hc
  rw [(List.mem_replicate.1 hs').2] at hc
  exact h c hc

end FreePiece

structure Layout.Free (l : Layout) : Prop where
  pieces : ∀ s ∈ l.pieces, FreePiece s.toList
  indents : ∀ s ∈ l.indents, FreePiece s.toList

namespace Layout

theorem Free.add {l l' : Layout} {t : Token} (h : l.Free) (ht : FreePiece t.text.toList)
    (hadd : l.add t = .ok l') : l'.Free := by
  have hadvance {l l' : Layout} {start : Position} (h : l.Free) (hl : l.advance start = .ok l') : l'.Free := by
    have hblank := FreePiece.repeated (s := " ") (by simp; decide)
    have hskip := FreePiece.repeated (s := "\\\n") (by simp; decide)
    unfold advance at hl
    split at hl
    · cases hl
    · cases hl
      refine ⟨List.forall_mem_cons.2 ⟨hblank _, ?_⟩, h.indents⟩
      split
      · exact h.pieces
      · exact List.forall_mem_cons.2 ⟨hskip _, h.pieces⟩
  have hwrite {l : Layout} (h : l.Free) : (l.write t).Free :=
    ⟨List.forall_mem_cons.2 ⟨ht, h.pieces⟩, h.indents⟩
  unfold Layout.add at hadd
  split at hadd
  · cases hadd
    exact h
  · cases hadd
    exact ⟨h.pieces, List.forall_mem_cons.2 ⟨ht, h.indents⟩⟩
  · split at hadd
    · cases hadd
    · next hindents =>
      cases hadd
      exact ⟨h.pieces, fun s hs => h.indents s (by rw [hindents]; exact List.mem_cons_of_mem _ hs)⟩
  · obtain ⟨l₁, hl₁, rfl⟩ := map_eq_ok hadd
    exact hwrite (hadvance (l := { l with atRowStart := true }) ⟨h.pieces, h.indents⟩ hl₁)
  · obtain ⟨l₁, hl₁, rfl⟩ := map_eq_ok hadd
    exact hwrite (hadvance (l := { l with atRowStart := true }) ⟨h.pieces, h.indents⟩ hl₁)
  · obtain ⟨l₁, hl₁, rfl⟩ := map_eq_ok hadd
    refine hwrite (hadvance ?_ hl₁)
    unfold indent
    split
    · next i is _ hindents =>
      split
      · exact ⟨List.forall_mem_cons.2 ⟨h.indents i (by simp [hindents]), h.pieces⟩, h.indents⟩
      · exact ⟨h.pieces, h.indents⟩
    · exact h

end Layout

theorem layout_free {ts : List Token} {code : String} (h : layout ts = .ok code)
    (hts : ∀ t ∈ ts, FreePiece t.text.toList) : FreePiece code.toList := by
  have hall : ∀ {ts : List Token} {l l' : Layout}, l.Free → (∀ t ∈ ts, FreePiece t.text.toList) →
      l.addAll ts = .ok l' → l'.Free := by
    intro ts
    induction ts with
    | nil =>
      rintro l l' hl - ⟨⟩
      exact hl
    | cons t ts ih =>
      intro l l' hl hts hadd
      obtain ⟨ht, hts⟩ := List.forall_mem_cons.1 hts
      rw [Layout.addAll] at hadd
      split at hadd
      · cases hadd
        exact hl
      · split at hadd
        · cases hadd
        · next l₁ hl₁ => exact ih (hl.add ht hl₁) hts hadd
  obtain ⟨l, hl, rfl⟩ := map_eq_ok h
  have hfree := hall ⟨by simp, by simp⟩ hts hl
  rw [String.toList_join]
  exact .flatMap fun s hs => hfree.pieces s (List.mem_reverse.1 hs)

/-! ### Parsed sources -/

theorem restore_ascii {e : Encoding} {cs : List Char} (h : ∀ c ∈ cs, c.toNat < 128) : e.restore cs = some cs := by
  have hdecode : decodeUtf8 (cs.map Char.toNat) = some cs := by
    induction cs with
    | nil => simp [decodeUtf8]
    | cons c cs ih =>
      obtain ⟨hc, hcs⟩ := List.forall_mem_cons.1 h
      rw [List.map_cons, decodeUtf8.eq_def]
      simp [hc, ih hcs]
  have hall {n : Nat} (hn : 128 ≤ n) : cs.all (·.toNat < n) = true :=
    List.all_eq_true.2 fun c hc => decide_eq_true (Nat.lt_of_lt_of_le (h c hc) hn)
  cases e with
  | utf8 => rfl
  | latin1 => simpa [Encoding.restore, Encoding.encode, hall] using hdecode
  | ascii => simpa [Encoding.restore, Encoding.encode, hall] using hdecode

theorem Token.Plain.piece {t : Token} (h : t.Plain) (hname : t.Unreserved) : FreePiece t.text.toList where
  ascii := h.ascii
  free := h.free.resolve_left fun ⟨hk, hres⟩ => by simp [hname hk] at hres

theorem Token.Unreserved.userName {t : Token} (h : t.Unreserved) (ht : t.isIdentifier = true) :
    UserName t.text :=
  userName_of_unreserved (h (Token.isIdentifier_kind ht))

theorem FreePiece.of_noUnderscore {cs : List Char} (hascii : ∀ c ∈ cs, c.toNat < 128) (h : '_' ∉ cs) :
    FreePiece cs where
  ascii := hascii
  free s hs a b hab := by
    have hlength := congrArg List.length hab
    have hsuffix := ((List.mem_tails ..).1 hs).length_le
    rcases List.append_eq_append_iff.1 hab with ⟨a', -, rfl⟩ | ⟨c, rfl, hc⟩
    · simp [reservedStart] at hsuffix
      omega
    · cases c with
      | nil =>
        rw [List.nil_append] at hc
        rw [← hc] at hsuffix
        simp [reservedStart] at hsuffix
        omega
      | cons d c =>
        have hstart : reservedStart.toList = '_' :: reservedStart.toList.tail := by decide
        rw [List.cons_append, hstart] at hc
        exact absurd (List.cons.inj hc).1 (by simp at h; exact h.2.1)

theorem Part.emits_text {p : Part} {t : Token} (h : t ∈ p.emits) :
    t ∈ p.tokens ∨ t.text = "if" ∨ t.text = "1" := by
  cases p with
  | block => grind [Part.emits, Token.branch, Token.condition]
  | _ => grind [Part.emits, Part.tokens]

section

variable {s : Stripper} {parts : List Part}

theorem Stripper.Kept.emitted_free (h : s.Kept parts)
    (hpiece : ∀ t ∈ parts.flatMap Part.tokens, FreePiece t.text.toList) :
    ∀ t ∈ s.emitted.reverse, FreePiece t.text.toList := by
  intro u hu
  rw [h.emitted] at hu
  obtain ⟨t, ht, rfl⟩ := List.mem_map.1 hu
  have htext : (s.place t).text = t.text := by
    unfold place
    split <;> rfl
  rw [htext]
  obtain ⟨p, hp, ht⟩ := List.mem_flatMap.1 ht
  rcases Part.emits_text ht with ht | ht | ht
  on_goal 1 => exact hpiece t (List.mem_flatMap.2 ⟨p, hp, ht⟩)
  all_goals
    rw [ht]
    exact .of_noUnderscore (by simp) (by simp)

theorem Stripper.Kept.marks_written (h : s.Kept parts)
    (hpiece : ∀ t ∈ parts.flatMap Part.tokens, FreePiece t.text.toList)
    (hnames : ∀ t ∈ parts.flatMap Part.tokens, t.Unreserved) (ctx : AttachContext) :
    s.marks.Written UserName ctx := by
  have hname {p : Part} (hp : p ∈ parts) {t : Token} (ht : t ∈ p.tokens) (hid : t.isIdentifier = true) :
      UserName t.text :=
    (hnames t (List.mem_flatMap.2 ⟨p, hp, ht⟩)).userName hid
  refine ⟨fun ⟨_, m⟩ he => ?_, fun ⟨_, m⟩ he => ?_, fun ⟨_, m⟩ he => ?_, fun ⟨_, m⟩ he => ?_⟩
  · obtain ⟨p, hp, t, hm⟩ := mem_entries (h.loops ▸ he)
    have hfits := h.fits p hp
    cases p <;> cases hm
    exact hname hp (by simp [Part.tokens, Labelling.tokens]) hfits.1.1
  · obtain ⟨p, hp, t, hm⟩ := mem_entries (h.headers ▸ he)
    have hfits := h.fits p hp
    cases p with
    | callback label word keyword header escapes result =>
      obtain ⟨hlabel, -, -, -, hescapes, hresult⟩ := hfits
      obtain ⟨-, rfl⟩ := Prod.mk.inj (Option.some.inj hm)
      refine ⟨h.distinct _ he, fun x hx => ?_, fun l hl => ?_, fun x hx => ?_⟩
      · obtain ⟨l, rfl, rfl⟩ := Option.map_eq_some_iff.1 hx
        exact hname hp (by simp [Part.tokens, optionTokens, Labelling.tokens]) (hlabel l rfl).1
      · cases escapes with
        | none => cases hl
        | some c =>
          obtain ⟨i, hi, rfl⟩ := List.mem_map.1 hl
          refine hname hp ?_ ((hescapes c rfl).2.1 i hi).label.1
          simp only [Part.tokens, optionTokens, BreakClause.tokens, EscapeItem.tokens, Option.elim]
          grind
      · obtain ⟨c, rfl, rfl⟩ := Option.map_eq_some_iff.1 hx
        exact hname hp (by simp [Part.tokens, optionTokens, AsClause.tokens]) (hresult c rfl).2
    | _ => cases hm
  · obtain ⟨p, hp, t, hm⟩ := mem_entries (h.blocks ▸ he)
    have hfits := h.fits p hp
    cases p with
    | block label keyword target =>
      obtain ⟨hlabel, -, htarget⟩ := hfits
      obtain ⟨-, rfl⟩ := Prod.mk.inj (Option.some.inj hm)
      refine ⟨hname hp (by simp [Part.tokens, Labelling.tokens]) hlabel.1, fun x hx => ?_⟩
      obtain ⟨c, rfl, rfl⟩ := Option.map_eq_some_iff.1 hx
      exact hname hp (by simp [Part.tokens, optionTokens, AsClause.tokens]) (htarget c rfl).2
    | _ => cases hm
  · obtain ⟨p, hp, t, hplaced⟩ := mem_entries (h.jumps ▸ he)
    have hfits := h.fits p hp
    obtain ⟨m', hm, heq⟩ := Option.map_eq_some_iff.1 hplaced
    obtain ⟨-, rfl⟩ := Prod.mk.inj heq
    refine ⟨fun x hx => ?_, fun value hvalue => parseValue_within hvalue fun code hcode => ?_⟩
    · cases p with
      | jump keyword label value =>
        rw [Part.jumpMark?] at hm
        split at hm
        · cases hm
        · cases hm
          obtain ⟨l, rfl, rfl⟩ := Option.map_eq_some_iff.1 hx
          exact hname hp (by simp [Part.tokens]) (hfits.2.1 l rfl)
      | _ => cases hm
    · have hcode := layout_free hcode fun u hu => by
        obtain ⟨t, ht, rfl⟩ := List.mem_map.1 hu
        have hmem := Part.jumpMark_value hm ht
        have htext := hpiece t (List.mem_flatMap.2 ⟨p, hp, hmem⟩)
        unfold place
        split <;> exact htext
      have hstart : FreePiece Attach.valueStart.toList :=
        .of_free (by simp [Attach.valueStart]) (.of_short (by simp [Attach.valueStart, reservedStart]))
          (by simp [Attach.valueStart, endsInWord]; decide)
      refine lex_free ?_
      have happend := hstart.append hcode
      rw [String.toList_append]
      exact ⟨happend.free.free, happend.ascii⟩

end

/-- No identifier of a parsed source is reserved, if beside names no token of the source holds a word that
starts like reserved names, and no token ends in a word that is a beginning of such a start: the name `_` is
one. -/
theorem parseSource_userNames {strict : Bool} {source : Source} {module : Module} {stream : TokenStream}
    (hscan : scan source.text = .ok stream) (hplain : ∀ t ∈ stream.tokens, t.Plain)
    (h : parseSource strict source = .ok module) : Stmt.EveryAll (Stmt.Within UserName) module.body := by
  refine everyAll_mono (fun _ hs => hs.2.2) (parseSource_written h fun stripped hstrip => ?_)
  rw [strip, hscan] at hstrip
  dsimp only at hstrip
  split at hstrip
  · cases hstrip
  · next s hrun =>
    split at hstrip
    · cases hstrip
    · next code hlayout =>
      obtain ⟨parts, hkept, htokens⟩ := Stripper.run_parts hscan hrun
      have hnames := Stripper.run_unreserved hrun
      have hpiece : ∀ t ∈ stream.tokens, FreePiece t.text.toList := fun t ht => (hplain t ht).piece (hnames t ht)
      rw [htokens] at hnames hpiece
      have hcode := layout_free hlayout (hkept.emitted_free hpiece)
      rw [restore_ascii hcode.ascii] at hstrip
      cases hstrip
      refine ⟨lex_free ?_, hkept.marks_written hpiece hnames _⟩
      rw [String.toList_ofList]
      exact ⟨hcode.free.free, hcode.ascii⟩

def formattedRows : Source where
  text := "L: for x in y:\n    M: block as z:\n        break M with f'\x7bx\x7d'\n"

theorem parseSource_userNames_formattedRows : ∃ stream module, scan formattedRows.text = .ok stream ∧
    (∀ t ∈ stream.tokens, t.Plain) ∧ parseSource false formattedRows = .ok module ∧
    Stmt.EveryAll (Stmt.Within UserName) module.body := by
  have htokens : (scan formattedRows.text).toOption.any (fun stream => stream.tokens.all fun t =>
      t.text.toList.all fun c => c.toNat < 128 && c != '_') = true := by
    decide +kernel
  obtain ⟨stream, hscan, htokens⟩ := (Option.any_eq_true _ _).1 htokens
  have hscan := eq_ok_of_toOption hscan
  have hplain : ∀ t ∈ stream.tokens, t.Plain := fun t ht => by
    have hchars := List.all_eq_true.1 (List.all_eq_true.1 htokens t ht)
    simp only [Bool.and_eq_true, decide_eq_true_eq, bne_iff_ne] at hchars
    have hpiece : FreePiece t.text.toList := .of_noUnderscore (fun c hc => (hchars c hc).1)
      fun h => (hchars _ h).2 rfl
    exact ⟨hpiece.ascii, .inr hpiece.free⟩
  have hparsed : (formattedRows.parsed? false).isSome = true := by
    decide +kernel
  obtain ⟨body, hbody⟩ := Option.isSome_iff_exists.1 hparsed
  obtain ⟨settings, hp⟩ := parseSource_of_parsed? (by simp [formattedRows]) hbody
  exact ⟨stream, _, hscan, hplain, hp, parseSource_userNames hscan hplain hp⟩

def formattedName : Source where
  text := "x = f'\x7b_cbit_label_1\x7d'\n"

def formatsReserved : Stmt → Bool
  | .assign _ _ (.joined _ [.formatted _ (.name _ x _) _ _]) => isReserved x
  | _ => false

/-- The name in the text of `formattedName` is reserved. -/
theorem formatted_name_reserved : ∃ module, parseSource false formattedName = .ok module ∧
    ¬ Stmt.EveryAll (Stmt.Within UserName) module.body := by
  have htest : (formattedName.parsed? false).any (·.any formatsReserved) = true := by
    decide +kernel
  obtain ⟨body, hbody, htest⟩ := (Option.any_eq_true _ _).1 htest
  obtain ⟨settings, hp⟩ := parseSource_of_parsed? (by simp [formattedName]) hbody
  refine ⟨_, hp, fun hall => ?_⟩
  obtain ⟨s, hs, hreserved⟩ := List.any_eq_true.1 htest
  have hwithin := everyAll_iff.1 hall s hs
  unfold formatsReserved at hreserved
  split at hreserved
  · simp only [Stmt.Every, Stmt.Within, Expr.Within, List.mem_singleton, forall_eq] at hwithin
    exact absurd (hwithin.2.1.1.symm.trans hreserved) (by decide)
  · cases hreserved

end LoopEscape
