import LoopEscape.Proofs.Dialect.Bookkeeping
import LoopEscape.Proofs.Grammar.Native

/-!
# Statements with their marks

Putting marks back goes through the statements in their order, and each takes the mark at its place, if there
is one of its kind.  A statement with its mark has as much in its blocks as before, and its names are those
that it had and those of the mark (`parseSource_written`); a callback loop goes over a call, and the labels of
its break clause are those of a mark (`parseSource_parsed`).
-/

namespace LoopEscape

open Attach

variable {stripped : Stripped} {source : Source} {module : Module}

/-- A statement as parsing leaves it: a callback loop goes over a call and has distinct labels in its
break clause, and the support module is not imported yet. -/
def Stmt.Parsed : Stmt → Prop
  | .callbackLoop _ header _ iter _ => DistinctClause header.escapes ∧ (CallForm.of? iter).isSome
  | .supportImport .. => False
  | _ => True

def Stmt.Written (P : String → Prop) (s : Stmt) : Prop := s.Parsed ∧ s.Filled ∧ s.Within P

def LoopHeader.Written (P : String → Prop) (h : LoopHeader) : Prop :=
  DistinctClause h.escapes ∧ (∀ x ∈ h.label, P x) ∧ (∀ l ∈ h.escapes, P l.label) ∧ ∀ x ∈ h.result, P x

def BlockHeader.Written (P : String → Prop) (h : BlockHeader) : Prop := P h.label ∧ ∀ x ∈ h.target, P x

def JumpTail.Written (P : String → Prop) (ctx : AttachContext) (t : JumpTail) : Prop :=
  (∀ x ∈ t.label, P x) ∧
    ∀ value, parseValue ctx.strict ctx.shifts t.value = .ok value → ∀ v ∈ value, v.Within P

/-- The names of marks and of their values are such names, and the labels of a break clause differ. -/
structure Marks.Written (P : String → Prop) (ctx : AttachContext) (m : Marks) : Prop where
  loops : ∀ e ∈ m.loops, P e.2.label
  headers : ∀ e ∈ m.headers, e.2.Written P
  blocks : ∀ e ∈ m.blocks, e.2.Written P
  jumps : ∀ e ∈ m.jumps, e.2.Written P ctx

/-! ### Work on marks -/

namespace Attach

variable {α β : Type} {P : String → Prop} {ctx : AttachContext}

/-- Work that takes from such marks leaves such marks, and its result, if there is one, meets `spec`. -/
def Keeps (P : String → Prop) (ctx : AttachContext) (work : Attach α) (spec : α → Prop) : Prop :=
  ∀ m a m', m.Written P ctx → work m = .ok (a, m') → m'.Written P ctx ∧ spec a

namespace Keeps

theorem pure {spec : α → Prop} {a : α} (h : spec a) : Keeps P ctx (pure a) spec := by
  rintro m _ _ hm ⟨⟩
  exact ⟨hm, h⟩

theorem bind {work : Attach α} {next : α → Attach β} {mid : α → Prop} {spec : β → Prop}
    (hwork : Keeps P ctx work mid) (hnext : ∀ a, mid a → Keeps P ctx (next a) spec) :
    Keeps P ctx (work >>= next) spec := by
  intro m b m' hm h
  change (work m >>= fun r => next r.1 r.2) = _ at h
  cases heq : work m with
  | error f =>
    rw [heq] at h
    cases h
  | ok r =>
    rw [heq] at h
    obtain ⟨hr, hmid⟩ := hwork m r.1 r.2 hm heq
    exact hnext r.1 hmid r.2 b m' hr h

theorem throw {f : AttachFault} {spec : α → Prop} : Keeps P ctx (throw f) spec := by
  rintro m a m' - ⟨⟩

theorem lift (x : Except AttachFault α) : Keeps P ctx (liftM x) (x = .ok ·) := by
  intro m a m' hm h
  cases x with
  | error f => cases h
  | ok b =>
    cases h
    exact ⟨hm, rfl⟩

theorem refuseElse (problem : AttachProblem) (body : List Stmt) :
    Keeps P ctx (refuseElse problem body) fun _ => body = [] := by
  cases body with
  | nil => exact .pure rfl
  | cons => exact .throw

end Keeps

theorem mem_of_find? {t : Table α} {p : Position} {a : α} (h : t.find? p = some a) : (p, a) ∈ t := by
  obtain ⟨before, after, heq, -⟩ := List.lookup_eq_some_iff.1 h
  simp [heq]

theorem mem_of_erase {t : Table α} {p : Position} {e : Position × α} (h : e ∈ t.erase p) : e ∈ t :=
  (List.mem_filter.1 h).1

theorem takeLabel_keeps (p : Position) : Keeps P ctx (takeLabel p) fun found => ∀ l ∈ found, P l.label := by
  rintro m _ _ ⟨hloops, hheaders, hblocks, hjumps⟩ ⟨⟩
  exact ⟨⟨fun e he => hloops e (mem_of_erase he), hheaders, hblocks, hjumps⟩, fun l hl =>
    hloops _ (mem_of_find? hl)⟩

theorem takeHeader_keeps (p : Position) :
    Keeps P ctx (takeHeader p) fun found => ∀ h ∈ found, h.Written P := by
  rintro m _ _ ⟨hloops, hheaders, hblocks, hjumps⟩ ⟨⟩
  exact ⟨⟨hloops, fun e he => hheaders e (mem_of_erase he), hblocks, hjumps⟩, fun h hh =>
    hheaders _ (mem_of_find? hh)⟩

theorem takeBlock_keeps (p : Position) : Keeps P ctx (takeBlock p) fun found => ∀ h ∈ found, h.Written P := by
  rintro m _ _ ⟨hloops, hheaders, hblocks, hjumps⟩ ⟨⟩
  exact ⟨⟨hloops, hheaders, fun e he => hblocks e (mem_of_erase he), hjumps⟩, fun h hh =>
    hblocks _ (mem_of_find? hh)⟩

theorem takeJump_keeps (p : Position) :
    Keeps P ctx (takeJump p) fun found => ∀ t ∈ found, t.Written P ctx := by
  rintro m _ _ ⟨hloops, hheaders, hblocks, hjumps⟩ ⟨⟩
  exact ⟨⟨hloops, hheaders, hblocks, fun e he => hjumps e (mem_of_erase he)⟩, fun t ht =>
    hjumps _ (mem_of_find? ht)⟩

end Attach

/-! ### Statements -/

section

variable {P : String → Prop} {ctx : AttachContext} {function : Option String}

/-- What marks make of a suite. -/
def IsDressed (P : String → Prop) (body body' : List Stmt) : Prop :=
  Stmt.EveryAll (Stmt.Written P) body' ∧ (body' = [] ↔ body = [])

theorem attachHandlers_keeps {handlers : List Handler} (h : ∀ c ∈ handlers, c.Within P ∧ c.body ≠ [] ∧
      ∀ function, Keeps P ctx (Stmt.attachAll ctx function c.body) (IsDressed P c.body)) :
    Keeps P ctx (Handler.attachAll ctx function handlers) fun handlers' =>
      (handlers' = [] ↔ handlers = []) ∧
        ∀ c ∈ handlers', c.Within P ∧ c.body ≠ [] ∧ Stmt.EveryAll (Stmt.Written P) c.body := by
  induction handlers with
  | nil => exact .pure (by simp)
  | cons c handlers ih =>
    obtain ⟨⟨hwithin, hfilled, hbody⟩, hrest⟩ := List.forall_mem_cons.1 h
    cases c
    refine .bind (hbody function) fun body hbody => .bind (ih hrest) fun rest hrest => .pure ?_
    exact ⟨by simp, List.forall_mem_cons.2 ⟨⟨hwithin, mt hbody.2.1 hfilled, hbody.1⟩, hrest.2⟩⟩

theorem attachCases_keeps {cases : List MatchCase} (h : ∀ c ∈ cases, c.Within P ∧ c.body ≠ [] ∧
      ∀ function, Keeps P ctx (Stmt.attachAll ctx function c.body) (IsDressed P c.body)) :
    Keeps P ctx (MatchCase.attachAll ctx function cases) fun cases' =>
      (cases' = [] ↔ cases = []) ∧
        ∀ c ∈ cases', c.Within P ∧ c.body ≠ [] ∧ Stmt.EveryAll (Stmt.Written P) c.body := by
  induction cases with
  | nil => exact .pure (by simp)
  | cons c cases ih =>
    obtain ⟨⟨hwithin, hfilled, hbody⟩, hrest⟩ := List.forall_mem_cons.1 h
    cases c
    refine .bind (hbody function) fun body hbody => .bind (ih hrest) fun rest hrest => .pure ?_
    exact ⟨by simp, List.forall_mem_cons.2 ⟨⟨hwithin, mt hbody.2.1 hfilled, hbody.1⟩, hrest.2⟩⟩

variable {loc : Loc} {mark : LoopMark} {target iter test subject : Expr} {body orElse final : List Stmt}

theorem attachFor_keeps {isAsync : Bool} (hs : (Stmt.for_ loc isAsync mark target iter body orElse).Formed P)
    (hbody : Keeps P ctx (Stmt.attachAll ctx function body) (IsDressed P body))
    (helse : Keeps P ctx (Stmt.attachAll ctx function orElse) (IsDressed P orElse)) :
    Keeps P ctx ((Stmt.for_ loc isAsync mark target iter body orElse).attach ctx function)
      (Stmt.Every (Stmt.Written P)) := by
  obtain ⟨-, hfilled, hwithin⟩ := hs
  have hplain (isAsync : Bool) {label : Option String} (hlabel : ∀ l ∈ label, P l) {body' orElse' : List Stmt}
      (hbody : IsDressed P body body') (helse : IsDressed P orElse orElse') :
      (Stmt.for_ { loc with function } isAsync { mark with label } target iter body' orElse').Every
        (Stmt.Written P) :=
    ⟨⟨trivial, mt hbody.2.1 hfilled, hlabel, hwithin.2⟩, hbody.1, helse.1⟩
  cases isAsync with
  | true =>
    exact .bind hbody fun _ hbody => .bind helse fun _ helse => .pure (hplain true hwithin.1 hbody helse)
  | false =>
    refine .bind (takeHeader_keeps _) fun header hheader => .bind (takeLabel_keeps _) fun label hlabel =>
      .bind hbody fun body' hbody => .bind helse fun orElse' helse => ?_
    cases header with
    | none =>
      refine .pure (hplain false (fun x hx => ?_) hbody helse)
      obtain ⟨l, hl, rfl⟩ := Option.map_eq_some_iff.1 hx
      exact hlabel l hl
    | some header =>
      obtain ⟨hdistinct, hlabel, hescapes, hresult⟩ := hheader header rfl
      refine .bind (.refuseElse _ _) fun _ _ => ?_
      split
      · exact .bind .throw fun _ h => h
      · next hcall =>
        refine .pure ⟨⟨⟨hdistinct, ?_⟩, mt hbody.2.1 hfilled, hlabel, hescapes, hresult, hwithin.2⟩, hbody.1⟩
        simpa [Option.isSome_iff_ne_none] using hcall

theorem attachIf_keeps (hs : (Stmt.if_ loc test body orElse).Formed P)
    (hbody : Keeps P ctx (Stmt.attachAll ctx function body) (IsDressed P body))
    (helse : Keeps P ctx (Stmt.attachAll ctx function orElse) (IsDressed P orElse)) :
    Keeps P ctx ((Stmt.if_ loc test body orElse).attach ctx function) (Stmt.Every (Stmt.Written P)) := by
  obtain ⟨-, hfilled, hwithin⟩ := hs
  refine .bind (takeBlock_keeps _) fun header hheader => .bind hbody fun body' hbody =>
    .bind helse fun orElse' helse => ?_
  cases header with
  | none => exact .pure ⟨⟨trivial, mt hbody.2.1 hfilled, hwithin⟩, hbody.1, helse.1⟩
  | some header =>
    refine .bind (.refuseElse _ _) fun _ _ => .pure ?_
    exact ⟨⟨trivial, mt hbody.2.1 hfilled, hheader header rfl⟩, hbody.1⟩

theorem attachBreak_keeps (label : Option String) (value : Option Expr) :
    Keeps P ctx ((Stmt.break_ loc label value).attach ctx function) (Stmt.Every (Stmt.Written P)) := by
  refine .bind (takeJump_keeps _) fun tail htail => ?_
  cases tail with
  | none => exact .pure ⟨trivial, trivial, by simp [Stmt.Within]⟩
  | some tail =>
    obtain ⟨hlabel, hvalue⟩ := htail tail rfl
    exact .bind (.lift _) fun v hv => .pure ⟨trivial, trivial, hlabel, hvalue v hv⟩

theorem attachContinue_keeps (label : Option String) :
    Keeps P ctx ((Stmt.continue_ loc label).attach ctx function) (Stmt.Every (Stmt.Written P)) := by
  refine .bind (takeJump_keeps _) fun tail htail => ?_
  cases tail with
  | none => exact .pure ⟨trivial, trivial, by simp [Stmt.Within]⟩
  | some tail => exact .pure ⟨trivial, trivial, (htail tail rfl).1⟩

theorem attachTry_keeps {isStar : Bool} {handlers : List Handler}
    (hs : (Stmt.try_ loc isStar body handlers orElse final).Formed P)
    (hbodies : ∀ b ∈ (Stmt.try_ loc isStar body handlers orElse final).bodies, ∀ function,
      Keeps P ctx (Stmt.attachAll ctx function b) (IsDressed P b)) :
    Keeps P ctx ((Stmt.try_ loc isStar body handlers orElse final).attach ctx function)
      (Stmt.Every (Stmt.Written P)) := by
  obtain ⟨-, ⟨hfilled, hparts, hhandlers⟩, hwithin⟩ := hs
  simp only [Stmt.bodies, List.forall_mem_cons, List.forall_mem_append, List.forall_mem_map] at hbodies
  obtain ⟨⟨hbody, hall⟩, helse, hfinal, -⟩ := hbodies
  refine .bind (hbody _) fun body' hbody => .bind (attachHandlers_keeps fun c hc =>
      ⟨hwithin c hc, hhandlers c hc, hall c hc⟩) fun handlers' hhandlers' =>
    .bind (helse _) fun orElse' helse => .bind (hfinal _) fun final' hfinal => .pure ?_
  refine Stmt.every_iff.2 ⟨⟨trivial, ⟨mt hbody.2.1 hfilled, ?_, ?_⟩, ?_⟩, ?_⟩
  · exact hparts.imp (mt hhandlers'.1.1) (mt hfinal.2.1)
  · exact fun c hc => (hhandlers'.2 c hc).2.1
  · exact fun c hc => (hhandlers'.2 c hc).1
  · simp only [Stmt.bodies, List.forall_mem_cons, List.forall_mem_append, List.forall_mem_map]
    exact ⟨⟨hbody.1, fun c hc => (hhandlers'.2 c hc).2.2⟩, helse.1, hfinal.1, by simp⟩

theorem attachMatch_keeps {cases : List MatchCase} (hs : (Stmt.match_ loc subject cases).Formed P)
    (hbodies : ∀ b ∈ (Stmt.match_ loc subject cases).bodies, ∀ function,
      Keeps P ctx (Stmt.attachAll ctx function b) (IsDressed P b)) :
    Keeps P ctx ((Stmt.match_ loc subject cases).attach ctx function) (Stmt.Every (Stmt.Written P)) := by
  obtain ⟨-, ⟨hsome, hfilled⟩, hsubject, hwithin⟩ := hs
  refine .bind (attachCases_keeps fun c hc => ⟨hwithin c hc, hfilled c hc, hbodies _ (List.mem_map_of_mem hc)⟩)
    fun cases' hcases => .pure (Stmt.every_iff.2 ⟨⟨trivial, ⟨mt hcases.1.1 hsome, ?_⟩, hsubject, ?_⟩, ?_⟩)
  · exact fun c hc => (hcases.2 c hc).2.1
  · exact fun c hc => (hcases.2 c hc).1
  · exact List.forall_mem_map.2 fun c hc => (hcases.2 c hc).2.2

theorem attach_keeps {s : Stmt} (hs : s.Formed P)
    (hbodies : ∀ b ∈ s.bodies, ∀ function, Keeps P ctx (Stmt.attachAll ctx function b) (IsDressed P b)) :
    Keeps P ctx (s.attach ctx function) (Stmt.Every (Stmt.Written P)) := by
  cases s with
  | callbackLoop | block | supportImport => exact hs.1.elim
  | function | class_ | with_ =>
    refine .bind (hbodies _ (.head _) _) fun _ hbody => .pure ?_
    exact ⟨⟨trivial, mt hbody.2.1 hs.2.1, hs.2.2⟩, hbody.1⟩
  | for_ => exact attachFor_keeps hs (hbodies _ (.head _) _) (hbodies _ (.tail _ (.head _)) _)
  | if_ => exact attachIf_keeps hs (hbodies _ (.head _) _) (hbodies _ (.tail _ (.head _)) _)
  | while_ =>
    refine .bind (takeLabel_keeps _) fun label hlabel => .bind (hbodies _ (.head _) _) fun _ hbody =>
      .bind (hbodies _ (.tail _ (.head _)) _) fun _ helse => .pure ?_
    exact ⟨⟨trivial, mt hbody.2.1 hs.2.1, by simpa using hlabel, hs.2.2.2⟩, hbody.1, helse.1⟩
  | match_ => exact attachMatch_keeps hs hbodies
  | try_ => exact attachTry_keeps hs hbodies
  | break_ => exact attachBreak_keeps _ _
  | continue_ => exact attachContinue_keeps _
  | _ => exact .pure ⟨trivial, hs.2⟩

theorem attachAll_keeps (body : List Stmt) : ∀ function, Stmt.EveryAll (Stmt.Formed P) body →
    Keeps P ctx (Stmt.attachAll ctx function body) (IsDressed P body) := by
  induction body using Stmt.bodies_induction with
  | h body ih =>
    induction body with
    | nil => exact fun _ _ => .pure ⟨trivial, Iff.rfl⟩
    | cons s rest ihrest =>
      intro function h
      obtain ⟨hs, hbodies⟩ := Stmt.every_iff.1 h.1
      refine .bind (attach_keeps hs fun b hb function => ih s (.head _) b hb function (hbodies b hb))
        fun s' hs' => .bind (ihrest (fun t ht => ih t (.tail _ ht)) function h.2) fun rest' hrest => .pure ?_
      exact ⟨⟨hs', hrest.1⟩, by simp⟩

end

/-! ### Parsed sources -/

theorem Stripper.Kept.distinct {s : Stripper} {parts : List Part} (h : s.Kept parts) :
    ∀ e ∈ s.marks.headers, DistinctClause e.2.escapes := by
  intro e he
  obtain ⟨p, hp, t, hm⟩ := mem_entries (h.headers ▸ he)
  have hfits := h.fits p hp
  cases p with
  | callback label word keyword header escapes result =>
    obtain ⟨-, -, -, -, hescapes, -⟩ := hfits
    obtain ⟨-, heq⟩ := Prod.mk.inj (Option.some.inj hm)
    rw [← heq]
    cases escapes with
    | none => exact List.nodup_nil
    | some c => exact (hescapes c rfl).2.2
  | _ => cases hm

theorem strip_distinct {source : String} (h : strip source = .ok stripped) :
    ∀ e ∈ stripped.marks.headers, DistinctClause e.2.escapes := by
  obtain ⟨stream, s, code, hscan, hrun, -, -, -, hmarks⟩ := strip_stages h
  obtain ⟨parts, hkept, -⟩ := Stripper.run_parts hscan hrun
  exact hmarks ▸ hkept.distinct

variable {T : Token → Prop} {P : String → Prop} [Vocabulary T P] {strict : Bool}

theorem parseValue_within {shifts : Shifts} {tokens : List Token} {value : Option Expr}
    (h : parseValue strict shifts tokens = .ok value)
    (htokens : ∀ code, layout tokens = .ok code → ∀ t ∈ (lex (valueStart ++ code)).tokens, T t) :
    ∀ v ∈ value, v.Within P := by
  unfold parseValue at h
  split at h
  · cases h
    simp
  · dsimp only at h
    split at h
    · cases h
    · next code hcode =>
      split at h
      · next hparse =>
        cases h
        have hformed := (parsePlain_formed hparse (htokens code hcode)).1.2.2
        rintro _ ⟨⟩
        exact hformed.2
      · cases h

theorem parseSource_written (h : parseSource strict source = .ok module)
    (hstripped : ∀ stripped, strip source.text = .ok stripped →
      (∀ t ∈ (lex stripped.code).tokens, T t) ∧ stripped.marks.Written P ⟨stripped.shifts, strict⟩) :
    Stmt.EveryAll (Stmt.Written P) module.body := by
  obtain ⟨stripped, plain, left, hstrip, hplain, hattach⟩ := parseSource_stages h
  obtain ⟨htokens, hmarks⟩ := hstripped stripped hstrip
  exact (attachAll_keeps plain none (parsePlain_formed hplain htokens) _ _ _ hmarks hattach).2.1

theorem parseSource_formed (h : parseSource strict source = .ok module) :
    Stmt.EveryAll (Stmt.Written fun _ => True) module.body := by
  have hany := Vocabulary.any
  refine parseSource_written h fun stripped hstrip => ⟨fun _ _ => trivial, fun _ _ => trivial, ?_, ?_, ?_⟩
  · exact fun e he => ⟨strip_distinct hstrip e he, by simp, by simp, by simp⟩
  · exact fun e he => ⟨trivial, fun _ _ => trivial⟩
  · exact fun e he => ⟨fun _ _ => trivial, fun _ hvalue => parseValue_within hvalue fun _ _ _ _ => trivial⟩

theorem parseSource_parsed (h : parseSource strict source = .ok module) :
    Stmt.EveryAll Stmt.Parsed module.body :=
  everyAll_mono (fun _ hs => hs.1) (parseSource_formed h)

theorem parseSource_filled (h : parseSource strict source = .ok module) :
    Stmt.EveryAll Stmt.Filled module.body :=
  everyAll_mono (fun _ hs => hs.2.1) (parseSource_formed h)

end LoopEscape
