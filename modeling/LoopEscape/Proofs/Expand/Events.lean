import LoopEscape.Proofs.Expand.Grounded
import LoopEscape.Proofs.Generate.Names
import LoopEscape.Proofs.Generate.Pieces
import LoopEscape.Proofs.Scope.Events
import Mathlib.Tactic.Tauto

/-!
# What expansion does to the names of a block

Generated code uses and binds reserved names, and beside them only names of the loop that it is made for.
So expansion is tame in every block: the events are those of the block as it was written, up to reserved
names, and a name that was not touched before its declaration is not touched there afterwards.
-/

namespace LoopEscape

open Generate

/-! ### Reserved names -/

def Touch.Reserved (t : Touch) : Prop := isReserved t.name = true

def NameEvent.Internal (e : NameEvent) : Prop := ∃ t : Touch, e = .touch t ∧ t.Reserved

def Expr.Internal (e : Expr) : Prop := ∀ t ∈ e.touches false, isReserved t.name = true

def Within (texts : Bool) (events : List NameEvent) (body : List Stmt) : Prop :=
  ∀ e ∈ Stmt.eventsAll texts body, e ∈ events ∨ e.Internal

variable {texts : Bool}

theorem internal_of_touched {ts : List Touch} (h : ∀ t ∈ ts, isReserved t.name = true) :
    ∀ e ∈ touched ts, e.Internal := by
  intro e he
  obtain ⟨t, ht, rfl⟩ := List.mem_map.1 he
  exact ⟨t, rfl, h t ht⟩

/-! ### Pieces of generated code -/

attribute [local simp] Expr.touches Expr.touchesAll Keyword.touches Stmt.events Stmt.eventsAll

theorem touchesAll_append (inside : Bool) (a b : List Expr) :
    Expr.touchesAll inside (a ++ b) = Expr.touchesAll inside a ++ Expr.touchesAll inside b := by
  induction a with
  | nil => rfl
  | cons e rest ih =>
    rw [List.cons_append, Expr.touchesAll, Expr.touchesAll, ih, List.append_assoc]

section

variable (s : Span)

@[simp] theorem touches_load (x : String) : (load s x).touches false = [.use x] := rfl

@[simp] theorem touches_store (x : String) : (store s x).touches false = [.bind x] := rfl

@[simp] theorem touches_attr (e : Expr) (field : String) :
    (attr s e field).touches false = e.touches false := by
  rw [attr, Expr.touches]

@[simp] theorem touches_support (field : String) : (support s field).touches false = [.use supportName] :=
  rfl

@[simp] theorem touches_call (func : Expr) (args : List Expr) :
    (call s func args).touches false = func.touches false ++ Expr.touchesAll false args := by
  rw [call, Expr.touches, Keyword.touches, List.append_nil]

@[simp] theorem touches_nothing : (nothing s).touches false = [] := rfl

@[simp] theorem touches_text (t : String) : (text s t).touches false = [] := rfl

end

theorem events_assign (loc : Loc) (x : String) (value : Expr) :
    (assign loc x value).events texts = touched (.bind x :: value.touches false) := by
  rw [assign, Stmt.events, Expr.touchesAll, touches_store, Expr.touchesAll]
  rfl

section

variable {id : Nat} {h : LoopHeader} {loc : Loc} {s : Span}

theorem internal_reason : (reason (.of id h) s).Internal := by
  simp [Expr.Internal, reason, outcome, Touch.use, Taxonomy.of]

theorem internal_payload : (payload (.of id h) s).Internal := by
  simpa [Expr.Internal, payload] using internal_reason

theorem internal_isInstance {value : Expr} (hv : value.Internal) (kind : String) :
    (isInstance s value kind).Internal := by
  intro t ht
  simp only [isInstance, touches_call, touches_support, Expr.touchesAll, List.mem_append,
    List.mem_singleton, List.append_nil] at ht
  rcases ht with rfl | ht | rfl
  · exact isReserved_supportName
  · exact hv t ht
  · exact isReserved_supportName

theorem internal_outcome : (outcome (.of id h) s).Internal := by
  simp [Expr.Internal, outcome, Touch.use, Taxonomy.of]

theorem internal_isBreakTo {label : String} : (isBreakTo (.of id h) s label).Internal := by
  intro t ht
  simp only [isBreakTo, Expr.touches, Expr.touchesAll, Expr.comparedTouches, touches_attr, touches_text,
    List.append_nil, List.mem_append] at ht
  rcases ht with ht | ht
  · exact internal_isInstance internal_reason _ t ht
  · exact internal_reason t ht

theorem internal_isContinueTo {label : String} : (isContinueTo (.of id h) s label).Internal := by
  intro t ht
  simp only [isContinueTo, Expr.touches, Expr.comparedTouches, Expr.touchesAll, touches_call,
    touches_support, touches_text, List.append_nil, List.mem_append, List.mem_singleton] at ht
  rcases ht with ht | rfl
  · exact internal_reason t ht
  · exact isReserved_supportName

theorem internal_protocolError : ∀ e ∈ (protocolError (.of id h) loc).events texts, e.Internal := by
  simp [protocolError, Stmt.events, Expr.optionTouches, Expr.touchesAll, touched, outcome, NameEvent.Internal,
    Touch.Reserved, Touch.use, Taxonomy.of]

theorem internal_branches {header : CallbackHeader} {inFunction : Bool} {b : Expr × List Stmt}
    (hb : b ∈ branches (.of id h) loc header inFunction) : b.1.Internal := by
  simp only [branches, List.mem_append, List.mem_cons, List.not_mem_nil, or_false, List.mem_map] at hb
  rcases hb with (((((rfl | rfl) | hb) | rfl) | ⟨e, -, rfl⟩) | ⟨e, -, rfl⟩)
  · exact internal_isInstance internal_outcome _
  · exact internal_isInstance internal_outcome _
  · split at hb
    · rw [List.mem_singleton.1 hb]
      exact internal_isInstance internal_reason _
    · cases hb
  · exact internal_isInstance internal_reason _
  · exact internal_isBreakTo
  · exact internal_isContinueTo

theorem within_setResult {result : Option String} {value : Expr} (hv : value.Internal) :
    Within texts (touched (result.toList.map .bind)) [setResult loc result value] := by
  intro e he
  rw [Stmt.eventsAll, Stmt.eventsAll, List.append_nil] at he
  cases result with
  | none => cases he
  | some x =>
    rw [setResult, events_assign] at he
    rcases List.mem_cons.1 he with rfl | he
    · exact .inl (List.mem_singleton.2 rfl)
    · exact .inr (internal_of_touched hv e he)

theorem within_reaction {header : CallbackHeader} {s : Stmt} (hs : Reaction (.of id h) loc header s) :
    Within texts (touched (header.result.toList.map .bind)) [s] := by
  cases hs with
  | result => exact within_setResult internal_reason
  | broken => exact within_setResult internal_payload
  | wrong =>
    intro e he
    rw [Stmt.eventsAll, Stmt.eventsAll, List.append_nil] at he
    exact .inr (internal_protocolError e he)
  | returned =>
    intro e he
    rw [Stmt.eventsAll, Stmt.eventsAll, List.append_nil, Stmt.events, Expr.optionTouches] at he
    exact .inr (internal_of_touched internal_payload e he)
  | breakTo _ =>
    intro e he
    rw [Stmt.eventsAll, Stmt.eventsAll, List.append_nil, breakTo, Stmt.events] at he
    split at he
    · rw [Expr.optionTouches] at he
      exact .inr (internal_of_touched internal_payload e he)
    · cases he
  | continueTo _ _ => exact fun e he => nomatch he

end

theorem within_ifChain {events : List NameEvent} {loc : Loc} {orElse : List Stmt}
    {branches : List (Expr × List Stmt)} (ho : Within texts events orElse)
    (hb : ∀ b ∈ branches, b.1.Internal ∧ Within texts events b.2) :
    Within texts events (ifChain loc orElse branches) := by
  induction branches with
  | nil => exact ho
  | cons b rest ih =>
    obtain ⟨test, body⟩ := b
    obtain ⟨htest, hbody⟩ := hb _ List.mem_cons_self
    intro e he
    rw [ifChain, Stmt.eventsAll, Stmt.eventsAll, List.append_nil, Stmt.events, List.mem_append,
      List.mem_append] at he
    rcases he with (he | he) | he
    · exact .inr (internal_of_touched htest e he)
    · exact hbody e he
    · exact ih (fun b h => hb b (List.mem_cons_of_mem _ h)) e he

theorem touches_callWith {iter extra : Expr} {form : CallForm} {s : Span}
    (h : CallForm.of? iter = some form) :
    ∀ t ∈ (callWith s extra form).touches false, t ∈ iter.touches false ∨ t ∈ extra.touches false := by
  unfold CallForm.of? at h
  split at h
  · split at h <;> cases h <;> intro t ht <;>
      simp only [callWith, Expr.touches, touches_attr, touchesAll_append, Expr.touchesAll, List.append_nil,
        List.mem_append] at ht ⊢ <;>
      tauto
  · cases h

theorem internal_relay {id : Nat} {h : LoopHeader} {s : Span} {debug : Bool} :
    (relay (.of id h) s debug).Internal := by
  cases debug <;>
    simp [Expr.Internal, relay, Expr.touches, Expr.touchesAll, Keyword.touches, Touch.use, Taxonomy.of]

theorem within_dispatch {id : Nat} {h : LoopHeader} {loc : Loc} {header : CallbackHeader} {iter : Expr}
    {inFunction debug : Bool} :
    Within texts (touched (iter.touches false) ++ touched (header.result.toList.map .bind))
      (dispatch (.of id h) loc header iter inFunction debug) := by
  intro e he
  rw [dispatch, Stmt.eventsAll, events_assign, List.mem_append] at he
  rcases he with he | he
  · rcases List.mem_cons.1 he with rfl | he
    · exact .inr ⟨_, rfl, LoopNames.isReserved_result id⟩
    · obtain ⟨t, ht, rfl⟩ := List.mem_map.1 he
      cases hform : CallForm.of? iter with
      | none =>
        rw [hform] at ht
        exact .inl (List.mem_append_left _ (List.mem_map_of_mem ht))
      | some form =>
        rw [hform] at ht
        rcases touches_callWith hform t ht with ht | ht
        · exact .inl (List.mem_append_left _ (List.mem_map_of_mem ht))
        · exact .inr ⟨t, rfl, internal_relay t ht⟩
  · have hchain : Within texts (touched (header.result.toList.map .bind)) (ifChain loc
        [protocolError (.of id h) loc] (branches (.of id h) loc header inFunction)) := by
      refine within_ifChain (within_reaction .wrong) fun b hb => ⟨internal_branches hb, ?_⟩
      obtain ⟨s, hs, hreaction⟩ := mem_branches hb
      rw [hs]
      exact within_reaction hreaction
    exact (hchain e he).imp_left (List.mem_append_right _)

/-! ### Layers -/

theorem within_nil {events : List NameEvent} : Within texts events [] := fun _ he => nomatch he

theorem within_cons {events : List NameEvent} {s : Stmt} {body : List Stmt}
    (hs : ∀ e ∈ s.events texts, e ∈ events ∨ e.Internal) (h : Within texts events body) :
    Within texts events (s :: body) := by
  intro e he
  rw [Stmt.eventsAll, List.mem_append] at he
  exact he.elim (hs e) (h e)

section

variable {events : List NameEvent} {id : Nat} {h : LoopHeader} {loc : Loc} {body : List Stmt}

theorem internal_nothing {s : Span} : (nothing s).Internal := fun _ ht => nomatch ht

theorem internal_assign {x : String} {value : Expr} (hx : isReserved x = true) (hv : value.Internal) :
    ∀ e ∈ (assign loc x value).events texts, e.Internal := by
  intro e he
  rw [events_assign] at he
  rcases List.mem_cons.1 he with rfl | he
  · exact ⟨_, rfl, hx⟩
  · exact internal_of_touched hv e he

theorem internal_abort {flow : Expr} (hf : flow.Internal) :
    ∀ e ∈ (abort (.of id h) loc flow).events texts, e.Internal := by
  refine internal_of_touched fun t ht => ?_
  simp only [Expr.touches, Expr.optionTouches, touches_call, touches_attr, touches_load, Expr.touchesAll,
    List.append_nil, List.mem_append, List.mem_singleton] at ht
  rcases ht with rfl | ht
  · exact LoopNames.isReserved_slot id
  · exact hf t ht

theorem internal_breakFlow {s : Span} {reason : String} {args : List Expr}
    (ha : ∀ t ∈ Expr.touchesAll false args, isReserved t.name = true) :
    (breakFlow s reason args).Internal := by
  intro t ht
  simp only [breakFlow, touches_call, touches_support, Expr.touchesAll, List.append_nil, List.mem_append,
    List.mem_singleton] at ht
  rcases ht with rfl | rfl | ht
  · exact isReserved_supportName
  · exact isReserved_supportName
  · exact ha t ht

theorem events_onceLoop {label : Option String} {target : String} {orElse : List Stmt} :
    ∀ e ∈ (onceLoop (.of id h) loc label target body orElse).events texts,
      e ∈ Stmt.eventsAll texts body ∨ e ∈ Stmt.eventsAll texts orElse ∨ e = .touch (.bind target) ∨
        e.Internal := by
  intro e he
  rw [onceLoop, Stmt.events, List.mem_append, List.mem_append] at he
  rcases he with (he | he) | he
  · simp only [touched, Option.toList_some, List.map_cons, List.map_nil, touches_store, touches_support,
      List.cons_append, List.nil_append, List.mem_cons, List.not_mem_nil, or_false] at he
    rcases he with rfl | rfl | rfl
    · exact .inr (.inr (.inl rfl))
    · exact .inr (.inr (.inr ⟨_, rfl, LoopNames.isReserved_once id⟩))
    · exact .inr (.inr (.inr ⟨_, rfl, isReserved_supportName⟩))
  · exact .inl he
  · exact .inr (.inl he)

theorem within_onceLoop {label : Option String} {target : String} {flow : Expr}
    (ht : isReserved target = true) (hf : flow.Internal) (hb : Within texts events body) :
    ∀ e ∈ (onceLoop (.of id h) loc label target body [abort (.of id h) loc flow]).events texts,
      e ∈ events ∨ e.Internal := by
  intro e he
  rcases events_onceLoop e he with he | he | rfl | he
  · exact hb e he
  · rw [Stmt.eventsAll, Stmt.eventsAll, List.append_nil] at he
    exact .inr (internal_abort hf e he)
  · exact .inr ⟨_, rfl, ht⟩
  · exact .inr he

theorem within_withValue (hb : Within texts events body) :
    Within texts events (withValue (.of id h) body) := by
  fun_induction withValue (.of id h) body with
  | case1 => exact hb
  | case2 loc e =>
    refine within_cons (fun a ha => ?_) within_nil
    rw [events_assign] at ha
    rcases List.mem_cons.1 ha with rfl | ha
    · exact .inr ⟨_, rfl, LoopNames.isReserved_value id⟩
    · exact hb a (List.mem_append_left _ ha)
  | case3 s rest _ ih =>
    exact within_cons (fun e he => hb e (List.mem_append_left _ he))
      (ih fun e he => hb e (List.mem_append_right _ he))

theorem within_ownLayer {label : Option String} (hb : Within texts events body) :
    Within texts events (ownLayer (.of id h) loc label body) := by
  refine within_cons (fun e he => .inr (internal_assign (LoopNames.isReserved_brk id) internal_nothing e he)) ?_
  refine within_cons (within_onceLoop (LoopNames.isReserved_brk id) ?_ (within_withValue hb)) ?_
  · simp [Expr.Internal, continueFlow, Expr.touchesAll, Touch.use, Taxonomy.of]
  · refine within_cons (fun e he => .inr (internal_abort (internal_breakFlow ?_) e he)) within_nil
    simp [Expr.touchesAll, Touch.use, Taxonomy.of]

theorem within_escapeLayer {e : EscapeLabel} (hb : Within texts events body) :
    Within texts events (escapeLayer (.of id h) loc body e) := by
  have hvar : isReserved ((Taxonomy.of id h).breakVar e.label) = true := isReserved_breakVariable id _
  have hbreak : ∀ a ∈ (abort (.of id h) loc (breakFlow loc.span "BreakTo"
      [text loc.span e.label, load loc.span ((Taxonomy.of id h).breakVar e.label)])).events texts,
      a.Internal := by
    refine internal_abort (internal_breakFlow ?_)
    simp [Expr.touchesAll, Touch.use, hvar]
  have hlast : Within texts events [_] := within_cons (fun a ha => .inr (hbreak a ha)) within_nil
  rw [escapeLayer]
  split
  · refine within_cons (fun a ha => .inr (internal_assign hvar internal_nothing a ha)) ?_
    refine within_cons (within_onceLoop hvar (internal_breakFlow ?_) hb) hlast
    simp [Expr.touchesAll]
  · refine within_cons (fun a ha => ?_) hlast
    rw [Stmt.events, List.mem_append] at ha
    rcases ha with ha | ha
    · rw [List.mem_singleton.1 ha]
      exact .inr ⟨_, rfl, hvar⟩
    · exact hb a ha

theorem within_layers {label : Option String} (hb : Within texts events body) :
    Within texts events (layers (.of id h) loc label body) := by
  have hfold : ∀ (es : List EscapeLabel) (inner : List Stmt), Within texts events inner →
      Within texts events (es.foldl (escapeLayer (.of id h) loc) inner) := by
    intro es
    induction es with
    | nil => exact fun _ hi => hi
    | cons e es ih => exact fun inner hi => ih _ (within_escapeLayer hi)
  exact hfold _ _ (within_ownLayer hb)

end

/-! ### Expanded blocks -/

theorem MadeTask.events_function (m : MadeTask) :
    m.function.events texts = [.touch (.bind m.taxonomy.names.task)] := by
  cases texts <;> rfl

theorem tame_refill {R : Touch → Prop} {s : Stmt} {bs : List (List Stmt)}
    {fill : Loc → List Stmt → List Stmt} (hs : s.isInner = true)
    (hfill : ∀ loc b, Stmt.eventsAll texts (fill loc b) = Stmt.eventsAll texts b)
    (h : List.Forall₂ (fun b b' => Tame R (Stmt.eventsAll texts b) (Stmt.eventsAll texts b')) s.bodies bs) :
    Tame R (s.events texts) ((s.refill fill bs).events texts) := by
  have hhandlers (handlers : List Handler) (bs : List (List Stmt))
      (h : List.Forall₂ (fun b b' => Tame R (Stmt.eventsAll texts b) (Stmt.eventsAll texts b'))
        (handlers.map Handler.body) bs) :
      Tame R (Handler.eventsAll texts handlers) (Handler.eventsAll texts
        (handlers.zipWith (fun h b => h.mapBody fun loc _ => fill loc b) bs)) := by
    induction handlers generalizing bs with
    | nil => exact .refl _
    | cons h₀ handlers ih =>
      obtain ⟨b, bs, hb, hbs, rfl⟩ := List.forall₂_cons_left_iff.1 h
      cases h₀
      rw [List.zipWith_cons_cons, Handler.mapBody, Handler.eventsAll, Handler.eventsAll, hfill]
      exact ((Tame.refl _).append hb).append (ih bs hbs)
  have hcases (loc : Loc) (cases : List MatchCase) (bs : List (List Stmt))
      (h : List.Forall₂ (fun b b' => Tame R (Stmt.eventsAll texts b) (Stmt.eventsAll texts b'))
        (cases.map MatchCase.body) bs) :
      Tame R (MatchCase.eventsAll texts cases) (MatchCase.eventsAll texts
        (cases.zipWith (fun c b => c.mapBody fun _ => fill loc b) bs)) := by
    induction cases generalizing bs with
    | nil => exact .refl _
    | cons c cases ih =>
      obtain ⟨b, bs, hb, hbs, rfl⟩ := List.forall₂_cons_left_iff.1 h
      cases c
      rw [List.zipWith_cons_cons, MatchCase.mapBody, MatchCase.eventsAll, MatchCase.eventsAll, hfill]
      exact ((Tame.refl _).append hb).append (ih bs hbs)
  cases s with
  | function | class_ | callbackLoop | global | nonlocal => cases hs
  | for_ | while_ | if_ =>
    obtain ⟨b, _, hb, hrest, rfl⟩ := List.forall₂_cons_left_iff.1 h
    obtain ⟨o, _, ho, hnil, rfl⟩ := List.forall₂_cons_left_iff.1 hrest
    rw [List.forall₂_nil_left_iff.1 hnil, Stmt.refill, Stmt.events, Stmt.events, hfill]
    exact ((Tame.refl _).append hb).append ho
  | with_ | block =>
    obtain ⟨b, _, hb, hnil, rfl⟩ := List.forall₂_cons_left_iff.1 h
    rw [List.forall₂_nil_left_iff.1 hnil, Stmt.refill, Stmt.events, Stmt.events, hfill]
    exact (Tame.refl _).append hb
  | match_ =>
    rw [Stmt.refill, Stmt.events, Stmt.events]
    exact (Tame.refl _).append (hcases _ _ _ h)
  | try_ =>
    obtain ⟨b, hs, o, f, rfl, hb, hhs, ho, hf⟩ := Stmt.forall₂_try h
    rw [Stmt.refill_try (hhs.length_eq.symm.trans (List.length_map _)), Stmt.events, Stmt.events,
      hfill]
    exact ((hb.append ho).append (hhandlers _ _ hhs)).append hf
  | _ => exact .refl _

theorem tame_of_unfolds {p : UnfoldPlace} {body code : List Stmt} {wanted : List String}
    {tasks : List MadeTask} (h : Stmt.UnfoldAllTo p body code wanted tasks) :
    Tame Touch.Reserved (Stmt.eventsAll texts body) (Stmt.eventsAll texts code) := by
  have hone (s : Stmt) : Stmt.eventsAll texts [s] = s.events texts := by
    rw [Stmt.eventsAll, Stmt.eventsAll, List.append_nil]
  refine h.induction (motive := fun _ body code _ _ =>
    Tame Touch.Reserved (Stmt.eventsAll texts body) (Stmt.eventsAll texts code)) ?nil ?append ?loop ?function
    ?class_ ?declaration ?inner
  case nil => exact fun _ => .refl _
  case append =>
    intro p s code body code' _ _ _ _ hs hbody
    rw [eventsAll_append, Stmt.eventsAll, ← hone]
    exact hs.append hbody
  case loop =>
    intro p loc header target iter body id body' wanted _ _ m _ _
    have hcode : Within texts (touched (iter.touches false) ++ touched (header.result.toList.map .bind))
        (m.function :: dispatch m.taxonomy loc header iter (!p.ctx.scope.isModule) p.ctx.debug) := by
      refine within_cons (fun e he => ?_) within_dispatch
      rw [MadeTask.events_function] at he
      rw [List.mem_singleton.1 he]
      exact .inr ⟨_, rfl, LoopNames.isReserved_task id⟩
    refine .of_within (fun e he => (hcode e he).imp_left ?_) fun g x hx => ?_
    · simp only [hone, Stmt.events, touched, List.map_append, List.mem_append]
      tauto
    · rcases hcode _ hx with hx | ⟨t, ht, -⟩
      · exact (List.mem_append.1 hx).elim declare_not_mem_touched declare_not_mem_touched
      · cases ht
  case function =>
    intros
    rw [hone, hone]
    exact .refl _
  case class_ =>
    intros
    rw [hone, hone]
    exact .refl _
  case declaration =>
    intros
    split
    · exact .of_within nofun nofun
    · exact .refl _
  case inner =>
    intro p s us hs hus
    rw [hone, hone]
    exact tame_refill hs (eventsAll_orPass texts) (List.forall₂_map_right_iff.2 hus)

theorem MadeTask.Arises.within_work {m : MadeTask} (h : m.Arises) :
    Within texts (touched (m.target.touches false) ++ Stmt.eventsAll texts m.body) m.work := by
  obtain ⟨hclass, -, hbody⟩ := h
  refine within_cons (fun e he => ?_) (within_cons (fun e he => .inr ?_) (within_layers fun e he => ?_))
  · simp only [Stmt.events, Expr.touchesAll, List.append_nil, touches_load, touched, List.map_append,
      List.map_cons, List.map_nil, List.mem_append, List.mem_singleton] at he
    rcases he with he | rfl
    · exact .inl (List.mem_append_left _ he)
    · exact .inr ⟨_, rfl, LoopNames.isReserved_item _⟩
  · exact internal_assign (LoopNames.isReserved_value _) internal_nothing e he
  · rw [eventsAll_orPass] at he
    exact ((tame_of_unfolds hbody).within e he).imp_left (List.mem_append_right _)

theorem MadeTask.names_params (m : MadeTask) :
    m.params.names = [m.taxonomy.names.item, m.taxonomy.names.slot] := rfl

theorem MadeTask.Arises.isReserved_param {m : MadeTask} (h : m.Arises) {x : String}
    (hx : x ∈ m.params.names) : isReserved x = true := by
  rw [MadeTask.names_params] at hx
  obtain ⟨hclass, -, hbody⟩ := h
  simp only [List.mem_cons, List.not_mem_nil, or_false] at hx
  rcases hx with rfl | rfl
  · exact LoopNames.isReserved_item _
  · exact LoopNames.isReserved_slot _

end LoopEscape
