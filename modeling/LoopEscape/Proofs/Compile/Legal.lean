import LoopEscape.Proofs.Compile.Closed
import LoopEscape.Proofs.Expand.Events
import LoopEscape.Proofs.Lower.Events

/-!
# Generated code keeps to the rules on declarations

A task declares the names of its loop, and a function gets variables for names that the tasks in it bind.
Main statement: where the functions of a module keep to the rules on declarations, those of the generated
module do so too (`stages_legal`).  Three things have to be left out.  A name annotated in the body of a
loop is declared by the loop's task, what is imported from a module as a whole in a loop at module level
ends up in a function, and a variable that is put in front of a function is annotated with `object`, which
the function may declare later (`annotated_in_loop` is a module of the first kind).
-/

namespace LoopEscape

open Generate Declarations

variable {texts : Bool}

structure Lawful (texts : Bool) (params : Params) (body : List Stmt) : Prop where
  legal : LegalFunction texts params body
  unreserved : ∀ g x, .declare g x ∈ Stmt.eventsAll texts body → isReserved x ≠ true

/-! ### Tasks -/

namespace MadeTask.Arises

variable {m : MadeTask}

theorem lawful (h : m.Arises) (hnames : ∀ x ∈ loopBoundNames m.target m.body, isReserved x ≠ true)
    (hhint : ∀ x, .hint x ∉ Stmt.eventsAll texts m.body)
    (hstar : .importAll ∉ Stmt.eventsAll texts m.body) : Lawful texts m.params m.code := by
  have hevents : Stmt.eventsAll texts m.code = declares m.decls ++ Stmt.eventsAll texts m.work := by
    rw [h.code_eq, eventsAll_append, eventsAll_declarations]
  -- What happens behind the declarations is a touch, or happens in the loop.
  have hwork : ∀ e ∈ Stmt.eventsAll texts m.work, (∀ t, e ≠ .touch t) →
      e ∈ Stmt.eventsAll texts m.body := by
    intro e he hne
    rcases h.within_work e he with he | ⟨t, rfl, -⟩
    · refine (List.mem_append.1 he).resolve_left fun ht => ?_
      obtain ⟨t, -, rfl⟩ := List.mem_map.1 ht
      exact hne t rfl
    · exact absurd rfl (hne t)
  have hdeclare : ∀ g x, .declare g x ∈ Stmt.eventsAll texts m.code → m.decls.Has g x := fun g x hx => by
    rwa [declare_mem_eventsAll, h.declaredAll_code] at hx
  have hbound : ∀ g x, .declare g x ∈ Stmt.eventsAll texts m.code → isReserved x ≠ true := fun g x hx =>
    hnames x (h.bound_of_has (hdeclare g x hx))
  refine ⟨⟨fun g x hx hparam => ?_, fun x hx hx' => ?_, fun g x _ hx => ?_, ?_, fun hx => ?_⟩, hbound⟩
  · exact hbound g x hx (h.isReserved_param hparam)
  · exact h.apart (hdeclare true x hx) (hdeclare false x hx')
  · rw [hevents, List.mem_append, mem_declares] at hx
    rcases hx with ⟨_, _, hx, -⟩ | hx
    · cases hx
    · exact hhint x (hwork _ hx nofun)
  · rw [hevents, inOrder_declares_append]
    refine inOrder_of_no_declare fun g x hx => ?_
    rw [declare_mem_eventsAll, MadeTask.declaredAll_work, h.declaredAll_expanded] at hx
    exact not_has_empty hx
  · rw [hevents, List.mem_append, mem_declares] at hx
    rcases hx with ⟨_, _, hx, -⟩ | hx
    · cases hx
    · exact hstar (hwork _ hx nofun)

end MadeTask.Arises

/-! ### Functions -/

theorem apart_variables {events : List NameEvent} (loc : Loc) {wanted : List String}
    (hwanted : ∀ x ∈ wanted, ∀ g, .declare g x ∉ events)
    (hobject : texts = false → ∀ g, .declare g "object" ∉ events) :
    ∀ e ∈ Stmt.eventsAll texts (wanted.map (variable_ loc)), e.Apart events := by
  induction wanted with
  | nil => exact fun e he => nomatch he
  | cons x wanted ih =>
    obtain ⟨hx, hwanted⟩ := List.forall_mem_cons.1 hwanted
    rw [List.map_cons, Stmt.eventsAll, List.forall_mem_append]
    refine ⟨?_, ih hwanted⟩
    have hvariable : (variable_ loc x).events texts =
        .hint x :: .touch (.bind x) :: touched (if texts then [] else [.use "object"]) := by
      cases texts <;> rfl
    rw [hvariable, List.forall_mem_cons, List.forall_mem_cons]
    refine ⟨hx, hx, ?_⟩
    cases texts with
    | true => exact fun e he => nomatch he
    | false => exact List.forall_mem_singleton.2 (hobject rfl)

section

variable {p : UnfoldPlace} {loc : Loc} {params : Params} {body expanded : List Stmt}
  {wanted : List String} {tasks : List MadeTask}

theorem not_declared_of_wanted
    (h : Stmt.UnfoldAllTo (p.function params body (.ofFunction loc params body expanded wanted)) body
      expanded wanted tasks) {x : String} (hx : x ∈ wanted) (g : Bool) :
    .declare g x ∉ Stmt.eventsAll texts body := by
  intro hd
  have hknown := (wanted_of_unfolds h x hx).2.2
  rw [declare_mem_eventsAll] at hd
  cases g with
  | true => exact hknown (.inl (mem_declared_globals.2 hd))
  | false => exact hknown (.inr (mem_declared_nonlocals.2 hd))

theorem function_lawful
    (h : Stmt.UnfoldAllTo (p.function params body (.ofFunction loc params body expanded wanted)) body
      expanded wanted tasks) (hl : Lawful texts params body)
    (hobject : texts = false → ∀ g, .declare g "object" ∉ Stmt.eventsAll texts body) :
    Lawful texts params (HostFunction.ofFunction loc params body expanded wanted).code := by
  have ht : Tame Touch.Reserved (Stmt.eventsAll texts body) (Stmt.eventsAll texts expanded) :=
    tame_of_unfolds h
  have hfree : ∀ g x, .declare g x ∈ Stmt.eventsAll texts body → ∀ t : Touch, t.Reserved → t.name ≠ x :=
    fun g x hx t hr heq => hl.unreserved g x hx (heq ▸ hr)
  have hhoisted : ∀ g x, (hoistedDeclarations {} body).Has g x →
      .declare g x ∈ Stmt.eventsAll texts body := fun g x hx =>
    (declare_mem_eventsAll body).2 ((has_declaredAll body).2 (.inl (has_hoistedDeclarations.1 hx).1))
  have hwanted : ∀ x ∈ wanted.eraseDups, ∀ g, .declare g x ∉ Stmt.eventsAll texts body := fun x hx =>
    not_declared_of_wanted h (List.mem_eraseDups.1 hx)
  have hlegal := hl.legal.opened ht hfree hhoisted (apart_variables loc hwanted hobject)
  refine ⟨?_, fun g x hx => ?_⟩
  · rw [LegalFunction, HostFunction.ofFunction, eventsAll_insertAfterDoc, scopeStart, eventsAll_append,
      eventsAll_declarations, List.append_assoc]
    exact hlegal
  · rw [HostFunction.ofFunction, declare_mem_eventsAll, declaredAll_insertAfterDoc,
      declaredAll_scopeStart, has_append] at hx
    rcases hx with hx | hx
    · exact hl.unreserved g x (hhoisted g x hx)
    · exact hl.unreserved g x (ht.declare_mem ((declare_mem_eventsAll expanded).2 hx))

end

/-! ### Expanded modules -/

section

variable {P : Params → List Stmt → Prop} {body : List Stmt}

theorem eachFunction_frame (s : Stmt) (h : s.isFrame = true) : s.EachFunction P := by
  cases s <;> trivial

theorem functions_ensureImport (h : Functions P body) : Functions P (ensureImport body).1 :=
  ensureImport_of everyAll_append (fun _ _ _ => ⟨trivial, trivial⟩) h

end

/-- Whether the event breaks no rule when it is moved into a function that declares its names. -/
def NameEvent.isMovable : NameEvent → Bool
  | .hint _ | .importAll => false
  | .touch _ | .declare .. => true

/-- Making tasks breaks no rule: the body of a loop can be moved, and a function does not declare the type
that its new variables are annotated with. -/
def Stmt.Movable (texts : Bool) : Stmt → Prop
  | .function _ _ _ _ body _ _ => texts = false → ∀ g, .declare g "object" ∉ Stmt.eventsAll texts body
  | .callbackLoop _ _ _ _ body => ∀ e ∈ Stmt.eventsAll texts body, e.isMovable = true
  | _ => True

structure Stmt.Orderly (texts : Bool) (s : Stmt) : Prop where
  legal : s.EachFunction (LegalFunction texts)
  movable : s.Movable texts
  spares : s.Spares (isReserved · = true)

theorem spares_of_orderly {body : List Stmt} (h : Stmt.EveryAll (Stmt.Orderly texts) body) :
    Stmt.EveryAll (Stmt.Spares (isReserved · = true)) body :=
  everyAll_mono (fun _ hs => hs.spares) h

theorem lawful_of_unfolds {p : UnfoldPlace} {body code : List Stmt} {wanted : List String}
    {tasks : List MadeTask} (h : Stmt.UnfoldAllTo p body code wanted tasks) :
    (∀ m ∈ tasks, m.Arises) → Stmt.EveryAll (Stmt.Orderly texts) body → Functions (Lawful texts) code := by
  refine h.induction (motive := fun _ body code _ tasks => (∀ m ∈ tasks, m.Arises) →
    Stmt.EveryAll (Stmt.Orderly texts) body → Functions (Lawful texts) code) ?nil ?append ?loop ?function
    ?class_ ?declaration ?inner
  case nil => intros; trivial
  case append =>
    intro p s code body code' _ _ _ _ hs hbody ha ho
    obtain ⟨ha₁, ha₂⟩ := List.forall_mem_append.1 ha
    exact everyAll_append.2 ⟨hs ha₁ ⟨ho.1, trivial⟩, hbody ha₂ ho.2⟩
  case loop =>
    intro p loc header target iter body id body' wanted tasks _ m hbody ih ha ho
    obtain ⟨hm, ha⟩ := List.forall_mem_cons.1 ha
    have hlawful : Lawful texts _ _ := hm.lawful
      (fun x hx => bound_spared _ (spares_of_orderly ho).1 x
        (loopBoundNames_subset loc header target iter body hx))
      (fun x hx => nomatch ho.1.1.movable _ hx) (fun hx => nomatch ho.1.1.movable _ hx)
    refine ⟨⟨hlawful, ?_⟩, every_dispatch eachFunction_frame⟩
    rw [hm.code_eq]
    exact everyAll_append.2 ⟨every_declarations eachFunction_frame, trivial, trivial,
      every_layers eachFunction_frame (every_orPass eachFunction_frame (ih ha ho.1.2))⟩
  case function =>
    intro p loc _ _ params body _ _ _ _ _ _ hbody ih ha ho
    have hlawful := function_lawful hbody
      ⟨ho.1.1.legal, fun g x hx => declare_spared (spares_of_orderly ho.1.2) hx⟩ ho.1.1.movable
    exact ⟨⟨hlawful, every_insertAfterDoc (every_scopeStart eachFunction_frame) (ih ha ho.1.2)⟩, trivial⟩
  case class_ => exact fun ih ha ho => ⟨⟨trivial, ih ha ho.1.2⟩, trivial⟩
  case declaration =>
    intro p s hs hbodies _ _
    have hown : s.Every (Stmt.EachFunction (Lawful texts)) := by
      cases s <;> first | exact trivial | cases hbodies | cases hs
    split
    · trivial
    · exact ⟨hown, trivial⟩
  case inner =>
    intro p s us hs hus ha ho
    have hown {s : Stmt} (hs : s.isInner = true) : s.EachFunction (Lawful texts) := by
      cases s <;> trivial
    have hsuites : ∀ b ∈ us.map (·.code), Functions (Lawful texts) b := List.forall_mem_map.2 fun u hu => by
      obtain ⟨b, hb, h⟩ := forall₂_mem_right hus hu
      exact h (fun m hm => ha m (List.mem_flatMap.2 ⟨u, hu, hm⟩)) ((Stmt.every_iff.1 ho.1).2 b hb)
    refine ⟨Stmt.every_refill hs ?_ (hown (Stmt.isInner_refill.trans hs)) hsuites
      fun b hb _ => every_orPass eachFunction_frame (hsuites b hb), trivial⟩
    rw [List.length_map, hus.length_eq]

theorem MakesTasks.lawful {debug : Bool} {firstId : Nat} {body : List Stmt} {tasks : List MadeTask}
    (h : MakesTasks debug firstId body tasks) (ho : Stmt.EveryAll (Stmt.Orderly texts) body) :
    Functions (Lawful texts) (expandLoops debug firstId body).body := by
  have ha := h.arises
  obtain ⟨code, wanted, loc, hcode, -, hbody⟩ := h
  have hstart : Functions (Lawful texts)
      (insertAfterDoc (scopeStart loc (hoistedDeclarations {} body) []) code) :=
    every_insertAfterDoc (every_scopeStart eachFunction_frame) (lawful_of_unfolds hcode ha ho)
  rw [hbody]
  simp only
  split
  · exact hstart
  · exact functions_ensureImport hstart

/-! ### The stages -/

theorem functions_withHolders {P : Params → List Stmt → Prop} {holders : List Holder} {body : List Stmt}
    (h : Functions P body) : Functions P (withHolders holders body) :=
  withHolders_of everyAll_append (fun _ _ => ⟨trivial, trivial⟩) (fun _ => ⟨trivial, trivial⟩) h

theorem Lawful.lowered {made : List String} {params : Params} {body body' : List Stmt}
    (h : Lawful texts params body) (hm : ∀ h ∈ made, isReserved h = true)
    (hl : Stmt.LowerAllTo made [] body body') : LegalFunction texts params body' := by
  refine h.legal.of_tame (lowerAll_tame hm hl nofun) fun g x hx t ht heq => ?_
  rcases ht with ht | ⟨_, hmem, -⟩
  · exact h.unreserved g x hx (heq ▸ ht)
  · cases hmem

/-- Where the functions of a module keep to the rules on declarations, those of the generated module keep
to them, both before labels are lowered and behind. -/
theorem stages_legal {strict debug : Bool} {source : Source} {module : Module} {d : Display}
    {log : WarningLog} {resolved : List Stmt} {draft : Draft} {summaries : List LoopSummary}
    (hp : parseSource strict source = .ok module)
    (hr : (source.resolve d log module.body).2 = .ok resolved)
    (he : Draft.expand source debug { body := resolved } = .ok (draft, summaries))
    (hlegal : Functions (LegalFunction texts) resolved)
    (hmovable : Stmt.EveryAll (Stmt.Movable texts) resolved)
    (hfree : ∀ x, isReserved x = true → ¬ Stmt.Mention resolved x) :
    Functions (LegalFunction texts) draft.body ∧
      ∃ out, draft.lower source = .ok out ∧ Functions (LegalFunction texts) out.body := by
  have hparsed := parseSource_parsed hp
  obtain ⟨hfit, rfl⟩ := fitAll_of_resolve hr
  obtain ⟨tasks, htasks⟩ := expandLoops_makesTasks debug 1 hfit
  have horderly : Stmt.EveryAll (Stmt.Orderly texts) (resolveLabels module.body) :=
    forall_walk.1 fun s hs => ⟨forall_walk.2 hlegal s hs, forall_walk.2 hmovable s hs,
      forall_walk.2 (everyAll_spares_iff.2 hfree) s hs⟩
  have hlawful := htasks.lawful horderly
  have hresolve := expandLoops_resolves debug 1 (distinctLabels_of_parsed hparsed) hfit
  let e := expandLoops debug 1 (resolveLabels module.body)
  obtain ⟨out, holders, nextId, hlower, hto, -, hholders⟩ := lowerLabels_spec e.nextId hresolve
  have hdraft : draft = ⟨e.body, e.nextId⟩ := by
    rw [Draft.expand] at he
    simp only at he
    split at he
    · cases he
    · exact (Prod.mk.inj (Except.ok.inj he)).1.symm
  subst hdraft
  have hmade : ∀ h ∈ holders.map Holder.name, isReserved h = true := by
    intro h hh
    obtain ⟨holder, hmem, rfl⟩ := List.mem_map.1 hh
    obtain ⟨k, hk⟩ := hholders holder hmem
    rw [hk]
    exact isReserved_holderName k
  refine ⟨everyAll_mono (fun s hs => ?_) hlawful, ⟨withHolders holders out, nextId⟩, ?_,
    functions_withHolders (lowerAll_functions (fun _ _ _ h hl => h.lowered hmade hl) hto hlawful)⟩
  · cases s with
    | function => exact hs.legal
    | _ => trivial
  · rw [Draft.lower, hlower]

/-! ### Two modules -/

instance (texts : Bool) : DecidablePred (Stmt.Movable texts)
  | .function _ _ _ _ body _ _ =>
    inferInstanceAs (Decidable (texts = false → ∀ g, .declare g "object" ∉ Stmt.eventsAll texts body))
  | .callbackLoop _ _ _ _ body =>
    inferInstanceAs (Decidable (∀ e ∈ Stmt.eventsAll texts body, e.isMovable = true))
  | .class_ .. | .return_ .. | .delete .. | .assign .. | .augAssign .. | .annAssign .. | .for_ ..
  | .while_ .. | .if_ .. | .with_ .. | .match_ .. | .raise .. | .try_ .. | .assert_ .. | .import_ ..
  | .importFrom .. | .supportImport .. | .global .. | .nonlocal .. | .expr .. | .pass .. | .break_ ..
  | .continue_ .. | .block .. => .isTrue trivial

def sparesReserved (body : List Stmt) : Bool :=
  (Stmt.walk body).all fun s => s.mentions.all fun x => !isReserved x

theorem not_mention_of_sparesReserved {body : List Stmt} (h : sparesReserved body = true) :
    ∀ x, isReserved x = true → ¬ Stmt.Mention body x := by
  rintro x hx ⟨s, hs, hm⟩
  have := List.all_eq_true.1 (List.all_eq_true.1 h s hs) x hm
  rw [hx] at this
  cases this

def declaredInLoops : Source where
  text := "def f(p):\n cbit for x in h(p):\n  global g\n  cbit for y in h(x):\n   g = p = z = y\n"

theorem stages_legal_declaredInLoops : ∃ module resolved draft summaries,
    parseSource false declaredInLoops = .ok module ∧
    (declaredInLoops.resolve {} {} module.body).2 = .ok resolved ∧
    Draft.expand declaredInLoops false { body := resolved } = .ok (draft, summaries) ∧
    Functions (LegalFunction false) resolved ∧ Stmt.EveryAll (Stmt.Movable false) resolved ∧
    (∀ x, isReserved x = true → ¬ Stmt.Mention resolved x) ∧
    Functions (LegalFunction false) draft.body ∧
      ∃ out, draft.lower declaredInLoops = .ok out ∧ Functions (LegalFunction false) out.body := by
  have htest : declaredInLoops.generates (fun _ resolved _ _ _ =>
      decide (Functions (LegalFunction false) resolved) &&
        decide (Stmt.EveryAll (Stmt.Movable false) resolved) && sparesReserved resolved) = true := by
    decide +kernel
  obtain ⟨module, resolved, draft, summaries, _, hp, hr, he, -, hok⟩ :=
    stages_of_generates (by simp [declaredInLoops]) htest
  rw [Bool.and_eq_true, Bool.and_eq_true, decide_eq_true_iff, decide_eq_true_iff] at hok
  obtain ⟨⟨hlegal, hmovable⟩, hspares⟩ := hok
  have hfree := not_mention_of_sparesReserved hspares
  exact ⟨module, resolved, draft, summaries, hp, hr, he, hlegal, hmovable, hfree,
    stages_legal hp hr he hlegal hmovable hfree⟩

def annotatedInLoop : Source where
  text := "def f():\n cbit for x in g():\n  y: int = 3\n"

/-- The task declares the annotated variable nonlocal. -/
theorem annotated_in_loop : ∃ module resolved draft summaries out,
    parseSource false annotatedInLoop = .ok module ∧
    (annotatedInLoop.resolve {} {} module.body).2 = .ok resolved ∧
    Draft.expand annotatedInLoop false { body := resolved } = .ok (draft, summaries) ∧
    draft.lower annotatedInLoop = .ok out ∧
    Functions (LegalFunction false) resolved ∧
    (∀ x, isReserved x = true → ¬ Stmt.Mention resolved x) ∧
    ¬ Functions (LegalFunction false) out.body := by
  have htest : annotatedInLoop.generates (fun _ resolved _ _ out =>
      decide (Functions (LegalFunction false) resolved) && sparesReserved resolved &&
        !decide (Functions (LegalFunction false) out.body)) = true := by
    decide +kernel
  obtain ⟨module, resolved, draft, summaries, out, hp, hr, he, hl, hok⟩ :=
    stages_of_generates (by simp [annotatedInLoop]) htest
  rw [Bool.and_eq_true, Bool.and_eq_true, decide_eq_true_iff, Bool.not_eq_true',
    decide_eq_false_iff_not] at hok
  obtain ⟨⟨hlegal, hspares⟩, hillegal⟩ := hok
  exact ⟨module, resolved, draft, summaries, out, hp, hr, he, hl, hlegal,
    not_mention_of_sparesReserved hspares, hillegal⟩

end LoopEscape
