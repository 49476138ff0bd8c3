import LoopEscape.Proofs.Expand.Mentions
import LoopEscape.Proofs.Scope.Declared
import LoopEscape.Proofs.Scope.Events

/-!
# Rules on declarations

A function must not declare a parameter, declare a name both ways, or annotate a name that it declares, and
declarations stand before what they are about.  Everything can be imported from a module at module level
only.  Names are compared as they are written.
-/

namespace LoopEscape

open Generate Declarations

/-! ### Blocks of functions -/

/-- What happens in a function with the given parameters keeps to the rules. -/
structure Legal (params : List String) (events : List NameEvent) : Prop where
  unparam : ∀ g x, .declare g x ∈ events → x ∉ params
  oneWay : ∀ x, .declare true x ∈ events → .declare false x ∉ events
  unhinted : ∀ g x, .declare g x ∈ events → .hint x ∉ events
  inOrder : InOrder events
  noImportAll : .importAll ∉ events

def NameEvent.isLegal (params : List String) (events : List NameEvent) : NameEvent → Bool
  | .declare g x => !params.contains x && !events.contains (.declare (!g) x) && !events.contains (.hint x)
  | .importAll => false
  | _ => true

theorem legal_iff {params : List String} {events : List NameEvent} :
    Legal params events ↔ InOrder events ∧ ∀ e ∈ events, e.isLegal params events = true := by
  constructor
  · intro h
    refine ⟨h.inOrder, fun e he => ?_⟩
    cases e with
    | declare g x =>
      have hway : .declare (!g) x ∉ events := by
        cases g with
        | true => exact h.oneWay x he
        | false => exact fun ht => h.oneWay x ht he
      simp [NameEvent.isLegal, h.unparam g x he, hway, h.unhinted g x he]
    | importAll => exact absurd he h.noImportAll
    | touch | hint => rfl
  · rintro ⟨ho, hall⟩
    have hdeclare : ∀ g x, .declare g x ∈ events →
        (x ∉ params ∧ .declare (!g) x ∉ events) ∧ .hint x ∉ events := fun g x he => by
      simpa [NameEvent.isLegal] using hall _ he
    exact ⟨fun g x he => (hdeclare g x he).1.1, fun x he => (hdeclare true x he).1.2,
      fun g x he => (hdeclare g x he).2, ho, fun he => nomatch hall _ he⟩

instance (params : List String) (events : List NameEvent) : Decidable (Legal params events) :=
  decidable_of_iff _ legal_iff.symm

theorem Legal.of_tame {params : List String} {a a' : List NameEvent} {Free : Touch → Prop}
    (h : Legal params a) (ht : Tame Free a a')
    (hfree : ∀ g x, .declare g x ∈ a → ∀ t, Free t → t.name ≠ x) : Legal params a' where
  unparam g x hx := h.unparam g x (ht.declare_mem hx)
  oneWay x hx hx' := h.oneWay x (ht.declare_mem hx) (ht.declare_mem hx')
  unhinted g x hx hh := h.unhinted g x (ht.declare_mem hx) (ht.hint_mem hh)
  inOrder := ht.inOrder hfree h.inOrder
  noImportAll hx := h.noImportAll (ht.importAll_mem hx)

def declares (d : Declarations) : List NameEvent :=
  d.globals.map (.declare true) ++ d.nonlocals.map (.declare false)

theorem mem_declares {d : Declarations} {e : NameEvent} :
    e ∈ declares d ↔ ∃ g x, e = .declare g x ∧ d.Has g x := by
  simp only [declares, List.mem_append, List.mem_map, Bool.exists_bool, Has]
  grind

theorem declare_mem_declares {d : Declarations} {g : Bool} {x : String} :
    .declare g x ∈ declares d ↔ d.Has g x := by
  rw [mem_declares]
  grind

theorem inOrder_declares_append {d : Declarations} {events : List NameEvent} :
    InOrder (declares d ++ events) ↔ InOrder events := by
  have hfront : ∀ e ∈ declares d, ∀ f : NameEvent, e.mayPrecede f = true := fun e he f => by
    obtain ⟨g, x, rfl, -⟩ := mem_declares.1 he
    rfl
  refine List.pairwise_append.trans ⟨fun h => h.2.1, fun h => ⟨?_, h, fun e he f _ => hfront e he f⟩⟩
  exact List.pairwise_of_forall_mem_list fun e he f _ => hfront e he f

def NameEvent.Apart (events : List NameEvent) : NameEvent → Prop
  | .touch t => ∀ g, .declare g t.name ∉ events
  | .hint x => ∀ g, .declare g x ∉ events
  | .declare .. | .importAll => False

theorem Legal.opened {params : List String} {a a' extra : List NameEvent} {d : Declarations}
    {Free : Touch → Prop} (h : Legal params a) (ht : Tame Free a a')
    (hfree : ∀ g x, .declare g x ∈ a → ∀ t, Free t → t.name ≠ x)
    (hd : ∀ g x, d.Has g x → .declare g x ∈ a) (he : ∀ e ∈ extra, e.Apart a) :
    Legal params (declares d ++ (extra ++ a')) := by
  have ha' := h.of_tame ht hfree
  have hdeclare : ∀ g x, .declare g x ∈ declares d ++ (extra ++ a') → .declare g x ∈ a := by
    intro g x hx
    rw [List.mem_append, List.mem_append, declare_mem_declares] at hx
    rcases hx with hx | hx | hx
    · exact hd g x hx
    · exact (he _ hx).elim
    · exact ht.declare_mem hx
  have hhint : ∀ x, .hint x ∈ declares d ++ (extra ++ a') → ∀ g, .declare g x ∉ a := by
    intro x hx g
    rw [List.mem_append, List.mem_append, mem_declares] at hx
    rcases hx with ⟨_, _, hx, -⟩ | hx | hx
    · cases hx
    · exact he _ hx g
    · exact fun hg => h.unhinted g x hg (ht.hint_mem hx)
  refine ⟨fun g x hx => h.unparam g x (hdeclare g x hx),
    fun x hx hx' => h.oneWay x (hdeclare true x hx) (hdeclare false x hx'),
    fun g x hx hx' => hhint x hx' g (hdeclare g x hx), inOrder_declares_append.2 ?_, fun hx => ?_⟩
  · refine List.pairwise_append.2 ⟨inOrder_of_no_declare fun g x hx => he _ hx, ha'.inOrder, ?_⟩
    intro e hmem f hf
    cases f with
    | touch | hint | importAll => exact mayPrecede_of_ne nofun
    | declare g x =>
      cases e with
      | touch t => exact bne_iff_ne.2 fun ht' => he _ hmem g (ht' ▸ ht.declare_mem hf)
      | hint | declare | importAll => rfl
  · rw [List.mem_append, List.mem_append, mem_declares] at hx
    rcases hx with ⟨_, _, hx, -⟩ | hx | hx
    · cases hx
    · exact he _ hx
    · exact ha'.noImportAll hx

def Stmt.EachFunction (P : Params → List Stmt → Prop) : Stmt → Prop
  | .function _ _ _ params body _ _ => P params body
  | _ => True

def Functions (P : Params → List Stmt → Prop) (body : List Stmt) : Prop :=
  Stmt.EveryAll (Stmt.EachFunction P) body

def LegalFunction (texts : Bool) (params : Params) (body : List Stmt) : Prop :=
  Legal params.names (Stmt.eventsAll texts body)

instance (P : Stmt → Prop) [DecidablePred P] (body : List Stmt) : Decidable (Stmt.EveryAll P body) :=
  decidable_of_iff (∀ s ∈ Stmt.walk body, P s) forall_walk

instance (texts : Bool) : DecidablePred (Stmt.EachFunction (LegalFunction texts))
  | .function _ _ _ params body _ _ =>
    inferInstanceAs (Decidable (Legal params.names (Stmt.eventsAll texts body)))
  | .class_ .. | .return_ .. | .delete .. | .assign .. | .augAssign .. | .annAssign .. | .for_ ..
  | .while_ .. | .if_ .. | .with_ .. | .match_ .. | .raise .. | .try_ .. | .assert_ .. | .import_ ..
  | .importFrom .. | .supportImport .. | .global .. | .nonlocal .. | .expr .. | .pass .. | .break_ ..
  | .continue_ .. | .callbackLoop .. | .block .. => .isTrue trivial

instance (texts : Bool) (body : List Stmt) : Decidable (Functions (LegalFunction texts) body) :=
  inferInstanceAs (Decidable (Stmt.EveryAll _ body))

/-! ### Blocks of statements -/

section

variable {texts isGlobal : Bool} {x : String}

mutual

theorem declare_mem_events : ∀ s : Stmt,
    .declare isGlobal x ∈ s.events texts ↔ s.declared.Has isGlobal x
  | .for_ _ _ _ _ _ body orElse | .while_ _ _ _ body orElse | .if_ _ _ body orElse => by
    simp only [Stmt.events, Stmt.declared, List.mem_append, has_append, declare_not_mem_touched,
      declare_mem_eventsAll body, declare_mem_eventsAll orElse, false_or]
  | .with_ _ _ _ body | .block _ _ _ body | .callbackLoop _ _ _ _ body => by
    simp only [Stmt.events, Stmt.declared, List.mem_append, declare_not_mem_touched,
      declare_mem_eventsAll body, false_or, or_false]
  | .match_ _ _ cases => by
    simp only [Stmt.events, Stmt.declared, List.mem_append, declare_not_mem_touched,
      declare_mem_eventsCases cases, false_or]
  | .try_ _ _ body handlers orElse final => by
    simp only [Stmt.events, Stmt.declared, List.mem_append, has_append, declare_mem_eventsAll body,
      declare_mem_eventsAll orElse, declare_mem_eventsAll final, declare_mem_eventsHandlers handlers]
    grind
  | .global _ names | .nonlocal _ names => by
    cases isGlobal <;> simp [Stmt.events, Stmt.declared, Has]
  | .annAssign _ target _ _ _ => by
    simp only [Stmt.events, Stmt.declared, List.mem_append, declare_not_mem_touched, or_false,
      not_has_empty, iff_false]
    unfold annotatedEvents
    split
    · split
      · exact fun h => (List.mem_cons.1 h).elim nofun declare_not_mem_touched
      · split
        · exact declare_not_mem_touched
        · exact nofun
    · exact declare_not_mem_touched
  | .import_ .. | .importFrom .. | .supportImport .. => by
    simp only [Stmt.events, Stmt.declared, not_has_empty, iff_false, List.mem_flatMap, not_exists,
      not_and]
    intro a _ ha
    unfold Alias.events at ha
    split at ha
    · cases List.mem_singleton.1 ha
    · exact declare_not_mem_touched ha
  | .function .. | .class_ .. | .return_ .. | .delete .. | .assign .. | .augAssign .. | .raise ..
  | .assert_ .. | .expr .. | .break_ .. => by
    simp only [Stmt.events, Stmt.declared, declare_not_mem_touched, not_has_empty]
  | .pass .. | .continue_ .. => by
    simp only [Stmt.events, Stmt.declared, List.not_mem_nil, not_has_empty]

theorem declare_mem_eventsAll : ∀ body : List Stmt,
    .declare isGlobal x ∈ Stmt.eventsAll texts body ↔ (Stmt.declaredAll body).Has isGlobal x
  | [] => by simp [Stmt.eventsAll, Stmt.declaredAll]
  | s :: rest => by
    rw [Stmt.eventsAll, Stmt.declaredAll, List.mem_append, has_append, declare_mem_events s,
      declare_mem_eventsAll rest]

theorem declare_mem_eventsHandlers : ∀ handlers : List Handler,
    .declare isGlobal x ∈ Handler.eventsAll texts handlers ↔
      (Handler.declaredAll handlers).Has isGlobal x
  | [] => by simp [Handler.eventsAll, Handler.declaredAll]
  | .mk _ _ _ body :: rest => by
    simp only [Handler.eventsAll, Handler.declaredAll, List.mem_append, has_append,
      declare_not_mem_touched, declare_mem_eventsAll body, declare_mem_eventsHandlers rest, false_or]

theorem declare_mem_eventsCases : ∀ cases : List MatchCase,
    .declare isGlobal x ∈ MatchCase.eventsAll texts cases ↔
      (MatchCase.declaredAll cases).Has isGlobal x
  | [] => by simp [MatchCase.eventsAll, MatchCase.declaredAll]
  | .mk _ _ body :: rest => by
    simp only [MatchCase.eventsAll, MatchCase.declaredAll, List.mem_append, has_append,
      declare_not_mem_touched, declare_mem_eventsAll body, declare_mem_eventsCases rest, false_or]

end

end

theorem declare_spared {held : String → Prop} {texts isGlobal : Bool} {x : String} {body : List Stmt}
    (h : Stmt.EveryAll (Stmt.Spares held) body)
    (hx : .declare isGlobal x ∈ Stmt.eventsAll texts body) : ¬ held x :=
  declaredAll_spared h ((declare_mem_eventsAll body).1 hx)

theorem eventsAll_declarations (texts : Bool) (loc : Loc) (d : Declarations) :
    Stmt.eventsAll texts (declarations loc d.globals d.nonlocals) = declares d := by
  obtain ⟨globals, nonlocals⟩ := d
  cases globals <;> cases nonlocals <;>
    simp [declarations, declares, Stmt.eventsAll, Stmt.events]

theorem eventsAll_insertAfterDoc (texts : Bool) (start body : List Stmt) :
    Stmt.eventsAll texts (insertAfterDoc start body) =
      Stmt.eventsAll texts start ++ Stmt.eventsAll texts body := by
  cases body with
  | nil => simp [insertAfterDoc, Stmt.eventsAll]
  | cons s rest =>
    rw [insertAfterDoc]
    split
    · next hs =>
      have hnone : s.events texts = [] := by
        unfold Stmt.isText at hs
        split at hs
        · rfl
        · cases hs
      rw [Stmt.eventsAll, Stmt.eventsAll, hnone, List.nil_append, List.nil_append, eventsAll_append]
    · exact eventsAll_append ..

end LoopEscape
