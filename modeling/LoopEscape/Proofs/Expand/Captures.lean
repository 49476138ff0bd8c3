import LoopEscape.Proofs.Expand.Events
import LoopEscape.Proofs.Scope.Legal
import LoopEscape.Proofs.Scope.Overt

/-!
# Tasks bind the variables of the scope around them

The body of a callback loop moves into a function, its task.  What the body binds belongs to the scope
that the loop is written in, so the task has to declare it, and it must declare nothing else.

Main statement: the task of a loop declares exactly the names that the target and the body of the loop
bind, and has no variables of its own but reserved ones (`tasks_capture`), as long as nothing is bound at a
place where bindings are not looked for (`OvertLoop`).  The value of a jump is such a place: what is bound
there is not declared (`jump_value_uncaptured`).
-/

namespace LoopEscape

open Generate Declarations

variable {texts : Bool}

/-! ### Loops -/

/-- What happens to names in a callback loop where it is written, the call that it goes over apart. -/
def loopEvents (texts : Bool) (target : Expr) (body : List Stmt) : List NameEvent :=
  touched (target.touches false) ++ Stmt.eventsAll texts body

/-- Whatever the target and the body of a loop bind, they bind where bindings are looked for. -/
def OvertLoop (texts : Bool) (target : Expr) (body : List Stmt) : Prop :=
  target.tree.Overt false ∧ Stmt.OvertAll texts body

instance (texts : Bool) (target : Expr) (body : List Stmt) : Decidable (OvertLoop texts target body) :=
  inferInstanceAs (Decidable (_ ∧ _))

theorem boundBy_loopEvents {target : Expr} {body : List Stmt} {x : String}
    (h : OvertLoop texts target body) :
    BoundBy (loopEvents texts target body) x ↔ x ∈ loopBoundNames target body := by
  rw [loopEvents, boundBy_append, boundBy_touched, bind_mem_expr h.1, bind_mem_eventsAll body h.2,
    mem_loopBoundNames]

def Stmt.loop? : Stmt → Option (Expr × List Stmt)
  | .callbackLoop _ _ target _ body => some (target, body)
  | _ => none

def loopsIn (body : List Stmt) : List (Expr × List Stmt) := (Stmt.walk body).filterMap Stmt.loop?

def Stmt.EachLoop (P : Expr → List Stmt → Prop) (s : Stmt) : Prop :=
  ∀ target body, s.loop? = some (target, body) → P target body

theorem eachLoop_loopsIn (body : List Stmt) :
    Stmt.EveryAll (Stmt.EachLoop fun target body' => (target, body') ∈ loopsIn body) body :=
  forall_walk.1 fun s hs _ _ hl => List.mem_filterMap.2 ⟨s, hs, hl⟩

theorem eachLoop_of_unfolds {P : Expr → List Stmt → Prop} {p : UnfoldPlace} {body code : List Stmt}
    {wanted : List String} {tasks : List MadeTask} (h : Stmt.UnfoldAllTo p body code wanted tasks) :
    Stmt.EveryAll (Stmt.EachLoop P) body → ∀ m ∈ tasks, P m.target m.body := by
  refine h.induction (motive := fun _ body _ _ tasks =>
    Stmt.EveryAll (Stmt.EachLoop P) body → ∀ m ∈ tasks, P m.target m.body) ?nil ?append ?loop ?function
    ?class_ ?declaration ?inner
  case nil | declaration => intros; contradiction
  case append => exact fun hs hbody hP => List.forall_mem_append.2 ⟨hs ⟨hP.1, trivial⟩, hbody hP.2⟩
  case loop => exact fun _ _ ih hP => List.forall_mem_cons.2 ⟨hP.1.1 _ _ rfl, ih hP.1.2⟩
  case function => exact fun _ ih hP => ih hP.1.2
  case class_ => exact fun ih hP => ih hP.1.2
  case inner =>
    intro p s us _ hus hP m hm
    obtain ⟨u, hu, hm⟩ := List.mem_flatMap.1 hm
    obtain ⟨b, hb, h⟩ := forall₂_mem_right hus hu
    exact h ((Stmt.every_iff.1 hP.1).2 b hb) m hm

theorem MakesTasks.mem_loopsIn {debug : Bool} {firstId : Nat} {body : List Stmt}
    {tasks : List MadeTask} (h : MakesTasks debug firstId body tasks) :
    ∀ m ∈ tasks, (m.target, m.body) ∈ loopsIn body := by
  obtain ⟨code, wanted, loc, hcode, -⟩ := h
  exact eachLoop_of_unfolds hcode (eachLoop_loopsIn body)

/-! ### Tasks -/

theorem NameScope.has_declare (scope : NameScope) {bound : List String} {x : String} (hx : x ∈ bound) :
    ∃ g, (scope.declare bound).Has g x := by
  by_cases hglobal : scope.isModule = true ∨ x ∈ scope.globals
  · exact ⟨true, mem_declare_globals.2 ⟨hx, hglobal⟩⟩
  · rw [not_or, Bool.not_eq_true] at hglobal
    exact ⟨false, mem_declare_nonlocals.2 ⟨hx, hglobal⟩⟩

namespace MadeTask

def Declares (m : MadeTask) (x : String) : Prop := x ∈ m.declared.globals ∨ x ∈ m.declared.nonlocals

/-- A task declares the names that its loop binds and no others; whatever else it binds is generated. -/
structure Captures (texts : Bool) (m : MadeTask) : Prop where
  declares_iff : ∀ x, m.Declares x ↔ BoundBy (loopEvents texts m.target m.body) x
  own : ∀ x, x ∈ m.params.names ∨ BoundBy (Stmt.eventsAll texts m.code) x → ¬ m.Declares x →
    isReserved x = true

namespace Arises

variable {m : MadeTask} {x : String}

theorem has_of_bound (h : m.Arises) (hx : x ∈ loopBoundNames m.target m.body) :
    ∃ g, m.decls.Has g x := by
  obtain ⟨hclass, hsound, hbody⟩ := h
  exact NameScope.has_declare _ hx

theorem declares_iff_bound (h : m.Arises) : m.Declares x ↔ x ∈ loopBoundNames m.target m.body := by
  rw [Declares, h.mem_globals, h.mem_nonlocals]
  constructor
  · rintro (hx | hx)
    · exact h.bound_of_has (show m.decls.Has true x from hx)
    · exact h.bound_of_has (show m.decls.Has false x from hx)
  · intro hx
    obtain ⟨_ | _, hx⟩ := h.has_of_bound hx
    · exact .inr hx
    · exact .inl hx

theorem boundBy_code (h : m.Arises) (hx : BoundBy (Stmt.eventsAll texts m.code) x) :
    BoundBy (loopEvents texts m.target m.body) x ∨ isReserved x = true := by
  rw [h.code_eq, eventsAll_append, eventsAll_declarations, boundBy_append] at hx
  rcases hx with hx | hx
  · obtain ⟨g, y, heq, -⟩ := mem_declares.1 hx
    cases heq
  · rcases h.within_work _ hx with hx | ⟨t, ht, hreserved⟩
    · exact .inl hx
    · cases ht
      exact .inr hreserved

theorem captures (h : m.Arises) (ho : OvertLoop texts m.target m.body) : m.Captures texts where
  declares_iff x := h.declares_iff_bound.trans (boundBy_loopEvents ho).symm
  own x hx hd := by
    rcases hx with hx | hx
    · exact h.isReserved_param hx
    · refine (h.boundBy_code hx).resolve_left fun hbound => hd ?_
      exact h.declares_iff_bound.2 ((boundBy_loopEvents ho).1 hbound)

end Arises

end MadeTask

/-- In a module whose labels are resolved, every task is made for a loop of the module, and it binds the
variables of the scope around the loop. -/
theorem tasks_capture {d : Display} {log : WarningLog} {source : Source} {body resolved : List Stmt}
    (hr : (source.resolve d log body).2 = .ok resolved) (debug : Bool) (firstId : Nat) :
    ∃ tasks, MakesTasks debug firstId resolved tasks ∧ ∀ m ∈ tasks,
      (m.target, m.body) ∈ loopsIn resolved ∧
      ∀ texts, OvertLoop texts m.target m.body → m.Captures texts := by
  obtain ⟨hfit, rfl⟩ := fitAll_of_resolve hr
  obtain ⟨tasks, htasks⟩ := expandLoops_makesTasks debug firstId hfit
  exact ⟨tasks, htasks, fun m hm =>
    ⟨htasks.mem_loopsIn m hm, fun _ ho => (htasks.arises m hm).captures ho⟩⟩

def bindingLoops : Source where
  text := "def f(p):\n cbit for x in h():\n  def k(a=x): b = a\n  cbit for y in h(p := x):\n   break with y\n"

theorem tasks_capture_bindingLoops : ∃ module resolved,
    parseSource false bindingLoops = .ok module ∧
    (bindingLoops.resolve {} {} module.body).2 = .ok resolved ∧
    ∃ tasks, MakesTasks false 1 resolved tasks ∧ tasks.length = 2 ∧
      ∀ m ∈ tasks, OvertLoop false m.target m.body ∧ m.Captures false := by
  have htest : ((do
      let body ← bindingLoops.parsed? false
      let resolved ← (bindingLoops.resolve {} {} body).2.toOption
      return (expandLoops false 1 resolved).loops.length == 2 &&
        decide (∀ l ∈ loopsIn resolved, OvertLoop false l.1 l.2)) : Option Bool) = some true := by
    decide +kernel
  obtain ⟨body, hbody, htest⟩ := Option.bind_eq_some_iff.1 htest
  obtain ⟨resolved, hresolved, htest⟩ := Option.bind_eq_some_iff.1 htest
  obtain ⟨settings, hp⟩ := parseSource_of_parsed? (by simp [bindingLoops]) hbody
  have hr := eq_ok_of_toOption hresolved
  have hok := Option.some.inj htest
  rw [Bool.and_eq_true, beq_iff_eq, decide_eq_true_iff] at hok
  obtain ⟨tasks, htasks, hcapture⟩ := tasks_capture hr false 1
  refine ⟨⟨body, settings⟩, resolved, hp, hr, tasks, htasks, htasks.length_eq.trans hok.1,
    fun m hm => ?_⟩
  obtain ⟨hloop, hcaptures⟩ := hcapture m hm
  have hovert := hok.2 _ hloop
  exact ⟨hovert, hcaptures false hovert⟩

def assignsInJump : Source where
  text := "def f():\n cbit for x in g():\n  break with (y := 1)\n"

/-- The task does not declare the variable. -/
theorem jump_value_uncaptured : ∃ module resolved,
    parseSource false assignsInJump = .ok module ∧
    (assignsInJump.resolve {} {} module.body).2 = .ok resolved ∧
    ∃ m, MakesTasks false 1 resolved [m] ∧ BoundBy (loopEvents false m.target m.body) "y" ∧
      ¬ m.Declares "y" := by
  have htest : ((do
      let body ← assignsInJump.parsed? false
      let resolved ← (assignsInJump.resolve {} {} body).2.toOption
      return (expandLoops false 1 resolved).loops.length == 1 &&
        decide (∀ l ∈ loopsIn resolved, .touch (.bind "y") ∈ loopEvents false l.1 l.2 ∧
          "y" ∉ loopBoundNames l.1 l.2)) : Option Bool) = some true := by
    decide +kernel
  obtain ⟨body, hbody, htest⟩ := Option.bind_eq_some_iff.1 htest
  obtain ⟨resolved, hresolved, htest⟩ := Option.bind_eq_some_iff.1 htest
  obtain ⟨settings, hp⟩ := parseSource_of_parsed? (by simp [assignsInJump]) hbody
  have hr := eq_ok_of_toOption hresolved
  have hok := Option.some.inj htest
  rw [Bool.and_eq_true, beq_iff_eq, decide_eq_true_iff] at hok
  obtain ⟨hfit, rfl⟩ := fitAll_of_resolve hr
  obtain ⟨tasks, htasks⟩ := expandLoops_makesTasks false 1 hfit
  obtain ⟨m, rfl⟩ := List.length_eq_one_iff.1 (htasks.length_eq.trans hok.1)
  obtain ⟨hbound, hmissed⟩ := hok.2 _ (htasks.mem_loopsIn m List.mem_cons_self)
  have hm := htasks.arises m List.mem_cons_self
  exact ⟨⟨body, settings⟩, _, hp, hr, m, htasks, hbound, fun hd => hmissed (hm.declares_iff_bound.1 hd)⟩

end LoopEscape
