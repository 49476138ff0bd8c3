import LoopEscape.Proofs.Dialect.Stages
import LoopEscape.Proofs.Expand.Tasks
import LoopEscape.Proofs.Scope.Declared
import Mathlib.Tactic.Tauto

/-!
# What the declarations of tasks refer to

A task declares the names that its loop binds.  Those that the scope of the source has global it declares
global; the others are nonlocal, and then the function around the task has them: as parameters, as
variables that were put in front, or as nonlocal names of its own.

Main statement: this is so for every task that expansion makes (`tasks_grounded`).
-/

namespace LoopEscape

open Generate Declarations

/-! ### What is to be shown -/

/-- The name is one of the module when the scope binds it: at module level all are, and in a function
those that it declares global, be it inside callback loops. -/
def Owner.IsGlobal : Owner → String → Prop
  | .module, _ => True
  | .function _ body, x => x ∈ (declaredNames body).globals

def HostFunction.Offers (h : HostFunction) (x : String) : Prop :=
  x ∈ h.params.names ∨ (∃ loc, variable_ loc x ∈ h.inserted) ∨ x ∈ (declaredNames h.code).nonlocals

namespace MadeTask

def declared (m : MadeTask) : Declarations := declaredNames m.code

/-- The declarations of a task agree with its scope: a name the loop binds is declared global where it is one
of the module, and every nonlocal name is one of the function around. -/
structure Grounded (m : MadeTask) : Prop where
  apart : ∀ x ∈ m.declared.globals, x ∉ m.declared.nonlocals
  global_iff : ∀ x ∈ loopBoundNames m.target m.body, x ∈ m.declared.globals ↔ m.owner.IsGlobal x
  refers : ∀ x ∈ m.declared.nonlocals, ∃ h, m.host = some h ∧ h.Offers x
  bare : m.inserted = []

end MadeTask

/-! ### Names that a place knows -/

namespace NameScope

variable {scope : NameScope} {bound : List String} {x : String}

theorem mem_declare_globals :
    x ∈ (scope.declare bound).globals ↔ x ∈ bound ∧ (scope.isModule = true ∨ x ∈ scope.globals) := by
  unfold declare
  split
  next h => simp [h]
  next h => simp [h]

theorem mem_declare_nonlocals :
    x ∈ (scope.declare bound).nonlocals ↔ x ∈ bound ∧ scope.isModule = false ∧ x ∉ scope.globals := by
  unfold declare
  split
  next h => simp [h]
  next h => simp [h]

end NameScope

namespace UnfoldPlace

def Knows (p : UnfoldPlace) (x : String) : Prop :=
  x ∈ p.ctx.scope.globals ∨ x ∈ p.ctx.scope.nonlocals

/-- What the scope holds for global is so in the source, as far as names are bound here, and the function
around offers its other names and those that are asked for. -/
structure Sound (p : UnfoldPlace) (bound wanted : List String) : Prop where
  global_iff : ∀ x ∈ bound,
    (p.ctx.scope.isModule = true ∨ x ∈ p.ctx.scope.globals) ↔ p.owner.IsGlobal x
  offers : p.ctx.scope.isModule = false → ∃ h, p.host = some h ∧
    ∀ x, x ∈ p.ctx.scope.params ∨ x ∈ p.ctx.scope.nonlocals ∨ x ∈ wanted → h.Offers x

variable {p : UnfoldPlace}

theorem Sound.mono {bound bound' wanted wanted' : List String} (h : p.Sound bound wanted)
    (hb : bound' ⊆ bound) (hw : wanted' ⊆ wanted) : p.Sound bound' wanted' where
  global_iff x hx := h.global_iff x (hb hx)
  offers hm := by
    obtain ⟨host, hhost, hoffers⟩ := h.offers hm
    exact ⟨host, hhost, fun x hx => hoffers x (hx.imp_right (.imp_right (@hw x)))⟩

theorem nonlocal_cases {decls : Declarations} {x : String} (hm : p.ctx.scope.isModule = false)
    (hx : x ∈ decls.nonlocals) :
    x ∈ p.ctx.scope.params ∨ x ∈ p.ctx.scope.nonlocals ∨ x ∈ p.wants decls := by
  rw [wants, hm, if_neg Bool.false_ne_true, NameScope.missing, List.mem_filter]
  simp only [hx, true_and, Bool.and_eq_true, Bool.not_eq_true', List.contains_eq_mem,
    decide_eq_false_iff_not]
  tauto

theorem mem_wants {bound : List String} {x : String} (hx : x ∈ p.wants (p.ctx.scope.declare bound)) :
    x ∈ bound ∧ ¬ p.Knows x := by
  unfold wants at hx
  split at hx
  · cases hx
  · obtain ⟨hx, hmissing⟩ := List.mem_filter.1 hx
    obtain ⟨hbound, -, hglobal⟩ := NameScope.mem_declare_nonlocals.1 hx
    refine ⟨hbound, fun hknown => ?_⟩
    simp [hknown.resolve_left hglobal] at hmissing

end UnfoldPlace

/-! ### Suites -/

section

variable {p : UnfoldPlace} {body code : List Stmt} {wanted : List String} {tasks : List MadeTask}

theorem has_declared_of_unfolds (h : Stmt.UnfoldAllTo p body code wanted tasks) {g : Bool} {x : String} :
    (Stmt.declaredAll code).Has g x ↔
      p.ctx.dropping = false ∧ (Stmt.declaredAll (Stmt.stripLoopsAll body)).Has g x := by
  refine h.induction (motive := fun p body code _ _ => (Stmt.declaredAll code).Has g x ↔
    p.ctx.dropping = false ∧ (Stmt.declaredAll (Stmt.stripLoopsAll body)).Has g x) ?nil ?append ?loop
    ?function ?class_ ?declaration ?inner
  case nil => exact fun _ => by simp [Stmt.declaredAll, Stmt.stripLoopsAll]
  case append =>
    intro p s code body code' _ _ _ _ hs hbody
    rw [declaredAll_append, has_append, hs, hbody]
    simp [Stmt.stripLoopsAll, Stmt.declaredAll, and_or_left]
  case loop =>
    intros
    simp [Stmt.declaredAll, declaredAll_dispatch, Stmt.stripLoopsAll, Stmt.stripLoops, Stmt.declared,
      MadeTask.function, declaredAll_undeclaredAll]
  case function => exact fun _ _ => by simp [Stmt.stripLoopsAll, Stmt.stripLoops, Stmt.declaredAll, Stmt.declared]
  case class_ => exact fun _ => by simp [Stmt.stripLoopsAll, Stmt.stripLoops, Stmt.declaredAll, Stmt.declared]
  case declaration =>
    intro p s hs hbodies
    have hstrip : s.stripLoops = s := by
      cases s <;> first | rfl | cases hbodies | cases hs
    rw [Stmt.stripLoopsAll, hstrip]
    split <;> simp_all [Stmt.declaredAll, Stmt.stripLoopsAll]
  case inner =>
    intro p s us hs hus
    have hloop : ¬ s.IsCallbackLoop := by cases s <;> simp_all [Stmt.isInner, Stmt.IsCallbackLoop]
    have hdecl {s : Stmt} (hs : s.isInner = true) : ¬ s.Declares g x := by
      cases s <;> simp_all [Stmt.isInner, Stmt.Declares]
    have hs' : (s.refill orPass (us.map (·.code))).isInner = true := Stmt.isInner_refill.trans hs
    have hcode : (s.refill orPass (us.map (·.code))).declared.Has g x ↔
        ∃ b ∈ us.map (·.code), (Stmt.declaredAll b).Has g x := by
      rw [Stmt.has_declared_iff, or_iff_right (hdecl hs'), Stmt.parts_of_isInner hs']
      refine (forall₂_exists_iff ((Stmt.bodies_refill hs ?_).imp ?_)).symm
      · rw [List.length_map, hus.length_eq]
      rintro b b' (rfl | ⟨loc, rfl⟩)
      · rfl
      · rw [declaredAll_orPass]
    have hsource : s.stripLoops.declared.Has g x ↔
        ∃ b ∈ s.bodies, (Stmt.declaredAll (Stmt.stripLoopsAll b)).Has g x := by
      rw [Stmt.stripLoops_eq, if_neg hloop, ← Stmt.parts_of_isInner hs]
      refine (Stmt.has_declared_mapParts ?_).trans (or_iff_right (hdecl hs))
      exact fun _ _ => Iff.rfl
    have hsuites := forall₂_exists_iff (hus.imp fun _ _ h => h.symm)
    simp only [Stmt.stripLoopsAll, Stmt.declaredAll, append_empty, hsource, hcode, List.mem_map,
      exists_exists_and_eq_and, ← hsuites]
    grind

theorem mem_loopBoundNames {target : Expr} {body : List Stmt} {x : String} :
    x ∈ loopBoundNames target body ↔ x ∈ target.bound ∨ x ∈ Stmt.boundAll body :=
  List.mem_eraseDups.trans List.mem_append

theorem loopBoundNames_subset (loc : Loc) (header : CallbackHeader) (target iter : Expr)
    (body : List Stmt) :
    loopBoundNames target body ⊆ (Stmt.callbackLoop loc header target iter body).bound := by
  intro x hx
  rw [Stmt.bound]
  rcases mem_loopBoundNames.1 hx with hx | hx <;> simp [hx]

theorem boundAll_subset {s : Stmt} {b : List Stmt} (hb : b ∈ s.parts) : Stmt.boundAll b ⊆ s.bound := by
  have hhandlers (handlers : List Handler) :
      ∀ h ∈ handlers, Stmt.boundAll h.body ⊆ Handler.boundAll handlers := by
    induction handlers with
    | nil => simp
    | cons h handlers ih => cases h; grind [Handler.boundAll, Handler.body]
  have hcases (cases : List MatchCase) :
      ∀ c ∈ cases, Stmt.boundAll c.body ⊆ MatchCase.boundAll cases := by
    induction cases with
    | nil => simp
    | cons c cases ih => cases c; grind [MatchCase.boundAll, MatchCase.body]
  cases s <;> grind [Stmt.parts, Stmt.bodies, Stmt.bound]

theorem wanted_of_unfolds (h : Stmt.UnfoldAllTo p body code wanted tasks) :
    ∀ x ∈ wanted, p.ctx.inClass = false ∧ x ∈ Stmt.boundAll body ∧ ¬ p.Knows x := by
  refine h.induction (motive := fun p body _ wanted _ => ∀ x ∈ wanted,
    p.ctx.inClass = false ∧ x ∈ Stmt.boundAll body ∧ ¬ p.Knows x) ?nil ?append ?loop ?function ?class_
    ?declaration ?inner
  case nil | declaration => intros; contradiction
  case append =>
    intro p s _ body _ w w' _ _ hs hbody x hx
    rw [Stmt.boundAll, List.mem_append]
    rcases List.mem_append.1 hx with hx | hx
    · obtain ⟨hclass, hbound, hknown⟩ := hs x hx
      rw [Stmt.boundAll, Stmt.boundAll, List.append_nil] at hbound
      exact ⟨hclass, .inl hbound, hknown⟩
    · obtain ⟨hclass, hbound, hknown⟩ := hbody x hx
      exact ⟨hclass, .inr hbound, hknown⟩
  case loop =>
    intro p loc header target iter body _ _ _ _ hclass _ _ _ x hx
    obtain ⟨hbound, hknown⟩ := UnfoldPlace.mem_wants hx
    exact ⟨hclass, List.mem_append_left _ (loopBoundNames_subset loc header target iter body hbound), hknown⟩
  case function => exact fun _ _ _ => nofun
  case class_ => exact fun hbody x hx => nomatch (hbody x hx).1
  case inner =>
    intro p s us hs hus x hx
    obtain ⟨u, hu, hx⟩ := List.mem_flatMap.1 hx
    obtain ⟨b, hb, h⟩ := forall₂_mem_right hus hu
    obtain ⟨hclass, hbound, hknown⟩ := h x hx
    exact ⟨hclass, List.mem_append_left _ (boundAll_subset (Stmt.parts_of_isInner hs ▸ hb) hbound), hknown⟩

end

/-! ### Functions and tasks -/

theorem MadeTask.declaredAll_work (m : MadeTask) :
    Stmt.declaredAll m.work = Stmt.declaredAll m.expanded := by
  rw [MadeTask.work, Stmt.declaredAll, Stmt.declaredAll, declaredAll_layers, declaredAll_orPass]
  rfl

theorem MadeTask.declaredAll_code (m : MadeTask) : Stmt.declaredAll m.code =
    Stmt.declaredAll m.inserted ++ (m.decls ++ Stmt.declaredAll m.expanded) := by
  rw [MadeTask.code, declaredAll_append, declaredAll_append, declaredAll_declarations,
    MadeTask.declaredAll_work, append_assoc]

namespace UnfoldPlace

variable {p : UnfoldPlace} {id : Nat} {loc : Loc} {header : CallbackHeader} {target iter : Expr}
  {body expanded : List Stmt} {wanted : List String}

theorem task_scope (hclass : p.ctx.inClass = false) (m : MadeTask) : (p.task m).ctx.scope =
    { isModule := false, params := [m.taxonomy.names.item, m.taxonomy.names.slot],
      globals := m.decls.globals, nonlocals := m.decls.nonlocals } := by
  simp [task, ExpandContext.task, hclass]

theorem task_dropping (hclass : p.ctx.inClass = false) (m : MadeTask) :
    (p.task m).ctx.dropping = true := by
  simp [task, ExpandContext.task, hclass]

theorem task_knows (hclass : p.ctx.inClass = false) {x : String}
    (hx : x ∈ loopBoundNames target body) :
    (p.task (p.make id loc header target iter body expanded wanted)).Knows x := by
  rw [Knows, task_scope hclass]
  by_cases hg : p.ctx.scope.isModule = true ∨ x ∈ p.ctx.scope.globals
  · exact .inl (NameScope.mem_declare_globals.2 ⟨hx, hg⟩)
  · rw [not_or, Bool.not_eq_true] at hg
    exact .inr (NameScope.mem_declare_nonlocals.2 ⟨hx, hg⟩)

theorem task_wanted (hclass : p.ctx.inClass = false) {tasks : List MadeTask}
    (h : Stmt.UnfoldAllTo (p.task (p.make id loc header target iter body expanded wanted)) body expanded
      wanted tasks) : wanted = [] :=
  List.eq_nil_iff_forall_not_mem.2 fun x hx =>
    (wanted_of_unfolds h x hx).2.2
      (task_knows hclass (mem_loopBoundNames.2 (.inr (wanted_of_unfolds h x hx).2.1)))

theorem Sound.task {asked : List String} (h : p.Sound (loopBoundNames target body) asked)
    (hclass : p.ctx.inClass = false) :
    (p.task (p.make id loc header target iter body expanded wanted)).Sound (Stmt.boundAll body) [] where
  global_iff x hx := by
    have hbound : x ∈ loopBoundNames target body := mem_loopBoundNames.2 (.inr hx)
    rw [task_scope hclass]
    simp only [Bool.false_eq_true, false_or]
    exact NameScope.mem_declare_globals.trans
      ((and_iff_right hbound).trans (h.global_iff x hbound))
  offers _ := by
    refine ⟨_, rfl, fun x hx => ?_⟩
    rw [task_scope hclass] at hx
    rcases hx with hx | hx | hx
    · exact .inl hx
    · refine .inr (.inr (mem_declared_nonlocals.2 ?_))
      rw [MadeTask.asHost, MadeTask.declaredAll_code, has_append, has_append]
      exact .inr (.inl hx)
    · cases hx

theorem Sound.function {params : Params} {tasks : List MadeTask}
    (h : Stmt.UnfoldAllTo (p.function params body (.ofFunction loc params body expanded wanted)) body
      expanded wanted tasks) :
    (p.function params body (.ofFunction loc params body expanded wanted)).Sound (Stmt.boundAll body)
      wanted where
  global_iff x _ := or_iff_right Bool.false_ne_true
  offers _ := by
    refine ⟨_, rfl, fun x hx => ?_⟩
    rcases hx with hx | hx | hx
    · exact .inl hx
    · -- The function declares it outside of its loops, or it is put in front.
      have hdeclared := (has_declaredAll body).1 (mem_declared_nonlocals.1 hx)
      refine .inr (.inr (mem_declared_nonlocals.2 ?_))
      rw [HostFunction.ofFunction, declaredAll_insertAfterDoc, declaredAll_scopeStart, has_append,
        has_declared_of_unfolds h, has_hoistedDeclarations]
      have hkept : (p.function params body (.ofFunction loc params body expanded wanted)).ctx.dropping =
        false := rfl
      tauto
    · exact .inr (.inl ⟨loc, List.mem_append_right _
        (List.mem_map_of_mem (List.mem_eraseDups.2 hx))⟩)

end UnfoldPlace

/-! ### Tasks at any depth -/

inductive MadeTask.Arises : MadeTask → Prop
  | intro {p : UnfoldPlace} {id : Nat} {loc : Loc} {header : CallbackHeader} {target iter : Expr}
      {body expanded : List Stmt} {wanted : List String} {tasks : List MadeTask}
      (hclass : p.ctx.inClass = false)
      (hsound : p.Sound (loopBoundNames target body)
        (p.wants (p.ctx.scope.declare (loopBoundNames target body))))
      (hbody : Stmt.UnfoldAllTo (p.task (p.make id loc header target iter body expanded wanted)) body
        expanded wanted tasks) :
      Arises (p.make id loc header target iter body expanded wanted)

theorem arises_of_unfolds {p : UnfoldPlace} {body code : List Stmt} {wanted : List String}
    {tasks : List MadeTask} (h : Stmt.UnfoldAllTo p body code wanted tasks) :
    (p.ctx.inClass = false → p.Sound (Stmt.boundAll body) wanted) → ∀ m ∈ tasks, m.Arises := by
  refine h.induction (motive := fun p body _ wanted tasks =>
    (p.ctx.inClass = false → p.Sound (Stmt.boundAll body) wanted) → ∀ m ∈ tasks, m.Arises) ?nil ?append
    ?loop ?function ?class_ ?declaration ?inner
  case nil | declaration => intros; contradiction
  case append =>
    intro p s _ body _ w w' t t' hs hbody hsound
    refine List.forall_mem_append.2 ⟨hs fun hc => (hsound hc).mono ?_ ?_,
      hbody fun hc => (hsound hc).mono ?_ ?_⟩ <;> simp [Stmt.boundAll]
  case loop =>
    intro p loc header target iter body _ _ _ _ hclass _ hbody ih hsound
    have hloop := (hsound hclass).mono (List.Subset.trans (loopBoundNames_subset loc header target iter body)
      (List.subset_append_left ..)) (List.Subset.refl _)
    refine List.forall_mem_cons.2 ⟨.intro hclass hloop hbody, ih fun _ => ?_⟩
    rw [UnfoldPlace.task_wanted hclass hbody]
    exact hloop.task hclass
  case function => exact fun hbody ih _ => ih fun _ => .function hbody
  case class_ => exact fun ih _ => ih nofun
  case inner =>
    intro p s us hs hus hsound m hm
    obtain ⟨u, hu, hm⟩ := List.mem_flatMap.1 hm
    obtain ⟨b, hb, h⟩ := forall₂_mem_right hus hu
    refine h (fun hc => (hsound hc).mono ?_ fun _ h => List.mem_flatMap.2 ⟨u, hu, h⟩) m hm
    exact List.Subset.trans (boundAll_subset (Stmt.parts_of_isInner hs ▸ hb)) (List.subset_append_left ..)

/-! ### Modules -/

namespace MadeTask.Arises

variable {m : MadeTask}

theorem inserted_eq_nil (h : m.Arises) : m.inserted = [] := by
  obtain ⟨hclass, -, hbody⟩ := h
  rw [UnfoldPlace.make, UnfoldPlace.task_wanted hclass hbody]
  rfl

theorem declaredAll_expanded (h : m.Arises) : Stmt.declaredAll m.expanded = {} := by
  obtain ⟨hclass, -, hbody⟩ := h
  refine eq_empty fun g x hx => ?_
  have hkept := ((has_declared_of_unfolds hbody).1 hx).1
  rw [UnfoldPlace.task_dropping hclass] at hkept
  cases hkept

theorem code_eq (h : m.Arises) :
    m.code = declarations m.loc m.decls.globals m.decls.nonlocals ++ m.work := by
  rw [MadeTask.code, h.inserted_eq_nil, List.nil_append]

theorem declaredAll_code (h : m.Arises) : Stmt.declaredAll m.code = m.decls := by
  rw [MadeTask.declaredAll_code, h.inserted_eq_nil, h.declaredAll_expanded, append_empty,
    Stmt.declaredAll, empty_append]

theorem bound_of_has (h : m.Arises) {g : Bool} {x : String} (hx : m.decls.Has g x) :
    x ∈ loopBoundNames m.target m.body := by
  obtain ⟨hclass, hsound, hbody⟩ := h
  cases g with
  | true => exact (NameScope.mem_declare_globals.1 hx).1
  | false => exact (NameScope.mem_declare_nonlocals.1 hx).1

theorem mem_globals (h : m.Arises) {x : String} : x ∈ m.declared.globals ↔ x ∈ m.decls.globals := by
  rw [MadeTask.declared, mem_declared_globals, h.declaredAll_code]
  rfl

theorem mem_nonlocals (h : m.Arises) {x : String} :
    x ∈ m.declared.nonlocals ↔ x ∈ m.decls.nonlocals := by
  rw [MadeTask.declared, mem_declared_nonlocals, h.declaredAll_code]
  rfl

theorem apart (h : m.Arises) {x : String} (hx : x ∈ m.decls.globals) : x ∉ m.decls.nonlocals := by
  intro hx'
  obtain ⟨hclass, hsound, hbody⟩ := h
  obtain ⟨-, hmodule, hglobal⟩ := NameScope.mem_declare_nonlocals.1 hx'
  rcases (NameScope.mem_declare_globals.1 hx).2 with hx | hx
  · exact Bool.false_ne_true (hmodule.symm.trans hx)
  · exact hglobal hx

theorem grounded (h : m.Arises) : m.Grounded where
  apart x hx hx' := by
    rw [h.mem_globals] at hx
    rw [h.mem_nonlocals] at hx'
    exact h.apart hx hx'
  global_iff x hx := by
    rw [h.mem_globals]
    obtain ⟨hclass, hsound, hbody⟩ := h
    exact NameScope.mem_declare_globals.trans ((and_iff_right hx).trans (hsound.global_iff x hx))
  refers x hx := by
    rw [h.mem_nonlocals] at hx
    obtain ⟨hclass, hsound, hbody⟩ := h
    have hmodule := (NameScope.mem_declare_nonlocals.1 hx).2.1
    obtain ⟨host, hhost, hoffers⟩ := hsound.offers hmodule
    exact ⟨host, hhost, hoffers x (UnfoldPlace.nonlocal_cases hmodule hx)⟩
  bare := h.inserted_eq_nil

end MadeTask.Arises

theorem UnfoldPlace.sound_top (debug : Bool) (bound wanted : List String) :
    (UnfoldPlace.top debug).Sound bound wanted where
  global_iff _ _ := iff_of_true (.inl rfl) trivial
  offers h := nomatch h

theorem MakesTasks.arises {debug : Bool} {firstId : Nat} {body : List Stmt} {tasks : List MadeTask}
    (h : MakesTasks debug firstId body tasks) : ∀ m ∈ tasks, m.Arises := by
  obtain ⟨code, wanted, loc, hcode, -⟩ := h
  exact arises_of_unfolds hcode fun _ => UnfoldPlace.sound_top ..

theorem MakesTasks.length_eq {debug : Bool} {firstId : Nat} {body : List Stmt} {tasks : List MadeTask}
    (h : MakesTasks debug firstId body tasks) :
    tasks.length = (expandLoops debug firstId body).loops.length := by
  obtain ⟨-, -, -, -, hloops, -⟩ := h
  rw [hloops, List.length_map]

/-- In a module whose labels are resolved, the declarations of every task have something to refer
to. -/
theorem tasks_grounded {d : Display} {log : WarningLog} {source : Source} {body resolved : List Stmt}
    (hr : (source.resolve d log body).2 = .ok resolved) (debug : Bool) (firstId : Nat) :
    ∃ tasks, MakesTasks debug firstId resolved tasks ∧ ∀ m ∈ tasks, m.Grounded := by
  obtain ⟨hfit, rfl⟩ := fitAll_of_resolve hr
  obtain ⟨tasks, htasks⟩ := expandLoops_makesTasks debug firstId hfit
  exact ⟨tasks, htasks, fun m hm => (htasks.arises m hm).grounded⟩

/-- Loops in a function with a parameter, a global name and a variable that only they bind. -/
def nestedLoops : Source where
  text := "def f(p):\n global g\n cbit for x in h():\n  cbit for y in h():\n   p = g = z = y\n"

theorem tasks_grounded_nestedLoops : ∃ module resolved,
    parseSource false nestedLoops = .ok module ∧
    (nestedLoops.resolve {} {} module.body).2 = .ok resolved ∧
    ∃ tasks, MakesTasks false 1 resolved tasks ∧ tasks.length = 2 ∧ ∀ m ∈ tasks, m.Grounded := by
  have htest : (nestedLoops.parsed? false).any (fun body =>
      (nestedLoops.resolve {} {} body).2.toOption.any fun resolved =>
        (expandLoops false 1 resolved).loops.length == 2) = true := by
    decide +kernel
  obtain ⟨body, hbody, htest⟩ := (Option.any_eq_true _ _).1 htest
  obtain ⟨resolved, hresolved, hlength⟩ := (Option.any_eq_true _ _).1 htest
  obtain ⟨settings, hp⟩ := parseSource_of_parsed? (by simp [nestedLoops]) hbody
  have hr := eq_ok_of_toOption hresolved
  obtain ⟨tasks, htasks, hgrounded⟩ := tasks_grounded hr false 1
  exact ⟨⟨body, settings⟩, resolved, hp, hr, tasks, htasks,
    htasks.length_eq.trans (beq_iff_eq.1 hlength), hgrounded⟩

end LoopEscape
