import LoopEscape.Proofs.Expand.Relation
import LoopEscape.Proofs.Label.Fit
import LoopEscape.Proofs.Tree.Suites

/-!
# The tasks that expansion makes

Expansion goes through a module from the outside to the inside, and what it knows of a scope decides what
the tasks in it declare.  Here this is written down as a relation (`Stmt.UnfoldsTo`) between a statement
and what expansion makes of it: the code, the names for which the scope has to provide a variable, and the
tasks, each with the loop it was made for and the function that it stands in.
-/

namespace LoopEscape

open Generate

/-! ### Tasks and where they stand -/

inductive Owner
  | module
  | function (params : Params) (body : List Stmt)

/-- A function of the generated code: its parameters, the statements put in front of those it had, and
all its statements. -/
structure HostFunction where
  params : Params
  inserted : List Stmt
  code : List Stmt

structure MadeTask where
  owner : Owner
  /-- The function that directly contains the task; there is none at module level. -/
  host : Option HostFunction
  taxonomy : Taxonomy
  loc : Loc
  header : CallbackHeader
  target : Expr
  iter : Expr
  body : List Stmt
  decls : Declarations
  inserted : List Stmt
  expanded : List Stmt

namespace MadeTask

def params (m : MadeTask) : Params :=
  .mk [] ([m.taxonomy.names.item, m.taxonomy.names.slot].map fun n => .mk m.loc.span n none none)
    none [] none

def work (m : MadeTask) : List Stmt :=
  .assign m.loc [m.target] (load m.loc.span m.taxonomy.names.item) ::
    assign m.loc m.taxonomy.names.value (nothing m.loc.span) ::
    layers m.taxonomy m.loc m.header.label (orPass m.loc m.expanded)

def code (m : MadeTask) : List Stmt :=
  m.inserted ++ declarations m.loc m.decls.globals m.decls.nonlocals ++ m.work

def function (m : MadeTask) : Stmt :=
  .function m.loc false m.taxonomy.names.task m.params m.code [] none

def asHost (m : MadeTask) : HostFunction := ⟨m.params, m.inserted, m.code⟩

def entry (m : MadeTask) : Loc × Option LoopSummary :=
  (m.loc, LoopSummary.of? m.taxonomy m.loc m.header.toLoopHeader m.target m.iter m.decls)

end MadeTask

/-! ### The relation -/

structure UnfoldPlace where
  ctx : ExpandContext
  owner : Owner
  host : Option HostFunction

namespace UnfoldPlace

def top (debug : Bool) : UnfoldPlace := ⟨{ debug, scope := { isModule := true } }, .module, none⟩

def function (p : UnfoldPlace) (params : Params) (body : List Stmt) (host : HostFunction) : UnfoldPlace :=
  ⟨p.ctx.function params body, .function params body, some host⟩

def class_ (p : UnfoldPlace) : UnfoldPlace := { p with ctx := p.ctx.class_ }

def task (p : UnfoldPlace) (m : MadeTask) : UnfoldPlace :=
  ⟨p.ctx.task m.taxonomy m.decls m.body, p.owner, some m.asHost⟩

def wants (p : UnfoldPlace) (decls : Declarations) : List String :=
  if p.ctx.scope.isModule then [] else p.ctx.scope.missing decls

def make (p : UnfoldPlace) (id : Nat) (loc : Loc) (header : CallbackHeader) (target iter : Expr)
    (body expanded : List Stmt) (wanted : List String) : MadeTask where
  owner := p.owner
  host := p.host
  taxonomy := Taxonomy.of id header.toLoopHeader
  loc := loc
  header := header
  target := target
  iter := iter
  body := body
  decls := p.ctx.scope.declare (loopBoundNames target body)
  inserted := scopeStart loc {} wanted
  expanded := expanded

end UnfoldPlace

def HostFunction.ofFunction (loc : Loc) (params : Params) (body expanded : List Stmt) (wanted : List String) :
    HostFunction :=
  let start := scopeStart loc (hoistedDeclarations {} body) wanted
  ⟨params, start, insertAfterDoc start expanded⟩

mutual

/-- What a statement becomes: the code, the names asked for, and the tasks in the order of their
loops. -/
def Stmt.UnfoldsTo (p : UnfoldPlace) : Stmt → List Stmt → List String → List MadeTask → Prop
  | .callbackLoop loc header target iter body, code, wanted, tasks =>
    p.ctx.inClass = false ∧ ∃ id body' wanted' tasks',
      Stmt.UnfoldAllTo (p.task (p.make id loc header target iter body body' wanted')) body body' wanted'
        tasks' ∧
      code = (p.make id loc header target iter body body' wanted').function ::
        dispatch (Taxonomy.of id header.toLoopHeader) loc header iter (!p.ctx.scope.isModule)
          p.ctx.debug ∧
      wanted = p.wants (p.ctx.scope.declare (loopBoundNames target body)) ∧
      tasks = p.make id loc header target iter body body' wanted' :: tasks'
  | .function loc isAsync name params body decorators returns, code, wanted, tasks =>
    wanted = [] ∧ ∃ body' wanted',
      Stmt.UnfoldAllTo (p.function params body (.ofFunction loc params body body' wanted')) body body'
        wanted' tasks ∧
      code = [.function loc isAsync name params (HostFunction.ofFunction loc params body body' wanted').code
        decorators returns]
  | .class_ loc name bases keywords body decorators, code, wanted, tasks =>
    ∃ body', Stmt.UnfoldAllTo p.class_ body body' wanted tasks ∧
      code = [.class_ loc name bases keywords body' decorators]
  | .global loc names, code, wanted, tasks =>
    code = (if p.ctx.dropping then [] else [.global loc names]) ∧ wanted = [] ∧ tasks = []
  | .nonlocal loc names, code, wanted, tasks =>
    code = (if p.ctx.dropping then [] else [.nonlocal loc names]) ∧ wanted = [] ∧ tasks = []
  | .for_ loc isAsync mark target iter body orElse, code, wanted, tasks =>
    ∃ body' w₁ t₁ orElse' w₂ t₂, Stmt.UnfoldAllTo p body body' w₁ t₁ ∧
      Stmt.UnfoldAllTo p orElse orElse' w₂ t₂ ∧
      code = [.for_ loc isAsync mark target iter (orPass loc body') orElse'] ∧
      wanted = w₁ ++ w₂ ∧ tasks = t₁ ++ t₂
  | .while_ loc mark test body orElse, code, wanted, tasks =>
    ∃ body' w₁ t₁ orElse' w₂ t₂, Stmt.UnfoldAllTo p body body' w₁ t₁ ∧
      Stmt.UnfoldAllTo p orElse orElse' w₂ t₂ ∧
      code = [.while_ loc mark test (orPass loc body') orElse'] ∧
      wanted = w₁ ++ w₂ ∧ tasks = t₁ ++ t₂
  | .if_ loc test body orElse, code, wanted, tasks =>
    ∃ body' w₁ t₁ orElse' w₂ t₂, Stmt.UnfoldAllTo p body body' w₁ t₁ ∧
      Stmt.UnfoldAllTo p orElse orElse' w₂ t₂ ∧
      code = [.if_ loc test (orPass loc body') orElse'] ∧ wanted = w₁ ++ w₂ ∧ tasks = t₁ ++ t₂
  | .with_ loc isAsync items body, code, wanted, tasks =>
    ∃ body', Stmt.UnfoldAllTo p body body' wanted tasks ∧
      code = [.with_ loc isAsync items (orPass loc body')]
  | .match_ loc subject cases, code, wanted, tasks =>
    ∃ cases', MatchCase.UnfoldAllTo p loc cases cases' wanted tasks ∧
      code = [.match_ loc subject cases']
  | .try_ loc isStar body handlers orElse final, code, wanted, tasks =>
    ∃ body' w₁ t₁ handlers' w₂ t₂ orElse' w₃ t₃ final' w₄ t₄,
      Stmt.UnfoldAllTo p body body' w₁ t₁ ∧ Handler.UnfoldAllTo p handlers handlers' w₂ t₂ ∧
      Stmt.UnfoldAllTo p orElse orElse' w₃ t₃ ∧ Stmt.UnfoldAllTo p final final' w₄ t₄ ∧
      code = [.try_ loc isStar (orPass loc body') handlers' orElse' final'] ∧
      wanted = w₁ ++ (w₂ ++ (w₃ ++ w₄)) ∧ tasks = t₁ ++ (t₂ ++ (t₃ ++ t₄))
  | .block loc label target body, code, wanted, tasks =>
    ∃ body', Stmt.UnfoldAllTo p body body' wanted tasks ∧
      code = [.block loc label target (orPass loc body')]
  | s, code, wanted, tasks => code = [s] ∧ wanted = [] ∧ tasks = []
termination_by structural s => s

def Stmt.UnfoldAllTo (p : UnfoldPlace) : List Stmt → List Stmt → List String → List MadeTask → Prop
  | [], code, wanted, tasks => code = [] ∧ wanted = [] ∧ tasks = []
  | s :: rest, code, wanted, tasks =>
    ∃ c₁ w₁ t₁ c₂ w₂ t₂, Stmt.UnfoldsTo p s c₁ w₁ t₁ ∧ Stmt.UnfoldAllTo p rest c₂ w₂ t₂ ∧
      code = c₁ ++ c₂ ∧ wanted = w₁ ++ w₂ ∧ tasks = t₁ ++ t₂
termination_by structural body => body

def Handler.UnfoldAllTo (p : UnfoldPlace) :
    List Handler → List Handler → List String → List MadeTask → Prop
  | [], code, wanted, tasks => code = [] ∧ wanted = [] ∧ tasks = []
  | .mk loc type name body :: rest, code, wanted, tasks =>
    ∃ body' w₁ t₁ rest' w₂ t₂, Stmt.UnfoldAllTo p body body' w₁ t₁ ∧
      Handler.UnfoldAllTo p rest rest' w₂ t₂ ∧ code = .mk loc type name (orPass loc body') :: rest' ∧
      wanted = w₁ ++ w₂ ∧ tasks = t₁ ++ t₂
termination_by structural handlers => handlers

def MatchCase.UnfoldAllTo (p : UnfoldPlace) (loc : Loc) :
    List MatchCase → List MatchCase → List String → List MadeTask → Prop
  | [], code, wanted, tasks => code = [] ∧ wanted = [] ∧ tasks = []
  | .mk pattern guard body :: rest, code, wanted, tasks =>
    ∃ body' w₁ t₁ rest' w₂ t₂, Stmt.UnfoldAllTo p body body' w₁ t₁ ∧
      MatchCase.UnfoldAllTo p loc rest rest' w₂ t₂ ∧
      code = .mk pattern guard (orPass loc body') :: rest' ∧ wanted = w₁ ++ w₂ ∧ tasks = t₁ ++ t₂
termination_by structural cases => cases

end

/-! ### Statement by statement -/

structure UnfoldedSuite where
  code : List Stmt
  wanted : List String
  tasks : List MadeTask

section

variable {p : UnfoldPlace} {body code : List Stmt} {wanted : List String} {tasks : List MadeTask}

theorem unfoldHandlers_suites {handlers handlers' : List Handler}
    (h : Handler.UnfoldAllTo p handlers handlers' wanted tasks) : ∃ us : List UnfoldedSuite,
      List.Forall₂ (fun b u => Stmt.UnfoldAllTo p b u.code u.wanted u.tasks) (handlers.map Handler.body) us ∧
      handlers' = handlers.zipWith (fun h b => h.mapBody fun loc _ => orPass loc b) (us.map (·.code)) ∧
      wanted = us.flatMap (·.wanted) ∧ tasks = us.flatMap (·.tasks) := by
  induction handlers generalizing handlers' wanted tasks with
  | nil =>
    obtain ⟨rfl, rfl, rfl⟩ := h
    exact ⟨[], .nil, rfl, rfl, rfl⟩
  | cons h₀ handlers ih =>
    cases h₀
    obtain ⟨b, w, t, rest', w', t', hb, hrest, rfl, rfl, rfl⟩ := h
    obtain ⟨us, hus, rfl, rfl, rfl⟩ := ih hrest
    exact ⟨⟨b, w, t⟩ :: us, .cons hb hus, rfl, rfl, rfl⟩

theorem unfoldCases_suites {cases cases' : List MatchCase} {loc : Loc}
    (h : MatchCase.UnfoldAllTo p loc cases cases' wanted tasks) : ∃ us : List UnfoldedSuite,
      List.Forall₂ (fun b u => Stmt.UnfoldAllTo p b u.code u.wanted u.tasks) (cases.map MatchCase.body) us ∧
      cases' = cases.zipWith (fun c b => c.mapBody fun _ => orPass loc b) (us.map (·.code)) ∧
      wanted = us.flatMap (·.wanted) ∧ tasks = us.flatMap (·.tasks) := by
  induction cases generalizing cases' wanted tasks with
  | nil =>
    obtain ⟨rfl, rfl, rfl⟩ := h
    exact ⟨[], .nil, rfl, rfl, rfl⟩
  | cons c cases ih =>
    cases c
    obtain ⟨b, w, t, rest', w', t', hb, hrest, rfl, rfl, rfl⟩ := h
    obtain ⟨us, hus, rfl, rfl, rfl⟩ := ih hrest
    exact ⟨⟨b, w, t⟩ :: us, .cons hb hus, rfl, rfl, rfl⟩

theorem Stmt.UnfoldsTo.suites {s : Stmt} (hs : s.isInner = true) (h : s.UnfoldsTo p code wanted tasks) :
    ∃ us : List UnfoldedSuite,
      List.Forall₂ (fun b u => Stmt.UnfoldAllTo p b u.code u.wanted u.tasks) s.bodies us ∧
      code = [s.refill orPass (us.map (·.code))] ∧ wanted = us.flatMap (·.wanted) ∧
      tasks = us.flatMap (·.tasks) := by
  cases s with
  | function | class_ | callbackLoop | global | nonlocal => cases hs
  | for_ | while_ | if_ =>
    obtain ⟨b, w, t, o, w', t', hb, ho, rfl, rfl, rfl⟩ := h
    exact ⟨[⟨b, w, t⟩, ⟨o, w', t'⟩], .cons hb (.cons ho .nil), rfl, by simp, by simp⟩
  | with_ | block =>
    obtain ⟨b, hb, rfl⟩ := h
    exact ⟨[⟨b, wanted, tasks⟩], .cons hb .nil, rfl, by simp, by simp⟩
  | match_ =>
    obtain ⟨cases', hcases, rfl⟩ := h
    obtain ⟨us, hus, rfl, hw, ht⟩ := unfoldCases_suites hcases
    exact ⟨us, hus, rfl, hw, ht⟩
  | try_ loc isStar body handlers orElse final =>
    obtain ⟨b, w₁, t₁, hs', w₂, t₂, o, w₃, t₃, f, w₄, t₄, hb, hh, ho, hf, rfl, rfl, rfl⟩ := h
    obtain ⟨us, hus, rfl, rfl, rfl⟩ := unfoldHandlers_suites hh
    have hlen : (us.map (·.code)).length = handlers.length := by
      rw [List.length_map, ← hus.length_eq, List.length_map]
    refine ⟨⟨b, w₁, t₁⟩ :: (us ++ [⟨o, w₃, t₃⟩, ⟨f, w₄, t₄⟩]), ?_, ?_, by simp, by simp⟩
    · exact .cons hb (List.rel_append hus (.cons ho (.cons hf .nil)))
    · exact congrArg ([·]) ((congrArg _ (by simp)).trans (Stmt.refill_try hlen)).symm
  | _ =>
    obtain ⟨rfl, rfl, rfl⟩ := h
    exact ⟨[], .nil, rfl, rfl, rfl⟩

theorem Stmt.UnfoldAllTo.induction
    {motive : UnfoldPlace → List Stmt → List Stmt → List String → List MadeTask → Prop}
    (h : Stmt.UnfoldAllTo p body code wanted tasks) (nil : ∀ p, motive p [] [] [] [])
    (append : ∀ {p s code body code' w w' t t'}, motive p [s] code w t → motive p body code' w' t' →
      motive p (s :: body) (code ++ code') (w ++ w') (t ++ t'))
    (loop : ∀ {p loc header target iter body id body' wanted tasks}, p.ctx.inClass = false →
      let m := p.make id loc header target iter body body' wanted
      Stmt.UnfoldAllTo (p.task m) body body' wanted tasks → motive (p.task m) body body' wanted tasks →
      motive p [.callbackLoop loc header target iter body]
        (m.function :: dispatch m.taxonomy loc header iter (!p.ctx.scope.isModule) p.ctx.debug)
        (p.wants m.decls) (m :: tasks))
    (function : ∀ {p loc isAsync name params body decorators returns body' wanted tasks},
      let host := HostFunction.ofFunction loc params body body' wanted
      Stmt.UnfoldAllTo (p.function params body host) body body' wanted tasks →
      motive (p.function params body host) body body' wanted tasks →
      motive p [.function loc isAsync name params body decorators returns]
        [.function loc isAsync name params host.code decorators returns] [] tasks)
    (class_ : ∀ {p loc name bases keywords body decorators body' wanted tasks},
      motive p.class_ body body' wanted tasks →
      motive p [.class_ loc name bases keywords body decorators]
        [.class_ loc name bases keywords body' decorators] wanted tasks)
    (declaration : ∀ {p s}, s.isInner = false → s.bodies = [] →
      motive p [s] (if p.ctx.dropping then [] else [s]) [] [])
    (inner : ∀ {p s} {us : List UnfoldedSuite}, s.isInner = true →
      List.Forall₂ (fun b u => motive p b u.code u.wanted u.tasks) s.bodies us →
      motive p [s] [s.refill orPass (us.map (·.code))] (us.flatMap (·.wanted)) (us.flatMap (·.tasks))) :
    motive p body code wanted tasks := by
  induction body using Stmt.suite_induction generalizing p code wanted tasks with
  | nil =>
    obtain ⟨rfl, rfl, rfl⟩ := h
    exact nil p
  | cons s rest ih ihrest =>
    obtain ⟨c, w, t, c', w', t', hs, hrest, rfl, rfl, rfl⟩ := h
    refine append ?_ (ihrest hrest)
    cases hinner : s.isInner with
    | true =>
      obtain ⟨us, hus, rfl, rfl, rfl⟩ := hs.suites hinner
      exact inner hinner (((List.forall₂_and_left _ _).2 ⟨ih, hus⟩).imp fun _ _ h => h.1 h.2)
    | false =>
      cases s with
      | callbackLoop =>
        obtain ⟨hclass, id, b, w, t, hb, rfl, rfl, rfl⟩ := hs
        exact loop hclass hb (ih _ (.head _) hb)
      | function =>
        obtain ⟨rfl, b, w, hb, rfl⟩ := hs
        exact function hb (ih _ (.head _) hb)
      | class_ =>
        obtain ⟨b, hb, rfl⟩ := hs
        exact class_ (ih _ (.head _) hb)
      | global | nonlocal =>
        obtain ⟨rfl, rfl, rfl⟩ := hs
        exact declaration rfl rfl
      | _ => cases hinner

end

/-! ### What work adds -/

/-- Whatever was there before, the work adds names asked for and entries of the record, and these and the
result are as specified. -/
def Expand.Adds {α : Type} (work : Expand α)
    (spec : α → List String → List (Loc × Option LoopSummary) → Prop) : Prop :=
  ∀ s, ∃ wanted entries, (work s).2.wanted = s.wanted ++ wanted ∧
    (work s).2.loops = entries.reverse ++ s.loops ∧ spec (work s).1 wanted entries

namespace Expand.Adds

variable {α β : Type} {P : α → List String → List (Loc × Option LoopSummary) → Prop}
  {R : β → List String → List (Loc × Option LoopSummary) → Prop}

theorem pure {a : α} (h : P a [] []) : Expand.Adds (pure a) P := fun _ =>
  ⟨[], [], (List.append_nil _).symm, rfl, h⟩

theorem bind {work : Expand α} {next : α → Expand β} (h : work.Adds P)
    (h' : ∀ a, (next a).Adds fun b w e => ∀ w' e', P a w' e' → R b (w' ++ w) (e' ++ e)) :
    (work >>= next).Adds R := by
  intro s
  obtain ⟨w', e', hw', he', hP⟩ := h s
  obtain ⟨w, e, hw, he, hR⟩ := h' (work s).1 (work s).2
  refine ⟨w' ++ w, e' ++ e, hw.trans ?_, he.trans ?_, hR w' e' hP⟩
  · rw [hw', List.append_assoc]
  · rw [he', List.reverse_append, List.append_assoc]

theorem freshId {next : Nat → Expand β} (h : ∀ id, (next id).Adds R) :
    (Expand.freshId >>= next).Adds R :=
  fun s => h s.nextId { s with nextId := s.nextId + 1 }

theorem want {c : Bool} {names : List String} {next : Unit → Expand β}
    (h : (next ()).Adds fun b w e => R b ((if c then [] else names) ++ w) e) :
    Expand.Adds (if (!c) = true then Expand.want names >>= next else next ()) R := by
  cases c with
  | true => exact h
  | false =>
    intro s
    obtain ⟨w, e, hw, he, hR⟩ := h { s with wanted := s.wanted ++ names }
    exact ⟨names ++ w, e, hw.trans (List.append_assoc ..), he, hR⟩

theorem record {loc : Loc} {summary : Option LoopSummary} {next : Unit → Expand β}
    (h : (next ()).Adds fun b w e => R b w ((loc, summary) :: e)) :
    (Expand.record loc summary >>= next).Adds R := by
  intro s
  obtain ⟨w, e, hw, he, hR⟩ := h { s with loops := (loc, summary) :: s.loops }
  refine ⟨w, (loc, summary) :: e, hw, he.trans ?_, hR⟩
  rw [List.reverse_cons, List.append_assoc]
  rfl

theorem inScope {work : Expand α} (h : work.Adds P) :
    (Expand.inScope work).Adds fun r w e => w = [] ∧ P r.1 r.2 e := by
  intro s
  obtain ⟨w, e, hw, he, hP⟩ := h { s with wanted := [] }
  refine ⟨[], e, (List.append_nil _).symm, he, rfl, ?_⟩
  rw [show (Expand.inScope work s).1.2 = w from hw]
  exact hP

end Expand.Adds

/-! ### Expansion -/

/-- The entries are those of tasks with which a relation holds, whatever is around. -/
abbrev Traced {α : Type} (R : Owner → Option HostFunction → α → List String → List MadeTask → Prop) (a : α)
    (wanted : List String) (entries : List (Loc × Option LoopSummary)) : Prop :=
  ∀ owner host, ∃ tasks, tasks.map MadeTask.entry = entries ∧ R owner host a wanted tasks

abbrev Unfolded (ctx : ExpandContext) (s : Stmt) (code : List Stmt) (wanted : List String)
    (entries : List (Loc × Option LoopSummary)) : Prop :=
  ∀ owner host, ∃ tasks, tasks.map MadeTask.entry = entries ∧
    s.UnfoldsTo ⟨ctx, owner, host⟩ code wanted tasks

abbrev UnfoldedAll (ctx : ExpandContext) (body code : List Stmt) (wanted : List String)
    (entries : List (Loc × Option LoopSummary)) : Prop :=
  ∀ owner host, ∃ tasks, tasks.map MadeTask.entry = entries ∧
    Stmt.UnfoldAllTo ⟨ctx, owner, host⟩ body code wanted tasks

section

variable {α β γ : Type} {R : Owner → Option HostFunction → α → List String → List MadeTask → Prop}
  {R' : Owner → Option HostFunction → β → List String → List MadeTask → Prop}
  {Q : Owner → Option HostFunction → γ → List String → List MadeTask → Prop}

theorem Expand.Adds.one {work : Expand α} {put : α → γ} (h : work.Adds (Traced R))
    (hput : ∀ {owner host a w t}, R owner host a w t → Q owner host (put a) w t) :
    Expand.Adds (work >>= fun a => Pure.pure (put a)) (Traced Q) := by
  refine .bind h fun a => .pure fun w e ha owner host => ?_
  obtain ⟨tasks, rfl, hR⟩ := ha owner host
  rw [List.append_nil, List.append_nil]
  exact ⟨tasks, rfl, hput hR⟩

theorem Expand.Adds.two {work : Expand α} {next : Expand β} {put : α → β → γ} (h : work.Adds (Traced R))
    (h' : next.Adds (Traced R')) (hput : ∀ {owner host a w t b w' t'}, R owner host a w t →
      R' owner host b w' t' → Q owner host (put a b) (w ++ w') (t ++ t')) :
    Expand.Adds (work >>= fun a => next >>= fun b => Pure.pure (put a b)) (Traced Q) := by
  refine .bind h fun a => .bind h' fun b => .pure fun w' e' hb w e ha owner host => ?_
  obtain ⟨t, rfl, hR⟩ := ha owner host
  obtain ⟨t', rfl, hR'⟩ := hb owner host
  rw [List.append_nil, List.append_nil]
  exact ⟨t ++ t', List.map_append, hput hR hR'⟩

end

mutual

theorem expand_unfolds (s : Stmt) (ctx : ExpandContext) (scope : LabelScope)
    (hk : ctx.inClass = true → scope.kind = .class_) (hf : s.Fits scope) :
    (Stmt.expand ctx (s.noteLabels scope)).Adds (Unfolded ctx (s.noteLabels scope)) := by
  cases s with
  | callbackLoop loc header target iter body =>
    obtain ⟨hkind, escapes, hescapes, hf⟩ := hf
    rw [← enterHeader_eq hescapes] at hf
    have hclass : ctx.inClass = false := Bool.eq_false_iff.2 fun h => hkind (hk h)
    rw [Stmt.noteLabels, Stmt.expand]
    refine .freshId fun id => .want (.record (.bind (.inScope (expandAll_unfolds body _ _ nofun hf)) ?_))
    rintro ⟨body', wanted⟩
    refine .pure ?_
    rintro w e ⟨rfl, hb⟩ owner host
    let p : UnfoldPlace := ⟨ctx, owner, host⟩
    let m := p.make id loc (escapeValues scope header) target iter
      (Stmt.noteAll (scope.enterHeader header) body) body' wanted
    obtain ⟨tasks, rfl, hbody⟩ := hb owner (some m.asHost)
    refine ⟨m :: tasks, by simp [m, p, MadeTask.entry, UnfoldPlace.make], ?_⟩
    have hhoisted : ∀ decls body, ctx.taskHoisted decls body = {} := fun decls body => by
      rw [ExpandContext.taskHoisted, hclass, if_neg (by decide)]
    rw [Stmt.UnfoldsTo, hhoisted]
    exact ⟨hclass, id, body', wanted, tasks, hbody, rfl, by simp [UnfoldPlace.wants], rfl⟩
  | function loc isAsync name params body decorators returns =>
    rw [Stmt.noteLabels, Stmt.expand]
    refine .bind (.inScope (expandAll_unfolds body _ { kind := .function } nofun hf)) ?_
    rintro ⟨body', wanted⟩
    refine .pure ?_
    rintro w e ⟨rfl, hb⟩ owner host
    obtain ⟨tasks, rfl, hbody⟩ := hb (.function params _) (some (.ofFunction loc params _ body' wanted))
    refine ⟨tasks, (List.append_nil _).symm, ?_⟩
    rw [Stmt.UnfoldsTo]
    exact ⟨rfl, body', wanted, hbody, rfl⟩
  | class_ loc name bases keywords body decorators =>
    rw [Stmt.noteLabels, Stmt.expand]
    exact .one (expandAll_unfolds body ctx.class_ { kind := .class_ } (fun _ => rfl) hf)
      fun hb => ⟨_, hb, rfl⟩
  | for_ loc isAsync mark target iter body orElse | while_ loc mark test body orElse =>
    rw [Stmt.noteLabels, Stmt.expand]
    exact .two (expandAll_unfolds body ctx (scope.enterLoop mark.label) hk hf.1)
      (expandAll_unfolds orElse ctx scope hk hf.2) fun hb ho => ⟨_, _, _, _, _, _, hb, ho, rfl, rfl, rfl⟩
  | if_ loc test body orElse =>
    rw [Stmt.noteLabels, Stmt.expand]
    exact .two (expandAll_unfolds body ctx scope hk hf.1) (expandAll_unfolds orElse ctx scope hk hf.2)
      fun hb ho => ⟨_, _, _, _, _, _, hb, ho, rfl, rfl, rfl⟩
  | with_ loc isAsync items body =>
    rw [Stmt.noteLabels, Stmt.expand]
    exact .one (expandAll_unfolds body ctx scope hk hf) fun hb => ⟨_, hb, rfl⟩
  | match_ loc subject cases =>
    rw [Stmt.noteLabels, Stmt.expand]
    exact .one (expandCases_unfolds cases ctx scope loc hk hf) fun hc => ⟨_, hc, rfl⟩
  | try_ loc isStar body handlers orElse final =>
    rw [Stmt.noteLabels, Stmt.expand]
    refine .bind (expandAll_unfolds body ctx scope hk hf.1) fun body' =>
      .bind (expandHandlers_unfolds handlers ctx scope hk hf.2.1) fun handlers' =>
      .bind (expandAll_unfolds orElse ctx scope hk hf.2.2.1) fun orElse' =>
      .bind (expandAll_unfolds final ctx scope hk hf.2.2.2) fun final' => .pure ?_
    intro w₄ e₄ hfin w₃ e₃ ho w₂ e₂ hh w₁ e₁ hb owner host
    obtain ⟨t₁, rfl, hbody⟩ := hb owner host
    obtain ⟨t₂, rfl, hhandlers⟩ := hh owner host
    obtain ⟨t₃, rfl, helse⟩ := ho owner host
    obtain ⟨t₄, rfl, hfinal⟩ := hfin owner host
    rw [List.append_nil, List.append_nil]
    refine ⟨t₁ ++ (t₂ ++ (t₃ ++ t₄)), by simp only [List.map_append], ?_⟩
    rw [Stmt.UnfoldsTo]
    exact ⟨body', w₁, t₁, handlers', w₂, t₂, orElse', w₃, t₃, final', w₄, t₄, hbody, hhandlers, helse,
      hfinal, rfl, rfl, rfl⟩
  | block loc label target body =>
    rw [Stmt.noteLabels, Stmt.expand]
    exact .one (expandAll_unfolds body ctx (scope.enterBlock label) hk hf) fun hb => ⟨_, hb, rfl⟩
  | _ =>
    simp only [Stmt.noteLabels, Stmt.expand]
    exact .pure fun _ _ => ⟨[], rfl, rfl, rfl, rfl⟩

theorem expandAll_unfolds : ∀ (body : List Stmt) (ctx : ExpandContext) (scope : LabelScope),
    (ctx.inClass = true → scope.kind = .class_) → Stmt.FitAll scope body →
    (Stmt.expandAll ctx (Stmt.noteAll scope body)).Adds (UnfoldedAll ctx (Stmt.noteAll scope body))
  | [], ctx, scope, _, _ => by
    simp only [Stmt.noteAll, Stmt.expandAll]
    exact .pure fun _ _ => ⟨[], rfl, rfl, rfl, rfl⟩
  | s :: rest, ctx, scope, hk, hf => by
    rw [Stmt.noteAll, Stmt.expandAll]
    exact .two (expand_unfolds s ctx scope hk hf.1) (expandAll_unfolds rest ctx scope hk hf.2)
      fun hs hr => ⟨_, _, _, _, _, _, hs, hr, rfl, rfl, rfl⟩

theorem expandHandlers_unfolds : ∀ (handlers : List Handler) (ctx : ExpandContext) (scope : LabelScope),
    (ctx.inClass = true → scope.kind = .class_) → Handler.FitAll scope handlers →
    (Handler.expandAll ctx (Handler.noteAll scope handlers)).Adds
      (Traced fun owner host => Handler.UnfoldAllTo ⟨ctx, owner, host⟩ (Handler.noteAll scope handlers))
  | [], ctx, scope, _, _ => by
    simp only [Handler.noteAll, Handler.expandAll, Handler.UnfoldAllTo]
    exact .pure fun _ _ => ⟨[], rfl, rfl, rfl, rfl⟩
  | .mk loc type name body :: rest, ctx, scope, hk, hf => by
    rw [Handler.noteAll, Handler.expandAll]
    exact .two (expandAll_unfolds body ctx scope hk hf.1) (expandHandlers_unfolds rest ctx scope hk hf.2)
      fun hb hr => ⟨_, _, _, _, _, _, hb, hr, rfl, rfl, rfl⟩

theorem expandCases_unfolds : ∀ (cases : List MatchCase) (ctx : ExpandContext) (scope : LabelScope)
    (loc : Loc), (ctx.inClass = true → scope.kind = .class_) → MatchCase.FitAll scope cases →
    (MatchCase.expandAll ctx loc (MatchCase.noteAll scope cases)).Adds
      (Traced fun owner host => MatchCase.UnfoldAllTo ⟨ctx, owner, host⟩ loc (MatchCase.noteAll scope cases))
  | [], ctx, scope, loc, _, _ => by
    simp only [MatchCase.noteAll, MatchCase.expandAll, MatchCase.UnfoldAllTo]
    exact .pure fun _ _ => ⟨[], rfl, rfl, rfl, rfl⟩
  | .mk pattern guard body :: rest, ctx, scope, loc, hk, hf => by
    rw [MatchCase.noteAll, MatchCase.expandAll]
    exact .two (expandAll_unfolds body ctx scope hk hf.1) (expandCases_unfolds rest ctx scope loc hk hf.2)
      fun hb hr => ⟨_, _, _, _, _, _, hb, hr, rfl, rfl, rfl⟩

end

/-! ### Modules -/

/-- Expansion makes these tasks of a module, one for each loop that it records: the code has been made
with them, and then got the declarations of loops and the import that it needs in front. -/
def MakesTasks (debug : Bool) (firstId : Nat) (body : List Stmt) (tasks : List MadeTask) : Prop :=
  ∃ code wanted loc, Stmt.UnfoldAllTo (.top debug) body code wanted tasks ∧
    (expandLoops debug firstId body).loops = tasks.map MadeTask.entry ∧
    (expandLoops debug firstId body).body =
      let started := insertAfterDoc (scopeStart loc (hoistedDeclarations {} body) []) code
      if tasks.isEmpty then started else (ensureImport started).1

theorem expandLoops_makesTasks (debug : Bool) (firstId : Nat) {module : List Stmt}
    (hf : Stmt.FitAll LabelScope.top module) :
    ∃ tasks, MakesTasks debug firstId (resolveLabels module) tasks := by
  let ctx : ExpandContext := { debug, scope := { isModule := true } }
  let r := Stmt.expandAll ctx (resolveLabels module) { nextId := firstId }
  obtain ⟨wanted, entries, -, hloops, hmade⟩ :=
    expandAll_unfolds module ctx LabelScope.top nofun hf { nextId := firstId }
  obtain ⟨tasks, rfl, hcode⟩ := hmade .module none
  rw [List.append_nil] at hloops
  refine ⟨tasks, r.1, wanted, (r.1.head?.map (·.loc)).getD default, hcode, ?_, ?_⟩
  · show r.2.loops.reverse = _
    rw [show r.2.loops = _ from hloops, List.reverse_reverse]
  · show (if r.2.loops.isEmpty then _ else _) = _
    rw [show r.2.loops = _ from hloops]
    cases tasks <;> simp <;> rfl

end LoopEscape
