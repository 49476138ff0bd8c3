import LoopEscape.Generate.Expand
import LoopEscape.Label.Resolve
import LoopEscape.Proofs.Tree.Suites

/-!
# What expansion makes of statements

Expansion numbers the callback loops and collects names on its way.  What it makes of a statement whose
labels are resolved is described here up to these numbers and names, as a relation
(`Stmt.ExpandsTo`).  The relation speaks of the statement as it was before labels were resolved, in the
scope that it stands in.
-/

namespace LoopEscape

open Generate

/-! ### The relation -/

structure ExpandPlace where
  /-- Whether the module imports the support module: so it is once there is a callback loop. -/
  imported : Bool
  debug : Bool
  inFunction : Bool
  inClass : Bool
  dropping : Bool

namespace ExpandPlace

def function (p : ExpandPlace) : ExpandPlace := ⟨p.imported, p.debug, true, false, false⟩

def class_ (p : ExpandPlace) : ExpandPlace := { p with inClass := true, dropping := false }

def task (p : ExpandPlace) : ExpandPlace :=
  ⟨p.imported, p.debug, true, false, !p.inClass⟩

end ExpandPlace

def ExpandContext.place (ctx : ExpandContext) (imported : Bool) : ExpandPlace :=
  ⟨imported, ctx.debug, !ctx.scope.isModule, ctx.inClass, ctx.dropping⟩

mutual

def Stmt.ExpandsTo (p : ExpandPlace) (scope : LabelScope) : Stmt → List Stmt → Prop
  | .callbackLoop loc header target iter body, out =>
    p.imported = true ∧ ∃ id decls hoisted wanted body',
      Stmt.ExpandAllTo p.task (scope.enterHeader header) body body' ∧
      out = task (Taxonomy.of id header.toLoopHeader) loc header.label decls target
          (scopeStart loc hoisted wanted) (orPass loc body') ::
        dispatch (Taxonomy.of id header.toLoopHeader) loc (escapeValues scope header) iter
          p.inFunction p.debug
  | .function loc isAsync name params body decorators returns, out =>
    ∃ hoisted wanted body', Stmt.ExpandAllTo p.function { kind := .function } body body' ∧
      out = [.function loc isAsync name params
        (insertAfterDoc (scopeStart loc hoisted wanted) body') decorators returns]
  | .class_ loc name bases keywords body decorators, out =>
    ∃ body', Stmt.ExpandAllTo p.class_ { kind := .class_ } body body' ∧
      out = [.class_ loc name bases keywords body' decorators]
  | .global loc names, out => out = if p.dropping then [] else [.global loc names]
  | .nonlocal loc names, out => out = if p.dropping then [] else [.nonlocal loc names]
  | .for_ loc isAsync mark target iter body orElse, out =>
    ∃ body' orElse', Stmt.ExpandAllTo p (scope.enterLoop mark.label) body body' ∧
      Stmt.ExpandAllTo p scope orElse orElse' ∧
      out = [.for_ loc isAsync mark target iter (orPass loc body') orElse']
  | .while_ loc mark test body orElse, out =>
    ∃ body' orElse', Stmt.ExpandAllTo p (scope.enterLoop mark.label) body body' ∧
      Stmt.ExpandAllTo p scope orElse orElse' ∧
      out = [.while_ loc mark test (orPass loc body') orElse']
  | .if_ loc test body orElse, out =>
    ∃ body' orElse', Stmt.ExpandAllTo p scope body body' ∧
      Stmt.ExpandAllTo p scope orElse orElse' ∧ out = [.if_ loc test (orPass loc body') orElse']
  | .with_ loc isAsync items body, out =>
    ∃ body', Stmt.ExpandAllTo p scope body body' ∧
      out = [.with_ loc isAsync items (orPass loc body')]
  | .match_ loc subject cases, out =>
    ∃ cases', MatchCase.ExpandAllTo p scope loc cases cases' ∧ out = [.match_ loc subject cases']
  | .try_ loc isStar body handlers orElse final, out =>
    ∃ body' handlers' orElse' final', Stmt.ExpandAllTo p scope body body' ∧
      Handler.ExpandAllTo p scope handlers handlers' ∧
      Stmt.ExpandAllTo p scope orElse orElse' ∧ Stmt.ExpandAllTo p scope final final' ∧
      out = [.try_ loc isStar (orPass loc body') handlers' orElse' final']
  | .block loc label target body, out =>
    ∃ body', Stmt.ExpandAllTo p (scope.enterBlock label) body body' ∧
      out = [.block loc label target (orPass loc body')]
  | s, out => out = [s]
termination_by structural s => s

def Stmt.ExpandAllTo (p : ExpandPlace) (scope : LabelScope) : List Stmt → List Stmt → Prop
  | [], out => out = []
  | s :: rest, out =>
    ∃ s' rest', Stmt.ExpandsTo p scope s s' ∧ Stmt.ExpandAllTo p scope rest rest' ∧
      out = s' ++ rest'
termination_by structural body => body

def Handler.ExpandAllTo (p : ExpandPlace) (scope : LabelScope) : List Handler → List Handler → Prop
  | [], out => out = []
  | .mk loc type name body :: rest, out =>
    ∃ body' rest', Stmt.ExpandAllTo p scope body body' ∧ Handler.ExpandAllTo p scope rest rest' ∧
      out = .mk loc type name (orPass loc body') :: rest'
termination_by structural hs => hs

def MatchCase.ExpandAllTo (p : ExpandPlace) (scope : LabelScope) (loc : Loc) :
    List MatchCase → List MatchCase → Prop
  | [], out => out = []
  | .mk pattern guard body :: rest, out =>
    ∃ body' rest', Stmt.ExpandAllTo p scope body body' ∧
      MatchCase.ExpandAllTo p scope loc rest rest' ∧
      out = .mk pattern guard (orPass loc body') :: rest'
termination_by structural cs => cs

end

theorem enterHeader_eq {scope : LabelScope} {header : CallbackHeader} {ds : List LabelDecl}
    (h : scope.escapes header.escapes = .ok ds) :
    scope.enterHeader header = scope.enterCallback header.label ds := by
  simp only [LabelScope.enterHeader, h]

/-! ### Statement by statement -/

section

variable {p : ExpandPlace} {scope : LabelScope}

theorem expandHandlers_suites {handlers handlers' : List Handler}
    (h : Handler.ExpandAllTo p scope handlers handlers') : ∃ bs,
      List.Forall₂ (Stmt.ExpandAllTo p scope) (handlers.map Handler.body) bs ∧
      handlers' = handlers.zipWith (fun h b => h.mapBody fun loc _ => orPass loc b) bs := by
  induction handlers generalizing handlers' with
  | nil => exact ⟨[], .nil, h⟩
  | cons h₀ handlers ih =>
    cases h₀
    obtain ⟨b, rest', hb, hrest, rfl⟩ := h
    obtain ⟨bs, hbs, rfl⟩ := ih hrest
    exact ⟨b :: bs, .cons hb hbs, rfl⟩

theorem expandCases_suites {cases cases' : List MatchCase} {loc : Loc}
    (h : MatchCase.ExpandAllTo p scope loc cases cases') : ∃ bs,
      List.Forall₂ (Stmt.ExpandAllTo p scope) (cases.map MatchCase.body) bs ∧
      cases' = cases.zipWith (fun c b => c.mapBody fun _ => orPass loc b) bs := by
  induction cases generalizing cases' with
  | nil => exact ⟨[], .nil, h⟩
  | cons c cases ih =>
    cases c
    obtain ⟨b, rest', hb, hrest, rfl⟩ := h
    obtain ⟨bs, hbs, rfl⟩ := ih hrest
    exact ⟨b :: bs, .cons hb hbs, rfl⟩

theorem Stmt.ExpandsTo.suites {s : Stmt} {code : List Stmt} (hs : s.isInner = true)
    (h : s.ExpandsTo p scope code) : ∃ bs, code = [s.refill orPass bs] ∧
      List.Forall₂ (fun b b' => ∃ scope', Stmt.ExpandAllTo p scope' b b') s.bodies bs := by
  cases s with
  | function | class_ | callbackLoop | global | nonlocal => cases hs
  | for_ | while_ | if_ =>
    obtain ⟨b, o, hb, ho, rfl⟩ := h
    exact ⟨[b, o], rfl, .cons ⟨_, hb⟩ (.cons ⟨_, ho⟩ .nil)⟩
  | with_ | block =>
    obtain ⟨b, hb, rfl⟩ := h
    exact ⟨[b], rfl, .cons ⟨_, hb⟩ .nil⟩
  | match_ =>
    obtain ⟨cases', hcases, rfl⟩ := h
    obtain ⟨bs, hbs, rfl⟩ := expandCases_suites hcases
    exact ⟨bs, rfl, hbs.imp fun _ _ h => ⟨_, h⟩⟩
  | try_ =>
    obtain ⟨b, hs', o, f, hb, hh, ho, hf, rfl⟩ := h
    obtain ⟨bs, hbs, rfl⟩ := expandHandlers_suites hh
    refine ⟨b :: (bs ++ [o, f]), ?_, .cons ⟨_, hb⟩ (List.rel_append (hbs.imp fun _ _ h => ⟨_, h⟩)
      (.cons ⟨_, ho⟩ (.cons ⟨_, hf⟩ .nil)))⟩
    rw [Stmt.refill_try (hbs.length_eq.symm.trans (List.length_map _))]
  | _ => exact ⟨[], h, .nil⟩

theorem Stmt.ExpandAllTo.induction {motive : ExpandPlace → List Stmt → List Stmt → Prop} {body code : List Stmt}
    (h : Stmt.ExpandAllTo p scope body code) (nil : ∀ p, motive p [] [])
    (append : ∀ {p s code body code'}, motive p [s] code → motive p body code' →
      motive p (s :: body) (code ++ code'))
    (loop : ∀ {p loc header target iter body id decls hoisted wanted body' callHeader},
      let t := Taxonomy.of id header.toLoopHeader
      p.imported = true → motive p.task body body' →
      motive p [.callbackLoop loc header target iter body]
        (task t loc header.label decls target (scopeStart loc hoisted wanted) (orPass loc body') ::
          dispatch t loc callHeader iter p.inFunction p.debug))
    (function : ∀ {p loc isAsync name params body decorators returns hoisted wanted body'},
      motive p.function body body' →
      motive p [.function loc isAsync name params body decorators returns]
        [.function loc isAsync name params (insertAfterDoc (scopeStart loc hoisted wanted) body') decorators
          returns])
    (class_ : ∀ {p loc name bases keywords body decorators body'}, motive p.class_ body body' →
      motive p [.class_ loc name bases keywords body decorators]
        [.class_ loc name bases keywords body' decorators])
    (declaration : ∀ {p s}, s.isInner = false → s.bodies = [] → motive p [s] (if p.dropping then [] else [s]))
    (inner : ∀ {p s bs}, s.isInner = true → List.Forall₂ (motive p) s.bodies bs →
      motive p [s] [s.refill orPass bs]) :
    motive p body code := by
  induction body using Stmt.suite_induction generalizing p scope code with
  | nil => exact (show code = [] from h) ▸ nil p
  | cons s rest ih ihrest =>
    obtain ⟨c, c', hs, hrest, rfl⟩ := h
    refine append ?_ (ihrest hrest)
    cases hinner : s.isInner with
    | true =>
      obtain ⟨bs, rfl, hbs⟩ := hs.suites hinner
      exact inner hinner (((List.forall₂_and_left _ _).2 ⟨ih, hbs⟩).imp fun _ _ ⟨ih, _, h⟩ => ih h)
    | false =>
      cases s with
      | callbackLoop =>
        obtain ⟨himported, id, decls, hoisted, wanted, b, hb, rfl⟩ := hs
        exact loop himported (ih _ (.head _) hb)
      | function =>
        obtain ⟨hoisted, wanted, b, hb, rfl⟩ := hs
        exact function (ih _ (.head _) hb)
      | class_ =>
        obtain ⟨b, hb, rfl⟩ := hs
        exact class_ (ih _ (.head _) hb)
      | global | nonlocal => exact (show c = _ from hs) ▸ declaration rfl rfl
      | _ => cases hinner

end

theorem mapM_bind_congr {m : Type → Type} [Monad m] [LawfulMonad m] {α β γ : Type} {f : α → m β}
    {l : List α} {k k' : List β → m γ} (h : ∀ bs, bs.length = l.length → k bs = k' bs) :
    l.mapM f >>= k = l.mapM f >>= k' := by
  induction l generalizing k k' with
  | nil => simp [h]
  | cons a l ih =>
    simp only [List.mapM_cons, bind_assoc, pure_bind]
    exact bind_congr fun b => ih fun bs hbs => h (b :: bs) (by simp [hbs])

/-- What has no scope of its own is expanded suite by suite. -/
theorem Stmt.expand_inner {s : Stmt} (hs : s.isInner = true) (ctx : ExpandContext) :
    s.expand ctx = s.bodies.mapM (Stmt.expandAll ctx) >>= fun bs => pure [s.refill orPass bs] := by
  cases s with
  | function | class_ | callbackLoop | global | nonlocal => cases hs
  | match_ loc subject cases =>
    have hcases : MatchCase.expandAll ctx loc cases =
        (cases.map MatchCase.body).mapM (Stmt.expandAll ctx) >>= fun bs =>
          pure (cases.zipWith (fun c b => c.mapBody fun _ => orPass loc b) bs) := by
      induction cases with
      | nil => rfl
      | cons c cases ih =>
        cases c
        simp only [MatchCase.expandAll, ih rfl, List.map_cons, List.mapM_cons, bind_assoc, pure_bind]
        rfl
    simp only [Stmt.expand, hcases, bind_assoc, pure_bind]
    rfl
  | try_ loc isStar body handlers orElse final =>
    have hhandlers : Handler.expandAll ctx handlers =
        (handlers.map Handler.body).mapM (Stmt.expandAll ctx) >>= fun bs =>
          pure (handlers.zipWith (fun h b => h.mapBody fun loc _ => orPass loc b) bs) := by
      induction handlers with
      | nil => rfl
      | cons h handlers ih =>
        cases h
        simp only [Handler.expandAll, ih rfl, List.map_cons, List.mapM_cons, bind_assoc, pure_bind]
        rfl
    simp only [Stmt.expand, Stmt.bodies, hhandlers, List.cons_append, List.mapM_cons, List.mapM_append,
      List.mapM_nil, bind_assoc, pure_bind]
    refine bind_congr fun b => mapM_bind_congr fun bs hbs => ?_
    simp only [Stmt.refill_try (hbs.trans (List.length_map _))]
  | _ => simp [Stmt.expand, Stmt.bodies, Stmt.refill]

theorem noteLabels_kept {s : Stmt} (hs : s.isKept = true) (scope : LabelScope) :
    s.noteLabels scope = s.withBodies (s.bodies.map (Stmt.noteAll scope)) := by
  cases s with
  | if_ | with_ => rfl
  | match_ loc subject cases =>
    refine congrArg (Stmt.match_ loc subject) ?_
    induction cases with
    | nil => rfl
    | cons c cases ih =>
      cases c
      exact congrArg _ (ih rfl)
  | try_ loc isStar body handlers orElse final =>
    have hhandlers : Handler.noteAll scope handlers = handlers.zipWith (fun h b => h.mapBody fun _ _ => b)
        (handlers.map fun h => Stmt.noteAll scope h.body) := by
      induction handlers with
      | nil => rfl
      | cons h handlers ih =>
        cases h
        exact congrArg _ (ih rfl)
    simp only [Stmt.noteLabels, hhandlers, Stmt.bodies, List.map_append, List.map_cons, List.map_nil,
      List.cons_append, List.map_map]
    rw [Stmt.withBodies, Stmt.refill_try (List.length_map _)]
    rfl
  | _ => cases hs

/-! ### Work that gives what it should -/

def Expand.Grows {α : Type} (work : Expand α) : Prop :=
  ∀ s, s.loops ≠ [] → (work s).2.loops ≠ []

/-- Whatever has been expanded before, the result is as specified, provided that the support module is
imported if there is a loop in the end. -/
structure Expand.Gives {α : Type} (imported : Bool) (work : Expand α) (spec : α → Prop) : Prop where
  grows : work.Grows
  result : ∀ s, ((work s).2.loops ≠ [] → imported = true) → spec (work s).1

namespace Expand.Gives

variable {α β : Type} {imported : Bool} {P Q : α → Prop}

theorem pure {a : α} (h : P a) : Expand.Gives imported (pure a) P := ⟨fun _ h => h, fun _ _ => h⟩

theorem bind {work : Expand α} {next : α → Expand β} {R : β → Prop} (h : work.Gives imported P)
    (h' : ∀ a, (next a).Gives imported fun b => P a → R b) : (work >>= next).Gives imported R where
  grows s hs := (h' _).grows _ (h.grows s hs)
  result s hl :=
    (h' (work s).1).result (work s).2 hl (h.result s fun hn => hl ((h' _).grows _ hn))

theorem ignore {work : Expand α} {next : α → Expand β} {R : β → Prop} (h : work.Grows)
    (h' : ∀ a, (next a).Gives imported R) : (work >>= next).Gives imported R where
  grows s hs := (h' _).grows _ (h s hs)
  result s hl := (h' (work s).1).result (work s).2 hl

theorem optional {c : Prop} [Decidable c] {work : Expand Unit} {next : Unit → Expand β}
    {R : β → Prop} (h : work.Grows) (h' : ∀ u, (next u).Gives imported R) :
    Expand.Gives imported (if c then work >>= next else next ()) R := by
  split
  · exact .ignore h h'
  · exact h' ()

theorem record {loc : Loc} {summary : Option LoopSummary} {next : Unit → Expand β} {R : β → Prop}
    (h : ∀ u, (next u).Gives imported fun b => imported = true → R b) :
    (Expand.record loc summary >>= next).Gives imported R where
  grows _ _ := (h ()).grows _ (List.cons_ne_nil _ _)
  result _ hl := (h ()).result _ hl (hl ((h ()).grows _ (List.cons_ne_nil _ _)))

theorem inScope {work : Expand α} (h : work.Gives imported P) :
    (Expand.inScope work).Gives imported fun r => P r.1 where
  grows s hs := h.grows { s with wanted := [] } hs
  result s hl := h.result { s with wanted := [] } hl

end Expand.Gives

theorem escapeValues_toLoopHeader (scope : LabelScope) (header : CallbackHeader) :
    (escapeValues scope header).toLoopHeader = header.toLoopHeader := by
  unfold escapeValues
  split <;> rfl

/-! ### Expansion -/

mutual

theorem expand_gives {imported : Bool} (s : Stmt) (ctx : ExpandContext) (scope : LabelScope) :
    (Stmt.expand ctx (s.noteLabels scope)).Gives imported (s.ExpandsTo (ctx.place imported) scope) := by
  cases s with
  | callbackLoop loc header target iter body =>
    rw [Stmt.noteLabels, Stmt.expand]
    refine .ignore (fun _ h => h) fun id => .optional (fun _ h => h) fun _ => .record fun _ =>
      .bind (.inScope (expandAll_gives body _ (scope.enterHeader header))) ?_
    rintro ⟨body', wanted⟩
    refine .pure fun hb hi => ?_
    rw [Stmt.ExpandsTo, escapeValues_toLoopHeader]
    exact ⟨hi, id, _, _, wanted, body', hb, rfl⟩
  | function loc isAsync name params body decorators returns =>
    rw [Stmt.noteLabels, Stmt.expand]
    refine .bind (.inScope (expandAll_gives body _ { kind := .function })) ?_
    rintro ⟨body', wanted⟩
    refine .pure fun hb => ?_
    rw [Stmt.ExpandsTo]
    exact ⟨_, wanted, body', hb, rfl⟩
  | class_ loc name bases keywords body decorators =>
    rw [Stmt.noteLabels, Stmt.expand]
    refine .bind (expandAll_gives body ctx.class_ { kind := .class_ }) fun body' => .pure fun hb => ?_
    rw [Stmt.ExpandsTo]
    exact ⟨body', hb, rfl⟩
  | for_ loc isAsync mark target iter body orElse | while_ loc mark test body orElse =>
    rw [Stmt.noteLabels, Stmt.expand]
    refine .bind (expandAll_gives body ctx _) fun body' =>
      .bind (expandAll_gives orElse ctx scope) fun orElse' => .pure fun he hb => ?_
    rw [Stmt.ExpandsTo]
    exact ⟨body', orElse', hb, he, rfl⟩
  | if_ loc test body orElse =>
    rw [Stmt.noteLabels, Stmt.expand]
    refine .bind (expandAll_gives body ctx scope) fun body' =>
      .bind (expandAll_gives orElse ctx scope) fun orElse' => .pure fun he hb => ?_
    rw [Stmt.ExpandsTo]
    exact ⟨body', orElse', hb, he, rfl⟩
  | with_ loc isAsync items body =>
    rw [Stmt.noteLabels, Stmt.expand]
    refine .bind (expandAll_gives body ctx scope) fun body' => .pure fun hb => ?_
    rw [Stmt.ExpandsTo]
    exact ⟨body', hb, rfl⟩
  | match_ loc subject cases =>
    rw [Stmt.noteLabels, Stmt.expand]
    refine .bind (expandCases_gives cases ctx scope loc) fun cases' => .pure fun hc => ?_
    rw [Stmt.ExpandsTo]
    exact ⟨cases', hc, rfl⟩
  | try_ loc isStar body handlers orElse final =>
    rw [Stmt.noteLabels, Stmt.expand]
    refine .bind (expandAll_gives body ctx scope) fun body' =>
      .bind (expandHandlers_gives handlers ctx scope) fun handlers' =>
      .bind (expandAll_gives orElse ctx scope) fun orElse' =>
      .bind (expandAll_gives final ctx scope) fun final' => .pure fun hf he hh hb => ?_
    rw [Stmt.ExpandsTo]
    exact ⟨body', handlers', orElse', final', hb, hh, he, hf, rfl⟩
  | block loc label target body =>
    rw [Stmt.noteLabels, Stmt.expand]
    refine .bind (expandAll_gives body ctx _) fun body' => .pure fun hb => ?_
    rw [Stmt.ExpandsTo]
    exact ⟨body', hb, rfl⟩
  | _ =>
    simp only [Stmt.noteLabels, Stmt.expand, Stmt.ExpandsTo]
    exact .pure rfl

theorem expandAll_gives {imported : Bool} : ∀ (body : List Stmt) (ctx : ExpandContext) (scope : LabelScope),
    (Stmt.expandAll ctx (Stmt.noteAll scope body)).Gives imported
      (Stmt.ExpandAllTo (ctx.place imported) scope body)
  | [], ctx, scope => by
    rw [Stmt.noteAll, Stmt.expandAll]
    exact .pure (by rw [Stmt.ExpandAllTo])
  | s :: rest, ctx, scope => by
    rw [Stmt.noteAll, Stmt.expandAll]
    refine .bind (expand_gives s ctx scope) fun s' =>
      .bind (expandAll_gives rest ctx scope) fun rest' => .pure fun hr hs => ?_
    rw [Stmt.ExpandAllTo]
    exact ⟨s', rest', hs, hr, rfl⟩

theorem expandHandlers_gives {imported : Bool} : ∀ (hs : List Handler) (ctx : ExpandContext) (scope : LabelScope),
    (Handler.expandAll ctx (Handler.noteAll scope hs)).Gives imported
      (Handler.ExpandAllTo (ctx.place imported) scope hs)
  | [], ctx, scope => by
    rw [Handler.noteAll, Handler.expandAll]
    exact .pure (by rw [Handler.ExpandAllTo])
  | .mk loc type name body :: rest, ctx, scope => by
    rw [Handler.noteAll, Handler.expandAll]
    refine .bind (expandAll_gives body ctx scope) fun body' =>
      .bind (expandHandlers_gives rest ctx scope) fun rest' => .pure fun hr hb => ?_
    rw [Handler.ExpandAllTo]
    exact ⟨body', rest', hb, hr, rfl⟩

theorem expandCases_gives {imported : Bool} : ∀ (cs : List MatchCase) (ctx : ExpandContext) (scope : LabelScope)
    (loc : Loc), (MatchCase.expandAll ctx loc (MatchCase.noteAll scope cs)).Gives imported
      (MatchCase.ExpandAllTo (ctx.place imported) scope loc cs)
  | [], ctx, scope, loc => by
    rw [MatchCase.noteAll, MatchCase.expandAll]
    exact .pure (by rw [MatchCase.ExpandAllTo])
  | .mk pattern guard body :: rest, ctx, scope, loc => by
    rw [MatchCase.noteAll, MatchCase.expandAll]
    refine .bind (expandAll_gives body ctx scope) fun body' =>
      .bind (expandCases_gives rest ctx scope loc) fun rest' => .pure fun hr hb => ?_
    rw [MatchCase.ExpandAllTo]
    exact ⟨body', rest', hb, hr, rfl⟩

end

/-! ### Modules -/

theorem expandLoops_spec (debug : Bool) (firstId : Nat) (module : List Stmt) :
    ∃ imported loc body',
      Stmt.ExpandAllTo ⟨imported, debug, false, false, false⟩ LabelScope.top module body' ∧
      (expandLoops debug firstId (resolveLabels module)).body =
        (if imported then (ensureImport (insertAfterDoc (scopeStart loc
            (hoistedDeclarations {} (resolveLabels module)) []) body')).1
          else insertAfterDoc (scopeStart loc (hoistedDeclarations {} (resolveLabels module)) [])
            body') := by
  let ctx : ExpandContext := { debug, scope := { isModule := true } }
  let r := Stmt.expandAll ctx (resolveLabels module) { nextId := firstId }
  refine ⟨!r.2.loops.isEmpty, (r.1.head?.map (·.loc)).getD default, r.1, ?_, ?_⟩
  · refine (expandAll_gives module ctx LabelScope.top).result { nextId := firstId } fun hl => ?_
    rw [Bool.not_eq_true', List.isEmpty_eq_false_iff]
    exact hl
  · show (if r.2.loops.isEmpty then _ else _) = _
    cases r.2.loops.isEmpty <;> rfl

end LoopEscape
