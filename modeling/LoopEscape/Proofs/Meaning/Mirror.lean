import LoopEscape.Proofs.Meaning.Dispatch
import LoopEscape.Proofs.Expand.Relation

/-!
# Expanded code mirrors the source

A statement of the source and what it was expanded to are run in the same world, the source in any
frame.  They end in the same way and in the same world; the expanded code changes its frame only where
it keeps tasks and what iterator functions returned (`Mirrors`).  Besides, the source ends in a way that
fits the labels around.
-/

namespace LoopEscape

open Generate Step

variable {σ ε α : Type}

/-! ### Queries of the source -/

def Query.Plain (q : Query σ ε α) : Prop :=
  ∀ w, ∃ r w', (∀ f, q ⟨f, w⟩ = (r, ⟨f, w'⟩)) ∧ ∀ e, r = .error e → ∃ err, e = .raised (.ordinary err)

theorem State.plain_ask (e : Event) (work : σ → σ × Except ε α) :
    Query.Plain (State.ask e work) := by
  intro w
  refine ⟨(w.ask e work).1.mapError fun e => .raised (.ordinary e), (w.ask e work).2,
    fun f => rfl, fun x hx => ?_⟩
  cases hr : (w.ask e work).1 with
  | error err => rw [hr] at hx; cases hx; exact ⟨err, rfl⟩
  | ok a => rw [hr] at hx; cases hx

namespace Machine

variable (m : Machine σ ε) {e : Expr}

theorem value?_frame (h : Unreserved e.names) (f f' : Frame σ ε) (w w' : World σ) :
    m.value? ⟨f, w⟩ e = m.value? ⟨f', w'⟩ e := Expr.value?_unreserved _ _ _ _ h

theorem plain_evaluate (h : Unreserved e.names) : Query.Plain (m.evaluate e) := by
  intro w
  cases hv : m.value? ⟨Frame.empty, w⟩ e with
  | some v =>
    refine ⟨.ok v, w, fun f => ?_, fun _ hx => by cases hx⟩
    rw [evaluate_of_value? ((m.value?_frame h _ _ _ _).trans hv)]
  | none =>
    obtain ⟨r, w', hr, he⟩ := State.plain_ask (.evaluated e) (m.host.evaluate e) w
    refine ⟨r, w', fun f => ?_, he⟩
    simp only [evaluate, (m.value?_frame h f _ w _).trans hv, hr]

theorem plain_evaluateOption {e : Option Expr} (h : Unreserved (Expr.namesOption e)) :
    Query.Plain (m.evaluateOption e) := by
  cases e with
  | none => exact fun w => ⟨.ok .none, w, fun _ => rfl, fun _ hx => by cases hx⟩
  | some e => exact m.plain_evaluate (by simpa [Expr.namesOption] using h)

theorem plain_test (h : Unreserved e.names) : Query.Plain (m.test e) := by
  intro w
  obtain ⟨r, w', hr, he⟩ := State.plain_ask (.tested e) (m.host.test e) w
  rcases hv : m.value? ⟨Frame.empty, w⟩ e with _ | v
  · refine ⟨r, w', fun f => ?_, he⟩
    simp only [test, (m.value?_frame h f _ w _).trans hv, hr]
  · cases v with
    | bool b =>
      refine ⟨.ok b, w, fun f => ?_, fun _ hx => by cases hx⟩
      simp only [test, (m.value?_frame h f _ w _).trans hv]
    | _ =>
      refine ⟨r, w', fun f => ?_, he⟩
      simp only [test, (m.value?_frame h f _ w _).trans hv, hr]

theorem plain_advance (h : Unreserved e.names) (it : Datum) : Query.Plain (m.advance it e) := by
  intro w
  obtain ⟨r, w', hr, he⟩ := State.plain_ask (ε := ε) (.advanced it) (m.host.next it) w
  rcases r with x | _ | v
  · refine ⟨.error x, w', fun f => ?_, fun y hy => he y (by cases hy; rfl)⟩
    simp only [advance, hr]
  · refine ⟨.ok false, w', fun f => ?_, fun _ hx => by cases hx⟩
    simp only [advance, hr]
  · obtain ⟨x, w'', hx, ha⟩ := assignOutside_cases (m := m) e v w'
    rcases hx with rfl | ⟨err, rfl⟩
    · refine ⟨.ok true, w'', fun f => ?_, fun _ hx => by cases hx⟩
      simp only [advance, hr, assign_unreserved h, ha]
    · refine ⟨.error (.raised (.ordinary err)), w'', fun f => ?_, fun y hy => by
        cases hy; exact ⟨err, rfl⟩⟩
      simp only [advance, hr, assign_unreserved h, ha]

end Machine

/-! ### Steps -/

structure MirrorsAt (scope : LabelScope) (f : Frame σ ε) (r r' : Exit ε × State σ ε) : Prop where
  exit : r'.1 = r.1
  world : r'.2.world = r.2.world
  inside : ∀ x, ¬ LoopNames.Outside x → r'.2.frame x = f x
  fits : r.1.Fits scope

def Mirrors (scope : LabelScope) (a a' : Step σ ε) : Prop :=
  ∀ f f' w, MirrorsAt scope f' (a ⟨f, w⟩) (a' ⟨f', w⟩)

namespace Mirrors

variable {scope : LabelScope} {a a' b b' : Step σ ε}

theorem same_exit {e : Exit ε} (h : e.Fits scope) :
    Mirrors scope (Step.exit e : Step σ ε) (Step.exit e) :=
  fun _ _ _ => ⟨rfl, rfl, fun _ _ => rfl, h⟩

theorem same_done : Mirrors scope (done : Step σ ε) done :=
  fun _ _ _ => ⟨rfl, rfl, fun _ _ => rfl, trivial⟩

theorem andThen (ha : Mirrors scope a a') (hb : Mirrors scope b b') :
    Mirrors scope (a.andThen b) (a'.andThen b') := by
  intro f f' w
  obtain ⟨hexit, hworld, hinside, hfits⟩ := ha f f' w
  unfold Step.andThen
  generalize a ⟨f, w⟩ = r at hexit hworld hfits
  generalize a' ⟨f', w⟩ = r' at hexit hworld hinside
  obtain ⟨e, fr, wr⟩ := r
  obtain ⟨e', fr', wr'⟩ := r'
  obtain rfl : e' = e := hexit
  obtain rfl : wr' = wr := hworld
  cases e' with
  | normal =>
    obtain ⟨h₁, h₂, h₃, h₄⟩ := hb fr fr' wr'
    exact ⟨h₁, h₂, fun x hx => (h₃ x hx).trans (hinside x hx), h₄⟩
  | _ => exact ⟨rfl, rfl, hinside, hfits⟩

theorem query {q : Query σ ε α} {next next' : α → Step σ ε} (hq : q.Plain)
    (h : ∀ v, Mirrors scope (next v) (next' v)) :
    Mirrors scope (q.andThen next) (q.andThen next') := by
  intro f f' w
  obtain ⟨r, w', hr, he⟩ := hq w
  simp only [Query.andThen, hr]
  cases r with
  | error e =>
    obtain ⟨err, rfl⟩ := he e rfl
    exact ⟨rfl, rfl, fun _ _ => rfl, trivial⟩
  | ok v => exact h v f f' w'

theorem assignOutside (m : Machine σ ε) (target : Expr) (v : Datum) :
    Mirrors scope (m.assignOutside target v) (m.assignOutside target v) :=
  query (State.plain_ask _ _) fun _ => same_done

theorem assign (m : Machine σ ε) {target : Expr} (h : Unreserved target.names) (v : Datum) :
    Mirrors scope (m.assign target v) (m.assign target v) := by
  rw [assign_unreserved h]
  exact assignOutside m target v

theorem bind (m : Machine σ ε) (loc : Loc) {target : Option String}
    (h : Unreserved target.toList) (v : Datum) :
    Mirrors scope (m.bind loc target v) (m.bind loc target v) := by
  cases target with
  | none => exact same_done
  | some x =>
    have hx : Unreserved (store loc.span x).names := by simpa [store] using h
    exact assign m hx v

theorem perform (m : Machine σ ε) (s : Stmt) : Mirrors scope (m.perform s) (m.perform s) :=
  query (State.plain_ask _ _) fun _ => same_done

end Mirrors

/-! ### Loops and blocks -/

section

variable {scope : LabelScope}

theorem lookup_enterLoop_ne {label : Option String} {l : String} (h : label ≠ some l) :
    (scope.enterLoop label).lookup l = scope.lookup l := by
  show (scope.declare (label.map LabelDecl.loop)).lookup l = _
  rw [LabelScope.lookup_declare]
  cases label with
  | none => rfl
  | some l' =>
    have hne : l' ≠ l := fun heq => h (heq ▸ rfl)
    simp [LabelDecl.loop, hne]

theorem lookup_enterBlock_ne {label l : String} (h : label ≠ l) :
    (scope.enterBlock label).lookup l = scope.lookup l := by
  rw [LabelScope.enterBlock, LabelScope.lookup_declare]
  simp [LabelDecl.block, h]

theorem Exit.Fits.of_lookup {scope' : LabelScope} {kind : JumpKind} {l : String} {v : Datum}
    (h : (Exit.jump kind (some l) v : Exit ε).Fits scope) (hl : scope.lookup l = scope'.lookup l) :
    (Exit.jump kind (some l) v : Exit ε).Fits scope' := by
  cases kind with
  | break_ => simpa only [Exit.Fits, breakProblem, hl] using h
  | continue_ => simpa only [Exit.Fits, continueProblem, hl] using h

theorem MirrorsAt.afterPass {mark : LoopMark} (hm : mark.valueTarget = none) {f : Frame σ ε}
    {r r' : Exit ε × State σ ε} (h : MirrorsAt (scope.enterLoop mark.label) f r r')
    {again again' : Step σ ε} (ha : Mirrors scope again again') :
    MirrorsAt scope f (mark.afterPass again r) (mark.afterPass again' r') := by
  obtain ⟨hexit, hworld, hinside, hfits⟩ := h
  obtain ⟨e, fr, wr⟩ := r
  obtain ⟨e', fr', wr'⟩ := r'
  obtain rfl : e' = e := hexit
  obtain rfl : wr' = wr := hworld
  have hagain : MirrorsAt scope f (again ⟨fr, wr'⟩) (again' ⟨fr', wr'⟩) := by
    obtain ⟨h₁, h₂, h₃, h₄⟩ := ha fr fr' wr'
    exact ⟨h₁, h₂, fun x hx => (h₃ x hx).trans (hinside x hx), h₄⟩
  cases e' with
  | normal => exact hagain
  | jump kind label v =>
    by_cases ho : mark.owns label = true
    · simp only [LoopMark.afterPass, ho, if_true]
      cases kind with
      | continue_ => exact hagain
      | break_ =>
        rw [hm]
        exact ⟨rfl, rfl, hinside, trivial⟩
    · simp only [LoopMark.afterPass, ho, Bool.false_eq_true, if_false]
      obtain ⟨l, rfl⟩ : ∃ l, label = some l := by
        cases label with
        | none => exact absurd rfl ho
        | some l => exact ⟨l, rfl⟩
      refine ⟨rfl, rfl, hinside, hfits.of_lookup (lookup_enterLoop_ne fun heq => ho ?_)⟩
      simp [LoopMark.owns, heq]
  | _ => exact ⟨rfl, rfl, hinside, hfits⟩

theorem Mirrors.loop {mark : LoopMark} (hm : mark.valueTarget = none) {head : Query σ ε Bool}
    (hh : head.Plain) {body body' orElse orElse' : Step σ ε}
    (hb : Mirrors (scope.enterLoop mark.label) body body') (he : Mirrors scope orElse orElse')
    (n : Nat) :
    Mirrors scope (LoopEscape.loop mark head body orElse n)
      (LoopEscape.loop mark head body' orElse' n) := by
  induction n with
  | zero => exact .same_exit trivial
  | succ n ih =>
    refine .query hh fun more => ?_
    cases more with
    | true => exact fun f f' w => (hb f f' w).afterPass hm ih
    | false => exact he

theorem MirrorsAt.afterBlock {label : String} {f : Frame σ ε} {r r' : Exit ε × State σ ε}
    (h : MirrorsAt (scope.enterBlock label) f r r') {receive : Datum → Step σ ε}
    (hr : ∀ v, Mirrors scope (receive v) (receive v)) :
    MirrorsAt scope f (afterBlock label receive r) (afterBlock label receive r') := by
  obtain ⟨hexit, hworld, hinside, hfits⟩ := h
  obtain ⟨e, fr, wr⟩ := r
  obtain ⟨e', fr', wr'⟩ := r'
  obtain rfl : e' = e := hexit
  obtain rfl : wr' = wr := hworld
  cases e' with
  | jump kind l v =>
    cases l with
    | none => cases kind <;> exact ⟨rfl, rfl, hinside, hfits⟩
    | some l =>
      by_cases heq : l = label
      · subst heq
        simp only [LoopEscape.afterBlock, if_true]
        cases kind with
        | break_ =>
          obtain ⟨h₁, h₂, h₃, h₄⟩ := hr v fr fr' wr'
          exact ⟨h₁, h₂, fun x hx => (h₃ x hx).trans (hinside x hx), h₄⟩
        | continue_ =>
          obtain ⟨d, hd, hc⟩ := continueProblem_some hfits.1
          rw [LabelScope.enterBlock, LabelScope.lookup_declare] at hd
          simp only [LabelDecl.block, beq_self_eq_true, if_true, Option.some.injEq] at hd
          rw [← hd] at hc
          cases hc
      · simp only [LoopEscape.afterBlock, heq, if_false]
        exact ⟨rfl, rfl, hinside, hfits.of_lookup (lookup_enterBlock_ne (Ne.symm heq))⟩
  | _ => exact ⟨rfl, rfl, hinside, hfits⟩

end

/-! ### Callback loops -/

section

variable {m : Machine σ ε} {k : Nat}

theorem exec_task (header : LoopHeader) (loc : Loc) (label : Option String) (decls : Declarations)
    (target : Expr) (extra body : List Stmt) (st : State σ ε) :
    Stmt.exec m (task (Taxonomy.of k header) loc label decls target extra body) st =
      (.normal, st.set (LoopNames.of k).task (.task (pollTask m.host.leaving (LoopNames.of k).item
        (LoopNames.of k).slot (Stmt.execAll m
          (taskCode (Taxonomy.of k header) loc label decls target extra body))))) := by
  have hn : taskNames? false (LoopNames.of k).task (.mk [] ([(LoopNames.of k).item,
      (LoopNames.of k).slot].map fun n => Param.mk loc.span n none none) none [] none) [] none =
      some ((LoopNames.of k).item, (LoopNames.of k).slot) := by
    have hr : isReserved (LoopNames.of k).task = true := isReserved_generatedName _
    simp [taskNames?, Params.taskNames?, hr]
  rw [task, Stmt.exec]
  simp only [Taxonomy.of, hn]
  rfl

theorem exec_called (hs : m.globals.support = true) {iter : Expr} {form : CallForm}
    (hf : CallForm.of? iter = some form) (header : LoopHeader) (loc : Loc) (debug : Bool)
    {st : State σ ε} {run : Datum → World σ → TaskEnd ε × World σ}
    (hrun : st.frame (LoopNames.of k).task = some (.task run)) :
    Stmt.exec m (assign loc (LoopNames.of k).result
      (((CallForm.of? iter).map (callWith loc.span
        (relay (Taxonomy.of k header) loc.span debug))).getD iter)) st =
      m.drive form (relayCall run) { task := fun _ _ => { poll := .returned .none }, debug }
        .continue_ (m.assign (store loc.span (LoopNames.of k).result)) st := by
  rw [hf, Option.map_some, Option.getD_some, assign, Stmt.exec]
  simp only [Machine.execAssign, relayed?_callWith hf, hs, if_true, Machine.callRelayed, hrun]

theorem MirrorsAt.behind {scope : LabelScope} {f f₁ : Frame σ ε} {r r' : Exit ε × State σ ε}
    (h : MirrorsAt scope f₁ r r') (hf : ∀ x, ¬ LoopNames.Outside x → f₁ x = f x) :
    MirrorsAt scope f r r' :=
  ⟨h.exit, h.world, fun x hx => (h.inside x hx).trans (hf x hx), h.fits⟩

theorem Frame.set_outside {x y : String} (hy : LoopNames.Outside y) (hx : ¬ LoopNames.Outside x)
    (f : Frame σ ε) (l : Local σ ε) : f.set y l x = f x :=
  if_neg fun h : x = y => hx (h ▸ hy)

theorem outside_task (k : Nat) : LoopNames.Outside (LoopNames.of k).task := ⟨k, .inl rfl⟩

theorem outside_result (k : Nat) : LoopNames.Outside (LoopNames.of k).result := ⟨k, .inr rfl⟩

theorem answer_mirrors (hs : m.globals.support = true) {scope : LabelScope} {header : CallbackHeader}
    {ds : List LabelDecl} (hds : scope.escapes header.escapes = .ok ds) (loc : Loc)
    (hres : Unreserved header.result.toList)
    {d d' : Driven ε (Except (Exit ε) Datum)}
    (h : DrivenMatch (StopMatch scope header.escapes) d d') (f f' : Frame σ ε) (w : World σ) :
    MirrorsAt scope f'
      (Query.andThen (fun st => (d.answer id, st)) (m.bind loc header.result) ⟨f, w⟩)
      ((Query.andThen (fun st => (d'.answer .continue_, st))
        (m.assign (store loc.span (LoopNames.of k).result))).andThen
        (Stmt.execAll m (ifChain loc [protocolError (Taxonomy.of k header.toLoopHeader) loc]
          (branches (Taxonomy.of k header.toLoopHeader) loc (escapeValues scope header) true)))
        ⟨f', w⟩) := by
  have hset : ∀ v, m.assign (store loc.span (LoopNames.of k).result) v ⟨f', w⟩ =
      (.normal, ⟨f'.set (LoopNames.of k).result (.value v), w⟩) := by
    intro v
    have hr : isReserved (LoopNames.of k).result = true := isReserved_generatedName _
    simp [Machine.assign, store, hr, State.set]
  have hchain : ∀ v result, Dispatched m loc (escapeValues scope header)
      ⟨f'.set (LoopNames.of k).result (.value v), w⟩ v result →
      Stmt.execAll m (ifChain loc [protocolError (Taxonomy.of k header.toLoopHeader) loc]
        (branches (Taxonomy.of k header.toLoopHeader) loc (escapeValues scope header) true))
        ⟨f'.set (LoopNames.of k).result (.value v), w⟩ = result := by
    intro v result hd
    have := dispatch_spec (k := k) hs loc (escapeValues scope header) hd (if_pos rfl)
    rwa [escapeValues_toLoopHeader] at this
  have hkeep : ∀ v x, ¬ LoopNames.Outside x →
      f'.set (LoopNames.of k).result (.value v) x = f' x :=
    fun v x hx => Frame.set_outside (outside_result k) hx f' _
  have hheader := escapeValues_toLoopHeader scope header
  have hbind : ∀ v v', MirrorsAt scope f' (m.bind loc header.result v ⟨f, w⟩)
      (m.bind loc (escapeValues scope header).result v
        ⟨f'.set (LoopNames.of k).result (.value v'), w⟩) := by
    intro v v'
    rw [hheader]
    exact (Mirrors.bind m loc hres v _ _ w).behind (hkeep v')
  cases h with
  | finished v =>
    simp only [Driven.answer, Query.andThen, Step.andThen, hset, hchain _ _ (.finished v)]
    exact hbind v _
  | stopped hm =>
    cases hm with
    | broken v =>
      simp only [Driven.answer, Query.andThen, Step.andThen, hset, hchain _ _ (.broken v)]
      exact hbind v _
    | returned v =>
      simp only [Driven.answer, Query.andThen, Step.andThen, hset, hchain _ _ (.returned v)]
      exact ⟨rfl, rfl, hkeep _, trivial⟩
    | @breakTo e outer v he ho hv =>
      have hl : e.label ∈ (escapeValues scope header).escapes.map (·.label) := by
        rw [hheader]
        exact List.mem_map.2 ⟨e, he, rfl⟩
      have hjump := hchain _ _ (.breakTo hl v)
      rw [takesValue_escapeValues hds he ho, Option.getD_some] at hjump
      have hv' : (if outer.takesValue = true then v else .none) = v := by
        cases ht : outer.takesValue with
        | true => rfl
        | false => exact (hv ht).symm
      rw [hv'] at hjump
      simp only [Driven.answer, Query.andThen, Step.andThen, hset, hjump]
      refine ⟨rfl, rfl, hkeep _, outer.takesValue, ?_, hv⟩
      simp [breakProblem, ho]
    | @continueTo e outer he hl ho hc =>
      have hmem : e.label ∈ ((escapeValues scope header).escapes.filter (·.loops)).map (·.label) := by
        rw [hheader]
        exact List.mem_map.2 ⟨e, List.mem_filter.2 ⟨he, hl⟩, rfl⟩
      simp only [Driven.answer, Query.andThen, Step.andThen, hset, hchain _ _ (.continueTo hmem)]
      refine ⟨rfl, rfl, hkeep _, ?_, rfl⟩
      simp [continueProblem, ho, hc]
    | raised he => exact ⟨rfl, rfl, fun _ _ => rfl, he⟩
    | exhausted => exact ⟨rfl, rfl, fun _ _ => rfl, trivial⟩
  | failed e => exact ⟨rfl, rfl, fun _ _ => rfl, trivial⟩
  | exhausted => exact ⟨rfl, rfl, fun _ _ => rfl, trivial⟩

theorem drive_eq {κ : Type} (form : CallForm)
    (callback : κ → Datum → World σ → Pass (Except (Exit ε) Datum) × κ × World σ) (c : κ)
    (finish : Datum → Datum) (next : Datum → Step σ ε) (f : Frame σ ε) (w : World σ) :
    m.drive form callback c finish next ⟨f, w⟩ =
      match w.ask (.called form) (m.host.iterator form) with
      | (.error e, w') => (.raised (.ordinary e), ⟨f, w'⟩)
      | (.ok it, w') => Query.andThen
          (fun st => ((LoopEscape.drive it callback m.bound c [] w').1.answer finish, st)) next
          ⟨f, (LoopEscape.drive it callback m.bound c [] w').2⟩ := by
  simp only [Machine.drive, Query.andThen, State.ask]
  rcases w.ask (.called form) (m.host.iterator form) with ⟨e | it, w'⟩ <;> rfl

theorem Mirrors.callback (hs : m.globals.support = true) {scope : LabelScope} {loc : Loc}
    {header : CallbackHeader} {target iter : Expr} {form : CallForm}
    (hform : CallForm.of? iter = some form) {ds : List LabelDecl}
    (hds : scope.escapes header.escapes = .ok ds) (hn : (header.escapes.map (·.label)).Nodup)
    (ht : Unreserved target.names) (hres : Unreserved header.result.toList)
    {extra body : List Stmt} (he : Stmt.execAll m extra = done)
    {source : State σ ε → (Exit ε × Datum) × State σ ε}
    (hy : ∀ f, Yields m k (withValue (Taxonomy.of k header.toLoopHeader) body) fun w =>
      ((source ⟨f, w⟩).1, (source ⟨f, w⟩).2.world))
    (hf : ∀ f w, (source ⟨f, w⟩).1.1.Fits (scope.enterCallback header.label ds) ∧
      ((source ⟨f, w⟩).1.1 ≠ .normal → (source ⟨f, w⟩).1.2 = .none))
    (decls : Declarations) (debug : Bool) :
    Mirrors scope (m.execCallback loc header target iter source)
      (Stmt.execAll m (task (Taxonomy.of k header.toLoopHeader) loc header.label decls target extra
          body ::
        dispatch (Taxonomy.of k header.toLoopHeader) loc (escapeValues scope header) iter true
          debug)) := by
  intro f f' w
  let run := pollTask m.host.leaving (LoopNames.of k).item (LoopNames.of k).slot (Stmt.execAll m
    (taskCode (Taxonomy.of k header.toLoopHeader) loc header.label decls target extra body))
  let f₁ := f'.set (LoopNames.of k).task (.task run)
  have hf₁ : ∀ x, ¬ LoopNames.Outside x → f₁ x = f' x :=
    fun x hx => Frame.set_outside (outside_task k) hx f' _
  rw [Stmt.execAll_cons, Step.andThen_of_normal (exec_task _ _ _ _ _ _ _ _)]
  show MirrorsAt scope f' _ (Stmt.execAll m (Generate.assign loc (LoopNames.of k).result _ :: _) ⟨f₁, w⟩)
  have hrun : State.frame (⟨f₁, w⟩ : State σ ε) (LoopNames.of k).task = some (.task run) := if_pos rfl
  have hcalled := exec_called hs hform header.toLoopHeader loc debug hrun
  rw [Stmt.execAll_cons, Step.andThen, hcalled]
  simp only [Machine.execCallback, hform, drive_eq]
  rcases w.ask (.called form) (m.host.iterator form) with ⟨e | it, w'⟩
  · exact ⟨rfl, rfl, hf₁, trivial⟩
  · have hcall : ∀ (u : Unit) (c : Callback (Raised ε) Unit) (item : Datum) (w : World σ),
        c.escaped = none → PassMatch (StopMatch scope header.escapes)
          (m.callbackPass f header.label target source u item w).1 (relayCall run c item w).1 ∧
        (relayCall run c item w).2.2 =
          (m.callbackPass f header.label target source u item w).2.2 ∧
        ((∃ v, (relayCall run c item w).1 = .goOn v) → (relayCall run c item w).2.1.escaped = none) :=
      fun u c item w hc => call_matches hs hds hn ht he (hy f) (hf f) hc u item w
    obtain ⟨hd, hw⟩ := drive_matches hcall it m.bound ()
      { task := fun _ _ => { poll := .returned .none }, debug } [] w' rfl
    simp only [hw]
    exact (answer_mirrors hs hds loc hres hd f f₁ _).behind hf₁

end

end LoopEscape
