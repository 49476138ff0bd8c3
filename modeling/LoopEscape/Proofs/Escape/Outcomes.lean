import LoopEscape.Proofs.Meaning.Dispatch
import LoopEscape.Proofs.Dialect.Headers
import Mathlib.Data.List.Nodup
import Mathlib.Data.List.Perm.Basic

/-!
# The outcomes of a callback loop

Three pieces of code go by the break clause of a callback loop: the list of the reasons for which the
loop can be left, the layers of the task, which record them, and the conditions behind the call, which
act on them.  They agree (`outcomes_agree`).  Besides the one state for going on, the layers record one
state for every reason that is not a return, and no other; and behind the call every reason of the list
leads to its own action, while whatever else an iterator function returns is refused.

Objects are left out of the last: the conditions compare by equality, and an object that equals everything is
taken for a reason (`object_continues`).
-/

namespace LoopEscape

open Generate Step

variable {σ ε : Type}

/-! ### Reasons -/

namespace Taxonomy

variable (t : Taxonomy)

theorem nodup_variants (h : DistinctClause t.escapes) : t.variants.Nodup := by
  have hlabels : (t.escapes.map (·.label)).Nodup := h
  have hloops : ((t.escapes.filter (·.loops)).map (·.label)).Nodup :=
    hlabels.sublist (List.filter_sublist.map _)
  have hbreaks : (t.escapes.map fun e => EscapeReason.breakTo e.label).Nodup := by
    have := List.Nodup.map (f := EscapeReason.breakTo) (fun _ _ h => EscapeReason.breakTo.inj h)
      hlabels
    rwa [List.map_map] at this
  have hcontinues : ((t.escapes.filter (·.loops)).map fun e =>
      EscapeReason.continueTo e.label).Nodup := by
    have := List.Nodup.map (f := EscapeReason.continueTo) (fun _ _ h => EscapeReason.continueTo.inj h)
      hloops
    rwa [List.map_map] at this
  refine List.nodup_append.2 ⟨List.nodup_append.2 ⟨by simp, hbreaks, ?_⟩, hcontinues, ?_⟩
  all_goals
    rintro a ha b hb rfl
    obtain ⟨e, -, rfl⟩ := List.mem_map.1 hb
    simp at ha

/-- The state that is recorded where the loop is left for a reason.  A return leaves the task itself. -/
def flow? (s : Span) : EscapeReason → Option Expr
  | .earlyReturn => none
  | .earlyBreak => some (breakFlow s "EarlyBreak" [load s t.names.brk])
  | .breakTo l => some (breakFlow s "BreakTo" [text s l, load s (t.breakVar l)])
  | .continueTo l => some (breakFlow s "ContinueTo" [text s l])

def flows (s : Span) : List Expr :=
  continueFlow s (load s t.names.value) :: t.variants.filterMap (t.flow? s)

end Taxonomy

/-! ### What is recorded -/

mutual

/-- The states that a statement records in a slot, in the order of the text.  Functions and classes
inside have slots of their own. -/
def Stmt.recorded (slot : String) : Stmt → List Expr
  | .expr _ e => (e.abort?.filter fun a => a.1 == slot).toList.map (·.2)
  | .for_ _ _ _ _ _ body orElse | .while_ _ _ _ body orElse | .if_ _ _ body orElse =>
    Stmt.recordedAll slot body ++ Stmt.recordedAll slot orElse
  | .with_ _ _ _ body | .callbackLoop _ _ _ _ body | .block _ _ _ body => Stmt.recordedAll slot body
  | .match_ _ _ cases => MatchCase.recordedAll slot cases
  | .try_ _ _ body handlers orElse final =>
    Stmt.recordedAll slot body ++ Handler.recordedAll slot handlers ++
      Stmt.recordedAll slot orElse ++ Stmt.recordedAll slot final
  | _ => []

def Stmt.recordedAll (slot : String) : List Stmt → List Expr
  | [] => []
  | s :: rest => Stmt.recorded slot s ++ Stmt.recordedAll slot rest

def Handler.recordedAll (slot : String) : List Handler → List Expr
  | [] => []
  | .mk _ _ _ body :: rest => Stmt.recordedAll slot body ++ Handler.recordedAll slot rest

def MatchCase.recordedAll (slot : String) : List MatchCase → List Expr
  | [] => []
  | .mk _ _ body :: rest => Stmt.recordedAll slot body ++ MatchCase.recordedAll slot rest

end

section

variable {k : Nat} {header : LoopHeader} (loc : Loc)

theorem recorded_abort (flow : Expr) :
    (abort (Taxonomy.of k header) loc flow).recorded (LoopNames.of k).slot = [flow] := by
  simp [abort, Stmt.recorded, Expr.abort?, call, attr, load, Taxonomy.of]

theorem recorded_onceLoop (slot : String) (label : Option String) (x : String)
    (body orElse : List Stmt) :
    (onceLoop (Taxonomy.of k header) loc label x body orElse).recorded slot =
      Stmt.recordedAll slot body ++ Stmt.recordedAll slot orElse := by
  rw [onceLoop, Stmt.recorded]

theorem recorded_assign (slot x : String) (e : Expr) : (assign loc x e).recorded slot = [] := by
  simp [assign, Stmt.recorded]

theorem recorded_ownLayer (label : Option String) (body : List Stmt) :
    Stmt.recordedAll (LoopNames.of k).slot (ownLayer (Taxonomy.of k header) loc label body) =
      Stmt.recordedAll (LoopNames.of k).slot (withValue (Taxonomy.of k header) body) ++
        [continueFlow loc.span (load loc.span (LoopNames.of k).value),
          breakFlow loc.span "EarlyBreak" [load loc.span (LoopNames.of k).brk]] := by
  simp only [ownLayer, Stmt.recordedAll, recorded_assign, recorded_onceLoop, recorded_abort,
    List.append_assoc, List.nil_append, List.append_nil, List.singleton_append]
  rfl

/-- What the layer of a label adds: the state for breaking to it, and for continuing it if it is a
loop. -/
def escapeFlows (t : Taxonomy) (s : Span) (e : EscapeLabel) : List Expr :=
  (if e.loops then (t.flow? s (.continueTo e.label)).toList else []) ++
    (t.flow? s (.breakTo e.label)).toList

theorem recorded_escapeLayer (inner : List Stmt) (e : EscapeLabel) :
    Stmt.recordedAll (LoopNames.of k).slot (escapeLayer (Taxonomy.of k header) loc inner e) =
      Stmt.recordedAll (LoopNames.of k).slot inner ++
        escapeFlows (Taxonomy.of k header) loc.span e := by
  cases h : e.loops
  · simp [escapeLayer, h, Stmt.recordedAll, Stmt.recorded, recorded_abort, escapeFlows,
      Taxonomy.flow?]
  · simp [escapeLayer, h, Stmt.recordedAll, recorded_assign, recorded_onceLoop, recorded_abort,
      escapeFlows, Taxonomy.flow?]

theorem recorded_escapeLayers (es : List EscapeLabel) (inner : List Stmt) :
    Stmt.recordedAll (LoopNames.of k).slot
        (es.foldl (escapeLayer (Taxonomy.of k header) loc) inner) =
      Stmt.recordedAll (LoopNames.of k).slot inner ++
        es.flatMap (escapeFlows (Taxonomy.of k header) loc.span) := by
  induction es generalizing inner with
  | nil => simp
  | cons e es ih => rw [List.foldl_cons, ih, recorded_escapeLayer, List.flatMap_cons,
      List.append_assoc]

theorem escapeFlows_perm (t : Taxonomy) (s : Span) :
    (breakFlow s "EarlyBreak" [load s t.names.brk] :: t.escapes.flatMap (escapeFlows t s)).Perm
      (t.variants.filterMap (t.flow? s)) := by
  have hvariants : t.variants.filterMap (t.flow? s) =
      breakFlow s "EarlyBreak" [load s t.names.brk] ::
        (t.escapes.flatMap (fun e => (t.flow? s (.breakTo e.label)).toList) ++
          t.escapes.flatMap fun e =>
            if e.loops then (t.flow? s (.continueTo e.label)).toList else []) := by
    have hloops : ((t.escapes.filter (·.loops)).map fun e => .continueTo e.label).filterMap
        (t.flow? s) = t.escapes.flatMap fun e =>
          if e.loops then (t.flow? s (.continueTo e.label)).toList else [] := by
      induction t.escapes with
      | nil => rfl
      | cons e es ih =>
        rw [List.flatMap_cons, ← ih]
        cases h : e.loops <;> simp [h, Taxonomy.flow?]
    have hbreaks : (t.escapes.map fun e => .breakTo e.label).filterMap (t.flow? s) =
        t.escapes.flatMap fun e => (t.flow? s (.breakTo e.label)).toList := by
      induction t.escapes with
      | nil => rfl
      | cons e es ih => rw [List.flatMap_cons, ← ih]; simp [Taxonomy.flow?]
    rw [Taxonomy.variants, List.filterMap_append, List.filterMap_append, hloops, hbreaks]
    rfl
  rw [hvariants]
  refine List.Perm.cons _ (List.Perm.trans ?_ List.perm_append_comm)
  exact (List.flatMap_append_perm t.escapes _ _).symm

theorem recorded_layers (label : Option String) (body : List Stmt) :
    (Stmt.recordedAll (LoopNames.of k).slot (layers (Taxonomy.of k header) loc label body)).Perm
      (Stmt.recordedAll (LoopNames.of k).slot (withValue (Taxonomy.of k header) body) ++
        (Taxonomy.of k header).flows loc.span) := by
  rw [layers, recorded_escapeLayers, recorded_ownLayer, List.append_assoc]
  refine List.Perm.append_left _ (List.Perm.cons _ ?_)
  exact escapeFlows_perm (Taxonomy.of k header) loc.span

end

/-! ### What is done about it -/

/-- A result that is told by its class: a `Break` holds no object, and no reason that has one for its label. -/
def Value.Told : Datum → Prop
  | .break_ (.object ..) | .break_ (.breakTo (.object ..) _) | .break_ (.continueTo (.object ..)) => False
  | _ => True

/-- What should be done about the result of an iterator function.  The loop may have been left for any reason
of the list, but returning needs a function to return from; all other results are refused. -/
def Machine.reactByClass (m : Machine σ ε) (loc : Loc) (header : CallbackHeader) (variants : List EscapeReason)
    (inFunction : Bool) (v : Datum) : Step σ ε :=
  let refused := exit (.raised (.badResult v))
  match v with
  | .continue_ x => m.bind loc header.result x
  | .break_ r =>
    match r.escape? with
    | some (reason, x) =>
      if reason ∈ variants ∧ (reason = .earlyReturn → inFunction = true) then
        m.act loc header reason x
      else refused
    | none => refused
  | _ => refused

theorem meets?_eq_none {r : Datum} (ht : (Value.break_ r).Told) (h : r.escape? = none) (why : EscapeReason) :
    r.meets? why = none := by
  cases r with
  | breakTo label v | continueTo label =>
    cases label with
    | text => cases h
    | object => exact ht.elim
  | earlyReturn | earlyBreak => cases h
  | object => exact ht.elim
  | _ => cases why <;> rfl

theorem react_told {m : Machine σ ε} {st : State σ ε} {v : Datum} (ht : v.Told) (t : Taxonomy) (loc : Loc)
    (header : CallbackHeader) (inFunction : Bool) :
    m.react loc header (t.reasons inFunction) v st =
      m.reactByClass loc header t.variants inFunction v st := by
  cases v with
  | break_ r =>
    cases h : r.escape? with
    | none =>
      have hnone : ((t.reasons inFunction).findSome? fun why => (r.meets? why).map (why, ·)) = none :=
        List.findSome?_eq_none_iff.2 fun why _ => by rw [meets?_eq_none ht h, Option.map_none]
      simp only [Machine.react, Machine.reactByClass, hnone, h]
    | some found =>
      obtain ⟨why, x⟩ := found
      have hmem : why ∈ t.reasons inFunction ↔ why ∈ t.variants ∧ (why = .earlyReturn → inFunction = true) := by
        simp [Taxonomy.reasons, imp_iff_not_or]
      simp only [react_of_escape? h, Machine.reactByClass, h, hmem]
      split <;> rfl
  | _ => rfl

/-! ### The three together -/

/-- The reasons of a callback loop, the states that its layers record and the conditions behind its call
agree.  Every reason is listed once; the layers record the state for going on and one for every reason
but a return, beside what the body records; behind the call a result is acted upon by the first reason of the
list that it meets, which for a result that is told by its class is its own; and a break goes on with its value
if the construct around the loop takes one. -/
theorem outcomes_agree (k : Nat) (loc : Loc) (header : CallbackHeader)
    (hdistinct : DistinctClause header.escapes) :
    let t := Taxonomy.of k header.toLoopHeader
    t.variants.Nodup ∧
      (∀ label body, (Stmt.recordedAll t.names.slot (layers t loc label body)).Perm
        (Stmt.recordedAll t.names.slot (withValue t body) ++ t.flows loc.span)) ∧
      (∀ {σ ε : Type} (m : Machine σ ε) (st : State σ ε) (v : Datum) (iter : Expr)
        (inFunction debug : Bool), m.globals.support = true →
        st.frame t.names.result = some (.value v) →
        Stmt.execAll m (dispatch t loc header iter inFunction debug).tail st =
            m.react loc header (t.reasons inFunction) v st ∧
          (v.Told → m.react loc header (t.reasons inFunction) v st =
            m.reactByClass loc header t.variants inFunction v st)) ∧
      ∀ (scope : LabelScope) (ds : List LabelDecl), scope.escapes header.escapes = .ok ds →
        ∀ e ∈ header.escapes, ∀ outer, scope.lookup e.label = some outer →
          (escapeValues scope header).carries e.label = outer.takesValue := by
  refine ⟨Taxonomy.nodup_variants _ hdistinct, fun label body => recorded_layers loc label body,
    fun m st v iter inFunction debug hs h =>
      ⟨execAll_branches hs loc inFunction h, fun ht => react_told ht _ loc header inFunction⟩, ?_⟩
  intro scope ds hds e he outer ho
  rw [CallbackHeader.carries, takesValue_escapeValues hds he ho]
  rfl

def searchHeader : CallbackHeader :=
  ⟨⟨none, [⟨"found", false, default⟩, ⟨"rows", true, default⟩], some "count"⟩,
    some [("found", true), ("rows", false)]⟩

def idleMachine : Machine Unit Unit where
  host :=
    { perform := fun _ s => (s, .ok ())
      evaluate := fun _ s => (s, .ok .none)
      test := fun _ s => (s, .ok false)
      assign := fun _ _ s => (s, .ok ())
      open_ := fun _ s => (s, .ok .none)
      next := fun _ s => (s, .ok none)
      iterator := fun _ s => (s, .ok fun _ s => (s, .finish .none)) }
  globals := { support := true }
  bound := 0

def behindCall (v : Datum) : State Unit Unit :=
  ⟨Frame.empty.set (LoopNames.of 1).result (.value v), ⟨(), []⟩⟩

theorem frame_behindCall (v : Datum) : (behindCall v).frame (LoopNames.of 1).result = some (.value v) := by
  simp [behindCall, Frame.set]

theorem outcomes_agree_searchHeader :
    DistinctClause searchHeader.escapes ∧
      let t := Taxonomy.of 1 searchHeader.toLoopHeader
      t.variants = [.earlyReturn, .earlyBreak, .breakTo "found", .breakTo "rows", .continueTo "rows"] ∧
      (Stmt.recordedAll t.names.slot (layers t default none [.pass default])).Perm
        (t.flows default) ∧
      Stmt.execAll idleMachine (dispatch t default searchHeader (.const default .none) true false).tail
          (behindCall (.break_ (.breakTo "found" (.int 7)))) =
        (.jump .break_ (some "found") (.int 7),
          behindCall (.break_ (.breakTo "found" (.int 7)))) ∧
      Stmt.execAll idleMachine (dispatch t default searchHeader (.const default .none) true false).tail
          (behindCall (.break_ (.continueTo "found"))) =
        (.raised (.badResult (.break_ (.continueTo "found"))),
          behindCall (.break_ (.continueTo "found"))) := by
  have hdistinct : DistinctClause searchHeader.escapes := by unfold DistinctClause; decide
  obtain ⟨-, hlayers, hdispatch, -⟩ := outcomes_agree 1 default searchHeader hdistinct
  have hresult (v : Datum) (ht : v.Told) := by
    obtain ⟨hreact, htold⟩ :=
      hdispatch idleMachine _ v (.const default .none) true false rfl (frame_behindCall v)
    exact hreact.trans (htold ht)
  refine ⟨hdistinct, rfl, hlayers none [.pass default], ?_, ?_⟩
  · exact (hresult (.break_ (.breakTo "found" (.int 7))) trivial).trans rfl
  · exact (hresult (.break_ (.continueTo "found")) trivial).trans rfl

/-- A `Break` that holds an object which equals everything is no reason of the list, and continues the first
loop of the break clause. -/
theorem object_continues :
    let v : Datum := .break_ (.object () fun _ => true)
    v.payload?.bind Value.escape? = none ∧
      Stmt.execAll idleMachine (dispatch (Taxonomy.of 1 searchHeader.toLoopHeader) default searchHeader
          (.const default .none) true false).tail (behindCall v) =
        (.jump .continue_ (some "rows") .none, behindCall v) :=
  ⟨rfl, execAll_branches rfl default true (frame_behindCall _)⟩

end LoopEscape
