import LoopEscape.Proofs.Meaning.Draft
import LoopEscape.Proofs.Meaning.Expand
import LoopEscape.Proofs.Meaning.InPlace
import LoopEscape.Proofs.Expand.Targets

/-!
# Expanding loops and lowering labels keeps the meaning

A module of functions with callback loops is taken through all passes.  What comes out is plain code, and
in every world, with whatever iterator functions, each function does what it did before, when its loops
are read in place: the same things in the same order, the same elements delivered, with the same outcome
(`expandLoops_keeps_meaning`).  Only runs that end in the signal for the end of an iteration are apart,
since such an error is replaced when it leaves a task.
-/

namespace LoopEscape

open Generate Lower Step

variable {σ ε : Type}

/-! ### Expanded modules of functions -/

def ExpandedBody (p : ExpandPlace) (body out : List Stmt) : Prop :=
  ∃ loc hoisted wanted body', Stmt.ExpandAllTo p.function { kind := .function } body body' ∧
    out = insertAfterDoc (scopeStart loc hoisted wanted) body'

theorem expandAllTo_functions {p : ExpandPlace} {scope : LabelScope} :
    ∀ {functions out : List Stmt}, (∀ s ∈ functions, ∃ body, s.functionBody? = some body) →
      Stmt.ExpandAllTo p scope functions out →
      (∀ s ∈ out, ∃ body, s.functionBody? = some body) ∧
        List.Forall₂ (ExpandedBody p) (functions.filterMap Stmt.functionBody?)
          (out.filterMap Stmt.functionBody?)
  | [], out, _, h => by
    obtain rfl := h
    exact ⟨fun _ hs => absurd hs (by simp), .nil⟩
  | s :: rest, out, hf, h => by
    obtain ⟨s', rest', hs, hr, rfl⟩ := h
    obtain ⟨body, hb⟩ := hf s (by simp)
    obtain ⟨loc, isAsync, name, params, decorators, returns, rfl⟩ := functionBody?_eq hb
    obtain ⟨hoisted, wanted, body', hbody, rfl⟩ := hs
    obtain ⟨hall, hrest⟩ := expandAllTo_functions (fun s hs => hf s (List.mem_cons_of_mem _ hs)) hr
    refine ⟨fun s hs => ?_, .cons ⟨loc, hoisted, wanted, body', hbody, rfl⟩ hrest⟩
    rcases List.mem_cons.1 hs with rfl | hs
    · exact ⟨_, rfl⟩
    · exact hall s hs

theorem hoistedDeclarations_functions {functions : List Stmt}
    (h : ∀ s ∈ functions, ∃ body, s.functionBody? = some body) (before : Declarations) :
    hoistedDeclarations before functions = {} := by
  have hnone : Stmt.hoistedAll functions = {} := by
    induction functions with
    | nil => rfl
    | cons s rest ih =>
      obtain ⟨body, hb⟩ := h s (by simp)
      obtain ⟨_, _, _, _, _, _, rfl⟩ := functionBody?_eq hb
      rw [Stmt.hoistedAll, ih fun s hs => h s (List.mem_cons_of_mem _ hs)]
      rfl
  simp [hoistedDeclarations, hoistedNames, hnone, Declarations.unique, Declarations.without]

theorem resolveLabels_functions {functions : List Stmt}
    (h : ∀ s ∈ functions, ∃ body, s.functionBody? = some body) :
    ∀ s ∈ resolveLabels functions, ∃ body, s.functionBody? = some body := by
  unfold resolveLabels
  induction functions with
  | nil => exact fun s hs => absurd hs (by simp [Stmt.noteAll])
  | cons t rest ih =>
    obtain ⟨body, hb⟩ := h t (by simp)
    obtain ⟨_, _, _, _, _, _, rfl⟩ := functionBody?_eq hb
    rw [Stmt.noteAll, Stmt.noteLabels]
    intro s hs
    rcases List.mem_cons.1 hs with rfl | hs
    · exact ⟨_, rfl⟩
    · exact ih (fun s hs => h s (List.mem_cons_of_mem _ hs)) s hs

theorem functionModule_ensureImport {functions : List Stmt}
    (h : ∀ s ∈ functions, ∃ body, s.functionBody? = some body) :
    FunctionModule true (ensureImport functions).1 functions := by
  refine ⟨h, ?_⟩
  cases functions with
  | nil => exact ⟨_, _, rfl⟩
  | cons s rest =>
    obtain ⟨body, hb⟩ := h s (by simp)
    obtain ⟨_, _, _, _, _, _, rfl⟩ := functionBody?_eq hb
    exact ⟨_, _, rfl⟩

theorem expandLoops_functions (debug : Bool) (firstId : Nat) {module : List Stmt}
    (h : ∀ s ∈ module, ∃ body, s.functionBody? = some body) :
    ∃ imported functions, FunctionModule imported
        (expandLoops debug firstId (resolveLabels module)).body functions ∧
      Stmt.ExpandAllTo ⟨imported, debug, false, false, false⟩ LabelScope.top module functions := by
  obtain ⟨imported, loc, functions, hexpand, hbody⟩ := expandLoops_spec debug firstId module
  have hfun := (expandAllTo_functions h hexpand).1
  rw [hoistedDeclarations_functions (resolveLabels_functions h)] at hbody
  have hstart : scopeStart loc {} [] = [] := rfl
  rw [hstart, insertAfterDoc_nil] at hbody
  refine ⟨imported, functions, ?_, hexpand⟩
  rw [hbody]
  cases imported with
  | true => exact functionModule_ensureImport hfun
  | false => exact ⟨hfun, rfl⟩

theorem fitAll_functionBody {module : List Stmt} (hf : Stmt.FitAll LabelScope.top module)
    {body : List Stmt} (hb : body ∈ module.filterMap Stmt.functionBody?) :
    Stmt.FitAll { kind := .function } body := by
  induction module with
  | nil => exact absurd hb (by simp)
  | cons s rest ih =>
    rw [Stmt.FitAll] at hf
    obtain ⟨t, ht, hbody⟩ := List.mem_filterMap.1 hb
    rcases List.mem_cons.1 ht with rfl | ht
    · obtain ⟨_, _, _, _, _, _, rfl⟩ := functionBody?_eq hbody
      exact hf.1
    · exact ih hf.2 (List.mem_filterMap.2 ⟨t, ht, hbody⟩)

theorem CoveredModule.distinct {module : List Stmt} (hm : CoveredModule false module) :
    Stmt.EveryAll (fun s => s.DistinctLabels ∧ s.isSupportImport = false) module :=
  hm.every fun s h => by
    cases s with
    | callbackLoop => exact ⟨(h.resolve_right (by simp [Stmt.functionBody?])).2.2, rfl⟩
    | supportImport => exact (h.resolve_right (by simp [Stmt.functionBody?])).elim
    | _ => exact ⟨trivial, rfl⟩

theorem CoveredModule.expanded_spares {module : List Stmt} (hm : CoveredModule false module)
    (debug : Bool) (firstId : Nat) : Stmt.EveryAll (Stmt.Spares IsHolderName)
      (expandLoops debug firstId (resolveLabels module)).body := by
  have hready : Stmt.EveryAll (Stmt.Ready IsHolderName fun _ _ _ => True) module :=
    forall_walk.1 fun s hs => ⟨⟨forall_walk.2 hm.spares s hs, (forall_walk.2 hm.distinct s hs).2⟩,
      by cases s <;> trivial⟩
  exact expandLoops_clear debug firstId holders_self (fun n _ => Taxonomy.spared_holders n.2 _)
    (everyAll_mono (fun _ h => h.1) (noteAll_ready _ LabelScope.top hready))

/-! ### The meaning of functions -/

theorem execAll_insertAfterDoc {m : Machine σ ε} {decls : List Stmt}
    (h : Stmt.execAll m decls = done) (body : List Stmt) :
    Stmt.execAll m (insertAfterDoc decls body) = Stmt.execAll m body := by
  cases body with
  | nil => rw [insertAfterDoc, h, Stmt.execAll_nil]
  | cons s rest =>
    rw [insertAfterDoc]
    split
    · rw [Stmt.execAll_cons, Stmt.execAll_cons, Stmt.execAll_append, h, done_andThen]
    · rw [Stmt.execAll_append, h, done_andThen]

theorem Exit.Fits.calm {e : Exit ε} (h : e.Fits { kind := .function }) : e.Calm true := by
  cases e with
  | jump kind label v =>
    cases kind with
    | break_ =>
      obtain ⟨hasValue, hb, -⟩ := h
      cases label <;> cases hb
    | continue_ => cases label <;> cases h.1
  | suspended | stuck => exact h.elim
  | _ => exact h

theorem expanded_body_eq {m : Machine σ ε} {p : ExpandPlace} (hown : m.globals.Own)
    (hs : p.imported = true → m.globals.support = true) {body out : List Stmt}
    (hc : Stmt.CoveredAll false body) (hu : Unreserved (Stmt.namesAll body))
    (hf : Stmt.FitAll { kind := .function } body) (h : ExpandedBody p body out) (w : World σ) :
    (Stmt.execAll m out ⟨Frame.empty, w⟩).1 = (Stmt.execAll m body ⟨Frame.empty, w⟩).1 ∧
      (Stmt.execAll m out ⟨Frame.empty, w⟩).2.world =
        (Stmt.execAll m body ⟨Frame.empty, w⟩).2.world ∧
      (Stmt.execAll m body ⟨Frame.empty, w⟩).1.Calm true ∧
      Stmt.DraftedAll false [jumpVariable] none out := by
  obtain ⟨loc, hoisted, wanted, body', hexpand, rfl⟩ := h
  have hplace : p.function.Within m.globals := ⟨hown, hs, rfl, rfl⟩
  have hmirror := (expandAll_mirrors m hplace hc hu hf hexpand).all Frame.empty Frame.empty w
  rw [execAll_insertAfterDoc (execAll_scopeStart loc hoisted wanted)]
  refine ⟨hmirror.exit, hmirror.world, hmirror.fits.calm, draftedAll_of_loose (fun s hs => ?_) none⟩
  rcases mem_insertAfterDoc hs with hs | hs
  · exact loose_scopeStart loc hoisted wanted s hs
  · exact expandAll_loose leftAlone_jumpVariable hc hu hexpand s hs

theorem forall₂_trans {α β γ : Type} {R : α → β → Prop} {S : β → γ → Prop} {T : α → γ → Prop}
    (h : ∀ a b c, R a b → S b c → T a c) {as : List α} {bs : List β} {cs : List γ}
    (hr : List.Forall₂ R as bs) (hs : List.Forall₂ S bs cs) : List.Forall₂ T as cs := by
  induction hr generalizing cs with
  | nil => cases hs; exact .nil
  | cons hab _ ih =>
    cases hs with
    | cons hbc hs => exact .cons (h _ _ _ hab hbc) (ih hs)

/-- A body, read in place, and another one do the same from every world and end in the same way, unless
that is an error that a generator replaces; jumps do not leave the first, and it does not get stuck. -/
def SameInPlace (module module' body body' : List Stmt) : Prop :=
  ∀ (σ ε : Type) (host : Host σ ε) (bound : Nat) (w : World σ), host.Blind →
    (runBody host.inPlace bound module body w).1.Calm true ∧
      (¬ (runBody host.inPlace bound module body w).1.Replaced host.leaving →
        runBody host bound module' body' w = runBody host.inPlace bound module body w)

/-- Where labels are resolved, expanding callback loops and lowering labels succeeds.  What comes out is
plain code, and every function in it does what it did before. -/
theorem expandLoops_keeps_meaning (d : Display) (log : WarningLog) (source : Source)
    {module resolved : List Stmt} (hm : CoveredModule false module)
    (hr : (source.resolve d log module).2 = .ok resolved) (debug : Bool) (firstId nextId : Nat) :
    ∃ out lastId,
      lowerLabels nextId (expandLoops debug firstId resolved).body = .ok (out, lastId) ∧
      Stmt.ClosedAll false (fun _ _ => False) out ∧
      List.Forall₂ (SameInPlace module out) (module.filterMap Stmt.functionBody?)
        (out.filterMap Stmt.functionBody?) := by
  obtain ⟨hfit, rfl⟩ := fitAll_of_resolve hr
  have hfun : ∀ s ∈ module, ∃ body, s.functionBody? = some body :=
    fun s hs => (hm.bodies s hs).imp fun _ h => h.1
  obtain ⟨imported, functions, hexpanded, hexpand⟩ := expandLoops_functions debug firstId hfun
  have hresolve := expandAll_resolves module (LabelScope.sees_empty .module)
    (everyAll_mono (fun _ h => h.1) hm.distinct) hfit hexpand
  have hresolveAll : Stmt.ResolveAll [] (expandLoops debug firstId (resolveLabels module)).body := by
    have hsplit := hexpanded.split
    cases imported with
    | true =>
      obtain ⟨loc, names, hbody⟩ := hsplit
      rw [hbody]
      exact ⟨trivial, hresolve⟩
    | false =>
      rw [show _ = functions from hsplit]
      exact hresolve
  obtain ⟨out, lastId, made, hrun, hclosed, hnum, hsup, hmade, hlowered⟩ :=
    lowerLabels_functions nextId hexpanded hresolveAll (hm.expanded_spares debug firstId)
  refine ⟨out, lastId, hrun, hclosed, ?_⟩
  have hall := (List.forall₂_and_left _ _).2
    ⟨fun body hb => (⟨hm.mem_bodies hb, fitAll_functionBody hfit hb⟩ :
      (Stmt.CoveredAll false body ∧ Unreserved (Stmt.namesAll body)) ∧
        Stmt.FitAll { kind := .function } body), (expandAllTo_functions hfun hexpand).2⟩
  refine forall₂_trans ?_ hall hlowered
  rintro body expanded lowered ⟨⟨⟨hc, hu⟩, hf⟩, hbody⟩ hl σ ε host bound w hb
  have hown : (Globals.load module).Own := by
    rw [Globals.load, foldl_after_functions hfun]
    exact fun _ _ h => by cases h
  -- with errors replaced in both, the two runs are the same
  have hruns : ∀ host : Host σ ε, host.Blind →
      runBody host bound out lowered w = runBody host bound module body w ∧
        (runBody host bound module body w).1.Calm true := by
    intro host hb
    have hsame : Stmt.execAll ⟨host, Globals.load out, bound⟩ body =
        Stmt.execAll ⟨host, Globals.load module, bound⟩ body :=
      execAll_within ⟨host, Globals.load module, bound⟩ hown (hnum.own hmade) body hu
    obtain ⟨hexit, hworld, hcalm, hdraft⟩ := expanded_body_eq
      (m := ⟨host, Globals.load out, bound⟩) (hnum.own hmade) hsup hc hu hf hbody w
    obtain ⟨heq, -⟩ := lowered_body_eq (hnum.knows hmade hb bound) hl hdraft w
    rw [hsame] at hexit hworld hcalm
    refine ⟨?_, hcalm⟩
    simp only [runBody, heq, hexit, hworld]
  refine ⟨(hruns host.inPlace hb.inPlace).2, fun hr => (hruns host hb).1.trans ?_⟩
  have hplace := (execAll_inPlace ⟨host, Globals.load module, bound⟩ hc).1 ⟨Frame.empty, w⟩ hr
  simp only [runBody, hplace]
  rfl

/-- A visit of rows by two iterator functions, one inside the other: the inner body goes on with the
next row, or leaves all loops and the block around them with a value. -/
def visitRows : List Stmt :=
  let name (id : String) : Expr := .name default id .load
  let each (id : String) : Expr := .call default (name "each") [name id] []
  [.function default false "visit" (.mk [] [] none [] none)
    [.block default "found" (some "hit")
      [.for_ default false { label := some "rows" } (.name default "row" .store) (name "grid")
        [.callbackLoop default
          ⟨⟨none, [⟨"found", false, default⟩, ⟨"rows", true, default⟩], some "count"⟩, none⟩
          (.name default "x" .store) (each "row")
          [.callbackLoop default
            ⟨⟨some "cells", [⟨"rows", true, default⟩, ⟨"found", false, default⟩], none⟩, none⟩
            (.name default "y" .store) (each "x")
            [.if_ default (name "y") [.break_ default (some "found") (some (name "y"))]
              [.continue_ default (some "rows")]],
          .expr default (name "x")]]
        []],
      .return_ default (some (name "hit"))]
    [] none]

theorem covered_visitRows : CoveredModule false visitRows where
  bodies s hs := by
    rw [visitRows, List.mem_singleton] at hs
    exact ⟨_, by rw [hs]; rfl, by simp [Stmt.EveryAll, Stmt.Every, Stmt.Covered, CallForm.of?]⟩
  unreserved := by
    unfold Unreserved
    decide +kernel
  holders := (of_summedPlain (by decide +kernel)).2

theorem expandLoops_visitRows : CoveredModule false visitRows ∧
    ∃ out lastId,
      lowerLabels 3 (expandLoops true 1 (resolveLabels visitRows)).body = .ok (out, lastId) ∧
      Stmt.ClosedAll false (fun _ _ => False) out ∧
      List.Forall₂ (SameInPlace visitRows out) (visitRows.filterMap Stmt.functionBody?)
        (out.filterMap Stmt.functionBody?) :=
  ⟨covered_visitRows, expandLoops_keeps_meaning {} {} ⟨"", none⟩ covered_visitRows rfl true 1 3⟩

end LoopEscape
