import LoopEscape.Proofs.Meaning.Module
import LoopEscape.Proofs.Lower.Visible
import LoopEscape.Proofs.Expand.Direct

/-!
# Lowering labels keeps the meaning

A module of functions without callback loops is taken through the resolution of labels and lowered.
What comes out is plain code, and in every world each function does what it did before: the same things
in the same order, with the same outcome (`lowerLabels_keeps_meaning`).  That labels are resolved gives
every jump a target, and that the source has no generated names keeps its code apart from what lowering
adds.
-/

namespace LoopEscape

open Generate Lower Step

variable {σ ε : Type}

/-! ### Code without generated names can be lowered -/

theorem avoids_of_unreserved {target : Expr} {names : List String} (h : Unreserved target.names)
    (hn : ∀ x ∈ names, isReserved x = true) : target.Avoids names := by
  rintro s x rfl hx
  rw [Expr.names_name, unreserved_cons, hn x hx] at h
  exact absurd h.1 (by simp)

theorem holder?_unreserved {e : Expr} (h : Unreserved e.names) {x : String}
    (hx : e.holder? = some x) (k : Nat) : x ≠ holderName k := by
  rintro rfl
  unfold Expr.holder? at hx
  split at hx
  · cases hx
    rw [Expr.names_call, Expr.names_member, Expr.names_name, List.append_assoc,
      List.singleton_append, unreserved_cons, isReserved_holderName] at h
    exact absurd h.1 (by simp)
  · cases hx

theorem reserved_jumpVariable : ∀ x ∈ [jumpVariable], isReserved x = true := by
  intro x hx
  rw [List.mem_singleton.1 hx]
  exact isReserved_generatedName _

theorem drafted_leaf {plain : Bool} {names : List String} {s : Stmt} (hs : s.bodies = [])
    (hn : ∀ x ∈ names, isReserved x = true) (hc : s.Covered plain) (h : Unreserved s.names) :
    s.Drafted plain names := by
  cases s with
  | assign =>
    rw [Stmt.names, unreserved_append, unreserved_flatMap] at h
    rw [Stmt.Drafted]
    exact ⟨fun t ht => avoids_of_unreserved (h.1 t ht) hn,
      fun hv => absurd (Expr.relayed?_unreserved h.2) hv⟩
  | raise =>
    rw [Stmt.names, unreserved_append] at h
    rw [Stmt.Drafted]
    intro x hx k
    obtain ⟨e, rfl, he⟩ := Option.bind_eq_some_iff.1 hx
    exact holder?_unreserved (by simpa [Expr.namesOption] using h.1) he k
  | expr =>
    rw [Stmt.names] at h
    rw [Stmt.Drafted, Expr.abort?_unreserved h]
    exact fun _ _ h => (by cases h)
  | break_ =>
    rw [Stmt.names] at h
    rw [Stmt.Drafted]
    rintro e rfl
    have he : Unreserved e.names := by simpa [Expr.namesOption] using h
    exact ⟨Expr.relayed?_unreserved he, Expr.abort?_unreserved he⟩
  | match_ | supportImport => exact hc.elim
  | function | class_ | for_ | while_ | if_ | with_ | try_ | callbackLoop | block => cases hs
  | _ => simp only [Stmt.Drafted]

theorem draftedAll_of_covered (cleared : Option String) {body : List Stmt}
    (hc : Stmt.CoveredAll true body) (h : Unreserved (Stmt.namesAll body)) :
    Stmt.DraftedAll true [jumpVariable] cleared body := by
  induction body using Stmt.suite_induction generalizing cleared with
  | nil => trivial
  | cons s rest ih ihrest =>
    rw [Stmt.namesAll, unreserved_append] at h
    obtain ⟨hc, hcr⟩ := hc
    obtain ⟨h, hr⟩ := h
    have htarget : s.valueTarget? = none := by
      cases s with
      | for_ => exact hc.1.2
      | while_ => exact hc.1
      | _ => rfl
    refine ⟨?_, fun x hx => (by cases htarget.symm.trans hx), ihrest _ hcr hr⟩
    cases s with
    | for_ _ isAsync mark target iter body orElse =>
      rw [Stmt.names, unreserved_append, unreserved_append, unreserved_append] at h
      obtain ⟨⟨rfl, hm⟩, hb, he⟩ := hc
      rw [Stmt.Drafted, hm]
      exact ⟨fun h => (by cases h), avoids_of_unreserved h.1.1.1 reserved_jumpVariable,
        fun _ h => (by cases h), ih body (.head _) none hb h.1.2, ih orElse (.tail _ (.head _)) none he h.2⟩
    | while_ _ mark test body orElse =>
      rw [Stmt.names, unreserved_append, unreserved_append] at h
      obtain ⟨hm, hb, he⟩ := hc
      rw [Stmt.Drafted, show mark.valueTarget = none from hm]
      exact ⟨fun _ h => (by cases h), ih body (.head _) none hb h.1.2,
        ih orElse (.tail _ (.head _)) none he h.2⟩
    | if_ _ test body orElse =>
      rw [Stmt.names, unreserved_append, unreserved_append] at h
      rw [Stmt.Drafted]
      exact ⟨ih body (.head _) none hc.2.1 h.1.2, ih orElse (.tail _ (.head _)) none hc.2.2 h.2⟩
    | try_ _ isStar body handlers orElse final =>
      rw [Stmt.names, unreserved_append, unreserved_append, unreserved_append] at h
      obtain ⟨⟨hp, hs, rfl⟩, hb, -, he, hf⟩ := hc
      rw [Stmt.Drafted]
      exact ⟨hp, hs, rfl, ih body (.head _) none hb h.1.1.1, ih orElse (.tail _ (.head _)) none he h.1.2,
        ih final (.tail _ (.tail _ (.head _))) none hf h.2⟩
    | block _ label target body =>
      rw [Stmt.names, unreserved_append] at h
      rw [Stmt.Drafted]
      refine ⟨?_, ih body (.head _) none hc.2 h.2⟩
      rintro x rfl hx
      have := h.1 x (by simp)
      rw [reserved_jumpVariable x hx] at this
      cases this
    | callbackLoop => cases hc.1.1
    | function | class_ | with_ | match_ => exact hc.1.elim
    | _ => exact drafted_leaf rfl reserved_jumpVariable hc h

/-! ### Jumps have targets where labels fit -/

theorem resolveAll_of_fits {scope : LabelScope} {shape : Shape} (hs : scope.Sees shape) {body : List Stmt}
    (hc : Stmt.CoveredAll true body) (hf : Stmt.FitAll scope body) : Stmt.ResolveAll shape body := by
  induction body using Stmt.suite_induction generalizing scope shape with
  | nil => trivial
  | cons s rest ih ihrest =>
    refine ⟨?_, ihrest hs hc.2 hf.2⟩
    obtain ⟨hc, -⟩ := hc
    obtain ⟨hf, -⟩ := hf
    cases s with
    | for_ | while_ =>
      exact ⟨ih _ (.head _) (hs.enterLoop _) hc.2.1 hf.1, ih _ (.tail _ (.head _)) hs hc.2.2 hf.2⟩
    | if_ => exact ⟨ih _ (.head _) hs hc.2.1 hf.1, ih _ (.tail _ (.head _)) hs hc.2.2 hf.2⟩
    | try_ =>
      obtain ⟨⟨-, -, rfl⟩, hb, -, he, hl⟩ := hc
      exact ⟨ih _ (.head _) hs hb hf.1, trivial, ih _ (.tail _ (.head _)) hs he hf.2.2.1,
        ih _ (.tail _ (.tail _ (.head _))) hs hl hf.2.2.2⟩
    | block => exact ih _ (.head _) (hs.enterBlock _) hc.2 hf
    | break_ => exact hs.break_ hf
    | continue_ => exact hs.continue_ hf
    | callbackLoop => cases hc.1.1
    | function | class_ | with_ | match_ => exact hc.1.elim
    | _ => trivial

/-! ### Modules -/

theorem resolveAll_of_fitAll {module : List Stmt} (hm : CoveredModule true module)
    (hf : Stmt.FitAll LabelScope.top module) : Stmt.ResolveAll [] module := by
  replace hm := hm.bodies
  induction module with
  | nil => trivial
  | cons s rest ih =>
    obtain ⟨body, hb, hc⟩ := hm s (by simp)
    obtain ⟨_, _, _, _, _, _, rfl⟩ := functionBody?_eq hb
    exact ⟨resolveAll_of_fits (LabelScope.sees_empty .function) hc hf.1,
      ih hf.2 fun s hs => hm s (List.mem_cons_of_mem _ hs)⟩

theorem CoveredModule.direct {module : List Stmt} (hm : CoveredModule true module) :
    Stmt.EveryAll Stmt.Direct module :=
  hm.every fun s h => by
    cases s with
    | callbackLoop => cases (h.resolve_right (by simp [Stmt.functionBody?])).1
    | _ => rfl

theorem CoveredModule.spares {plain : Bool} {module : List Stmt} (hm : CoveredModule plain module) :
    Stmt.EveryAll (Stmt.Spares IsHolderName) module := by
  refine forall_walk.1 fun s hs x hx => ?_
  rintro ⟨k, rfl⟩
  exact hm.holders k ⟨s, hs, hx⟩

/-- Where labels are resolved, lowering them succeeds.  What comes out is plain code, with no jump to a
label and no block, and every function in it does what it did before. -/
theorem lowerLabels_keeps_meaning (d : Display) (log : WarningLog) (source : Source)
    {module resolved : List Stmt} (hm : CoveredModule true module)
    (hr : (source.resolve d log module).2 = .ok resolved) (firstId : Nat) :
    ∃ out nextId, lowerLabels firstId resolved = .ok (out, nextId) ∧
      Stmt.ClosedAll false (fun _ _ => False) out ∧
      List.Forall₂ (SameRuns module out) (module.filterMap Stmt.functionBody?)
        (out.filterMap Stmt.functionBody?) := by
  obtain ⟨hfit, rfl⟩ := fitAll_of_resolve hr
  have hfun : FunctionModule false module module :=
    ⟨fun s hs => (hm.bodies s hs).imp fun _ h => h.1, rfl⟩
  obtain ⟨out, nextId, made, hrun, hclosed, hnum, -, hmade, hbodies⟩ :=
    lowerLabels_functions firstId hfun (resolveAll_of_fitAll hm hfit) hm.spares
  rw [resolveLabels, noteAll_direct hm.direct]
  refine ⟨out, nextId, hrun, hclosed, ?_⟩
  have hall := (List.forall₂_and_left _ _).2 ⟨fun body hb => hm.mem_bodies hb, hbodies⟩
  refine hall.imp ?_
  rintro body body' ⟨⟨hc, hu⟩, hl⟩ σ ε host bound w hb
  have hown : (Globals.load module).Own := by
    rw [Globals.load, foldl_after_functions hfun.bodies]
    exact fun _ _ h => by cases h
  have hsame : Stmt.execAll ⟨host, Globals.load out, bound⟩ body =
      Stmt.execAll ⟨host, Globals.load module, bound⟩ body :=
    execAll_within ⟨host, Globals.load module, bound⟩ hown (hnum.own hmade) body hu
  obtain ⟨heq, hcalm⟩ := lowered_body_eq (hnum.knows hmade hb bound) hl
    (draftedAll_of_covered none hc hu) w
  rw [hsame] at heq hcalm
  refine ⟨?_, hcalm⟩
  simp only [runBody, heq]

/-- A search through rows: it goes on with the next row out of an inner loop, past a `finally`, and
leaves the block around with what it found. -/
def searchRows : List Stmt :=
  let name (id : String) : Expr := .name default id .load
  [.function default false "search" (.mk [] [] none [] none)
    [.block default "found" (some "hit")
      [.for_ default false { label := some "rows" } (.name default "row" .store) (name "grid")
        [.try_ default false
          [.for_ default false {} (.name default "x" .store) (name "row")
            [.if_ default (name "x") [.break_ default (some "found") (some (name "x"))]
              [.continue_ default (some "rows")]]
            []]
          [] [] [.expr default (name "log")]]
        []],
      .return_ default (some (name "hit"))]
    [] none]

theorem covered_searchRows : CoveredModule true searchRows where
  bodies s hs := by
    rw [searchRows, List.mem_singleton] at hs
    exact ⟨_, by rw [hs]; rfl, by simp [Stmt.EveryAll, Stmt.Every, Stmt.Covered, Handler.EveryAll]⟩
  unreserved := by
    unfold Unreserved
    decide +kernel
  holders := (of_summedPlain (by decide +kernel)).2

theorem lowerLabels_searchRows : CoveredModule true searchRows ∧
    ∃ out nextId, lowerLabels 1 searchRows = .ok (out, nextId) ∧
      Stmt.ClosedAll false (fun _ _ => False) out ∧
      List.Forall₂ (SameRuns searchRows out) (searchRows.filterMap Stmt.functionBody?)
        (out.filterMap Stmt.functionBody?) :=
  ⟨covered_searchRows, lowerLabels_keeps_meaning {} {} ⟨"", none⟩ covered_searchRows rfl 1⟩

end LoopEscape
