import LoopEscape.Proofs.Dialect.Attached
import LoopEscape.Proofs.Expand.Relation

/-!
# Code without callback loops

Where there is no callback loop, resolving labels and expanding have nothing to do: each statement stays
as it is, and nothing is declared for it (`expandAll_direct`).  The support module is imported if there is
one, at any depth (`expandLoops_imports`).
-/

namespace LoopEscape

open Generate

def Stmt.isCallbackLoop : Stmt → Bool
  | .callbackLoop .. => true
  | _ => false

def Stmt.Direct (s : Stmt) : Prop := s.isCallbackLoop = false

def Stmt.Settled (s : Stmt) : Prop := s.Direct ∧ s.Filled

theorem orPass_filled {body : List Stmt} (h : body ≠ []) (loc : Loc) : orPass loc body = body := by
  cases body with
  | nil => exact absurd rfl h
  | cons => rfl

theorem hoistedDeclarations_none {body : List Stmt} (h : Stmt.hoistedAll body = {}) (before : Declarations) :
    hoistedDeclarations before body = {} := by
  rw [hoistedDeclarations, hoistedNames, h]
  rfl

theorem hoistedAll_direct {body : List Stmt} (h : Stmt.EveryAll Stmt.Direct body) :
    Stmt.hoistedAll body = {} := by
  refine Declarations.eq_empty fun isGlobal x hx => ?_
  induction body using Stmt.parts_induction with
  | h body ih =>
    rw [Stmt.has_collected Stmt.hoisted Stmt.hoistedAll rfl fun _ _ => rfl] at hx
    obtain ⟨s, hs, hx⟩ := hx
    obtain ⟨b, hb, hx⟩ := Stmt.has_hoisted_iff.1 hx
    obtain ⟨hdirect, hbodies⟩ := Stmt.every_iff.1 (everyAll_iff.1 h s hs)
    have hloop : ¬ s.IsCallbackLoop := by
      cases s <;> first | exact id | cases hdirect
    rw [if_neg hloop] at hx
    exact ih s hs b hb (hbodies b (Stmt.body_of_part hb)) hx

theorem refill_self {s : Stmt} {fill : Loc → List Stmt → List Stmt} (hs : s.isInner = true)
    (hfill : ∀ loc b, b ≠ [] → fill loc b = b) (h : s.Filled ∨ ∀ loc, fill loc [] = []) :
    s.refill fill s.bodies = s := by
  have hmain {loc : Loc} {b : List Stmt} (hb : s.Filled → b ≠ []) : fill loc b = b := by
    by_cases hnil : b = []
    · rw [hnil, h.resolve_left fun h => hb h hnil]
    · exact hfill loc b hnil
  have hzip {α : Type} {f : α → List Stmt} {g : α → List Stmt → α} {l : List α}
      (hg : ∀ a ∈ l, g a (f a) = a) : l.zipWith g (l.map f) = l := by
    rw [List.zipWith_map_right, List.zipWith_self]
    exact (List.map_congr_left hg).trans l.map_id
  cases s with
  | function | class_ | callbackLoop | global | nonlocal => cases hs
  | for_ | while_ | if_ | with_ | block => simp only [Stmt.refill, Stmt.bodies, hmain id]
  | match_ loc subject cases =>
    refine congrArg (Stmt.match_ loc subject) (hzip fun c hc => ?_)
    have hbody := @hmain loc c.body fun h => h.2 c hc
    cases c
    exact congrArg _ hbody
  | try_ loc isStar body handlers orElse final =>
    rw [Stmt.bodies, List.cons_append, Stmt.refill_try (List.length_map _), hmain (·.1), hzip fun c hc => ?_]
    have hbody := @hmain c.loc c.body fun h => h.2.2 c hc
    cases c
    exact congrArg _ hbody
  | _ => rfl

theorem noteAll_direct {body : List Stmt} (h : Stmt.EveryAll Stmt.Direct body) (scope : LabelScope) :
    Stmt.noteAll scope body = body := by
  induction body using Stmt.suite_induction generalizing scope with
  | nil => rfl
  | cons s rest ih ihrest =>
    rw [Stmt.noteAll, ihrest h.2]
    refine congrArg (· :: rest) ?_
    replace h := h.1
    cases s with
    | callbackLoop => exact nomatch h.1
    | function | class_ | with_ | block => simp only [Stmt.noteLabels, ih _ (.head _) h.2]
    | for_ | while_ | if_ =>
      simp only [Stmt.noteLabels, ih _ (.head _) h.2.1, ih _ (.tail _ (.head _)) h.2.2]
    | match_ | try_ =>
      rw [noteLabels_kept rfl, List.map_congr_left fun b hb => ih b hb ((Stmt.every_iff.1 h).2 b hb) scope,
        List.map_id']
      exact refill_self rfl (fun _ _ _ => rfl) (.inr fun _ => rfl)
    | _ => rfl

theorem expandAll_direct {body : List Stmt} (h : Stmt.EveryAll Stmt.Settled body) {ctx : ExpandContext}
    (hctx : ctx.dropping = false) : Stmt.expandAll ctx body = pure body := by
  induction body using Stmt.suite_induction generalizing ctx with
  | nil => rfl
  | cons s rest ih ihrest =>
    suffices hs : s.expand ctx = pure [s] by
      rw [Stmt.expandAll, hs, ihrest h.2 hctx, pure_bind, pure_bind, List.singleton_append]
    replace h := h.1
    cases hs : s.isInner with
    | true =>
      have hbodies (l : List (List Stmt)) (hl : ∀ b ∈ l, Stmt.expandAll ctx b = pure b) :
          l.mapM (Stmt.expandAll ctx) = pure l := by
        induction l with
        | nil => rfl
        | cons b l ihl =>
          obtain ⟨hb, hl⟩ := List.forall_mem_cons.1 hl
          rw [List.mapM_cons, hb, ihl hl, pure_bind, pure_bind]
      rw [Stmt.expand_inner hs, hbodies _ fun b hb => ih b hb ((Stmt.every_iff.1 h).2 b hb) hctx, pure_bind,
        refill_self hs (fun loc _ hb => orPass_filled hb loc) (.inl (Stmt.every_iff.1 h).1.2)]
    | false =>
      cases s with
      | callbackLoop => exact nomatch h.1.1
      | function loc isAsync name params body decorators returns =>
        rw [Stmt.expand, ih body (.head _) h.2 rfl,
          hoistedDeclarations_none (hoistedAll_direct (everyAll_mono (fun _ h => h.1) h.2))]
        show (pure [Stmt.function loc isAsync name params (insertAfterDoc [] body) decorators returns] :
          Expand _) = _
        rw [insertAfterDoc_nil]
      | class_ => rw [Stmt.expand, ih _ (.head _) h.2 rfl]; rfl
      | global | nonlocal => rw [Stmt.expand, hctx]; rfl
      | _ => cases hs

theorem expandLoops_direct (debug : Bool) (firstId : Nat) {body : List Stmt}
    (h : Stmt.EveryAll Stmt.Settled body) :
    expandLoops debug firstId (resolveLabels body) = { body, loops := [], nextId := firstId } := by
  have hdirect : Stmt.EveryAll Stmt.Direct body := everyAll_mono (fun _ h => h.1) h
  rw [resolveLabels, noteAll_direct hdirect, expandLoops, expandAll_direct h rfl,
    hoistedDeclarations_none (hoistedAll_direct hdirect)]
  show ({ body := insertAfterDoc [] body, loops := [], nextId := firstId } : Expansion) = _
  rw [insertAfterDoc_nil]

/-! ### Imports -/

theorem expand_direct {p : ExpandPlace} {scope : LabelScope} {body code : List Stmt}
    (hto : Stmt.ExpandAllTo p scope body code) : p.imported = false → Stmt.EveryAll Stmt.Direct body := by
  refine hto.induction (motive := fun p body _ => p.imported = false → Stmt.EveryAll Stmt.Direct body) ?nil
    ?append ?loop ?function ?class_ ?declaration ?inner
  case nil => exact fun _ _ => trivial
  case append => exact fun hs hbody hp => ⟨(hs hp).1, hbody hp⟩
  case loop => exact fun himported _ hp => nomatch himported.symm.trans hp
  case function => exact fun ih hp => ⟨⟨rfl, ih hp⟩, trivial⟩
  case class_ => exact fun ih hp => ⟨⟨rfl, ih hp⟩, trivial⟩
  case declaration =>
    intro p s hs hbodies _
    cases s <;> first | exact ⟨rfl, trivial⟩ | cases hbodies | cases hs
  case inner =>
    intro p s bs hs hbs hp
    have hown : s.Direct := by cases s <;> first | rfl | cases hs
    refine ⟨Stmt.every_iff.2 ⟨hown, fun b hb => ?_⟩, trivial⟩
    obtain ⟨b', -, ih⟩ := forall₂_mem_right hbs.flip hb
    exact ih hp

theorem expandLoops_imports (debug : Bool) (firstId : Nat) {module : List Stmt}
    (h : Stmt.EveryAll Stmt.Filled module) :
    Stmt.EveryAll Stmt.Direct module ∧ (expandLoops debug firstId (resolveLabels module)).body = module ∨
    ¬ Stmt.EveryAll Stmt.Direct module ∧ ∃ (loc : Loc) (code : List Stmt),
      Stmt.ExpandAllTo ⟨true, debug, false, false, false⟩ LabelScope.top module code ∧
      (expandLoops debug firstId (resolveLabels module)).body = (ensureImport (insertAfterDoc
        (scopeStart loc (hoistedDeclarations {} (resolveLabels module)) []) code)).1 := by
  by_cases hdirect : Stmt.EveryAll Stmt.Direct module
  · have hsettled : Stmt.EveryAll Stmt.Settled module := forall_walk.1 fun s hs =>
      ⟨forall_walk.2 hdirect s hs, forall_walk.2 h s hs⟩
    exact .inl ⟨hdirect, by rw [expandLoops_direct debug firstId hsettled]⟩
  · let ctx : ExpandContext := { debug, scope := { isModule := true } }
    let r := Stmt.expandAll ctx (resolveLabels module) { nextId := firstId }
    have hto {imported : Bool} (hi : r.2.loops ≠ [] → imported = true) :
        Stmt.ExpandAllTo (ctx.place imported) LabelScope.top module r.1 :=
      (expandAll_gives module ctx LabelScope.top).result { nextId := firstId } hi
    have hloops : r.2.loops ≠ [] := fun hnone =>
      hdirect (expand_direct (hto (absurd hnone)) rfl)
    refine .inr ⟨hdirect, (r.1.head?.map (·.loc)).getD default, r.1, hto fun _ => rfl, ?_⟩
    show (if r.2.loops.isEmpty then _ else _) = _
    rw [if_neg (by simpa using hloops)]

end LoopEscape
