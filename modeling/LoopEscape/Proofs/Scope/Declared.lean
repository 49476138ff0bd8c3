import Mathlib.Logic.Basic
import LoopEscape.Proofs.Generate.Pieces
import LoopEscape.Proofs.Tree.Parts

/-!
# Declarations taken apart

What the statements of a scope declare is what its callback loops declare together with what is left once
these are taken out, up to the order of the names.  Code that is made for a loop declares nothing by
itself: a task has its declarations in front.
-/

namespace LoopEscape

open Generate

/-! ### Declarations as sets of names -/

namespace Declarations

def Has (d : Declarations) (isGlobal : Bool) (x : String) : Prop :=
  x ∈ if isGlobal then d.globals else d.nonlocals

variable {a b d : Declarations} {isGlobal : Bool} {x : String}

@[simp] theorem empty_append : ({} : Declarations) ++ d = d := rfl

@[simp] theorem append_empty : d ++ ({} : Declarations) = d := by
  obtain ⟨globals, nonlocals⟩ := d
  show (⟨globals ++ [], nonlocals ++ []⟩ : Declarations) = _
  rw [List.append_nil, List.append_nil]

theorem append_assoc : a ++ b ++ d = a ++ (b ++ d) := by
  show (⟨_ ++ _ ++ _, _ ++ _ ++ _⟩ : Declarations) = ⟨_, _⟩
  rw [List.append_assoc, List.append_assoc]
  rfl

@[simp] theorem has_append : (a ++ b).Has isGlobal x ↔ a.Has isGlobal x ∨ b.Has isGlobal x := by
  cases isGlobal <;> exact List.mem_append

@[simp] theorem not_has_empty : ¬ ({} : Declarations).Has isGlobal x := by
  cases isGlobal <;> exact List.not_mem_nil

@[simp] theorem has_unique : d.unique.Has isGlobal x ↔ d.Has isGlobal x := by
  cases isGlobal <;> exact List.mem_eraseDups

@[simp] theorem has_without :
    (a.without b).Has isGlobal x ↔ a.Has isGlobal x ∧ ¬ b.Has isGlobal x := by
  cases isGlobal <;> simp [Has, without]

theorem eq_empty (h : ∀ isGlobal x, ¬ d.Has isGlobal x) : d = {} := by
  obtain ⟨globals, nonlocals⟩ := d
  rw [mk.injEq]
  exact ⟨List.eq_nil_iff_forall_not_mem.2 (h true), List.eq_nil_iff_forall_not_mem.2 (h false)⟩

end Declarations

open Declarations

theorem mem_declared_globals {body : List Stmt} {x : String} :
    x ∈ (declaredNames body).globals ↔ (Stmt.declaredAll body).Has true x :=
  List.mem_eraseDups

theorem mem_declared_nonlocals {body : List Stmt} {x : String} :
    x ∈ (declaredNames body).nonlocals ↔ (Stmt.declaredAll body).Has false x :=
  List.mem_eraseDups

theorem declaredAll_append (a b : List Stmt) :
    Stmt.declaredAll (a ++ b) = Stmt.declaredAll a ++ Stmt.declaredAll b := by
  induction a with
  | nil => rw [List.nil_append, Stmt.declaredAll, empty_append]
  | cons s rest ih => rw [List.cons_append, Stmt.declaredAll, Stmt.declaredAll, ih, append_assoc]

@[simp] theorem declaredAll_orPass (loc : Loc) (body : List Stmt) :
    Stmt.declaredAll (orPass loc body) = Stmt.declaredAll body := by
  cases body <;> rfl

/-! ### One statement at a time -/

namespace Stmt

def IsDeclaration : Stmt → Prop
  | global .. | nonlocal .. => True
  | _ => False

def Declares (isGlobal : Bool) (x : String) : Stmt → Prop
  | global _ names => isGlobal = true ∧ x ∈ names
  | nonlocal _ names => isGlobal = false ∧ x ∈ names
  | _ => False

theorem Declares.isDeclaration {s : Stmt} {isGlobal : Bool} {x : String} (h : s.Declares isGlobal x) :
    s.IsDeclaration := by
  cases s <;> first | exact h | trivial

def IsCallbackLoop : Stmt → Prop
  | callbackLoop .. => True
  | _ => False

instance : DecidablePred IsDeclaration := fun s => by
  cases s <;> unfold IsDeclaration <;> infer_instance

instance : DecidablePred IsCallbackLoop := fun s => by
  cases s <;> unfold IsCallbackLoop <;> infer_instance

def bodyLeft (loc : Loc) (body : List Stmt) : List Stmt := orPass loc (undeclaredAll body)

variable {s : Stmt} {isGlobal : Bool} {x : String} {main : Loc → List Stmt → List Stmt}
  {rest : List Stmt → List Stmt}

theorem undeclared_eq (s : Stmt) :
    s.undeclared = if s.IsDeclaration then [] else [s.mapParts bodyLeft undeclaredAll] := by
  have hhandlers (handlers : List Handler) :
      Handler.undeclaredAll handlers = handlers.map (.mapBody bodyLeft) := by
    induction handlers with
    | nil => rfl
    | cons h rest ih => cases h; rw [Handler.undeclaredAll, ih]; rfl
  have hcases (loc : Loc) (cases : List MatchCase) :
      MatchCase.undeclaredAll loc cases = cases.map (.mapBody (bodyLeft loc)) := by
    induction cases with
    | nil => rfl
    | cons c rest ih => cases c; rw [MatchCase.undeclaredAll, ih]; rfl
  cases s <;> simp [undeclared, IsDeclaration, mapParts, hhandlers, hcases, bodyLeft]

theorem stripLoops_eq (s : Stmt) : s.stripLoops =
    if s.IsCallbackLoop then s.mapParts bodyLeft undeclaredAll
    else s.mapParts (fun _ => stripLoopsAll) stripLoopsAll := by
  have hhandlers (handlers : List Handler) :
      Handler.stripLoopsAll handlers = handlers.map (.mapBody fun _ => stripLoopsAll) := by
    induction handlers with
    | nil => rfl
    | cons h rest ih => cases h; rw [Handler.stripLoopsAll, ih]; rfl
  have hcases (cases : List MatchCase) :
      MatchCase.stripLoopsAll cases = cases.map (.mapBody stripLoopsAll) := by
    induction cases with
    | nil => rfl
    | cons c rest ih => cases c; rw [MatchCase.stripLoopsAll, ih]; rfl
  cases s <;> simp [stripLoops, IsCallbackLoop, mapParts, hhandlers, hcases, bodyLeft]

theorem undeclaredAll_eq (body : List Stmt) : undeclaredAll body = body.flatMap undeclared := by
  induction body with
  | nil => rfl
  | cons s rest ih => rw [undeclaredAll, ih, List.flatMap_cons]

theorem stripLoopsAll_eq (body : List Stmt) : stripLoopsAll body = body.map stripLoops := by
  induction body with
  | nil => rfl
  | cons s rest ih => rw [stripLoopsAll, ih, List.map_cons]

theorem has_collected {α : Type} (f : α → Declarations) (g : List α → Declarations) (hnil : g [] = {})
    (hcons : ∀ a l, g (a :: l) = f a ++ g l) (l : List α) :
    (g l).Has isGlobal x ↔ ∃ a ∈ l, (f a).Has isGlobal x := by
  induction l with
  | nil => simp [hnil]
  | cons a l ih => simp [hcons, ih]

theorem has_declared_iff : s.declared.Has isGlobal x ↔
    s.Declares isGlobal x ∨ ∃ b ∈ s.parts, (declaredAll b).Has isGlobal x := by
  have hhandlers (handlers : List Handler) : (Handler.declaredAll handlers).Has isGlobal x ↔
      ∃ h ∈ handlers, (declaredAll h.body).Has isGlobal x :=
    has_collected (declaredAll ·.body) Handler.declaredAll rfl (fun ⟨_, _, _, _⟩ _ => rfl) handlers
  have hcases (cases : List MatchCase) : (MatchCase.declaredAll cases).Has isGlobal x ↔
      ∃ c ∈ cases, (declaredAll c.body).Has isGlobal x :=
    has_collected (declaredAll ·.body) MatchCase.declaredAll rfl (fun ⟨_, _, _⟩ _ => rfl) cases
  cases s with
  | global | nonlocal => cases isGlobal <;> simp [declared, Declares, parts, bodies, Has]
  | _ => simp [declared, Declares, parts, bodies, hhandlers, hcases, or_and_right, exists_or, or_assoc,
      or_comm]

theorem has_written_iff : s.written.Has isGlobal x ↔
    s.Declares isGlobal x ∨ ∃ b ∈ s.parts, (writtenAll b).Has isGlobal x := by
  have hhandlers (handlers : List Handler) : (Handler.writtenAll handlers).Has isGlobal x ↔
      ∃ h ∈ handlers, (writtenAll h.body).Has isGlobal x :=
    has_collected (writtenAll ·.body) Handler.writtenAll rfl (fun ⟨_, _, _, _⟩ _ => rfl) handlers
  have hcases (cases : List MatchCase) : (MatchCase.writtenAll cases).Has isGlobal x ↔
      ∃ c ∈ cases, (writtenAll c.body).Has isGlobal x :=
    has_collected (writtenAll ·.body) MatchCase.writtenAll rfl (fun ⟨_, _, _⟩ _ => rfl) cases
  cases s with
  | global | nonlocal => cases isGlobal <;> simp [written, Declares, parts, bodies, Has]
  | _ => simp [written, Declares, parts, bodies, hhandlers, hcases, or_and_right, exists_or, or_assoc]

theorem has_hoisted_iff : s.hoisted.Has isGlobal x ↔ ∃ b ∈ s.parts,
    (if s.IsCallbackLoop then writtenAll b else hoistedAll b).Has isGlobal x := by
  have hhandlers (handlers : List Handler) : (Handler.hoistedAll handlers).Has isGlobal x ↔
      ∃ h ∈ handlers, (hoistedAll h.body).Has isGlobal x :=
    has_collected (hoistedAll ·.body) Handler.hoistedAll rfl (fun ⟨_, _, _, _⟩ _ => rfl) handlers
  have hcases (cases : List MatchCase) : (MatchCase.hoistedAll cases).Has isGlobal x ↔
      ∃ c ∈ cases, (hoistedAll c.body).Has isGlobal x :=
    has_collected (hoistedAll ·.body) MatchCase.hoistedAll rfl (fun ⟨_, _, _⟩ _ => rfl) cases
  cases s <;> simp [hoisted, IsCallbackLoop, parts, bodies, hhandlers, hcases, or_and_right, exists_or,
    or_assoc, or_comm]

theorem has_declared_mapParts
    (hmain : ∀ loc b, (declaredAll (main loc b)).Has isGlobal x ↔ (declaredAll (rest b)).Has isGlobal x) :
    (s.mapParts main rest).declared.Has isGlobal x ↔
      s.Declares isGlobal x ∨ ∃ b ∈ s.parts, (declaredAll (rest b)).Has isGlobal x := by
  rw [has_declared_iff]
  cases s <;> simp [mapParts, Declares, parts, bodies, hmain, or_and_right, exists_or]

end Stmt

/-! ### The loops of a scope -/

section

open Stmt

variable {isGlobal : Bool} {x : String}

theorem has_declaredAll_mem {body : List Stmt} :
    (declaredAll body).Has isGlobal x ↔ ∃ s ∈ body, s.declared.Has isGlobal x :=
  has_collected declared _ rfl (fun _ _ => rfl) body

theorem not_has_undeclaredAll (body : List Stmt) : ¬ (declaredAll (undeclaredAll body)).Has isGlobal x := by
  induction body using parts_induction with
  | h body ih =>
    rw [undeclaredAll_eq, has_declaredAll_mem]
    rintro ⟨t, ht, hx⟩
    obtain ⟨s, hs, ht⟩ := List.mem_flatMap.1 ht
    rw [undeclared_eq] at ht
    split at ht
    · cases ht
    next hdecl =>
      rw [List.mem_singleton.1 ht, has_declared_mapParts fun loc b => by rw [bodyLeft, declaredAll_orPass]] at hx
      obtain hx | ⟨b, hb, hx⟩ := hx
      · exact hdecl hx.isDeclaration
      · exact ih s hs b hb hx

theorem declaredAll_undeclaredAll (body : List Stmt) : declaredAll (undeclaredAll body) = {} :=
  eq_empty fun _ _ => not_has_undeclaredAll body

theorem has_writtenAll (body : List Stmt) :
    (writtenAll body).Has isGlobal x ↔ (declaredAll body).Has isGlobal x := by
  induction body using parts_induction with
  | h body ih =>
    rw [has_declaredAll_mem, has_collected written writtenAll rfl fun _ _ => rfl]
    refine exists_congr fun s => and_congr_right fun hs => ?_
    rw [has_written_iff, has_declared_iff]
    exact or_congr_right (exists_congr fun b => and_congr_right fun hb => ih s hs b hb)

theorem has_declaredAll (body : List Stmt) : (declaredAll body).Has isGlobal x ↔
    (hoistedAll body).Has isGlobal x ∨ (declaredAll (stripLoopsAll body)).Has isGlobal x := by
  induction body using parts_induction with
  | h body ih =>
    have hstep : ∀ s ∈ body, (s.declared.Has isGlobal x ↔
        s.hoisted.Has isGlobal x ∨ s.stripLoops.declared.Has isGlobal x) := by
      intro s hs
      rw [has_declared_iff, has_hoisted_iff, stripLoops_eq]
      split
      next hloop =>
        rw [has_declared_mapParts fun loc b => by rw [bodyLeft, declaredAll_orPass]]
        simp [has_writtenAll, not_has_undeclaredAll, or_comm]
      next hloop =>
        have hmain (loc : Loc) (b : List Stmt) : (declaredAll ((fun _ => stripLoopsAll) loc b)).Has
            isGlobal x ↔ (declaredAll (stripLoopsAll b)).Has isGlobal x := Iff.rfl
        rw [has_declared_mapParts hmain]
        grind
    rw [has_declaredAll_mem, has_declaredAll_mem, stripLoopsAll_eq,
      has_collected hoisted hoistedAll rfl fun _ _ => rfl]
    grind

theorem has_hoistedDeclarations {body : List Stmt} :
    (hoistedDeclarations {} body).Has isGlobal x ↔ (Stmt.hoistedAll body).Has isGlobal x ∧
      ¬ (Stmt.declaredAll (Stmt.stripLoopsAll body)).Has isGlobal x := by
  simp [hoistedDeclarations, hoistedNames, declaredNames]

end

/-! ### Generated code -/

theorem declaredAll_declarations (loc : Loc) (globals nonlocals : List String) :
    Stmt.declaredAll (declarations loc globals nonlocals) = ⟨globals, nonlocals⟩ := by
  have hglobals : Stmt.declaredAll (if globals.isEmpty then [] else [.global loc globals]) =
      ⟨globals, []⟩ := by
    cases globals <;> simp [Stmt.declaredAll, Stmt.declared]
  have hnonlocals : Stmt.declaredAll (if nonlocals.isEmpty then [] else [.nonlocal loc nonlocals]) =
      ⟨[], nonlocals⟩ := by
    cases nonlocals <;> simp [Stmt.declaredAll, Stmt.declared]
  rw [declarations, declaredAll_append, hglobals, hnonlocals]
  show (⟨globals ++ [], [] ++ nonlocals⟩ : Declarations) = _
  rw [List.append_nil, List.nil_append]

theorem declaredAll_variables (loc : Loc) (names : List String) :
    Stmt.declaredAll (names.map (variable_ loc)) = {} := by
  induction names with
  | nil => rfl
  | cons x names ih => rw [List.map_cons, Stmt.declaredAll, ih]; rfl

theorem declaredAll_scopeStart (loc : Loc) (hoisted : Declarations) (wanted : List String) :
    Stmt.declaredAll (scopeStart loc hoisted wanted) = hoisted := by
  rw [scopeStart, declaredAll_append, declaredAll_declarations, declaredAll_variables, append_empty]

theorem declaredAll_insertAfterDoc (start body : List Stmt) :
    Stmt.declaredAll (insertAfterDoc start body) =
      Stmt.declaredAll start ++ Stmt.declaredAll body := by
  cases body with
  | nil => simp [insertAfterDoc, Stmt.declaredAll]
  | cons s rest =>
    rw [insertAfterDoc]
    split
    next hs =>
      -- A documenting text declares nothing, so it may change places with the start.
      have htext : s.declared = {} := by
        unfold Stmt.isText at hs
        split at hs
        · rfl
        · cases hs
      rw [Stmt.declaredAll, Stmt.declaredAll, declaredAll_append, htext, empty_append, empty_append]
    · rw [declaredAll_append]

theorem declaredAll_ifChain {loc : Loc} {orElse : List Stmt} {branches : List (Expr × List Stmt)}
    (ho : Stmt.declaredAll orElse = {}) (hb : ∀ b ∈ branches, Stmt.declaredAll b.2 = {}) :
    Stmt.declaredAll (ifChain loc orElse branches) = {} := by
  induction branches with
  | nil => exact ho
  | cons b rest ih =>
    obtain ⟨test, body⟩ := b
    rw [ifChain, Stmt.declaredAll, Stmt.declared, hb _ List.mem_cons_self,
      ih fun b h => hb b (List.mem_cons_of_mem _ h)]
    rfl

theorem declaredAll_dispatch (t : Taxonomy) (loc : Loc) (header : CallbackHeader) (iter : Expr)
    (inFunction debug : Bool) : Stmt.declaredAll (dispatch t loc header iter inFunction debug) = {} := by
  refine (congrArg _ (declaredAll_ifChain rfl fun b hb => ?_)).trans empty_append
  obtain ⟨s, hs, hreaction⟩ := mem_branches hb
  rw [hs, Stmt.declaredAll, Stmt.declaredAll, append_empty]
  cases hreaction with
  | result | broken => cases header.result <;> rfl
  | wrong | returned | breakTo | continueTo => rfl

theorem declared_withValue (t : Taxonomy) (body : List Stmt) :
    Stmt.declaredAll (withValue t body) = Stmt.declaredAll body := by
  fun_induction withValue t body with
  | case1 => rfl
  | case2 loc e => rfl
  | case3 s rest _ ih => rw [Stmt.declaredAll, Stmt.declaredAll, ih]

theorem declaredAll_layers (t : Taxonomy) (loc : Loc) (label : Option String) (body : List Stmt) :
    Stmt.declaredAll (layers t loc label body) = Stmt.declaredAll body := by
  have hown : Stmt.declaredAll (ownLayer t loc label body) = Stmt.declaredAll body := by
    simp [ownLayer, onceLoop, assign, abort, Stmt.declaredAll, Stmt.declared, declared_withValue]
  have hescape : ∀ inner e, Stmt.declaredAll (escapeLayer t loc inner e) = Stmt.declaredAll inner := by
    intro inner e
    rw [escapeLayer]
    split <;> simp [onceLoop, assign, abort, Stmt.declaredAll, Stmt.declared]
  have hfold : ∀ (es : List EscapeLabel) (inner : List Stmt),
      Stmt.declaredAll (es.foldl (escapeLayer t loc) inner) = Stmt.declaredAll inner := by
    intro es
    induction es with
    | nil => exact fun _ => rfl
    | cons e es ih => exact fun inner => (ih _).trans (hescape inner e)
  rw [layers, hfold, hown]

end LoopEscape
