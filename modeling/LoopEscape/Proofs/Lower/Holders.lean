import LoopEscape.Proofs.Lower.Spec

/-!
# When lowering makes holders

A holder is made for the target of a jump that leaves the innermost loop around it.  So a module gets
holders exactly if such a jump is somewhere in it (`lowerLabels_holders`).
-/

namespace LoopEscape

open Generate Lower

/-! ### Jumps that leave the innermost loop -/

def Shape.Leaves (shape : Shape) (label : Option String) : Prop := shape.index? label ≠ shape.index? none

mutual

def Stmt.JumpsFar (shape : Shape) : Stmt → Prop
  | .function _ _ _ _ body _ _ | .class_ _ _ _ _ body _ => Stmt.JumpFarAll [] body
  | .for_ _ _ mark _ _ body orElse | .while_ _ mark _ body orElse =>
    Stmt.JumpFarAll ((mark.label, true) :: shape) body ∨ Stmt.JumpFarAll shape orElse
  | .if_ _ _ body orElse => Stmt.JumpFarAll shape body ∨ Stmt.JumpFarAll shape orElse
  | .with_ _ _ _ body | .callbackLoop _ _ _ _ body => Stmt.JumpFarAll shape body
  | .match_ _ _ cases => MatchCase.JumpFarAll shape cases
  | .try_ _ _ body handlers orElse final =>
    Stmt.JumpFarAll shape body ∨ Handler.JumpFarAll shape handlers ∨
      Stmt.JumpFarAll shape orElse ∨ Stmt.JumpFarAll shape final
  | .block _ label _ body => Stmt.JumpFarAll ((some label, false) :: shape) body
  | .break_ _ label _ | .continue_ _ label => shape.Leaves label
  | _ => False

def Stmt.JumpFarAll (shape : Shape) : List Stmt → Prop
  | [] => False
  | s :: rest => Stmt.JumpsFar shape s ∨ Stmt.JumpFarAll shape rest

def Handler.JumpFarAll (shape : Shape) : List Handler → Prop
  | [] => False
  | .mk _ _ _ body :: rest => Stmt.JumpFarAll shape body ∨ Handler.JumpFarAll shape rest

def MatchCase.JumpFarAll (shape : Shape) : List MatchCase → Prop
  | [] => False
  | .mk _ _ body :: rest => Stmt.JumpFarAll shape body ∨ MatchCase.JumpFarAll shape rest

end

/-! ### Work that makes holders -/

def LowerState.Held (s : LowerState) : Prop := ∀ t ∈ s.targets, t.holder ≠ none → s.holders ≠ []

/-- Where the work succeeds it comes back to the same place, and there are holders behind it if there
were some before, or if it jumps far. -/
def Lower.Makes {α : Type} (work : Lower α) (s : LowerState) (far : Prop) : Prop :=
  s.Held → ∀ a s', work s = .ok (a, s') →
    s'.shape = s.shape ∧ s'.Held ∧ (s'.holders ≠ [] ↔ s.holders ≠ [] ∨ far)

namespace Lower.Makes

variable {α β : Type} {s : LowerState} {far far' : Prop}

theorem pure (a : α) : Lower.Makes (pure a) s False := by
  rintro hs a' s' ⟨⟩
  exact ⟨rfl, hs, (or_false _).to_iff.symm⟩

theorem bind {work : Lower α} {next : α → Lower β} (h : work.Makes s far)
    (h' : ∀ a s', s'.shape = s.shape → (next a).Makes s' far') : (work >>= next).Makes s (far ∨ far') := by
  intro hs b s₂ hrun
  replace hrun : (work s >>= fun r => next r.1 r.2) = .ok (b, s₂) := hrun
  cases hwork : work s with
  | error e => rw [hwork] at hrun; cases hrun
  | ok r =>
    obtain ⟨a, s₁⟩ := r
    rw [hwork] at hrun
    obtain ⟨hshape, hs₁, hiff⟩ := h hs a s₁ hwork
    obtain ⟨hshape', hs₂, hiff'⟩ := h' a s₁ hshape hs₁ b s₂ hrun
    exact ⟨hshape'.trans hshape, hs₂, by rw [hiff', hiff, or_assoc]⟩

theorem map {work : Lower α} {f : α → β} (h : work.Makes s far) :
    (work >>= fun a => Pure.pure (f a)).Makes s far := by
  have hpure : ∀ a (s' : LowerState), s'.shape = s.shape → Lower.Makes (Pure.pure (f a)) s' False :=
    fun a s' _ => pure (f a)
  have hbind := h.bind hpure
  rwa [or_false] at hbind

theorem inScope {work : Lower α} (h : work.Makes { s with targets := [] } far) :
    (Lower.inScope work).Makes s far := by
  intro hs a s₂ hrun
  replace hrun : (work { s with targets := [] } >>= fun r =>
      (.ok (r.1, { r.2 with targets := s.targets }) : Except LowerFault (α × LowerState))) = .ok (a, s₂) := hrun
  cases hwork : work { s with targets := [] } with
  | error e => rw [hwork] at hrun; cases hrun
  | ok r =>
    obtain ⟨a', s₁⟩ := r
    rw [hwork] at hrun
    cases hrun
    obtain ⟨-, -, hiff⟩ := h nofun _ s₁ hwork
    exact ⟨rfl, fun t ht hne => hiff.2 (.inl (hs t ht hne)), hiff⟩

theorem inTarget {t : JumpTarget} {work : Lower α} (ht : t.holder = none)
    (h : work.Makes { s with targets := t :: s.targets } far) : (Lower.inTarget t work).Makes s far := by
  intro hs a s₂ hrun
  replace hrun : (work { s with targets := t :: s.targets } >>= fun r =>
      (.ok ((r.1, r.2.targets.headD t), { r.2 with targets := r.2.targets.drop 1 }) :
        Except LowerFault ((α × JumpTarget) × LowerState))) = .ok (a, s₂) := hrun
  cases hwork : work { s with targets := t :: s.targets } with
  | error e => rw [hwork] at hrun; cases hrun
  | ok r =>
    obtain ⟨a', s₁⟩ := r
    rw [hwork] at hrun
    cases hrun
    have hopened : LowerState.Held { s with targets := t :: s.targets } := by
      refine List.forall_mem_cons.2 ⟨fun hne => absurd ht hne, hs⟩
    obtain ⟨hshape, hs₁, hiff⟩ := h hopened a' s₁ hwork
    refine ⟨?_, fun u hu => hs₁ u (List.mem_of_mem_drop hu), hiff⟩
    show (s₁.targets.drop 1).map JumpTarget.shape = s.shape
    rw [List.map_drop]
    exact congrArg (List.drop 1) hshape

theorem shape_set {ts : List JumpTarget} {i : Nat} {t t' : JumpTarget} (hi : ts[i]? = some t)
    (h : t'.shape = t.shape) : (ts.set i t').map JumpTarget.shape = ts.map JumpTarget.shape := by
  obtain ⟨hlt, rfl⟩ := List.getElem?_eq_some_iff.1 hi
  rw [List.map_set, h, ← List.getElem_map JumpTarget.shape (h := by simpa using hlt), List.set_getElem_self]

theorem raiseTo_makes {i : Nat} {t : JumpTarget} (loc : Loc) (kind : JumpKind) (value : Option Expr)
    (hs : s.Held) (hi : s.targets[i]? = some t) :
    (raiseTo loc kind i t value s).2.shape = s.shape ∧ (raiseTo loc kind i t value s).2.holders ≠ [] := by
  have hshape : (t.noting kind).shape = t.shape := by cases kind <;> rfl
  rw [raiseTo_eq]
  unfold ensureHolder
  split
  · rename_i h hholder
    refine ⟨shape_set hi hshape, hs t (List.mem_of_getElem? hi) ?_⟩
    rw [← JumpTarget.noting_holder t kind, hholder]
    nofun
  · exact ⟨shape_set hi hshape, List.cons_ne_nil _ _⟩

theorem targets_of_index {ts : List JumpTarget} {label : Option String} {i : Nat}
    (h : targetIndex ts label = some i) : ts[i]? = some (ts.getD i default) := by
  have hlt : i < ts.length := by
    cases label with
    | none => exact (List.findIdx?_eq_some_iff_findIdx_eq.1 h).1
    | some l => exact (List.findIdx?_eq_some_iff_findIdx_eq.1 h).1
  rw [List.getD_eq_getElem?_getD, List.getElem?_eq_getElem hlt]
  rfl

theorem jump (loc : Loc) (kind : JumpKind) (label : Option String) (value : Option Expr) :
    (Lower.jump loc kind label value).Makes s (s.shape.Leaves label) := by
  intro hs a s' hrun
  have hleaves : s.shape.Leaves label ↔ targetIndex s.targets label ≠ targetIndex s.targets none := by
    rw [targetIndex_eq, targetIndex_eq]
    rfl
  unfold Lower.jump at hrun
  split at hrun
  · cases hrun
  · rename_i i hi
    have hinner : isInnermost s.targets i = true ↔ targetIndex s.targets none = some i := beq_iff_eq
    dsimp only at hrun
    split at hrun
    · rename_i hin
      cases hrun
      have hnear : ¬ s.shape.Leaves label := by
        rw [hleaves, hi, hinner.1 hin]
        exact not_not.2 rfl
      exact ⟨rfl, hs, by simp only [hnear, or_false]⟩
    · rename_i hout
      have hfar : s.shape.Leaves label := by
        rw [hleaves, hi]
        exact fun h => hout (hinner.2 h.symm)
      cases hrun
      obtain ⟨hshape, hheld⟩ := raiseTo_makes loc kind value hs (targets_of_index hi)
      exact ⟨hshape, fun _ _ _ => hheld, iff_of_true hheld (.inr hfar)⟩

end Lower.Makes

/-! ### Statements -/

mutual

theorem lower_makes (stmt : Stmt) (s : LowerState) : (Stmt.lower stmt).Makes s (stmt.JumpsFar s.shape) := by
  cases stmt with
  | function loc isAsync name params body decorators returns | class_ loc name bases keywords body decorators =>
    rw [Stmt.lower]
    exact (Lower.Makes.inScope (lowerAll_makes body _)).map
  | for_ loc isAsync mark target iter body orElse | while_ loc mark test body orElse =>
    rw [Stmt.lower]
    refine (Lower.Makes.inTarget rfl (lowerAll_makes body _)).bind fun _ s' hs => ?_
    rw [← hs]
    exact (lowerAll_makes orElse s').map
  | block loc label target body =>
    rw [Stmt.lower]
    exact (Lower.Makes.inTarget rfl (lowerAll_makes body _)).map
  | break_ loc label value =>
    rw [Stmt.lower]
    exact .jump loc .break_ label value
  | continue_ loc label =>
    rw [Stmt.lower]
    exact .jump loc .continue_ label none
  | if_ loc test body orElse =>
    rw [Stmt.lower]
    refine (lowerAll_makes body s).bind fun _ s' hs => ?_
    rw [← hs]
    exact (lowerAll_makes orElse s').map
  | with_ loc isAsync items body =>
    rw [Stmt.lower]
    exact (lowerAll_makes body s).map
  | match_ loc subject cases =>
    rw [Stmt.lower]
    exact (lowerCases_makes cases s).map
  | try_ loc isStar body handlers orElse final =>
    rw [Stmt.lower]
    refine (lowerAll_makes body s).bind fun _ s₁ h₁ => ?_
    rw [← h₁]
    refine (lowerHandlers_makes handlers s₁).bind fun _ s₂ h₂ => ?_
    rw [← h₂]
    refine (lowerAll_makes orElse s₂).bind fun _ s₃ h₃ => ?_
    rw [← h₃]
    exact (lowerAll_makes final s₃).map
  | callbackLoop loc header target iter body =>
    rw [Stmt.lower]
    exact (lowerAll_makes body s).map
  | _ => exact .pure _

theorem lowerAll_makes : ∀ (body : List Stmt) (s : LowerState),
    (Stmt.lowerAll body).Makes s (Stmt.JumpFarAll s.shape body)
  | [], _ => .pure _
  | stmt :: rest, s => by
    rw [Stmt.lowerAll]
    refine (lower_makes stmt s).bind fun _ s' hs => ?_
    rw [← hs]
    exact (lowerAll_makes rest s').map

theorem lowerHandlers_makes : ∀ (handlers : List Handler) (s : LowerState),
    (Handler.lowerAll handlers).Makes s (Handler.JumpFarAll s.shape handlers)
  | [], _ => .pure _
  | .mk loc type name body :: rest, s => by
    rw [Handler.lowerAll]
    refine (lowerAll_makes body s).bind fun _ s' hs => ?_
    rw [← hs]
    exact (lowerHandlers_makes rest s').map

theorem lowerCases_makes : ∀ (cases : List MatchCase) (s : LowerState),
    (MatchCase.lowerAll cases).Makes s (MatchCase.JumpFarAll s.shape cases)
  | [], _ => .pure _
  | .mk pattern guard body :: rest, s => by
    rw [MatchCase.lowerAll]
    refine (lowerAll_makes body s).bind fun _ s' hs => ?_
    rw [← hs]
    exact (lowerCases_makes rest s').map

end

theorem lowerLabels_holders (firstId : Nat) {body : List Stmt} (h : Stmt.ResolveAll [] body) :
    ∃ out holders nextId, lowerLabels firstId body = .ok (withHolders holders out, nextId) ∧
      Stmt.LowerAllTo (holders.map Holder.name) [] body out ∧ (holders ≠ [] ↔ Stmt.JumpFarAll [] body) := by
  have hsound : LowerState.Sound { nextId := firstId } := ⟨by simp, by simp, by simp, .nil, by simp⟩
  obtain ⟨out, s, hrun, -, hr, hspec⟩ := lowerAll_meets body { nextId := firstId } h hsound
  obtain ⟨-, -, hholders⟩ := lowerAll_makes body { nextId := firstId } nofun out s hrun
  have hends : s.Ends (s.holders.reverse.map Holder.name) [] :=
    ⟨fun h hh => List.mem_map.2 ⟨h, List.mem_reverse.2 hh, rfl⟩,
      by rw [List.forall₂_nil_left_iff.1 hr.targets]; exact .nil⟩
  refine ⟨out, s.holders.reverse, s.nextId, ?_, hspec _ _ hends, ?_⟩
  · show (Stmt.lowerAll body { nextId := firstId } >>= _) = _
    rw [hrun]
    simp only [withHolders, List.isEmpty_map]
    rfl
  · rw [ne_eq, List.reverse_eq_nil_iff, ← ne_eq, hholders]
    exact or_iff_right (not_not.2 rfl)

end LoopEscape
