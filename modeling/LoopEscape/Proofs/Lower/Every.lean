import LoopEscape.Proofs.Lower.Relation
import LoopEscape.Proofs.Tree.Every

/-!
# Properties of all lowered statements

Lowering keeps functions and imports, and what it makes itself is neither.  So a property that other
statements have anyway holds everywhere in lowered code, if functions and imports keep it
(`lowerAll_every`).
-/

namespace LoopEscape

open Generate Lower

def Stmt.isFunction : Stmt → Bool
  | .function .. => true
  | _ => false

def Stmt.isImport : Stmt → Bool
  | .import_ .. | .supportImport .. => true
  | _ => false

structure Lower.Keeps (made : List String) (Q Q' : Stmt → Prop) : Prop where
  function : ∀ {loc isAsync name params body decorators returns body'},
    Q (.function loc isAsync name params body decorators returns) → Stmt.LowerAllTo made [] body body' →
      Q' (.function loc isAsync name params body' decorators returns)
  imported : ∀ s, s.isImport = true → Q s → Q' s
  other : ∀ s, s.isFunction = false → s.isImport = false → Q' s

variable {made : List String} {ts : List JumpTarget} {Q Q' : Stmt → Prop}

section Pieces

variable {t : JumpTarget} {body : List Stmt}

theorem every_jump (hQ : Lower.Keeps made Q Q') {loc : Loc} {kind : JumpKind} {label : Option String}
    {value : Option Expr} {out : List Stmt} (h : LowersJump ts loc kind label value out) :
    Stmt.EveryAll Q' out := by
  obtain ⟨i, t, -, -, -, hout⟩ := h
  split at hout
  · rw [hout]
    refine everyAll_append.2 ⟨?_, ?_⟩
    · split
      · trivial
      · exact ⟨hQ.other _ rfl rfl, trivial⟩
      · exact ⟨hQ.other _ rfl rfl, trivial⟩
    · cases kind <;> exact ⟨hQ.other _ rfl rfl, trivial⟩
  · obtain ⟨-, x, -, rfl⟩ := hout
    exact ⟨hQ.other _ rfl rfl, trivial⟩

theorem every_handler (hQ : Lower.Keeps made Q Q') {kind : JumpKind} (hb : Stmt.EveryAll Q' body) :
    Handler.EveryAll Q' [handler t kind body] := by
  unfold handler
  split
  · exact ⟨⟨hQ.other _ rfl rfl, hb⟩, trivial⟩
  · exact ⟨hb, trivial⟩

theorem every_catchJumps (hQ : Lower.Keeps made Q Q') (hb : Stmt.EveryAll Q' body) :
    Stmt.EveryAll Q' (catchJumps t body) := by
  have hhandlers : Handler.EveryAll Q' (loopHandlers t) := by
    refine everyHandlers_iff.2 fun h hh => ?_
    rcases List.mem_append.1 hh with hh | hh
    all_goals
      split at hh
      · rw [List.mem_singleton.1 hh]
        exact every_handler hQ ⟨hQ.other _ rfl rfl, trivial⟩
      · cases hh
  unfold catchJumps
  simp only
  split
  · exact hb
  · exact ⟨⟨hQ.other _ rfl rfl, hb, hhandlers, trivial, trivial⟩, trivial⟩

theorem every_blockStmts (hQ : Lower.Keeps made Q Q') (hb : Stmt.EveryAll Q' body) :
    Stmt.EveryAll Q' (blockStmts t body) := by
  refine everyAll_append.2 ⟨everyAll_iff.2 fun s hs => ?_, ?_⟩
  · obtain ⟨x, -, rfl⟩ := List.mem_map.1 hs
    exact hQ.other _ rfl rfl
  · split
    · exact ⟨⟨hQ.other _ rfl rfl, hb, every_handler hQ ⟨hQ.other _ rfl rfl, trivial⟩, trivial, trivial⟩, trivial⟩
    · exact hb

end Pieces

theorem lowerAll_every (hQ : Lower.Keeps made Q Q') {body out : List Stmt}
    (h : Stmt.LowerAllTo made ts body out) : Stmt.EveryAll Q body → Stmt.EveryAll Q' out := by
  refine h.induction (motive := fun _ body out => Stmt.EveryAll Q body → Stmt.EveryAll Q' out) ?nil ?append
    ?function ?class_ ?for_ ?while_ ?block ?break_ ?continue_ ?kept ?plain
  case nil => exact fun _ _ => trivial
  case append => exact fun hs hrest h => everyAll_append.2 ⟨hs ⟨h.1, trivial⟩, hrest h.2⟩
  case function => exact fun hb ih h => ⟨⟨hQ.function h.1.1 hb, ih h.1.2⟩, trivial⟩
  case class_ => exact fun ih h => ⟨⟨hQ.other _ rfl rfl, ih h.1.2⟩, trivial⟩
  case for_ | while_ =>
    exact fun _ _ hb ho h =>
      ⟨⟨hQ.other _ rfl rfl, every_catchJumps hQ (hb h.1.2.1), ho h.1.2.2⟩, trivial⟩
  case block => exact fun _ _ hb h => every_blockStmts hQ (hb h.1.2)
  case break_ | continue_ => exact fun h _ => every_jump hQ h
  case kept =>
    intro ts s bs hs hbs h
    have hother {s : Stmt} (hs : s.isKept = true) : Q' s := by
      cases s <;> first | exact hQ.other _ rfl rfl | cases hs
    exact ⟨Stmt.every_withBodies hs hbs h.1 (hother (Stmt.isKept_withBodies.trans hs)), trivial⟩
  case plain =>
    intro ts s hs h
    cases s with
    | import_ | supportImport => exact ⟨hQ.imported _ rfl h.1, trivial⟩
    | _ => first | exact ⟨hQ.other _ rfl rfl, trivial⟩ | cases hs

end LoopEscape
