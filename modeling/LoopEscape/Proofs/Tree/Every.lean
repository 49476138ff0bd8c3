import LoopEscape.Tree.Stmt

/-!
# Properties of all statements

A property holds everywhere in a statement when the statement itself has it, and all statements inside
of it, at any depth.
-/

namespace LoopEscape

variable {P Q : Stmt → Prop}

mutual

def Stmt.Every (P : Stmt → Prop) : Stmt → Prop
  | .function loc isAsync name params body decorators returns =>
    P (.function loc isAsync name params body decorators returns) ∧ Stmt.EveryAll P body
  | .class_ loc name bases keywords body decorators =>
    P (.class_ loc name bases keywords body decorators) ∧ Stmt.EveryAll P body
  | .for_ loc isAsync mark target iter body orElse =>
    P (.for_ loc isAsync mark target iter body orElse) ∧ Stmt.EveryAll P body ∧
      Stmt.EveryAll P orElse
  | .while_ loc mark test body orElse =>
    P (.while_ loc mark test body orElse) ∧ Stmt.EveryAll P body ∧ Stmt.EveryAll P orElse
  | .if_ loc test body orElse =>
    P (.if_ loc test body orElse) ∧ Stmt.EveryAll P body ∧ Stmt.EveryAll P orElse
  | .with_ loc isAsync items body => P (.with_ loc isAsync items body) ∧ Stmt.EveryAll P body
  | .match_ loc subject cases => P (.match_ loc subject cases) ∧ MatchCase.EveryAll P cases
  | .try_ loc isStar body handlers orElse final =>
    P (.try_ loc isStar body handlers orElse final) ∧ Stmt.EveryAll P body ∧
      Handler.EveryAll P handlers ∧ Stmt.EveryAll P orElse ∧ Stmt.EveryAll P final
  | .callbackLoop loc header target iter body =>
    P (.callbackLoop loc header target iter body) ∧ Stmt.EveryAll P body
  | .block loc label target body => P (.block loc label target body) ∧ Stmt.EveryAll P body
  | s => P s

def Stmt.EveryAll (P : Stmt → Prop) : List Stmt → Prop
  | [] => True
  | s :: rest => Stmt.Every P s ∧ Stmt.EveryAll P rest

def Handler.EveryAll (P : Stmt → Prop) : List Handler → Prop
  | [] => True
  | .mk _ _ _ body :: rest => Stmt.EveryAll P body ∧ Handler.EveryAll P rest

def MatchCase.EveryAll (P : Stmt → Prop) : List MatchCase → Prop
  | [] => True
  | .mk _ _ body :: rest => Stmt.EveryAll P body ∧ MatchCase.EveryAll P rest

end

theorem everyAll_iff {body : List Stmt} : Stmt.EveryAll P body ↔ ∀ s ∈ body, s.Every P := by
  induction body with
  | nil => simp [Stmt.EveryAll]
  | cons s rest ih => simp [Stmt.EveryAll, ih]

theorem everyAll_append {a b : List Stmt} :
    Stmt.EveryAll P (a ++ b) ↔ Stmt.EveryAll P a ∧ Stmt.EveryAll P b := by
  simp only [everyAll_iff, List.forall_mem_append]

theorem everyHandlers_iff {handlers : List Handler} :
    Handler.EveryAll P handlers ↔ ∀ h ∈ handlers, Handler.EveryAll P [h] := by
  induction handlers with
  | nil => simp [Handler.EveryAll]
  | cons h rest ih => obtain ⟨loc, type, name, body⟩ := h; simp [Handler.EveryAll, ih]

theorem everyCases_iff {cases : List MatchCase} :
    MatchCase.EveryAll P cases ↔ ∀ c ∈ cases, MatchCase.EveryAll P [c] := by
  induction cases with
  | nil => simp [MatchCase.EveryAll]
  | cons c rest ih => obtain ⟨pattern, guard, body⟩ := c; simp [MatchCase.EveryAll, ih]

end LoopEscape
