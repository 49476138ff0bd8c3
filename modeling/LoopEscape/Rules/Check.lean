import LoopEscape.Rules.Symbols
import LoopEscape.Rules.Placement

/-!
# Checking plain code

All rules on a module that has been parsed or generated.
-/

namespace LoopEscape

mutual

def Stmt.hasLoneTry : Stmt → Bool
  | .try_ _ _ body handlers orElse final =>
    (handlers.isEmpty && final.isEmpty) || Stmt.anyLoneTry body || Handler.anyLoneTry handlers ||
      Stmt.anyLoneTry orElse || Stmt.anyLoneTry final
  | .function _ _ _ _ body _ _ | .class_ _ _ _ _ body _ | .with_ _ _ _ body
  | .callbackLoop _ _ _ _ body | .block _ _ _ body => Stmt.anyLoneTry body
  | .for_ _ _ _ _ _ body orElse | .while_ _ _ _ body orElse | .if_ _ _ body orElse =>
    Stmt.anyLoneTry body || Stmt.anyLoneTry orElse
  | .match_ _ _ cases => MatchCase.anyLoneTry cases
  | _ => false

def Stmt.anyLoneTry : List Stmt → Bool
  | [] => false
  | s :: rest => Stmt.hasLoneTry s || Stmt.anyLoneTry rest

def Handler.anyLoneTry : List Handler → Bool
  | [] => false
  | .mk _ _ _ body :: rest => Stmt.anyLoneTry body || Handler.anyLoneTry rest

def MatchCase.anyLoneTry : List MatchCase → Bool
  | [] => false
  | .mk _ _ body :: rest => Stmt.anyLoneTry body || MatchCase.anyLoneTry rest

end

def checkRules (strict : Bool) (body : List Stmt) : Rule := do
  let future ← Future.of body
  checkSymbols future body
  checkPlacement strict future body

end LoopEscape
