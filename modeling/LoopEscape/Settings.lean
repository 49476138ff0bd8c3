import LoopEscape.Text.Quoted

/-!
# Settings of a compilation

Settings come from the caller and from pragmas in the source.  Both are merged, and a setting that both
give has to be the same.
-/

namespace LoopEscape

open Text

structure Settings where
  compilerVersion : Option String := none
  debug : Option Bool := none
deriving DecidableEq, Repr, Inhabited

namespace Settings

def shownBool : Bool → String
  | true => "True"
  | false => "False"

def render (s : Settings) : String :=
  "Settings(compiler_version=" ++ (s.compilerVersion.map quote).getD "None" ++ ", debug=" ++
    (s.debug.map shownBool).getD "None" ++ ")"

def debugOr (environment : Bool) (s : Settings) : Bool := s.debug.getD environment

/-- Two settings that differ on `debug`, with the names of where they come from. -/
structure Conflict where
  left : Settings
  right : Settings
  leftDebug : Bool
  rightDebug : Bool
  leftSource : String
  rightSource : String
deriving DecidableEq, Repr

namespace Conflict

def verb (source : String) : String :=
  if source.toList.getLast? == some 's' then "indicate" else "indicates"

def message (c : Conflict) : String :=
  "settings conflict!\n\n  " ++ c.leftSource ++ ": " ++ c.left.render ++ "\n  " ++ c.rightSource ++
    ": " ++ c.right.render ++ "\n\n(" ++ c.leftSource ++ " " ++ verb c.leftSource ++ " debug " ++
    shownBool c.leftDebug ++ ", but " ++ c.rightSource ++ " " ++ verb c.rightSource ++ " " ++
    shownBool c.rightDebug ++ ".)"

end Conflict

def mergeFrom (leftSource rightSource : String) (l r : Settings) : Except Conflict Settings :=
  match l.debug, r.debug with
  | some a, some b =>
    if a = b then .ok { debug := some b } else .error ⟨l, r, a, b, leftSource, rightSource⟩
  | a, none => .ok { debug := a }
  | none, b => .ok { debug := b }

def merge : Settings → Settings → Except Conflict Settings :=
  mergeFrom "compiler settings" "source pragma"

/-- Enters settings one inside the other and leaves them again: what was in force inside each, and
what is in force at the end. -/
def anchored (current : Option Settings) : List Settings → List (Option Settings) × Option Settings
  | [] => ([], current)
  | s :: inner => (some s :: (anchored (some s) inner).1, current)

end Settings

end LoopEscape
