import LoopEscape.Rules.Basic
import LoopEscape.Generate.Code

/-!
# Imports of future features

They stand at the start of a module, behind texts, and name features that exist.
-/

namespace LoopEscape

def futureFeatures : List String :=
  ["nested_scopes", "generators", "division", "absolute_import", "with_statement",
   "print_function", "unicode_literals", "barry_as_FLUFL", "generator_stop", "annotations"]

structure Future where
  line : Option Nat := none
  features : List String := []
deriving Repr

def Future.isLate (f : Future) (line : Nat) : Bool :=
  match f.line with
  | none => true
  | some last => last < line

def Future.hintsAreTexts (f : Future) : Bool := f.features.contains "annotations"

/-- Reads the start of a module.  `done` tells that something else has been met; what then follows on
the same line is still looked at. -/
def readFuture (f : Future) (done : Bool) (previous : Nat) : List Stmt → Except RuleFault Future
  | [] => .ok f
  | s :: rest =>
    let span := s.loc.span
    if done && previous < span.line then .ok f
    else match s with
      | .importFrom _ (some "__future__") names _ =>
        if done then .error ⟨.lateFuture, span⟩
        else match names.find? fun a => !futureFeatures.contains a.name with
          | some a => .error ⟨.undefinedFeature a.name, span⟩
          | none =>
            readFuture ⟨some span.line, f.features ++ names.map (·.name)⟩ done span.line rest
      | .expr _ (.const _ (.str ..)) => readFuture f done span.line rest
      | _ => readFuture f true span.line rest

def Future.of (body : List Stmt) : Except RuleFault Future := readFuture {} false 0 body

end LoopEscape
