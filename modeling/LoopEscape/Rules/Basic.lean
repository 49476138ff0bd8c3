import LoopEscape.Tree.Stmt

/-!
# Rules on plain code

Not every tree is a program: declarations must agree, and some forms may stand only in some places.
This module names what can be wrong.
-/

namespace LoopEscape

inductive RuleProblem
  | lateFuture
  | undefinedFeature (name : String)
  | repeatedParam (name : String)
  | declaredParam (name kind : String)
  | declaredAfterUse (name kind : String)
  | declaredAfterAssign (name kind : String)
  | annotatedDeclared (name kind : String)
  | bothDeclared (name : String)
  | nonlocalModule
  | unboundNonlocal (name : String)
  | importAll
  | assignedInIterable
  | assignedInClass
  | rebindsIteration (name : String)
  | innerIteration (name : String)
  | yieldInComprehension
  | inHint (form : String)
  | outsideFunction (form : String)
  | outsideAsync (form : String)
  | yieldFromAsync
  | returnInAsyncGenerator
  | breakOutsideLoop
  | continueOutsideLoop
  | jumpInGroup
  | nestedTooDeep
  | misplacedStar
  | starredTarget
  | twoStarredTargets
  | bareExceptNotLast
  | repeatedKeyword (name : String)
  | debugName
  | unreachableCase
  | captureTwice (name : String)
  | differentNames
  | twoStarPatterns
  | repeatedKey
  | repeatedAttribute (name : String)
  | badPatternValue
  | doubtful (form : String)
deriving DecidableEq, Repr

namespace RuleProblem

def message : RuleProblem → String
  | lateFuture => "from __future__ imports must occur at the beginning of the file"
  | undefinedFeature n => "future feature " ++ n ++ " is not defined"
  | repeatedParam n => "duplicate argument '" ++ n ++ "' in function definition"
  | declaredParam n k => "name '" ++ n ++ "' is parameter and " ++ k
  | declaredAfterUse n k => "name '" ++ n ++ "' is used prior to " ++ k ++ " declaration"
  | declaredAfterAssign n k => "name '" ++ n ++ "' is assigned to before " ++ k ++ " declaration"
  | annotatedDeclared n k => "annotated name '" ++ n ++ "' can't be " ++ k
  | bothDeclared n => "name '" ++ n ++ "' is nonlocal and global"
  | nonlocalModule => "nonlocal declaration not allowed at module level"
  | unboundNonlocal n => "no binding for nonlocal '" ++ n ++ "' found"
  | importAll => "import * only allowed at module level"
  | assignedInIterable =>
    "assignment expression cannot be used in a comprehension iterable expression"
  | assignedInClass => "assignment expression within a comprehension cannot be used in a class body"
  | rebindsIteration n =>
    "assignment expression cannot rebind comprehension iteration variable '" ++ n ++ "'"
  | innerIteration n =>
    "comprehension inner loop cannot rebind assignment expression target '" ++ n ++ "'"
  | yieldInComprehension => "'yield' inside a comprehension"
  | inHint f => f ++ " can not be used within an annotation"
  | outsideFunction f => "'" ++ f ++ "' outside function"
  | outsideAsync f => "'" ++ f ++ "' outside async function"
  | yieldFromAsync => "'yield from' inside async function"
  | returnInAsyncGenerator => "'return' with value in async generator"
  | breakOutsideLoop => "'break' outside loop"
  | continueOutsideLoop => "'continue' not properly in loop"
  | jumpInGroup => "'break', 'continue' and 'return' cannot appear in an except* block"
  | nestedTooDeep => "too many statically nested blocks"
  | misplacedStar => "can't use starred expression here"
  | starredTarget => "starred assignment target must be in a list or tuple"
  | twoStarredTargets => "multiple starred expressions in assignment"
  | bareExceptNotLast => "default 'except:' must be last"
  | repeatedKeyword n => "keyword argument repeated: " ++ n
  | debugName => "cannot assign to __debug__"
  | unreachableCase => "pattern makes remaining patterns unreachable"
  | captureTwice n => "multiple assignments to name '" ++ n ++ "' in pattern"
  | differentNames => "alternative patterns bind different names"
  | twoStarPatterns => "multiple starred expressions in sequence pattern"
  | repeatedKey => "mapping pattern checks duplicate key"
  | repeatedAttribute n => "attribute name repeated in class pattern: " ++ n
  | badPatternValue => "patterns may only match literals and attribute lookups"
  | doubtful f => "doubtful " ++ f

end RuleProblem

structure RuleFault where
  problem : RuleProblem
  span : Span
deriving DecidableEq, Repr

abbrev Rule := Except RuleFault Unit

namespace Rule

def ok : Rule := Except.ok ()

def broken (problem : RuleProblem) (span : Span) : Rule := Except.error ⟨problem, span⟩

def require (holds : Bool) (problem : RuleProblem) (span : Span) : Rule :=
  if holds then ok else broken problem span

end Rule

end LoopEscape
