import LoopEscape.Text.Quoted

/-!
# Values at run time

What tasks, callbacks and modules handle: plain data, the two states of an iteration, and the reasons
that a `Break` carries.  There may be objects of other classes among them (`ω`), of which nothing is known but
what they say they equal.
-/

namespace LoopEscape

open Text

/-- The label of a reason.  It should be a text, but it may be an object, which says of other values, by how
they are written, whether it equals them. -/
inductive ReasonLabel (ω : Type := Empty)
  | text (s : String)
  | object (o : ω) (equals : String → Bool)
deriving Inhabited

inductive Value (ω : Type := Empty)
  | none
  | bool (b : Bool)
  | int (n : Int)
  | text (s : String)
  | list (items : List (Value ω))
  | tuple (items : List (Value ω))
  | continue_ (value : Value ω)
  | break_ (value : Value ω)
  | earlyReturn (value : Value ω)
  | earlyBreak (value : Value ω)
  | breakTo (label : ReasonLabel ω) (value : Value ω)
  | continueTo (label : ReasonLabel ω)
  | abort
  | function
  | object (o : ω) (equals : String → Bool)
deriving Inhabited

variable {ω : Type}

namespace ReasonLabel

instance : Coe String (ReasonLabel ω) := ⟨text⟩

def toText : ReasonLabel → String
  | text s => s

instance : Coe ReasonLabel String := ⟨toText⟩

def render : ReasonLabel ω → String
  | text s => quote s
  | object _ _ => "<object>"

def same : ReasonLabel ω → ReasonLabel ω → Bool
  | text a, text b => a == b
  | object _ equals, l | l, object _ equals => equals l.render

def value : ReasonLabel ω → Value ω
  | text s => .text s
  | object o equals => .object o equals

end ReasonLabel

namespace Value

def className : Value ω → String
  | none => "NoneType"
  | bool _ => "bool"
  | int _ => "int"
  | text _ => "str"
  | list _ => "list"
  | tuple _ => "tuple"
  | continue_ _ => "Continue"
  | break_ _ => "Break"
  | earlyReturn _ => "EarlyReturn"
  | earlyBreak _ => "EarlyBreak"
  | breakTo _ _ => "BreakTo"
  | continueTo _ => "ContinueTo"
  | abort => "_Abort"
  | function => "function"
  | object _ _ => "object"

/-- The classes of the two states and of the reasons, each with the class it belongs to. -/
def classNames : Value ω → List String
  | continue_ _ => ["Continue", "ControlFlow"]
  | break_ _ => ["Break", "ControlFlow"]
  | earlyReturn _ => ["EarlyReturn", "EscapeReason"]
  | earlyBreak _ => ["EarlyBreak", "EscapeReason"]
  | breakTo _ _ => ["BreakTo", "EscapeReason"]
  | continueTo _ => ["ContinueTo", "EscapeReason"]
  | _ => []

def isInstance (v : Value ω) (name : String) : Bool := v.classNames.contains name

def isNone : Value ω → Bool
  | none => true
  | _ => false

def isAbort : Value ω → Bool
  | abort => true
  | _ => false

def stops? : Value ω → Option Bool
  | continue_ _ => some false
  | break_ _ => some true
  | _ => Option.none

def payload? : Value ω → Option (Value ω)
  | continue_ v | break_ v => some v
  | _ => Option.none

/-! ### Texts -/

mutual

def render : Value ω → String
  | none => "None"
  | bool true => "True"
  | bool false => "False"
  | int n => toString n
  | text s => quote s
  | list items => "[" ++ ", ".intercalate (renderAll items) ++ "]"
  | tuple [v] => "(" ++ render v ++ ",)"
  | tuple items => "(" ++ ", ".intercalate (renderAll items) ++ ")"
  | continue_ v => "Continue(value=" ++ render v ++ ")"
  | break_ v => "Break(value=" ++ render v ++ ")"
  | earlyReturn v => "EarlyReturn(value=" ++ render v ++ ")"
  | earlyBreak v => "EarlyBreak(value=" ++ render v ++ ")"
  | breakTo label v => "BreakTo(label=" ++ label.render ++ ", value=" ++ render v ++ ")"
  | continueTo label => "ContinueTo(label=" ++ label.render ++ ")"
  | abort => "ABORT"
  | function => "<function>"
  | object _ _ => "<object>"

def renderAll : List (Value ω) → List String
  | [] => []
  | v :: rest => render v :: renderAll rest

end

def shown : Value ω → String
  | text s => s
  | v => render v

/-! ### Equality -/

def ofBool (b : Bool) : Int := if b then 1 else 0

mutual

/-- Whether two values count as equal: a truth value equals its number, an object what it says, and all else
only its own kind. -/
def same : Value ω → Value ω → Bool
  | none, none => true
  | bool a, bool b => a == b
  | bool a, int b => ofBool a == b
  | int a, bool b => a == ofBool b
  | int a, int b => a == b
  | text a, text b => a == b
  | list a, list b => sameAll a b
  | tuple a, tuple b => sameAll a b
  | continue_ a, continue_ b => same a b
  | break_ a, break_ b => same a b
  | earlyReturn a, earlyReturn b => same a b
  | earlyBreak a, earlyBreak b => same a b
  | breakTo l a, breakTo m b => l.same m && same a b
  | continueTo l, continueTo m => l.same m
  | abort, abort => true
  | function, function => true
  | object _ equals, v | v, object _ equals => equals v.render
  | _, _ => false

def sameAll : List (Value ω) → List (Value ω) → Bool
  | [], [] => true
  | a :: as, b :: bs => same a b && sameAll as bs
  | _, _ => false

end

/-! ### Distinct values -/

mutual

/-- The first part of a value that can change, so that the value cannot be told from others by a
table. -/
def mutablePart? : Value ω → Option (Value ω)
  | list items => some (list items)
  | tuple items => mutablePartOf? items
  | continue_ v | break_ v | earlyReturn v | earlyBreak v | breakTo _ v => mutablePart? v
  | _ => Option.none

def mutablePartOf? : List (Value ω) → Option (Value ω)
  | [] => Option.none
  | v :: rest => (mutablePart? v).orElse fun _ => mutablePartOf? rest

end

/-- The values without those that equal an earlier one, or the first part that can change. -/
def distinctFrom (seen : List (Value ω)) : List (Value ω) → Except (Value ω) (List (Value ω))
  | [] => .ok []
  | v :: rest =>
    match mutablePart? v with
    | some part => .error part
    | Option.none =>
      if seen.any (same v) then distinctFrom seen rest
      else (distinctFrom (v :: seen) rest).map (v :: ·)

def distinct (values : List (Value ω)) : Except (Value ω) (List (Value ω)) := distinctFrom [] values

end Value

example : (Value.break_ (.breakTo "x" (.tuple [.int (-1)])) : Value).render =
    "Break(value=BreakTo(label='x', value=(-1,)))" := by decide +kernel

example : (Value.continue_ (.int 1) : Value).same (.continue_ (.bool true)) = true := by decide +kernel

end LoopEscape
