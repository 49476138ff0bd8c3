import LoopEscape.Grammar.Literal
import LoopEscape.Text.Normal

/-!
# Parsers

A parser goes through tokens from the left.  It knows the place behind the last token of weight that
it took, where a node that ends now ends, and it notes the farthest token that it looked at, which is
where an error is reported.
-/

namespace LoopEscape

open Text

structure ParseState where
  rest : List Token
  last : Position
deriving Inhabited

/-- A parser either fails or gives a result and the state behind it; either way it gives the farthest
token seen. -/
def Parser (α : Type) : Type := ParseState → Token → Option (α × ParseState) × Token

namespace Parser

variable {α β : Type}

def result (a : α) : Parser α := fun s far => (some (a, s), far)

def andThen (p : Parser α) (f : α → Parser β) : Parser β := fun s far =>
  match p s far with
  | (none, far) => (none, far)
  | (some (a, s), far) => f a s far

instance : Monad Parser where
  pure := result
  bind := andThen

def fail : Parser α := fun _ far => (none, far)

def orElse (p : Parser α) (q : Unit → Parser α) : Parser α := fun s far =>
  match p s far with
  | (none, far) => q () s far
  | r => r

instance : OrElse (Parser α) := ⟨orElse⟩

def endToken : Token := ⟨.endMarker, "", ⟨0, 0⟩, ⟨0, 0⟩⟩

def peek : Parser Token := fun s far =>
  let t := s.rest.headD endToken
  (some (t, s), if t.start.before far.start then far else t)

def peekSecond : Parser Token := fun s far => (some ((s.rest.drop 1).headD endToken, s), far)

def isWeightless (t : Token) : Bool :=
  t.kind == .newline || t.kind == .indent || t.kind == .dedent || t.kind == .endMarker

def next : Parser Token := fun s far =>
  match s.rest with
  | [] => (none, far)
  | t :: rest => (some (t, ⟨rest, if isWeightless t then s.last else t.stop⟩), far)

def here : Parser Position := do return (← peek).start

def lastStop : Parser Position := fun s far => (some (s.last, s), far)

def remaining : Parser Nat := fun s far => (some (s.rest.length + 1, s), far)

def takeIf (fits : Token → Bool) : Parser Bool := do
  let t ← peek
  if fits t then
    let _ ← next
    return true
  else return false

def expect (fits : Token → Bool) : Parser Token := do
  let t ← peek
  if fits t then next else fail

def op? (text : String) : Parser Bool := takeIf (·.isOp text)

def opIf (allowed : Bool) (text : String) : Parser Bool :=
  if allowed then op? text else result false

def word? (text : String) : Parser Bool := takeIf (·.isName text)

def op (text : String) : Parser Unit := do
  let _ ← expect (·.isOp text)

def word (text : String) : Parser Unit := do
  let _ ← expect (·.isName text)

def ofKind (kind : TokenKind) : Parser Token := expect (·.kind == kind)

def identifierText (t : Token) : String :=
  if t.text.toList.all (·.toNat < 128) then t.text else normalForm t.text

def identifier : Parser String := do
  let t ← expect Token.isIdentifier
  return identifierText t

def isAtOp (texts : List String) : Parser Bool := do
  let t ← peek
  return t.kind == .op && texts.contains t.text

def isAtWord (texts : List String) : Parser Bool := do
  let t ← peek
  return t.kind == .name && texts.contains t.text

def collect (p : Parser (Option α)) : Nat → Parser (List α)
  | 0 => fail
  | fuel + 1 => do
    match ← p with
    | none => return []
    | some a =>
      let rest ← collect p fuel
      return a :: rest

def many (p : Parser (Option α)) : Parser (List α) := do collect p (← remaining)

def iterate (p : α → Parser (Option α)) : Nat → α → Parser α
  | 0, _ => fail
  | fuel + 1, a => do
    match ← p a with
    | none => return a
    | some a => iterate p fuel a

def chain (p : α → Parser (Option α)) (a : α) : Parser α := do iterate p (← remaining) a

/-- Items with commas between them, as long as the token after a comma starts an item.  Tells also
whether there was a comma at the end. -/
def commaList (item : Parser α) (starts : Token → Bool) : Parser (List α × Bool) := do
  let first ← item
  let step : List α × Bool → Parser (Option (List α × Bool)) := fun (acc, comma) => do
    if comma then
      if starts (← peek) then return some (acc ++ [← item], false) else return none
    else if ← op? "," then return some (acc, true)
    else return none
  chain step ([first], false)

def moreItems (item : Parser α) (starts : Token → Bool) : Parser (List α) := do
  if ← op? "," then
    if starts (← peek) then
      let (items, _) ← commaList item starts
      return items
    else return []
  else return []

def ofOption : Option α → Parser α
  | none => fail
  | some a => result a

def onTokens (p : Parser α) (tokens : List Token) : Option α :=
  ((p ⟨tokens, ⟨0, 0⟩⟩ endToken).1).map (·.1)

end Parser

end LoopEscape
