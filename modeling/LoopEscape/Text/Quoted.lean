import LoopEscape.Text.CharClass

/-!
# Quoted literals

Text and bytes are shown between quotes.  A single quote is preferred, a double one is taken when the
content has single quotes and no double ones.  What is not printable is shown by its code.
-/

namespace LoopEscape.Text

/-- A code point of a text literal.  Surrogates count: an escape may name one. -/
abbrev Code := Nat

def codes (s : String) : List Code := s.toList.map Char.toNat

/-- The text of code points; a surrogate, which no text can hold, becomes the null character. -/
def ofCodes (cs : List Code) : String := String.ofList (cs.map Char.ofNat)

def hexDigit (n : Nat) : Char :=
  if n < 10 then Char.ofNat (48 + n) else Char.ofNat (87 + n)

def hexDigits (width n : Nat) : String :=
  match width with
  | 0 => ""
  | width + 1 => hexDigits width (n / 16) ++ (hexDigit (n % 16)).toString

example : hexDigits 4 0x2028 = "2028" := by decide

def escapeCode (c : Code) : String :=
  if c < 0x100 then "\\x" ++ hexDigits 2 c
  else if c < 0x10000 then "\\u" ++ hexDigits 4 c
  else "\\U" ++ hexDigits 8 c

def escapeSpecial (c : Code) : String :=
  if c = 92 then "\\\\"
  else if c = 10 then "\\n"
  else if c = 13 then "\\r"
  else if c = 9 then "\\t"
  else escapeCode c

def chooseQuote (cs : List Code) : Code :=
  if cs.contains 39 && !cs.contains 34 then 34 else 39

def quoteCode (quote c : Code) : String :=
  if c = quote then "\\" ++ (Char.ofNat c).toString
  else if c = 92 || !isPrintable c then escapeSpecial c
  else (Char.ofNat c).toString

def quoteCodes (cs : List Code) : String :=
  let quote := chooseQuote cs
  let mark := (Char.ofNat quote).toString
  mark ++ String.join (cs.map (quoteCode quote)) ++ mark

def quote (s : String) : String := quoteCodes (codes s)

def quoteByte (quote byte : Nat) : String :=
  if byte = quote then "\\" ++ (Char.ofNat byte).toString
  else if byte = 92 || byte < 32 || 127 ≤ byte then escapeSpecial byte
  else (Char.ofNat byte).toString

def quoteBytes (bytes : List Nat) : String :=
  let quote := chooseQuote bytes
  let mark := (Char.ofNat quote).toString
  "b" ++ mark ++ String.join (bytes.map (quoteByte quote)) ++ mark

example : quote "it's" = "\"it's\"" := by decide

example : quote "'\"" = "'\\'\"'" := by decide

example : quote "a\n\x7f" = "'a\\n\\x7f'" := by decide

example : quoteBytes [0, 39, 255] = "b\"\\x00'\\xff\"" := by decide

end LoopEscape.Text
