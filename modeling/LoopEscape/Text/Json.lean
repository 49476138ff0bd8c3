import LoopEscape.Text.Quoted

/-!
# JSON texts

Summaries are written as JSON on one line, in ASCII: other characters are given by the codes of their
UTF-16 units.
-/

namespace LoopEscape.Text

inductive Json
  | null
  | bool (b : Bool)
  | nat (n : Nat)
  | text (s : String)
  | list (items : List Json)
  | record (fields : List (String × Json))
deriving Inhabited

namespace Json

def units (c : Nat) : List Nat :=
  if c < 0x10000 then [c] else [0xd800 + (c - 0x10000) / 0x400, 0xdc00 + (c - 0x10000) % 0x400]

def escape (c : Char) : String :=
  match c with
  | '"' => "\\\""
  | '\\' => "\\\\"
  | '\n' => "\\n"
  | '\r' => "\\r"
  | '\t' => "\\t"
  | '\x0c' => "\\f"
  | '\x08' => "\\b"
  | c =>
    if ' ' ≤ c && c ≤ '~' then c.toString
    else String.join ((units c.toNat).map fun u => "\\u" ++ hexDigits 4 u)

def quoted (s : String) : String := "\"" ++ String.join (s.toList.map escape) ++ "\""

def optional (s : Option String) : Json := (s.map text).getD null

def texts (ss : List String) : Json := list (ss.map text)

mutual

def render : Json → String
  | null => "null"
  | bool true => "true"
  | bool false => "false"
  | nat n => toString n
  | text s => quoted s
  | list items => "[" ++ ", ".intercalate (renderAll items) ++ "]"
  | record fields => "\x7b" ++ ", ".intercalate (renderFields fields) ++ "\x7d"

def renderAll : List Json → List String
  | [] => []
  | j :: rest => render j :: renderAll rest

def renderFields : List (String × Json) → List String
  | [] => []
  | (name, j) :: rest => (quoted name ++ ": " ++ render j) :: renderFields rest

end

example : render (record [("a", list [nat 1, null]), ("b", text "\"é😀")]) =
    "\x7b\"a\": [1, null], \"b\": \"\\\"\\u00e9\\ud83d\\ude00\"\x7d" := by decide +kernel

end Json

end LoopEscape.Text
