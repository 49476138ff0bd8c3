import LoopEscape.Text.Lines

/-!
# Encodings of source text

A source file may declare its encoding by a byte order mark or by a comment in one of its first two
lines.  Text that arrives decoded is read as if it had been written in UTF-8, so a declaration counts
there too and may change what its characters are.
-/

namespace LoopEscape.Text

inductive Encoding
  | utf8
  | latin1
  | ascii
deriving DecidableEq, Repr, Inhabited

def utf8Char (c : Char) : List Nat :=
  let n := c.toNat
  if n < 0x80 then [n]
  else if n < 0x800 then [0xc0 + n / 64, 0x80 + n % 64]
  else if n < 0x10000 then [0xe0 + n / 4096, 0x80 + n / 64 % 64, 0x80 + n % 64]
  else [0xf0 + n / 262144, 0x80 + n / 4096 % 64, 0x80 + n / 64 % 64, 0x80 + n % 64]

def utf8Bytes (cs : List Char) : List Nat := cs.flatMap utf8Char

def utf8Width (c : Char) : Nat := (utf8Char c).length

def isContinuation (b : Nat) : Bool := 0x80 ≤ b && b ≤ 0xbf

/-- Reads UTF-8, refusing stray and missing bytes, longer forms than needed and surrogates. -/
def decodeUtf8 : List Nat → Option (List Char)
  | [] => some []
  | b0 :: rest =>
    if b0 < 0x80 then (decodeUtf8 rest).map (Char.ofNat b0 :: ·)
    else match rest with
      | b1 :: rest1 =>
        if !isContinuation b1 then none
        else if 0xc2 ≤ b0 && b0 ≤ 0xdf then
          (decodeUtf8 rest1).map (Char.ofNat ((b0 - 0xc0) * 64 + (b1 - 0x80)) :: ·)
        else match rest1 with
          | b2 :: rest2 =>
            if !isContinuation b2 then none
            else if 0xe0 ≤ b0 && b0 ≤ 0xef then
              let n := (b0 - 0xe0) * 4096 + (b1 - 0x80) * 64 + (b2 - 0x80)
              if n < 0x800 || (0xd800 ≤ n && n ≤ 0xdfff) then none
              else (decodeUtf8 rest2).map (Char.ofNat n :: ·)
            else match rest2 with
              | b3 :: rest3 =>
                if !isContinuation b3 then none
                else if 0xf0 ≤ b0 && b0 ≤ 0xf4 then
                  let n := (b0 - 0xf0) * 262144 + (b1 - 0x80) * 4096 + (b2 - 0x80) * 64
                    + (b3 - 0x80)
                  if n < 0x10000 || 0x110000 ≤ n then none
                  else (decodeUtf8 rest3).map (Char.ofNat n :: ·)
                else none
              | [] => none
          | [] => none
      | [] => none

namespace Encoding

def decode : Encoding → List Nat → Option (List Char)
  | utf8, bytes => decodeUtf8 bytes
  | latin1, bytes => some (bytes.map Char.ofNat)
  | ascii, bytes => if bytes.all (· < 128) then some (bytes.map Char.ofNat) else none

def encode : Encoding → List Char → Option (List Nat)
  | utf8, cs => some (utf8Bytes cs)
  | latin1, cs => if cs.all (·.toNat < 256) then some (cs.map Char.toNat) else none
  | ascii, cs => if cs.all (·.toNat < 128) then some (cs.map Char.toNat) else none

def reread (e : Encoding) (cs : List Char) : Option (List Char) :=
  match e with
  | utf8 => some cs
  | e => e.decode (utf8Bytes cs)

def restore (e : Encoding) (cs : List Char) : Option (List Char) :=
  match e with
  | utf8 => some cs
  | e => (e.encode cs).bind decodeUtf8

def utf8Names : List String :=
  ["utf_8", "u8", "utf", "utf8", "utf8_ucs2", "utf8_ucs4", "cp65001"]

def latin1Names : List String :=
  ["latin_1", "8859", "cp819", "csisolatin1", "ibm819", "iso8859", "iso8859_1", "iso_8859_1",
   "iso_8859_1_1987", "iso_ir_100", "l1", "latin", "latin1"]

def asciiNames : List String :=
  ["ascii", "646", "ansi_x3.4_1968", "ansi_x3_4_1968", "ansi_x3.4_1986", "cp367", "csascii",
   "ibm367", "iso646_us", "iso_646.irv_1991", "iso_ir_6", "us", "us_ascii"]

def ofName? (name : String) : Option Encoding :=
  let key := String.ofList (name.toList.map fun c => if c == '-' then '_' else c.toLower)
  if utf8Names.contains key then some utf8
  else if latin1Names.contains key then some latin1
  else if asciiNames.contains key then some ascii
  else none

end Encoding

inductive DeclarationFault
  | unreadable
  | unknown (name : String)
  | clash
deriving DecidableEq, Repr

namespace DeclarationFault

def message : DeclarationFault → String
  | unreadable => "invalid or missing encoding declaration"
  | unknown name => "unknown encoding: " ++ name
  | clash => "encoding problem: utf-8"

end DeclarationFault

def isNameChar (c : Char) : Bool :=
  isAsciiLetter c || isAsciiDigit c || c == '_' || c == '-' || c == '.'

def isLineSpace (c : Char) : Bool := c == ' ' || c == '\t' || c == '\x0c'

/-- The name declared at the front of a text: `coding`, a colon or equals sign, the name. -/
def codingAt? (cs : List Char) : Option (List Char) :=
  if cs.take 6 == "coding".toList then
    match cs.drop 6 with
    | m :: rest =>
      if m == ':' || m == '=' then
        let name := (rest.dropWhile fun c => c == ' ' || c == '\t').takeWhile isNameChar
        if name.isEmpty then none else some name
      else none
    | [] => none
  else none

def searchCoding : List Char → Option (List Char)
  | [] => none
  | c :: cs => (codingAt? (c :: cs)).orElse fun _ => searchCoding cs

def codingOfLine? (line : List Char) : Option String :=
  match line.dropWhile isLineSpace with
  | '#' :: cs => (searchCoding cs).map String.ofList
  | _ => none

def isBlankOrComment (line : List Char) : Bool :=
  match line.dropWhile isLineSpace with
  | [] => true
  | c :: _ => c == '#' || c == '\r' || c == '\n'

/-- Common names are known by their first twelve characters, whatever follows a hyphen. -/
def commonName (name : String) : String :=
  let key := String.ofList ((name.toList.take 12).map fun c => if c == '_' then '-' else c.toLower)
  let latin := ["latin-1", "iso-8859-1", "iso-latin-1"]
  if key == "utf-8" || "utf-8-".toList.isPrefixOf key.toList then "utf-8"
  else if latin.any fun l => key == l || (l ++ "-").toList.isPrefixOf key.toList then "iso-8859-1"
  else name

def byteOrderMark : Char := Char.ofNat 0xfeff

/-- The encoding a line declares, given whether a byte order mark stands before the text. -/
def declaredOn (marked : Bool) (line : List Char) : Except DeclarationFault (Option Encoding) :=
  match codingOfLine? line with
  | none => .ok none
  | some name =>
    let name := commonName name
    match Encoding.ofName? name with
    | none => .error (.unknown name)
    | some e => if marked && name != "utf-8" then .error .clash else .ok (some e)

/-- The encoding declared by the first two lines, the mark taken off the first.  The second counts
when the first is blank or a comment.  A line that is not UTF-8 is given as `none`. -/
def declaredEncoding (marked : Bool) (lines : List (Option (List Char))) :
    Except DeclarationFault Encoding :=
  match lines with
  | [] => .ok .utf8
  | none :: _ => .error .unreadable
  | some [] :: _ => .ok .utf8
  | some first :: rest =>
    match declaredOn marked first with
    | .error e => .error e
    | .ok (some e) => .ok e
    | .ok none =>
      if isBlankOrComment first then
        match rest with
        | [] => .ok .utf8
        | none :: _ => .error .unreadable
        | some second :: _ =>
          match declaredOn marked second with
          | .error e => .error e
          | .ok (some e) => .ok e
          | .ok none => .ok .utf8
      else .ok .utf8

def universalNewlines : List Char → List Char
  | [] => []
  | '\r' :: '\n' :: cs => '\n' :: universalNewlines cs
  | '\r' :: cs => '\n' :: universalNewlines cs
  | c :: cs => c :: universalNewlines cs

example : codingOfLine? "  # -*- coding: latin-1 -*-\n".toList = some "latin-1" := by decide

example : commonName "UTF_8-unix" = "utf-8" ∧ commonName "koi8-r" = "koi8-r" := by decide

example : decodeUtf8 [0xc3, 0xa9] = some ['é'] ∧ decodeUtf8 [0xe9] = none := by decide

end LoopEscape.Text
