import LoopEscape.Text.CodeTable

/-!
# Character classes

The classes of characters that the scanner, the grammar and the literal printer ask for, after the
Unicode 14 character database.  Each class decides ASCII by arithmetic and looks everything else up
in a table of code ranges.
-/

namespace LoopEscape.Text

def alphanumericRanges : CodeRanges := CodeRanges.read
  "aa 8-1 2 4-1 2-2 2-16 2-1e 2-1c9 5-b f-4 8 2 82-4 2-1 3-3 2 7 2-2 2 2-13 2-52 2-8a 9-a5 2-25 3
  7-28 48-1a 5-3 2e-2a 16-9 5-1 2-62 2 10-1 8-e 3 11 2-1d 1e-58 c f-2a a-1 5 6-15 5 a 4 18-18 8-a
  6-17 2-5 12-29 3b-35 4 13 8-9 5-9 2-f 5-7 3-1 3-15 2-6 2 4-3 4 11 e-1 2-2 5-b 3-5 3 9-5 5-1 3-15
  2-6 2-1 2-1 2-1 20-3 2 8-9 3-2 11-8 2-2 2-15 2-6 2-1 2-4 4 13 10-1 5-9 a c-7 3-1 3-15 2-6 2-1 2-4
  4 1f-1 2-2 5-9 2-6 c 2-5 4-2 2-3 4-1 2 2-1 4-1 4-2 4-b 17 16-c 13-7 2-2 2-16 2-f 4 1b-2 3 3-1 5-9
  9-6 2 5-7 2-2 2-16 2-9 2-4 4 20-1 2-1 5-9 2-1 12-8 2-2 2-28 3 11 6-2 2-9 5-12 2-5 6-11 4-17 2-8 2
  3-6 20-9 12-2f 2-1 d-6 a-9 28-1 2 2-4 2-17 2 2-9 2-1 a 3-4 2 a-9 3-3 21 20-13 d-7 2-23 1c-4 74-2a
  15-a 7-5 5-3 4 4-1 8-2 5-c d 2-9 7-25 2 6 3-2a 2-14c 2-3 3-6 2 2-3 3-28 2-3 3-20 2-3 3-6 2 2-3
  3-e 2-38 2-3 3-42 f-13 4-f 11-55 3-5 4-26b 3-10 2-19 6-4a 4-a 8-11 e-12 f-11 f-c 2-2 10-33 24 5
  4-9 7-9 17-9 7-58 8-4 3-21 2 6-45 b-1e 28-27 3-4 c-2b 5-19 7-a 26-16 a-34 2c-9 7-9 e 5e-2e 12-7
  4-9 2a-1d e-37 1b-23 1d-9 4-30 3-8 8-2a 3-2 2a-3 2-5 2-1 4 6-bf 41-115 3-5 3-25 3-5 3-7 2 2 2
  2-1e 3-34 2-6 2 4-2 2-6 4-3 3-5 5-c 6-2 2-6 74-1 3-5 6-a 7-c 66 5 3-9 2 4-4 7 2 2 2-3 2-a 3-3 6-4
  5 2-39 2d7-3b 4f-15 277-1d 46d-e4 7-3 4-1 a 3-25 2 6 3-37 8 11-16 a-6 2-6 2-6 2-6 2-6 2-6 2-6 2-6
  51 1d6-2 1a-8 8-4 3-4 5-55 7-2 2-59 2-3 6-2a 2-5d 4-3 b-1f 31-f 21-9 1f-7 2-e 21-9 28-e 141-19bf
  41-568c 44-2d 3-10c 4-1b 15-2e 11-1e 3-4f 28-8 3-66 3-3f 6-1 2 2-4 19-f 2-2 2-3 2-16 e-5 b-33
  f-31 1d-9 19-5 4 2-1 2-25 b-16 1a-1c 8-2e 1d-a 7-4 2-18 2-28 18-2 2-7 5-9 7-16 4 4-31 2 4-1 3-4 3
  2 19-2 3-a 8-2 d-5 3-5 3-5 a-6 2-6 2-2a 2-d 7-72 e-9 7-2ba3 d-16 5-30 2105-16d 3-69 27-6 d-4 6
  2-9 2-c 2-4 2 2-1 2-1 2-6b 22-16a 13-3f 3-35 29-b 75-4 2-86 14-9 8-19 7-19 c-58 4-5 3-5 3-5 3-2
  24-b 2-19 2-12 2-1 2-e 3-d 23-7a d-2c d-38 12-1 f5-1c 4-30 11-1a 5-23 a-1d 6-25 b-1d 3-23 5-7 2-4
  2b-9d 3-9 7-23 5-23 5-27 9-33 d-a 2-e 2-6 2-1 2-a 2-e 2-6 2-1 44-136 a-15 b-7 19-5 2-29 2-8 46-5
  3 2-2b 2-1 4 3-16 3-1e 3-25 9-8 31-12 2-1 6-20 5-19 47-37 5-13 3-2e 10-3 2-2 2-1c b-8 18-1e 2-1f
  21-7 2-1b 7-4 11-35 b-15 3-1a 6-19 18-6 51-48 38-32 e-32 8-29 d-9 127-1e 2-29 7-1 4f-27 9-15 c-3
  1c-11 2f-1b 15-16 d-34 1b-1d 2-1 3 e-2c 21-18 8-9 a-23 10-9 5 3 9-22 4 d-2f f-3 c-a 2 5-13 c-11
  2-18 55-6 2 2-3 2-e 2-9 8-2e 12-9 c-7 3-1 3-15 2-6 2-1 2-4 4 13 d-4 9f-34 13-3 6-9 6-2 1f-2f 15-1
  2 9-9 a7-2e 2a-3 25-2f 15 c-9 27-2a e 8-9 37-1a 16-b 5-6 ba-2b 75-52 d-7 3 3-7 2-1 2-17 10 2 f-9
  47-7 3-26 11 2 1d b-27 8 16 c-2d 14 13-48 108-8 2-24 12 10-1c 6-1d 71-6 2-1 2-25 16 a-9 7-5 2-1
  2-1f f 8-9 137-12 be 10-14 2c-399 67-6e 12-c3 a4d-60 10-42e fd2-246 21ba-238 8-1e 2-9 7-4e 2-9
  7-1d 13-2f 11-3 d-9 2-6 2-14 6-12 2b1-56 6a-4a 6 43-c 41-1 2 1d-17f7 9-4d5 2b-8 22e8-3 2-6 2-1
  2-122 2e-2 12-3 9-18b 905-6a 6-c 4-8 8-9 1647-13 6d-18 88-54 2-46 2-1 3 3-1 3-3 2-b 2 2-6 2-40
  2-3 3-7 2-6 2-1b 2-3 2-4 2 4-6 2-153 3-18 2-18 2-1e 2-18 2-1e 2-18 2-1e 2-18 2-1e 2-18 2-7 3-31
  701-1e 1e2-2c b-6 3-9 5 142-1d 13-2b 5-9 4e7-6 2-3 2-1 2-e 2-c4 3-8 31-43 8 5-9 318-3a 2-2 2-3
  4d-2c 2-e c3-3 2-1a 2-1 2 3 2-9 2-3 2 2 7 5 2 2 2-2 2-1 2 3 2 2 2 2 2-1 2 3-3 2-6 2-3 2-3 2 2-9
  2-10 6-2 2-4 2-10 245-c ae4-9 407-a6df 21-1038 8-dd 3-1681 f-1d30 c20-21d 5e3-134a"

def innerRanges : CodeRanges := CodeRanges.read
  "b2-1 6 3-2 2bc 2e6-9 87-9 c7-9 19d-9 77-9 5-5 6d-9 77-9 77-9 3-5 6f-c 74-9 9-6 68-9 69-6 8-12
  6e-9 44 1d-9 5a 1d-9 47-13 10d-9 47-9 2d0-13 464-9 7-9 17-9 12d-9 81-a a6-9 7-9 b7-9 57-9 87-9
  7-9 417 4-5 7-9 c7-f 2a 2d7-3b 4f-15 277-1d 56a 132 363-3 8b-9 1f-7 2-e 21-9 28-e 7361-9 207-5
  9b-9 27-9 c7-9 17-9 57-9 197-9 5065-5 197-1 75 2 2 2 2 2 2 2 92-9 85-1 168-2c 42-3 12-1 156-1a
  25-3 17d-9 3af-7 1a-6 28-8 4c-4 17-5 a1-1 3-f 3-2d 41-8 35-1 1f-2 4c-4 69-7 19-7 2a-6 14b-5 31-9
  127-1e 9f-9 2b-3 71-6 87-1d 81-9 3d-9 91-9 8-13 fc-9 157-9 77-9 177-9 67-9 67-b 1a5-12 5e-9
  2f7-1c e4-9 47-9 217-14 4a8c-9 57-9 87-9 2-6 31f-16 644a-13 6d-18 456-31 941-9 1a7-9 5ce-8 81-9
  318-3a 2-2 2-3 4d-2c 2-e 3c3-c ae4-9"

def continuingRanges : CodeRanges := CodeRanges.read
  "b7 249-6f 18 fc-4 10a-2c 2 2-1 2-1 2 49-a 31-1e 7 66-6 3-5 3-1 2-3 3-9 18 1f-1a 5c-a 10-9 22-8 a
  19-3 2-8 2-2 2-4 2c-2 3d-7 2b-17 2-20 37-2 2-11 2-6 b-1 3-9 12-2 39 2-6 3-1 3-2 a b-1 3-9 f 3-2
  39 2-4 5-1 3-2 4 15-b 4 c-2 39 2-7 2-2 2-2 15-1 3-9 b-5 2-2 39 2-6 3-1 3-2 8-2 b-1 3-9 13 3c-4
  4-2 2-3 a f-9 11-4 38 2-6 2-2 2-3 8-1 c-1 3-9 12-2 39 2-6 2-2 2-3 8-1 c-1 3-9 11-3 38-1 2-6 2-2
  2-3 a b-1 3-9 12-2 47 5-5 2 2-7 7-9 3-1 3e 2-7 d-7 2-9 58 2-9 c-5 3-9 3f-1 7-9 c 2 2 5-1 32-13
  2-1 6-a 2-23 a 65-13 2-9 d-3 5-2 2-2 3-6 4-3 e-b 2-e 2c0-2 a-8 3a1-3 1d-2 1e-1 1f-1 41-1f a 3-9
  22-2 2-a 90 77-b 5-b b-9 81-a 3d-4 3a-9 2-1c 3-a 7-9 17-d 2-f 32-4 30-10 c-9 12-8 d-2 1f-c 3-9
  2d-d 31-13 9-9 7-9 77-2 2-14 5 7 3-2 c7-3f 240-1 14 7c-c 5 4-b bff-2 8e 61-1f 22b-5 6a-1 7586-9
  46 5-9 21-1 51-1 111 4 5 18-4 5 54-1 33-11 b-9 7-11 e-a 1d-7 1a-c 2d-3 30-d 10-9 c b-9 30-d d 9-1
  3-9 22-2 33 2-2 3-1 6-1 2 2a-4 6-1 ed-7 2-1 3-9 4f25 2e2-f 11-f 4-1 19-2 c1-9 26 5f-1 25e e3 96-4
  126-9 558-2 2-1 6-3 29-2 5 a6-1 23e-3 9-9 172-1 9a-a 32-3 7b-2 36-e 20-a 3-1 b-3 2e-a 8 2e-9 7-2
  25-d 2-9 6-1 2d d-2 31-d 9-3 2-b 53-b 7 a1-b 6-9 7-3 38-1 2-6 3-1 3-2 a b-1 3-6 4-4 c1-11 a-9 5
  52-13 d-9 d6-6 3-8 1c-1 53-10 10-9 52-c 9-9 54-e 5-9 f3-e a6-9 47-5 2-1 3-3 2 2-1 d-9 78-6 3-6 4
  1d-9 29-6 2-3 9 a-a 2f-f 196-7 2-7 11-9 39-15 2-d 7b-5 4 2-1 2-6 2 9-9 31-4 2-1 2-4 9-9 14a-3
  4b6a-9 57-9 27-4 3c-6 1a-9 3f6 2-36 8-3 52 c-1 4cac-1 1262-2d 3-16 21f-4 4-5 9-7 3-6 1f-3 95-2
  58a-31 201-36 5-31 9 f 17-4 2-e 551-6 2-10 3-6 2-1 2-4 106-6 a-9 165 3e-d 5d7-6 6e-6 6-9 1297-9
  c0507-ef"

/-- Characters beyond ASCII that are shown as they are in a quoted literal, those of identifiers apart. -/
def symbolRanges : CodeRanges := CodeRanges.read
  "a1-8 2-1 2-6 2 2-1 2-4 18 20 1cb-3 d-d 6-6 2 2-10 76 5 4 6-1 71 8c 6-1 d1-5 2a-1 3-2 2f 2 3 3
  2d-1 12-9 c 2-2 4b-3 67 a b 14-1 2-d e9-3 5-1 31-e 20 2a dc-1 b 82-9 2 79 7a-1 7f 2-5 79-a 7d-8 5
  cb 9-6 12-9 7b 4b 10 b-1 a6-16 3-5 b-a 2 2 2-3 48 39-7 2-5 2-c 70-5 4f-1 5c 265-8 a-a 14-9 67
  26d-1 2d-1 4f-2 48-1 9e-2 2-3 15-9 7-a 136 4-1 99-21 1f-1 81-6 2-5 11 9c-10 a-a 7e-3 3c-4 3f-1
  41-7 c 2ea 2-2 c-2 e-2 e-2 e-1 12-17 9-e 3-12 2-9 12 4-a 2-e 12-20 1d-3 2-2 1c-1 2-3 2-1 b 2-1
  7-5 2 2 2 11-1 5-4 6-3 2-10 2a-2 5-296 1a-a 16-713 3-1f 2-68 e6-5 f-6 71 90-5d 23-19 2-58 d-d5
  1b-b 6-3 4-18 10 6-1 6-2 5c-1 4 5b 95-f 21-23 1d-1e 2-1df 19c1-3f 5691-36 38-1 10e-2 61-3 b 74-5
  9-16 a-1 68-1 9e-3 5-9 3b-3 57-1 29-2 2 32-1 30 62-c 11-1 7d-3 18-2 65-1 11-1 6a f-1 80 4f3e
  89-10 9c-5 db-11 80 2b-5 11-9 17-2 3-17 4-2 2-12 2-3 5 2 2 2 2 2 2 2 83-e b-6 1b-3 2 1b-a 7b-6
  2-6 e-1 103-2 5-2c 4-8 36-19 2-c 4 30-2c e5-1a 25-3 7c 31 19f 2e8-8 18-8 28-8 4c-4 17-5 4 20 7d-1
  3-f 3-2d 41-8 8-8 25-2 1e-2 29 23-b 43-6 19-7 19-7 1a-3 d-6 14b-5 161-1e 2f 70-9 2b-8 2d-3 3c-6
  7c-6 5-13 56-1 2-3 7f-3 31-1 50-3 5 e 2-2 2-13 44-5 6c 1a2-4 b-1 2 69 fb-16 6a-2 1d-c 4d 81-5 fc
  af-8 52-2 9c 5d-7 54-2 2-4 19f-4 15-12 4-1 286-1 c8-31 e 471-4 b7d-1 3a7c-1 86 42-8 5-1 16-6
  31f-1a 148 4cba 3 12b1-73 3d-f5 b-26 3-3b 6-2 17-1 8-1d 5-3c 16-41 4 9b-13 d-56 a-18 349 1a 20 1a
  20 1a 20 1a 20 1a 3d-1ff 38-3 33-7 2-d 2-6 6c4 1b0 5c8-8 8f-1 312-43 4d-3c 1b3-1 10f-2b 5-63 d-e
  3-e 2-e 2-24 b-ad 39-1c e-2b 5-8 8-1 f-5 9b-3d7 6-f 4-c 4-73 d-58 8-b 5 10-b 5-37 9-9 7-27 9-1d
  3-1 4f-153 d-d 3-4 4-4 4-6 a-1c 4-a 6-5 b-9 7-7 9-6 a-92 2-36"

def isAsciiLetter (c : Char) : Bool := ('a' ≤ c && c ≤ 'z') || ('A' ≤ c && c ≤ 'Z')

def isAsciiDigit (c : Char) : Bool := '0' ≤ c && c ≤ '9'

def isWord (c : Char) : Bool :=
  if c.toNat < 128 then isAsciiLetter c || isAsciiDigit c || c == '_'
  else alphanumericRanges.contains c.toNat

def isIdentifierStart (c : Char) : Bool :=
  if c.toNat < 128 then isAsciiLetter c || c == '_'
  else
    let n := c.toNat
    alphanumericRanges.contains n && !innerRanges.contains n ||
      n == 0x1885 || n == 0x1886 || n == 0x2118 || n == 0x212e

def isIdentifierContinue (c : Char) : Bool :=
  if c.toNat < 128 then isAsciiLetter c || isAsciiDigit c || c == '_'
  else isIdentifierStart c || continuingRanges.contains c.toNat

def isIdentifier : List Char → Bool
  | [] => false
  | c :: cs => isIdentifierStart c && cs.all isIdentifierContinue

def isPrintable (code : Nat) : Bool :=
  if code < 128 then 32 ≤ code && code < 127
  else isIdentifierContinue (Char.ofNat code) || symbolRanges.contains code

def isBlank (c : Char) : Bool :=
  let n := c.toNat
  (9 ≤ n && n ≤ 13) || (28 ≤ n && n ≤ 32) || n == 0x85 || n == 0xa0 || n == 0x1680 ||
    (0x2000 ≤ n && n ≤ 0x200a) || n == 0x2028 || n == 0x2029 || n == 0x202f || n == 0x205f ||
    n == 0x3000

example : isWord 'a' = true ∧ isWord '-' = false ∧ isIdentifierStart '1' = false := by decide

example : isBlank ' ' = true ∧ isBlank '\x1c' = true ∧ isBlank 'x' = false := by decide

end LoopEscape.Text
