import LoopEscape.Text.Encoding
import LoopEscape.Text.Quoted

/-!
# Files

The files of a working directory, by their names, and names as paths.  Directories are there as far
as files are in them.
-/

namespace LoopEscape

open Text

/-! ### Paths -/

def splitText (separator : Char) (s : String) : List String :=
  (s.toList.splitOn separator).map String.ofList

def isAbsolute (path : String) : Bool := path.toList.head? == some '/'

/-- The parts of a path without empty ones and dots.  An absolute path starts with a part of its
own. -/
def pathParts (path : String) : List String :=
  (if isAbsolute path then ["/"] else []) ++
    (splitText '/' path).filter fun p => p != "" && p != "."

def shortPath (path : String) : String :=
  match pathParts path with
  | [] => "."
  | "/" :: rest => "/" ++ "/".intercalate rest
  | parts => "/".intercalate parts

/-- A name in a directory; the empty name of a directory stands for the working directory. -/
def joinPath (directory name : String) : String :=
  shortPath ((if directory == "" then "." else directory) ++ "/" ++ name)

def pathStem (path : String) : String :=
  let name := ((pathParts path).getLast?).getD ""
  let parts := splitText '.' name
  if parts.length < 2 || parts.getLast? == some "" then name
  else
    let stem := ".".intercalate parts.dropLast
    if stem == "" then name else stem

example : shortPath "./pkg/../pkg//b.x" = "pkg/../pkg/b.x" := by decide +kernel

example : pathStem "d/a.b.x" = "a.b" ∧ pathStem ".x" = ".x" := by decide +kernel

/-! ### Files -/

inductive FileProblem
  | missing
  | isDirectory
  | notDirectory
deriving DecidableEq, Repr

def FileProblem.message : FileProblem → String
  | missing => "[Errno 2] No such file or directory: "
  | isDirectory => "[Errno 21] Is a directory: "
  | notDirectory => "[Errno 20] Not a directory: "

structure Files where
  entries : List (List String × List Nat) := []
deriving Inhabited

namespace Files

def get? (fs : Files) (parts : List String) : Option (List Nat) := fs.entries.lookup parts

def isDirectory (fs : Files) (parts : List String) : Bool :=
  parts.isEmpty || fs.entries.any fun (p, _) => parts.isPrefixOf p && p != parts

/-- Follows the parts of a path from a directory, also up.  The last part need not exist. -/
def resolve (fs : Files) (directory : List String) : List String → Except FileProblem (List String)
  | [] => .ok directory
  | ".." :: rest =>
    if directory.isEmpty || directory.getLast? == some ".." then
      resolve fs (directory ++ [".."]) rest
    else resolve fs directory.dropLast rest
  | [name] => .ok (directory ++ [name])
  | name :: rest =>
    let next := directory ++ [name]
    if fs.isDirectory next then resolve fs next rest
    else if (fs.get? next).isSome then .error .notDirectory
    else .error .missing

def read (fs : Files) (path : String) : Except FileProblem (List Nat) := do
  let parts ← fs.resolve [] (pathParts path)
  if fs.isDirectory parts then .error .isDirectory
  else match fs.get? parts with
    | some bytes => .ok bytes
    | none => .error .missing

def isFile (fs : Files) (path : String) : Bool :=
  match fs.read path with
  | .ok _ => true
  | .error _ => false

def put (fs : Files) (parts : List String) (bytes : List Nat) : Files :=
  if (fs.get? parts).isSome then
    ⟨fs.entries.map fun e => if e.1 == parts then (parts, bytes) else e⟩
  else ⟨fs.entries ++ [(parts, bytes)]⟩

def write (fs : Files) (path : String) (bytes : List Nat) : Except FileProblem Files := do
  let parts ← fs.resolve [] (pathParts path)
  if fs.isDirectory parts then .error .isDirectory else .ok (fs.put parts bytes)

def ofList (files : List (String × List Nat)) : Files :=
  files.foldl (fun fs (name, bytes) => fs.put (pathParts name) bytes) {}

theorem get?_put (fs : Files) (parts : List String) (bytes : List Nat) :
    (fs.put parts bytes).get? parts = some bytes := by
  obtain ⟨es⟩ := fs
  unfold put
  split
  · rename_i h
    simp only [get?] at h ⊢
    induction es with
    | nil => simp at h
    | cons e es ih =>
      obtain ⟨p, b⟩ := e
      by_cases hp : parts = p
      · simp [hp]
      · have hb : (parts == p) = false := beq_false_of_ne hp
        have hq : ¬ p = parts := fun h => hp h.symm
        simp only [List.lookup_cons, hb] at h
        simpa [List.lookup_cons, hb, hq] using ih h
  · rename_i h
    simp only [get?, Bool.not_eq_true, Option.isSome_eq_false_iff, Option.isNone_iff_eq_none] at h ⊢
    rw [List.lookup_append, h]
    simp

end Files

/-! ### Texts of files -/

def plainText? (bytes : List Nat) : Option String :=
  (decodeUtf8 bytes).map fun cs => String.ofList (universalNewlines cs)

inductive DecodeProblem
  | declaration (fault : DeclarationFault)
  | undecodable
deriving Repr

def byteLines : List Nat → List Nat → List (List Nat)
  | acc, [] => if acc.isEmpty then [] else [acc.reverse]
  | acc, b :: rest => if b = 10 then (b :: acc).reverse :: byteLines [] rest else byteLines (b :: acc) rest

def markBytes : List Nat := [0xef, 0xbb, 0xbf]

def sourceText (bytes : List Nat) : Except DecodeProblem String :=
  let marked := markBytes.isPrefixOf bytes
  let body := if marked then bytes.drop 3 else bytes
  let lines := ((byteLines [] body).take 2).map decodeUtf8
  match declaredEncoding marked lines with
  | .error fault => .error (.declaration fault)
  | .ok e =>
    match e.decode body with
    | none => .error .undecodable
    | some cs => .ok (String.ofList (universalNewlines cs))

end LoopEscape
