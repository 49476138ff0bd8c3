import LoopEscape.Execute.Basic
import LoopEscape.Files

/-!
# Importing modules

Modules are loaded from files and kept in a table.  A finder looks for a module's file in directories;
once installed it is asked after the finders for plain code.
-/

namespace LoopEscape

def sourceSuffix : String := ".cbit"

structure LoadedModule where
  name : String
  file : Option String
  vars : Namespace
  searchPath : Option (List String) := none

/-! ### The table of modules -/

abbrev ModuleTable := List (String × LoadedModule)

namespace ModuleTable

def get? (t : ModuleTable) (name : String) : Option LoadedModule := t.lookup name

def erase (t : ModuleTable) (name : String) : ModuleTable := t.filter fun (n, _) => n != name

def add (t : ModuleTable) (m : LoadedModule) : ModuleTable := (m.name, m) :: t.erase m.name

def fill (t : ModuleTable) (name : String) (vars : Namespace) : ModuleTable :=
  t.map fun (n, m) => (n, if n = name then { m with vars } else m)

end ModuleTable

/-- Runs the statements of a module that is in the table.  They may change the table, as imports do. -/
abbrev Interpreter := ModuleTable → String → List Stmt → ModuleTable × Except Failure Namespace

def Interpreter.plain : Interpreter := fun t name body =>
  match runModule [] body with
  | .error f => (t, .error f)
  | .ok vars => (t.fill name vars, .ok vars)

/-- What loading a module does between entering it into the table and taking it out again: `statements` is
what its file holds, if that can be read and compiled. -/
def Interpreter.exec (run : Interpreter) (name : String) (statements : Except Failure (List Stmt))
    (t : ModuleTable) : ModuleTable × Except Failure Namespace :=
  match statements with
  | .error f => (t, .error f)
  | .ok body => run t name body

/-! ### Loaders -/

structure Loader where
  name : String
  path : String
  settings : Option Settings := none

structure Finder where
  settings : Option Settings := none

def lastPart (name : String) : String := ((splitText '.' name).getLast?).getD ""

def Finder.find? (f : Finder) (files : Files) (name : String) (directories : List String) :
    Option Loader :=
  directories.findSome? fun d =>
    let candidate := joinPath d (lastPart name ++ sourceSuffix)
    if files.isFile candidate then some { name, path := candidate, settings := f.settings } else none

def DecodeProblem.failure : DecodeProblem → Failure
  | .declaration fault => .unreadable fault.message
  | .undecodable => .undecodable

namespace Loader

def job (l : Loader) (base : Job) (files : Files) : Except Failure Job := do
  let bytes ← (files.read l.path).mapError (.file · l.path)
  let text ← (sourceText bytes).mapError (·.failure)
  return { base with source := { text, path := some l.path }, settings := l.settings }

def code (l : Loader) (base : Job) (files : Files) : Except Failure String := do
  ((← l.job base files).compileCode {}).2

def statements (l : Loader) (base : Job) (files : Files) : Except Failure (List Stmt) := do
  let job ← l.job base files
  let _ ← (job.compileCode {}).2
  return (← job.parse).body

def newModule (l : Loader) : LoadedModule := { name := l.name, file := some l.path, vars := [] }

end Loader

/-! ### Plain modules -/

inductive PlainFound
  | package (directory : String)
  | module (file : String)
  | directories (ds : List String)

/-- Finds plain code: a package or a file in the first directory that has one, else the directories
of its name. -/
def findPlain? (files : Files) (name : String) (directories : List String) : Option PlainFound :=
  let part := lastPart name
  let found := directories.findSome? fun d =>
    let package := joinPath d part
    let file := joinPath d (part ++ ".py")
    if files.isFile (joinPath package "__init__.py") then some (PlainFound.package package)
    else if files.isFile file then some (.module file)
    else none
  found.orElse fun _ =>
    match (directories.map (joinPath · part)).filter fun d => files.isDirectory (pathParts d) with
    | [] => none
    | ds => some (.directories ds)

def plainStatements (files : Files) (file : String) : Except Failure (List Stmt) := do
  let bytes ← (files.read file).mapError (.file · file)
  let text ← (sourceText bytes).mapError (·.failure)
  (parseCode id text).mapError fun f => .unreadable f.message

def PlainFound.newModule (name : String) : PlainFound → LoadedModule
  | package d => { name, file := some (joinPath d "__init__.py"), vars := [], searchPath := some [d] }
  | module file => { name, file := some file, vars := [] }
  | directories ds => { name, file := none, vars := [], searchPath := some ds }

def PlainFound.statements (files : Files) : PlainFound → Except Failure (List Stmt)
  | package d => plainStatements files (joinPath d "__init__.py")
  | module file => plainStatements files file
  | directories _ => .ok []

/-! ### Importing -/

structure Importer where
  files : Files
  modules : ModuleTable := []
  hook : Option Finder := none
  run : Interpreter := .plain

namespace Importer

def get? (i : Importer) (name : String) : Option LoadedModule := i.modules.get? name

/-- Loads a module in three steps: it is entered into the table, it is run, and if that fails its name is
taken out. -/
def load (i : Importer) (m : LoadedModule) (statements : Except Failure (List Stmt)) :
    Importer × Except Failure LoadedModule :=
  match i.run.exec m.name statements (i.modules.add m) with
  | (modules, .ok vars) => ({ i with modules }, .ok { m with vars })
  | (modules, .error f) => ({ i with modules := modules.erase m.name }, .error f)

def loadFile (i : Importer) (base : Job) (path : String) (name : Option String)
    (settings : Option Settings) : Importer × Except Failure LoadedModule :=
  let loader : Loader := { name := name.getD (pathStem path), path := shortPath path, settings }
  i.load loader.newModule (loader.statements base i.files)

def loadFrom (i : Importer) (base : Job) (name : String) (directories : List String) :
    Importer × Except Failure LoadedModule :=
  match findPlain? i.files name directories with
  | some found => i.load (found.newModule name) (found.statements i.files)
  | none =>
    match i.hook.bind fun f => f.find? i.files name directories with
    | some loader => i.load loader.newModule (loader.statements base i.files)
    | none => (i, .error (.missingModule name))

/-- Imports the modules of a dotted name one inside the other.  `parent` is the module that the
remaining parts belong to. -/
def importParts (i : Importer) (base : Job) (path : List String) (parent : Option LoadedModule) :
    List String → Importer × Except Failure LoadedModule
  | [] => (i, match parent with
      | some m => .ok m
      | none => .error (.invalidValue "Empty module name"))
  | part :: rest =>
    let name := match parent with
      | none => part
      | some m => m.name ++ "." ++ part
    match i.get? name with
    | some m => importParts i base path (some m) rest
    | none =>
      match parent with
      | some ⟨parentName, _, _, none⟩ => (i, .error (.notAPackage name parentName))
      | some ⟨_, _, _, some directories⟩ =>
        match i.loadFrom base name directories with
        | (i, .ok m) => importParts i base path (some m) rest
        | r => r
      | none =>
        match i.loadFrom base name path with
        | (i, .ok m) => importParts i base path (some m) rest
        | r => r

def importModule (i : Importer) (base : Job) (name : String) (path : List String) :
    Importer × Except Failure LoadedModule :=
  match i.get? name with
  | some m => (i, .ok m)
  | none =>
    if name == "" then (i, .error (.invalidValue "Empty module name"))
    else i.importParts base path none (splitText '.' name)

def install (i : Importer) (f : Finder) : Importer × Nat :=
  match i.hook with
  | some _ => (i, 0)
  | none => ({ i with hook := some f }, 1)

def uninstall (i : Importer) : Importer := { i with hook := none }

end Importer

end LoopEscape
