import ExpiringCache.Stream
import ExpiringCache.Table

/-!
# Files

A tree of directories and files, with a current directory in it. The tree is a table from paths to
files and directories, where a path is the names on the way from the root with slashes between them.

The text of a path is followed name by name, from the root if it begins with a slash and else from
the current directory, and every name but the last has to lead to a directory. The name `..` leads
to the directory around, which of the root is the root itself. A last name `.` or `..` stands for a
directory that is there, and a slash after the last name asks for a directory; each operation refuses
these in its own way.
-/

namespace ExpiringCache

/-- What a path leads to. -/
inductive FileNode where
  | file (content : List UInt8)
  | directory
  deriving DecidableEq, Repr

/-- Where a path leads. -/
inductive Target where
  /-- To a directory: to the root, or by `.` or `..`. -/
  | directory
  /-- To a place for a file or directory, by the names on the way to it from the root; `slash` tells
  of a slash after the last of them. -/
  | entry (path : List String) (slash : Bool)
  deriving DecidableEq, Repr

/-- Files and directories by their paths. The root has no entry. -/
structure FileSystem where
  /-- The files and directories. -/
  nodes : Table FileNode
  /-- The names on the way from the root to the current directory. -/
  current : List String

namespace FileSystem

/-- A tree of nothing but the root, which is the current directory. -/
def empty : FileSystem := ⟨.empty, []⟩

/-- A tree of one directory below the root, which is the current directory. -/
def within (name : String) : FileSystem := ⟨Table.empty.insert name .directory, [name]⟩

/-- The path through the given names. -/
def pathOf (names : List String) : String := "/".intercalate names

/-- The names in the text of a path: what stands between its slashes. -/
def namesOf (text : String) : List String :=
  let runs := text.toList.splitBy fun c c' => c != '/' && c' != '/'
  (runs.filter fun run => run.head? != some '/').map String.ofList

/-- The text of a path begins at the root. -/
def isAbsolute (text : String) : Bool := text.toList.head? == some '/'

/-- The names that lead from the root to where the text of a path begins. -/
def origin (files : FileSystem) (text : String) : List String :=
  if isAbsolute text then [] else files.current

/-- Refuses names that no file can have. -/
def checkNames (names : List String) : Except IoFault Unit :=
  if names.any fun name => name.toList.contains '\x00' then .error .invalidInput else .ok ()

/-- Goes from a directory to the directory that a name stands for in it. -/
def enter (files : FileSystem) : List String → String → Except IoFault (List String)
  | place, "." => .ok place
  | place, ".." => .ok place.dropLast
  | place, name =>
    match files.nodes.get? (pathOf (place ++ [name])) with
    | some .directory => .ok (place ++ [name])
    | some (.file _) => .error .notDirectory
    | none => .error .notFound

/-- Goes through directories by name, from the root on; gives the names on the straight way. -/
def walk (files : FileSystem) (names : List String) : Except IoFault (List String) :=
  names.foldlM files.enter []

/-- Follows the text of a path to its last name, which need not be present. A text without names
stands for the root or for nothing. -/
def resolve (files : FileSystem) (text : String) : Except IoFault Target := do
  checkNames (namesOf text)
  match (namesOf text).getLast? with
  | none => if isAbsolute text then return .directory else throw .notFound
  | some name =>
    let place ← files.walk (files.origin text ++ (namesOf text).dropLast)
    if name = "." ∨ name = ".." then return .directory
    return .entry (place ++ [name]) (text.toList.getLast? = some '/')

/-- What the text of a path leads to. -/
def locate (files : FileSystem) (text : String) : Except IoFault FileNode := do
  match ← files.resolve text with
  | .directory => return .directory
  | .entry path slash =>
    match files.nodes.get? (pathOf path) with
    | none => throw .notFound
    | some .directory => return .directory
    | some (.file content) => if slash then throw .notDirectory else return .file content

/-- The content of a file. -/
def read (files : FileSystem) (text : String) : Except IoFault (List UInt8) := do
  match ← files.locate text with
  | .file content => return content
  | .directory => throw .isDirectory

/-- Sets what is at a path. -/
def put (files : FileSystem) (path : String) (node : FileNode) : FileSystem :=
  { files with nodes := files.nodes.insert path node }

/-- Puts a file with a content at a path, instead of the file that may have been there. -/
def write (files : FileSystem) (text : String) (content : List UInt8) :
    Except IoFault FileSystem := do
  match ← files.resolve text with
  | .directory => throw .isDirectory
  | .entry path slash =>
    if slash then throw .isDirectory
    match files.nodes.get? (pathOf path) with
    | some .directory => throw .isDirectory
    | _ => return files.put (pathOf path) (.file content)

/-- Makes a directory. -/
def makeDirectory (files : FileSystem) (text : String) : Except IoFault FileSystem := do
  match ← files.resolve text with
  | .directory => throw .alreadyExists
  | .entry path _ =>
    match files.nodes.get? (pathOf path) with
    | some _ => throw .alreadyExists
    | none => return files.put (pathOf path) .directory

/-- The names in the current directory, ascending. -/
def list (files : FileSystem) : List String :=
  files.nodes.entries.filterMap fun (path, _) =>
    if (namesOf path).dropLast = files.current then (namesOf path).getLast? else none

/-! ## Temporary files -/

/-- The directory that the text of a path names before its last name; here `.` is no name. It need
not be the directory in which `resolve` finds the last name. It is the current directory if there is
no last name. -/
def parent (files : FileSystem) (text : String) : Except IoFault (List String) := do
  match (namesOf text).filter fun name => name != "." with
  | [] => files.walk files.current
  | name :: names =>
    checkNames (name :: names).dropLast
    files.walk (files.origin text ++ (name :: names).dropLast)

/-- A name that is longer than any path. -/
def freshName (files : FileSystem) : String :=
  let longest := (files.nodes.entries.map fun (path, _) => path.length).foldl max 0
  String.ofList ('.' :: List.replicate longest 't')

/-- Sets the content of a file. -/
def fill (files : FileSystem) (path : String) (content : List UInt8) : FileSystem :=
  files.put path (.file content)

/-- Makes an empty file under a fresh name in a directory; gives its path. -/
def makeTemporary (files : FileSystem) (directory : List String) : String × FileSystem :=
  let path := pathOf (directory ++ [files.freshName])
  (path, files.fill path [])

/-- Removes a file. -/
def remove (files : FileSystem) (path : String) : FileSystem :=
  { files with nodes := files.nodes.erase path }

/-- Gives a file another path, instead of the file that may have been there; this takes one
step. -/
def rename (files : FileSystem) (path text : String) : Except IoFault FileSystem := do
  match ← files.resolve text with
  | .directory => throw .busy
  | .entry target slash =>
    if slash then throw .notDirectory
    match files.nodes.get? (pathOf target), files.nodes.get? path with
    | some .directory, _ => throw .isDirectory
    | _, some (.file content) => return (files.remove path).fill (pathOf target) content
    | _, _ => throw .notFound

end FileSystem

end ExpiringCache
