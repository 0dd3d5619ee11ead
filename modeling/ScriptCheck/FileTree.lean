/-!
Files by path. A path is read component by component, as a file system does it: `.` stays, `..` goes
up, a name goes down, and each of them asks for a directory to start from. Nothing is known of what
lies above the tree.
-/

namespace ScriptCheck

/-- Why a file cannot be read. -/
inductive FileError where
  | missing
  | notDirectory
  | isDirectory
deriving DecidableEq

/-- The text of a file error. -/
def FileError.message : FileError → String
  | .missing => "No such file or directory (os error 2)"
  | .notDirectory => "Not a directory (os error 20)"
  | .isDirectory => "Is a directory (os error 21)"

/-- The components of a path, of which some may be empty. -/
def pathComponents (path : String) : List String := path.splitOn "/"

/-- The last component of a path that is neither empty nor `.`, unless it goes up. -/
def fileName? (path : String) : Option String :=
  match ((pathComponents path).filter fun c => c ≠ "" && c ≠ ".").getLast? with
  | some c => if c = ".." then none else some c
  | none => none

/-- Files by the components of their paths. -/
structure FileTree where
  files : List (List String × String)

namespace FileTree

/-- The tree of files with the given paths; of two with one path the later stays. -/
def ofList (files : List (String × String)) : FileTree :=
  ⟨files.reverse.map fun f => ((pathComponents f.1).filter fun c => c ≠ "" && c ≠ ".", f.2)⟩

/-- A place that a path leads to. -/
inductive Place where
  | file (content : String)
  | directory (path : List String)
  | above
deriving DecidableEq

/-- Whether a file lies below a path. -/
def isDirectory (t : FileTree) (path : List String) : Bool :=
  t.files.any fun f => path.isPrefixOf f.1 && f.1 ≠ path

/-- Goes down from a directory of the tree. -/
def enter (t : FileTree) (path : List String) : Except FileError Place :=
  match t.files.lookup path with
  | some content => .ok (.file content)
  | none => if t.isDirectory path then .ok (.directory path) else .error .missing

/-- Goes one component further. -/
def step (t : FileTree) (place : Place) (component : String) : Except FileError Place :=
  let stays := component = "" || component = "."
  match place with
  | .file _ => .error .notDirectory
  | .directory path =>
    if stays then .ok place
    else if component = ".." then .ok (if path.isEmpty then .above else .directory path.dropLast)
    else t.enter (path ++ [component])
  | .above => if stays || component = ".." then .ok place else .error .missing

/-- The content of the file that a path leads to. -/
def read (t : FileTree) (path : String) : Except FileError String := do
  if path = "" then throw .missing
  let start : Place := if path.startsWith "/" then .above else .directory []
  match ← (pathComponents path).foldlM t.step start with
  | .file content => return content
  | _ => throw .isDirectory

end FileTree

end ScriptCheck
