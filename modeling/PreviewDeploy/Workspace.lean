import PreviewDeploy.File.Basic
import PreviewDeploy.FileTree

/-!
# Workspaces

The directory of a project on disk.  Its files are all texts in it (`Workspace.load`), in the
order of their paths; directories that hold no sources of the project are skipped, and links are
not followed.  Some of the files are named by their paths (`Workspace.pick`), in which leading
`./` do not count.
-/

namespace PreviewDeploy.Workspace

/-- The names of directories that are skipped. -/
def skipped : List String := [".git", "node_modules", "dist", ".shipyard"]

/-- The path of an entry of a directory. -/
def join (dir name : String) : String := if dir.isEmpty then name else dir ++ "/" ++ name

mutual

/-- The texts in something that stands at a path, unless it is a skipped directory. -/
def texts (path : String) : FileTree → List File
  | .file content =>
    match content.text? with
    | some text => [⟨path, text⟩]
    | none => []
  | .dir entries => textsOf path entries
  | .link _ => []

/-- The texts in the entries of a directory. -/
def textsOf (dir : String) : List (String × FileTree) → List File
  | [] => []
  | (name, .dir entries) :: rest =>
    (if skipped.contains name then [] else textsOf (join dir name) entries) ++ textsOf dir rest
  | (name, t) :: rest => texts (join dir name) t ++ textsOf dir rest

end

/-- The files of a project; only a directory has some. -/
def load : FileTree → Option (List File)
  | .dir entries => some ((textsOf "" entries).mergeSort fun a b => !(b.path < a.path))
  | _ => none

/-- A path that no file has. -/
structure UnknownPath where
  path : String
  deriving DecidableEq, Repr, Inhabited

def UnknownPath.message (e : UnknownPath) : String := e.path ++ " is not in the project directory"

/-- A path without leading `./`. -/
def trimHere : List Char → List Char
  | '.' :: '/' :: rest => trimHere rest
  | cs => cs

/-- The first file with a path. -/
def pickOne (files : List File) (path : String) : Except UnknownPath File :=
  let wanted := String.ofList (trimHere path.toList)
  match files.find? fun f => f.path = wanted with
  | some f => .ok f
  | none => .error ⟨wanted⟩

/-- The files with given paths, in the order of the paths. -/
def pick (files : List File) (paths : List String) : Except UnknownPath (List File) :=
  paths.mapM (pickOne files)

end PreviewDeploy.Workspace
