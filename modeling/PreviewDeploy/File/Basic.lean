import PreviewDeploy.Json.Record
import Std.Data.HashMap

/-!
# Files and file sets

A file is a path with its contents.  A `FileSet` keeps one file a path, in the order in which
the paths first came; putting in a file whose path is there replaces the contents in place.  Its
index says at which position each path stands.
-/

namespace PreviewDeploy

structure File where
  path : String
  contents : String
  deriving DecidableEq, Repr, Inhabited

namespace File

def fields : List String := ["path", "contents"]

def ofTree (t : Json.Tree) : Option File :=
  match Json.Record.slots fields t with
  | some [path, contents] => do
    let path ← path.required (·.string?)
    let contents ← contents.required (·.string?)
    pure ⟨path, contents⟩
  | _ => none

def toTree (f : File) : Json.Tree :=
  Json.Record.tree [("path", .ofString f.path), ("contents", .ofString f.contents)]

instance : Json.Form File := ⟨ofTree, toTree⟩

end File

/-- Files by path, in the order in which the paths first came. -/
structure FileSet where
  files : Array File := #[]
  /-- The position of each path. -/
  index : Std.HashMap String Nat := {}
  deriving Inhabited

namespace FileSet

def empty : FileSet := {}

/-- Puts in a file, in place of one with its path. -/
def upsert (s : FileSet) (f : File) : FileSet :=
  match s.index[f.path]? with
  | some i => { s with files := s.files.setIfInBounds i f }
  | none => { files := s.files.push f, index := s.index.insert f.path s.files.size }

def get? (s : FileSet) (path : String) : Option File :=
  match s.index[path]? with
  | some i => s.files[i]?
  | none => none

def contains (s : FileSet) (path : String) : Bool := s.index.contains path

def size (s : FileSet) : Nat := s.files.size

def isEmpty (s : FileSet) : Bool := s.files.isEmpty

def toList (s : FileSet) : List File := s.files.toList

/-- Puts in the files of a list, in turn. -/
def upsertAll (s : FileSet) (fs : List File) : FileSet := fs.foldl upsert s

def ofList (fs : List File) : FileSet := empty.upsertAll fs

end FileSet

end PreviewDeploy
