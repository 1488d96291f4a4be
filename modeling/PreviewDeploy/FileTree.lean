import PreviewDeploy.Store.Basic
import PreviewDeploy.Text.Bytes

/-!
# File trees

What a file system holds: files, directories whose entries have names, and links.  A path names
what it leads to (`FileTree.resolve`): `.` and empty components say nothing, `..` leads to the
directory above, and a link leads on to its target.
-/

namespace PreviewDeploy

/-- What a file holds. -/
inductive Content where
  | bytes (content : List UInt8)
  /-- A store kept on disk, which is no text. -/
  | database (store : Store)

namespace Content

/-- The text of a file, if it is one. -/
def text? : Content → Option String
  | bytes content => ofUtf8? content
  | database _ => none

end Content

inductive FileTree where
  | file (content : Content)
  | dir (entries : List (String × FileTree))
  | link (target : String)

namespace FileTree

instance : Inhabited FileTree := ⟨.dir []⟩

/-- The entry of a directory with a name. -/
def child? (name : String) : FileTree → Option FileTree
  | .dir entries => entries.lookup name
  | _ => none

/-- What stands at a place, given by the names that lead to it. -/
def at? : List String → FileTree → Option FileTree
  | [], t => some t
  | name :: rest, t => (t.child? name).bind (at? rest)

/-- Puts an entry into a list of entries, in place of one with its name. -/
def putEntry (name : String) (x : FileTree) :
    List (String × FileTree) → List (String × FileTree)
  | [] => [(name, x)]
  | (n, t) :: rest => if n = name then (n, x) :: rest else (n, t) :: putEntry name x rest

/-- Puts something at a place, with the directories that lead there; nothing is put below what is
no directory. -/
def put (x : FileTree) : List String → FileTree → FileTree
  | [], _ => x
  | name :: rest, .dir entries =>
    .dir (putEntry name (put x rest ((entries.lookup name).getD (.dir []))) entries)
  | _ :: _, t => t

/-- Makes a directory and those that lead there, unless something else is in the way. -/
def makeDir : List String → FileTree → Option FileTree
  | [], .dir entries => some (.dir entries)
  | name :: rest, .dir entries =>
    (makeDir rest ((entries.lookup name).getD (.dir []))).map fun t =>
      .dir (putEntry name t entries)
  | _, _ => none

/-! ### Paths -/

def isAbsolute (path : String) : Bool := path.toList.head? = some '/'

/-- The components of a path that lead somewhere. -/
def components (path : String) : List String :=
  (path.splitOn "/").filter fun c => !(c.isEmpty || c = ".")

/-- How many links are followed on the way to one place. -/
def maxLinks : Nat := 40

/-- The place that components lead to from a directory, following at most `links` links. -/
def walk (root : FileTree) (links : Nat) (at' : List String) :
    List String → Option (List String)
  | [] => some at'
  | ".." :: rest =>
    match root.at? at' with
    | some (.dir _) => walk root links at'.dropLast rest
    | _ => none
  | name :: rest =>
    match (root.at? at').bind (·.child? name) with
    | none => none
    | some (.link target) =>
      match links with
      | 0 => none
      | n + 1 =>
        walk root n (if isAbsolute target then [] else at') (components target ++ rest)
    | some _ => walk root links (at' ++ [name]) rest
termination_by components => (links, components.length)

/-- Makes the directories that components lead through from a place, and says where they end. -/
def makeDirs (root : FileTree) (place : List String) :
    List String → Option (List String × FileTree)
  | [] =>
    match root.at? place with
    | some (.dir _) => some (place, root)
    | _ => none
  | name :: rest =>
    match root.walk maxLinks place [name] with
    | some next => makeDirs root next rest
    | none =>
      if ((root.at? place).bind (·.child? name)).isSome || name = ".." then none
      else
        match root.makeDir (place ++ [name]) with
        | some root => makeDirs root (place ++ [name]) rest
        | none => none

/-- The place that a path leads to from a directory; a path that ends in a slash leads to a
directory. -/
def resolve (root : FileTree) (cwd : List String) (path : String) : Option (List String) :=
  if path.isEmpty then none
  else
    match walk root maxLinks (if isAbsolute path then [] else cwd) (components path) with
    | none => none
    | some place =>
      if path.toList.getLast? = some '/' then
        match root.at? place with
        | some (.dir _) => some place
        | _ => none
      else some place

/-- What a path leads to from a directory. -/
def find? (root : FileTree) (cwd : List String) (path : String) : Option FileTree :=
  (root.resolve cwd path).bind fun place => root.at? place

end FileTree

end PreviewDeploy
