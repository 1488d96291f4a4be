import PreviewDeploy.FileTree
import PreviewDeploy.Json.Record

/-!
# Listings of file trees

A listing is an array of entries in JSON, each with a path and what stands there: a text, bytes in
hexadecimal digits, the target of a link, or `true` for a directory.
-/

namespace PreviewDeploy.FileTree

open Json (Tree)

/-- What a listing has under a key of an entry. -/
def member? (key : String) : Tree → Option Tree
  | .object members => members.lookup (some key)
  | _ => none

def textAt? (key : String) (t : Tree) : Option String := (member? key t).bind (·.string?)

/-- What stands at the path of an entry; a directory is made, and is no such thing. -/
def leaf? (entry : Tree) : Option FileTree :=
  match textAt? "text" entry, textAt? "hex" entry, textAt? "link" entry with
  | some text, _, _ => some (.file (.bytes (utf8 text)))
  | none, some digits, _ => (ofHex? digits.toList).map fun content => .file (.bytes content)
  | none, none, some target => some (.link target)
  | none, none, none => none

/-- Puts what an entry describes below a place. -/
def enter (place : List String) (t : FileTree) (entry : Tree) : Option FileTree := do
  let path ← textAt? "path" entry
  let place := place ++ components path
  match leaf? entry with
  | some x => pure (.put x place t)
  | none => makeDir place t

/-- The file tree that a listing describes, below a place. -/
def ofListing (place : List String) (listing : Tree) : Option FileTree := do
  let top ← makeDir place (.dir [])
  match listing with
  | .array entries => entries.foldlM (enter place) top
  | .null => pure top
  | _ => none

end PreviewDeploy.FileTree
