import PreviewDeploy.File.Project
import PreviewDeploy.ReadOnly

/-!
# Selection of the files to write

An empty request, or an instance that was just created, asks for every file of the project; any
other request asks for its own files.  Of these candidates the read-only ones are dropped, each
entry counted, and the others are collapsed to one file a path, at its first place and with its
last contents.
-/

namespace PreviewDeploy

open ReadOnly (Policy)

structure Selection where
  /-- The files to write. -/
  files : List File
  /-- The candidates left out as read-only, in their order. -/
  dropped : List File
  deriving Repr, Inhabited

namespace Selection

/-- The files that a deployment asks for. -/
def candidates (requested : List File) (fresh : Bool) (project : Project) : List File :=
  if requested.isEmpty || fresh then project.allFiles else requested

def ofCandidates (policy : Policy) (files : List File) : Selection where
  files := (FileSet.ofList (files.filter fun f => !policy.isReadOnly f.path)).toList
  dropped := files.filter fun f => policy.isReadOnly f.path

/-- The files that a deployment writes. -/
def select (policy : Policy) (requested : List File) (fresh : Bool) (project : Project) :
    Selection :=
  ofCandidates policy (candidates requested fresh project)

end Selection

end PreviewDeploy
