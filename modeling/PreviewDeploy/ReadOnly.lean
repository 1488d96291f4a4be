/-!
# Read-only paths

Part of a project may be deployed by someone else and must not be written.  It is named by
directories, each given as a text: leading `./` and `/` do not count, and the directory covers
itself and every path that continues it after a slash (`Policy.isReadOnly`).

Two readings of a path stand side by side here.  `strip` removes what a policy ignores at the
front of a text.  `resolve` reads a path component by component, where an empty component and
`.` say nothing and `..` takes back the component before it.
-/

namespace PreviewDeploy.ReadOnly

/-- Removes every leading `./` and `/`. -/
def strip : List Char → List Char
  | '.' :: '/' :: rest => strip rest
  | '/' :: rest => strip rest
  | cs => cs

/-- Removes every slash at the end. -/
def trimSlashes (cs : List Char) : List Char := (cs.reverse.dropWhile (· = '/')).reverse

/-- The stripped directory with one slash at its end, if it had none. -/
def asDirectory (cs : List Char) : List Char :=
  let dir := strip cs
  if dir.getLast? = some '/' then dir else dir ++ ['/']

/-- The directories that must not be written, each ending in a slash. -/
structure Policy where
  directories : List (List Char)
  deriving DecidableEq, Repr

namespace Policy

/-- The policy of a list of directory texts; a text that names no directory is left out. -/
def ofTexts (texts : List String) : Policy :=
  ⟨(texts.map fun t => asDirectory t.toList).filter (· ≠ ['/'])⟩

/-- The texts of the directories. -/
def texts (p : Policy) : List String := p.directories.map String.ofList

/-- A stripped path is covered by a directory if it is in it or is the directory itself. -/
def covers (directory path : List Char) : Bool :=
  directory.isPrefixOf path || path = trimSlashes directory

def isReadOnly (p : Policy) (path : String) : Bool :=
  p.directories.any fun d => covers d (strip path.toList)

/-- The backend of a project, which has its own way out. -/
def standard : Policy := ofTexts ["api-worker/"]

end Policy

/-- The components of a path, between its slashes. -/
def components : List Char → List (List Char)
  | [] => [[]]
  | c :: rest =>
    if c = '/' then [] :: components rest
    else
      match components rest with
      | [] => [[c]]
      | first :: more => (c :: first) :: more

/-- Takes the components of a path in turn; `done` holds those that stand, the last one first. -/
def resolveFrom (done : List (List Char)) : List (List Char) → List (List Char)
  | [] => done.reverse
  | c :: rest =>
    if c = [] ∨ c = ['.'] then resolveFrom done rest
    else if c = ['.', '.'] then resolveFrom done.tail rest
    else resolveFrom (c :: done) rest

/-- The components that a path comes down to. -/
def resolve (path : List Char) : List (List Char) := resolveFrom [] (components path)

end PreviewDeploy.ReadOnly
