import PreviewDeploy.Store.Cell
import PreviewDeploy.Text.Quoted

/-!
# The store

Three tables: for each project its session and its instance, the deployments, and the attempts
of deployments that failed.  Rows stand in the order in which they were inserted.  A `Column`
names a cell of a row; reading a cell as a value of some type can fail, and says how.
-/

namespace PreviewDeploy.Store

/-- The session and the instance of a project. -/
structure StateRow where
  project : Cell
  sessionId : Cell
  createdAt : Cell
  instanceId : Cell
  previewUrl : Cell
  tunnelUrl : Cell
  updatedAt : Cell
  deriving DecidableEq, Repr, Inhabited

/-- A deployment. -/
structure DeploymentRow where
  id : Cell
  project : Cell
  sessionId : Cell
  status : Cell
  fileCount : Cell
  attempts : Cell
  instanceId : Cell
  previewUrl : Cell
  error : Cell
  startedAt : Cell
  finishedAt : Cell
  deriving DecidableEq, Repr, Inhabited

/-- A failed attempt of a deployment. -/
structure AttemptRow where
  deploymentId : Cell
  attempt : Cell
  sessionId : Cell
  error : Cell
  errorKind : Cell
  retryInMs : Cell
  rotated : Cell
  createdAt : Cell
  deriving DecidableEq, Repr, Inhabited

/-- A column of a table. -/
structure Column (Row : Type) where
  name : String
  affinity : Affinity
  /-- The column must not be null. -/
  required : Bool
  get : Row → Cell
  set : Row → Cell → Row

namespace StateRow

def table : String := "deployment_state"

def columns : List (Column StateRow) :=
  [⟨"project", .text, false, (·.project), fun r c => { r with project := c }⟩,
    ⟨"session_id", .text, true, (·.sessionId), fun r c => { r with sessionId := c }⟩,
    ⟨"session_created_at", .text, true, (·.createdAt), fun r c => { r with createdAt := c }⟩,
    ⟨"instance_id", .text, false, (·.instanceId), fun r c => { r with instanceId := c }⟩,
    ⟨"preview_url", .text, false, (·.previewUrl), fun r c => { r with previewUrl := c }⟩,
    ⟨"tunnel_url", .text, false, (·.tunnelUrl), fun r c => { r with tunnelUrl := c }⟩,
    ⟨"updated_at", .text, true, (·.updatedAt), fun r c => { r with updatedAt := c }⟩]

end StateRow

namespace DeploymentRow

def table : String := "deployments"

def columns : List (Column DeploymentRow) :=
  [⟨"id", .text, false, (·.id), fun r c => { r with id := c }⟩,
    ⟨"project", .text, true, (·.project), fun r c => { r with project := c }⟩,
    ⟨"session_id", .text, true, (·.sessionId), fun r c => { r with sessionId := c }⟩,
    ⟨"status", .text, true, (·.status), fun r c => { r with status := c }⟩,
    ⟨"file_count", .integer, true, (·.fileCount), fun r c => { r with fileCount := c }⟩,
    ⟨"attempts", .integer, true, (·.attempts), fun r c => { r with attempts := c }⟩,
    ⟨"instance_id", .text, false, (·.instanceId), fun r c => { r with instanceId := c }⟩,
    ⟨"preview_url", .text, false, (·.previewUrl), fun r c => { r with previewUrl := c }⟩,
    ⟨"error", .text, false, (·.error), fun r c => { r with error := c }⟩,
    ⟨"started_at", .text, true, (·.startedAt), fun r c => { r with startedAt := c }⟩,
    ⟨"finished_at", .text, false, (·.finishedAt), fun r c => { r with finishedAt := c }⟩]

end DeploymentRow

namespace AttemptRow

def table : String := "deployment_attempts"

def columns : List (Column AttemptRow) :=
  [⟨"deployment_id", .text, true, (·.deploymentId), fun r c => { r with deploymentId := c }⟩,
    ⟨"attempt", .integer, true, (·.attempt), fun r c => { r with attempt := c }⟩,
    ⟨"session_id", .text, true, (·.sessionId), fun r c => { r with sessionId := c }⟩,
    ⟨"error", .text, true, (·.error), fun r c => { r with error := c }⟩,
    ⟨"error_kind", .text, true, (·.errorKind), fun r c => { r with errorKind := c }⟩,
    ⟨"retry_in_ms", .integer, true, (·.retryInMs), fun r c => { r with retryInMs := c }⟩,
    ⟨"session_rotated", .integer, true, (·.rotated), fun r c => { r with rotated := c }⟩,
    ⟨"created_at", .text, true, (·.createdAt), fun r c => { r with createdAt := c }⟩]

end AttemptRow

/-! ### Errors -/

/-- A rule of the tables that a write would break. -/
inductive Constraint where
  | notNull (table column : String)
  /-- Another row has the same values in these columns. -/
  | unique (table : String) (columns : List String)
  /-- An attempt without its deployment. -/
  | foreignKey
  deriving DecidableEq, Repr, Inhabited

namespace Constraint

def message : Constraint → String
  | notNull table column => "NOT NULL constraint failed: " ++ table ++ "." ++ column
  | unique table columns =>
    "UNIQUE constraint failed: " ++ ", ".intercalate (columns.map fun c => table ++ "." ++ c)
  | foreignKey => "FOREIGN KEY constraint failed"

end Constraint

/-- Why a cell is no value of the type asked for. -/
inductive CellFault where
  | wrongKind (kind : String) (index : Nat) (name : String)
  | outOfRange (n : Int) (index : Nat)
  deriving DecidableEq, Repr, Inhabited

namespace CellFault

def message : CellFault → String
  | wrongKind kind index name =>
    "Invalid column type " ++ kind ++ " at index: " ++ toString index ++ ", name: " ++ name
  | outOfRange n index => "Integer " ++ toString n ++ " out of range at index " ++ toString index

end CellFault

/-- What is wrong with a cell of a row. -/
inductive Corruption where
  | cell (fault : CellFault)
  | unknownStatus (text : String)
  | badTime (text : String)
  deriving DecidableEq, Repr, Inhabited

namespace Corruption

/-- The text of a corruption, without the reason why a time cannot be read. -/
def message : Corruption → String
  | cell fault => fault.message
  | unknownStatus text => "unknown variant: " ++ text
  | badTime text => "invalid timestamp " ++ Text.quote text

end Corruption

inductive StoreError where
  | broken (rule : Constraint)
  | unreadable (fault : CellFault)
  | notFound (what : String)
  | corrupt (table column : String) (what : Corruption)
  /-- The store does not take writes at the moment. -/
  | unavailable
  deriving DecidableEq, Repr, Inhabited

namespace StoreError

def kind : StoreError → String
  | broken _ | unreadable _ | unavailable => "database"
  | notFound _ => "not_found"
  | corrupt .. => "corrupt_row"

def message : StoreError → String
  | broken rule => "database error: " ++ rule.message
  | unreadable fault => "database error: " ++ fault.message
  | unavailable => "database error: the store is not available"
  | notFound what => "not found: " ++ what
  | corrupt table column what => "corrupt row in " ++ table ++ "." ++ column ++ ": " ++ what.message

end StoreError

/-! ### Reading cells -/

/-- A cell in the place of a column of a query. -/
structure Place where
  index : Nat
  name : String

namespace Place

variable (p : Place)

def wrong (c : Cell) : CellFault := .wrongKind c.kind p.index p.name

def text : Cell → Except CellFault String
  | .text s => .ok s
  | c => .error (p.wrong c)

def text? : Cell → Except CellFault (Option String)
  | .null => .ok none
  | c => (p.text c).map some

def integer : Cell → Except CellFault Int
  | .integer n => .ok n
  | c => .error (p.wrong c)

def uint32 (c : Cell) : Except CellFault UInt32 :=
  match p.integer c with
  | .error e => .error e
  | .ok n =>
    if 0 ≤ n ∧ n < UInt32.size then .ok (UInt32.ofNat n.toNat)
    else .error (.outOfRange n p.index)

end Place

/-- The tables. -/
structure Tables where
  states : List StateRow := []
  deployments : List DeploymentRow := []
  attempts : List AttemptRow := []
  deriving DecidableEq, Repr, Inhabited

end PreviewDeploy.Store

namespace PreviewDeploy

/-- A store: its tables, and the version of their layout. -/
structure Store where
  tables : Store.Tables := {}
  versions : List Nat := [1]
  deriving DecidableEq, Repr, Inhabited

namespace Store

/-- The version of the layout. -/
def layout : Nat := 1

/-- The store of a file that is opened again: tables that are there stay as they are, and the
version is entered only where there is none. -/
def reopen (s : Store) : Store :=
  if s.versions.isEmpty then { s with versions := [layout] } else s

end Store

end PreviewDeploy
