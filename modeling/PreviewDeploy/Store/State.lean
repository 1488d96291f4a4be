import PreviewDeploy.Session
import PreviewDeploy.Store.Basic

/-!
# The stored state of a project

The current session of a project and its instance.  A new session takes the instance away, since
no instance outlives the session that it belongs to.
-/

namespace PreviewDeploy.Store

structure StoredState where
  session : Session
  inst : Option Instance
  updatedAt : String
  deriving DecidableEq, Repr, Inhabited

namespace StateRow

def holds (project : String) (r : StateRow) : Bool := r.project = .text project

/-- A cell of a column as a value. -/
def read (column : String) (index : Nat) (as : Place → Cell → Except CellFault α) (c : Cell) :
    Except StoreError α :=
  (as ⟨index, column⟩ c).mapError fun e => .corrupt table column (.cell e)

/-- A text as a time. -/
def readTime (column text : String) : Except StoreError Timestamp :=
  match Timestamp.parse? text with
  | some t => .ok t
  | none => .error (.corrupt table column (.badTime text))

/-- The state that a row holds. -/
def toState (r : StateRow) : Except StoreError StoredState := do
  let sessionId ← read "session_id" 0 Place.text r.sessionId
  let created ← read "session_created_at" 1 Place.text r.createdAt
  let instanceId ← read "instance_id" 2 Place.text? r.instanceId
  let previewUrl ← read "preview_url" 3 Place.text? r.previewUrl
  let tunnelUrl ← read "tunnel_url" 4 Place.text? r.tunnelUrl
  let createdAt ← readTime "session_created_at" created
  let updatedAt ← read "updated_at" 5 Place.text r.updatedAt
  pure
    { session := ⟨⟨sessionId⟩, createdAt⟩
      inst := instanceId.map fun id => ⟨⟨id⟩, previewUrl, tunnelUrl⟩
      updatedAt }

/-- The row of a project with a new session. -/
def ofSession (project : String) (s : Session) (now : Timestamp) : StateRow where
  project := .text project
  sessionId := .text s.id.text
  createdAt := .text s.createdAt.text
  instanceId := .null
  previewUrl := .null
  tunnelUrl := .null
  updatedAt := .text now.text

/-- The row with another instance. -/
def withInstance (r : StateRow) (inst : Option Instance) (now : Timestamp) : StateRow :=
  { r with
    instanceId := .ofText? (inst.map (·.id.text))
    previewUrl := .ofText? (inst.bind (·.previewUrl))
    tunnelUrl := .ofText? (inst.bind (·.tunnelUrl))
    updatedAt := .text now.text }

end StateRow

end PreviewDeploy.Store

namespace PreviewDeploy.Store

/-- The stored state of a project, if there is one. -/
def state (s : Store) (project : String) : Except StoreError (Option StoredState) :=
  match s.tables.states.find? (·.holds project) with
  | none => .ok none
  | some r => r.toState.map some

/-- Stores a new session, without an instance. -/
def saveSession (s : Store) (project : String) (session : Session) (now : Timestamp) : Store :=
  let new := StateRow.ofSession project session now
  let rows := s.tables.states
  { s with tables := { s.tables with
      states :=
        if rows.any (·.holds project) then rows.map fun r => if r.holds project then new else r
        else rows ++ [new] } }

/-- Stores or removes the instance of the stored session. -/
def saveInstance (s : Store) (project : String) (inst : Option Instance) (now : Timestamp) :
    Except StoreError Store :=
  let rows := s.tables.states
  if rows.any (·.holds project) then
    .ok { s with tables := { s.tables with
      states := rows.map fun r => if r.holds project then r.withInstance inst now else r } }
  else .error (.notFound ("deployment state for " ++ project))

/-- Forgets the state of a project. -/
def deleteState (s : Store) (project : String) : Store :=
  { s with tables := { s.tables with states := s.tables.states.filter (!·.holds project) } }

end PreviewDeploy.Store
