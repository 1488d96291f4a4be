import PreviewDeploy.World

/-!
# The identity of an orchestrator

The current session, the client that was built for it on first use, and the instance that is
known to belong to it.  Rotation replaces all three together, so that no client and no instance
outlives its session.  If the identity is stored under a project, each change is written through;
a failed write is logged and otherwise ignored.
-/

namespace PreviewDeploy

structure Identity where
  session : Session
  client : Option Client := none
  inst : Option Instance := none
  /-- The project under which the identity is stored. -/
  project : Option String := none
  deriving DecidableEq, Repr, Inhabited

/-- A world with an identity in it. -/
structure Site where
  world : World
  identity : Identity
  deriving Inhabited

namespace Identity

def sessionSaved (id : Identity) (w : World) : World :=
  match id.project with
  | none => w
  | some p =>
    w.persist "failed to persist session" fun s => .ok (s.saveSession p id.session w.time)

def instanceSaved (id : Identity) (w : World) : World :=
  match id.project with
  | none => w
  | some p => w.persist "failed to persist instance" fun s => s.saveInstance p id.inst w.time

/-- An identity with a new session. -/
def start (project : Option String) (w : World) : Site :=
  let (session, w) := w.mintSession
  let id : Identity := { session, project }
  ⟨id.sessionSaved w, id⟩

/-- The identity that is stored for a project, or a new one if none can be read. -/
def restore (project : String) (w : World) : Site :=
  match w.store with
  | none => start (some project) w
  | some s =>
    match s.state project with
    | .ok (some stored) =>
      ⟨w, { session := stored.session, inst := stored.inst, project := some project }⟩
    | .ok none => start (some project) w
    | .error _ =>
      start (some project) (w.warn "failed to load deployment state, starting fresh")

end Identity

namespace Site

/-- The client of the current session, built if there is none yet. -/
def connect (s : Site) : Client × Site :=
  match s.identity.client with
  | some c => (c, s)
  | none =>
    let session := s.identity.session.id
    let c : Client := ⟨s.world.clients, session⟩
    (c, { world := { s.world with clients := s.world.clients + 1 }.note (.newClient session)
          identity := { s.identity with client := some c } })

/-- Replaces the session, and drops its client and its instance. -/
def rotate (s : Site) : Site :=
  let (session, w) := s.world.mintSession
  let id := { s.identity with session, client := none, inst := none }
  ⟨id.sessionSaved w, id⟩

/-- Records an instance if a session is still the current one, and says whether it is. -/
def setInstanceIf (session : SessionId) (inst : Instance) (s : Site) : Bool × Site :=
  if s.identity.session.id = session then
    let id := { s.identity with inst := some inst }
    (true, ⟨id.instanceSaved s.world, id⟩)
  else (false, s)

/-- Clears the known instance. -/
def dropInstance (s : Site) : Site :=
  let id := { s.identity with inst := none }
  ⟨id.instanceSaved s.world, id⟩

/-- Clears the known instance if it has a name, and says whether it has. -/
def clearInstanceIf (name : InstanceId) (s : Site) : Bool × Site :=
  match s.identity.inst with
  | some i => if i.id = name then (true, s.dropInstance) else (false, s)
  | none => (false, s)

/-- Clears the known instance, if there is one. -/
def clearInstance (s : Site) : Site :=
  if s.identity.inst.isSome then s.dropInstance else s

/-- A site with another world. -/
def mapWorld (f : World → World) (s : Site) : Site := { s with world := f s.world }

def emit (e : Event) (s : Site) : Site := s.mapWorld (·.emit s.identity.project e)

def warn (text : String) (s : Site) : Site := s.mapWorld (·.warn text)

end Site

end PreviewDeploy
