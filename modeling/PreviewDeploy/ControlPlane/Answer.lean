import PreviewDeploy.ControlPlane.Script

/-!
# Requests and their answers

What a client may ask of the control plane, whatever it asks for, and what it is told.
-/

namespace PreviewDeploy.ControlPlane

open Json (Tree)

/-- What the control plane tells. -/
inductive Answer where
  | status (a : InstanceStatus)
  | create (a : CreateResponse)
  | write (a : WriteResponse)
  | commands (a : CommandsResponse)
  | logs (a : InstanceLogs)
  | clear (a : ClearResponse)
  deriving DecidableEq, Repr

namespace Answer

def toTree : Answer → Tree
  | status a => a.toTree
  | create a => a.toTree
  | write a => a.toTree
  | commands a => a.toTree
  | logs a => a.toTree
  | clear a => a.toTree

/-- The answer to a request that a tree holds. -/
def ofTree (r : Request) (t : Tree) : Option Answer :=
  match r with
  | .status _ => (InstanceStatus.ofTree t).map .status
  | .create _ => (CreateResponse.ofTree t).map .create
  | .write .. => (WriteResponse.ofTree t).map .write
  | .commands .. => (CommandsResponse.ofTree t).map .commands
  | .logs .. => (InstanceLogs.ofTree t).map .logs
  | .clearErrors _ => (ClearResponse.ofTree t).map .clear

end Answer

/-- A reply with another kind of answer. -/
def Reply.map (f : α → β) (r : Reply α) : Reply β := ⟨r.delay, r.result.map f⟩

/-- Takes the reply to a request. -/
def Script.take (s : Script) (r : Request) : Reply Answer × Script :=
  let as {α : Type} (f : α → Answer) (p : Reply α × Script) : Reply Answer × Script :=
    (p.1.map f, p.2)
  match r with
  | .status inst => as .status (s.takeStatus inst)
  | .create _ => as .create s.takeCreate
  | .write _ files _ => as .write (s.takeWrite files)
  | .commands _ commands => as .commands (s.takeCommands commands)
  | .logs .. => as .logs s.takeLogs
  | .clearErrors _ => as .clear s.takeClear

end PreviewDeploy.ControlPlane
