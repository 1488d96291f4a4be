import PreviewDeploy.Orchestrator.Step

/-!
# Runs of an orchestrator

What can happen to an orchestrator is an `Action`: one of its tasks goes on, time passes, somebody
calls it or acts on it from outside, or the world around it changes.  A run is a list of actions,
each of which is possible when it happens (`State.follow`).  Tasks go on in any order, and time
may pass while some of them could go on; the runs of a `Simulation` are among these.
-/

namespace PreviewDeploy

open ControlPlane (Script)

inductive Action where
  /-- A task goes on by one step. -/
  | step (t : Task)
  | pass (millis : Nat)
  | call (request : Request)
  /-- A caller goes away. -/
  | abandon (caller : Nat)
  | queueSetup (commands : List String)
  | setDebugging (debugging : Bool)
  /-- Files are generated. -/
  | generate (files : List File)
  /-- The control plane is given more replies. -/
  | prepare (more : Script)
  | shutdown
  /-- The orchestrator is let go of. -/
  | release

namespace State

/-- An orchestrator at its start; with a project its identity is the stored one. -/
def start (number : Nat) (project : Option String) (config : Config) (blueprint : Blueprint)
    (setup : List String) (w : World) : State :=
  let site := match project with
    | some p => Identity.restore p w
    | none => Identity.start none w
  { toSite := site, self := .withConfig number config blueprint setup }

/-- What an action leads to, if it is possible. -/
def perform (a : Action) (s : State) : Option State :=
  match a with
  | .step t => s.step t
  | .pass millis => some (s.mapWorld fun w => { w with now := w.now + millis })
  | .call request => if s.self.held then some (s.addCaller request false) else none
  | .abandon caller => some (s.abandon caller)
  | .queueSetup commands => some (s.queueSetup commands)
  | .setDebugging debugging => some (s.setDebugging debugging)
  | .generate files => some (s.mapWorld (·.addGenerated files))
  | .prepare more => some (s.mapWorld (·.prepare more))
  | .shutdown => some s.shutdown
  | .release => some s.release

/-- What actions lead to, one after the other. -/
def follow : List Action → State → Option State
  | [], s => some s
  | a :: rest, s => (s.perform a).bind (follow rest)

end State

end PreviewDeploy
