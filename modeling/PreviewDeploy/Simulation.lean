import PreviewDeploy.Orchestrator.Run

/-!
# Simulation

Runs orchestrators on one processor with a simulated clock.  A task that is woken stands at the
end of a queue; when its turn comes it goes on as far as it can.  One caller may stand in front: it
goes on only when the queue is empty, but first of all when its own time has come.  The clock
moves only when no task can go on, and then to the next time that any of them waits for.
-/

namespace PreviewDeploy

/-- An orchestrator beside others in one world. -/
structure Part where
  identity : Identity
  self : Orchestrator
  deriving Inhabited

structure Simulation where
  world : World := {}
  parts : List Part := []

namespace Simulation

instance : Inhabited Simulation := ⟨{}⟩

/-- A task of one of the orchestrators. -/
abbrev TaskRef := Nat × Task

/-- The state of the n-th orchestrator. -/
def state? (n : Nat) (sim : Simulation) : Option State :=
  sim.parts[n]?.map fun p => { world := sim.world, identity := p.identity, self := p.self }

/-- Changes the state of the n-th orchestrator. -/
def modify (n : Nat) (f : State → State) (sim : Simulation) : Simulation :=
  match sim.state? n with
  | none => sim
  | some s =>
    let s := f s
    { world := s.world, parts := sim.parts.set n ⟨s.identity, s.self⟩ }

/-- Lets a task go on as far as it can, in at most `fuel` steps. -/
def poll (t : Task) : Nat → State → State
  | 0, s => s
  | fuel + 1, s =>
    match s.step t with
    | none => s
    | some s => poll t fuel s

/-- More steps than any run takes. -/
def manySteps : Nat := 1000000

def pollTask (r : TaskRef) (sim : Simulation) : Simulation :=
  sim.modify r.1 (poll r.2 manySteps)

/-- The task can go on. -/
def canStep (r : TaskRef) (sim : Simulation) : Bool :=
  ((sim.state? r.1).bind (·.step r.2)).isSome

/-- Lets tasks go on until each waits for its time; the task in front comes last. -/
def settleFor (front : Option TaskRef) : Nat → Simulation → Simulation
  | 0, sim => sim
  | fuel + 1, sim =>
    match sim.world.woken with
    | r :: rest =>
      let sim := { sim with world := { sim.world with woken := rest } }
      settleFor front fuel (if front = some r then sim else sim.pollTask r)
    | [] =>
      match front with
      | none => sim
      | some r => if sim.canStep r then settleFor front fuel (sim.pollTask r) else sim

def settle (front : Option TaskRef) (sim : Simulation) : Simulation :=
  sim.settleFor front manySteps

/-- The tasks of a kind that wait for a time, with that time. -/
def waiting (task : Nat → Task) (due? : α → Option Nat) (xs : List α) : List (Task × Nat) :=
  xs.zipIdx.filterMap fun (x, i) => (due? x).map fun d => (task i, d)

/-- The tasks of an orchestrator that wait for a time. -/
def deadlinesOf (o : Orchestrator) : List (Task × Nat) :=
  waiting .transaction Transaction.due? o.transactions ++ waiting .loop Loop.due? o.loops ++
    waiting .caller Caller.due? o.callers ++ waiting .watch Watch.due? o.monitor.watches

/-- All tasks that wait for a time. -/
def deadlines (sim : Simulation) : List (TaskRef × Nat) :=
  sim.parts.flatMap fun p => (deadlinesOf p.self).map fun (t, d) => ((p.self.number, t), d)

/-- The next time that a task waits for. -/
def nextDue (sim : Simulation) : Option Nat := (sim.deadlines.map (·.2)).min?

/-- Sets the clock, and wakes the tasks whose time has come. -/
def jump (front : Option TaskRef) (time : Nat) (sim : Simulation) : Simulation :=
  let due := (sim.deadlines.filter fun d => d.2 ≤ time).map (·.1)
  let others := due.filter fun r => front ≠ some r
  let world := others.foldl (fun w r => w.wake r.1 r.2) { sim.world with now := time }
  let sim := { sim with world }
  match front with
  | some r => if due.contains r then sim.pollTask r else sim
  | none => sim

/-- Lets time pass until something is done, or until a time, at most `fuel` jumps of the clock. -/
def runFor (front : Option TaskRef) (time : Option Nat) (done : Simulation → Bool) :
    Nat → Simulation → Simulation
  | 0, sim => sim
  | fuel + 1, sim =>
    if done sim || time = some sim.world.now then sim
    else
      let sim := sim.settle front
      if done sim then sim
      else
        match sim.nextDue, time with
        | none, none => sim
        | none, some t => sim.jump front t
        | some d, none => runFor front time done fuel (sim.jump front d)
        | some d, some t =>
          if t ≤ d then sim.jump front t else runFor front time done fuel (sim.jump front d)

def run (front : Option TaskRef) (time : Option Nat) (done : Simulation → Bool)
    (sim : Simulation) : Simulation :=
  sim.runFor front time done manySteps

/-- Lets a time in milliseconds pass. -/
def sleep (millis : Nat) (sim : Simulation) : Simulation :=
  (sim.run none (some (sim.world.now + millis)) fun _ => false).settle none

/-- The n-th caller of an orchestrator is done. -/
def callerDone (number n : Nat) (sim : Simulation) : Bool :=
  ((sim.state? number).bind fun s => s.self.callers[n]?.map (·.isDone)).getD true

/-- The n-th transaction of an orchestrator has ended. -/
def transactionDone (number n : Nat) (sim : Simulation) : Bool :=
  ((sim.state? number).bind fun s =>
    s.self.transactions[n]?.map (·.result?.isSome)).getD true

/-- Waits for a caller. -/
def wait (number n : Nat) (sim : Simulation) : Simulation :=
  (sim.run none none (callerDone number n)).settle none

/-- Calls an orchestrator and waits for the answer, for a time if one is given. -/
def deploy (number : Nat) (request : Request) (patience : Option Nat) (sim : Simulation) :
    Simulation :=
  let n := ((sim.state? number).map (·.self.callers.length)).getD 0
  let front := (number, Task.caller n)
  let sim := (sim.modify number (·.addCaller request false)).pollTask front
  let limit := patience.map (sim.world.now + ·)
  let sim := sim.run (some front) limit (callerDone number n)
  let sim := if callerDone number n sim then sim else sim.modify number (·.abandon n)
  sim.settle none

/-- Calls an orchestrator beside everything else. -/
def spawn (number : Nat) (request : Request) (sim : Simulation) : Simulation :=
  (sim.modify number fun s =>
    (s.addCaller request false).wake (.caller s.self.callers.length)).settle none

/-- Starts transactions of an orchestrator, does something, and waits for their ends. -/
def execute (number : Nat) (requests : List Request) (meanwhile : Simulation → Simulation)
    (sim : Simulation) : Simulation :=
  let first := ((sim.state? number).map (·.self.transactions.length)).getD 0
  let sim := meanwhile (sim.modify number fun s => requests.foldl (fun s r => s.enqueue r) s)
  (sim.run none none fun sim =>
    (List.range requests.length).all fun n => sim.transactionDone number (first + n)).settle none

/-- Runs the setup commands of an orchestrator on an instance. -/
def runSetup (number : Nat) (inst : InstanceId) (sim : Simulation) : Simulation :=
  match sim.state? number with
  | none => sim
  | some s =>
    let (client, site) := s.connect
    let (reply, s) := { s with toSite := site }.beginSetup .direct client inst
    let sim := sim.modify number fun _ => s
    match reply with
    | none => sim
    | some r =>
      (sim.sleep (r.due - s.world.now)).modify number
        (·.mapWorld (State.reportSetup r.result))

/-- Adds an orchestrator whose identity is restored for a project, or new without one. -/
def add (project : Option String) (config : Config) (blueprint : Blueprint)
    (setup : List String) (sim : Simulation) : Simulation :=
  let s := State.start sim.parts.length project config blueprint setup sim.world
  { world := s.world, parts := sim.parts ++ [⟨s.identity, s.self⟩] }

end Simulation

end PreviewDeploy
