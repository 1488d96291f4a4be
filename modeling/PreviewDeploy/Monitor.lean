import PreviewDeploy.Identity

/-!
# The health monitor

The monitor watches one instance at a time.  A watch asks for the status of its instance at every
tick; an answer that says unhealthy counts, one that says healthy starts the count anew, and one
that says nothing does neither.  When the count reaches the threshold, and nobody is debugging,
the watch ends, the monitor is no longer armed, and the instance is to be healed.  The count goes
on while somebody is debugging; it has 32 bits, and begins anew after the last of its values.

Arming the monitor for another instance, disarming it and closing it cancel the watch.  Each
watch is the n-th one; a monitor is armed with the number of its watch.
-/

namespace PreviewDeploy

open ControlPlane (Fault InstanceStatus)

/-- What a watch is doing. -/
inductive WatchStage where
  /-- Waiting for the tick that is due, with the number of unhealthy answers so far. -/
  | sleeping (due : Nat) (unhealthy : UInt32)
  /-- Asking for the status; the next tick is already set. -/
  | asking (next : Nat) (unhealthy : UInt32) (reply : Pending InstanceStatus)
  | stopped

structure Watch where
  inst : InstanceId
  cancelled : Bool
  stage : WatchStage

structure Monitor where
  period : Duration := .ofMillis 30000
  /-- Unhealthy answers in a row that make an instance unhealthy. -/
  threshold : UInt32 := 1
  watches : List Watch := []
  /-- The watch that counts. -/
  armed : Option Nat := none
  closed : Bool := false

namespace Monitor

instance : Inhabited Monitor := ⟨{}⟩

/-- Unhealthy answers that it takes; at least one. -/
def needed (m : Monitor) : UInt32 := max m.threshold 1

def isArmed (m : Monitor) : Bool := m.armed.isSome

/-- The instance that the monitor is armed for. -/
def instance? (m : Monitor) : Option InstanceId :=
  m.armed.bind fun n => m.watches[n]?.map (·.inst)

/-- Cancels the n-th watch. -/
def cancel (n : Nat) (m : Monitor) : Monitor :=
  { m with watches := m.watches.modify n fun w => { w with cancelled := true } }

/-- Takes the watch that counts away. -/
def disarm (m : Monitor) : Monitor :=
  match m.armed with
  | some n => { m.cancel n with armed := none }
  | none => m

/-- How a watch begins; without a period it cannot. -/
def firstStage (period : Duration) (now : Nat) : WatchStage :=
  if period.nanos = 0 then .stopped else .sleeping (now + period.ceilMillis) 0

/-- Arms the monitor for an instance, in place of the one before. -/
def arm (inst : InstanceId) (now : Nat) (m : Monitor) : Monitor :=
  let m := m.disarm
  { m with
    watches := m.watches ++ [⟨inst, m.closed, firstStage m.period now⟩]
    armed := some m.watches.length }

/-- Cancels all watches, those to come included; the monitor stays armed. -/
def close (m : Monitor) : Monitor :=
  { m with closed := true, watches := m.watches.map fun w => { w with cancelled := true } }

/-- Sets the stage of the n-th watch. -/
def setStage (n : Nat) (stage : WatchStage) (m : Monitor) : Monitor :=
  { m with watches := m.watches.modify n fun w => { w with stage } }

/-- The monitor is armed with the n-th watch. -/
def counts (n : Nat) (m : Monitor) : Bool := m.armed = some n

/-- The tick after one that was due and is late by more than five milliseconds is a whole period
from now. -/
def nextTick (due now : Nat) (m : Monitor) : Nat :=
  let period := m.period.ceilMillis
  if due + 5 < now then now + period else due + period

/-- Those who would heal an instance. -/
structure Healers where
  /-- Somebody is there to heal. -/
  present : Bool
  /-- Unhealthy instances are left alone for inspection. -/
  debugging : Bool

/-- A step of a watch: the site and the monitor after it, and whether to heal. -/
abbrev Outcome := Site × Monitor × Bool

/-- Asks for the status at a tick. -/
def tick (n : Nat) (w : Watch) (due : Nat) (unhealthy : UInt32) (s : Site) (m : Monitor) :
    Outcome :=
  let (client, s) := s.connect
  let (reply, world) := s.world.askStatus (.watch n) client w.inst
  ({ s with world }, m.setStage n (.asking (m.nextTick due s.world.now) unhealthy reply), false)

/-- Gives up the watch and asks for healing, if the watch counts. -/
def trigger (n : Nat) (w : Watch) (s : Site) (m : Monitor) : Outcome :=
  let m := m.setStage n .stopped
  if m.counts n then
    let s := (s.warn "instance unhealthy, redeploying").mapWorld (·.count .selfHeal)
    (s.emit (.selfHealTriggered w.inst), { m with armed := none }, true)
  else (s, m, false)

/-- Goes by the answer to a tick. -/
def answered (h : Healers) (n : Nat) (w : Watch) (next : Nat) (unhealthy : UInt32)
    (result : Except Fault InstanceStatus) (s : Site) (m : Monitor) : Outcome :=
  match result with
  | .error _ => (s.warn "health check failed", m.setStage n (.sleeping next unhealthy), false)
  | .ok status =>
    if !status.success then
      (s.warn "health check returned no status", m.setStage n (.sleeping next unhealthy), false)
    else if status.isHealthy then (s, m.setStage n (.sleeping next 0), false)
    else if unhealthy + 1 < m.needed then (s, m.setStage n (.sleeping next (unhealthy + 1)), false)
    else if !h.present then (s, m.setStage n .stopped, false)
    else if h.debugging then (s, m.setStage n (.sleeping next (unhealthy + 1)), false)
    else trigger n w s m

/-- One step of the n-th watch, if it can go on. -/
def step (h : Healers) (n : Nat) (s : Site) (m : Monitor) : Option Outcome :=
  match m.watches[n]? with
  | none => none
  | some w =>
    match w.stage with
    | .stopped => none
    | .sleeping due unhealthy =>
      if w.cancelled then some (s, m.setStage n .stopped, false)
      else if due ≤ s.world.now then some (tick n w due unhealthy s m)
      else none
    | .asking next unhealthy reply =>
      if reply.due ≤ s.world.now then some (answered h n w next unhealthy reply.result s m)
      else none

end Monitor

/-- When a watch goes on by itself. -/
def Watch.due? (w : Watch) : Option Nat :=
  match w.stage with
  | .stopped => none
  | .sleeping due _ => some due
  | .asking _ _ reply => some reply.due

end PreviewDeploy
