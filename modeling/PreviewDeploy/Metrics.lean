import PreviewDeploy.Json.Record

/-!
# Metrics

Counters of what deployments did, and the durations of the completed ones.  A snapshot shows the
counters as 64-bit words and sums the durations up in binary64: their number and sum, and the
duration at the places `⌊n/2⌋`, `⌊0.95 n⌋` and `⌊0.99 n⌋` of the sorted list, the product taken in
binary64 and the last place taken where the list is shorter.
-/

namespace PreviewDeploy

open Json (Tree Binary64)
open Json.Record (slots tree)

/-- A summary of the durations of completed deployments. -/
structure DurationSummary where
  count : UInt64 := 0
  sum : Binary64 := ⟨0⟩
  p50 : Binary64 := ⟨0⟩
  p95 : Binary64 := ⟨0⟩
  p99 : Binary64 := ⟨0⟩
  deriving DecidableEq, Repr, Inhabited

namespace DurationSummary

/-- The place of a quantile in a list of `count` values. -/
def place (count : Nat) (q : Float) : Nat :=
  min (count.toFloat * q).toUInt64.toNat (count - 1)

def ofMillis (durations : List UInt64) : DurationSummary :=
  let sorted := (durations.mergeSort fun a b => a ≤ b).map (·.toFloat)
  let at' (q : Float) : Binary64 := .ofFloat (sorted.getD (place sorted.length q) 0)
  { count := UInt64.ofNat sorted.length
    sum := .ofFloat (sorted.foldl (· + ·) 0)
    p50 := at' 0.5
    p95 := at' 0.95
    p99 := at' 0.99 }

def fields : List String := ["count", "sum", "p50", "p95", "p99"]

def ofTree (t : Tree) : Option DurationSummary :=
  match slots fields t with
  | some [count, sum, p50, p95, p99] => do
    let count ← count.required (·.uint64?)
    let sum ← sum.required (·.binary64?)
    let p50 ← p50.required (·.binary64?)
    let p95 ← p95.required (·.binary64?)
    let p99 ← p99.required (·.binary64?)
    pure { count, sum, p50, p95, p99 }
  | _ => none

def toTree (s : DurationSummary) : Tree :=
  tree [("count", .ofUInt64 s.count), ("sum", .ofBinary64 s.sum), ("p50", .ofBinary64 s.p50),
    ("p95", .ofBinary64 s.p95), ("p99", .ofBinary64 s.p99)]

instance : Json.Form DurationSummary := ⟨ofTree, toTree⟩

end DurationSummary

/-- What the counters show at one moment. -/
structure MetricsSnapshot where
  started : UInt64
  completed : UInt64
  timedOut : UInt64
  coalesced : UInt64
  attempts : UInt64
  attemptFailures : UInt64
  rotations : UInt64
  selfHeals : UInt64
  policyDrops : UInt64
  durations : DurationSummary
  deriving DecidableEq, Repr, Inhabited

namespace MetricsSnapshot

def fields : List String :=
  ["deployments_started", "deployments_completed", "deployments_timed_out", "coalesced_callers",
    "attempts", "attempt_failures", "session_rotations", "self_heals", "policy_drops",
    "deploy_duration_ms"]

def ofTree (t : Tree) : Option MetricsSnapshot :=
  match slots fields t with
  | some [started, completed, timedOut, coalesced, attempts, attemptFailures, rotations, selfHeals,
      policyDrops, durations] => do
    let started ← started.required (·.uint64?)
    let completed ← completed.required (·.uint64?)
    let timedOut ← timedOut.required (·.uint64?)
    let coalesced ← coalesced.required (·.uint64?)
    let attempts ← attempts.required (·.uint64?)
    let attemptFailures ← attemptFailures.required (·.uint64?)
    let rotations ← rotations.required (·.uint64?)
    let selfHeals ← selfHeals.required (·.uint64?)
    let policyDrops ← policyDrops.required (·.uint64?)
    let durations ← durations.required DurationSummary.ofTree
    pure { started, completed, timedOut, coalesced, attempts, attemptFailures, rotations,
           selfHeals, policyDrops, durations }
  | _ => none

def toTree (m : MetricsSnapshot) : Tree :=
  tree [("deployments_started", .ofUInt64 m.started),
    ("deployments_completed", .ofUInt64 m.completed),
    ("deployments_timed_out", .ofUInt64 m.timedOut), ("coalesced_callers", .ofUInt64 m.coalesced),
    ("attempts", .ofUInt64 m.attempts), ("attempt_failures", .ofUInt64 m.attemptFailures),
    ("session_rotations", .ofUInt64 m.rotations), ("self_heals", .ofUInt64 m.selfHeals),
    ("policy_drops", .ofUInt64 m.policyDrops), ("deploy_duration_ms", m.durations.toTree)]

instance : Json.Form MetricsSnapshot := ⟨ofTree, toTree⟩

end MetricsSnapshot

/-- The counters, and the durations of the completed deployments, the last one first. -/
structure Metrics where
  started : Nat := 0
  completed : Nat := 0
  timedOut : Nat := 0
  coalesced : Nat := 0
  attempts : Nat := 0
  attemptFailures : Nat := 0
  rotations : Nat := 0
  selfHeals : Nat := 0
  policyDrops : Nat := 0
  durations : List UInt64 := []
  deriving DecidableEq, Repr, Inhabited

/-- What is counted one by one. -/
inductive Counter where
  | started
  | timedOut
  | coalesced
  | attempt
  | attemptFailed
  | rotated
  | selfHeal
  deriving DecidableEq, Repr, Inhabited

namespace Metrics

/-- Counts one more. -/
def count (c : Counter) (m : Metrics) : Metrics :=
  match c with
  | .started => { m with started := m.started + 1 }
  | .timedOut => { m with timedOut := m.timedOut + 1 }
  | .coalesced => { m with coalesced := m.coalesced + 1 }
  | .attempt => { m with attempts := m.attempts + 1 }
  | .attemptFailed => { m with attemptFailures := m.attemptFailures + 1 }
  | .rotated => { m with rotations := m.rotations + 1 }
  | .selfHeal => { m with selfHeals := m.selfHeals + 1 }

/-- Counts files that were left out as read-only. -/
def drop (files : Nat) (m : Metrics) : Metrics := { m with policyDrops := m.policyDrops + files }

/-- Counts a deployment that was completed. -/
def complete (m : Metrics) (durationMs : UInt64) : Metrics :=
  { m with completed := m.completed + 1, durations := durationMs :: m.durations }

def snapshot (m : Metrics) : MetricsSnapshot where
  started := UInt64.ofNat m.started
  completed := UInt64.ofNat m.completed
  timedOut := UInt64.ofNat m.timedOut
  coalesced := UInt64.ofNat m.coalesced
  attempts := UInt64.ofNat m.attempts
  attemptFailures := UInt64.ofNat m.attemptFailures
  rotations := UInt64.ofNat m.rotations
  selfHeals := UInt64.ofNat m.selfHeals
  policyDrops := UInt64.ofNat m.policyDrops
  durations := if m.durations.isEmpty then {} else .ofMillis m.durations

end Metrics

end PreviewDeploy
