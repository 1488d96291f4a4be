import PreviewDeploy.Failure

/-!
# Detached work

Work that goes on to its end whoever waits for it.  Somebody who waits with a limit gets its result
if it ends before the limit, and is told of the limit otherwise.
-/

namespace PreviewDeploy

/-- Work that takes a time in milliseconds; without a result it breaks off. -/
structure Detached (α : Type) where
  duration : Nat
  result : Option (Except Failure α)

namespace Detached

/-- The work ends before a limit. -/
def isWithin (limit : Duration) (d : Detached α) : Bool := d.duration < limit.ceilMillis

/-- How long one waits with a limit. -/
def waited (limit : Duration) (d : Detached α) : Nat :=
  if d.isWithin limit then d.duration else limit.ceilMillis

/-- What one gets who waits with a limit. -/
def awaited (limit : Duration) (d : Detached α) : Except Failure α :=
  if d.isWithin limit then d.result.getD (.error (.internal "attempt task failed: "))
  else .error (.attemptTimeout limit)

/-- When the work has ended, if it has by a time. -/
def endedBy? (time : Nat) (d : Detached α) : Option Nat :=
  if d.duration ≤ time then some d.duration else none

end Detached

end PreviewDeploy
