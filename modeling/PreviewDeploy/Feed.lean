/-!
# Feeds

A feed keeps the last of the items that were sent to it, and forgets the others.  A reader who
was there from the start learns how many were forgotten before they were read.
-/

namespace PreviewDeploy

/-- The least power of two that is no less than a number. -/
def powerAtLeast (n : Nat) : Nat :=
  if n ≤ 1 then 1 else Nat.pow 2 ((n - 1).log2 + 1)

/-- What a reader of a feed finds. -/
structure Feed (α : Type) where
  /-- How many items were forgotten. -/
  missed : Nat
  /-- The items that were kept, the first one first. -/
  kept : List α
  deriving DecidableEq, Repr

namespace Feed

/-- A feed with room for a number of items, rounded up to a power of two, after some were sent. -/
def ofSent (capacity : Nat) (sent : List α) : Feed α :=
  let missed := sent.length - powerAtLeast capacity
  ⟨missed, sent.drop missed⟩

end Feed

end PreviewDeploy
