import PreviewDeploy.Json.Basic

/-!
# Records in JSON

A record is written as an object with one member a field.  It is read from such an object, in
which unknown members are ignored and a repeated field is refused, or from an array that lists
the fields in their order and may end early but not run on.  `slots` finds what a tree holds for
each field; a field then says what an empty slot means: `Slot.required` refuses it,
`Slot.withDefault` takes a default for it, and `Slot.optional` takes an absent member for null
but refuses an array that has ended.
-/

namespace PreviewDeploy.Json

/-- What a tree holds for one field of a record. -/
inductive Slot where
  | given (t : Tree)
  /-- An object without the member. -/
  | absent
  /-- An array that ends before the field. -/
  | ended

namespace Record

/-- The trees of the members with a given key. -/
def membersAt (key : String) : List (Option String × Tree) → List Tree
  | [] => []
  | (k, t) :: rest => if k = some key then t :: membersAt key rest else membersAt key rest

/-- What an object holds for each field, unless a field is repeated. -/
def slotsOfMembers (members : List (Option String × Tree)) : List String → Option (List Slot)
  | [] => some []
  | key :: keys =>
    match membersAt key members with
    | [] => (slotsOfMembers members keys).map (.absent :: ·)
    | [t] => (slotsOfMembers members keys).map (.given t :: ·)
    | _ => none

/-- What an array holds for each field, unless it is too long. -/
def slotsOfItems : List String → List Tree → Option (List Slot)
  | [], [] => some []
  | [], _ :: _ => none
  | _ :: keys, [] => (slotsOfItems keys []).map (.ended :: ·)
  | _ :: keys, t :: rest => (slotsOfItems keys rest).map (.given t :: ·)

/-- What a tree holds for each of the named fields. -/
def slots (keys : List String) : Tree → Option (List Slot)
  | .object members =>
    if members.all (·.1.isSome) then slotsOfMembers members keys else none
  | .array items => slotsOfItems keys items
  | _ => none

/-- The object of a record. -/
def tree (members : List (String × Tree)) : Tree := .object (members.map fun m => (some m.1, m.2))

end Record

namespace Slot

variable {α : Type}

/-- A field without which there is no record. -/
def required (read : Tree → Option α) : Slot → Option α
  | .given t => read t
  | _ => none

/-- A field that has a default. -/
def withDefault (value : α) (read : Tree → Option α) : Slot → Option α
  | .given t => read t
  | _ => some value

end Slot

namespace Tree

variable {α : Type}

/-- Null, or a value. -/
def nullable (read : Tree → Option α) : Tree → Option (Option α)
  | .null => some none
  | t => (read t).map some

def bool? : Tree → Option Bool
  | .bool b => some b
  | _ => none

def string? : Tree → Option String
  | .string s => s
  | _ => none

def binary64? : Tree → Option Binary64
  | .number n => n.map Number.toBinary64
  | _ => none

/-- A whole number from `low` up to but not including `high`. -/
def intBetween? (low high : Int) : Tree → Option Int
  | .number (some (.integer n)) => if low ≤ n ∧ n < high then some n else none
  | _ => none

def uint32? (t : Tree) : Option UInt32 :=
  (t.intBetween? 0 UInt32.size).map fun n => UInt32.ofNat n.toNat

def uint64? (t : Tree) : Option UInt64 :=
  (t.intBetween? 0 UInt64.size).map fun n => UInt64.ofNat n.toNat

def int32? (t : Tree) : Option Int32 := (t.intBetween? (-int32Bound) int32Bound).map Int32.ofInt

def int64? (t : Tree) : Option Int64 := (t.intBetween? (-int64Bound) int64Bound).map Int64.ofInt

/-- An array of values of one kind. -/
def list? (read : Tree → Option α) : Tree → Option (List α)
  | .array items => items.mapM read
  | _ => none

def ofString (s : String) : Tree := .string (some s)

def ofString? : Option String → Tree
  | some s => ofString s
  | none => .null

def ofInt (n : Int) : Tree := .number (some (.integer n))

def ofNat (n : Nat) : Tree := ofInt n

def ofUInt32 (n : UInt32) : Tree := ofNat n.toNat

def ofUInt64 (n : UInt64) : Tree := ofNat n.toNat

def ofBinary64 (x : Binary64) : Tree := .number (some (.float x))

def ofList (write : α → Tree) (xs : List α) : Tree := .array (xs.map write)

end Tree

/-- A type with a form in JSON, from which it is read and in which it is written. -/
class Form (α : Type) where
  ofTree : Tree → Option α
  toTree : α → Tree

instance : Form Bool := ⟨Tree.bool?, Tree.bool⟩

instance : Form String := ⟨Tree.string?, Tree.ofString⟩

instance : Form UInt32 := ⟨Tree.uint32?, Tree.ofUInt32⟩

instance : Form UInt64 := ⟨Tree.uint64?, Tree.ofUInt64⟩

namespace Slot

variable {α : Type}

/-- A field that may be null or absent, but not cut off. -/
def optional (read : Tree → Option α) : Slot → Option (Option α)
  | .given t => t.nullable read
  | .absent => some none
  | .ended => none

/-- A field that may be null, absent or cut off. -/
def loose (read : Tree → Option α) : Slot → Option (Option α) :=
  withDefault none (Tree.nullable read)

end Slot

end PreviewDeploy.Json
