import PreviewDeploy.Json.Number

/-!
# JSON trees and JSON values

A `Tree` is what a JSON text says, member by member: repeated keys are kept, a number beyond
binary64 stays without a value, and so does a string that names half a surrogate pair.  A
`Json` is a value: its objects list their members by ascending key, each key once.  A tree
denotes a value (`Tree.toJson`) when all its numbers and strings do; of a repeated key the last
member counts.
-/

namespace PreviewDeploy.Json

/-- What a JSON text says. -/
inductive Tree where
  | null
  | bool (b : Bool)
  /-- `none` for a number beyond binary64. -/
  | number (n : Option Number)
  /-- `none` for a string with half a surrogate pair. -/
  | string (s : Option String)
  | array (items : List Tree)
  | object (members : List (Option String × Tree))
  deriving Inhabited

end PreviewDeploy.Json

namespace PreviewDeploy

open Json (Number Binary64)

/-- A JSON value. -/
inductive Json where
  | null
  | bool (b : Bool)
  | number (n : Number)
  | string (s : String)
  | array (items : List Json)
  | object (members : List (String × Json))
  deriving Inhabited

namespace Json

/-- The member of a key in a list of members. -/
def lookup (key : String) : List (String × α) → Option α
  | [] => none
  | (k, v) :: rest => if k = key then some v else lookup key rest

/-- Puts a member at its place in a list with ascending keys, in place of one with its key. -/
def insert (key : String) (value : α) : List (String × α) → List (String × α)
  | [] => [(key, value)]
  | (k, v) :: rest =>
    if key < k then (key, value) :: (k, v) :: rest
    else if key = k then (key, value) :: rest
    else (k, v) :: insert key value rest

/-- Removes the member of a key. -/
def erase (key : String) : List (String × α) → List (String × α)
  | [] => []
  | (k, v) :: rest => if k = key then rest else (k, v) :: erase key rest

/-- The object with the given members; of a repeated key the last one counts. -/
def ofMembers (members : List (String × Json)) : Json :=
  .object (members.foldl (fun o m => insert m.1 m.2 o) [])

/-- The member `key` of an object. -/
def get? (key : String) : Json → Option Json
  | .object members => lookup key members
  | _ => none

def isNull : Json → Bool
  | .null => true
  | _ => false

def ofNat (n : Nat) : Json := .number (.integer n)

def ofInt (n : Int) : Json := .number (.integer n)

/-- Null, or the text. -/
def ofText? : Option String → Json
  | none => .null
  | some s => .string s

mutual
/-- Every object of the value lists its members by strictly ascending key. -/
def Sorted : Json → Prop
  | .array items => ItemsSorted items
  | .object members => (members.map (·.1)).Pairwise (· < ·) ∧ MembersSorted members
  | _ => True

/-- `Sorted` for each item of an array. -/
def ItemsSorted : List Json → Prop
  | [] => True
  | v :: rest => Sorted v ∧ ItemsSorted rest

/-- `Sorted` for each member of an object. -/
def MembersSorted : List (String × Json) → Prop
  | [] => True
  | (_, v) :: rest => Sorted v ∧ MembersSorted rest
end

namespace Tree

mutual
/-- The number of containers on the deepest path into a tree. -/
def depth : Tree → Nat
  | .array items => itemsDepth items + 1
  | .object members => membersDepth members + 1
  | _ => 0

/-- The greatest depth of the items. -/
def itemsDepth : List Tree → Nat
  | [] => 0
  | t :: rest => max (depth t) (itemsDepth rest)

/-- The greatest depth of the members. -/
def membersDepth : List (Option String × Tree) → Nat
  | [] => 0
  | (_, t) :: rest => max (depth t) (membersDepth rest)
end

mutual
/-- The value of a tree, if each of its numbers and strings has one. -/
def toJson : Tree → Option Json
  | .null => some .null
  | .bool b => some (.bool b)
  | .number n => n.map .number
  | .string s => s.map .string
  | .array items => (itemsToJson items).map .array
  | .object members => (membersToJson [] members).map .object

/-- The values of the items of an array. -/
def itemsToJson : List Tree → Option (List Json)
  | [] => some []
  | t :: rest => do
    let v ← toJson t
    let vs ← itemsToJson rest
    pure (v :: vs)

/-- Adds the members of an object to those already read. -/
def membersToJson (done : List (String × Json)) :
    List (Option String × Tree) → Option (List (String × Json))
  | [] => some done
  | (key, t) :: rest => do
    let k ← key
    let v ← toJson t
    membersToJson (insert k v done) rest
end

end Tree

mutual
/-- The tree that says a value. -/
def toTree : Json → Tree
  | .null => .null
  | .bool b => .bool b
  | .number n => .number (some n)
  | .string s => .string (some s)
  | .array items => .array (itemsToTree items)
  | .object members => .object (membersToTree members)

/-- The trees of the items. -/
def itemsToTree : List Json → List Tree
  | [] => []
  | v :: rest => toTree v :: itemsToTree rest

/-- The trees of the members. -/
def membersToTree : List (String × Json) → List (Option String × Tree)
  | [] => []
  | (k, v) :: rest => (some k, toTree v) :: membersToTree rest
end

end Json

end PreviewDeploy
