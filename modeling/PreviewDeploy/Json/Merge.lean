import PreviewDeploy.Json.Basic

/-!
# Merging JSON values

`merge` lays one value over another: objects are merged member by member, where a null member of
the upper one is skipped, and any other value replaces the one below.  `prune` removes the null
members of an object and of the objects that are members of it, at every depth.
-/

namespace PreviewDeploy.Json

mutual
/-- Lays the second value over the first. -/
def merge : Json → Json → Json
  | .object below, .object above => .object (mergeMembers below above)
  | _, above => above

/-- Lays members over the members of an object. -/
def mergeMembers (below : List (String × Json)) :
    List (String × Json) → List (String × Json)
  | [] => below
  | (key, value) :: rest =>
    if value.isNull then mergeMembers below rest
    else
      match lookup key below with
      | some under => mergeMembers (insert key (merge under value) below) rest
      | none => mergeMembers (insert key value below) rest
end

mutual
/-- Removes null members at every depth; arrays stay as they are. -/
def prune : Json → Json
  | .object members => .object (pruneMembers members)
  | v => v

/-- Removes the null members of an object and prunes the others. -/
def pruneMembers : List (String × Json) → List (String × Json)
  | [] => []
  | (key, value) :: rest =>
    if value.isNull then pruneMembers rest else (key, prune value) :: pruneMembers rest
end

end PreviewDeploy.Json
