import PreviewDeploy.Json.Record

/-!
# Variables

Named texts, listed by ascending name with each name once: the environment variables of an
instance.  Setting a variable (`Vars.set`) takes the place of an earlier setting.
-/

namespace PreviewDeploy

open Json (Tree)

namespace Json

theorem mem_keys_insert {α : Type} {key k : String} {value : α} :
    ∀ {members : List (String × α)}, k ∈ (insert key value members).map (·.1) →
      k = key ∨ k ∈ members.map (·.1)
  | [], h => by simpa [insert] using h
  | (a, v) :: rest, h => by
    unfold insert at h
    split at h
    · simpa using h
    · split at h
      · simp only [List.map_cons, List.mem_cons] at h ⊢
        rcases h with h | h
        · exact .inl h
        · exact .inr (.inr h)
      · simp only [List.map_cons, List.mem_cons] at h ⊢
        rcases h with h | h
        · exact .inr (.inl h)
        · exact (mem_keys_insert h).imp id .inr

/-- Inserting keeps the keys in ascending order. -/
theorem pairwise_keys_insert {α : Type} {key : String} {value : α} :
    ∀ {members : List (String × α)}, (members.map (·.1)).Pairwise (· < ·) →
      ((insert key value members).map (·.1)).Pairwise (· < ·)
  | [], _ => by simp [insert]
  | (a, v) :: rest, h => by
    simp only [List.map_cons, List.pairwise_cons] at h
    unfold insert
    split
    · rename_i lt
      simp only [List.map_cons, List.pairwise_cons, List.mem_cons]
      refine ⟨fun k hk => ?_, h.1, h.2⟩
      rcases hk with rfl | hk
      · exact lt
      · exact String.lt_trans lt (h.1 k hk)
    · split
      · rename_i eq
        subst eq
        simpa using h
      · rename_i nlt ne
        simp only [List.map_cons, List.pairwise_cons]
        refine ⟨fun k hk => ?_, pairwise_keys_insert h.2⟩
        rcases mem_keys_insert hk with rfl | hk
        · exact Decidable.byContradiction fun n =>
            ne (String.le_antisymm (String.not_lt.mp n) (String.not_lt.mp nlt))
        · exact h.1 k hk

end Json

/-- Texts by ascending name. -/
structure Vars where
  entries : List (String × String) := []
  ascending : (entries.map (·.1)).Pairwise (· < ·) := by simp
  deriving DecidableEq, Repr

namespace Vars

instance : Inhabited Vars := ⟨{}⟩

def empty : Vars := {}

def get? (vars : Vars) (name : String) : Option String := Json.lookup name vars.entries

/-- Sets a variable. -/
def set (vars : Vars) (name value : String) : Vars :=
  ⟨Json.insert name value vars.entries, Json.pairwise_keys_insert vars.ascending⟩

/-- The variables of a list of settings; the last one of a name counts. -/
def ofList (settings : List (String × String)) : Vars :=
  settings.foldl (fun vars s => vars.set s.1 s.2) empty

/-- An object of texts. -/
def ofTree : Tree → Option Vars
  | .object members =>
    (members.mapM fun (m : Option String × Tree) => do
      let name ← m.1
      let value ← m.2.string?
      pure (name, value)).map ofList
  | _ => none

def toTree (vars : Vars) : Tree :=
  Json.Record.tree (vars.entries.map fun e => (e.1, .ofString e.2))

instance : Json.Form Vars := ⟨ofTree, toTree⟩

end Vars

end PreviewDeploy
