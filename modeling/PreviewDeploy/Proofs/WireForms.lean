import PreviewDeploy.ControlPlane.Message
import PreviewDeploy.Event
import PreviewDeploy.History
import PreviewDeploy.Proofs.SavedSettings

/-!
# Forms on the wire

What is exchanged and kept as JSON is read back as it was written.  A record is read member by
member (`Json.Record.slots_tree`), so of each type there is to say that its reader takes from the
members what its writer put there; the text of a tree is read back in `Json.Tree.parse_text`, if the
tree is plain.  A map is written in no particular order: its members may come in any order
(`Vars.Order`).  An event is told from the others by the word in its member `type`, which is the
word that observers are told (`Event.tag_eq_kind`).
-/

namespace PreviewDeploy

open Json (Slot Tree)

namespace Json

variable {α : Type}

/-- The text of a tree is read as a value. -/
def ReadBack (read : Tree → Option α) (t : Tree) (value : α) : Prop :=
  (Tree.parse t.text).bind read = some value

/-- A reader and a writer between which nothing is lost. -/
structure Lawful (read : Tree → Option α) (write : α → Tree) : Prop where
  isPlain : ∀ value, (write value).IsPlain
  read_write : ∀ value, read (write value) = some value

theorem Lawful.readBack {read : Tree → Option α} {write : α → Tree} (h : Lawful read write)
    (value : α) : ReadBack read (write value) value := by
  rw [ReadBack, Tree.parse_text (h.isPlain value), Option.bind_some, h.read_write value]

/-! ### Lookup -/

section
variable {members others : List (String × α)}

theorem lookup_of_mem {m : String × α} (h : (members.map (·.1)).Nodup) (hm : m ∈ members) :
    lookup m.1 members = some m.2 := by
  induction members with
  | nil => cases hm
  | cons a members ih =>
      obtain ⟨hnew, h⟩ := List.nodup_cons.mp h
      rcases List.mem_cons.mp hm with rfl | hm
      · simp [lookup]
      · have hne : a.1 ≠ m.1 := by
          intro heq
          apply hnew
          simpa only [heq] using List.mem_map_of_mem (f := Prod.fst) hm
        rw [lookup, if_neg hne, ih h hm]

/-- With distinct keys, the order of the members does not matter. -/
theorem lookup_of_perm (hperm : others.Perm members) (h : (members.map (·.1)).Nodup)
    (key : String) : lookup key others = lookup key members := by
  have hothers : (others.map (·.1)).Nodup := (hperm.map (·.1)).nodup_iff.mpr h
  cases hkey : lookup key others with
  | some v => exact (lookup_of_mem h (hperm.mem_iff.mp (mem_of_lookup hkey))).symm
  | none =>
      cases hkey' : lookup key members with
      | none => rfl
      | some v =>
          have hfound := lookup_of_mem hothers (hperm.mem_iff.mpr (mem_of_lookup hkey'))
          rw [hkey] at hfound
          cases hfound

end

/-! ### Single values -/

namespace Tree

@[simp] theorem bool?_bool (b : Bool) : (Tree.bool b).bool? = some b := rfl

@[simp] theorem string?_ofString (s : String) : (ofString s).string? = some s := rfl

@[simp] theorem nullable_ofString (s : String) :
    (ofString s).nullable string? = some (some s) := rfl

@[simp] theorem nullable_ofString? (s : Option String) :
    (ofString? s).nullable string? = some s := by
  cases s <;> rfl

@[simp] theorem uint32?_ofUInt32 (n : UInt32) : (ofUInt32 n).uint32? = some n := by
  have hlt : n.toNat < UInt32.size := n.toNat_lt
  simp only [uint32?, ofUInt32, ofNat, ofInt, intBetween?]
  rw [if_pos (by omega), Option.map_some, Int.toNat_natCast, UInt32.ofNat_toNat]

@[simp] theorem int32?_ofInt (n : Int32) : (ofInt n.toInt).int32? = some n := by
  have hlow : -int32Bound ≤ n.toInt := n.minValue_le_toInt
  have hhigh : n.toInt < int32Bound := n.toInt_lt
  simp only [int32?, ofInt, intBetween?]
  rw [if_pos ⟨hlow, hhigh⟩, Option.map_some, Int32.ofInt_toInt]

@[simp] theorem nullable_int32? (n : Option Int32) :
    ((n.map fun c => ofInt c.toInt).getD .null).nullable int32? = some n := by
  cases n with
  | none => rfl
  | some c =>
      have hread := int32?_ofInt c
      simpa [nullable, ofInt] using hread

/-! ### Plain trees -/

@[simp] theorem isPlain_bool (b : Bool) : (Tree.bool b).IsPlain := trivial

@[simp] theorem isPlain_ofString (s : String) : (ofString s).IsPlain := rfl

@[simp] theorem isPlain_ofString? (s : Option String) : (ofString? s).IsPlain := by
  cases s <;> trivial

@[simp] theorem isPlain_ofUInt64 (n : UInt64) : (ofUInt64 n).IsPlain :=
  FieldKind.isPlain_write .word n

@[simp] theorem isPlain_ofUInt32 (n : UInt32) : (ofUInt32 n).IsPlain :=
  have hlt : n.toNat < UInt32.size := n.toNat_lt
  have hbound : int64Bound = 9223372036854775808 := rfl
  have hsize : UInt32.size < UInt64.size := by decide
  ⟨by omega, by omega⟩

@[simp] theorem isPlain_int32 (n : Option Int32) :
    ((n.map fun c => ofInt c.toInt).getD .null).IsPlain := by
  cases n with
  | none => trivial
  | some c =>
      have hlow : -int32Bound ≤ c.toInt := c.minValue_le_toInt
      have hhigh : c.toInt < int32Bound := c.toInt_lt
      have hsmall : int32Bound = 2147483648 := rfl
      have hbound : int64Bound = 9223372036854775808 := rfl
      have hsize : UInt64.size = 18446744073709551616 := rfl
      exact ⟨by omega, by omega⟩

/-! ### Trees without containers -/

@[simp] theorem depth_bool (b : Bool) : (Tree.bool b).depth = 0 := rfl

@[simp] theorem depth_ofString (s : String) : (ofString s).depth = 0 := rfl

@[simp] theorem depth_ofString? (s : Option String) : (ofString? s).depth = 0 := by
  cases s <;> rfl

@[simp] theorem depth_ofUInt32 (n : UInt32) : (ofUInt32 n).depth = 0 := rfl

@[simp] theorem depth_ofUInt64 (n : UInt64) : (ofUInt64 n).depth = 0 := rfl

end Tree

theorem lawful_string : Lawful Tree.string? Tree.ofString :=
  ⟨Tree.isPlain_ofString, Tree.string?_ofString⟩

namespace Lawful

variable {read : Tree → Option α} {write : α → Tree}

theorem list?_ofList (h : Lawful read write) (xs : List α) :
    (Tree.ofList write xs).list? read = some xs := by
  have hitems : (xs.map write).mapM read = some xs := by
    induction xs with
    | nil => rfl
    | cons x xs ih => simp [h.read_write, ih]
  exact hitems

theorem isPlain_ofList (h : Lawful read write) (xs : List α) :
    (Tree.ofList write xs).IsPlain := by
  have hitems : Tree.ItemsPlain (xs.map write) := by
    induction xs with
    | nil => trivial
    | cons x xs ih => exact ⟨h.isPlain x, ih⟩
  exact hitems

end Lawful

/-! ### Records -/

namespace Slot

variable (read : Tree → Option α) (value : α) (t : Tree)

-- These are rewriting steps and not proved by `rfl`: to check a step by definition the kernel would
-- unfold the readers of numbers, down to the bounds of their words.

@[simp] theorem required_given : (given t).required read = read t := by
  simp only [required]

@[simp] theorem withDefault_given : (given t).withDefault value read = read t := by
  simp only [withDefault]

@[simp] theorem withDefault_absent : absent.withDefault value read = some value := by
  simp only [withDefault]

@[simp] theorem optional_given : (given t).optional read = t.nullable read := by
  simp only [optional]

@[simp] theorem loose_given : (given t).loose read = t.nullable read := by
  simp only [loose, withDefault]

@[simp] theorem loose_absent : absent.loose read = some none := by
  simp only [loose, withDefault]

end Slot

namespace Record

variable {members : List (String × Tree)}

@[simp] theorem isPlain_tree : (tree members).IsPlain ↔ ∀ m ∈ members, m.2.IsPlain := by
  have hmembers : Tree.MembersPlain (members.map fun m => (some m.1, m.2)) ↔
      ∀ m ∈ members, m.2.IsPlain := by
    induction members with
    | nil => simp [Tree.MembersPlain]
    | cons m members ih => simp [Tree.MembersPlain, ih]
  exact hmembers

theorem membersAt_tree {key : String} (h : (members.map (·.1)).Nodup) :
    membersAt key (members.map fun m => (some m.1, m.2)) = (lookup key members).toList := by
  induction members with
  | nil => rfl
  | cons m members ih =>
      obtain ⟨hnew, h⟩ := List.nodup_cons.mp h
      by_cases hk : m.1 = key
      · subst hk
        simp [membersAt, lookup, ih h, lookup_eq_none_iff.mpr hnew]
      · simp [membersAt, lookup, ih h, hk]

/-- The slot of a field in a record with the given members. -/
def slotIn (members : List (String × Tree)) (key : String) : Slot :=
  match lookup key members with
  | some t => .given t
  | none => .absent

theorem slots_tree (h : (members.map (·.1)).Nodup) (keys : List String) :
    slots keys (tree members) = some (keys.map (slotIn members)) := by
  have hall : (members.map fun m => (some m.1, m.2)).all (·.1.isSome) := by simp
  have hslots : slotsOfMembers (members.map fun m => (some m.1, m.2)) keys =
      some (keys.map (slotIn members)) := by
    induction keys with
    | nil => rfl
    | cons key keys ih =>
        rw [slotsOfMembers, membersAt_tree h, ih, List.map_cons, slotIn]
        cases lookup key members <;> rfl
  simp only [tree, slots, hall, if_true, hslots]

/-- A record that has all its fields, in their order, has them as its members. -/
theorem slots_tree_keys (h : (members.map (·.1)).Nodup) :
    slots (members.map (·.1)) (tree members) = some (members.map fun m => .given m.2) := by
  rw [slots_tree h, List.map_map]
  refine congrArg some (List.map_congr_left fun m hm => ?_)
  rw [Function.comp_apply, slotIn, lookup_of_mem h hm]

end Record

end Json

namespace Vars

variable {entries : List (String × String)} {vars : Vars}

theorem get?_ofList_of_nodup (h : (entries.map (·.1)).Nodup) (name : String) :
    (ofList entries).get? name = Json.lookup name entries := by
  have after (vars : Vars) : (entries.foldl (fun vars s => vars.set s.1 s.2) vars).get? name =
      (Json.lookup name entries).or (vars.get? name) := by
    induction entries generalizing vars with
    | nil => rfl
    | cons s entries ih =>
        obtain ⟨hnew, h⟩ := List.nodup_cons.mp h
        rw [List.foldl_cons, ih h, get?, set]
        by_cases hname : s.1 = name
        · subst hname
          rw [Json.lookup_insert, Json.lookup_eq_none_iff.mpr hnew]
          simp [Json.lookup]
        · rw [Json.lookup_insert_of_ne (Ne.symm hname)]
          simp [Json.lookup, hname, get?]
  rw [ofList, after]
  simp [get?, empty, Json.lookup]

/-- Settings of the variables in any order make up the variables. -/
theorem ofList_of_perm (h : entries.Perm vars.entries) : ofList entries = vars := by
  have hnodup := Json.nodup_of_ascending vars.ascending
  refine ext_entries (Json.ext_lookup (ofList entries).ascending vars.ascending fun name => ?_)
  have hget := get?_ofList_of_nodup ((h.map (·.1)).nodup_iff.mpr hnodup) name
  rw [get?] at hget
  rw [hget, Json.lookup_of_perm h hnodup]

/-- An order in which maps of variables may be written. -/
structure Order where
  entries : Vars → List (String × String)
  perm : ∀ vars, (entries vars).Perm vars.entries

/-- The order of the names. -/
def Order.ascending : Order := ⟨Vars.entries, fun _ => .refl _⟩

/-- Variables as they are written in some order. -/
def treeIn (order : Order) (vars : Vars) : Tree :=
  Json.Record.tree ((order.entries vars).map fun e => (e.1, .ofString e.2))

theorem lawful (order : Order) : Json.Lawful ofTree (treeIn order) where
  isPlain vars := by
    rw [treeIn, Json.Record.isPlain_tree, List.forall_mem_map]
    exact fun e _ => Tree.isPlain_ofString e.2
  read_write vars := by
    have hread (entries : List (String × String)) :
        ((entries.map fun e => (e.1, Tree.ofString e.2)).map fun m => (some m.1, m.2)).mapM
          (fun (m : Option String × Tree) => do
            let name ← m.1
            let value ← m.2.string?
            pure (name, value)) = some entries := by
      induction entries with
      | nil => rfl
      | cons e entries ih =>
          rw [List.map_cons, List.map_cons, List.mapM_cons, ih]
          rfl
    rw [treeIn, Json.Record.tree, ofTree, hread, Option.map_some, ofList_of_perm (order.perm vars)]

end Vars

/-! ### Identifiers -/

@[simp] theorem SessionId.ofTree_toTree (id : SessionId) : ofTree id.toTree = some id := rfl

@[simp] theorem DeploymentId.ofTree_toTree (id : DeploymentId) : ofTree id.toTree = some id := rfl

@[simp] theorem InstanceId.ofTree_toTree (id : InstanceId) : ofTree id.toTree = some id := rfl

@[simp] theorem SessionId.isPlain_toTree (id : SessionId) : id.toTree.IsPlain := rfl

@[simp] theorem DeploymentId.isPlain_toTree (id : DeploymentId) : id.toTree.IsPlain := rfl

@[simp] theorem InstanceId.isPlain_toTree (id : InstanceId) : id.toTree.IsPlain := rfl

@[simp] theorem SessionId.depth_toTree (id : SessionId) : id.toTree.depth = 0 := rfl

@[simp] theorem DeploymentId.depth_toTree (id : DeploymentId) : id.toTree.depth = 0 := rfl

@[simp] theorem InstanceId.depth_toTree (id : InstanceId) : id.toTree.depth = 0 := rfl

/-! ### Messages of the control plane -/

section Forms

open Json.Record

attribute [local simp] FieldKind.uint64?_ofUInt64

namespace ControlPlane

theorem InstanceStatus.lawful : Json.Lawful ofTree InstanceStatus.toTree where
  isPlain m := by simp [toTree]
  read_write m := by
    have hslots : slots fields m.toTree = some _ := slots_tree_keys (by simp)
    simp [ofTree, hslots]

theorem InstanceOptions.lawful : Json.Lawful ofTree InstanceOptions.toTree where
  isPlain m := by
    obtain ⟨_ | command, localDev⟩ := m <;> simp [toTree]
  read_write m := by
    obtain ⟨_ | command, localDev⟩ := m
    · have hslots : slots fields (toTree ⟨none, localDev⟩) = some _ := slots_tree (by simp) _
      rw [ofTree, hslots]
      simp [fields, slotIn, Json.lookup]
    · have hslots : slots fields (toTree ⟨some command, localDev⟩) = some _ :=
        slots_tree_keys (by simp)
      simp [ofTree, hslots]

/-- A request as it is written, with its variables in some order. -/
def CreateRequest.treeIn (order : Vars.Order) (m : CreateRequest) : Tree :=
  tree [("template", .ofString m.template), ("projectName", .ofString m.projectName),
    ("options", m.options.toTree), ("envVars", m.envVars.treeIn order)]

theorem CreateRequest.lawful (order : Vars.Order) : Json.Lawful ofTree (treeIn order) where
  isPlain m := by simp [treeIn, InstanceOptions.lawful.isPlain, (Vars.lawful order).isPlain]
  read_write m := by
    have hslots : slots fields (treeIn order m) = some _ := slots_tree_keys (by simp)
    simp [ofTree, hslots, InstanceOptions.lawful.read_write, (Vars.lawful order).read_write]

theorem CreateResponse.lawful : Json.Lawful ofTree CreateResponse.toTree where
  isPlain m := by simp [toTree]
  read_write m := by
    have hslots : slots fields m.toTree = some _ := slots_tree_keys (by simp)
    simp [ofTree, hslots]

theorem WriteResult.lawful : Json.Lawful ofTree WriteResult.toTree where
  isPlain m := by simp [toTree]
  read_write m := by
    have hslots : slots fields m.toTree = some _ := slots_tree_keys (by simp)
    simp [ofTree, hslots]

theorem WriteResponse.lawful : Json.Lawful ofTree WriteResponse.toTree where
  isPlain m := by simp [toTree, WriteResult.lawful.isPlain_ofList]
  read_write m := by
    have hslots : slots fields m.toTree = some _ := slots_tree_keys (by simp)
    simp [ofTree, hslots, WriteResult.lawful.list?_ofList]

theorem CommandResult.lawful : Json.Lawful ofTree CommandResult.toTree where
  isPlain m := by simp [toTree]
  read_write m := by
    have hslots : slots fields m.toTree = some _ := slots_tree_keys (by simp)
    simp [ofTree, hslots]

theorem CommandsResponse.lawful : Json.Lawful ofTree CommandsResponse.toTree where
  isPlain m := by simp [toTree, CommandResult.lawful.isPlain_ofList]
  read_write m := by
    have hslots : slots fields m.toTree = some _ := slots_tree_keys (by simp)
    simp [ofTree, hslots, CommandResult.lawful.list?_ofList]

theorem InstanceLogs.lawful : Json.Lawful ofTree InstanceLogs.toTree where
  isPlain m := by simp [toTree]
  read_write m := by
    have hslots : slots fields m.toTree = some _ := slots_tree_keys (by simp)
    simp [ofTree, hslots]

theorem ClearResponse.lawful : Json.Lawful ofTree ClearResponse.toTree where
  isPlain m := by simp [toTree]
  read_write m := by
    have hslots : slots fields m.toTree = some _ := slots_tree_keys (by simp)
    simp [ofTree, hslots]

end ControlPlane

/-! ### Files, instances and the history -/

theorem File.lawful : Json.Lawful ofTree File.toTree where
  isPlain f := by simp [toTree]
  read_write f := by
    have hslots : slots fields f.toTree = some _ := slots_tree_keys (by simp)
    simp [ofTree, hslots]

theorem Instance.lawful : Json.Lawful ofTree Instance.toTree where
  isPlain i := by simp [toTree]
  read_write i := by
    have hslots : slots fields i.toTree = some _ := slots_tree_keys (by simp)
    simp [ofTree, hslots]

theorem Outcome.lawful : Json.Lawful ofTree Outcome.toTree where
  isPlain o := by simp [toTree]
  read_write o := by
    have hslots : slots fields o.toTree = some _ := slots_tree_keys (by simp)
    simp [ofTree, hslots]

theorem DeploymentStatus.lawful : Json.Lawful ofTree DeploymentStatus.toTree where
  isPlain _ := rfl
  read_write s := by cases s <;> decide

theorem DeploymentRecord.lawful : Json.Lawful ofTree DeploymentRecord.toTree where
  isPlain r := by simp [toTree, DeploymentStatus.lawful.isPlain]
  read_write r := by
    have hslots : slots fields r.toTree = some _ := slots_tree_keys (by simp)
    simp [ofTree, hslots, DeploymentStatus.lawful.read_write]

theorem AttemptRecord.lawful : Json.Lawful ofTree AttemptRecord.toTree where
  isPlain r := by simp [toTree]
  read_write r := by
    have hslots : slots fields r.toTree = some _ := slots_tree_keys (by simp)
    simp [ofTree, hslots]

/-! ### Settings -/

theorem ControlPlaneSettings.lawful : Json.Lawful ofTree ControlPlaneSettings.toTree where
  isPlain s := by simp [toTree]
  read_write s := by
    have hslots : slots fields s.toTree = some _ := slots_tree_keys (by simp)
    simp [ofTree, hslots]

/-- The settings of a template as they are written, with the variables in some order. -/
def TemplateSettings.treeIn (order : Vars.Order) (s : TemplateSettings) : Tree :=
  tree [("name", .ofString s.name), ("projectName", .ofString s.projectName),
    ("initCommand", .ofString? s.initCommand), ("readOnlyPrefixes", .ofList .ofString s.readOnly),
    ("requiresAiProxy", .bool s.requiresProxy), ("aiProxyUrl", .ofString? s.proxyUrl),
    ("proxySecret", .ofString? s.proxySecret),
    ("proxyTokenTtlSecs", .ofUInt64 s.proxyTokenTtlSecs), ("envVars", s.envVars.treeIn order),
    ("setupCommands", .ofList .ofString s.setupCommands)]

theorem TemplateSettings.lawful (order : Vars.Order) : Json.Lawful ofTree (treeIn order) where
  isPlain s := by
    simp [treeIn, Json.lawful_string.isPlain_ofList, (Vars.lawful order).isPlain]
  read_write s := by
    have hslots : slots fields (treeIn order s) = some _ := slots_tree_keys (by simp)
    simp [ofTree, hslots, Json.lawful_string.list?_ofList, (Vars.lawful order).read_write]

theorem TelemetrySettings.lawful : Json.Lawful ofTree TelemetrySettings.toTree where
  isPlain s := by simp [toTree]
  read_write s := by
    have hslots : slots fields s.toTree = some _ := slots_tree_keys (by simp)
    simp [ofTree, hslots]

theorem StoreSettings.lawful (home : Option String) :
    Json.Lawful (ofTree home) StoreSettings.toTree where
  isPlain s := by simp [toTree]
  read_write s := by
    have hslots : slots fields s.toTree = some _ := slots_tree_keys (by simp)
    simp [ofTree, hslots]

/-- Settings as they are written, with the variables in some order. -/
def Settings.treeIn (order : Vars.Order) (s : Settings) : Tree :=
  tree [("sandbox", s.controlPlane.toTree), ("template", s.template.treeIn order),
    ("telemetry", s.telemetry.toTree), ("store", s.store.toTree)]

theorem Settings.lawful (home : Option String) (order : Vars.Order) :
    Json.Lawful (ofTree home) (treeIn order) where
  isPlain s := by
    simp [treeIn, ControlPlaneSettings.lawful.isPlain, (TemplateSettings.lawful order).isPlain,
      TelemetrySettings.lawful.isPlain, (StoreSettings.lawful home).isPlain]
  read_write s := by
    have hslots : slots fields (treeIn order s) = some _ := slots_tree_keys (by simp)
    simp [ofTree, hslots, ControlPlaneSettings.lawful.read_write,
      (TemplateSettings.lawful order).read_write, TelemetrySettings.lawful.read_write,
      (StoreSettings.lawful home).read_write]

/-! ### Events -/

namespace Event

/-- Events are written with the words that observers are told. -/
theorem tag_eq_kind (e : Event) : e.tag = e.kind := by
  cases e <;> rfl

/-- The members of an event beside its word are the fields that are read with this word. -/
theorem fieldsOf_tag (e : Event) : fieldsOf e.tag = some (e.members.map (·.1)) := by
  cases e <;> rfl

theorem nodup_members (e : Event) : (e.members.map (·.1)).Nodup := by
  cases e <;> simp [members]

theorem type_notMem_members (e : Event) : "type" ∉ e.members.map (·.1) := by
  cases e <;> simp [members]

theorem ofSlots_members (e : Event) :
    ofSlots e.tag (e.members.map fun m => .given m.2) = some e := by
  cases e <;> simp [ofSlots, tag, members, Json.lawful_string.list?_ofList]

theorem isPlain_toTree (e : Event) : e.toTree.IsPlain := by
  cases e <;> simp [toTree, members, Json.lawful_string.isPlain_ofList]

/-- No member of an event is nested deeper than a list of texts. -/
theorem depth_toTree (e : Event) : e.toTree.depth ≤ 2 := by
  refine Settings.depth_record_le (List.forall_mem_cons.mpr ⟨Nat.zero_le 1, ?_⟩)
  cases e with
  | started deployment session message files =>
      have hfiles : (Tree.ofList Tree.ofString files).depth ≤ 1 :=
        FieldKind.depth_write .texts files
      simpa [members] using hfiles
  | _ => simp [members]

/-- The word of an event is the only member `type` that it is written with. -/
theorem membersAt_type (e : Event) :
    membersAt "type" ((("type", .ofString e.tag) :: e.members).map fun m => (some m.1, m.2)) =
      [.ofString e.tag] := by
  have hnodup : ((("type", Tree.ofString e.tag) :: e.members).map (·.1)).Nodup :=
    List.nodup_cons.mpr ⟨e.type_notMem_members, e.nodup_members⟩
  rw [membersAt_tree hnodup]
  rfl

theorem split_toTree (e : Event) : split e.toTree = some (e.tag, tree e.members) := by
  have hothers : (e.members.map fun m => (some m.1, m.2)).filter (·.1 ≠ some "type") =
      e.members.map fun m => (some m.1, m.2) := by
    refine List.filter_eq_self.mpr (List.forall_mem_map.mpr fun m hm => ?_)
    have hne : m.1 ≠ "type" := by
      intro heq
      apply e.type_notMem_members
      simpa only [heq] using List.mem_map_of_mem (f := Prod.fst) hm
    simpa using hne
  rw [toTree, tree, split, membersAt_type, List.map_cons, List.filter_cons_of_neg (by simp),
    hothers]
  rfl

theorem lawful : Json.Lawful ofTree toTree where
  isPlain := isPlain_toTree
  read_write e := by
    obtain ⟨v, hv⟩ := Tree.exists_toJson _ e.isPlain_toTree
    have hvalue : e.toTree.toBoundedJson = some v := by
      rw [Tree.toBoundedJson, if_pos (Nat.le_trans e.depth_toTree (by decide)), hv]
    simp [ofTree, hvalue, split_toTree, fieldsOf_tag, slots_tree_keys e.nodup_members,
      ofSlots_members]

/-- The word of an event tells which of the seven kinds it is of. -/
theorem kind_eq_iff (e e' : Event) : e.kind = e'.kind ↔ e.ctorIdx = e'.ctorIdx := by
  cases e <;> cases e' <;> simp [kind, Event.ctorIdx]

end Event

end Forms

/-! ### Everything that is written -/

open ControlPlane
open Json (ReadBack)

/-- Every value that is exchanged or kept is read back from the text that it is written as: the
messages of the control plane, files, instances and outcomes, the records of the history, events,
and settings, wherever their home is.  The variables of a request and of settings may be written in
any order.  Of an event the text has the word that observers are told as the only member `type`, and
these words tell the kinds of events apart. -/
theorem reads_back_what_is_written :
    (∀ m : InstanceStatus, ReadBack InstanceStatus.ofTree m.toTree m) ∧
    (∀ m : InstanceOptions, ReadBack InstanceOptions.ofTree m.toTree m) ∧
    (∀ (order : Vars.Order) (m : CreateRequest),
      ReadBack CreateRequest.ofTree (m.treeIn order) m) ∧
    (∀ m : CreateRequest, m.toTree = m.treeIn .ascending) ∧
    (∀ m : CreateResponse, ReadBack CreateResponse.ofTree m.toTree m) ∧
    (∀ m : WriteResult, ReadBack WriteResult.ofTree m.toTree m) ∧
    (∀ m : WriteResponse, ReadBack WriteResponse.ofTree m.toTree m) ∧
    (∀ m : CommandResult, ReadBack CommandResult.ofTree m.toTree m) ∧
    (∀ m : CommandsResponse, ReadBack CommandsResponse.ofTree m.toTree m) ∧
    (∀ m : InstanceLogs, ReadBack InstanceLogs.ofTree m.toTree m) ∧
    (∀ m : ClearResponse, ReadBack ClearResponse.ofTree m.toTree m) ∧
    (∀ f : File, ReadBack File.ofTree f.toTree f) ∧
    (∀ i : Instance, ReadBack Instance.ofTree i.toTree i) ∧
    (∀ o : Outcome, ReadBack Outcome.ofTree o.toTree o) ∧
    (∀ s : DeploymentStatus, ReadBack DeploymentStatus.ofTree s.toTree s) ∧
    (∀ r : DeploymentRecord, ReadBack DeploymentRecord.ofTree r.toTree r) ∧
    (∀ r : AttemptRecord, ReadBack AttemptRecord.ofTree r.toTree r) ∧
    (∀ (home : Option String) (order : Vars.Order) (s : Settings),
      ReadBack (Settings.ofTree home) (s.treeIn order) s) ∧
    (∀ s : Settings, s.toTree = s.treeIn .ascending) ∧
    (∀ e : Event, ReadBack Event.ofTree e.toTree e ∧
      ∃ members, Tree.parse e.toTree.text = some (.object members) ∧
        Json.Record.membersAt "type" members = [.ofString e.kind]) ∧
    ∀ e e' : Event, e.kind = e'.kind ↔ e.ctorIdx = e'.ctorIdx :=
  ⟨InstanceStatus.lawful.readBack, InstanceOptions.lawful.readBack,
    fun order => (CreateRequest.lawful order).readBack, fun _ => rfl,
    CreateResponse.lawful.readBack, WriteResult.lawful.readBack, WriteResponse.lawful.readBack,
    CommandResult.lawful.readBack, CommandsResponse.lawful.readBack,
    InstanceLogs.lawful.readBack, ClearResponse.lawful.readBack, File.lawful.readBack,
    Instance.lawful.readBack, Outcome.lawful.readBack, DeploymentStatus.lawful.readBack,
    DeploymentRecord.lawful.readBack, AttemptRecord.lawful.readBack,
    fun home order => (Settings.lawful home order).readBack, fun _ => rfl,
    fun e => ⟨Event.lawful.readBack e, _, Tree.parse_text e.isPlain_toTree,
      e.tag_eq_kind ▸ e.membersAt_type⟩,
    Event.kind_eq_iff⟩

end PreviewDeploy
