import PreviewDeploy.Proofs.SettingsLayers

/-!
# Saved settings

Settings that are written to the settings file are read back from it, except that a store without a
place is given the default place: a null says nothing, so no file can take a default away
(`Settings.load_of_said`).
-/

namespace PreviewDeploy

open Json (Tree)
open Json.Record (tree)

/-! ### One field -/

namespace FieldKind

theorem depth_write (k : FieldKind) (value : k.Value) : (k.write value).depth ≤ 1 := by
  cases k with
  | textOrNull => cases value <;> exact Nat.zero_le 1
  | texts =>
      have hdepth (texts : List String) : Tree.itemsDepth (texts.map Tree.ofString) = 0 := by
        induction texts with
        | nil => rfl
        | cons _ _ ih => simp [Tree.itemsDepth, Tree.ofString, Tree.depth, ih]
      exact Nat.le_of_eq (congrArg (· + 1) (hdepth value))
  | vars =>
      have hdepth (entries : List (String × String)) : Tree.membersDepth
          ((entries.map fun e => (e.1, Tree.ofString e.2)).map fun m => (some m.1, m.2)) = 0 := by
        induction entries with
        | nil => rfl
        | cons _ _ ih => simpa [Tree.membersDepth, Tree.ofString, Tree.depth] using ih
      exact Nat.le_of_eq (congrArg (· + 1) (hdepth value.entries))
  | _ => exact Nat.zero_le 1

/-- What is read back of a value that was written over a default: a null leaves the default. -/
def kept : (k : FieldKind) → k.Value → k.Value → k.Value
  | textOrNull, std, value => Option.or value std
  | _, _, value => value

theorem fromFile_of_write {k : FieldKind} {std value : k.Value} {u : Json} (hk : k ≠ vars)
    (hu : (k.write value).toJson = some u) :
    k.FromFile std ((some u).filter fun v => !v.isNull) (k.kept std value) := by
  have hlays : k.Lays std u value := (read_toTree_iff hk).mp (read_toTree hu)
  cases k with
  | vars => exact absurd rfl hk
  | textOrNull =>
      cases value <;>
      · cases hu
        rfl
  | texts =>
      obtain ⟨vs, -, rfl⟩ := Option.map_eq_some_iff.mp hu
      exact hlays
  | _ =>
      cases hu
      exact hlays

/-- Variables are read back where none are set by default. -/
theorem fromFile_of_vars {value : Vars} {u : Json} (hu : value.toTree.toJson = some u) :
    FieldKind.vars.FromFile Vars.empty ((some u).filter fun v => !v.isNull) value := by
  obtain ⟨ms, rfl, -, hms⟩ := Vars.lookup_of_toJson hu
  refine ⟨ms, rfl, fun name => ?_⟩
  have hnone : Vars.get? Vars.empty name = none := rfl
  rw [Json.said?, hms name, hnone]
  cases value.get? name <;> rfl

end FieldKind

namespace Settings

/-! ### The text of settings -/

/-- The text has the value that the settings are written as: its members may come in any order,
with blanks anywhere. -/
def IsSaidBy (s : Settings) (text : String) : Prop :=
  ∃ v, s.toTree.toJson = some v ∧ Json.parse text = some v

theorem depth_record_le {members : List (String × Tree)} {n : Nat}
    (h : ∀ m ∈ members, m.2.depth ≤ n) : (tree members).depth ≤ n + 1 := by
  suffices hle : Tree.membersDepth (members.map fun m => (some m.1, m.2)) ≤ n from
    Nat.succ_le_succ hle
  induction members with
  | nil => exact Nat.zero_le n
  | cons m members ih =>
      obtain ⟨hm, h⟩ := List.forall_mem_cons.mp h
      exact Nat.max_le.mpr ⟨hm, ih h⟩

theorem depth_toTree (s : Settings) : s.toTree.depth ≤ 3 := by
  have depth (f : Field) : (f.kind.write (f.get s)).depth ≤ 1 := f.kind.depth_write _
  have h₁ : s.controlPlane.toTree.depth ≤ 2 := depth_record_le (by
    simp only [List.forall_mem_cons]
    exact ⟨depth .baseUrl, depth .apiKey, depth .requestTimeoutMs, by simp⟩)
  have h₂ : s.template.toTree.depth ≤ 2 := depth_record_le (by
    simp only [List.forall_mem_cons]
    exact ⟨depth .name, depth .projectName, depth .initCommand, depth .readOnly,
      depth .requiresProxy, depth .proxyUrl, depth .proxySecret, depth .proxyTokenTtlSecs,
      depth .envVars, depth .setupCommands, by simp⟩)
  have h₃ : s.telemetry.toTree.depth ≤ 2 := depth_record_le (by
    simp only [List.forall_mem_cons]
    exact ⟨depth .level, depth .json, by simp⟩)
  have h₄ : s.store.toTree.depth ≤ 2 := depth_record_le (by
    simp only [List.forall_mem_cons]
    exact ⟨depth .path, by simp⟩)
  refine depth_record_le ?_
  simp only [List.forall_mem_cons]
  exact ⟨h₁, h₂, h₃, h₄, by simp⟩

theorem isSaidBy_text (s : Settings) : s.IsSaidBy s.toTree.text := by
  obtain ⟨v, hv⟩ := Tree.exists_toJson _ (Field.isPlain_toTree s)
  refine ⟨v, hv, ?_⟩
  rw [Json.parse, Tree.parse_text (Field.isPlain_toTree s), Option.bind_some, Tree.toBoundedJson,
    if_pos (Nat.le_trans s.depth_toTree (by decide)), hv]

/-! ### Loading -/

theorem override_of_unset {env : Environment} (h : ∀ name ∈ knownVariables, env name = none)
    (s : Settings) : s.override env = s := by
  refine Field.ext_get fun f => ?_
  have hset : f.set? env = none := by
    unfold Field.set?
    cases hv : f.variableName? with
    | none => rfl
    | some name =>
        have hknown : name ∈ knownVariables := by
          cases f <;> cases hv <;> decide
        simp [Environment.value?, Environment.text?, h name hknown]
  rw [Field.get_override, hset, Option.getD_none]

/-- Settings with the default place for the store if they have none. -/
def placed (home : Option String) (s : Settings) : Settings :=
  { s with store := ⟨s.store.path.or (standard home).store.path⟩ }

theorem get_placed (home : Option String) (s : Settings) {f : Field} (hf : f ≠ .envVars) :
    f.get (s.placed home) = f.kind.kept (f.get (standard home)) (f.get s) := by
  cases f with
  | envVars => exact absurd rfl hf
  | apiKey | initCommand | proxyUrl | proxySecret => exact (Option.or_none).symm
  | _ => rfl

/-- Over the defaults, the text of settings says them with a place for the store. -/
theorem ofText_of_said (home : Option String) {s : Settings} {text : String} (h : s.IsSaidBy text) :
    ofText home text = some (s.placed home) := by
  obtain ⟨v, hv, hparse⟩ := h
  obtain ⟨members, rfl, hmembers, hfields⟩ := Field.lookup_of_toJson hv
  have hgrouped : IsGrouped members := by
    intro group hgroup v hv
    obtain ⟨ms, hms, -⟩ := hmembers.2 group hgroup
    exact .inr ⟨ms, Option.some.inj (hv.symm.trans hms)⟩
  rw [ofText_object_iff hparse hgrouped]
  intro f
  obtain ⟨u, hu, hlookup⟩ := hfields f
  have hsaid : f.said? members = (some u).filter fun v => !v.isNull := by
    rw [← hlookup]
    rfl
  rw [hsaid]
  -- Variables are laid over the default ones, of which there are none; all else is replaced or
  -- kept.
  by_cases hf : f = .envVars
  · subst hf
    exact FieldKind.fromFile_of_vars hu
  · rw [get_placed home s hf]
    exact FieldKind.fromFile_of_write (by cases f <;> first | exact absurd rfl hf | decide) hu

theorem load_said (home : Option String) {env : Environment} {s : Settings} {text : String}
    (hcheck : s.check = .ok ()) (henv : ∀ name ∈ knownVariables, env name = none)
    (h : s.IsSaidBy text) : load home env (.bytes (utf8 text)) = .ok (s.placed home) := by
  have hplaced : (s.placed home).check = .ok () := hcheck
  simp only [load, layered_of_text env (ofUtf8?_utf8 text), ofText_of_said home h,
    override_of_unset henv, hplaced]

theorem placed_eq_self_iff {home : Option String} {s : Settings} :
    s.placed home = s ↔ s.store.path.isSome := by
  obtain ⟨_, _, _, ⟨path⟩⟩ := s
  cases path <;> simp [placed, standard, StoreSettings.standard]

/-- Settings that can be run with are read back from any text that says them, unless their store has
no place: it gets the default place then. -/
theorem load_of_said {home : Option String} {env : Environment} {s : Settings}
    (hcheck : s.check = .ok ()) (henv : ∀ name ∈ knownVariables, env name = none) :
    s.IsSaidBy s.toTree.text ∧ ∀ text, s.IsSaidBy text →
      load home env (.bytes (utf8 text)) = .ok (s.placed home) ∧
      (load home env (.bytes (utf8 text)) = .ok s ↔ s.store.path.isSome) := by
  refine ⟨s.isSaidBy_text, fun text h => ?_⟩
  have hload := load_said home hcheck henv h
  exact ⟨hload, by rw [hload, Except.ok.injEq, placed_eq_self_iff]⟩

/-- Settings in which each kind of field differs from its default. -/
def customized : Settings where
  controlPlane := { baseUrl := "https://sandbox.example", apiKey := some "", requestTimeoutMs := 1 }
  template := { readOnly := [], requiresProxy := true, proxyUrl := some "https://proxy.example",
                proxySecret := some "s3cret", envVars := Vars.ofList [("B", "2"), ("A", "1")] }
  store := ⟨some "/var/shipyard.db"⟩

theorem load_of_said_of_customized :
    load (some "/home/u") (fun _ => none) (.bytes (utf8 customized.toTree.text)) =
      .ok customized := by
  obtain ⟨hsaid, hload⟩ :=
    @load_of_said (some "/home/u") (fun _ => none) customized (by decide) fun _ _ => rfl
  exact (hload _ hsaid).2.mpr rfl

/-- Not all settings are read back: a store without a place is given one. -/
theorem not_restored_of_said :
    ¬ ∀ (home : Option String) (env : Environment) (s : Settings) (text : String),
      s.check = .ok () → (∀ name ∈ knownVariables, env name = none) → s.IsSaidBy text →
      load home env (.bytes (utf8 text)) = .ok s := by
  intro h
  let s : Settings := { store := ⟨none⟩ }
  have henv : ∀ name ∈ knownVariables, (fun _ => none : Environment) name = none := fun _ _ => rfl
  have hloaded := load_said none (by decide) henv s.isSaidBy_text
  have hrestored := h none (fun _ => none) s _ (by decide) henv s.isSaidBy_text
  rw [hloaded, Except.ok.injEq, placed_eq_self_iff] at hrestored
  cases hrestored

end Settings

end PreviewDeploy
