import Mathlib.Data.List.TakeWhile
import PreviewDeploy.Proofs.Encodings
import PreviewDeploy.Proofs.SettingsFields
import PreviewDeploy.Settings.Load

/-!
# The layers of the settings

A file that holds an object, whose groups of fields are objects, sets the fields that it has a
value for that is not null; the other fields keep their defaults (`Settings.ofTree_merge_iff`).  The
environment is laid over that.  `Settings.load_of_object` says what each field is then, which
variable it depends on, and when the settings are refused.
-/

namespace PreviewDeploy

open Json (Tree said? within)
open Json.Record (tree)

/-! ### One field -/

namespace FieldKind

/-- What the JSON of a file makes of a default.  Variables are set one by one, and those that the
file says nothing of stay; any other value takes the place of the default. -/
def Lays : (k : FieldKind) → k.Value → Json → k.Value → Prop
  | text, _, above, value => above = .string value
  | textOrNull, _, above, value => above = .ofText? value
  | word, _, above, (value : UInt64) => above = .ofNat value.toNat
  | flag, _, above, value => above = .bool value
  | texts, _, above, (value : List String) => above = .array (value.map .string)
  | vars, std, above, value => ∃ entries, above = .object entries ∧ ∀ name,
      (Vars.get? value name).map Json.string =
        (said? name entries).or ((Vars.get? std name).map .string)

theorem bool?_toTree_eq_some_iff {above : Json} {b : Bool} :
    above.toTree.bool? = some b ↔ above = .bool b := by
  cases above <;> simp [Json.toTree, Tree.bool?]

theorem textOrNull_toTree_eq_some_iff {above : Json} {text : Option String} :
    above.toTree.nullable Tree.string? = some text ↔ above = .ofText? text := by
  cases above <;> cases text <;> simp [Json.toTree, Tree.nullable, Tree.string?, Json.ofText?]

theorem uint64?_toTree_eq_some_iff {above : Json} {n : UInt64} :
    above.toTree.uint64? = some n ↔ above = .ofNat n.toNat := by
  have hlt : n.toNat < UInt64.size := n.toNat_lt
  constructor
  · intro h
    cases above with
    | number m =>
        cases m with
        | integer k =>
            simp only [Json.toTree, Tree.uint64?, Tree.intBetween?, Option.map_eq_some_iff,
              Option.ite_none_right_eq_some, Option.some.injEq] at h
            obtain ⟨_, ⟨⟨hlow, hhigh⟩, rfl⟩, rfl⟩ := h
            rw [Json.ofNat, UInt64.toNat_ofNat_of_lt' (by omega), Int.toNat_of_nonneg hlow]
        | float x => cases h
    | _ => cases h
  · rintro rfl
    exact uint64?_ofUInt64 n

theorem texts_toTree_eq_some_iff {above : Json} {texts : List String} :
    above.toTree.list? Tree.string? = some texts ↔ above = .array (texts.map .string) := by
  have hitems (items : List Json) : (Json.itemsToTree items).mapM Tree.string? = some texts ↔
      items = texts.map .string := by
    induction items generalizing texts with
    | nil => cases texts <;> simp [Json.itemsToTree]
    | cons item items ih =>
        simp only [Json.itemsToTree, List.mapM_cons, Option.bind_eq_bind,
          Option.bind_eq_some_iff, Option.pure_def, Option.some.injEq,
          Json.string?_toTree_eq_some_iff]
        cases texts with
        | nil => simp
        | cons text texts => simp [ih]
  cases above with
  | array items => simp [Json.toTree, Tree.list?, hitems]
  | _ => constructor <;> intro h <;> cases h

/-- What is read from the JSON of a file takes the place of the default. -/
theorem read_toTree_iff {k : FieldKind} {std value : k.Value} {above : Json} (hk : k ≠ vars) :
    k.read above.toTree = some value ↔ k.Lays std above value := by
  cases k with
  | text => exact Json.string?_toTree_eq_some_iff
  | textOrNull => exact textOrNull_toTree_eq_some_iff
  | word => exact uint64?_toTree_eq_some_iff
  | flag => exact bool?_toTree_eq_some_iff
  | texts => exact texts_toTree_eq_some_iff
  | vars => exact absurd rfl hk

/-- The value of a field from its default and from what a file says of it. -/
def FromFile (k : FieldKind) (std : k.Value) : Option Json → k.Value → Prop
  | none, value => value = std
  | some above, value => k.Lays std above value

theorem ne_object_of_write {k : FieldKind} {value : k.Value} {u : Json} (hk : k ≠ vars)
    (hu : (k.write value).toJson = some u) (ms : List (String × Json)) : u ≠ .object ms := by
  rintro rfl
  cases k with
  | vars => exact hk rfl
  | textOrNull => cases value <;> cases hu
  | texts =>
      obtain ⟨_, -, h⟩ := Option.map_eq_some_iff.mp hu
      cases h
  | _ => cases hu

/-- Variables over variables. -/
theorem ofTree_merge_iff {std vars : Vars} {u above : Json} (hu : std.toTree.toJson = some u)
    (habove : above.Sorted) :
    Vars.ofTree (u.merge above).toTree = some vars ↔ FieldKind.vars.Lays std above vars := by
  obtain ⟨us, rfl, hkeys, hus⟩ := Vars.lookup_of_toJson hu
  cases above with
  | object entries =>
      have hlookup (name : String) : Json.lookup name (Json.mergeMembers us entries) =
          (said? name entries).or ((std.get? name).map .string) := by
        rw [Json.lookup_mergeMembers (Json.nodup_of_ascending habove.1), hus]
        cases std.get? name <;> cases said? name entries <;>
          simp [Option.merge, Json.merge_of_ne_object]
      rw [Json.merge, Vars.ofTree_eq_some_iff (Json.pairwise_keys_mergeMembers hkeys entries)]
      constructor
      · intro h
        exact ⟨entries, rfl, fun name => (h name).symm.trans (hlookup name)⟩
      · rintro ⟨_, heq, h⟩ name
        cases heq
        exact (hlookup name).trans (h name).symm
  | _ =>
      constructor
      · exact fun h => nomatch h
      · rintro ⟨_, heq, -⟩
        cases heq

theorem read_merge_iff {k : FieldKind} {std value : k.Value} {u above : Json}
    (hu : (k.write std).toJson = some u) (habove : above.Sorted) :
    k.read (u.merge above).toTree = some value ↔ k.Lays std above value := by
  by_cases hk : k = vars
  · subst hk
    exact ofTree_merge_iff hu habove
  · rw [Json.merge_of_ne_object (ne_object_of_write hk hu), read_toTree_iff hk]

/-- A field is read from its default with what a file says laid over it. -/
theorem read_merge?_iff {k : FieldKind} {std value : k.Value} {u : Json} {above : Option Json}
    (hu : (k.write std).toJson = some u) (habove : ∀ v ∈ above, v.Sorted) :
    k.read ((above.map u.merge).getD u).toTree = some value ↔ k.FromFile std above value := by
  cases above with
  | none =>
      rw [Option.map_none, Option.getD_none, read_toTree hu, FromFile, Option.some.injEq]
      exact eq_comm
  | some above => exact read_merge_iff hu (habove above rfl)

end FieldKind

/-! ### All fields -/

/-- What a file says of a field: the member at its place, unless that is null. -/
def Field.said? (file : List (String × Json)) (f : Field) : Option Json :=
  Json.said? f.key (within f.group file)

namespace Settings

/-- Each group of fields that a file has is an object, or null. -/
def IsGrouped (file : List (String × Json)) : Prop :=
  ∀ group ∈ fields, ∀ v, Json.lookup group file = some v → v = .null ∨ ∃ ms, v = .object ms

theorem lookup_mergeMembers {below file us : List (String × Json)} {group : String}
    (hfile : Json.Ordered file) (hbelow : Json.lookup group below = some (.object us))
    (hgroup : ∀ v, Json.lookup group file = some v → v = .null ∨ ∃ ms, v = .object ms) :
    Json.lookup group (Json.mergeMembers below file) =
      some (.object (Json.mergeMembers us (within group file))) := by
  rw [Json.lookup_mergeMembers hfile.nodup, hbelow, Json.said?, within]
  cases hmember : Json.lookup group file with
  | none => rfl
  | some v =>
      obtain rfl | ⟨ms, rfl⟩ := hgroup v hmember <;> rfl

/-- Settings are read from a file's object over the defaults field by field. -/
theorem ofTree_merge_iff {home : Option String} {below : Json} {file : List (String × Json)}
    {s : Settings} (hbelow : standardJson home = some below) (hfile : Json.Ordered file)
    (hgrouped : IsGrouped file) :
    ofTree home (below.merge (.object file)).toTree = some s ↔
      ∀ f : Field, f.kind.FromFile (f.get (standard home)) (f.said? file) (f.get s) := by
  obtain ⟨members, rfl, hmembers, hfields⟩ := Field.lookup_of_toJson hbelow
  -- The default of each field, which the defaults all have a place for: so the merged object has
  -- one too, and no field is absent when it is read.
  let u (f : Field) : Json := (Field.lookup members f).getD .null
  have hu (f : Field) : (f.kind.write (f.get (standard home))).toJson = some (u f) ∧
      Field.lookup members f = some (u f) := by
    obtain ⟨v, hv, hlookup⟩ := hfields f
    have huv : u f = v := by simp only [u, hlookup, Option.getD_some]
    exact ⟨huv ▸ hv, huv ▸ hlookup⟩
  have hmerged (group : String) (hgroup : group ∈ fields) :
      ∃ us, (us.map (·.1)).Pairwise (· < ·) ∧ within group members = us ∧
        Json.lookup group (Json.mergeMembers members file) =
          some (.object (Json.mergeMembers us (within group file))) := by
    obtain ⟨us, hus, hkeys⟩ := hmembers.2 group hgroup
    exact ⟨us, hkeys, by rw [within, hus],
      lookup_mergeMembers hfile hus (hgrouped group hgroup)⟩
  have hplace (f : Field) : Field.lookup (Json.mergeMembers members file) f =
      some (((f.said? file).map (u f).merge).getD (u f)) := by
    obtain ⟨us, -, hus, hlookup⟩ := hmerged f.group (by cases f <;> decide)
    have hf := (hu f).2
    rw [Field.lookup, hus] at hf
    rw [Field.lookup, within, hlookup, Json.lookup_mergeMembers (hfile.within _).nodup, hf,
      Field.said?]
    cases Json.said? f.key (within f.group file) <;> rfl
  rw [Json.merge, Field.ofTree_eq_some_iff ⟨?_, ?_⟩ hplace]
  · exact forall_congr' fun f =>
      FieldKind.read_merge?_iff (hu f).1 fun v hv => (hfile.within _).sorted_of_said? hv
  · exact Json.pairwise_keys_mergeMembers hmembers.1 file
  · intro group hgroup
    obtain ⟨us, hkeys, -, hlookup⟩ := hmerged group hgroup
    exact ⟨_, hlookup, Json.pairwise_keys_mergeMembers hkeys _⟩

end Settings

/-! ### Refused settings -/

namespace Text

theorem isEmpty_trim_iff {s : String} :
    (trim s).isEmpty ↔ ∀ c ∈ s.toList, isSpace c := by
  have hends : (∀ c ∈ skipSpace s.toList, isSpace c) ↔ ∀ c ∈ s.toList, isSpace c := by
    constructor
    · intro h c hc
      rw [← List.takeWhile_append_dropWhile (p := isSpace) (l := s.toList)] at hc
      rcases List.mem_append.mp hc with hc | hc
      · exact List.mem_takeWhile_imp hc
      · exact h c hc
    · exact fun h c hc => h c ((List.dropWhile_sublist _).subset hc)
  rw [String.isEmpty_iff, trim, ← hends]
  simp [skipSpace]

end Text

namespace Settings

/-- Settings that cannot be run with. -/
def Unfit (s : Settings) : Prop :=
  (∀ c ∈ s.controlPlane.baseUrl.toList, Text.isSpace c) ∨
    s.template.requiresProxy ∧ (s.template.proxyUrl = none ∨ s.template.proxySecret = none)

theorem check_cases (s : Settings) :
    (s.check = .ok () ∧ ¬ s.Unfit) ∨ ∃ flaw, s.check = .error flaw ∧ s.Unfit := by
  unfold check Unfit
  rw [← Text.isEmpty_trim_iff]
  cases (Text.trim s.controlPlane.baseUrl).isEmpty <;> cases s.template.requiresProxy <;>
    cases s.template.proxyUrl <;> cases s.template.proxySecret <;> simp

/-- Layered settings are returned unless they are unfit. -/
theorem load_of_layered {home : Option String} {env : Environment} {source : SettingsSource}
    {s : Settings} (h : layered home env source = .ok s) :
    (load home env source = .ok s ∧ ¬ s.Unfit) ∨
      ∃ flaw, load home env source = .error (.invalid flaw) ∧ s.Unfit := by
  unfold load
  rw [h]
  obtain ⟨hcheck, hfit⟩ | ⟨flaw, hcheck, hunfit⟩ := s.check_cases
  · exact .inl ⟨by simp [hcheck], hfit⟩
  · exact .inr ⟨flaw, by simp [hcheck], hunfit⟩

end Settings

/-! ### Loading -/

/-- The value of a field under the environment, over a file and over the defaults: its variable
sets it, or sets it to nothing, and the file or the default has it. -/
def Field.IsLayered (home : Option String) (env : Environment) (file : List (String × Json))
    (f : Field) (value : f.kind.Value) : Prop :=
  f.IsSet env value ∨ (∀ new, ¬ f.IsSet env new) ∧
    f.kind.FromFile (f.get (.standard home)) (f.said? file) value

namespace Settings

theorem ofText_object_iff {home : Option String} {text : String} {file : List (String × Json)}
    {s : Settings} (hfile : Json.parse text = some (.object file)) (hgrouped : IsGrouped file) :
    ofText home text = some s ↔
      ∀ f : Field, f.kind.FromFile (f.get (standard home)) (f.said? file) (f.get s) := by
  have hordered := Json.ordered_of_parse hfile
  obtain ⟨below, hbelow⟩ := Tree.exists_toJson _ (Field.isPlain_toTree (standard home))
  have hstandard : standardJson home = some below := hbelow
  rw [ofText, hstandard, hfile]
  exact ofTree_merge_iff hbelow hordered hgrouped

theorem layered_of_text {home : Option String} (env : Environment) {content : List UInt8}
    {text : String} (htext : ofUtf8? content = some text) :
    layered home env (.bytes content) =
      match ofText home text with
      | none => .error .json
      | some s => .ok (s.override env) := by
  rw [layered, ofSource]
  simp only [htext]
  cases ofText home text <;> rfl

/-- A file that holds an object with objects in it gives each field the value of its layers, unless
it cannot be read.  No variable has an effect on another field than its own.  The settings are
refused if they cannot be run with, and returned if they can. -/
theorem load_of_object {home : Option String} {env : Environment} {content : List UInt8}
    {text : String} {file : List (String × Json)} (htext : ofUtf8? content = some text)
    (hfile : Json.parse text = some (.object file)) (hgrouped : IsGrouped file)
    (hjson : load home env (.bytes content) ≠ .error .json) :
    ∃ s, layered home env (.bytes content) = .ok s ∧
      (∀ f : Field, f.IsLayered home env file (f.get s)) ∧
      ((∃ flaw, load home env (.bytes content) = .error (.invalid flaw)) ↔ s.Unfit) ∧
      (¬ s.Unfit → load home env (.bytes content) = .ok s) ∧
      (∀ s₀ : Settings, (s₀.override env).override env = s₀.override env) ∧
      ∀ name (env' : Environment), (∀ other ≠ name, env' other = env other) →
        ∃ s', layered home env' (.bytes content) = .ok s' ∧
          ∀ f : Field, f.get s' = f.get s ∨
            f.variableName? = some name ∧ ∀ g ≠ f, g.get s' = g.get s := by
  -- Whether the file can be read does not depend on the environment.
  obtain ⟨s₀, hs₀⟩ : ∃ s₀, ofText home text = some s₀ := by
    cases h : ofText home text with
    | some s₀ => exact ⟨s₀, rfl⟩
    | none => exact absurd (by rw [load, layered_of_text env htext, h]) hjson
  have hlayered (env : Environment) :
      layered home env (.bytes content) = .ok (s₀.override env) := by
    rw [layered_of_text env htext, hs₀]
  have hfields := (ofText_object_iff hfile hgrouped).mp hs₀
  refine ⟨s₀.override env, hlayered env, fun f => ?_, ?_, ?_, Field.override_override env, ?_⟩
  · unfold Field.IsLayered
    simp only [Field.get_override, ← Field.set?_eq_some_iff]
    cases f.set? env with
    | some new => exact .inl rfl
    | none => exact .inr ⟨nofun, hfields f⟩
  · obtain ⟨hload, hfit⟩ | ⟨flaw, hload, hunfit⟩ := load_of_layered (hlayered env)
    · simp [hload, hfit]
    · simp [hload, hunfit]
  · intro hfit
    obtain ⟨hload, -⟩ | ⟨flaw, -, hunfit⟩ := load_of_layered (hlayered env)
    · exact hload
    · exact absurd hunfit hfit
  · intro name env' hother
    refine ⟨s₀.override env', hlayered env', fun f => ?_⟩
    by_cases hf : f.variableName? = some name
    · refine .inr ⟨hf, fun g hne => Field.get_override_of_ne hother (fun hg => hne ?_) s₀⟩
      exact Field.eq_of_variableName? hg hf
    · exact .inl (Field.get_override_of_ne hother hf s₀)

/-! ### A file that is repaired -/

/-- A file with a blank address and no place for the store. -/
def blankFile : Tree :=
  tree [("sandbox", tree [("baseUrl", .ofString " "), ("apiKey", .null)]), ("store", .null)]

theorem parse_blankFile : Json.parse blankFile.text = some (.object
    [("sandbox", .object [("apiKey", .null), ("baseUrl", .string " ")]), ("store", .null)]) := by
  have hplain : blankFile.IsPlain :=
    ⟨rfl, ⟨rfl, rfl, rfl, trivial, trivial⟩, rfl, trivial, trivial⟩
  rw [Json.parse, Tree.parse_text hplain]
  rfl

theorem isGrouped_blankFile : IsGrouped
    [("sandbox", .object [("apiKey", .null), ("baseUrl", .string " ")]), ("store", .null)] := by
  intro group hgroup v hv
  simp only [fields, List.mem_cons, List.not_mem_nil, or_false] at hgroup
  rcases hgroup with rfl | rfl | rfl | rfl <;> cases hv
  · exact .inr ⟨_, rfl⟩
  · exact .inl rfl

/-- An environment with an address, a truth value and a time that is too short. -/
def addressed : Environment := fun name =>
  Json.lookup name [("SHIPYARD_SANDBOX_URL", "http://localhost:8787"),
    ("SHIPYARD_LOG_JSON", "Yes"), ("SHIPYARD_SANDBOX_TIMEOUT_MS", "5")]

theorem not_isSet_of_unset {env : Environment} {f : Field} {name : String} {new : f.kind.Value}
    (hname : f.variableName? = some name) (hunset : env name = none) : ¬ f.IsSet env new := by
  rintro ⟨name', text, hname', htext, -⟩
  obtain rfl := Option.some.inj (hname.symm.trans hname')
  rw [hunset] at htext
  cases htext

/-- The file is refused, unless the environment has an address; what else the environment has is
taken if it can be read. -/
theorem load_of_object_of_repair :
    load none (fun _ => none) (.bytes (utf8 blankFile.text)) = .error (.invalid .blankBaseUrl) ∧
      ∃ s, load none addressed (.bytes (utf8 blankFile.text)) = .ok s ∧
        s.controlPlane.baseUrl = "http://localhost:8787" ∧ s.telemetry.json = true ∧
        s.controlPlane.requestTimeoutMs = 45000 := by
  have htext : ofText none blankFile.text =
      some { standard none with controlPlane := { baseUrl := " " } } := by
    rw [ofText_object_iff parse_blankFile isGrouped_blankFile]
    intro f
    cases f <;> rfl
  have hlayered (env : Environment) : layered none env (.bytes (utf8 blankFile.text)) =
      .ok (override env { standard none with controlPlane := { baseUrl := " " } }) := by
    rw [layered_of_text env (ofUtf8?_utf8 _), htext]
  have hjson : load none addressed (.bytes (utf8 blankFile.text)) ≠ .error .json := by
    obtain ⟨hload, -⟩ | ⟨_, hload, -⟩ := load_of_layered (hlayered addressed) <;> simp [hload]
  obtain ⟨s, -, hfields, -, hload, -⟩ :=
    load_of_object (ofUtf8?_utf8 _) parse_blankFile isGrouped_blankFile hjson
  have hbaseUrl : s.controlPlane.baseUrl = "http://localhost:8787" := by
    rcases hfields .baseUrl with ⟨name, text, hname, htext, -, hsays⟩ | ⟨hunset, -⟩
    · cases hname
      cases htext
      exact hsays
    · exact absurd ⟨_, _, rfl, rfl, by decide, rfl⟩ (hunset "http://localhost:8787")
  have hjson : s.telemetry.json = true := by
    have hword : FieldKind.flag.Says "Yes" true := ⟨"yes", by decide, by decide +kernel⟩
    rcases hfields .json with ⟨name, text, hname, htext, -, hsays⟩ | ⟨hunset, -⟩
    · cases hname
      cases htext
      have hread := (FieldKind.ofText_eq_some_iff.mpr hsays).symm.trans
        (FieldKind.ofText_eq_some_iff.mpr hword)
      exact Option.some.inj hread
    · exact absurd ⟨_, _, rfl, rfl, by decide, hword⟩ (hunset true)
  have htimeout : s.controlPlane.requestTimeoutMs = 45000 := by
    rcases hfields .requestTimeoutMs with ⟨name, text, hname, htext, -, hsays⟩ | ⟨-, hdefault⟩
    · cases hname
      cases htext
      have hnone : FieldKind.word.ofText "5" = none := by decide +kernel
      cases hnone.symm.trans (FieldKind.ofText_eq_some_iff.mpr hsays)
    · exact hdefault
  have hproxy : s.template.requiresProxy = false := by
    rcases hfields .requiresProxy with hset | ⟨-, hdefault⟩
    · exact absurd hset (not_isSet_of_unset rfl rfl)
    · exact hdefault
  refine ⟨?_, s, hload ?_, hbaseUrl, hjson, htimeout⟩
  · rw [load, hlayered]
    rfl
  · rintro (hblank | ⟨hrequires, -⟩)
    · rw [hbaseUrl] at hblank
      exact absurd (hblank 'h' (by decide)) (by decide)
    · rw [hproxy] at hrequires
      cases hrequires

end Settings

end PreviewDeploy
