import PreviewDeploy.Proofs.JsonMembers
import PreviewDeploy.Settings.Override

/-!
# The fields of the settings

Each field of the settings (`Field`) has a kind, which says what its values are, how they are read
and written in JSON, and how a variable's text is read; a place in the JSON of the settings; and
perhaps a variable.  The functions on settings are said field by field here: the tree of settings
(`Field.lookup_of_toJson`), reading (`Field.ofTree_eq_some_iff`) and the environment
(`Field.get_override`).

Which texts of a variable say a value (`FieldKind.Says`) is said without the readers of texts.
-/

namespace PreviewDeploy

open Json (Slot Tree)

/-- What the values of a field are. -/
inductive FieldKind where
  | text
  | textOrNull
  | word
  | flag
  | texts
  | vars
  deriving DecidableEq, Repr

namespace FieldKind

def Value : FieldKind → Type
  | text => String
  | textOrNull => Option String
  | word => UInt64
  | flag => Bool
  | texts => List String
  | vars => Vars

def read : (k : FieldKind) → Tree → Option k.Value
  | text => Tree.string?
  | textOrNull => Tree.nullable Tree.string?
  | word => Tree.uint64?
  | flag => Tree.bool?
  | texts => Tree.list? Tree.string?
  | vars => Vars.ofTree

def write : (k : FieldKind) → k.Value → Tree
  | text => Tree.ofString
  | textOrNull => Tree.ofString?
  | word => Tree.ofUInt64
  | flag => Tree.bool
  | texts => Tree.ofList Tree.ofString
  | vars => Vars.toTree

/-- Reads the text of a variable.  The one word that a variable sets is a time in milliseconds, from
one second to ten minutes. -/
def ofText : (k : FieldKind) → String → Option k.Value
  | text => some
  | textOrNull => fun text => some (some text)
  | word => readBetween? 1000 600000
  | flag => readBool?
  | texts | vars => fun _ => none

end FieldKind

/-! ### The texts of variables -/

/-- The words for a truth value, in lower case. -/
def boolWords : Bool → List String
  | true => ["true", "1", "yes", "on"]
  | false => ["false", "0", "no", "off"]

/-- A text is a word, whatever the case of its ASCII letters. -/
def IsWord (text word : String) : Prop := text.toList.map Char.toLower = word.toList

instance (text word : String) : Decidable (IsWord text word) := inferInstanceAs (Decidable (_ = _))

/-- A text has the decimal digits of a number, perhaps after a plus sign; zeros may precede them. -/
def Spells (text : String) (n : Nat) : Prop :=
  ∃ digits, (text.toList = digits ∨ text.toList = '+' :: digits) ∧ digits ≠ [] ∧
    (∀ c ∈ digits, c.isDigit) ∧ Nat.ofDigitChars 10 digits 0 = n

theorem asciiLower_eq_iff {text word : String} : asciiLower text = word ↔ IsWord text word := by
  rw [asciiLower, IsWord, ← String.toList_inj, String.toList_ofList]

/-- A truth value is read from its words only. -/
theorem readBool?_eq_some_iff {text : String} {b : Bool} :
    readBool? text = some b ↔ ∃ word ∈ boolWords b, IsWord text word := by
  have hread : readBool? text =
      if (boolWords true).contains (asciiLower text) then some true
      else if (boolWords false).contains (asciiLower text) then some false else none := rfl
  have hdisjoint : ∀ word ∈ boolWords true, word ∉ boolWords false := by decide
  have hmem : (∃ word ∈ boolWords b, IsWord text word) ↔ asciiLower text ∈ boolWords b := by
    simp only [← asciiLower_eq_iff, exists_eq_right']
  simp only [hmem, hread, List.contains_iff_mem]
  by_cases htrue : asciiLower text ∈ boolWords true
  · have hfalse := hdisjoint _ htrue
    cases b <;> simp [htrue, hfalse]
  · by_cases hfalse : asciiLower text ∈ boolWords false <;> cases b <;> simp [htrue, hfalse]

/-- The characters after a plus sign, or all of them. -/
def unsignedPart (cs : List Char) : List Char :=
  match cs with
  | '+' :: rest => rest
  | cs => cs

/-- A sign is no digit, so the digits of a text are what follows it, or the whole text. -/
theorem unsignedPart_eq_iff {cs digits : List Char} (hall : ∀ c ∈ digits, c.isDigit) :
    unsignedPart cs = digits ↔ cs = digits ∨ cs = '+' :: digits := by
  have hplus (rest : List Char) : '+' :: rest ≠ digits := by
    rintro rfl
    exact absurd (hall '+' (.head _)) (by decide)
  unfold unsignedPart
  split
  · rename_i rest
    simp [hplus rest]
  · rename_i hsign
    refine ⟨.inl, fun h => h.resolve_right fun h => hsign digits h⟩

theorem readUnsigned?_eq_some_iff {bound n : Nat} {text : String} :
    readUnsigned? bound text.toList = some n ↔ Spells text n ∧ n < bound := by
  have hvalue (digits : List Char) :
      digits.foldl (fun n c => n * 10 + (c.toNat - '0'.toNat)) 0 =
        Nat.ofDigitChars 10 digits 0 := by
    simp only [Nat.ofDigitChars, Nat.mul_comm 10]
  have hread : readUnsigned? bound text.toList =
      let digits := unsignedPart text.toList
      if digits.isEmpty || !digits.all Char.isDigit then none
      else if Nat.ofDigitChars 10 digits 0 < bound then some (Nat.ofDigitChars 10 digits 0)
      else none := by
    simp only [← hvalue]
    rfl
  rw [hread]
  constructor
  · intro h
    simp only [Option.ite_none_left_eq_some, Option.ite_none_right_eq_some, Option.some.injEq,
      Bool.or_eq_true, not_or, Bool.not_eq_true', Bool.not_eq_false, List.all_eq_true,
      List.isEmpty_iff] at h
    obtain ⟨⟨hne, hall⟩, hlt, rfl⟩ := h
    exact ⟨⟨_, (unsignedPart_eq_iff hall).mp rfl, hne, hall, rfl⟩, hlt⟩
  · rintro ⟨⟨digits, hsign, hne, hall, rfl⟩, hlt⟩
    have hempty : digits.isEmpty = false := by simpa using hne
    have hdigits : digits.all Char.isDigit = true := List.all_eq_true.mpr hall
    simp only [(unsignedPart_eq_iff hall).mpr hsign, hempty, hdigits, Bool.not_true,
      Bool.or_false, Bool.false_eq_true, if_false, if_pos hlt]

theorem readBetween?_eq_some_iff {low high n : UInt64} {text : String} :
    readBetween? low high text = some n ↔
      Spells text n.toNat ∧ low.toNat ≤ n.toNat ∧ n.toNat ≤ high.toNat := by
  have hread (k : Nat) : readUnsigned? UInt64.size text.toList = some k ↔ _ :=
    readUnsigned?_eq_some_iff
  unfold readBetween?
  constructor
  · intro h
    split at h
    · rename_i k hk
      obtain ⟨hspells, hlt⟩ := (hread k).mp hk
      simp only [Option.ite_none_right_eq_some, Option.some.injEq] at h
      obtain ⟨⟨hlow, hhigh⟩, rfl⟩ := h
      rw [UInt64.toNat_ofNat_of_lt' hlt]
      exact ⟨hspells, hlow, hhigh⟩
    · cases h
  · rintro ⟨hspells, hbounds⟩
    simp only [(hread n.toNat).mpr ⟨hspells, n.toNat_lt⟩, if_pos hbounds, UInt64.ofNat_toNat]

namespace FieldKind

/-- What the text of a variable says of its field.  The one number is a time in milliseconds, from
one second to ten minutes. -/
def Says : (k : FieldKind) → String → k.Value → Prop
  | text, s, value => value = s
  | textOrNull, s, value => value = some s
  | word, s, (value : UInt64) => Spells s value.toNat ∧ 1000 ≤ value.toNat ∧ value.toNat ≤ 600000
  | flag, s, value => ∃ word ∈ boolWords value, IsWord s word
  | texts, _, _ | vars, _, _ => False

theorem ofText_eq_some_iff {k : FieldKind} {s : String} {value : k.Value} :
    k.ofText s = some value ↔ k.Says s value := by
  cases k with
  | text => exact Option.some_inj.trans eq_comm
  | textOrNull => exact Option.some_inj.trans eq_comm
  | word => exact readBetween?_eq_some_iff
  | flag => exact readBool?_eq_some_iff
  | texts => exact ⟨nofun, False.elim⟩
  | vars => exact ⟨nofun, False.elim⟩

end FieldKind

/-! ### Texts in JSON -/

theorem Json.string?_toTree_eq_some_iff {v : Json} {text : String} :
    v.toTree.string? = some text ↔ v = .string text := by
  cases v <;> simp [Json.toTree, Tree.string?]

theorem Json.mapM_string?_of_toJson {texts : List String} {vs : List Json}
    (h : Tree.itemsToJson (texts.map Tree.ofString) = some vs) :
    (itemsToTree vs).mapM Tree.string? = some texts := by
  induction texts generalizing vs with
  | nil =>
      cases h
      rfl
  | cons text texts ih =>
      obtain ⟨rest, hrest, hpure⟩ := Option.bind_eq_some_iff.mp h
      cases hpure
      simp [itemsToTree, toTree, Tree.string?, ih hrest]

/-! ### Variables -/

namespace Vars

theorem ext_entries {a b : Vars} (h : a.entries = b.entries) : a = b := by
  cases a
  cases b
  cases h
  rfl

theorem entries_ofList {settings : List (String × String)}
    (h : (settings.map (·.1)).Pairwise (· < ·)) : (ofList settings).entries = settings := by
  have after (settings : List (String × String)) (vars : Vars)
      (h : (settings.map (·.1)).Pairwise (· < ·))
      (hvars : ∀ s ∈ settings, ∀ e ∈ vars.entries, e.1 < s.1) :
      (settings.foldl (fun vars s => vars.set s.1 s.2) vars).entries =
        vars.entries ++ settings := by
    induction settings generalizing vars with
    | nil => simp
    | cons s settings ih =>
        obtain ⟨hlt, h⟩ := List.pairwise_cons.mp h
        have hset : (vars.set s.1 s.2).entries = vars.entries ++ [s] :=
          Json.insert_of_forall_lt (hvars s (.head _))
        rw [List.foldl_cons, ih _ h, hset, List.append_assoc, List.singleton_append]
        intro s' hs' e he
        rcases List.mem_append.mp (hset ▸ he) with he | he
        · exact hvars s' (.tail _ hs') e he
        · obtain rfl := List.mem_singleton.mp he
          exact hlt s'.1 (List.mem_map_of_mem hs')
  exact after settings empty h (by simp [empty])

theorem mapM_membersToTree {members : List (String × Json)} {l : List (String × String)} :
    ((Json.membersToTree members).mapM fun (m : Option String × Tree) => do
      let name ← m.1
      let value ← m.2.string?
      pure (name, value)) = some l ↔ members = l.map fun e => (e.1, .string e.2) := by
  induction members generalizing l with
  | nil => cases l <;> simp [Json.membersToTree]
  | cons m members ih =>
      simp only [Json.membersToTree, List.mapM_cons, Option.bind_eq_bind, Option.bind_some,
        Option.bind_eq_some_iff, Option.pure_def, Option.some.injEq,
        Json.string?_toTree_eq_some_iff]
      constructor
      · rintro ⟨e, ⟨text, htext, rfl⟩, l, hl, rfl⟩
        rw [List.map_cons, ← ih.mp hl, ← htext]
      · intro h
        cases l with
        | nil => cases h
        | cons e l =>
            obtain ⟨rfl, hl⟩ := List.cons.inj h
            exact ⟨e, ⟨e.2, rfl, rfl⟩, l, ih.mpr hl, rfl⟩

/-- An object is read as variables if all its members are texts. -/
theorem ofTree_eq_some_iff {members : List (String × Json)}
    (h : (members.map (·.1)).Pairwise (· < ·)) {vars : Vars} :
    ofTree (Json.object members).toTree = some vars ↔
      ∀ name, Json.lookup name members = (vars.get? name).map .string := by
  constructor
  · intro hread name
    obtain ⟨l, hl, rfl⟩ := Option.map_eq_some_iff.mp hread
    obtain rfl := mapM_membersToTree.mp hl
    rw [get?, entries_ofList (by simpa [Function.comp_def] using h), Json.lookup_map]
  · intro hlookup
    have hkeys : ((vars.entries.map fun e => (e.1, Json.string e.2)).map (·.1)).Pairwise
        (· < ·) := by simpa [Function.comp_def] using vars.ascending
    have hmembers : members = vars.entries.map fun e => (e.1, .string e.2) :=
      Json.ext_lookup h hkeys fun name => by rw [hlookup, Json.lookup_map, get?]
    have hvars : ofList vars.entries = vars := ext_entries (entries_ofList vars.ascending)
    rw [Json.toTree, ofTree, mapM_membersToTree.mpr hmembers, Option.map_some, hvars]

theorem lookup_of_toJson {vars : Vars} {v : Json} (h : vars.toTree.toJson = some v) :
    ∃ ms, v = .object ms ∧ (ms.map (·.1)).Pairwise (· < ·) ∧
      ∀ name, Json.lookup name ms = (vars.get? name).map .string := by
  have hkeys : (vars.entries.map fun e => (e.1, Tree.ofString e.2)).map (·.1) =
      vars.entries.map (·.1) := by simp
  obtain ⟨ms, rfl, hms⟩ := Json.Record.lookup_of_toJson h
    (hkeys ▸ Json.nodup_of_ascending vars.ascending)
  refine ⟨ms, rfl, (Json.Ordered.of_toJson h).1, fun name => ?_⟩
  have hname := hms name
  rw [Json.lookup_map, Option.map_map] at hname
  rw [get?]
  cases hfound : Json.lookup name ms <;> cases hvalue : Json.lookup name vars.entries <;>
    simp_all [Tree.ofString, Tree.toJson]

theorem ofTree_of_toJson {vars : Vars} {v : Json} (h : vars.toTree.toJson = some v) :
    ofTree v.toTree = some vars := by
  obtain ⟨ms, rfl, hkeys, hms⟩ := lookup_of_toJson h
  exact (ofTree_eq_some_iff hkeys).mpr hms

end Vars

namespace FieldKind

theorem uint64?_ofUInt64 (n : UInt64) : (Tree.ofUInt64 n).uint64? = some n := by
  have hlt : n.toNat < UInt64.size := n.toNat_lt
  simp only [Tree.uint64?, Tree.ofUInt64, Tree.ofNat, Tree.ofInt, Tree.intBetween?]
  rw [if_pos (by omega), Option.map_some, Int.toNat_natCast, UInt64.ofNat_toNat]

theorem isPlain_write (k : FieldKind) (value : k.Value) : (k.write value).IsPlain := by
  cases k with
  | text => rfl
  | textOrNull =>
      cases value with
      | none => trivial
      | some _ => rfl
  | word =>
      have hlt : value.toNat < UInt64.size := value.toNat_lt
      have hbound : int64Bound = 9223372036854775808 := rfl
      exact ⟨by omega, by omega⟩
  | flag => trivial
  | texts =>
      have hplain (texts : List String) : Tree.ItemsPlain (texts.map Tree.ofString) := by
        induction texts with
        | nil => trivial
        | cons _ _ ih => exact ⟨rfl, ih⟩
      exact hplain value
  | vars =>
      have hplain (entries : List (String × String)) : Tree.MembersPlain
          ((entries.map fun e => (e.1, Tree.ofString e.2)).map fun m => (some m.1, m.2)) := by
        induction entries with
        | nil => trivial
        | cons _ _ ih => exact ⟨rfl, rfl, ih⟩
      exact hplain value.entries

/-- The value of what a field is written as says what was written. -/
theorem read_toTree {k : FieldKind} {value : k.Value} {v : Json}
    (h : (k.write value).toJson = some v) : k.read v.toTree = some value := by
  cases k with
  | text =>
      cases h
      rfl
  | textOrNull =>
      cases value <;>
      · cases h
        rfl
  | word =>
      cases h
      exact uint64?_ofUInt64 value
  | flag =>
      cases h
      rfl
  | texts =>
      obtain ⟨vs, hvs, rfl⟩ := Option.map_eq_some_iff.mp h
      exact Json.mapM_string?_of_toJson hvs
  | vars => exact Vars.ofTree_of_toJson h

end FieldKind

/-- A field of the settings. -/
inductive Field where
  | baseUrl
  | apiKey
  | requestTimeoutMs
  | name
  | projectName
  | initCommand
  | readOnly
  | requiresProxy
  | proxyUrl
  | proxySecret
  | proxyTokenTtlSecs
  | envVars
  | setupCommands
  | level
  | json
  | path
  deriving DecidableEq, Repr

namespace Field

def kind : Field → FieldKind
  | baseUrl | name | projectName | level => .text
  | apiKey | initCommand | proxyUrl | proxySecret | path => .textOrNull
  | requestTimeoutMs | proxyTokenTtlSecs => .word
  | requiresProxy | json => .flag
  | readOnly | setupCommands => .texts
  | envVars => .vars

/-- The value of a field. -/
def get : (f : Field) → Settings → f.kind.Value
  | baseUrl, s => s.controlPlane.baseUrl
  | apiKey, s => s.controlPlane.apiKey
  | requestTimeoutMs, s => s.controlPlane.requestTimeoutMs
  | name, s => s.template.name
  | projectName, s => s.template.projectName
  | initCommand, s => s.template.initCommand
  | readOnly, s => s.template.readOnly
  | requiresProxy, s => s.template.requiresProxy
  | proxyUrl, s => s.template.proxyUrl
  | proxySecret, s => s.template.proxySecret
  | proxyTokenTtlSecs, s => s.template.proxyTokenTtlSecs
  | envVars, s => s.template.envVars
  | setupCommands, s => s.template.setupCommands
  | level, s => s.telemetry.level
  | json, s => s.telemetry.json
  | path, s => s.store.path

/-- The member of the settings' JSON that holds a field. -/
def group : Field → String
  | baseUrl | apiKey | requestTimeoutMs => "sandbox"
  | level | json => "telemetry"
  | path => "store"
  | _ => "template"

/-- The key of a field in its group. -/
def key : Field → String
  | baseUrl => "baseUrl"
  | apiKey => "apiKey"
  | requestTimeoutMs => "requestTimeoutMs"
  | name => "name"
  | projectName => "projectName"
  | initCommand => "initCommand"
  | readOnly => "readOnlyPrefixes"
  | requiresProxy => "requiresAiProxy"
  | proxyUrl => "aiProxyUrl"
  | proxySecret => "proxySecret"
  | proxyTokenTtlSecs => "proxyTokenTtlSecs"
  | envVars => "envVars"
  | setupCommands => "setupCommands"
  | level => "level"
  | json => "json"
  | path => "dbPath"

/-- The variable that can set a field. -/
def variableName? : Field → Option String
  | baseUrl => some "SHIPYARD_SANDBOX_URL"
  | apiKey => some "SHIPYARD_SANDBOX_API_KEY"
  | requestTimeoutMs => some "SHIPYARD_SANDBOX_TIMEOUT_MS"
  | name => some "SHIPYARD_TEMPLATE"
  | projectName => some "SHIPYARD_PROJECT_NAME"
  | requiresProxy => some "SHIPYARD_REQUIRES_AI_PROXY"
  | proxyUrl => some "SHIPYARD_AI_PROXY_URL"
  | proxySecret => some "SHIPYARD_PROXY_SECRET"
  | level => some "SHIPYARD_LOG_LEVEL"
  | json => some "SHIPYARD_LOG_JSON"
  | path => some "SHIPYARD_DB_PATH"
  | initCommand | readOnly | proxyTokenTtlSecs | envVars | setupCommands => none

theorem ext_get {s t : Settings} (h : ∀ f : Field, f.get s = f.get t) : s = t := by
  obtain ⟨⟨_, _, _⟩, ⟨_, _, _, _, _, _, _, _, _, _⟩, ⟨_, _⟩, ⟨_⟩⟩ := s
  obtain ⟨⟨_, _, _⟩, ⟨_, _, _, _, _, _, _, _, _, _⟩, ⟨_, _⟩, ⟨_⟩⟩ := t
  simp only [Settings.mk.injEq, ControlPlaneSettings.mk.injEq, TemplateSettings.mk.injEq,
    TelemetrySettings.mk.injEq, StoreSettings.mk.injEq]
  exact ⟨⟨h baseUrl, h apiKey, h requestTimeoutMs⟩,
    ⟨h name, h projectName, h initCommand, h readOnly, h requiresProxy, h proxyUrl, h proxySecret,
      h proxyTokenTtlSecs, h envVars, h setupCommands⟩, ⟨h level, h json⟩, h path⟩

/-! ### JSON -/

/-- The member of a field in the JSON of settings. -/
def lookup (members : List (String × Json)) (f : Field) : Option Json :=
  Json.lookup f.key (Json.within f.group members)

/-- The JSON has an object for each group of fields, and keys in ascending order. -/
def Grouped (members : List (String × Json)) : Prop :=
  (members.map (·.1)).Pairwise (· < ·) ∧
    ∀ group ∈ Settings.fields, ∃ ms, Json.lookup group members = some (.object ms) ∧
      (ms.map (·.1)).Pairwise (· < ·)

/-- A record that is a member of a record has its members in the object of its key. -/
theorem lookup_within {members : List (String × Json)} {groups fields : List (String × Tree)}
    (group : String)
    (hgroups : ∀ key, (Json.lookup key members).map some = (Json.lookup key groups).map Tree.toJson)
    (hgroup : Json.lookup group groups = some (Json.Record.tree fields))
    (hnodup : (fields.map (·.1)).Nodup) :
    (∃ ms, Json.lookup group members = some (.object ms)) ∧
      ∀ {key t}, Json.lookup key fields = some t →
        ∃ u, t.toJson = some u ∧ Json.lookup key (Json.within group members) = some u := by
  have hmember := hgroups group
  rw [hgroup, Option.map_some] at hmember
  obtain ⟨v, hv, hjson⟩ := Option.map_eq_some_iff.mp hmember
  obtain ⟨ms, rfl, hms⟩ := Json.Record.lookup_of_toJson hjson.symm hnodup
  refine ⟨⟨ms, hv⟩, fun {key t} hkey => ?_⟩
  have hfield := hms key
  rw [hkey, Option.map_some] at hfield
  obtain ⟨u, hu, hvalue⟩ := Option.map_eq_some_iff.mp hfield
  exact ⟨u, hvalue.symm, by rw [Json.within, hv]; exact hu⟩

theorem lookup_of_toJson {s : Settings} {v : Json} (h : s.toTree.toJson = some v) :
    ∃ members, v = .object members ∧ Grouped members ∧
      ∀ f, ∃ u, (f.kind.write (f.get s)).toJson = some u ∧ lookup members f = some u := by
  obtain ⟨members, rfl, hmembers⟩ :=
    Json.Record.lookup_of_toJson h (show Settings.fields.Nodup by decide)
  obtain ⟨hsandbox, sandbox⟩ := lookup_within "sandbox" hmembers rfl
    (show ControlPlaneSettings.fields.Nodup by decide)
  obtain ⟨htemplate, template⟩ := lookup_within "template" hmembers rfl
    (show TemplateSettings.fields.Nodup by decide)
  obtain ⟨htelemetry, telemetry⟩ := lookup_within "telemetry" hmembers rfl
    (show TelemetrySettings.fields.Nodup by decide)
  obtain ⟨hstore, store⟩ := lookup_within "store" hmembers rfl
    (show StoreSettings.fields.Nodup by decide)
  have hordered := Json.Ordered.of_toJson h
  refine ⟨members, rfl, ⟨hordered.1, fun group hgroup => ?_⟩, fun f => ?_⟩
  · have hobject : ∃ ms, Json.lookup group members = some (.object ms) := by
      simp only [Settings.fields, List.mem_cons, List.not_mem_nil, or_false] at hgroup
      rcases hgroup with rfl | rfl | rfl | rfl <;> assumption
    obtain ⟨ms, hms⟩ := hobject
    exact ⟨ms, hms, (hordered.of_lookup hms).1⟩
  · cases f with
    | baseUrl | apiKey | requestTimeoutMs => exact sandbox rfl
    | level | json => exact telemetry rfl
    | path => exact store rfl
    | _ => exact template rfl

theorem isPlain_toTree (s : Settings) : s.toTree.IsPlain := by
  have plain (f : Field) : (f.kind.write (f.get s)).IsPlain := f.kind.isPlain_write _
  exact ⟨rfl, ⟨rfl, plain baseUrl, rfl, plain apiKey, rfl, plain requestTimeoutMs, trivial⟩,
    rfl, ⟨rfl, plain name, rfl, plain projectName, rfl, plain initCommand, rfl, plain readOnly, rfl,
      plain requiresProxy, rfl, plain proxyUrl, rfl, plain proxySecret, rfl,
      plain proxyTokenTtlSecs, rfl, plain envVars, rfl, plain setupCommands, trivial⟩,
    rfl, ⟨rfl, plain level, rfl, plain json, trivial⟩, rfl, ⟨rfl, plain path, trivial⟩, trivial⟩

/-! ### Reading -/

section
variable {ms : List (String × Json)} {u : Field → Json} (hms : (ms.map (·.1)).Nodup)
include hms

/-- An object with a member for each of some fields holds these. -/
theorem slots_keys (fs : List Field) (hu : ∀ f ∈ fs, Json.lookup f.key ms = some (u f)) :
    Json.Record.slots (fs.map key) (Json.object ms).toTree =
      some (fs.map fun f => .given (u f).toTree) := by
  rw [Json.slots_toTree hms, List.map_map]
  refine congrArg some (List.map_congr_left fun f hf => ?_)
  rw [Function.comp_apply, Json.slotOf, hu f hf]

theorem ofTree_controlPlane {s : ControlPlaneSettings}
    (hu : ∀ f ∈ [baseUrl, apiKey, requestTimeoutMs], Json.lookup f.key ms = some (u f)) :
    ControlPlaneSettings.ofTree (Json.object ms).toTree = some s ↔
      (u baseUrl).toTree.string? = some s.baseUrl ∧
      (u apiKey).toTree.nullable Tree.string? = some s.apiKey ∧
      (u requestTimeoutMs).toTree.uint64? = some s.requestTimeoutMs := by
  have hslots : Json.Record.slots ControlPlaneSettings.fields _ = _ := slots_keys hms _ hu
  simp only [List.map_cons, List.map_nil] at hslots
  obtain ⟨_, _, _⟩ := s
  simp only [ControlPlaneSettings.ofTree, hslots, Slot.loose, Slot.withDefault,
    Option.bind_eq_bind, Option.bind_eq_some_iff, Option.pure_def, Option.some.injEq,
    ControlPlaneSettings.mk.injEq]
  constructor
  · rintro ⟨_, h₁, _, h₂, _, h₃, rfl, rfl, rfl⟩
    exact ⟨h₁, h₂, h₃⟩
  · rintro ⟨h₁, h₂, h₃⟩
    exact ⟨_, h₁, _, h₂, _, h₃, rfl, rfl, rfl⟩

theorem ofTree_template {s : TemplateSettings}
    (hu : ∀ f ∈ [name, projectName, initCommand, readOnly, requiresProxy, proxyUrl, proxySecret,
      proxyTokenTtlSecs, envVars, setupCommands], Json.lookup f.key ms = some (u f)) :
    TemplateSettings.ofTree (Json.object ms).toTree = some s ↔
      (u name).toTree.string? = some s.name ∧
      (u projectName).toTree.string? = some s.projectName ∧
      (u initCommand).toTree.nullable Tree.string? = some s.initCommand ∧
      (u readOnly).toTree.list? Tree.string? = some s.readOnly ∧
      (u requiresProxy).toTree.bool? = some s.requiresProxy ∧
      (u proxyUrl).toTree.nullable Tree.string? = some s.proxyUrl ∧
      (u proxySecret).toTree.nullable Tree.string? = some s.proxySecret ∧
      (u proxyTokenTtlSecs).toTree.uint64? = some s.proxyTokenTtlSecs ∧
      Vars.ofTree (u envVars).toTree = some s.envVars ∧
      (u setupCommands).toTree.list? Tree.string? = some s.setupCommands := by
  have hslots : Json.Record.slots TemplateSettings.fields _ = _ := slots_keys hms _ hu
  simp only [List.map_cons, List.map_nil] at hslots
  obtain ⟨_, _, _, _, _, _, _, _, _, _⟩ := s
  simp only [TemplateSettings.ofTree, hslots, Slot.loose, Slot.withDefault, Option.bind_eq_bind,
    Option.bind_eq_some_iff, Option.pure_def, Option.some.injEq, TemplateSettings.mk.injEq]
  constructor
  · rintro ⟨_, h₁, _, h₂, _, h₃, _, h₄, _, h₅, _, h₆, _, h₇, _, h₈, _, h₉, _, h₁₀, rfl, rfl, rfl,
      rfl, rfl, rfl, rfl, rfl, rfl, rfl⟩
    exact ⟨h₁, h₂, h₃, h₄, h₅, h₆, h₇, h₈, h₉, h₁₀⟩
  · rintro ⟨h₁, h₂, h₃, h₄, h₅, h₆, h₇, h₈, h₉, h₁₀⟩
    exact ⟨_, h₁, _, h₂, _, h₃, _, h₄, _, h₅, _, h₆, _, h₇, _, h₈, _, h₉, _, h₁₀, rfl, rfl, rfl,
      rfl, rfl, rfl, rfl, rfl, rfl, rfl⟩

theorem ofTree_telemetry {s : TelemetrySettings}
    (hu : ∀ f ∈ [level, json], Json.lookup f.key ms = some (u f)) :
    TelemetrySettings.ofTree (Json.object ms).toTree = some s ↔
      (u level).toTree.string? = some s.level ∧ (u json).toTree.bool? = some s.json := by
  have hslots : Json.Record.slots TelemetrySettings.fields _ = _ := slots_keys hms _ hu
  simp only [List.map_cons, List.map_nil] at hslots
  obtain ⟨_, _⟩ := s
  simp only [TelemetrySettings.ofTree, hslots, Slot.withDefault, Option.bind_eq_bind,
    Option.bind_eq_some_iff, Option.pure_def, Option.some.injEq, TelemetrySettings.mk.injEq]
  constructor
  · rintro ⟨_, h₁, _, h₂, rfl, rfl⟩
    exact ⟨h₁, h₂⟩
  · rintro ⟨h₁, h₂⟩
    exact ⟨_, h₁, _, h₂, rfl, rfl⟩

theorem ofTree_store {home : Option String} {s : StoreSettings}
    (hu : ∀ f ∈ [path], Json.lookup f.key ms = some (u f)) :
    StoreSettings.ofTree home (Json.object ms).toTree = some s ↔
      (u path).toTree.nullable Tree.string? = some s.path := by
  have hslots : Json.Record.slots StoreSettings.fields _ = _ := slots_keys hms _ hu
  simp only [List.map_cons, List.map_nil] at hslots
  obtain ⟨_⟩ := s
  simp only [StoreSettings.ofTree, hslots, Slot.withDefault, Option.bind_eq_bind,
    Option.bind_eq_some_iff, Option.pure_def, Option.some.injEq, StoreSettings.mk.injEq]
  constructor
  · rintro ⟨_, h, rfl⟩
    exact h
  · exact fun h => ⟨_, h, rfl⟩

end

/-- Where the JSON has every field, settings are read from it field by field. -/
theorem ofTree_eq_some_iff {home : Option String} {members : List (String × Json)}
    {u : Field → Json} {s : Settings} (hgrouped : Grouped members)
    (hu : ∀ f, lookup members f = some (u f)) :
    Settings.ofTree home (Json.object members).toTree = some s ↔
      ∀ f : Field, f.kind.read (u f).toTree = some (f.get s) := by
  have hslots := Json.slots_toTree (Json.nodup_of_ascending hgrouped.1) Settings.fields
  have hgroup (group : String) (h : group ∈ Settings.fields) :
      ∃ ms, Json.lookup group members = some (.object ms) ∧ (ms.map (·.1)).Nodup ∧
        ∀ f : Field, f.group = group → Json.lookup f.key ms = some (u f) := by
    obtain ⟨ms, hms, hkeys⟩ := hgrouped.2 group h
    refine ⟨ms, hms, Json.nodup_of_ascending hkeys, ?_⟩
    rintro f rfl
    simpa [lookup, Json.within, hms] using hu f
  obtain ⟨sandbox, hsandbox, hn₁, hu₁⟩ := hgroup "sandbox" (by decide)
  obtain ⟨template, htemplate, hn₂, hu₂⟩ := hgroup "template" (by decide)
  obtain ⟨telemetry, htelemetry, hn₃, hu₃⟩ := hgroup "telemetry" (by decide)
  obtain ⟨store, hstore, hn₄, hu₄⟩ := hgroup "store" (by decide)
  have read₁ (c : ControlPlaneSettings) :=
    ofTree_controlPlane (s := c) hn₁ fun f hf => hu₁ f (by decide +revert)
  have read₂ (t : TemplateSettings) :=
    ofTree_template (s := t) hn₂ fun f hf => hu₂ f (by decide +revert)
  have read₃ (t : TelemetrySettings) :=
    ofTree_telemetry (s := t) hn₃ fun f hf => hu₃ f (by decide +revert)
  have read₄ (t : StoreSettings) : StoreSettings.ofTree home _ = some t ↔ _ :=
    ofTree_store hn₄ fun f hf => hu₄ f (by decide +revert)
  simp only [Settings.fields, List.map_cons, List.map_nil, Json.slotOf, hsandbox, htemplate,
    htelemetry, hstore] at hslots
  simp only [Settings.ofTree, Settings.fields, hslots, Slot.withDefault, Option.bind_eq_bind,
    Option.bind_eq_some_iff, Option.pure_def, Option.some.injEq, read₁, read₂, read₃, read₄]
  constructor
  · rintro ⟨c, ⟨h₁, h₂, h₃⟩, t, ⟨h₄, h₅, h₆, h₇, h₈, h₉, h₁₀, h₁₁, h₁₂, h₁₃⟩, e, ⟨h₁₄, h₁₅⟩, p,
      h₁₆, rfl⟩ f
    cases f <;> assumption
  · intro h
    exact ⟨s.controlPlane, ⟨h baseUrl, h apiKey, h requestTimeoutMs⟩, s.template,
      ⟨h name, h projectName, h initCommand, h readOnly, h requiresProxy, h proxyUrl,
        h proxySecret, h proxyTokenTtlSecs, h envVars, h setupCommands⟩, s.telemetry,
      ⟨h level, h json⟩, s.store, h path, rfl⟩

/-! ### The environment -/

/-- What a variable sets a field to: its text, if it has some that can be read. -/
def set? (env : Environment) (f : Field) : Option f.kind.Value :=
  f.variableName?.bind fun name => env.value? name f.kind.ofText

/-- The variable of a field has a text that is not empty and that says a value. -/
def IsSet (env : Environment) (f : Field) (value : f.kind.Value) : Prop :=
  ∃ name text, f.variableName? = some name ∧ env name = some text ∧ text ≠ "" ∧
    f.kind.Says text value

theorem set?_eq_some_iff {env : Environment} {f : Field} {value : f.kind.Value} :
    f.set? env = some value ↔ f.IsSet env value := by
  simp only [set?, IsSet, Environment.value?, Environment.text?, Option.bind_eq_some_iff,
    Option.filter_eq_some_iff, FieldKind.ofText_eq_some_iff, Bool.not_eq_true',
    String.isEmpty_eq_false_iff]
  constructor
  · rintro ⟨name, hname, text, ⟨htext, hsome⟩, hsays⟩
    exact ⟨name, text, hname, htext, hsome, hsays⟩
  · rintro ⟨name, text, hname, htext, hsome, hsays⟩
    exact ⟨name, hname, text, ⟨htext, hsome⟩, hsays⟩

theorem eq_of_variableName? {f g : Field} {name : String} (hf : f.variableName? = some name)
    (hg : g.variableName? = some name) : f = g := by
  have heq : f.variableName? = g.variableName? := hf.trans hg.symm
  clear hg
  cases f <;> cases g <;>
    first
      | rfl
      | exact absurd heq (by decide)
      | exact nomatch hf

/-- The environment sets the fields whose variable says a value, and leaves the others. -/
theorem get_override (env : Environment) (s : Settings) (f : Field) :
    f.get (s.override env) = (f.set? env).getD (f.get s) := by
  have htext (name old : String) :
      (env.text? name).getD old = (env.value? name some).getD old := by
    cases h : env.text? name <;> simp [Environment.value?, h]
  cases f with
  | baseUrl | name | projectName | level => exact htext _ _
  | apiKey | proxyUrl | proxySecret | path =>
      simp only [get, Settings.override, set?, variableName?, kind, FieldKind.ofText,
        Option.bind_some, Environment.value?]
      split <;>
      · rename_i hvalue
        simp only [hvalue, Option.bind_some, Option.bind_none]
        rfl
  | _ => rfl

/-- A variable has no effect on the fields of other variables. -/
theorem get_override_of_ne {f : Field} {name : String} {env env' : Environment}
    (h : ∀ other ≠ name, env' other = env other) (hf : f.variableName? ≠ some name)
    (s : Settings) : f.get (s.override env') = f.get (s.override env) := by
  have hset : f.set? env' = f.set? env := by
    unfold set?
    cases hown : f.variableName? with
    | none => rfl
    | some own =>
        have hne : own ≠ name := fun heq => hf (heq ▸ hown)
        simp only [Option.bind_some, Environment.value?, Environment.text?, h own hne]
  rw [get_override, get_override, hset]

theorem override_override (env : Environment) (s : Settings) :
    (s.override env).override env = s.override env :=
  ext_get fun f => by
    rw [get_override, get_override]
    cases f.set? env <;> rfl

end Field

end PreviewDeploy
