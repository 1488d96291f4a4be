import PreviewDeploy.Json.Merge
import PreviewDeploy.Json.Record
import PreviewDeploy.Proofs.JsonText
import PreviewDeploy.Vars

/-!
# Members of JSON values

An object is looked at by its keys (`Json.lookup`).  Here is said what insertion, merging, the value
of a tree and the reading of a record make of the member of a key.  All of it is about objects
with distinct keys; the value of a tree has them in ascending order at every depth
(`Tree.sorted_toJson`).
-/

namespace PreviewDeploy.Json

/-! ### Lookup and insertion -/

section
variable {α : Type} {key k : String} {value v : α} {members : List (String × α)}

theorem lookup_insert (key : String) (value : α) (members : List (String × α)) :
    lookup key (insert key value members) = some value := by
  induction members with
  | nil => simp [insert, lookup]
  | cons m members ih =>
      unfold insert
      split
      · simp [lookup]
      · split
        · simp [lookup]
        · rename_i hne
          simpa [lookup, Ne.symm hne] using ih

theorem lookup_insert_of_ne (h : k ≠ key) :
    lookup k (insert key value members) = lookup k members := by
  induction members with
  | nil => simp [insert, lookup, Ne.symm h]
  | cons m members ih =>
      unfold insert
      split
      · simp [lookup, Ne.symm h]
      · split
        · rename_i heq
          simp [lookup, ← heq, Ne.symm h]
        · simp [lookup, ih]

theorem lookup_eq_none_iff : lookup key members = none ↔ key ∉ members.map (·.1) := by
  induction members with
  | nil => simp [lookup]
  | cons m members ih =>
      by_cases h : m.1 = key
      · simp [lookup, h]
      · simp [lookup, h, ih, Ne.symm h]

theorem lookup_map {β : Type} (f : α → β) (key : String) (members : List (String × α)) :
    lookup key (members.map fun m => (m.1, f m.2)) = (lookup key members).map f := by
  induction members with
  | nil => rfl
  | cons m members ih =>
      by_cases h : m.1 = key
      · simp [lookup, h]
      · simp [lookup, h, ih]

theorem mem_of_lookup (h : lookup key members = some value) : (key, value) ∈ members := by
  induction members with
  | nil => cases h
  | cons m members ih =>
      unfold lookup at h
      split at h
      · rename_i heq
        obtain rfl := Option.some.inj h
        exact heq ▸ .head _
      · exact .tail _ (ih h)

/-- Insertion adds to the members, and may take one of them away. -/
theorem mem_insert {m : String × α} (h : m ∈ insert key value members) :
    m = (key, value) ∨ m ∈ members := by
  induction members with
  | nil => exact .inl (List.mem_singleton.mp h)
  | cons a members ih =>
      unfold insert at h
      split at h
      · exact List.mem_cons.mp h
      · split at h
        · exact (List.mem_cons.mp h).imp id (.tail _)
        · rcases List.mem_cons.mp h with h | h
          · exact .inr (h ▸ .head _)
          · exact (ih h).imp id (.tail _)

theorem nodup_of_ascending {keys : List String} (h : keys.Pairwise (· < ·)) : keys.Nodup := by
  refine h.imp ?_
  rintro a _ hlt rfl
  exact String.lt_irrefl a hlt

theorem insert_of_forall_lt (h : ∀ m ∈ members, m.1 < key) :
    insert key value members = members ++ [(key, value)] := by
  induction members with
  | nil => rfl
  | cons m members ih =>
      have hlt : m.1 < key := h m (.head _)
      have hne : key ≠ m.1 := fun heq => String.lt_irrefl _ (heq ▸ hlt)
      unfold insert
      rw [if_neg (fun hgt => String.lt_irrefl _ (String.lt_trans hgt hlt)), if_neg hne,
        ih fun m hm => h m (.tail _ hm)]
      rfl

theorem lookup_of_forall_lt (h : ∀ k ∈ members.map (·.1), key < k) : lookup key members = none :=
  lookup_eq_none_iff.mpr fun hmem => String.lt_irrefl _ (h key hmem)

theorem ext_lookup {a b : List (String × α)} (ha : (a.map (·.1)).Pairwise (· < ·))
    (hb : (b.map (·.1)).Pairwise (· < ·)) (h : ∀ key, lookup key a = lookup key b) : a = b := by
  -- The first key of one list is not before that of the other.
  have first {x y : String × α} {a b : List (String × α)}
      (hx : ∀ k ∈ a.map (·.1), x.1 < k) (h : ∀ key, lookup key (x :: a) = lookup key (y :: b)) :
      ¬ y.1 < x.1 := by
    intro hlt
    have habsent : lookup y.1 (x :: a) = none := by
      refine lookup_of_forall_lt fun k hk => ?_
      rcases List.mem_cons.mp hk with rfl | hk
      · exact hlt
      · exact String.lt_trans hlt (hx k hk)
    rw [h y.1] at habsent
    simp [lookup] at habsent
  induction a generalizing b with
  | nil =>
      cases b with
      | nil => rfl
      | cons y b => simpa [lookup] using h y.1
  | cons x a ih =>
      cases b with
      | nil => simpa [lookup] using h x.1
      | cons y b =>
          obtain ⟨hxa, ha'⟩ := List.pairwise_cons.mp ha
          obtain ⟨hyb, hb'⟩ := List.pairwise_cons.mp hb
          have hkey : x.1 = y.1 :=
            String.le_antisymm (String.not_lt.mp (first hxa h))
              (String.not_lt.mp (first hyb fun key => (h key).symm))
          have hvalue : x.2 = y.2 := by simpa [lookup, hkey] using h x.1
          obtain rfl : x = y := Prod.ext hkey hvalue
          congr 1
          refine ih ha' hb' fun key => ?_
          by_cases hk : x.1 = key
          · subst hk
            rw [lookup_of_forall_lt hxa, lookup_of_forall_lt hyb]
          · simpa [lookup, hk] using h key

end

/-- The members of the object that is the member of a key. -/
def within (key : String) (members : List (String × Json)) : List (String × Json) :=
  match lookup key members with
  | some (.object ms) => ms
  | _ => []

/-! ### Merging -/

/-- What an object says of a key: its member, unless that is null. -/
def said? (key : String) (members : List (String × Json)) : Option Json :=
  (lookup key members).filter fun v => !v.isNull

theorem merge_of_ne_object {below : Json} (h : ∀ ms, below ≠ .object ms) (above : Json) :
    merge below above = above := by
  cases below with
  | object ms => exact absurd rfl (h ms)
  | _ => cases above <;> rfl

theorem lookup_mergeMembers {above : List (String × Json)} (h : (above.map (·.1)).Nodup)
    (below : List (String × Json)) (k : String) :
    lookup k (mergeMembers below above) = (lookup k below).merge merge (said? k above) := by
  induction above generalizing below k with
  | nil => simp [mergeMembers, lookup, said?]
  | cons m above ih =>
      obtain ⟨key, value⟩ := m
      obtain ⟨hnew, h⟩ := List.nodup_cons.mp h
      -- No later member has this key, so what is merged after this one leaves its place alone.
      have hlast : said? key above = none := by
        rw [said?, lookup_eq_none_iff.mpr hnew]
        rfl
      have hrest (hk : key ≠ k) : said? k ((key, value) :: above) = said? k above := by
        simp [said?, lookup, hk]
      rw [mergeMembers]
      split
      · rename_i hnull
        rw [ih h]
        by_cases hk : key = k
        · subst hk
          rw [hlast, said?, lookup, if_pos rfl, Option.filter_some, hnull]
          rfl
        · rw [hrest hk]
      · rename_i hnull
        have hhead : said? key ((key, value) :: above) = some value := by
          simp [said?, lookup, hnull]
        have hself (v : Json) :
            lookup key (mergeMembers (insert key v below) above) = some v := by
          rw [ih h, hlast, lookup_insert]
          rfl
        have hother (v : Json) (hk : key ≠ k) :
            lookup k (mergeMembers (insert key v below) above) =
              (lookup k below).merge merge (said? k ((key, value) :: above)) := by
          rw [ih h, lookup_insert_of_ne (Ne.symm hk), hrest hk]
        by_cases hk : key = k
        · subst hk
          rw [hhead]
          split <;> rename_i hunder <;> rw [hself, hunder] <;> rfl
        · split <;> exact hother _ hk

theorem pairwise_keys_mergeMembers {below : List (String × Json)}
    (h : (below.map (·.1)).Pairwise (· < ·)) (above : List (String × Json)) :
    ((mergeMembers below above).map (·.1)).Pairwise (· < ·) := by
  induction above generalizing below with
  | nil => exact h
  | cons m above ih =>
      rw [mergeMembers]
      split
      · exact ih h
      · split <;> exact ih (pairwise_keys_insert h)

/-! ### Values of trees -/

theorem membersSorted_iff {members : List (String × Json)} :
    MembersSorted members ↔ ∀ m ∈ members, m.2.Sorted := by
  induction members with
  | nil => simp [MembersSorted]
  | cons m members ih => simp [MembersSorted, ih]

/-- The members that were read before have ascending keys, and sorted values. -/
def Ordered (members : List (String × Json)) : Prop :=
  (members.map (·.1)).Pairwise (· < ·) ∧ MembersSorted members

theorem Ordered.insert {members : List (String × Json)} (h : Ordered members) {v : Json}
    (hv : v.Sorted) (key : String) : Ordered (Json.insert key v members) := by
  refine ⟨pairwise_keys_insert h.1, membersSorted_iff.mpr fun m hm => ?_⟩
  rcases mem_insert hm with rfl | hm
  · exact hv
  · exact membersSorted_iff.mp h.2 m hm

theorem Ordered.nodup {members : List (String × Json)} (h : Ordered members) :
    (members.map (·.1)).Nodup :=
  nodup_of_ascending h.1

theorem Ordered.of_lookup {members ms : List (String × Json)} {key : String} (h : Ordered members)
    (hkey : lookup key members = some (.object ms)) : Ordered ms :=
  membersSorted_iff.mp h.2 _ (mem_of_lookup hkey)

theorem Ordered.within {members : List (String × Json)} (h : Ordered members) (key : String) :
    Ordered (Json.within key members) := by
  unfold Json.within
  split
  · rename_i hkey
    exact h.of_lookup hkey
  · exact ⟨.nil, trivial⟩

theorem Ordered.sorted_of_said? {members : List (String × Json)} (h : Ordered members)
    {key : String} {v : Json} (hv : said? key members = some v) : v.Sorted :=
  membersSorted_iff.mp h.2 _ (mem_of_lookup (Option.filter_eq_some_iff.mp hv).1)

mutual
theorem Tree.sorted_toJson : ∀ (t : Tree) {v : Json}, t.toJson = some v → v.Sorted
  | .null, _, h => by
      cases h
      trivial
  | .bool _, _, h => by
      cases h
      trivial
  | .number _, _, h => by
      obtain ⟨n, -, rfl⟩ := Option.map_eq_some_iff.mp h
      trivial
  | .string _, _, h => by
      obtain ⟨s, -, rfl⟩ := Option.map_eq_some_iff.mp h
      trivial
  | .array items, _, h => by
      obtain ⟨vs, hvs, rfl⟩ := Option.map_eq_some_iff.mp h
      exact Tree.itemsSorted_itemsToJson items hvs
  | .object members, _, h => by
      obtain ⟨ms, hms, rfl⟩ := Option.map_eq_some_iff.mp h
      exact Tree.ordered_membersToJson members (show Ordered [] from ⟨.nil, trivial⟩) hms

theorem Tree.itemsSorted_itemsToJson : ∀ (items : List Tree) {vs : List Json},
    Tree.itemsToJson items = some vs → ItemsSorted vs
  | [], _, h => by
      cases h
      trivial
  | t :: items, _, h => by
      obtain ⟨v, hv, h⟩ := Option.bind_eq_some_iff.mp h
      obtain ⟨vs, hvs, h⟩ := Option.bind_eq_some_iff.mp h
      cases h
      exact ⟨Tree.sorted_toJson t hv, Tree.itemsSorted_itemsToJson items hvs⟩

theorem Tree.ordered_membersToJson : ∀ (members : List (Option String × Tree))
    {done ms : List (String × Json)}, Ordered done →
    Tree.membersToJson done members = some ms → Ordered ms
  | [], _, _, hdone, h => by
      cases h
      exact hdone
  | (key, t) :: members, _, _, hdone, h => by
      obtain ⟨k, -, h⟩ := Option.bind_eq_some_iff.mp h
      obtain ⟨v, hv, h⟩ := Option.bind_eq_some_iff.mp h
      exact Tree.ordered_membersToJson members (hdone.insert (Tree.sorted_toJson t hv) k) h
end

theorem Ordered.of_toJson {t : Tree} {members : List (String × Json)}
    (h : t.toJson = some (.object members)) : Ordered members :=
  t.sorted_toJson h

theorem ordered_of_parse {text : String} {members : List (String × Json)}
    (h : parse text = some (.object members)) : Ordered members := by
  obtain ⟨t, -, ht⟩ := Option.bind_eq_some_iff.mp h
  unfold Tree.toBoundedJson at ht
  split at ht
  · exact .of_toJson ht
  · cases ht

mutual
theorem Tree.exists_toJson : ∀ (t : Tree), t.IsPlain → ∃ v, t.toJson = some v
  | .null, _ | .bool _, _ | .number (some (.integer _)), _ | .string (some _), _ => ⟨_, rfl⟩
  | .array items, h => by
      obtain ⟨vs, hvs⟩ := Tree.exists_itemsToJson items h
      exact ⟨.array vs, by rw [toJson, hvs, Option.map_some]⟩
  | .object members, h => by
      obtain ⟨ms, hms⟩ := Tree.exists_membersToJson members [] h
      exact ⟨.object ms, by rw [toJson, hms, Option.map_some]⟩

theorem Tree.exists_itemsToJson : ∀ (items : List Tree), ItemsPlain items →
    ∃ vs, itemsToJson items = some vs
  | [], _ => ⟨[], rfl⟩
  | t :: items, h => by
      obtain ⟨v, hv⟩ := Tree.exists_toJson t h.1
      obtain ⟨vs, hvs⟩ := Tree.exists_itemsToJson items h.2
      exact ⟨v :: vs, by simp [itemsToJson, hv, hvs]⟩

theorem Tree.exists_membersToJson : ∀ (members : List (Option String × Tree))
    (done : List (String × Json)), MembersPlain members →
    ∃ ms, membersToJson done members = some ms
  | [], done, _ => ⟨done, rfl⟩
  | (none, _) :: _, _, h => absurd h.1 (by simp)
  | (some key, t) :: members, done, h => by
      obtain ⟨v, hv⟩ := Tree.exists_toJson t h.2.1
      obtain ⟨ms, hms⟩ := Tree.exists_membersToJson members (Json.insert key v done) h.2.2
      exact ⟨ms, by simp [membersToJson, hv, hms]⟩
end

/-- A key that an object's tree does not have keeps what was read for it before. -/
theorem lookup_membersToJson_of_notMem {key : String} {members : List (Option String × Tree)}
    {done ms : List (String × Json)} (hkey : some key ∉ members.map (·.1))
    (h : Tree.membersToJson done members = some ms) : lookup key ms = lookup key done := by
  induction members generalizing done with
  | nil =>
      cases h
      rfl
  | cons m members ih =>
      obtain ⟨hne, hkey⟩ := not_or.mp (mt List.mem_cons.mpr hkey)
      obtain ⟨k, hk, h⟩ := Option.bind_eq_some_iff.mp h
      obtain ⟨v, -, h⟩ := Option.bind_eq_some_iff.mp h
      rw [ih hkey h, lookup_insert_of_ne]
      rintro rfl
      exact hne hk.symm

/-- The member of an object that says each key once has the value of its tree. -/
theorem lookup_membersToJson {key : String} {t : Tree} {members : List (Option String × Tree)}
    {done ms : List (String × Json)} (hnodup : (members.map (·.1)).Nodup)
    (hmem : (some key, t) ∈ members) (h : Tree.membersToJson done members = some ms) :
    ∃ v, t.toJson = some v ∧ lookup key ms = some v := by
  induction members generalizing done with
  | nil => cases hmem
  | cons m members ih =>
      obtain ⟨k?, t'⟩ := m
      obtain ⟨hnew, hnodup⟩ := List.nodup_cons.mp hnodup
      obtain ⟨k, hk, hbind⟩ := Option.bind_eq_some_iff.mp h
      obtain ⟨v, hv, hrest⟩ := Option.bind_eq_some_iff.mp hbind
      rcases List.mem_cons.mp hmem with heq | hmem
      · obtain ⟨rfl, rfl⟩ := Prod.mk.inj heq
        obtain rfl := Option.some.inj hk
        exact ⟨v, hv, (lookup_membersToJson_of_notMem hnew hrest).trans (lookup_insert ..)⟩
      · exact ih hnodup hmem hrest

/-- The members of a record are the values of its trees. -/
theorem Record.lookup_of_toJson {members : List (String × Tree)} {v : Json}
    (h : (Record.tree members).toJson = some v) (hnodup : (members.map (·.1)).Nodup) :
    ∃ ms, v = .object ms ∧
      ∀ key, (lookup key ms).map some = (lookup key members).map Tree.toJson := by
  obtain ⟨ms, hms, rfl⟩ := Option.map_eq_some_iff.mp h
  have hkeys : (members.map fun m => (some m.1, m.2)).map (·.1) =
      (members.map (·.1)).map some := by simp
  refine ⟨ms, rfl, fun key => ?_⟩
  cases hmember : lookup key members with
  | none =>
      have hkey : some key ∉ (members.map fun m => (some m.1, m.2)).map (·.1) := by
        rw [hkeys]
        simpa using lookup_eq_none_iff.mp hmember
      rw [lookup_membersToJson_of_notMem hkey hms]
      rfl
  | some t =>
      have hmem : (some key, t) ∈ members.map fun m => (some m.1, m.2) :=
        List.mem_map.mpr ⟨_, mem_of_lookup hmember, rfl⟩
      obtain ⟨u, hu, hlookup⟩ := lookup_membersToJson
        (hkeys ▸ List.Pairwise.map some (by simp) hnodup) hmem hms
      rw [hlookup, Option.map_some, Option.map_some, hu]

/-! ### Records of values -/

theorem membersAt_membersToTree {members : List (String × Json)} {key : String}
    (h : (members.map (·.1)).Nodup) :
    Record.membersAt key (membersToTree members) =
      ((lookup key members).map toTree).toList := by
  induction members with
  | nil => rfl
  | cons m members ih =>
      obtain ⟨k, v⟩ := m
      obtain ⟨hnew, h⟩ := List.nodup_cons.mp h
      by_cases hk : k = key
      · subst hk
        simp [membersToTree, Record.membersAt, lookup, ih h, lookup_eq_none_iff.mpr hnew]
      · simp [membersToTree, Record.membersAt, lookup, ih h, hk]

/-- What an object holds for a field of a record. -/
def slotOf (members : List (String × Json)) (key : String) : Slot :=
  match lookup key members with
  | some v => .given v.toTree
  | none => .absent

theorem slots_toTree {members : List (String × Json)} (h : (members.map (·.1)).Nodup)
    (keys : List String) :
    Record.slots keys (Json.object members).toTree = some (keys.map (slotOf members)) := by
  have hall : (membersToTree members).all (·.1.isSome) := by
    clear h
    induction members with
    | nil => rfl
    | cons m members ih => simpa [membersToTree] using ih
  have hslots : Record.slotsOfMembers (membersToTree members) keys =
      some (keys.map (slotOf members)) := by
    induction keys with
    | nil => rfl
    | cons key keys ih =>
        rw [Record.slotsOfMembers, membersAt_membersToTree h, ih, List.map_cons, slotOf]
        cases lookup key members <;> rfl
  simp only [toTree, Record.slots, hall, if_true, hslots]

end PreviewDeploy.Json
