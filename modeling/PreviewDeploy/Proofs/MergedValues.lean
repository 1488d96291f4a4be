import PreviewDeploy.Proofs.JsonMembers

/-!
# Merged values

What comes of laying one JSON value over another, looked at along paths of keys: which members the
result has, and that laying the same value over it again changes nothing (`overlays_merge`).

A null member of the upper value is skipped exactly if the object that it is in meets an object
below; an upper object that meets none is put in as a whole, with its nulls.  So the result is the
same as without the nulls exactly if no object with a null is put in so (`merge_prune_iff`).
-/

namespace PreviewDeploy.Json

/-! ### Paths -/

/-- What a value has at the end of a path of keys, which leads through objects. -/
def at? : List String → Json → Option Json
  | [], v => some v
  | key :: path, v => (v.get? key).bind (at? path)

@[simp] theorem at?_nil (v : Json) : at? [] v = some v := rfl

@[simp] theorem at?_cons (key : String) (path : List String) (v : Json) :
    at? (key :: path) v = (v.get? key).bind (at? path) := rfl

theorem exists_object_of_get? {key : String} {v w : Json} (h : v.get? key = some w) :
    ∃ members, v = .object members ∧ lookup key members = some w := by
  cases v with
  | object members => exact ⟨members, rfl, h⟩
  | _ => cases h

theorem at?_append (path rest : List String) (v : Json) :
    at? (path ++ rest) v = (at? path v).bind (at? rest) := by
  induction path generalizing v with
  | nil => rfl
  | cons key path ih =>
      rw [List.cons_append, at?_cons, at?_cons, Option.bind_assoc]
      congr 1
      funext w
      exact ih w

theorem exists_object_of_at?_concat {key : String} {path : List String} {v w : Json}
    (h : at? (path ++ [key]) v = some w) : ∃ members, at? path v = some (.object members) := by
  rw [at?_append] at h
  obtain ⟨x, hx, hlast⟩ := Option.bind_eq_some_iff.mp h
  obtain ⟨y, hy, -⟩ := Option.bind_eq_some_iff.mp hlast
  obtain ⟨members, rfl, -⟩ := exists_object_of_get? hy
  exact ⟨members, hx⟩

theorem exists_object_of_at? {key : String} {path : List String} {v w : Json}
    (h : at? (path ++ [key]) v = some w) : ∃ members, v = .object members := by
  cases path with
  | nil =>
      obtain ⟨x, hx, -⟩ := Option.bind_eq_some_iff.mp h
      obtain ⟨members, hv, -⟩ := exists_object_of_get? hx
      exact ⟨members, hv⟩
  | cons first path =>
      obtain ⟨x, hx, -⟩ := Option.bind_eq_some_iff.mp h
      obtain ⟨members, hv, -⟩ := exists_object_of_get? hx
      exact ⟨members, hv⟩

/-- What holds of an object if it holds of its members, and of what is no object, holds of all
values. -/
theorem induction_on_members {P : Json → Prop}
    (object : ∀ members, (∀ m ∈ members, P m.2) → P (.object members))
    (other : ∀ v, (∀ members, v ≠ .object members) → P v) : ∀ v, P v
  | .object members => object members fun m hm =>
      have hlt : sizeOf m.2 < sizeOf (Json.object members) := by
        have hlt := List.sizeOf_lt_of_mem hm
        obtain ⟨key, v⟩ := m
        simp only [Prod.mk.sizeOf_spec, Json.object.sizeOf_spec] at hlt ⊢
        omega
      induction_on_members object other m.2
  | .null => other _ nofun
  | .bool _ => other _ nofun
  | .number _ => other _ nofun
  | .string _ => other _ nofun
  | .array _ => other _ nofun
termination_by v => sizeOf v
decreasing_by exact hlt

variable {t s u v : Json} {below above members : List (String × Json)} {key : String}
  {path : List String}

/-! ### One level -/

theorem merge_object (below above : List (String × Json)) :
    merge (.object below) (.object above) = .object (mergeMembers below above) := by
  rw [merge]

theorem merge_of_other (h : ∀ members, s ≠ .object members) (t : Json) : merge t s = s := by
  cases s with
  | object members => exact absurd rfl (h members)
  | _ => cases t <;> rfl

theorem isNull_merge (t s : Json) : (merge t s).isNull = s.isNull := by
  cases s with
  | object above =>
      cases t with
      | object below =>
          rw [merge_object]
          rfl
      | _ => rfl
  | _ => rw [merge_of_other (by simp)]

theorem said?_eq_some : said? key members = some v ↔
    lookup key members = some v ∧ v.isNull = false := by
  simp [said?, Option.filter_eq_some_iff]

theorem isNull_eq_false : v.isNull = false ↔ v ≠ .null := by
  cases v <;> simp [isNull]

theorem said?_eq_none : said? key members = none ↔
    lookup key members = none ∨ lookup key members = some .null := by
  unfold said?
  cases lookup key members with
  | none => simp
  | some v => cases v <;> simp [Option.filter_some, isNull]

theorem ordered_mergeMembers (hbelow : Ordered below) (above : List (String × Json))
    (hmerge : ∀ m ∈ above, ∀ t, t.Sorted → (merge t m.2).Sorted)
    (habove : ∀ m ∈ above, m.2.Sorted) : Ordered (mergeMembers below above) := by
  induction above generalizing below with
  | nil => exact hbelow
  | cons m above ih =>
      obtain ⟨hm, hmerge⟩ := List.forall_mem_cons.mp hmerge
      obtain ⟨hv, habove⟩ := List.forall_mem_cons.mp habove
      rw [mergeMembers]
      split
      · exact ih hbelow hmerge habove
      · split
        · rename_i under hunder
          have hu : under.Sorted := membersSorted_iff.mp hbelow.2 _ (mem_of_lookup hunder)
          exact ih (hbelow.insert (hm under hu) _) hmerge habove
        · exact ih (hbelow.insert hv _) hmerge habove

theorem sorted_merge (ht : t.Sorted) (hs : s.Sorted) : (merge t s).Sorted := by
  induction s using induction_on_members generalizing t with
  | object above ih =>
      have habove : ∀ m ∈ above, m.2.Sorted := membersSorted_iff.mp hs.2
      cases t with
      | object below =>
          rw [merge_object]
          exact ordered_mergeMembers ht above (fun m hm t ht => ih m hm ht (habove m hm)) habove
      | _ => exact hs
  | other s hother =>
      rw [merge_of_other hother]
      exact hs

theorem ordered_merge (hbelow : Ordered below) (habove : Ordered above) :
    Ordered (mergeMembers below above) := by
  have hsorted := sorted_merge (t := .object below) (s := .object above) hbelow habove
  rwa [merge_object] at hsorted

/-! ### Laying a value over itself -/

theorem merge_self (hs : s.Sorted) : merge s s = s := by
  induction s using induction_on_members with
  | object members ih =>
      have hordered : Ordered members := hs
      rw [merge_object]
      refine congrArg Json.object (ext_lookup (ordered_merge hordered hordered).1 hordered.1 ?_)
      intro key
      rw [lookup_mergeMembers hordered.nodup]
      cases hsaid : said? key members with
      | none => cases lookup key members <;> rfl
      | some v =>
          obtain ⟨hv, -⟩ := said?_eq_some.mp hsaid
          rw [hv, Option.merge_some_some, ih _ (mem_of_lookup hv) (hordered.sorted_of_said? hsaid)]
  | other s hother => exact merge_of_other hother s

theorem merge_merge (ht : t.Sorted) (hs : s.Sorted) : merge (merge t s) s = merge t s := by
  induction s using induction_on_members generalizing t with
  | object above ih =>
      cases t with
      | object below =>
          have habove : Ordered above := hs
          have hmerged := ordered_merge ht habove
          rw [merge_object, merge_object]
          refine congrArg Json.object (ext_lookup (ordered_merge hmerged habove).1 hmerged.1 ?_)
          intro key
          rw [lookup_mergeMembers habove.nodup, lookup_mergeMembers habove.nodup]
          cases hsaid : said? key above with
          | none => cases lookup key below <;> rfl
          | some v =>
              obtain ⟨hv, -⟩ := said?_eq_some.mp hsaid
              have hsorted := habove.sorted_of_said? hsaid
              cases hbelow : lookup key below with
              | none => rw [Option.merge_none_left, Option.merge_some_some, merge_self hsorted]
              | some u =>
                  have hu : u.Sorted := membersSorted_iff.mp ht.2 _ (mem_of_lookup hbelow)
                  rw [Option.merge_some_some, Option.merge_some_some,
                    ih _ (mem_of_lookup hv) hu hsorted]
      | _ => exact merge_self hs
  | other s hother => rw [merge_of_other hother, merge_of_other hother]

/-! ### Members of a merged value -/

/-- At a key there is what is below if nothing is said of it above, and else that with what is said
laid over it. -/
theorem at?_merge (h : Ordered above) (below : List (String × Json)) (key : String)
    (path : List String) : at? (key :: path) (merge (.object below) (.object above)) =
      ((lookup key below).merge merge (said? key above)).bind (at? path) := by
  rw [merge_object, at?_cons, ← lookup_mergeMembers h.nodup]
  rfl

/-- What leads on to something that is not null is not null. -/
theorem said?_of_at? {w : Json} (hv : lookup key members = some v) (hw : at? path v = some w)
    (hnull : w ≠ .null) : said? key members = some v := by
  refine said?_eq_some.mpr ⟨hv, ?_⟩
  cases path with
  | nil =>
      obtain rfl := Option.some.inj hw
      exact isNull_eq_false.mpr hnull
  | cons key path =>
      obtain ⟨x, hx, -⟩ := Option.bind_eq_some_iff.mp hw
      obtain ⟨ms, rfl, -⟩ := exists_object_of_get? hx
      rfl

/-- A path comes, after objects only, to a key whose member is missing or null. -/
def Misses (path : List String) (s : Json) : Prop :=
  ∃ before key after members, path = before ++ key :: after ∧
    at? before s = some (.object members) ∧
    (lookup key members = none ∨ lookup key members = some .null)

theorem at?_merge_of_misses (hs : s.Sorted) (hmisses : Misses path s) (hv : at? path t = some v) :
    at? path (merge t s) = some v := by
  obtain ⟨before, key, after, members, rfl, hbefore, hmissing⟩ := hmisses
  induction before generalizing s t with
  | nil =>
      obtain rfl : s = .object members := Option.some.inj hbefore
      obtain ⟨w, hw, hafter⟩ := Option.bind_eq_some_iff.mp hv
      obtain ⟨below, rfl, hbelow⟩ := exists_object_of_get? hw
      rw [List.nil_append, at?_merge hs, said?_eq_none.mpr hmissing, hbelow]
      exact hafter
  | cons first before ih =>
      obtain ⟨x, hx, hrest⟩ := Option.bind_eq_some_iff.mp hbefore
      obtain ⟨above, rfl, habove⟩ := exists_object_of_get? hx
      obtain ⟨w, hw, hafter⟩ := Option.bind_eq_some_iff.mp hv
      obtain ⟨below, rfl, hbelow⟩ := exists_object_of_get? hw
      have hsaid : said? first above = some x := said?_of_at? habove hrest (by simp)
      rw [List.cons_append, at?_merge hs, hsaid, hbelow, Option.merge_some_some]
      exact ih (Ordered.sorted_of_said? hs hsaid) hafter hrest

/-- How the members of one object and those that are laid over them make the members of a merged
object. -/
structure Laid (below above members : List (String × Json)) : Prop where
  keys (key : String) : key ∈ members.map (·.1) ↔
    key ∈ below.map (·.1) ∨ ∃ v, lookup key above = some v ∧ v ≠ .null
  kept {key : String} : lookup key above = none ∨ lookup key above = some .null →
    lookup key members = lookup key below
  added {key : String} {v : Json} : lookup key below = none → lookup key above = some v →
    v ≠ .null → lookup key members = some v
  merged {key : String} {u v : Json} : lookup key below = some u → lookup key above = some v →
    v ≠ .null → lookup key members = some (merge u v)

theorem laid_mergeMembers (h : Ordered above) (below : List (String × Json)) :
    Laid below above (mergeMembers below above) := by
  have hlookup := lookup_mergeMembers h.nodup below
  refine ⟨fun key => ?_, fun {key} hmissing => ?_, fun {key v} hnone hv hnull => ?_,
    fun {key u v} hu hv hnull => ?_⟩
  · have hmem (ms : List (String × Json)) : key ∈ ms.map (·.1) ↔ lookup key ms ≠ none := by
      rw [Ne, lookup_eq_none_iff, Classical.not_not]
    have hsays : (∃ v, lookup key above = some v ∧ v ≠ .null) ↔ said? key above ≠ none := by
      rw [Option.ne_none_iff_exists']
      simp only [said?_eq_some, isNull_eq_false]
    rw [hmem, hmem, hsays, hlookup]
    cases lookup key below <;> cases said? key above <;> simp
  · rw [hlookup, said?_eq_none.mpr hmissing]
    cases lookup key below <;> rfl
  · rw [hlookup, hnone, said?_eq_some.mpr ⟨hv, isNull_eq_false.mpr hnull⟩]
    rfl
  · rw [hlookup, hu, said?_eq_some.mpr ⟨hv, isNull_eq_false.mpr hnull⟩]
    rfl

/-- What it is to lay a value over another one. -/
structure Overlays (t s : Json) : Prop where
  sorted : (merge t s).Sorted
  members {below above : List (String × Json)} : t = .object below → s = .object above →
    ∃ members, merge t s = .object members ∧ Laid below above members
  replaced : (¬ ∃ below above, t = .object below ∧ s = .object above) → merge t s = s
  again : merge (merge t s) s = merge t s
  itself : merge t t = t
  empty {below : List (String × Json)} : t = .object below → merge t (.object []) = t
  kept {path : List String} {v : Json} : Misses path s → at? path t = some v →
    at? path (merge t s) = some v

/-- One value laid over another one, of any depth, objects member by member. -/
theorem overlays_merge (ht : t.Sorted) (hs : s.Sorted) : Overlays t s where
  sorted := sorted_merge ht hs
  members := by
    rintro below above rfl rfl
    exact ⟨_, merge_object below above, laid_mergeMembers hs below⟩
  replaced hnot := by
    cases s with
    | object above => exact merge_of_ne_object (fun below h => hnot ⟨below, above, h, rfl⟩) _
    | _ => exact merge_of_other (by simp) t
  again := merge_merge ht hs
  itself := merge_self ht
  empty := by
    rintro below rfl
    rw [merge_object, mergeMembers]
  kept hmisses hv := at?_merge_of_misses hs hmisses hv

/-- An object whose members are changed, kept, put in and skipped, and one of them inside another
object. -/
theorem overlays_merge_of_nested :
    let below := Json.object [("a", .object [("b", .ofNat 1), ("c", .ofNat 2)]),
      ("d", .array [.ofNat 1, .ofNat 2])]
    let above := Json.object [("a", .object [("b", .null), ("c", .ofNat 3)]),
      ("d", .array [.ofNat 9]), ("e", .null), ("f", .bool true)]
    below.Sorted ∧ above.Sorted ∧ Overlays below above ∧ Misses ["a", "b"] above ∧
      merge below above = .object [("a", .object [("b", .ofNat 1), ("c", .ofNat 3)]),
        ("d", .array [.ofNat 9]), ("f", .bool true)] := by
  intro below above
  have hbelow : below.Sorted := by
    simp only [below, Sorted, MembersSorted, ItemsSorted, ofNat]
    decide
  have habove : above.Sorted := by
    simp only [above, Sorted, MembersSorted, ItemsSorted, ofNat]
    decide
  exact ⟨hbelow, habove, overlays_merge hbelow habove, ⟨["a"], "b", [], _, rfl, rfl, .inr rfl⟩, rfl⟩

/-! ### Values without nulls -/

theorem isNull_prune (v : Json) : (prune v).isNull = v.isNull := by
  cases v <;> rfl

theorem prune_of_other (h : ∀ members, v ≠ .object members) : prune v = v := by
  cases v with
  | object members => exact absurd rfl (h members)
  | _ => rfl

theorem lookup_pruneMembers (h : (members.map (·.1)).Nodup) (key : String) :
    lookup key (pruneMembers members) = (said? key members).map prune := by
  induction members with
  | nil => rfl
  | cons m members ih =>
      obtain ⟨k, v⟩ := m
      obtain ⟨hnew, h⟩ := List.nodup_cons.mp h
      by_cases hk : k = key
      · subst hk
        have hlater : said? k members = none :=
          said?_eq_none.mpr (.inl (lookup_eq_none_iff.mpr hnew))
        rw [said?, lookup, if_pos rfl, Option.filter_some, pruneMembers]
        cases hnull : v.isNull with
        | true => simp [ih h, hlater]
        | false => simp [lookup]
      · have hsame : said? key ((k, v) :: members) = said? key members := by
          simp [said?, lookup, hk]
        rw [hsame, ← ih h, pruneMembers]
        split
        · rfl
        · rw [lookup, if_neg hk]

theorem said?_pruneMembers (h : (members.map (·.1)).Nodup) (key : String) :
    said? key (pruneMembers members) = (said? key members).map prune := by
  rw [said?, lookup_pruneMembers h]
  cases hsaid : said? key members with
  | none => rfl
  | some v => simp [Option.filter_some, isNull_prune, (said?_eq_some.mp hsaid).2]

theorem mem_pruneMembers {m : String × Json} (h : m ∈ pruneMembers members) :
    ∃ v, (m.1, v) ∈ members ∧ m.2 = prune v := by
  induction members with
  | nil => cases h
  | cons a members ih =>
      obtain ⟨key, v⟩ := a
      have later (h : m ∈ pruneMembers members) :
          ∃ w, (m.1, w) ∈ (key, v) :: members ∧ m.2 = prune w :=
        (ih h).imp fun w hw => ⟨.tail _ hw.1, hw.2⟩
      rw [pruneMembers] at h
      split at h
      · exact later h
      · rcases List.mem_cons.mp h with rfl | h
        · exact ⟨v, .head _, rfl⟩
        · exact later h

theorem keys_pruneMembers (members : List (String × Json)) :
    ((pruneMembers members).map (·.1)).Sublist (members.map (·.1)) := by
  induction members with
  | nil => exact .slnil
  | cons m members ih =>
      obtain ⟨key, v⟩ := m
      rw [pruneMembers]
      split
      · exact ih.cons _
      · exact ih.cons_cons _

theorem sorted_prune (hs : s.Sorted) : (prune s).Sorted := by
  induction s using induction_on_members with
  | object members ih =>
      refine ⟨hs.1.sublist (keys_pruneMembers members), membersSorted_iff.mpr fun m hm => ?_⟩
      obtain ⟨v, hv, hm⟩ := mem_pruneMembers hm
      rw [hm]
      exact ih _ hv (membersSorted_iff.mp hs.2 _ hv)
  | other s hother =>
      rw [prune_of_other hother]
      exact hs

theorem at?_prune_ne (hs : s.Sorted) (path : List String) (key : String) :
    at? (path ++ [key]) (prune s) ≠ some .null := by
  induction path generalizing s with
  | nil =>
      intro h
      obtain ⟨v, hv, hnull⟩ := Option.bind_eq_some_iff.mp h
      obtain rfl : v = .null := Option.some.inj hnull
      cases s with
      | object members =>
          have hlookup := lookup_pruneMembers (Ordered.nodup hs) key
          obtain ⟨w, hw, hpruned⟩ := Option.map_eq_some_iff.mp (hlookup.symm.trans hv)
          have hnot := (said?_eq_some.mp hw).2
          rw [← isNull_prune, hpruned] at hnot
          cases hnot
      | _ => cases hv
  | cons first path ih =>
      intro h
      obtain ⟨v, hv, hrest⟩ := Option.bind_eq_some_iff.mp h
      cases s with
      | object members =>
          have hlookup := lookup_pruneMembers (Ordered.nodup hs) first
          obtain ⟨w, hw, rfl⟩ := Option.map_eq_some_iff.mp (hlookup.symm.trans hv)
          exact ih (Ordered.sorted_of_said? hs hw) hrest
      | _ => cases hv

theorem prune_eq_self (hs : s.Sorted)
    (clean : ∀ path key, at? (path ++ [key]) s ≠ some .null) : prune s = s := by
  induction s using induction_on_members with
  | object members ih =>
      have hordered : Ordered members := hs
      have hpruned : Ordered (pruneMembers members) := sorted_prune hs
      refine congrArg Json.object (ext_lookup hpruned.1 hordered.1 fun key => ?_)
      rw [lookup_pruneMembers hordered.nodup]
      cases hv : lookup key members with
      | none => rw [said?_eq_none.mpr (.inl hv), Option.map_none]
      | some v =>
          have hnull : v ≠ .null := by
            rintro rfl
            exact clean [] key (by simp [get?, hv])
          have hsaid := said?_eq_some.mpr ⟨hv, isNull_eq_false.mpr hnull⟩
          rw [hsaid, Option.map_some, ih _ (mem_of_lookup hv) (hordered.sorted_of_said? hsaid)]
          intro path last h
          exact clean (key :: path) last (by simpa [get?, hv] using h)
  | other s hother => exact prune_of_other hother

/-! ### Nulls in the upper value -/

/-- Each null member of the upper value is in an object that meets an object below. -/
def Shelters (t s : Json) : Prop :=
  ∀ path key, at? (path ++ [key]) s = some .null → ∃ members, at? path t = some (.object members)

theorem Shelters.member (h : Shelters (.object below) (.object above))
    (hu : lookup key below = some u) (hv : lookup key above = some v) : Shelters u v := by
  intro path last hnull
  obtain ⟨ms, hms⟩ := h (key :: path) last (by simpa [get?, hv] using hnull)
  exact ⟨ms, by simpa [get?, hu] using hms⟩

theorem Shelters.clean (h : Shelters (.object below) (.object above))
    (hnone : lookup key below = none) (hv : lookup key above = some v) (path : List String)
    (last : String) : at? (path ++ [last]) v ≠ some .null := by
  intro hnull
  obtain ⟨ms, hms⟩ := h (key :: path) last (by simpa [get?, hv] using hnull)
  simp [get?, hnone] at hms

theorem Shelters.clean_of_ne_object (h : Shelters t s) (ht : ∀ members, t ≠ .object members)
    (path : List String) (key : String) : at? (path ++ [key]) s ≠ some .null := by
  intro hnull
  obtain ⟨ms, hms⟩ := h path key hnull
  cases path with
  | nil => exact ht ms (Option.some.inj hms)
  | cons first path =>
      obtain ⟨v, hv, -⟩ := Option.bind_eq_some_iff.mp hms
      obtain ⟨members, rfl, -⟩ := exists_object_of_get? hv
      exact ht members rfl

/-- What is sheltered may be pruned before it is laid over. -/
theorem Shelters.merge_prune (h : Shelters t s) (ht : t.Sorted) (hs : s.Sorted) :
    merge t s = merge t (prune s) := by
  induction s using induction_on_members generalizing t with
  | object above ih =>
      cases t with
      | object below =>
          have habove : Ordered above := hs
          have hpruned : Ordered (pruneMembers above) := sorted_prune hs
          rw [prune, merge_object, merge_object]
          refine congrArg Json.object (ext_lookup (pairwise_keys_mergeMembers ht.1 _)
            (pairwise_keys_mergeMembers ht.1 _) fun key => ?_)
          rw [lookup_mergeMembers habove.nodup, lookup_mergeMembers hpruned.nodup,
            said?_pruneMembers habove.nodup]
          cases hsaid : said? key above with
          | none => rfl
          | some v =>
              obtain ⟨hv, -⟩ := said?_eq_some.mp hsaid
              have hsorted := habove.sorted_of_said? hsaid
              rw [Option.map_some]
              cases hbelow : lookup key below with
              | none => rw [prune_eq_self hsorted (h.clean hbelow hv)]
              | some u =>
                  have hu : u.Sorted := membersSorted_iff.mp ht.2 _ (mem_of_lookup hbelow)
                  rw [Option.merge_some_some, Option.merge_some_some,
                    ih _ (mem_of_lookup hv) (h.member hbelow hv) hu hsorted]
      | _ => rw [prune_eq_self hs (h.clean_of_ne_object (by simp))]
  | other s hother => rw [prune_of_other hother]

/-- A null member of a merged value comes from one of the two. -/
theorem null_of_merge (hs : s.Sorted) (hpath : path ≠ [])
    (h : at? path (merge t s) = some .null) :
    at? path t = some .null ∨ at? path s = some .null := by
  induction path generalizing t s with
  | nil => exact absurd rfl hpath
  | cons key path ih =>
      cases s with
      | object above =>
          cases t with
          | object below =>
              rw [at?_merge hs] at h
              simp only [at?_cons, get?]
              cases hsaid : said? key above with
              | none =>
                  rw [hsaid, Option.merge_none_right] at h
                  exact .inl h
              | some v =>
                  obtain ⟨hv, hnull⟩ := said?_eq_some.mp hsaid
                  rw [hsaid] at h
                  cases hu : lookup key below with
                  | none =>
                      rw [hu, Option.merge_none_left] at h
                      exact .inr (by rw [hv]; exact h)
                  | some u =>
                      rw [hu, Option.merge_some_some, Option.bind_some] at h
                      rw [hv, Option.bind_some, Option.bind_some]
                      cases path with
                      | nil =>
                          have hmerged : merge u v = .null := Option.some.inj h
                          rw [← isNull_merge u v, hmerged] at hnull
                          cases hnull
                      | cons first path =>
                          exact ih (Ordered.sorted_of_said? hs hsaid) (by simp) h
          | _ => exact .inr h
      | _ =>
          rw [merge_of_other (by simp)] at h
          exact .inr h

/-- A null member of the upper value that is in no object which meets one below comes with it. -/
theorem null_of_exposed (hs : s.Sorted) (hnull : at? (path ++ [key]) s = some .null)
    (exposed : ∀ members, at? path t ≠ some (.object members)) :
    at? (path ++ [key]) (merge t s) = some .null := by
  induction path generalizing t s with
  | nil =>
      have hother : ∀ members, t ≠ .object members := fun members h =>
        exposed members (congrArg some h)
      rw [merge_of_ne_object hother]
      exact hnull
  | cons first path ih =>
      obtain ⟨v, hv, hrest⟩ := Option.bind_eq_some_iff.mp hnull
      obtain ⟨above, rfl, habove⟩ := exists_object_of_get? hv
      obtain ⟨ms, rfl⟩ := exists_object_of_at? hrest
      have hsaid : said? first above = some (.object ms) := said?_eq_some.mpr ⟨habove, rfl⟩
      cases t with
      | object below =>
          rw [List.cons_append, at?_merge hs, hsaid]
          cases hu : lookup first below with
          | none => exact hrest
          | some u =>
              rw [Option.merge_some_some]
              refine ih (Ordered.sorted_of_said? hs hsaid) hrest fun members h => ?_
              exact exposed members (by simpa [get?, hu] using h)
      | _ => exact hnull

/-- Nulls in the upper value are skipped at every depth, as if it had been pruned before, exactly if
they are sheltered, and exactly if the result has no null member that is not below. -/
theorem merge_prune_iff (ht : t.Sorted) (hs : s.Sorted) :
    (merge t s = merge t (prune s) ↔ Shelters t s) ∧
      (Shelters t s ↔ ∀ path key, at? (path ++ [key]) (merge t s) = some .null →
        at? (path ++ [key]) t = some .null) := by
  have spares (heq : merge t s = merge t (prune s)) (path : List String) (key : String)
      (h : at? (path ++ [key]) (merge t s) = some .null) :
      at? (path ++ [key]) t = some .null := by
    rw [heq] at h
    rcases null_of_merge (sorted_prune hs) (by simp) h with hbelow | habove
    · exact hbelow
    · exact absurd habove (at?_prune_ne hs path key)
  have shelters (hspares : ∀ path key, at? (path ++ [key]) (merge t s) = some .null →
      at? (path ++ [key]) t = some .null) : Shelters t s := by
    intro path key hnull
    by_cases hobject : ∃ members, at? path t = some (.object members)
    · exact hobject
    · have exposed : ∀ members, at? path t ≠ some (.object members) := fun members h =>
        hobject ⟨members, h⟩
      -- Then the null would come with what is put in, though there is nothing like it below.
      exact exists_object_of_at?_concat (hspares path key (null_of_exposed hs hnull exposed))
  exact ⟨⟨fun heq => shelters (spares heq), fun h => h.merge_prune ht hs⟩,
    ⟨fun h => spares (h.merge_prune ht hs), shelters⟩⟩

/-- A null in an object that meets one below. -/
theorem merge_prune_iff_of_sheltered :
    let below := Json.object [("a", .object [("b", .ofNat 1)])]
    let above := Json.object [("a", .object [("b", .null), ("c", .null)]), ("d", .null)]
    below.Sorted ∧ above.Sorted ∧ merge below above = below ∧
      merge below above = merge below (prune above) ∧ Shelters below above ∧
      ∀ path key, at? (path ++ [key]) (merge below above) = some .null →
        at? (path ++ [key]) below = some .null := by
  intro below above
  have hbelow : below.Sorted := by
    simp only [below, Sorted, MembersSorted, ofNat]
    decide
  have habove : above.Sorted := by
    simp only [above, Sorted, MembersSorted]
    decide
  obtain ⟨hpruned, hspares⟩ := merge_prune_iff hbelow habove
  have heq : merge below above = merge below (prune above) := rfl
  exact ⟨hbelow, habove, rfl, heq, hpruned.mp heq, hspares.mp (hpruned.mp heq)⟩

/-- A null in an object that is put in as a whole is not skipped, and there is none below. -/
theorem not_pruned_of_inserted :
    (¬ ∀ (t : Json) (above : List (String × Json)), t.Sorted → (Json.object above).Sorted →
      merge t (.object above) = merge t (prune (.object above))) ∧
    ¬ ∀ (t : Json) (above : List (String × Json)), t.Sorted → (Json.object above).Sorted →
      ∀ path key, at? (path ++ [key]) (merge t (.object above)) = some .null →
        at? (path ++ [key]) t = some .null := by
  have hbelow : (Json.object []).Sorted := ⟨.nil, trivial⟩
  have habove : (Json.object [("a", .object [("b", .null)])]).Sorted := by
    simp only [Sorted, MembersSorted]
    decide
  refine ⟨fun hall => ?_, fun hall => ?_⟩
  · have heq := congrArg (at? ["a", "b"]) (hall _ _ hbelow habove)
    have hnull : some Json.null = none := heq
    cases hnull
  · have hnull : none = some Json.null := hall _ _ hbelow habove ["a"] "b" rfl
    cases hnull

end PreviewDeploy.Json
