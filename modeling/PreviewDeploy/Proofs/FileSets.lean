import Mathlib.Data.List.Basic
import Mathlib.Data.List.Induction
import PreviewDeploy.Selection

/-!
# File sets as finite maps

A file set that was built by `FileSet.upsert` is a map from paths to files: its index and its files
agree (`FileSet.Indexed`), so it has one file a path.  A set of a list of files has of each path
the last one of the list (`FileSet.mem_toList_ofList`), and so a selection is described by the last
candidates that are not read-only (`Selection.mem_files_iff`).

The paths of a set stand in the order in which they first came (`FileSet.paths_ofList`).  Together
with the files that they lead to this determines the whole list (`FileSet.toList_ofList`), so
leaving paths out before or after the repeats are collapsed comes to the same
(`FileSet.toList_ofList_filter`).
-/

namespace PreviewDeploy

/-! ### First occurrences -/

section FirstOccurrences

variable {α : Type} [DecidableEq α]

/-- One more entry at the end counts if it is a new one. -/
theorem eraseDups_concat (l : List α) (a : α) :
    (l ++ [a]).eraseDups = if a ∈ l then l.eraseDups else l.eraseDups ++ [a] := by
  rw [List.eraseDups_append]
  by_cases h : a ∈ l
  · simp [List.removeAll, h]
  · simp [List.removeAll, h, List.eraseDups_cons]

/-- The entries without repeats stand in the order of their first places. -/
theorem pairwise_idxOf_eraseDups (l : List α) :
    l.eraseDups.Pairwise fun a b => l.idxOf a < l.idxOf b := by
  induction l using List.reverseRecOn with
  | nil => simp
  | append_singleton l a ih =>
      have hkept : l.eraseDups.Pairwise fun b c => (l ++ [a]).idxOf b < (l ++ [a]).idxOf c := by
        refine ih.imp_of_mem fun hb hc hlt => ?_
        rw [List.mem_eraseDups] at hb hc
        rwa [List.idxOf_append_of_mem hb, List.idxOf_append_of_mem hc]
      rw [eraseDups_concat]
      split
      · exact hkept
      · rename_i hnew
        rw [List.pairwise_append]
        refine ⟨hkept, List.pairwise_singleton _ _, fun b hb c hc => ?_⟩
        obtain rfl := List.mem_singleton.mp hc
        rw [List.mem_eraseDups] at hb
        rw [List.idxOf_append_of_mem hb, List.idxOf_append_of_notMem hnew]
        have hlt := List.idxOf_lt_length_of_mem hb
        omega

/-- To leave entries out before or after the repeats comes to the same. -/
theorem eraseDups_filter (p : α → Bool) (l : List α) :
    (l.filter p).eraseDups = l.eraseDups.filter p := by
  induction l using List.reverseRecOn with
  | nil => simp
  | append_singleton l a ih =>
      rw [List.filter_append, eraseDups_concat]
      cases hp : p a with
      | false => by_cases h : a ∈ l <;> simp [hp, h, ih]
      | true =>
          have hone : [a].filter p = [a] := by simp [hp]
          rw [hone, eraseDups_concat]
          by_cases h : a ∈ l <;> simp [hp, h, ih]

end FirstOccurrences

/-! ### The files of paths -/

/-- The last file of a list that has a path. -/
def lastAt (path : String) (fs : List File) : Option File := fs.reverse.find? (·.path = path)

theorem lastAt_cons (path : String) (f : File) (fs : List File) :
    lastAt path (f :: fs) = (lastAt path fs).or (if f.path = path then some f else none) := by
  unfold lastAt
  rw [List.reverse_cons, List.find?_append]
  by_cases h : f.path = path <;> simp [h]

theorem path_of_lastAt {path : String} {f : File} {fs : List File} (h : lastAt path fs = some f) :
    f.path = path := by
  simpa using List.find?_some h

theorem exists_lastAt {f : File} {fs : List File} (h : f ∈ fs) :
    ∃ g, lastAt f.path fs = some g := by
  refine Option.isSome_iff_exists.mp (List.find?_isSome.mpr ⟨f, List.mem_reverse.mpr h, ?_⟩)
  simp

theorem lastAt_filter {p : String → Bool} {path : String} {f : File} {fs : List File} :
    lastAt path (fs.filter fun g => p g.path) = some f ↔
      p path = true ∧ lastAt path fs = some f := by
  unfold lastAt
  rw [← List.filter_reverse, List.find?_filter]
  cases hp : p path with
  | true =>
      simp only [true_and]
      have hsame : (fun g : File => decide (p g.path = true ∧ decide (g.path = path) = true)) =
          fun g => decide (g.path = path) := by
        funext g
        by_cases h : g.path = path <;> simp [h, hp]
      rw [hsame]
  | false =>
      simp only [Bool.false_eq_true, false_and, iff_false]
      intro h
      have := List.find?_some h
      simp only [decide_eq_true_eq] at this
      rw [this.2, hp] at this
      simp at this

/-- To leave paths out leaves the last files of the others. -/
theorem lastAt_filter_eq (p : String → Bool) (path : String) (fs : List File) :
    lastAt path (fs.filter fun f => p f.path) = if p path then lastAt path fs else none := by
  refine Option.ext fun f => ?_
  rw [lastAt_filter]
  by_cases h : p path = true <;> simp [h]

namespace FileSet

variable {s : FileSet} {f g : File} {path : String}

/-- The index says of each path at which position it stands, and it stands at no other one. -/
structure Indexed (s : FileSet) : Prop where
  sound : ∀ (path : String) (i : Nat), s.index[path]? = some i →
    ∃ f, s.files[i]? = some f ∧ f.path = path
  complete : ∀ (i : Nat) (f : File), s.files[i]? = some f → s.index[f.path]? = some i

theorem indexed_empty : empty.Indexed := by
  constructor <;> simp [empty]

theorem Indexed.path_eq (hs : s.Indexed) {path' : String} {i : Nat}
    (hi : s.index[path]? = some i) (hi' : s.index[path']? = some i) : path = path' := by
  obtain ⟨f, hf, rfl⟩ := hs.sound path i hi
  obtain ⟨g, hg, rfl⟩ := hs.sound path' i hi'
  rw [Option.some.inj (hf.symm.trans hg)]

theorem Indexed.upsert (hs : s.Indexed) (f : File) : (s.upsert f).Indexed := by
  unfold FileSet.upsert
  cases hi : s.index[f.path]? with
  | some i =>
      obtain ⟨old, hold, -⟩ := hs.sound f.path i hi
      have hlt : i < s.files.size := (Array.getElem?_eq_some_iff.mp hold).1
      refine ⟨fun path j hj => ?_, fun j g hg => ?_⟩
      · by_cases hij : i = j
        · subst hij
          exact ⟨f, by simp [hlt], hs.path_eq hi hj⟩
        · obtain ⟨g, hg, hgpath⟩ := hs.sound path j hj
          exact ⟨g, by simp [hij, hg], hgpath⟩
      · simp only [Array.getElem?_setIfInBounds] at hg
        split at hg
        · rename_i hij
          subst hij
          obtain rfl := Option.some.inj hg
          exact hi
        · exact hs.complete j g hg
  | none =>
      refine ⟨fun path j hj => ?_, fun j g hg => ?_⟩
      · simp only [Std.HashMap.getElem?_insert, beq_iff_eq] at hj
        split at hj
        · rename_i hpath
          obtain rfl := Option.some.inj hj
          exact ⟨f, by simp, hpath⟩
        · obtain ⟨g, hg, hgpath⟩ := hs.sound path j hj
          have hlt : j < s.files.size := (Array.getElem?_eq_some_iff.mp hg).1
          exact ⟨g, by rw [Array.getElem?_push_lt hlt, ← hg, Array.getElem?_eq_getElem hlt], hgpath⟩
      · rw [Array.getElem?_push] at hg
        simp only [Std.HashMap.getElem?_insert, beq_iff_eq]
        split at hg
        · rename_i hj
          obtain rfl := Option.some.inj hg
          rw [if_pos rfl, hj]
        · -- A path that stands in the set already is another one.
          have hold := hs.complete j g hg
          have hne : f.path ≠ g.path := by
            intro heq
            rw [heq, hold] at hi
            cases hi
          rw [if_neg hne, hold]

/-- A file that is put in takes the place of the one with its path. -/
theorem Indexed.get?_upsert (hs : s.Indexed) (f : File) (path : String) :
    (s.upsert f).get? path = if f.path = path then some f else s.get? path := by
  unfold FileSet.upsert get?
  cases hi : s.index[f.path]? with
  | some i =>
      obtain ⟨old, hold, -⟩ := hs.sound f.path i hi
      have hlt : i < s.files.size := (Array.getElem?_eq_some_iff.mp hold).1
      by_cases hpath : f.path = path
      · subst hpath
        simp [hi, hlt]
      · simp only [if_neg hpath]
        cases hj : s.index[path]? with
        | none => rfl
        | some j =>
            have hij : i ≠ j := fun h => hpath (hs.path_eq hi (h ▸ hj))
            simp [hij]
  | none =>
      by_cases hpath : f.path = path
      · subst hpath
        simp
      · simp only [Std.HashMap.getElem?_insert, beq_iff_eq, if_neg hpath]
        cases hj : s.index[path]? with
        | none => rfl
        | some j =>
            obtain ⟨g, hg, -⟩ := hs.sound path j hj
            have hlt : j < s.files.size := (Array.getElem?_eq_some_iff.mp hg).1
            simp [Array.getElem?_push_lt hlt, Array.getElem?_eq_getElem hlt]

theorem Indexed.mem_toList (hs : s.Indexed) : f ∈ s.toList ↔ s.get? f.path = some f := by
  rw [toList, Array.mem_toList_iff, Array.mem_iff_getElem?]
  constructor
  · rintro ⟨i, hi⟩
    simp [get?, hs.complete i f hi, hi]
  · intro h
    unfold get? at h
    split at h
    · rename_i i hi
      exact ⟨i, h⟩
    · cases h

theorem Indexed.nodup_paths (hs : s.Indexed) : (s.toList.map (·.path)).Nodup := by
  rw [List.nodup_iff_pairwise_ne, List.pairwise_map, List.pairwise_iff_getElem]
  intro i j hi hj hlt heq
  have hi' : s.files[i]? = some s.toList[i] := by simp [toList]
  have hj' : s.files[j]? = some s.toList[j] := by simp [toList]
  have hsame := hs.complete i _ hi'
  rw [heq, hs.complete j _ hj', Option.some.injEq] at hsame
  omega

theorem upsertAll_nil (s : FileSet) : s.upsertAll [] = s := rfl

theorem upsertAll_append (s : FileSet) (fs gs : List File) :
    s.upsertAll (fs ++ gs) = (s.upsertAll fs).upsertAll gs :=
  List.foldl_append

theorem Indexed.upsertAll (hs : s.Indexed) (fs : List File) : (s.upsertAll fs).Indexed := by
  induction fs generalizing s with
  | nil => exact hs
  | cons f fs ih => exact ih (hs.upsert f)

/-- Of the files that are put in with a path the last one stays. -/
theorem Indexed.get?_upsertAll (hs : s.Indexed) (fs : List File) (path : String) :
    (s.upsertAll fs).get? path = (lastAt path fs).or (s.get? path) := by
  induction fs generalizing s with
  | nil => rfl
  | cons f fs ih =>
      have hstep : (s.upsertAll (f :: fs)).get? path = ((s.upsert f).upsertAll fs).get? path := rfl
      rw [hstep, ih (hs.upsert f), hs.get?_upsert, lastAt_cons, Option.or_assoc]
      by_cases h : f.path = path <;> simp [h]

theorem indexed_ofList (fs : List File) : (ofList fs).Indexed := indexed_empty.upsertAll fs

theorem get?_ofList (fs : List File) (path : String) : (ofList fs).get? path = lastAt path fs := by
  have hnone : empty.get? path = none := by simp [get?, empty]
  rw [ofList, indexed_empty.get?_upsertAll, hnone, Option.or_none]

theorem mem_toList_ofList {fs : List File} :
    f ∈ (ofList fs).toList ↔ lastAt f.path fs = some f := by
  rw [(indexed_ofList fs).mem_toList, get?_ofList]

/-! ### The order of the paths -/

/-- The paths of a set, in their order. -/
def paths (s : FileSet) : List String := s.toList.map (·.path)

theorem Indexed.mem_paths (hs : s.Indexed) : path ∈ s.paths ↔ ∃ i, s.index[path]? = some i := by
  simp only [paths, toList, List.mem_map, Array.mem_toList_iff, Array.mem_iff_getElem?]
  constructor
  · rintro ⟨f, ⟨i, hi⟩, rfl⟩
    exact ⟨i, hs.complete i f hi⟩
  · rintro ⟨i, hi⟩
    obtain ⟨f, hf, hpath⟩ := hs.sound path i hi
    exact ⟨f, ⟨i, hf⟩, hpath⟩

/-- A file that is put in keeps the place of its path, or comes last. -/
theorem Indexed.paths_upsert (hs : s.Indexed) (f : File) :
    (s.upsert f).paths = if f.path ∈ s.paths then s.paths else s.paths ++ [f.path] := by
  have hmem : f.path ∈ s.paths ↔ ∃ i, s.index[f.path]? = some i := hs.mem_paths
  unfold FileSet.upsert
  cases hi : s.index[f.path]? with
  | some i =>
      rw [if_pos (hmem.mpr ⟨i, hi⟩)]
      obtain ⟨old, hold, hpath⟩ := hs.sound f.path i hi
      have hsame : (s.files.toList.set i f).map (·.path) = s.files.toList.map (·.path) := by
        refine List.ext_getElem? fun j => ?_
        by_cases hij : i = j
        · subst hij
          have hlt : i < s.files.size := (Array.getElem?_eq_some_iff.mp hold).1
          have hpath' : s.files[i].path = f.path := by
            rw [← hpath, (Array.getElem?_eq_some_iff.mp hold).2]
          simp [hlt, hpath']
        · simp [hij]
      simpa [paths, toList] using hsame
  | none =>
      have hnew : f.path ∉ s.paths := by
        rw [hmem, hi]
        simp
      rw [if_neg hnew]
      simp [paths, toList]

/-- The paths of a set keep their places, and the new ones follow in the order in which they first
come. -/
theorem Indexed.paths_upsertAll (hs : s.Indexed) (fs : List File) :
    (s.upsertAll fs).paths =
      s.paths ++ ((fs.map (·.path)).filter fun path => path ∉ s.paths).eraseDups := by
  induction fs using List.reverseRecOn with
  | nil => simp [upsertAll_nil]
  | append_singleton fs f ih =>
      have hstep : s.upsertAll (fs ++ [f]) = (s.upsertAll fs).upsert f := upsertAll_append s fs [f]
      rw [hstep, (hs.upsertAll fs).paths_upsert, ih, List.map_append, List.filter_append]
      by_cases hold : f.path ∈ s.paths
      · simp [hold]
      · have hone : ([f].map (·.path)).filter (fun path => decide (path ∉ s.paths)) = [f.path] := by
          simp [hold]
        rw [hone, eraseDups_concat]
        simp only [List.mem_append, List.mem_eraseDups, hold, false_or]
        split
        · rfl
        · rw [List.append_assoc]

/-- The paths of a set stand in the order in which they first came. -/
theorem paths_ofList (fs : List File) : (ofList fs).paths = (fs.map (·.path)).eraseDups := by
  have hnone : empty.paths = [] := rfl
  rw [ofList, indexed_empty.paths_upsertAll, hnone]
  simp

theorem Indexed.toList_eq (hs : s.Indexed) : s.toList = s.paths.filterMap s.get? := by
  rw [paths, List.filterMap_map]
  conv_lhs => rw [← List.filterMap_some (l := s.toList)]
  refine List.filterMap_congr fun f hf => ?_
  exact (hs.mem_toList.mp hf).symm

/-- The set of some files has the last file of each path, in the order of the first ones. -/
theorem toList_ofList (fs : List File) :
    (ofList fs).toList = (fs.map (·.path)).eraseDups.filterMap fun path => lastAt path fs := by
  rw [(indexed_ofList fs).toList_eq, paths_ofList]
  exact List.filterMap_congr fun path _ => get?_ofList fs path

/-- To leave paths out before or after the repeats are collapsed comes to the same. -/
theorem toList_ofList_filter (p : String → Bool) (fs : List File) :
    (ofList (fs.filter fun f => p f.path)).toList =
      (ofList fs).toList.filter fun f => p f.path := by
  have hpaths : (fs.filter fun f => p f.path).map (·.path) = (fs.map (·.path)).filter p := by
    rw [List.filter_map]
    rfl
  rw [toList_ofList, toList_ofList, hpaths, eraseDups_filter, List.filterMap_filter,
    List.filter_filterMap]
  refine List.filterMap_congr fun path _ => ?_
  rw [lastAt_filter_eq]
  cases hlast : lastAt path fs with
  | none => simp
  | some f => simp [Option.filter_some, path_of_lastAt hlast]

end FileSet

/-- A template without file sets: its files can be computed. -/
theorem Project.ofTemplate_eq (fs : List File) : Project.ofTemplate fs =
    { template :=
        { files := ((fs.map (·.path)).eraseDups.filterMap fun path => lastAt path fs).toArray
          index := (FileSet.ofList fs).index } } := by
  have hfiles := congrArg List.toArray (FileSet.toList_ofList fs)
  rw [FileSet.toList, Array.toArray_toList] at hfiles
  rw [← hfiles]
  rfl

/-! ### Selections -/

namespace Selection

variable {policy : ReadOnly.Policy} {requested : List File} {fresh : Bool} {project : Project}

theorem mem_files_iff {f : File} :
    f ∈ (select policy requested fresh project).files ↔ policy.isReadOnly f.path = false ∧
      lastAt f.path (candidates requested fresh project) = some f := by
  have hfilter : lastAt f.path ((candidates requested fresh project).filter fun g =>
      !policy.isReadOnly g.path) = some f ↔ _ :=
    lastAt_filter (p := fun path => !policy.isReadOnly path)
  rw [Bool.not_eq_true'] at hfilter
  rw [← hfilter]
  exact FileSet.mem_toList_ofList

/-- A selection without file sets: what is selected and left out can be computed from that. -/
theorem ofCandidates_eq (policy : ReadOnly.Policy) (candidates : List File) :
    ofCandidates policy candidates =
      let kept := candidates.filter fun f => !policy.isReadOnly f.path
      { files := (kept.map (·.path)).eraseDups.filterMap fun path => lastAt path kept
        dropped := candidates.filter fun f => policy.isReadOnly f.path } := by
  simp only [ofCandidates, FileSet.toList_ofList]

theorem nodup_paths (policy : ReadOnly.Policy) (requested : List File) (fresh : Bool)
    (project : Project) : ((select policy requested fresh project).files.map (·.path)).Nodup :=
  (FileSet.indexed_ofList _).nodup_paths

end Selection

end PreviewDeploy
