import PreviewDeploy.Proofs.Selections

/-!
# The files of a project

A project lays one file set over another: the generated files over those of the template.  Each of
the two is known from the files that were put into it (`FileSet.toList_ofList`).  A set into which
another one is put keeps its paths in their places, and the new ones follow
(`FileSet.Indexed.paths_upsertAll`); files that were put in already change nothing
(`FileSet.Indexed.upsertAll_upsertAll`).
-/

namespace PreviewDeploy

theorem eraseDups_of_nodup {α : Type} [DecidableEq α] {l : List α} (h : l.Nodup) :
    l.eraseDups = l := by
  induction l using List.reverseRecOn with
  | nil => rfl
  | append_singleton l a ih =>
      rw [List.nodup_append] at h
      obtain ⟨hl, -, hne⟩ := h
      have hnew : a ∉ l := fun ha => hne a ha a (List.mem_singleton.mpr rfl) rfl
      rw [eraseDups_concat, if_neg hnew, ih hl]

theorem mem_of_lastAt {path : String} {f : File} {fs : List File} (h : lastAt path fs = some f) :
    f ∈ fs :=
  List.mem_reverse.mp (List.mem_of_find?_eq_some h)

namespace FileSet

variable {s t : FileSet} {f : File} {path : String}

theorem ext_files (hfiles : s.files = t.files) (hindex : s.index = t.index) : s = t := by
  cases s
  cases t
  congr

theorem Indexed.path_of_get? (hs : s.Indexed) (h : s.get? path = some f) : f.path = path := by
  unfold get? at h
  split at h
  · rename_i i hi
    obtain ⟨g, hg, hpath⟩ := hs.sound path i hi
    rwa [← Option.some.inj (hg.symm.trans h)]
  · cases h

theorem Indexed.isSome_get? (hs : s.Indexed) (path : String) :
    (s.get? path).isSome = s.contains path := by
  unfold get? contains
  rw [Std.HashMap.contains_eq_isSome_getElem?]
  cases hi : s.index[path]? with
  | none => rfl
  | some i =>
      obtain ⟨f, hf, -⟩ := hs.sound path i hi
      simp [hf]

/-- The files of a set have one file a path, so the last one is the one. -/
theorem Indexed.lastAt_toList (hs : s.Indexed) (path : String) :
    lastAt path s.toList = s.get? path := by
  have hsound : ∀ f, lastAt path s.toList = some f → s.get? path = some f := by
    intro f hf
    rw [← path_of_lastAt hf]
    exact hs.mem_toList.mp (mem_of_lastAt hf)
  cases hlast : lastAt path s.toList with
  | some f => exact (hsound f hlast).symm
  | none =>
      cases hget : s.get? path with
      | none => rfl
      | some f =>
          have hpath := hs.path_of_get? hget
          have hmem : f ∈ s.toList := by rwa [hs.mem_toList, hpath]
          obtain ⟨g, hg⟩ := exists_lastAt hmem
          rw [hpath, hlast] at hg
          cases hg

/-! ### More files into a set -/

theorem Indexed.mem_paths_upsertAll (hs : s.Indexed) {fs : List File} :
    path ∈ (s.upsertAll fs).paths ↔ path ∈ s.paths ∨ path ∈ fs.map (·.path) := by
  rw [hs.paths_upsertAll, List.mem_append, List.mem_eraseDups, List.mem_filter,
    decide_eq_true_eq]
  tauto

theorem Indexed.index_upsertAll (hs : s.Indexed) {fs : List File}
    (hold : ∀ f ∈ fs, f.path ∈ s.paths) : (s.upsertAll fs).index = s.index := by
  induction fs generalizing s with
  | nil => rfl
  | cons f fs ih =>
      obtain ⟨hf, hfs⟩ := List.forall_mem_cons.mp hold
      have hindex : (s.upsert f).index = s.index := by
        obtain ⟨i, hi⟩ := hs.mem_paths.mp hf
        unfold FileSet.upsert
        rw [hi]
      have hpaths : (s.upsert f).paths = s.paths := by rw [hs.paths_upsert, if_pos hf]
      exact (ih (hs.upsert f) fun g hg => hpaths ▸ hfs g hg).trans hindex

theorem Indexed.files_eq (hs : s.Indexed) (ht : t.Indexed) (hpaths : s.paths = t.paths)
    (hget : s.get? = t.get?) : s.files = t.files := by
  have hlist : s.toList = t.toList := by rw [hs.toList_eq, ht.toList_eq, hpaths, hget]
  exact Array.toList_inj.mp hlist

theorem Indexed.upsertAll_upsertAll (hs : s.Indexed) (fs : List File) :
    (s.upsertAll fs).upsertAll fs = s.upsertAll fs := by
  have hone := hs.upsertAll fs
  have hold : ∀ f ∈ fs, f.path ∈ (s.upsertAll fs).paths := fun f hf =>
    hs.mem_paths_upsertAll.mpr (.inr (List.mem_map_of_mem hf))
  have hpaths : ((s.upsertAll fs).upsertAll fs).paths = (s.upsertAll fs).paths := by
    have hnone : (fs.map (·.path)).filter (fun path => decide (path ∉ (s.upsertAll fs).paths)) =
        [] := by
      simpa using hold
    rw [hone.paths_upsertAll, hnone]
    simp
  have hget : ((s.upsertAll fs).upsertAll fs).get? = (s.upsertAll fs).get? := by
    funext path
    rw [hone.get?_upsertAll, hs.get?_upsertAll, ← Option.or_assoc, Option.or_self]
  have hfiles := (hone.upsertAll fs).files_eq hone hpaths hget
  exact ext_files hfiles (hone.index_upsertAll hold)

end FileSet

namespace Project

/-- Records batches of generated files, in turn. -/
def recordAll (p : Project) (batches : List (List File)) : Project := batches.foldl record p

/-- The files of a template under those that were recorded, in turn. -/
structure Overlays (template recorded files : List File) : Prop where
  /-- First the paths of the template in the order in which they first came, then the others in the
  order in which they were first recorded. -/
  paths : files.map (·.path) = (template.map (·.path)).eraseDups ++
    (recorded.map (·.path)).eraseDups.filter fun path => path ∉ template.map (·.path)
  /-- No path stands there twice. -/
  nodup : (files.map (·.path)).Nodup
  /-- A recorded path has the file recorded last, any other the last one of the template. -/
  last : ∀ f ∈ files,
    some f = if f.path ∈ recorded.map (·.path) then lastAt f.path recorded
      else lastAt f.path template

theorem record_record (p : Project) (fs gs : List File) :
    (p.record fs).record gs = p.record (fs ++ gs) := by
  simp only [record, FileSet.upsertAll_append]

theorem recordAll_eq (p : Project) (batches : List (List File)) :
    p.recordAll batches = p.record batches.flatten := by
  induction batches generalizing p with
  | nil => rfl
  | cons fs batches ih =>
      rw [List.flatten_cons, ← record_record]
      exact ih (p.record fs)

/-- A project is known from its template and from all that was recorded. -/
theorem recordAll_ofTemplate (template : List File) (batches : List (List File)) :
    (ofTemplate template).recordAll batches =
      ⟨FileSet.ofList template, FileSet.ofList batches.flatten⟩ := by
  rw [recordAll_eq]
  rfl

variable (template recorded : List File)

theorem overlays_allFiles : Overlays template recorded
    (allFiles ⟨FileSet.ofList template, FileSet.ofList recorded⟩) := by
  have hbase := FileSet.indexed_ofList template
  have hlaid := FileSet.indexed_ofList recorded
  have hbasePaths := FileSet.paths_ofList template
  have hlaidPaths := FileSet.paths_ofList recorded
  have hmerged := hbase.upsertAll (FileSet.ofList recorded).toList
  refine ⟨?_, hmerged.nodup_paths, fun f hf => ?_⟩
  · have hpaths := hbase.paths_upsertAll (FileSet.ofList recorded).toList
    have hadded : ((FileSet.ofList recorded).paths.filter fun path =>
        path ∉ (FileSet.ofList template).paths).Nodup := hlaid.nodup_paths.filter _
    rw [← FileSet.paths, eraseDups_of_nodup hadded, hbasePaths, hlaidPaths] at hpaths
    simp only [List.mem_eraseDups] at hpaths
    exact hpaths
  · have hget := hmerged.mem_toList.mp hf
    rw [hbase.get?_upsertAll, hlaid.lastAt_toList, FileSet.get?_ofList, FileSet.get?_ofList]
      at hget
    rw [← hget]
    split
    · rename_i hrecorded
      obtain ⟨g, hg, hpath⟩ := List.mem_map.mp hrecorded
      obtain ⟨last, hlast⟩ := exists_lastAt hg
      rw [← hpath, hlast, Option.some_or]
    · rename_i hrecorded
      have hnone : lastAt f.path recorded = none := by
        refine Option.eq_none_iff_forall_ne_some.mpr fun g hg => hrecorded ?_
        exact path_of_lastAt hg ▸ List.mem_map_of_mem (mem_of_lastAt hg)
      rw [hnone, Option.none_or]

/-- Whatever was put into a file set in turn, its index leads from each path to the one position at
which it stands, and no look-up leads out of the files.  So whatever was recorded over a template,
the files of the project are the template's in their order, with what was recorded last in place of
a recorded path, and after them the other recorded ones; and to record once more what was recorded
last changes nothing. -/
theorem overlaid_of_batches :
    (∀ fs : List File, (FileSet.ofList fs).Indexed ∧ (FileSet.ofList fs).paths.Nodup ∧
      ∀ path, ((FileSet.ofList fs).get? path).isSome = (FileSet.ofList fs).contains path) ∧
    ∀ (template : List File) (batches : List (List File)),
      let p := (ofTemplate template).recordAll batches
      Overlays template batches.flatten p.allFiles ∧
      (∀ path, path ∈ p.generatedPaths ↔ path ∈ batches.flatten.map (·.path)) ∧
      (∀ fs gs, (p.record fs).record gs = p.record (fs ++ gs)) ∧
      ∀ fs, (p.record fs).record fs = p.record fs := by
  refine ⟨fun fs => ?_, fun template batches => ?_⟩
  · have hfs := FileSet.indexed_ofList fs
    exact ⟨hfs, hfs.nodup_paths, hfs.isSome_get?⟩
  · have hp := recordAll_ofTemplate template batches
    refine ⟨?_, fun path => ?_, record_record _, fun fs => ?_⟩
    · rw [hp]
      exact overlays_allFiles template batches.flatten
    · have hpaths := FileSet.paths_ofList batches.flatten
      rw [hp, ← List.mem_eraseDups (l := batches.flatten.map _), ← hpaths]
      rfl
    · rw [hp]
      simp only [record, (FileSet.indexed_ofList batches.flatten).upsertAll_upsertAll fs]

end Project

end PreviewDeploy
