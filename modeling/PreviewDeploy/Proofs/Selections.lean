import PreviewDeploy.Proofs.Counters
import PreviewDeploy.Proofs.FileSets

/-!
# What is selected

A selection is one pass over its candidates.  `Selection.gather` is that pass for any judgement of
paths and any list of all files, and `Selection.Collapses` is what is selected and left out in it.
-/

namespace PreviewDeploy

namespace Selection

/-- The pass over some candidates, with any judgement of paths. -/
def gather (readOnly : String → Bool) (candidates : List File) : Selection where
  files := (FileSet.ofList (candidates.filter fun f => !readOnly f.path)).toList
  dropped := candidates.filter fun f => readOnly f.path

/-- What a selection has of its candidates. -/
structure Collapses (readOnly : String → Bool) (candidates : List File) (s : Selection) :
    Prop where
  /-- A candidate path that is not read-only is selected once, and no other path is. -/
  count_path : ∀ path, (s.files.map (·.path)).count path =
    if path ∈ candidates.map (·.path) ∧ readOnly path = false then 1 else 0
  /-- The files stand in the order of the first candidates with their paths. -/
  ordered : s.files.Pairwise fun f g =>
    (candidates.map (·.path)).idxOf f.path < (candidates.map (·.path)).idxOf g.path
  /-- Each file is the last candidate with its path. -/
  last : ∀ f ∈ s.files, lastAt f.path candidates = some f
  /-- Each candidate with a read-only path is left out, however often its path comes. -/
  length_dropped : s.dropped.length = candidates.countP fun f => readOnly f.path
  /-- The read-only paths could as well be left out after the repeats are collapsed. -/
  files_eq : s.files = (FileSet.ofList candidates).toList.filter fun f => !readOnly f.path

variable (readOnly : String → Bool) (candidates : List File)

theorem files_gather :
    (gather readOnly candidates).files =
      (FileSet.ofList candidates).toList.filter fun f => !readOnly f.path :=
  FileSet.toList_ofList_filter (fun path => !readOnly path) candidates

theorem paths_gather :
    (gather readOnly candidates).files.map (·.path) =
      (candidates.map (·.path)).eraseDups.filter fun path => !readOnly path := by
  have hpaths := FileSet.paths_ofList candidates
  rw [files_gather, ← hpaths, FileSet.paths, List.filter_map]
  rfl

theorem collapses_gather : (gather readOnly candidates).Collapses readOnly candidates where
  count_path path := by
    have hnodup : ((gather readOnly candidates).files.map (·.path)).Nodup :=
      (FileSet.indexed_ofList _).nodup_paths
    rw [List.Nodup.count hnodup, paths_gather]
    simp only [List.mem_filter, List.mem_eraseDups, Bool.not_eq_true']
  ordered := by
    have hpairs := (pairwise_idxOf_eraseDups (candidates.map (·.path))).filter
      fun path => !readOnly path
    rw [← paths_gather, List.pairwise_map] at hpairs
    exact hpairs
  last f hf := by
    rw [files_gather, List.mem_filter] at hf
    exact FileSet.mem_toList_ofList.mp hf.1
  length_dropped := List.countP_eq_length_filter.symm
  files_eq := files_gather readOnly candidates

end Selection

namespace Transaction

variable {b : Blueprint} {n : Nat} {request : Request} {target : Ensured} {s : Site}

@[simp] theorem metrics_beginClearing (written : Nat) :
    (beginClearing n request target written s).1.world.metrics = s.world.metrics := by
  unfold beginClearing
  split
  · simp [World.askLogs]
  · rfl

/-- A transaction that has an instance counts the files that it leaves out, and nothing else. -/
theorem metrics_beginWriting :
    (beginWriting b n request target s).1.world.metrics = s.world.metrics.drop
      (Selection.select b.policy request.files target.fresh s.world.project).dropped.length := by
  have hwarned : (warned b request target.fresh s).world.metrics = s.world.metrics.drop
      (Selection.select b.policy request.files target.fresh s.world.project).dropped.length := by
    unfold warned warnOfDropped
    simp only
    generalize (Selection.select b.policy request.files target.fresh s.world.project).dropped =
      dropped
    rw [← s.metrics_foldl_warn "policy violation: skipping write to read-only path" dropped]
    rfl
  rw [beginWriting_eq]
  simp only
  split
  · rw [metrics_beginClearing, hwarned]
  · simpa [World.askWrite] using hwarned

end Transaction

namespace Selection

/-- Whatever is asked for, whichever files there are and however paths are judged, a deployment
selects each path that is not read-only once, in the order of the first candidates and with the
contents of the last ones, and counts the candidates that it leaves out.  A transaction does so with
the files of the project and the read-only paths of its blueprint. -/
theorem select_exactly :
    (∀ (readOnly : String → Bool) (all requested : List File) (fresh : Bool) (m : Metrics),
      let candidates := if requested = [] ∨ fresh = true then all else requested
      (gather readOnly candidates).Collapses readOnly candidates ∧
        (m.drop (gather readOnly candidates).dropped.length).policyDrops =
          m.policyDrops + candidates.countP fun f => readOnly f.path) ∧
    ∀ (b : Blueprint) (n : Nat) (request : Request) (target : Ensured) (s : Site),
      let all := s.world.project.allFiles
      let candidates := if request.files = [] ∨ target.fresh = true then all else request.files
      let selection := select b.policy request.files target.fresh s.world.project
      selection = gather b.policy.isReadOnly candidates ∧
        (Transaction.beginWriting b n request target s).1.world.metrics =
          s.world.metrics.drop selection.dropped.length := by
  refine ⟨fun readOnly all requested fresh m => ?_, fun b n request target s => ⟨?_, ?_⟩⟩
  · have h := collapses_gather readOnly (if requested = [] ∨ fresh = true then all else requested)
    refine ⟨h, ?_⟩
    rw [← h.length_dropped]
    rfl
  · have hcandidates : candidates request.files target.fresh s.world.project =
        if request.files = [] ∨ target.fresh = true then s.world.project.allFiles
        else request.files := by
      simp [candidates]
    rw [← hcandidates]
    rfl
  · exact Transaction.metrics_beginWriting

end Selection

end PreviewDeploy
