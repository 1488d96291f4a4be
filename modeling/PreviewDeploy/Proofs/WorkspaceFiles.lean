import Mathlib.Data.List.Forall2
import Mathlib.Data.List.Nodup
import PreviewDeploy.Proofs.ProjectFiles
import PreviewDeploy.Proofs.ReadOnlyPaths
import PreviewDeploy.Proofs.TextOrder
import PreviewDeploy.Workspace

/-!
# The files of a workspace

A directory holds its entries in some order, and a proper tree (`FileTree.IsProper`) has one entry a
name in each directory, so a file is known by its place: the names that lead to it.  The walk
through a proper tree meets the texts that the tree holds at places below no skipped directory
(`Workspace.mem_texts`), each one once (`Workspace.distinct_texts`), as names without slashes can be
read back from a path (`Workspace.pathOf_inj`).  Sorted by their paths, the texts no longer show in
which order they were met (`Workspace.load_of_relisted`).
-/

namespace PreviewDeploy

namespace FileTree

/-- What can name an entry of a directory. -/
def IsName (name : String) : Prop := name ≠ "" ∧ '/' ∉ name.toList

instance (name : String) : Decidable (IsName name) := inferInstanceAs (Decidable (_ ∧ _))

/-- Each directory of a tree has one entry a name, and its names can stand in a path. -/
inductive IsProper : FileTree → Prop where
  | file (content : Content) : IsProper (.file content)
  | link (target : String) : IsProper (.link target)
  | dir {entries : List (String × FileTree)} (distinct : (entries.map (·.1)).Nodup)
      (named : ∀ e ∈ entries, IsName e.1) (below : ∀ e ∈ entries, IsProper e.2) :
      IsProper (.dir entries)

/-- The second tree is the first one, with the entries of its directories in another order. -/
inductive Relisted : FileTree → FileTree → Prop where
  | refl (t : FileTree) : Relisted t t
  | here {entries others : List (String × FileTree)} (h : entries.Perm others) :
      Relisted (.dir entries) (.dir others)
  | inside {t u : FileTree} (name : String) (before after : List (String × FileTree))
      (h : Relisted t u) :
      Relisted (.dir (before ++ (name, t) :: after)) (.dir (before ++ (name, u) :: after))
  | trans {t u v : FileTree} (h : Relisted t u) (h' : Relisted u v) : Relisted t v

variable {t x : FileTree} {entries : List (String × FileTree)} {name : String} {place : List String}

theorem lookup_eq_some_iff (h : (entries.map (·.1)).Nodup) :
    entries.lookup name = some t ↔ (name, t) ∈ entries := by
  induction entries with
  | nil => simp
  | cons e entries ih =>
      obtain ⟨hnew, h⟩ := List.nodup_cons.mp h
      rw [List.mem_cons, List.lookup_cons]
      by_cases hname : name = e.1
      · subst hname
        have hrest : (e.1, t) ∉ entries := fun hmem =>
          hnew (List.mem_map.mpr ⟨_, hmem, rfl⟩)
        simp only [beq_self_eq_true, Option.some.injEq, hrest, or_false]
        constructor
        · rintro rfl
          rfl
        · intro heq
          rw [← heq]
      · have hne : (name, t) ≠ e := fun heq => hname (congrArg Prod.fst heq)
        simp only [beq_eq_false_iff_ne.mpr hname, hne, false_or]
        exact ih h

/-- What stands below a directory stands below one of its entries. -/
theorem at?_cons_eq_some_iff (h : (entries.map (·.1)).Nodup) :
    (dir entries).at? (name :: place) = some x ↔
      ∃ t, (name, t) ∈ entries ∧ t.at? place = some x := by
  have hat : (dir entries).at? (name :: place) = (entries.lookup name).bind (at? place) := rfl
  rw [hat, Option.bind_eq_some_iff]
  simp only [lookup_eq_some_iff h]

theorem exists_dir_of_at? (h : t.at? (name :: place) = some x) : ∃ entries, t = dir entries := by
  cases t with
  | dir entries => exact ⟨entries, rfl⟩
  | file content => cases h
  | link target => cases h

theorem IsProper.isName (ht : t.IsProper) (h : t.at? place = some x) : ∀ n ∈ place, IsName n := by
  induction place generalizing t with
  | nil => exact List.forall_mem_nil IsName
  | cons name place ih =>
      obtain ⟨entries, rfl⟩ := exists_dir_of_at? h
      cases ht with
      | dir distinct named below =>
          obtain ⟨t, hmem, hat⟩ := (at?_cons_eq_some_iff distinct).mp h
          exact List.forall_mem_cons.mpr ⟨named _ hmem, ih (below _ hmem) hat⟩

end FileTree

namespace Workspace

open FileTree (IsName IsProper Relisted)

variable {t : FileTree} {entries : List (String × FileTree)} {files : List File} {f : File}
  {place before : List String} {name text : String}

/-! ### Paths -/

/-- The path that leads to a place. -/
def pathOf (place : List String) : String := "/".intercalate place

theorem toList_pathOf (place : List String) :
    (pathOf place).toList = ReadOnly.joined (place.map String.toList) :=
  String.toList_intercalate

theorem areNames_map (h : ∀ n ∈ place, IsName n) : ReadOnly.AreNames (place.map String.toList) where
  nonempty chars hchars := by
    obtain ⟨n, hn, rfl⟩ := List.mem_map.mp hchars
    exact fun hnil => (h n hn).1 (String.toList_eq_nil_iff.mp hnil)
  slashless chars hchars := by
    obtain ⟨n, hn, rfl⟩ := List.mem_map.mp hchars
    exact (h n hn).2

theorem components_pathOf (h : ∀ n ∈ place, IsName n) (hne : place ≠ []) :
    ReadOnly.components (pathOf place).toList = place.map String.toList := by
  rw [toList_pathOf]
  exact ReadOnly.components_joined (areNames_map h) (by simpa using hne)

theorem pathOf_ne_empty (h : ∀ n ∈ place, IsName n) (hne : place ≠ []) : pathOf place ≠ "" := by
  intro hempty
  have hnames := components_pathOf h hne
  rw [hempty] at hnames
  have hmem : [] ∈ place.map String.toList := hnames ▸ List.mem_cons_self
  exact (areNames_map h).nonempty [] hmem rfl

theorem pathOf_inj {other : List String} (h : ∀ n ∈ place, IsName n)
    (hother : ∀ n ∈ other, IsName n) (heq : pathOf place = pathOf other) : place = other := by
  by_cases hne : place = []
  · by_cases hne' : other = []
    · rw [hne, hne']
    · subst hne
      exact absurd heq.symm (pathOf_ne_empty hother hne')
  · by_cases hne' : other = []
    · subst hne'
      exact absurd heq (pathOf_ne_empty h hne)
    · have hnames : place.map String.toList = other.map String.toList := by
        rw [← components_pathOf h hne, heq, components_pathOf hother hne']
      exact List.map_injective_iff.mpr (fun _ _ => String.toList_injective) hnames

theorem isName_concat (h : ∀ n ∈ before, IsName n) (hname : IsName name) :
    ∀ n ∈ before ++ [name], IsName n :=
  List.forall_mem_append.mpr ⟨h, List.forall_mem_singleton.mpr hname⟩

theorem join_pathOf (h : ∀ n ∈ before, IsName n) (name : String) :
    join (pathOf before) name = pathOf (before ++ [name]) := by
  unfold join
  by_cases hne : before = []
  · subst hne
    rfl
  · have hempty : ¬(pathOf before).isEmpty = true := by
      rw [String.isEmpty_iff]
      exact pathOf_ne_empty h hne
    rw [if_neg hempty]
    apply String.toList_injective
    rw [toList_pathOf, List.map_append, ReadOnly.joined_append (by simpa using hne) (by simp)]
    simp [toList_pathOf, ReadOnly.joined]

/-! ### The walk -/

/-- The texts in one entry of a directory. -/
def textsIn (dir : String) : String × FileTree → List File
  | (name, .dir entries) => if skipped.contains name then [] else textsOf (join dir name) entries
  | (name, t) => texts (join dir name) t

theorem textsOf_eq_flatMap (dir : String) (entries : List (String × FileTree)) :
    textsOf dir entries = entries.flatMap (textsIn dir) := by
  induction entries with
  | nil => rw [textsOf, List.flatMap_nil]
  | cons e entries ih =>
      obtain ⟨name, t⟩ := e
      rw [List.flatMap_cons, ← ih]
      cases t with
      | dir inner => rw [textsOf, textsIn]
      | file content => simp only [textsOf, textsIn]
      | link target => simp only [textsOf, textsIn]

theorem textsIn_eq (dir name : String) (t : FileTree) :
    textsIn dir (name, t) = [] ∧ name ∈ skipped ∧ (∃ inner, t = .dir inner) ∨
      textsIn dir (name, t) = texts (join dir name) t ∧
        ∀ inner, t = .dir inner → name ∉ skipped := by
  cases t with
  | dir inner =>
      simp only [textsIn, texts, List.contains_iff_mem]
      by_cases hname : name ∈ skipped
      · exact .inl ⟨if_pos hname, hname, inner, rfl⟩
      · exact .inr ⟨if_neg hname, fun _ _ => hname⟩
  | file content => exact .inr ⟨by simp only [textsIn], nofun⟩
  | link target => exact .inr ⟨by simp only [textsIn], nofun⟩

theorem mem_textsIn {dir : String} : f ∈ textsIn dir (name, t) ↔
    (∀ inner, t = .dir inner → name ∉ skipped) ∧ f ∈ texts (join dir name) t := by
  obtain ⟨heq, hname, inner, ht⟩ | ⟨heq, hkept⟩ := textsIn_eq dir name t
  · rw [heq]
    constructor
    · intro hf
      cases hf
    · rintro ⟨hkept, -⟩
      exact absurd hname (hkept inner ht)
  · rw [heq]
    exact (and_iff_right hkept).symm

/-- A tree has a text at a place, and no directory on the way is skipped.  The way leads through
directories only, so nothing is at a place to which a link leads. -/
structure Holds (t : FileTree) (place : List String) (text : String) : Prop where
  at_place : t.at? place = some (.file (.bytes (utf8 text)))
  kept : ∀ name ∈ place.dropLast, name ∉ skipped

theorem holds_file_iff {content : Content} :
    Holds (.file content) place text ↔ place = [] ∧ content.text? = some text := by
  have htext : content.text? = some text ↔ content = .bytes (utf8 text) := by
    cases content with
    | bytes bytes => simp [Content.text?, ofUtf8?_eq_some_iff]
    | database store => simp [Content.text?]
  rw [htext]
  constructor
  · intro h
    cases place with
    | nil => exact ⟨rfl, by simpa [FileTree.at?] using h.at_place⟩
    | cons name place => cases h.at_place
  · rintro ⟨rfl, rfl⟩
    exact ⟨rfl, by simp⟩

theorem not_holds_link {target : String} : ¬Holds (.link target) place text := by
  intro h
  cases place with
  | nil => cases h.at_place
  | cons name place => cases h.at_place

/-- A text in a directory is one in an entry of it, which is no skipped directory. -/
theorem holds_dir_iff (h : (entries.map (·.1)).Nodup) :
    Holds (.dir entries) place text ↔ ∃ name t rest, place = name :: rest ∧ (name, t) ∈ entries ∧
      (∀ inner, t = .dir inner → name ∉ skipped) ∧ Holds t rest text := by
  constructor
  · intro hholds
    cases place with
    | nil => cases hholds.at_place
    | cons name rest =>
        obtain ⟨t, hmem, hat⟩ := (FileTree.at?_cons_eq_some_iff h).mp hholds.at_place
        cases rest with
        | nil =>
            refine ⟨name, t, [], rfl, hmem, ?_, hat, by simp⟩
            -- A text is no directory.
            rintro inner rfl
            cases hat
        | cons next rest =>
            have hkept := hholds.kept
            rw [List.dropLast_cons_of_ne_nil (List.cons_ne_nil next rest)] at hkept
            obtain ⟨hname, hkept⟩ := List.forall_mem_cons.mp hkept
            exact ⟨name, t, next :: rest, rfl, hmem, fun _ _ => hname, hat, hkept⟩
  · rintro ⟨name, t, rest, rfl, hmem, hdir, hholds⟩
    refine ⟨(FileTree.at?_cons_eq_some_iff h).mpr ⟨t, hmem, hholds.at_place⟩, ?_⟩
    cases rest with
    | nil => simp
    | cons next rest =>
        obtain ⟨inner, hinner⟩ := FileTree.exists_dir_of_at? hholds.at_place
        rw [List.dropLast_cons_of_ne_nil (List.cons_ne_nil next rest)]
        exact List.forall_mem_cons.mpr ⟨hdir inner hinner, hholds.kept⟩

/-- The texts that are met in something are those that it holds, with the paths of their places. -/
theorem mem_texts (ht : t.IsProper) (h : ∀ n ∈ before, IsName n) :
    f ∈ texts (pathOf before) t ↔
      ∃ place, Holds t place f.contents ∧ f.path = pathOf (before ++ place) := by
  induction ht generalizing before with
  | file content =>
      simp only [holds_file_iff, texts]
      constructor
      · intro hf
        split at hf
        · rename_i text htext
          obtain rfl := List.mem_singleton.mp hf
          exact ⟨[], ⟨rfl, htext⟩, by rw [List.append_nil]⟩
        · cases hf
      · rintro ⟨_, ⟨rfl, htext⟩, hpath⟩
        rw [List.append_nil] at hpath
        rw [htext, ← hpath]
        exact List.mem_singleton_self f
  | link target => simp [texts, not_holds_link]
  | @dir entries distinct named _ ih =>
      rw [texts, textsOf_eq_flatMap, List.mem_flatMap]
      constructor
      · rintro ⟨⟨name, t⟩, hmem, hf⟩
        obtain ⟨hdir, hf⟩ := mem_textsIn.mp hf
        have hnames := isName_concat h (named _ hmem)
        rw [join_pathOf h, ih _ hmem hnames] at hf
        obtain ⟨rest, hholds, hpath⟩ := hf
        have hwhole := (holds_dir_iff distinct).mpr ⟨name, t, rest, rfl, hmem, hdir, hholds⟩
        refine ⟨name :: rest, hwhole, ?_⟩
        rw [hpath, List.append_assoc, List.singleton_append]
      · rintro ⟨place, hholds, hpath⟩
        obtain ⟨name, t, rest, rfl, hmem, hdir, hholds⟩ := (holds_dir_iff distinct).mp hholds
        have hnames := isName_concat h (named _ hmem)
        refine ⟨(name, t), hmem, mem_textsIn.mpr ⟨hdir, ?_⟩⟩
        rw [join_pathOf h, ih _ hmem hnames]
        refine ⟨rest, hholds, ?_⟩
        rw [hpath, List.append_assoc, List.singleton_append]

/-- The paths of the texts in an entry lead through it. -/
theorem path_of_mem_textsIn (ht : t.IsProper) (h : ∀ n ∈ before, IsName n) (hname : IsName name)
    (hf : f ∈ textsIn (pathOf before) (name, t)) :
    ∃ rest, (∀ n ∈ name :: rest, IsName n) ∧ f.path = pathOf (before ++ name :: rest) := by
  have hnames := isName_concat h hname
  have hmem := (mem_textsIn.mp hf).2
  rw [join_pathOf h, mem_texts ht hnames] at hmem
  obtain ⟨rest, hholds, hpath⟩ := hmem
  refine ⟨rest, List.forall_mem_cons.mpr ⟨hname, ht.isName hholds.at_place⟩, ?_⟩
  rw [hpath, List.append_assoc, List.singleton_append]

theorem distinct_texts (ht : t.IsProper) (h : ∀ n ∈ before, IsName n) :
    (texts (pathOf before) t).Pairwise fun f g => f.path ≠ g.path := by
  induction ht generalizing before with
  | file content =>
      rw [texts]
      split
      · exact List.pairwise_singleton _ _
      · exact List.Pairwise.nil
  | link target => exact List.Pairwise.nil
  | @dir entries distinct named below ih =>
      rw [texts, textsOf_eq_flatMap, List.pairwise_flatMap]
      constructor
      · rintro ⟨name, t⟩ hmem
        have hnames := isName_concat h (named _ hmem)
        obtain ⟨heq, -⟩ | ⟨heq, -⟩ := textsIn_eq (pathOf before) name t
        · rw [heq]
          exact List.Pairwise.nil
        · rw [heq, join_pathOf h]
          exact ih _ hmem hnames
      · rw [List.nodup_iff_pairwise_ne, List.pairwise_map] at distinct
        refine distinct.imp_of_mem ?_
        rintro ⟨name, t⟩ ⟨name', t'⟩ hmem hmem' hne f hf g hg heq
        obtain ⟨rest, hrest, hpath⟩ := path_of_mem_textsIn (below _ hmem) h (named _ hmem) hf
        obtain ⟨rest', hrest', hpath'⟩ := path_of_mem_textsIn (below _ hmem') h (named _ hmem') hg
        rw [hpath, hpath'] at heq
        have hsame := pathOf_inj (List.forall_mem_append.mpr ⟨h, hrest⟩)
          (List.forall_mem_append.mpr ⟨h, hrest'⟩) heq
        exact hne (List.cons.inj (List.append_cancel_left hsame)).1

/-! ### The order of the files -/

/-- Whether a file may stand before another one. -/
def mayPrecede (f g : File) : Bool := !(g.path < f.path)

theorem mayPrecede_iff {g : File} : mayPrecede f g = true ↔ f.path ≤ g.path := by
  rw [mayPrecede, Bool.not_eq_true', decide_eq_false_iff_not, String.not_lt]

/-- Sorted, files with distinct paths stand in strictly ascending order. -/
theorem ascending_mergeSort (h : files.Pairwise fun f g => f.path ≠ g.path) :
    (files.mergeSort mayPrecede).Pairwise fun f g => f.path < g.path := by
  have hsorted : (files.mergeSort mayPrecede).Pairwise fun f g => mayPrecede f g = true := by
    apply List.pairwise_mergeSort
    · intro f g k hfg hgk
      rw [mayPrecede_iff] at hfg hgk ⊢
      exact String.le_trans hfg hgk
    · intro f g
      rw [Bool.or_eq_true, mayPrecede_iff, mayPrecede_iff]
      exact String.le_total f.path g.path
  have hdistinct := h.perm (List.mergeSort_perm files mayPrecede).symm Ne.symm
  refine hsorted.imp₂ (fun f g hle hne => ?_) hdistinct
  exact String.not_le.mp fun hge => hne (String.le_antisymm (mayPrecede_iff.mp hle) hge)

/-- Files in ascending order do not show in which order they were met. -/
theorem eq_of_ascending {others : List File} (h : files.Pairwise fun f g => f.path < g.path)
    (hothers : others.Pairwise fun f g => f.path < g.path) (hperm : files.Perm others) :
    files = others := by
  refine List.Perm.eq_of_pairwise (fun f g _ _ hfg hgf => ?_) h hothers hperm
  exact absurd hgf (String.lt_asymm hfg)

theorem isDir_of_relisted {u : FileTree} (h : Relisted t u) :
    (∃ inner, t = .dir inner) ↔ ∃ inner, u = .dir inner := by
  induction h with
  | refl t => rfl
  | here hperm => simp
  | inside name before after h ih => simp
  | trans h h' ih ih' => exact ih.trans ih'

theorem perm_texts {u : FileTree} (h : Relisted t u) (path : String) :
    (texts path t).Perm (texts path u) := by
  induction h generalizing path with
  | refl t => exact .refl _
  | here hperm =>
      simp only [texts, textsOf_eq_flatMap]
      exact hperm.flatMap_right _
  | @inside t u name before after h ih =>
      have hentry : (textsIn path (name, t)).Perm (textsIn path (name, u)) := by
        have hdir := isDir_of_relisted h
        obtain ⟨heq, hname, ht⟩ | ⟨heq, hkept⟩ := textsIn_eq path name t
        · obtain ⟨heq', -⟩ | ⟨-, hkept⟩ := textsIn_eq path name u
          · rw [heq, heq']
          · obtain ⟨inner, hu⟩ := hdir.mp ht
            exact absurd hname (hkept inner hu)
        · obtain ⟨-, hname, hu⟩ | ⟨heq', -⟩ := textsIn_eq path name u
          · obtain ⟨inner, ht⟩ := hdir.mpr hu
            exact absurd hname (hkept inner ht)
          · rw [heq, heq']
            exact ih (join path name)
      simp only [texts, textsOf_eq_flatMap, List.flatMap_append, List.flatMap_cons]
      exact (hentry.append_right _).append_left _
  | trans h h' ih ih' => exact (ih path).trans (ih' path)

theorem load_dir (entries : List (String × FileTree)) :
    load (.dir entries) =
      some ((texts (pathOf []) (.dir entries)).mergeSort mayPrecede) := by
  rw [load, texts]
  rfl

/-- What is loaded from a directory does not depend on the order of entries. -/
theorem load_of_relisted {u : FileTree} (ht : (FileTree.dir entries).IsProper)
    (h : Relisted (.dir entries) u) : load u = load (.dir entries) := by
  obtain ⟨others, rfl⟩ := (isDir_of_relisted h).mp ⟨entries, rfl⟩
  have hperm := perm_texts h (pathOf [])
  have hdistinct := distinct_texts ht (List.forall_mem_nil IsName)
  have hdistinct' := hdistinct.perm hperm Ne.symm
  rw [load_dir, load_dir]
  refine congrArg some (eq_of_ascending (ascending_mergeSort hdistinct')
    (ascending_mergeSort hdistinct) ?_)
  exact (List.mergeSort_perm _ _).trans (hperm.symm.trans (List.mergeSort_perm _ _).symm)

/-! ### Picking files -/

/-- A path without the `./` that it begins with, as often as it does. -/
structure Trims (path wanted : String) : Prop where
  front : ∃ n, path.toList = (List.replicate n ['.', '/']).flatten ++ wanted.toList
  done : ¬['.', '/'] <+: wanted.toList

theorem trimHere_replicate (n : Nat) (cs : List Char) :
    trimHere ((List.replicate n ['.', '/']).flatten ++ cs) = trimHere cs := by
  induction n with
  | zero => rfl
  | succ n ih => simpa [List.replicate_succ, trimHere] using ih

theorem trimHere_of_not_prefix {cs : List Char} (h : ¬['.', '/'] <+: cs) : trimHere cs = cs := by
  unfold trimHere
  split
  · rename_i rest
    exact absurd (List.prefix_append ['.', '/'] rest) h
  · rfl

theorem not_prefix_trimHere (cs : List Char) : ¬['.', '/'] <+: trimHere cs := by
  induction cs using trimHere.induct with
  | case1 rest ih => rwa [trimHere]
  | case2 cs hfront =>
      rw [trimHere.eq_2 cs hfront]
      rintro ⟨rest, rfl⟩
      exact hfront rest rfl

theorem exists_trimHere (cs : List Char) :
    ∃ n, cs = (List.replicate n ['.', '/']).flatten ++ trimHere cs := by
  induction cs using trimHere.induct with
  | case1 rest ih =>
      obtain ⟨n, hn⟩ := ih
      refine ⟨n + 1, ?_⟩
      rw [trimHere, List.replicate_succ, List.flatten_cons, List.append_assoc, ← hn]
      rfl
  | case2 cs hfront => exact ⟨0, by simp [trimHere.eq_2 cs hfront]⟩

theorem trims_iff {path wanted : String} :
    Trims path wanted ↔ String.ofList (trimHere path.toList) = wanted := by
  constructor
  · rintro ⟨⟨n, hn⟩, hdone⟩
    rw [hn, trimHere_replicate, trimHere_of_not_prefix hdone, String.ofList_toList]
  · rintro rfl
    constructor
    · rw [String.toList_ofList]
      exact exists_trimHere path.toList
    · rw [String.toList_ofList]
      exact not_prefix_trimHere path.toList

/-- One of the files has a path. -/
def Knows (files : List File) (path : String) : Prop := ∃ f ∈ files, Trims path f.path

theorem of_pickOne_ok {path : String} (h : pickOne files path = .ok f) :
    f ∈ files ∧ Trims path f.path := by
  unfold pickOne at h
  dsimp only at h
  split at h
  · rename_i g hfound
    cases h
    have hpath := List.find?_some hfound
    simp only [decide_eq_true_eq] at hpath
    exact ⟨List.mem_of_find?_eq_some hfound, trims_iff.mpr hpath.symm⟩
  · cases h

theorem of_pickOne_error {path : String} {e : UnknownPath} (h : pickOne files path = .error e) :
    ¬Knows files path ∧ Trims path e.path := by
  unfold pickOne at h
  dsimp only at h
  split at h
  · cases h
  · rename_i hnone
    cases h
    refine ⟨?_, trims_iff.mpr rfl⟩
    rintro ⟨f, hmem, htrims⟩
    have hother := List.find?_eq_none.mp hnone f hmem
    simp [trims_iff.mp htrims] at hother

/-- What is answered to a request for paths. -/
structure Picks (files : List File) (paths : List String) : Prop where
  /-- If all paths are known, the answer has the file of each one in turn. -/
  found : (∀ p ∈ paths, Knows files p) →
    ∃ picked, pick files paths = .ok picked ∧
      List.Forall₂ (fun p f => f ∈ files ∧ Trims p f.path) paths picked
  /-- If not, the answer names the first unknown one. -/
  unknown : (∃ p ∈ paths, ¬Knows files p) →
    ∃ before p after e, paths = before ++ p :: after ∧ (∀ q ∈ before, Knows files q) ∧
      ¬Knows files p ∧ pick files paths = .error e ∧ Trims p e.path ∧
      e.message = e.path ++ " is not in the project directory"

section Readings

variable {ε α β : Type} {read : α → Except ε β} {l : List α}

theorem mapM_of_ok (h : ∀ a ∈ l, ∃ b, read a = .ok b) :
    ∃ bs, l.mapM read = .ok bs ∧ List.Forall₂ (fun a b => read a = .ok b) l bs := by
  induction l with
  | nil => exact ⟨[], rfl, .nil⟩
  | cons a l ih =>
      obtain ⟨⟨b, hb⟩, h⟩ := List.forall_mem_cons.mp h
      obtain ⟨bs, hbs, hall⟩ := ih h
      refine ⟨b :: bs, ?_, .cons hb hall⟩
      rw [List.mapM_cons, hb, hbs]
      rfl

/-- If not all entries of a list can be read, the first one that cannot is what fails. -/
theorem mapM_of_error (h : ∃ a ∈ l, ∃ e, read a = .error e) :
    ∃ before a after e, l = before ++ a :: after ∧ (∀ x ∈ before, ∃ b, read x = .ok b) ∧
      read a = .error e ∧ l.mapM read = .error e := by
  induction l with
  | nil =>
      obtain ⟨a, ha, -⟩ := h
      cases ha
  | cons a l ih =>
      cases ha : read a with
      | error e =>
          refine ⟨[], a, l, e, rfl, by simp, ha, ?_⟩
          rw [List.mapM_cons, ha]
          rfl
      | ok b =>
          have hrest : ∃ x ∈ l, ∃ e, read x = .error e := by
            obtain ⟨x, hx, e, he⟩ := h
            obtain rfl | hx := List.mem_cons.mp hx
            · rw [ha] at he
              cases he
            · exact ⟨x, hx, e, he⟩
          obtain ⟨before, x, after, e, hl, hbefore, hx, he⟩ := ih hrest
          refine ⟨a :: before, x, after, e, by rw [hl, List.cons_append], ?_, hx, ?_⟩
          · exact List.forall_mem_cons.mpr ⟨⟨b, ha⟩, hbefore⟩
          · rw [List.mapM_cons, ha, he]
            rfl

end Readings

theorem picks (files : List File) (paths : List String) : Picks files paths where
  found h := by
    have hok : ∀ p ∈ paths, ∃ f, pickOne files p = .ok f := by
      intro p hp
      cases hone : pickOne files p with
      | ok f => exact ⟨f, rfl⟩
      | error e => exact absurd (h p hp) (of_pickOne_error hone).1
    obtain ⟨picked, hpicked, hall⟩ := mapM_of_ok hok
    exact ⟨picked, hpicked, hall.imp fun _ _ => of_pickOne_ok⟩
  unknown h := by
    have herror : ∃ p ∈ paths, ∃ e, pickOne files p = .error e := by
      obtain ⟨p, hp, hunknown⟩ := h
      refine ⟨p, hp, ?_⟩
      cases hone : pickOne files p with
      | ok f => exact absurd ⟨f, of_pickOne_ok hone⟩ hunknown
      | error e => exact ⟨e, rfl⟩
    obtain ⟨before, p, after, e, hpaths, hbefore, hp, hfails⟩ := mapM_of_error herror
    obtain ⟨hunknown, htrims⟩ := of_pickOne_error hp
    refine ⟨before, p, after, e, hpaths, ?_, hunknown, hfails, htrims, rfl⟩
    intro q hq
    obtain ⟨f, hf⟩ := hbefore q hq
    exact ⟨f, of_pickOne_ok hf⟩

/-! ### What is loaded -/

/-- What the files that are loaded from a tree are. -/
structure Loaded (t : FileTree) (files : List File) : Prop where
  /-- There is a file for each text of the tree, with the path of its place. -/
  mem_iff : ∀ f, f ∈ files ↔ ∃ place, Holds t place f.contents ∧ f.path = pathOf place
  /-- No two texts have one path. -/
  apart : ∀ place other text text', Holds t place text → Holds t other text' →
    pathOf place = pathOf other → place = other
  /-- The paths ascend in the order of their bytes, so none is there twice. -/
  ascending : files.Pairwise fun f g => utf8 f.path < utf8 g.path
  /-- The order in which entries are listed does not matter. -/
  relisted : ∀ u, Relisted t u → load u = some files
  /-- A project with these files as its template has them as all its files. -/
  project : (Project.ofTemplate files).allFiles = files
  /-- They can be picked by their paths. -/
  picked : ∀ paths, Picks files paths

/-- A project that starts from files with distinct paths has just these. -/
theorem allFiles_ofTemplate (h : (files.map (·.path)).Nodup) :
    (Project.ofTemplate files).allFiles = files := by
  have hall : (Project.ofTemplate files).allFiles = (FileSet.ofList files).toList := rfl
  have hlast : ∀ f ∈ files, lastAt f.path files = some f := by
    intro f hf
    obtain ⟨g, hg⟩ := exists_lastAt hf
    rw [hg, List.inj_on_of_nodup_map h (mem_of_lastAt hg) hf (path_of_lastAt hg)]
  rw [hall, FileSet.toList_ofList, eraseDups_of_nodup h, List.filterMap_map]
  exact (List.filterMap_congr hlast).trans List.filterMap_some

/-- A directory with sources, a file and a directory of one skipped name, a link and a picture. -/
def sample : FileTree :=
  .dir [("src", .dir [("dist", .file (.bytes (utf8 "notes"))),
      ("app.ts", .file (.bytes (utf8 "")))]),
    ("dist", .dir [("app.js", .file (.bytes (utf8 "built")))]), ("latest", .link "src"),
    ("logo.png", .file (.bytes [255, 254, 0]))]

theorem isProper_sample : sample.IsProper := by
  refine .dir (by decide) (by decide) ?_
  simp only [List.forall_mem_cons]
  refine ⟨.dir (by decide) (by decide) ?_, .dir (by decide) (by decide) ?_, .link _, .file _, nofun⟩
  · simp [IsProper.file]
  · simp [IsProper.file]

end Workspace

end PreviewDeploy
