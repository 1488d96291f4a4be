import PreviewDeploy.File.Fingerprint
import PreviewDeploy.Proofs.TextOrder

/-!
# Files that share a fingerprint

The zero byte behind each path and each contents is also the byte of a zero character in them, so
the bytes that a list of files is digested as tell only the parts between zero characters, one after
the other (`Fingerprint.segments`), and not where a file ends and the next one begins.

* Lists have the same bytes just if they have the same segments (`bytes_eq_bytes_iff`): the bytes
  split at zero bytes are the segments.
* With the number of zero characters in each text the segments tell the list (`eq_of_segments`).  So
  lists of files without zero characters are told apart (`injOn_bytes`).
* The second one of two files may as well stand in the contents of the first one, and a file with a
  zero character in its texts may be cut there.  So only the empty list and a single file without
  zero characters have bytes of their own (`unshared_iff`).
-/

namespace PreviewDeploy

/-! ### Splitting -/

theorem length_splitOn (c : Char) (cs : List Char) : (cs.splitOn c).length = cs.count c + 1 := by
  induction cs with
  | nil => rfl
  | cons d cs ih =>
      rw [List.splitOn_cons_eq_if_modifyHead, List.count_cons]
      split
      · rw [List.length_cons, ih]
      · rw [List.length_modifyHead, ih, Nat.add_zero]

theorem splitOn_inj {c : Char} {cs ds : List Char} : cs.splitOn c = ds.splitOn c ↔ cs = ds := by
  have hjoin (es : List Char) : [c].intercalate (es.splitOn c) = es := List.intercalate_splitOn c
  constructor
  · intro h
    rw [← hjoin cs, h, hjoin ds]
  · intro h
    rw [h]

/-! ### One file -/

namespace File

/-- The parts of the path, then those of the contents, between zero characters. -/
def segments (f : File) : List (List Char) :=
  f.path.toList.splitOn '\x00' ++ f.contents.toList.splitOn '\x00'

/-- How many zero characters stand in the path and in the contents. -/
def zeros (f : File) : Nat × Nat := (f.path.toList.count '\x00', f.contents.toList.count '\x00')

theorem length_segments (f : File) : f.segments.length = f.zeros.1 + f.zeros.2 + 2 := by
  rw [segments, List.length_append, length_splitOn, length_splitOn, zeros]
  omega

/-- A file is told by its segments, if it is known how many there are in each text. -/
theorem eq_of_segments {f g : File} {fs gs : List (List Char)} (hzeros : f.zeros = g.zeros)
    (h : f.segments ++ fs = g.segments ++ gs) : f = g ∧ fs = gs := by
  obtain ⟨hpath, hcontents⟩ := Prod.mk.inj hzeros
  rw [segments, segments, List.append_assoc, List.append_assoc] at h
  obtain ⟨hpaths, h⟩ := List.append_inj h (by rw [length_splitOn, length_splitOn, hpath])
  obtain ⟨htexts, hrest⟩ := List.append_inj h (by rw [length_splitOn, length_splitOn, hcontents])
  obtain ⟨path, contents⟩ := f
  obtain ⟨path', contents'⟩ := g
  obtain rfl : path = path' := String.toList_inj.mp (splitOn_inj.mp hpaths)
  obtain rfl : contents = contents' := String.toList_inj.mp (splitOn_inj.mp htexts)
  exact ⟨rfl, hrest⟩

/-- The first file with the second one behind its contents. -/
def joined (f g : File) : File :=
  ⟨f.path, .ofList (f.contents.toList ++ '\x00' :: (g.path.toList ++ '\x00' :: g.contents.toList))⟩

theorem segments_joined (f g : File) : (f.joined g).segments = f.segments ++ g.segments := by
  simp only [segments, joined, String.toList_ofList, List.splitOn_append_cons_self,
    List.append_assoc]

/-- A file with a zero character in it may be cut into path and contents at another place. -/
theorem exists_ne_of_zeros {f : File} (h : f.zeros ≠ (0, 0)) :
    ∃ g, g ≠ f ∧ g.segments = f.segments := by
  obtain ⟨path, contents⟩ := f
  by_cases hpath : '\x00' ∈ path.toList
  -- The path ends there, and what follows goes to the front of the contents.
  · obtain ⟨before, after, hpath⟩ := List.append_of_mem hpath
    refine ⟨⟨.ofList before, .ofList (after ++ '\x00' :: contents.toList)⟩, ?_, ?_⟩
    · intro heq
      have hends := congrArg (·.path.toList.length) heq
      simp [hpath] at hends
    · simp only [segments, hpath, String.toList_ofList, List.splitOn_append_cons_self,
        List.append_assoc]
  -- The path goes on up to the zero character in the contents.
  · have hcontents : '\x00' ∈ contents.toList := by
      by_contra hcontents
      apply h
      simp only [zeros, List.count_eq_zero_of_not_mem hpath,
        List.count_eq_zero_of_not_mem hcontents]
    obtain ⟨before, after, hcontents⟩ := List.append_of_mem hcontents
    refine ⟨⟨.ofList (path.toList ++ '\x00' :: before), .ofList after⟩, ?_, ?_⟩
    · intro heq
      have hgoes := congrArg (·.path.toList.length) heq
      simp at hgoes
    · simp only [segments, hcontents, String.toList_ofList, List.splitOn_append_cons_self,
        List.append_assoc]

end File

/-! ### Lists of files -/

/-- Different messages with one digest. -/
def Sha256.Collide (message message' : List UInt8) : Prop :=
  message ≠ message' ∧ digest message = digest message'

namespace Fingerprint

variable {fs gs : List File}

/-- The characters that the bytes of a list of files are those of. -/
def chars (files : List File) : List Char :=
  files.flatMap fun f => f.path.toList ++ '\x00' :: (f.contents.toList ++ ['\x00'])

/-- The segments of all files, in turn. -/
def segments (files : List File) : List (List Char) := files.flatMap File.segments

theorem segments_cons (f : File) (files : List File) :
    segments (f :: files) = f.segments ++ segments files := List.flatMap_cons

theorem bytes_eq_utf8 (files : List File) : bytes files = utf8 (.ofList (chars files)) := by
  have hzero : String.utf8EncodeChar '\x00' = [0] := by decide
  simp only [utf8_eq_flatMap, String.toList_ofList, bytes, chars, List.flatMap_assoc,
    List.flatMap_append, List.flatMap_cons, List.flatMap_nil, hzero, List.append_nil,
    List.singleton_append]

/-- Each segment is followed by a zero character, and nothing follows the last one. -/
theorem splitOn_chars (files : List File) :
    (chars files).splitOn '\x00' = segments files ++ [[]] := by
  induction files with
  | nil => rfl
  | cons f files ih =>
      have hchars : chars (f :: files) =
          f.path.toList ++ '\x00' :: (f.contents.toList ++ '\x00' :: chars files) := by
        simp only [chars, List.flatMap_cons, List.append_assoc, List.cons_append, List.nil_append]
      rw [hchars, List.splitOn_append_cons_self, List.splitOn_append_cons_self, ih]
      rw [segments_cons, File.segments, List.append_assoc, List.append_assoc]

/-- Lists are digested as the same bytes just if they have the same segments. -/
theorem bytes_eq_bytes_iff : bytes fs = bytes gs ↔ segments fs = segments gs := by
  rw [bytes_eq_utf8, bytes_eq_utf8, utf8_inj, String.ofList_inj, ← splitOn_inj (c := '\x00'),
    splitOn_chars, splitOn_chars, List.append_left_inj]

/-- Lists share a fingerprint with the same segments or by a collision only. -/
theorem fingerprint_eq_fingerprint_iff : fingerprint fs = fingerprint gs ↔
    segments fs = segments gs ∨ Sha256.Collide (bytes fs) (bytes gs) := by
  rw [fingerprint, fingerprint, hex_inj, ← bytes_eq_bytes_iff]
  constructor
  · intro h
    by_cases heq : bytes fs = bytes gs
    · exact .inl heq
    · exact .inr ⟨heq, h⟩
  · rintro (heq | ⟨-, h⟩)
    · rw [heq]
    · exact h

theorem le_length_segments (files : List File) : files.length * 2 ≤ (segments files).length := by
  induction files with
  | nil => exact Nat.zero_le _
  | cons f files ih =>
      rw [segments_cons, List.length_append, File.length_segments, List.length_cons]
      omega

/-- A list is told by its segments, if it is known how many there are in each text. -/
theorem eq_of_segments (hzeros : fs.map File.zeros = gs.map File.zeros)
    (h : segments fs = segments gs) : fs = gs := by
  induction fs generalizing gs with
  | nil => exact (List.map_eq_nil_iff.mp hzeros.symm).symm
  | cons f fs ih =>
      cases gs with
      | nil => cases hzeros
      | cons g gs =>
          obtain ⟨hfirst, hothers⟩ := List.cons.inj hzeros
          obtain ⟨rfl, hrest⟩ := File.eq_of_segments hfirst h
          rw [ih hothers hrest]

/-! ### Lists without zero characters -/

/-- No zero character stands in any text. -/
def IsPlain (files : List File) : Prop := ∀ f ∈ files, f.zeros = (0, 0)

theorem IsPlain.map_zeros (h : IsPlain fs) : fs.map File.zeros = List.replicate fs.length (0, 0) :=
  List.map_eq_replicate_iff.mpr h

theorem IsPlain.length_segments (h : IsPlain fs) : (segments fs).length = fs.length * 2 := by
  induction fs with
  | nil => rfl
  | cons f fs ih =>
      obtain ⟨hfirst, hothers⟩ := List.forall_mem_cons.mp h
      rw [segments_cons, List.length_append, File.length_segments, hfirst, ih hothers,
        List.length_cons]
      omega

/-- Lists of files without zero characters are told apart. -/
theorem injOn_bytes : Set.InjOn bytes {files | IsPlain files} := by
  intro fs hfs gs hgs h
  have hsegments := bytes_eq_bytes_iff.mp h
  have hlength : fs.length = gs.length := by
    have hlengths := congrArg List.length hsegments
    rw [IsPlain.length_segments hfs, IsPlain.length_segments hgs] at hlengths
    omega
  refine eq_of_segments ?_ hsegments
  rw [IsPlain.map_zeros hfs, IsPlain.map_zeros hgs, hlength]

/-! ### Lists that share their bytes -/

theorem exists_ne_of_many (f g : File) (rest : List File) :
    ∃ gs, gs ≠ f :: g :: rest ∧ bytes gs = bytes (f :: g :: rest) := by
  refine ⟨f.joined g :: rest, ?_, ?_⟩
  · intro heq
    have hlength := congrArg List.length heq
    simp at hlength
  · rw [bytes_eq_bytes_iff]
    rw [segments_cons, segments_cons, segments_cons, File.segments_joined, List.append_assoc]

theorem eq_of_bytes_of_plain {f : File} (hplain : f.zeros = (0, 0)) (h : bytes gs = bytes [f]) :
    gs = [f] := by
  have hsegments := bytes_eq_bytes_iff.mp h
  have hlength : (segments gs).length = 2 := by
    rw [hsegments, IsPlain.length_segments (List.forall_mem_singleton.mpr hplain)]
    rfl
  have hfew := le_length_segments gs
  refine eq_of_segments ?_ hsegments
  match gs with
  | [] => cases hlength
  | [g] =>
      rw [segments_cons, List.length_append, File.length_segments] at hlength
      have hzeros : g.zeros = (0, 0) := Prod.ext (by omega) (by omega)
      rw [List.map_singleton, List.map_singleton, hzeros, hplain]
  | g :: g' :: gs =>
      rw [List.length_cons, List.length_cons] at hfew
      omega

theorem unshared_iff :
    (∀ gs, bytes gs = bytes fs → gs = fs) ↔ fs.length ≤ 1 ∧ IsPlain fs := by
  match fs with
  | [] =>
      refine iff_of_true ?_ ⟨Nat.zero_le 1, List.forall_mem_nil _⟩
      intro gs h
      have hnone := le_length_segments gs
      rw [bytes_eq_bytes_iff.mp h] at hnone
      apply List.length_eq_zero_iff.mp
      have hempty : (segments []).length = 0 := rfl
      omega
  | [f] =>
      constructor
      · intro hown
        refine ⟨Nat.le_refl 1, List.forall_mem_singleton.mpr ?_⟩
        by_contra hzeros
        obtain ⟨g, hne, hsegments⟩ := File.exists_ne_of_zeros hzeros
        have hsame : segments [g] = segments [f] := by
          rw [segments_cons, segments_cons, hsegments]
        exact hne (List.cons.inj (hown [g] (bytes_eq_bytes_iff.mpr hsame))).1
      · rintro ⟨-, hplain⟩ gs h
        exact eq_of_bytes_of_plain (hplain f (List.mem_singleton_self f)) h
  | f :: g :: rest =>
      refine iff_of_false ?_ (by simp)
      intro hown
      obtain ⟨gs, hne, hsame⟩ := exists_ne_of_many f g rest
      exact hne (hown gs hsame)

/-- Which lists of files are told apart: those with different segments, and no others.  So lists of
files without zero characters are, but a list is told from every other one only if it is empty or a
single file without zero characters.  What is not told apart shares its fingerprint; else only a
collision of SHA-256 makes two lists share one. -/
theorem shared_iff (fs gs : List File) :
    (bytes fs = bytes gs ↔ segments fs = segments gs) ∧
      (fs = gs ↔ bytes fs = bytes gs ∧ fs.map File.zeros = gs.map File.zeros) ∧
      Set.InjOn bytes {files | IsPlain files} ∧
      ((∀ hs, bytes hs = bytes fs → hs = fs) ↔ fs.length ≤ 1 ∧ IsPlain fs) ∧
      (fingerprint fs = fingerprint gs ↔
        segments fs = segments gs ∨ Sha256.Collide (bytes fs) (bytes gs)) := by
  refine ⟨bytes_eq_bytes_iff, ⟨?_, ?_⟩, injOn_bytes, unshared_iff, fingerprint_eq_fingerprint_iff⟩
  · rintro rfl
    exact ⟨rfl, rfl⟩
  · rintro ⟨hbytes, hzeros⟩
    exact eq_of_segments hzeros (bytes_eq_bytes_iff.mp hbytes)

/-- Two files have the bytes, and so the fingerprint, of a single one. -/
theorem not_injective_of_joined :
    let two : List File := [⟨"a", "b"⟩, ⟨"c", "d"⟩]
    let one : List File := [⟨"a", "b\x00c\x00d"⟩]
    one ≠ two ∧ bytes one = bytes two ∧ fingerprint one = fingerprint two ∧
      ¬ Function.Injective bytes := by
  intro two one
  have hne : one ≠ two := by decide
  have hbytes : bytes one = bytes two := bytes_eq_bytes_iff.mpr (by decide)
  refine ⟨hne, hbytes, ?_, ?_⟩
  · rw [fingerprint, hbytes, fingerprint]
  · intro hinjective
    exact hne (hinjective hbytes)

end Fingerprint

end PreviewDeploy
