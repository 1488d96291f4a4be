import PreviewDeploy.Proofs.ReadOnlyPaths

/-!
# What read-only directories cover

The directories of a policy are named by texts whose front does not count (`strip_eq_iff`) and that
may end with a slash.  If each text says so plainly (`ReadOnly.IsProper`: at most one slash at its
end, and more than a dot), a path is read-only exactly if it is one of the directories or continues
one after a slash (`ReadOnly.isReadOnly_ofTexts_iff`).  From this follows what can be written
differently without a change, and where a directory ends.
-/

namespace PreviewDeploy.ReadOnly

variable {d p q front : List Char}

/-! ### Fronts -/

/-- Some `./` and `/`, one after the other. -/
inductive Front : List Char → Prop
  | nil : Front []
  | slash {front : List Char} (more : Front front) : Front ('/' :: front)
  | dot {front : List Char} (more : Front front) : Front ('.' :: '/' :: front)

/-- The text begins with neither `./` nor `/`. -/
structure IsStripped (p : List Char) : Prop where
  slash : ¬ ['/'] <+: p
  dot : ¬ ['.', '/'] <+: p

theorem strip_append (hfront : Front front) (p : List Char) : strip (front ++ p) = strip p := by
  induction hfront with
  | nil => rfl
  | slash _ ih => rw [List.cons_append, strip, ih]
  | dot _ ih => rw [List.cons_append, List.cons_append, strip, ih]

theorem isStripped_strip (p : List Char) : IsStripped (strip p) := by
  induction p using strip.induct with
  | case1 rest ih => rwa [strip]
  | case2 rest ih => rwa [strip]
  | case3 p hdot hslash =>
      rw [strip.eq_3 p hdot hslash]
      constructor
      · rintro ⟨rest, h⟩
        exact hslash rest h.symm
      · rintro ⟨rest, h⟩
        exact hdot rest h.symm

theorem strip_of_isStripped (hp : IsStripped p) : strip p = p :=
  strip.eq_3 p (fun rest h => hp.dot ⟨rest, h.symm⟩) fun rest h => hp.slash ⟨rest, h.symm⟩

theorem exists_front (p : List Char) : ∃ front, Front front ∧ p = front ++ strip p := by
  induction p using strip.induct with
  | case1 rest ih =>
      obtain ⟨front, hfront, hrest⟩ := ih
      refine ⟨_, .dot hfront, ?_⟩
      rw [strip, List.cons_append, List.cons_append, ← hrest]
  | case2 rest ih =>
      obtain ⟨front, hfront, hrest⟩ := ih
      refine ⟨_, .slash hfront, ?_⟩
      rw [strip, List.cons_append, ← hrest]
  | case3 p hdot hslash =>
      rw [strip.eq_3 p hdot hslash]
      exact ⟨[], .nil, rfl⟩

/-- All of the front is removed, and nothing else. -/
theorem strip_eq_iff : strip p = q ↔ (∃ front, Front front ∧ p = front ++ q) ∧ IsStripped q := by
  constructor
  · rintro rfl
    exact ⟨exists_front p, isStripped_strip p⟩
  · rintro ⟨⟨front, hfront, rfl⟩, hq⟩
    rw [strip_append hfront, strip_of_isStripped hq]

theorem Front.getLast?_eq (hfront : Front front) (hne : front ≠ []) :
    front.getLast? = some '/' := by
  induction hfront with
  | nil => exact absurd rfl hne
  | @slash front _ ih =>
      by_cases h : front = []
      · rw [h]
        rfl
      · rw [List.getLast?_cons, ih h]
        rfl
  | @dot front _ ih =>
      by_cases h : front = []
      · rw [h]
        rfl
      · rw [List.getLast?_cons, List.getLast?_cons, ih h]
        rfl

theorem getLast?_strip (hne : strip p ≠ []) : (strip p).getLast? = p.getLast? := by
  obtain ⟨front, -, hp⟩ := exists_front p
  have hor : p.getLast? = (strip p).getLast?.or front.getLast? := by
    rw [← List.getLast?_append, ← hp]
  rw [hor]
  cases hlast : (strip p).getLast? with
  | none => exact absurd (List.getLast?_eq_none_iff.mp hlast) hne
  | some c => rfl

theorem IsStripped.of_isPrefix (hp : IsStripped p) (h : q <+: p) : IsStripped q :=
  ⟨fun hq => hp.slash (hq.trans h), fun hq => hp.dot (hq.trans h)⟩

/-- A text that has its first component keeps it, whatever comes after. -/
theorem IsStripped.append (hp : IsStripped p) (hne : p ≠ []) (hdot : p ≠ ['.'])
    (q : List Char) : IsStripped (p ++ q) := by
  cases p with
  | nil => exact absurd rfl hne
  | cons c p =>
      refine ⟨fun h => hp.slash ?_, fun h => hp.dot ?_⟩
      · rw [List.cons_append, List.cons_prefix_cons] at h
        obtain ⟨rfl, -⟩ := h
        exact List.prefix_append ['/'] p
      · rw [List.cons_append, List.cons_prefix_cons] at h
        obtain ⟨rfl, h⟩ := h
        cases p with
        | nil => exact absurd rfl hdot
        | cons c p =>
            rw [List.cons_append, List.cons_prefix_cons] at h
            obtain ⟨rfl, -⟩ := h
            exact List.prefix_append ['.', '/'] p

theorem strip_append_of_ne (hne : strip p ≠ []) (hdot : strip p ≠ ['.']) (q : List Char) :
    strip (p ++ q) = strip p ++ q := by
  obtain ⟨front, hfront, hp⟩ := exists_front p
  refine strip_eq_iff.mpr ⟨⟨front, hfront, ?_⟩, (isStripped_strip p).append hne hdot q⟩
  rw [← List.append_assoc, ← hp]

/-! ### Directories -/

/-- The directory that a text names: without its front, and without a slash at its end. -/
def directory (d : List Char) : List Char :=
  if (strip d).getLast? = some '/' then (strip d).dropLast else strip d

/-- The directories that some texts name; a text that is all front names none. -/
def directories (texts : List String) : List (List Char) :=
  (texts.map fun t => directory t.toList).filter (· ≠ [])

/-- A path is a directory or continues it after a slash. -/
def Within (dir path : List Char) : Prop := path = dir ∨ dir ++ ['/'] <+: path

/-- After its front a text ends with at most one slash, and is not just a dot. -/
structure IsProper (d : List Char) : Prop where
  single : ¬ ['/', '/'] <:+ strip d
  ne_dot : strip d ≠ ['.']

instance : Decidable (IsProper d) :=
  decidable_of_iff (¬ ['/', '/'] <:+ strip d ∧ strip d ≠ ['.'])
    ⟨fun h => ⟨h.1, h.2⟩, fun h => ⟨h.1, h.2⟩⟩

theorem asDirectory_eq (d : List Char) : asDirectory d = directory d ++ ['/'] := by
  unfold asDirectory directory
  simp only
  split
  · rename_i hlast
    obtain ⟨x, hx⟩ := List.getLast?_eq_some_iff.mp hlast
    rw [hx, List.dropLast_concat]
  · rfl

theorem isPrefix_directory (d : List Char) : directory d <+: strip d := by
  unfold directory
  split
  · exact List.dropLast_prefix _
  · exact List.prefix_rfl

theorem getLast?_directory_ne (hd : IsProper d) : (directory d).getLast? ≠ some '/' := by
  unfold directory
  split
  · rename_i hlast
    obtain ⟨x, hx⟩ := List.getLast?_eq_some_iff.mp hlast
    rw [hx, List.dropLast_concat]
    intro hslash
    obtain ⟨y, hy⟩ := List.getLast?_eq_some_iff.mp hslash
    refine hd.single ⟨y, ?_⟩
    rw [hx, hy, List.append_assoc]
    rfl
  · assumption

theorem directory_ne_dot (hd : IsProper d) : directory d ≠ ['.'] := by
  unfold directory
  split
  · rename_i hlast
    obtain ⟨x, hx⟩ := List.getLast?_eq_some_iff.mp hlast
    rw [hx, List.dropLast_concat]
    rintro rfl
    exact (isStripped_strip d).dot (hx ▸ List.prefix_rfl)
  · exact hd.ne_dot

theorem guards_iff_within (hd : IsProper d) :
    Guards d p ↔ directory d ≠ [] ∧ Within (directory d) (strip p) := by
  rw [Guards, asDirectory_eq, trimSlashes_concat (getLast?_directory_ne hd), Within,
    or_comm (a := _ <+: _)]
  simp

variable {texts : List String} {dir : List Char}

theorem isReadOnly_ofTexts_iff (htexts : ∀ t ∈ texts, IsProper t.toList) {path : String} :
    (Policy.ofTexts texts).isReadOnly path = true ↔
      ∃ dir ∈ directories texts, Within dir (strip path.toList) := by
  simp only [isReadOnly_ofTexts, directories, List.mem_filter, List.mem_map, decide_eq_true_eq]
  constructor
  · rintro ⟨t, ht, hguards⟩
    obtain ⟨hne, hwithin⟩ := (guards_iff_within (htexts t ht)).mp hguards
    exact ⟨_, ⟨⟨t, ht, rfl⟩, hne⟩, hwithin⟩
  · rintro ⟨-, ⟨⟨t, ht, rfl⟩, hne⟩, hwithin⟩
    exact ⟨t, ht, (guards_iff_within (htexts t ht)).mpr ⟨hne, hwithin⟩⟩

/-! ### Spellings of a directory -/

theorem asDirectory_append (hfront : Front front) (d : List Char) :
    asDirectory (front ++ d) = asDirectory d := by
  unfold asDirectory
  rw [strip_append hfront]

theorem asDirectory_concat (hdot : strip d ≠ ['.']) (hlast : d.getLast? ≠ some '/') :
    asDirectory (d ++ ['/']) = asDirectory d := by
  by_cases hne : strip d = []
  · -- A text that is all front ends with a slash, unless it is empty.
    obtain ⟨front, hfront, hd⟩ := exists_front d
    rw [hne, List.append_nil] at hd
    have hempty : d = [] := Classical.byContradiction fun h =>
      hlast (hd ▸ hfront.getLast?_eq (hd ▸ h))
    rw [hempty]
    rfl
  · rw [← getLast?_strip hne] at hlast
    unfold asDirectory
    rw [strip_append_of_ne hne hdot]
    simp [hlast]

theorem ofTexts_congr {before after : List String} {t u : String}
    (h : asDirectory u.toList = asDirectory t.toList) :
    Policy.ofTexts (before ++ u :: after) = Policy.ofTexts (before ++ t :: after) := by
  simp only [Policy.ofTexts, List.map_append, List.map_cons, h]

/-! ### Where a directory ends -/

/-- What a directory of proper texts looks like. -/
structure IsName (dir : List Char) : Prop where
  ne_nil : dir ≠ []
  ne_dot : dir ≠ ['.']
  stripped : IsStripped dir
  slashless : dir.getLast? ≠ some '/'

theorem isName_of_mem (htexts : ∀ t ∈ texts, IsProper t.toList) (hdir : dir ∈ directories texts) :
    IsName dir := by
  simp only [directories, List.mem_filter, List.mem_map, decide_eq_true_eq] at hdir
  obtain ⟨⟨t, ht, rfl⟩, hne⟩ := hdir
  have hproper := htexts t ht
  exact ⟨hne, directory_ne_dot hproper, (isStripped_strip _).of_isPrefix (isPrefix_directory _),
    getLast?_directory_ne hproper⟩

theorem Within.isPrefix (h : Within dir p) : dir <+: p := by
  obtain rfl | h := h
  · exact List.prefix_rfl
  · exact (List.prefix_append dir ['/']).trans h

/-- What comes after a path in a directory is kept. -/
theorem Within.strip_append (h : Within dir (strip p)) (hdir : IsName dir) (q : List Char) :
    strip (p ++ q) = strip p ++ q := by
  have hpre := h.isPrefix
  refine strip_append_of_ne (fun hnil => hdir.ne_nil ?_) (fun hdot => ?_) q
  · rwa [hnil, List.prefix_nil] at hpre
  · rw [hdot, List.prefix_cons_iff] at hpre
    obtain hnil | ⟨rest, hrest, hnil⟩ := hpre
    · exact hdir.ne_nil hnil
    · rw [List.prefix_nil.mp hnil] at hrest
      exact hdir.ne_dot hrest

theorem Within.below (h : Within dir (strip p)) (hdir : IsName dir) (q : List Char) :
    Within dir (strip (p ++ '/' :: q)) := by
  rw [h.strip_append hdir]
  obtain h | h := h
  · exact .inr ⟨q, by rw [h, List.append_assoc, List.singleton_append]⟩
  · exact .inr (h.trans (List.prefix_append _ _))

/-- A path that ends with a slash is in the directory and not the directory itself. -/
theorem Within.below_of_slash (h : Within dir (strip p)) (hdir : IsName dir)
    (hlast : p.getLast? = some '/') (q : List Char) : Within dir (strip (p ++ q)) := by
  rw [h.strip_append hdir]
  obtain h | h := h
  · rw [← getLast?_strip (h ▸ hdir.ne_nil), h] at hlast
    exact absurd hlast hdir.slashless
  · exact .inr (h.trans (List.prefix_append _ _))

theorem not_within_append {more : List Char} (hmore : more ≠ []) (hslash : more.head? ≠ some '/') :
    ¬ Within dir (dir ++ more) := by
  rintro (h | h)
  · exact hmore (List.append_right_eq_self.mp h)
  · obtain ⟨rest, hrest⟩ := (List.prefix_append_right_inj dir).mp h
    exact hslash (by rw [← hrest]; rfl)

/-- What the policy of some texts makes read-only, and what does not matter to it. -/
structure IsExact (texts : List String) : Prop where
  isReadOnly_iff : ∀ path : String, (Policy.ofTexts texts).isReadOnly path = true ↔
    ∃ dir ∈ directories texts, Within dir (strip path.toList)
  /-- The front of a path does not matter. -/
  path_front : ∀ front path : String, Front front.toList →
    (Policy.ofTexts texts).isReadOnly (front ++ path) = (Policy.ofTexts texts).isReadOnly path
  /-- The front of a text does not matter. -/
  text_front : ∀ (before after : List String) (t front : String), texts = before ++ t :: after →
    Front front.toList → Policy.ofTexts (before ++ (front ++ t) :: after) = Policy.ofTexts texts
  /-- A slash at the end of a text does not matter. -/
  text_slash : ∀ (before after : List String) (t : String), texts = before ++ t :: after →
    t.toList.getLast? ≠ some '/' →
    Policy.ofTexts (before ++ (t ++ "/") :: after) = Policy.ofTexts texts
  /-- Everything below a read-only path is read-only. -/
  below : ∀ path rest : String, (Policy.ofTexts texts).isReadOnly path = true →
    (Policy.ofTexts texts).isReadOnly (path ++ "/" ++ rest) = true ∧
    (path.toList.getLast? = some '/' → (Policy.ofTexts texts).isReadOnly (path ++ rest) = true)
  /-- A path that continues the name of a directory is read-only only because of another one. -/
  beside : ∀ dir ∈ directories texts, ∀ more : List Char, more ≠ [] → more.head? ≠ some '/' →
    ((Policy.ofTexts texts).isReadOnly (String.ofList (dir ++ more)) = true ↔
      ∃ other ∈ directories texts, other ≠ dir ∧ Within other (dir ++ more))

/-- A policy of proper texts makes read-only what its directories cover, however texts and paths
begin and whether or not a text ends with a slash; a directory covers all that is below it and
nothing beside it. -/
theorem exact_of_proper (htexts : ∀ t ∈ texts, IsProper t.toList) : IsExact texts where
  isReadOnly_iff _ := isReadOnly_ofTexts_iff htexts
  path_front front path hfront := by
    rw [Bool.eq_iff_iff, isReadOnly_ofTexts_iff htexts, isReadOnly_ofTexts_iff htexts,
      String.toList_append, strip_append hfront]
  text_front before after t front ht hfront := by
    rw [ht]
    refine ofTexts_congr ?_
    rw [String.toList_append, asDirectory_append hfront]
  text_slash before after t ht hlast := by
    have hproper := htexts t (ht ▸ List.mem_append_right _ List.mem_cons_self)
    rw [ht]
    refine ofTexts_congr ?_
    rw [String.toList_append]
    exact asDirectory_concat hproper.ne_dot hlast
  below path rest hpath := by
    obtain ⟨dir, hdir, hwithin⟩ := (isReadOnly_ofTexts_iff htexts).mp hpath
    have hname := isName_of_mem htexts hdir
    refine ⟨(isReadOnly_ofTexts_iff htexts).mpr ⟨dir, hdir, ?_⟩, fun hlast =>
      (isReadOnly_ofTexts_iff htexts).mpr ⟨dir, hdir, ?_⟩⟩
    · rw [String.toList_append, String.toList_append, List.append_assoc]
      exact hwithin.below hname rest.toList
    · rw [String.toList_append]
      exact hwithin.below_of_slash hname hlast rest.toList
  beside dir hdir more hmore hslash := by
    have hname := isName_of_mem htexts hdir
    have hstrip : strip (dir ++ more) = dir ++ more :=
      strip_of_isStripped (hname.stripped.append hname.ne_nil hname.ne_dot more)
    rw [isReadOnly_ofTexts_iff htexts, String.toList_ofList, hstrip]
    constructor
    · rintro ⟨other, hother, hwithin⟩
      refine ⟨other, hother, ?_, hwithin⟩
      rintro rfl
      exact not_within_append hmore hslash hwithin
    · rintro ⟨other, hother, -, hwithin⟩
      exact ⟨other, hother, hwithin⟩

/-- Texts with fronts, with and without a slash at the end, and one that names nothing; one
directory's name continues that of another. -/
def spelledOut : List String := ["./worker", "/", ".//shared/", "worker-api"]

theorem exact_of_proper_of_spelledOut :
    (∀ t ∈ spelledOut, IsProper t.toList) ∧ IsExact spelledOut ∧
      directories spelledOut =
        ["worker".toList, "shared".toList, "worker-api".toList] ∧
      ["worker", "./worker/a.ts", "/./shared//b", "worker-api/c", "workers", "src/worker"].map
        (Policy.ofTexts spelledOut).isReadOnly = [true, true, true, true, false, false] :=
  ⟨by decide +kernel, exact_of_proper (by decide +kernel), by decide +kernel, by decide +kernel⟩

end PreviewDeploy.ReadOnly
