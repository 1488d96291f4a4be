import Mathlib.Algebra.Group.Nat.Defs
import PreviewDeploy.Time.Timestamp

/-!
# Timestamps and their texts

The text of a moment is read as that moment again, in the years that are written with four digits
(`Timestamp.parse?_text`), and what the calendar says of a number of seconds is a moment
(`Timestamp.valid_ofUnixSeconds`).  Each reader is shown to take what its writer has put in front
of any text.

A text shows the local time in a year of four digits.  The moment is at most a day off, so it has
such a year too, but for the last day before these years and the first one after them
(`Timestamp.isBeyond_or_of_parse?`).  The texts of the moments of these two days begin with a sign
and are not read (`Timestamp.parse?_text_of_beyond`).
-/

namespace PreviewDeploy.Timestamp

variable {t : Timestamp} {n width value : Nat} {rest : List Char}

/-! ### Digits -/

/-- The character of a digit. -/
def digitChar (d : Nat) : Char := Char.ofNat ('0'.toNat + d)

theorem digit?_digitChar {d : Nat} (h : d < 10) : digit? (digitChar d) = some d := by
  have all : ∀ d : Fin 10, digit? (digitChar d) = some d.val := by decide
  exact all ⟨d, h⟩

/-- The values of the `width` lowest digits of a number, the highest first. -/
def digitsOf : Nat → Nat → List Nat
  | 0, _ => []
  | width + 1, n => digitsOf width (n / 10) ++ [n % 10]

theorem decimals_eq (width n : Nat) : decimals width n = (digitsOf width n).map digitChar := by
  induction width generalizing n with
  | zero => rfl
  | succ width ih =>
      rw [decimals, digitsOf, ih, List.map_append]
      rfl

theorem length_digitsOf (width n : Nat) : (digitsOf width n).length = width := by
  induction width generalizing n with
  | zero => rfl
  | succ width ih => rw [digitsOf, List.length_append, ih, List.length_singleton]

theorem lt_of_mem_digitsOf {d : Nat} (h : d ∈ digitsOf width n) : d < 10 := by
  induction width generalizing n with
  | zero => cases h
  | succ width ih =>
      obtain h | h := List.mem_append.mp h
      · exact ih h
      · rw [List.mem_singleton.mp h]
        exact Nat.mod_lt _ (by omega)

theorem foldl_digitsOf (hn : n < 10 ^ width) :
    (digitsOf width n).foldl (fun m d => m * 10 + d) value = value * 10 ^ width + n := by
  induction width generalizing n with
  | zero =>
      obtain rfl : n = 0 := by simpa using hn
      simp [digitsOf]
  | succ width ih =>
      have hlt : n / 10 < 10 ^ width := by
        rw [Nat.pow_succ] at hn
        omega
      rw [digitsOf, List.foldl_append, ih hlt, List.foldl_cons, List.foldl_nil, Nat.pow_succ]
      have hmul : value * (10 ^ width * 10) = value * 10 ^ width * 10 := (Nat.mul_assoc ..).symm
      omega

theorem readFixed_map_digitChar {ds : List Nat} (hds : ∀ d ∈ ds, d < 10) :
    readFixed value ds.length (ds.map digitChar ++ rest) =
      some (ds.foldl (fun m d => m * 10 + d) value, rest) := by
  induction ds generalizing value with
  | nil => rfl
  | cons d ds ih =>
      obtain ⟨hd, hds⟩ := List.forall_mem_cons.mp hds
      simp only [List.map_cons, List.cons_append, List.length_cons, readFixed, digit?_digitChar hd,
        ih hds, List.foldl_cons]

theorem readFixed_decimals (hn : n < 10 ^ width) :
    readFixed 0 width (decimals width n ++ rest) = some (n, rest) := by
  have hdigits : ∀ d ∈ digitsOf width n, d < 10 := fun d hd => lt_of_mem_digitsOf hd
  have hread : readFixed 0 _ (_ ++ rest) = _ := readFixed_map_digitChar hdigits
  rwa [length_digitsOf, ← decimals_eq, foldl_digitsOf hn, Nat.zero_mul, Nat.zero_add] at hread

theorem digit?_lt {c : Char} {d : Nat} (h : digit? c = some d) : d < 10 := by
  unfold digit? at h
  split at h
  · rename_i hc
    have hnine : c.toNat ≤ '9'.toNat := hc.2
    have hvalue : c.toNat - '0'.toNat = d := Option.some.inj h
    have hzero : '0'.toNat = 48 := rfl
    have hnine' : '9'.toNat = 57 := rfl
    omega
  · cases h

theorem readFixed_lt {cs : List Char} (h : readFixed value width cs = some (n, rest)) :
    n < (value + 1) * 10 ^ width := by
  induction width generalizing value cs with
  | zero =>
      obtain ⟨rfl, -⟩ := Prod.mk.inj (Option.some.inj h)
      simp
  | succ width ih =>
      cases cs with
      | nil => cases h
      | cons c cs =>
          rw [readFixed] at h
          split at h
          · rename_i d hd
            have hdigit := digit?_lt hd
            calc n < (value * 10 + d + 1) * 10 ^ width := ih h
              _ ≤ (value + 1) * 10 * 10 ^ width := Nat.mul_le_mul_right _ (by omega)
              _ = (value + 1) * 10 ^ (width + 1) := by rw [Nat.pow_succ', Nat.mul_assoc]
          · cases h

/-- What does not begin with a digit. -/
def Undigited (cs : List Char) : Prop := ∀ c ∈ cs.head?, digit? c = none

theorem readDigits_map_digitChar {ds : List Nat} (hds : ∀ d ∈ ds, d < 10) (hrest : Undigited rest) :
    readDigits (ds.map digitChar ++ rest) = (ds, rest) := by
  induction ds with
  | nil =>
      cases rest with
      | nil => rfl
      | cons c rest =>
          have hc : digit? c = none := hrest c rfl
          simp [readDigits, hc]
  | cons d ds ih =>
      obtain ⟨hd, hds⟩ := List.forall_mem_cons.mp hds
      simp only [List.map_cons, List.cons_append, readDigits, digit?_digitChar hd, ih hds]

/-! ### Fractions -/

/-- Leading digits of a fraction of nine digits stand for so many nanoseconds. -/
theorem nanosOfDigits_digitsOf (hwidth : width ≤ 9) (hn : n < 10 ^ width) :
    nanosOfDigits (digitsOf width n) = n * 10 ^ (9 - width) := by
  have zeros (k m : Nat) :
      (List.replicate k 0).foldl (fun m d => m * 10 + d) m = m * 10 ^ k := by
    induction k generalizing m with
    | zero => simp
    | succ k ih => simp [List.replicate_succ, ih, Nat.pow_succ', Nat.mul_assoc]
  have htake : (digitsOf width n).take 9 = digitsOf width n :=
    List.take_of_length_le (by rw [length_digitsOf]; exact hwidth)
  rw [nanosOfDigits, htake, length_digitsOf, List.foldl_append, foldl_digitsOf hn, zeros,
    Nat.zero_mul, Nat.zero_add]

theorem readFraction_decimals (hpos : 0 < width) (hwidth : width ≤ 9) (hn : n < 10 ^ width)
    (hrest : Undigited rest) :
    readFraction ('.' :: (decimals width n ++ rest)) = some (n * 10 ^ (9 - width), rest) := by
  have hdigits : ∀ d ∈ digitsOf width n, d < 10 := fun d hd => lt_of_mem_digitsOf hd
  have hread := readDigits_map_digitChar hdigits hrest
  have hne : digitsOf width n ≠ [] := by
    rw [← List.length_pos_iff, length_digitsOf]
    exact hpos
  rw [readFraction, decimals_eq, hread]
  cases hds : digitsOf width n with
  | nil => exact absurd hds hne
  | cons d ds => simp only [← hds, nanosOfDigits_digitsOf hwidth hn]

theorem readFraction_fractionChars {nanos : Nat} (hn : nanos < 1000000000)
    (hrest : Undigited rest) (hpoint : rest.head? ≠ some '.') :
    readFraction (fractionChars nanos ++ rest) = some (nanos, rest) := by
  unfold fractionChars
  split
  · rename_i h
    subst h
    cases rest with
    | nil => rfl
    | cons c rest =>
        have hc : c ≠ '.' := by simpa using hpoint
        simp [readFraction, hc]
  · split
    · have hlt : nanos / 1000000 < 10 ^ 3 := by omega
      rw [List.cons_append, readFraction_decimals (by omega) (by omega) hlt hrest]
      simp only [Option.some.injEq, Prod.mk.injEq, and_true]
      omega
    · split
      · have hlt : nanos / 1000 < 10 ^ 6 := by omega
        rw [List.cons_append, readFraction_decimals (by omega) (by omega) hlt hrest]
        simp only [Option.some.injEq, Prod.mk.injEq, and_true]
        omega
      · rw [List.cons_append, readFraction_decimals (by omega) (by omega) (by omega) hrest]
        simp

/-! ### Moments -/

/-- Where the clock shows UTC the local time is the moment. -/
theorem ofLocal_zero (hv : t.Valid) : t.ofLocal 0 = t := by
  obtain ⟨-, -, -, -, hhour, hminute, -⟩ := hv
  have hm : ((t.hour * 60 + t.minute : Nat) - 0 : Int).toNat = t.hour * 60 + t.minute := by omega
  have hhours : (t.hour * 60 + t.minute) / 60 = t.hour := by omega
  have hminutes : (t.hour * 60 + t.minute) % 60 = t.minute := by omega
  unfold ofLocal
  simp only [hm, hhours, hminutes]
  rw [if_neg (by omega), if_neg (by omega)]

/-- The fields of a moment are those of the moment; past a whole second the second counts on. -/
theorem ofFields_of_valid (hv : t.Valid) (hyear : inCalendar t.year = true) :
    ofFields t.year t.month t.day t.hour t.minute
      (if 1000000000 ≤ t.nanos then t.second + 1 else t.second)
      (if 1000000000 ≤ t.nanos then t.nanos - 1000000000 else t.nanos) 0 = some t := by
  have hfields : (if (if 1000000000 ≤ t.nanos then t.second + 1 else t.second) = 60 then
      ⟨t.year, t.month, t.day, t.hour, t.minute, 59,
        (if 1000000000 ≤ t.nanos then t.nanos - 1000000000 else t.nanos) + 1000000000⟩
      else ⟨t.year, t.month, t.day, t.hour, t.minute,
        (if 1000000000 ≤ t.nanos then t.second + 1 else t.second),
        (if 1000000000 ≤ t.nanos then t.nanos - 1000000000 else t.nanos)⟩ : Timestamp) = t := by
    obtain ⟨-, -, -, -, -, -, hsecond, hnanos⟩ := hv
    obtain ⟨year, month, day, hour, minute, second, nanos⟩ := t
    simp only at hsecond hnanos ⊢
    split at hnanos <;> by_cases hleap : 1000000000 ≤ nanos <;> simp only [hleap, if_true, if_false]
    · rename_i h
      subst h
      simp only [if_true, mk.injEq, true_and]
      omega
    · rw [if_neg (by omega)]
    · omega
    · rw [if_neg (by omega)]
  have hsixty : (if 1000000000 ≤ t.nanos then t.second + 1 else t.second) ≤ 60 := by
    have hsecond := hv.2.2.2.2.2.2.1
    split <;> omega
  unfold ofFields
  simp only [hfields, ofLocal_zero hv, hyear, hv, hsixty, true_and, if_true]
  rfl

/-- The text of a moment is read as the moment. -/
theorem ofChars_chars (hv : t.Valid) (hfrom : 0 ≤ t.year) (hto : t.year ≤ 9999) :
    ofChars (t.chars "+00:00".toList) = some t := by
  have hyear : yearChars t.year = decimals 4 t.year.natAbs := by
    rw [yearChars, if_pos ⟨hfrom, hto⟩]
  have hcalendar : inCalendar t.year = true := by
    simp only [inCalendar, Bool.and_eq_true, decide_eq_true_eq]
    omega
  have hfields := ofFields_of_valid hv hcalendar
  obtain ⟨-, hmonth, -, hday, hhour, hminute, hsecond, hnanos⟩ := hv
  have hdays : daysInMonth t.year t.month ≤ 31 := by
    unfold daysInMonth
    repeat' split
    all_goals omega
  generalize hsecond' : (if 1000000000 ≤ t.nanos then t.second + 1 else t.second) = second
    at hfields
  generalize hnanos' : (if 1000000000 ≤ t.nanos then t.nanos - 1000000000 else t.nanos) = nanos
    at hfields
  have hsixty : second < 10 ^ 2 := by
    rw [← hsecond']
    split <;> omega
  have hwhole : nanos < 1000000000 := by
    rw [← hnanos']
    split at hnanos <;> split <;> omega
  have hzone : Undigited "+00:00".toList := by
    intro c hc
    obtain rfl : '+' = c := Option.some.inj hc
    decide
  have hutc : readOffset (readChar ':') "+00:00".toList = some (0, []) := by decide
  -- Each reader takes what its writer has put in front of the rest.
  simp only [ofChars, chars, hsecond', hnanos', hyear, Option.bind_eq_bind, Option.bind_some,
    readFixed_decimals (show t.year.natAbs < 10 ^ 4 by omega), readChar, if_true,
    readFixed_decimals (show t.month < 10 ^ 2 by omega),
    readFixed_decimals (show t.day < 10 ^ 2 by omega), readTimeMark, true_or, or_true,
    readFixed_decimals (show t.hour < 10 ^ 2 by omega),
    readFixed_decimals (show t.minute < 10 ^ 2 by omega), readFixed_decimals hsixty,
    readFraction_fractionChars hwhole hzone (by decide), hutc, List.isEmpty_nil]
  rw [Int.natAbs_of_nonneg hfrom]
  exact hfields

theorem parse?_text (hv : t.Valid) (hfrom : 0 ≤ t.year) (hto : t.year ≤ 9999) :
    parse? t.text = some t := by
  rw [parse?, text, String.toList_ofList]
  exact ofChars_chars hv hfrom hto

/-! ### The calendar -/

theorem one_le_daysInMonth (year : Int) (month : Nat) : 1 ≤ daysInMonth year month := by
  unfold daysInMonth
  repeat' split
  all_goals omega

theorem valid_nextDay (hv : t.Valid) : t.nextDay.Valid ∧ t.year ≤ t.nextDay.year := by
  obtain ⟨hfrom, hto, hday, hdays, htime⟩ := hv
  unfold nextDay
  split
  · rename_i h
    exact ⟨⟨hfrom, hto, Nat.le_add_left .., h, htime⟩, Int.le_refl _⟩
  · split
    · rename_i h
      exact ⟨⟨Nat.le_add_left .., h, Nat.le_refl _, one_le_daysInMonth .., htime⟩, Int.le_refl _⟩
    · exact ⟨⟨Nat.le_refl 1, (by decide : 1 ≤ 12), Nat.le_refl 1, one_le_daysInMonth .., htime⟩,
        Int.le_add_one (Int.le_refl _)⟩

theorem valid_previousDay (hv : t.Valid) : t.previousDay.Valid := by
  obtain ⟨hfrom, hto, hday, hdays, htime⟩ := hv
  unfold previousDay
  split
  · exact ⟨hfrom, hto, by simp only; omega, by simp only; omega, htime⟩
  · split
    · exact ⟨by simp only; omega, by simp only; omega, one_le_daysInMonth .., Nat.le_refl _, htime⟩
    · exact ⟨(by decide : 1 ≤ 12), Nat.le_refl 12, (by decide : 1 ≤ 31), Nat.le_refl 31, htime⟩

theorem valid_addDays (hv : t.Valid) (n : Nat) :
    (t.addDays n).Valid ∧ t.year ≤ (t.addDays n).year := by
  induction n generalizing t with
  | zero => exact ⟨hv, Int.le_refl _⟩
  | succ n ih =>
      obtain ⟨hnext, hyear⟩ := valid_nextDay hv
      obtain ⟨hvalid, hyears⟩ := ih hnext
      exact ⟨hvalid, Int.le_trans hyear hyears⟩

theorem valid_ofUnixSeconds (n : Nat) {nanos : Nat} (hnanos : nanos < 1000000000) :
    (ofUnixSeconds n nanos).Valid ∧ 1970 ≤ (ofUnixSeconds n nanos).year := by
  refine valid_addDays (t := ⟨1970, 1, 1, n % 86400 / 3600, n % 3600 / 60, n % 60, nanos⟩)
    ⟨by simp, by simp, by simp, by simp [daysInMonth], ?_, ?_, ?_, ?_⟩ _
  · simp only
    omega
  · simp only
    omega
  · simp only
    omega
  · simp only
    split <;> omega

/-! ### Moments that were read -/

theorem valid_ofLocal {minutes : Int} (hv : t.Valid) (hfrom : -1440 < minutes)
    (hto : minutes < 1440) : (t.ofLocal minutes).Valid := by
  have hshifted {m : Int} (hm : 0 ≤ m) (hm' : m < 1440) :
      ({ t with hour := m.toNat / 60, minute := m.toNat % 60 } : Timestamp).Valid := by
    obtain ⟨hmonth, hmonths, hday, hdays, -, -, htime⟩ := hv
    exact ⟨hmonth, hmonths, hday, hdays, by simp only; omega, by simp only; omega, htime⟩
  obtain ⟨-, -, -, -, hhour, hminute, -⟩ := id hv
  unfold ofLocal
  simp only
  split
  · exact valid_previousDay (hshifted (by omega) (by omega))
  · split
    · exact (valid_nextDay (hshifted (by omega) (by omega))).1
    · exact hshifted (by omega) (by omega)

/-- What fields stand for is the moment of a local time with these fields. -/
theorem exists_clock_of_ofFields {year offset : Int} {month day hour minute second nanos : Nat}
    (h : ofFields year month day hour minute second nanos offset = some t) :
    ∃ clock : Timestamp, clock.Valid ∧ clock.year = year ∧ -1440 < offset ∧ offset < 1440 ∧
      t = clock.ofLocal offset := by
  unfold ofFields at h
  generalize hclock : (if second = 60 then _ else _ : Timestamp) = clock at h
  have hyear : clock.year = year := by
    rw [← hclock]
    split <;> rfl
  simp only at h
  split at h
  · rename_i hfields
    obtain ⟨-, hvalid, -, hfrom, hto⟩ := hfields
    split at h
    · exact ⟨clock, hvalid, hyear, hfrom, hto, (Option.some.inj h).symm⟩
    · cases h
  · cases h

/-- What a text is read as was shown by a clock in a year of four digits. -/
theorem exists_clock_of_parse? {text : String} (h : parse? text = some t) :
    ∃ (clock : Timestamp) (offset : Int), clock.Valid ∧ 0 ≤ clock.year ∧ clock.year ≤ 9999 ∧
      -1440 < offset ∧ offset < 1440 ∧ t = clock.ofLocal offset := by
  unfold parse? ofChars at h
  -- Only the year is bounded by its digits, the other fields are by what makes a moment of them.
  obtain ⟨⟨year, cs⟩, hyear, h⟩ := Option.bind_eq_some_iff.mp h
  obtain ⟨cs, -, h⟩ := Option.bind_eq_some_iff.mp h
  obtain ⟨⟨month, cs⟩, -, h⟩ := Option.bind_eq_some_iff.mp h
  obtain ⟨cs, -, h⟩ := Option.bind_eq_some_iff.mp h
  obtain ⟨⟨day, cs⟩, -, h⟩ := Option.bind_eq_some_iff.mp h
  obtain ⟨cs, -, h⟩ := Option.bind_eq_some_iff.mp h
  obtain ⟨⟨hour, cs⟩, -, h⟩ := Option.bind_eq_some_iff.mp h
  obtain ⟨cs, -, h⟩ := Option.bind_eq_some_iff.mp h
  obtain ⟨⟨minute, cs⟩, -, h⟩ := Option.bind_eq_some_iff.mp h
  obtain ⟨cs, -, h⟩ := Option.bind_eq_some_iff.mp h
  obtain ⟨⟨second, cs⟩, -, h⟩ := Option.bind_eq_some_iff.mp h
  obtain ⟨⟨nanos, cs⟩, -, h⟩ := Option.bind_eq_some_iff.mp h
  obtain ⟨⟨offset, cs⟩, -, h⟩ := Option.bind_eq_some_iff.mp h
  have hfour : year < 10000 := by simpa using readFixed_lt hyear
  simp only at h
  split at h
  · obtain ⟨clock, hvalid, hclock, hfrom, hto, rfl⟩ := exists_clock_of_ofFields h
    exact ⟨clock, offset, hvalid, by omega, by omega, hfrom, hto, rfl⟩
  · cases h

/-- A day before or after the years of four digits: the last one before them, or the first one
after them. -/
def IsBeyond (t : Timestamp) : Prop :=
  t.year = -1 ∧ t.month = 12 ∧ t.day = 31 ∨ t.year = 10000 ∧ t.month = 1 ∧ t.day = 1

instance (t : Timestamp) : Decidable t.IsBeyond := by unfold IsBeyond; infer_instance

theorem IsBeyond.not_years (h : t.IsBeyond) : ¬ (0 ≤ t.year ∧ t.year ≤ 9999) := by
  unfold IsBeyond at h
  omega

/-- The moment of a local time is in the year that the clock shows, or on the day next to it. -/
theorem date_ofLocal (t : Timestamp) (minutes : Int) :
    (t.ofLocal minutes).year = t.year ∨
      (t.ofLocal minutes).year = t.year - 1 ∧ (t.ofLocal minutes).month = 12 ∧
        (t.ofLocal minutes).day = 31 ∨
      (t.ofLocal minutes).year = t.year + 1 ∧ (t.ofLocal minutes).month = 1 ∧
        (t.ofLocal minutes).day = 1 := by
  unfold ofLocal
  simp only
  split
  · unfold previousDay
    repeat' split
    all_goals simp
  · split
    · unfold nextDay
      repeat' split
      all_goals simp
    · exact .inl rfl

theorem valid_of_parse? {text : String} (h : parse? text = some t) : t.Valid := by
  obtain ⟨clock, offset, hvalid, -, -, hfrom, hto, rfl⟩ := exists_clock_of_parse? h
  exact valid_ofLocal hvalid hfrom hto

/-- The moment of a text has a year of four digits, except where its offset leads out of them. -/
theorem isBeyond_or_of_parse? {text : String} (h : parse? text = some t) :
    t.IsBeyond ∨ 0 ≤ t.year ∧ t.year ≤ 9999 := by
  obtain ⟨clock, offset, -, hfrom, hto, -, -, rfl⟩ := exists_clock_of_parse? h
  unfold IsBeyond
  obtain hyear | ⟨hyear, hdate⟩ | ⟨hyear, hdate⟩ := date_ofLocal clock offset
  · omega
  · omega
  · omega

/-- A year with a sign is not read. -/
theorem parse?_text_of_beyond (h : t.IsBeyond) : parse? t.text = none := by
  have hsign (sign : Char) (rest : List Char) (hs : digit? sign = none) :
      ofChars (sign :: rest) = none := by
    rw [ofChars, readFixed, hs]
    rfl
  rw [parse?, text, String.toList_ofList, chars, yearChars, if_neg h.not_years, List.cons_append]
  split
  · exact hsign _ _ (by decide)
  · exact hsign _ _ (by decide)

end PreviewDeploy.Timestamp
