import PreviewDeploy.Json.Reader
import PreviewDeploy.Json.Writer

/-!
# JSON texts

A tree without binary64 numbers, each of whose strings and numbers has a value, is read back from
its text (`Tree.parse_text`).  The readers of values take what was written for a value in front of
any text that closes it (`Closes`), by recursion over the tree; their fuel is enough if it is more
than the length of what was written.
-/

namespace PreviewDeploy.Json

/-! ### Numbers -/

namespace Number

variable {ds : List Nat} {value n : Nat}

theorem le_foldl_digits : value ≤ ds.foldl (fun n d => n * 10 + d) value := by
  induction ds generalizing value with
  | nil => exact Nat.le_refl _
  | cons d ds ih => exact Nat.le_trans (show value ≤ value * 10 + d by omega) ih

theorem takeFitting_of_lt (h : ds.foldl (fun n d => n * 10 + d) value < UInt64.size) :
    takeFitting value ds = (ds.foldl (fun n d => n * 10 + d) value, []) := by
  induction ds generalizing value with
  | nil => rfl
  | cons d ds ih =>
      have hfits : value * 10 + d < UInt64.size := Nat.lt_of_le_of_lt le_foldl_digits h
      rw [takeFitting, if_pos hfits]
      exact ih h

/-- Digits without fraction and exponent are a whole number, if it fits in 64 bits. -/
theorem ofDecimal_digits {negative : Bool} (hds : ofDigits ds = n) (hn : n < UInt64.size)
    (hneg : negative = true → 0 < n ∧ n ≤ int64Bound) :
    ofDecimal negative ds none none = some (.integer (if negative then -(n : Int) else n)) := by
  subst hds
  unfold ofDecimal
  rw [takeFitting_of_lt hn]
  cases negative with
  | false => simp [ofDigits]
  | true => simpa [ofDigits] using hneg rfl

end Number

namespace Reader

variable {rest : List Char}

/-- What may come after a value: the end, or a character that ends an item or a member. -/
def Closes (cs : List Char) : Prop := ∀ c ∈ cs.head?, c = ',' ∨ c = ']' ∨ c = '\x7d'

/-- The value of a digit. -/
def digitValue (c : Char) : Nat := c.toNat - '0'.toNat

theorem digit?_of_isDigit {c : Char} (h : c.isDigit) : digit? c = some (digitValue c) := by
  have hc : '0'.val ≤ c.val ∧ c.val ≤ '9'.val := by simpa [Char.isDigit] using h
  exact if_pos hc

theorem Closes.digit? (h : Closes rest) {c : Char} (hc : c ∈ rest.head?) : digit? c = none := by
  obtain rfl | rfl | rfl := h c hc <;> rfl

theorem readDigits_append {ds : List Char} (hds : ∀ c ∈ ds, c.isDigit) (h : Closes rest) :
    readDigits (ds ++ rest) = (ds.map digitValue, rest) := by
  induction ds with
  | nil =>
      cases rest with
      | nil => rfl
      | cons c rest => simp [readDigits, h.digit? (c := c) rfl]
  | cons c ds ih =>
      obtain ⟨hc, hds⟩ := List.forall_mem_cons.mp hds
      simp [readDigits, digit?_of_isDigit hc, ih hds]

theorem isDigit_of_mem_toDigits {n : Nat} {c : Char} (h : c ∈ Nat.toDigits 10 n) : c.isDigit :=
  Nat.isDigit_of_mem_toDigits (by omega) (Nat.le_refl _) h

theorem head?_toDigits {n : Nat} (hn : 0 < n) : (Nat.toDigits 10 n).head? ≠ some '0' := by
  induction n using Nat.strongRecOn with
  | ind n ih =>
      by_cases h : n < 10
      · have all : ∀ d : Fin 10, 0 < d.val → [d.val.digitChar].head? ≠ some '0' := by decide
        rw [Nat.toDigits_of_lt_base h]
        exact all ⟨n, h⟩ hn
      · obtain ⟨c, cs, hc⟩ := List.exists_cons_of_ne_nil
          (Nat.toDigits_ne_nil (b := 10) (n := n / 10))
        have hhead := ih (n / 10) (by omega) (by omega)
        rw [Nat.toDigits_of_base_le (by omega) (by omega), hc]
        rwa [hc] at hhead

theorem digitValue_ne_zero {c : Char} (hc : c.isDigit) (hne : c ≠ '0') : digitValue c ≠ 0 := by
  intro h
  have hle : '0'.val ≤ c.val := by
    have := hc
    simp only [Char.isDigit, Bool.and_eq_true, decide_eq_true_eq] at this
    exact this.1
  have hval : '0'.toNat ≤ c.toNat := hle
  exact hne (Char.toNat_inj.mp (by unfold digitValue at h; omega))

theorem readWhole_toDigits (n : Nat) (h : Closes rest) :
    readWhole (Nat.toDigits 10 n ++ rest) = some ((Nat.toDigits 10 n).map digitValue, rest) := by
  unfold readWhole
  rw [readDigits_append (fun c => isDigit_of_mem_toDigits) h]
  cases hds : Nat.toDigits 10 n with
  | nil => exact absurd hds Nat.toDigits_ne_nil
  | cons c ds =>
      by_cases hn : n = 0
      · subst hn
        cases hds
        rfl
      · have hc : digitValue c ≠ 0 := by
          refine digitValue_ne_zero (isDigit_of_mem_toDigits (n := n) (by simp [hds])) ?_
          have hhead := head?_toDigits (Nat.pos_of_ne_zero hn)
          rw [hds] at hhead
          simpa using hhead
        rw [List.map_cons]
        split
        · simp_all
        · simp_all
        · simp_all

theorem ofDigits_toDigits (n : Nat) :
    Number.ofDigits ((Nat.toDigits 10 n).map digitValue) = n := by
  have hvalue : Nat.ofDigitChars 10 (Nat.toDigits 10 n) 0 = n := Nat.ofDigitChars_ten_toDigits
  rw [Number.ofDigits, List.foldl_map]
  simpa only [Nat.ofDigitChars, Nat.mul_comm 10, digitValue] using hvalue

theorem readUnsigned_toDigits (negative : Bool) {n : Nat} (hn : n < UInt64.size)
    (hneg : negative = true → 0 < n ∧ n ≤ int64Bound) (h : Closes rest) :
    readUnsigned negative (Nat.toDigits 10 n ++ rest) =
      some (some (.integer (if negative then -(n : Int) else n)), rest) := by
  have hfraction : readFraction rest = some (none, rest) := by
    unfold readFraction
    split
    · have := h '.' rfl
      simp at this
    · rfl
  have hexponent : readExponent rest = some (none, rest) := by
    unfold readExponent
    cases rest with
    | nil => rfl
    | cons c rest =>
        have hc : ¬ (c = 'e' ∨ c = 'E') := by
          obtain rfl | rfl | rfl := h c rfl <;> decide
        exact if_neg hc
  simp only [readUnsigned, readWhole_toDigits n h, hfraction, hexponent, Option.bind_eq_bind,
    Option.bind_some, Number.ofDecimal_digits (ofDigits_toDigits n) hn hneg]
  rfl

theorem exists_head_toString (n : Int) :
    ∃ c cs, (toString n).toList = c :: cs ∧ (c.isDigit ∨ c = '-') := by
  rw [Int.toString_eq_repr, Int.repr_eq_if]
  split
  · rw [Nat.toList_repr]
    obtain ⟨c, cs, hc⟩ := List.exists_cons_of_ne_nil
      (Nat.toDigits_ne_nil (b := 10) (n := n.toNat))
    exact ⟨c, cs, hc, .inl (isDigit_of_mem_toDigits (n := n.toNat) (by simp [hc]))⟩
  · exact ⟨'-', _, by rw [String.toList_append]; rfl, .inr rfl⟩

theorem readNumber_toString {n : Int} (hn : Number.InRange n) (h : Closes rest) :
    readNumber ((toString n).toList ++ rest) = some (some (.integer n), rest) := by
  obtain ⟨hlow, hhigh⟩ := hn
  have hsize : (UInt64.size : Int) = 18446744073709551616 := rfl
  have hbound : int64Bound = 9223372036854775808 := rfl
  rw [Int.toString_eq_repr, Int.repr_eq_if]
  by_cases hpos : 0 ≤ n
  · have hfits : n.toNat < UInt64.size := by omega
    have hread := readUnsigned_toDigits false hfits nofun h
    obtain ⟨c, cs, hc⟩ := List.exists_cons_of_ne_nil
      (Nat.toDigits_ne_nil (b := 10) (n := n.toNat))
    have hdigit : c.isDigit := isDigit_of_mem_toDigits (n := n.toNat) (by simp [hc])
    have hminus : c ≠ '-' := by
      rintro rfl
      revert hdigit
      decide
    rw [if_pos hpos, Nat.toList_repr]
    rw [hc, List.cons_append] at hread ⊢
    unfold readNumber
    split
    · rename_i heq
      exact absurd (List.cons.inj heq).1 hminus
    · simpa [Int.toNat_of_nonneg hpos] using hread
  · have hfits : (-n).toNat < UInt64.size := by omega
    have hread := readUnsigned_toDigits true hfits (fun _ => by omega) h
    have hneg : -(((-n).toNat : Nat) : Int) = n := by omega
    rw [if_pos rfl, hneg] at hread
    rw [if_neg hpos, String.toList_append, Nat.toList_repr]
    exact hread

/-! ### Strings -/

theorem unit?_hexDigits {n : Nat} (h : n < 32) : ∃ a b c d, hexDigits 4 n = [a, b, c, d] ∧
    unit? a b c d = some n := by
  have all : ∀ n : Fin 32, unit? (hexDigits 4 n.val)[0]! (hexDigits 4 n.val)[1]!
      (hexDigits 4 n.val)[2]! (hexDigits 4 n.val)[3]! = some n.val := by decide
  exact ⟨_, _, _, _, rfl, all ⟨n, h⟩⟩

theorem pushUnit_toNat {c : Char} (p : Scan) (h : c < ' ') : p.pushUnit c.toNat = p.push c := by
  have hlt : c.toNat < 32 := h
  unfold Scan.pushUnit
  rw [if_neg (by simp [isHighHalf]; omega), if_neg (by simp [isLowHalf]; omega), Char.ofNat_toNat]

/-- A character is read back as it stands in a string. -/
theorem readString_writeChar (p : Scan) (c : Char) :
    readString p (Writer.writeChar c ++ rest) = readString (p.push c) rest := by
  unfold Writer.writeChar
  split
  · subst_vars; rfl
  split
  · subst_vars; rfl
  split
  · subst_vars; rfl
  split
  · subst_vars; rfl
  split
  · subst_vars; rfl
  split
  · subst_vars; rfl
  split
  · subst_vars; rfl
  split
  · rename_i hc
    obtain ⟨a, b, x, d, hdigits, hunit⟩ := unit?_hexDigits (n := c.toNat) hc
    rw [hdigits]
    simp only [List.cons_append, List.nil_append, readString, hunit, pushUnit_toNat p hc]
  · rename_i hquote hback _ _ _ _ _ hc
    simp only [List.cons_append, List.nil_append]
    rw [readString.eq_def]
    split
    · rename_i heq
      cases heq
    · rename_i heq
      exact absurd (List.cons.inj heq).1 hquote
    · rename_i heq
      exact absurd (List.cons.inj heq).1 hback
    · rename_i heq
      exact absurd (List.cons.inj heq).1 hback
    · rename_i heq
      obtain ⟨rfl, rfl⟩ := List.cons.inj heq
      exact if_neg hc

/-- A string is read back after its opening quote. -/
theorem readString_flatMap (cs before : List Char) :
    readString ⟨some before, none⟩ (cs.flatMap Writer.writeChar ++ '"' :: rest) =
      some (some (String.ofList (before.reverse ++ cs)), rest) := by
  induction cs generalizing before with
  | nil => simp [readString, Scan.finish]
  | cons c cs ih =>
      rw [List.flatMap_cons, List.append_assoc, readString_writeChar]
      simpa [Scan.push] using ih (c :: before)

theorem writeString_append (s : String) : Writer.writeString s ++ rest =
    '"' :: (s.toList.flatMap Writer.writeChar ++ '"' :: rest) := by
  simp [Writer.writeString]

theorem readString_toList (s : String) :
    readString {} (s.toList.flatMap Writer.writeChar ++ '"' :: rest) = some (some s, rest) := by
  rw [show ({} : Scan) = ⟨some [].reverse, none⟩ from rfl]
  simpa using readString_flatMap s.toList []

end Reader

/-! ### Trees -/

open Reader Writer

mutual
/-- All numbers are whole and all numbers and strings have values. -/
def Tree.IsPlain : Tree → Prop
  | .null | .bool _ => True
  | .number (some (.integer n)) => Number.InRange n
  | .number _ => False
  | .string s => s.isSome
  | .array items => ItemsPlain items
  | .object members => MembersPlain members

/-- `IsPlain` for each item of an array. -/
def Tree.ItemsPlain : List Tree → Prop
  | [] => True
  | t :: rest => t.IsPlain ∧ ItemsPlain rest

/-- `IsPlain` for each member of an object, and its key has a value. -/
def Tree.MembersPlain : List (Option String × Tree) → Prop
  | [] => True
  | (key, t) :: rest => key.isSome ∧ t.IsPlain ∧ MembersPlain rest
end

namespace Tree

variable {rest : List Char} {fuel : Nat}

/-- Items as they stand in an array. -/
def writeList : List Tree → List Char
  | [] => []
  | t :: items => t.write ++ writeItems items

/-- Members as they stand in an object. -/
def writePairs : List (Option String × Tree) → List Char
  | [] => []
  | (key, t) :: members =>
    writeString (key.getD "") ++ ':' :: (t.write ++ writeMembers members)

theorem isBlank_of_isDigit {c : Char} (h : c.isDigit ∨ c = '-') :
    isBlank c = false ∧ c ≠ ']' := by
  constructor
  · simp only [isBlank, Bool.or_eq_false_iff, decide_eq_false_iff_not]
    refine ⟨⟨⟨?_, ?_⟩, ?_⟩, ?_⟩ <;> rintro rfl <;> revert h <;> decide
  · rintro rfl
    revert h
    decide

/-- What is written for a value does not begin with a blank or with the end of an array. -/
theorem exists_head_write (t : Tree) (h : t.IsPlain) :
    ∃ c cs, t.write = c :: cs ∧ isBlank c = false ∧ c ≠ ']' := by
  cases t with
  | null => exact ⟨_, _, rfl, by decide⟩
  | bool b => cases b <;> exact ⟨_, _, rfl, by decide⟩
  | number n =>
      cases n with
      | none => exact h.elim
      | some n =>
          cases n with
          | float x => exact h.elim
          | integer n =>
              obtain ⟨c, cs, hcs, hc⟩ := exists_head_toString n
              exact ⟨c, cs, hcs, isBlank_of_isDigit hc⟩
  | string s =>
      cases s with
      | none => cases h
      | some s => exact ⟨'"', _, rfl, by decide⟩
  | array items => cases items <;> exact ⟨'[', _, rfl, by decide⟩
  | object members => cases members <;> exact ⟨'\x7b', _, rfl, by decide⟩

theorem skipBlanks_cons {c : Char} {cs : List Char} (h : isBlank c = false) :
    skipBlanks (c :: cs) = c :: cs := by
  rw [skipBlanks, if_neg (by simp [h])]

theorem readTree_number {c : Char} {cs : List Char} (h : c.isDigit ∨ c = '-') :
    readTree (fuel + 1) (c :: cs) =
      (readNumber (c :: cs)).map fun (n, left) => (.number n, left) := by
  rw [readTree, skipBlanks_cons (isBlank_of_isDigit h).1]
  split
  case h_7 => rfl
  all_goals
    rename_i heq
    exact absurd ((List.cons.inj heq).1 ▸ h) (by decide)

mutual
/-- A tree is read back in front of what closes it. -/
theorem readTree_write : ∀ (t : Tree) (fuel : Nat) (rest : List Char), t.IsPlain →
    Closes rest → t.write.length < fuel → readTree fuel (t.write ++ rest) = some (t, rest)
  | t, 0, _, _, _, hfuel => absurd hfuel (Nat.not_lt_zero _)
  | .null, fuel + 1, rest, _, _, _ => rfl
  | .bool true, fuel + 1, rest, _, _, _ => rfl
  | .bool false, fuel + 1, rest, _, _, _ => rfl
  | .number none, _, _, h, _, _ => h.elim
  | .number (some (.float _)), _, _, h, _, _ => h.elim
  | .number (some (.integer n)), fuel + 1, rest, h, hrest, _ => by
      obtain ⟨c, cs, hcs, hc⟩ := exists_head_toString n
      have hread := readNumber_toString h hrest
      rw [hcs, List.cons_append] at hread
      simp only [write, writeNumber]
      rw [hcs, List.cons_append, readTree_number hc, hread]
      rfl
  | .string none, _, _, h, _, _ => by cases h
  | .string (some s), fuel + 1, rest, _, _, _ => by
      rw [write, writeString_append, readTree, skipBlanks_cons (by decide)]
      simp only [readString_toList, Option.map_some]
  | .array [], fuel + 1, rest, _, _, _ => rfl
  | .array (t :: items), fuel + 1, rest, h, _, hfuel => by
      have hread := readItems_writeList (t :: items) fuel rest [] (by simp) h
        (by simp only [write, List.length_cons] at hfuel; simpa [writeList] using hfuel)
      obtain ⟨c, cs, hcs, hblank, hend⟩ := exists_head_write t h.1
      rw [writeList, hcs, List.cons_append, List.cons_append] at hread
      rw [write, List.cons_append, readTree, skipBlanks_cons (by decide), hcs]
      simp only [List.cons_append, skipBlanks_cons hblank]
      split
      · rename_i heq
        exact absurd (List.cons.inj heq).1 hend
      · rw [hread]
        rfl
  | .object [], fuel + 1, rest, _, _, _ => rfl
  | .object ((key, t) :: members), fuel + 1, rest, h, _, hfuel => by
      have hread := readMembers_writePairs ((key, t) :: members) fuel rest [] (by simp) h
        (by simp only [write, List.length_cons] at hfuel; simpa [writePairs] using hfuel)
      rw [writePairs, List.append_assoc, writeString_append] at hread
      rw [write, List.cons_append, List.append_assoc, writeString_append, readTree,
        skipBlanks_cons (by decide)]
      simp only [skipBlanks_cons (c := '"') (by decide)]
      split
      · rename_i heq
        exact absurd (List.cons.inj heq).1 (by decide)
      · rw [hread]
        rfl

/-- Items are read back up to the end of their array. -/
theorem readItems_writeList : ∀ (items : List Tree) (fuel : Nat) (rest : List Char)
    (done : List Tree), items ≠ [] → ItemsPlain items → (writeList items).length < fuel →
    readItems fuel done (writeList items ++ rest) = some (done.reverse ++ items, rest)
  | [], _, _, _, h, _, _ => absurd rfl h
  | _ :: _, 0, _, _, _, _, hfuel => absurd hfuel (Nat.not_lt_zero _)
  | [t], fuel + 1, rest, done, _, h, hfuel => by
      have hread := readTree_write t fuel (']' :: rest) h.1 (by simp [Closes])
        (by simp [writeList, writeItems] at hfuel; omega)
      simp only [writeList, writeItems, List.append_assoc, List.singleton_append, readItems, hread,
        skipBlanks_cons (c := ']') (by decide), List.reverse_cons]
  | t :: t' :: items, fuel + 1, rest, done, _, h, hfuel => by
      have hlength : (writeItems (t' :: items)).length = (writeList (t' :: items)).length + 1 := by
        simp [writeItems, writeList]
      rw [writeList, List.length_append] at hfuel
      have hread := readTree_write t fuel (',' :: (writeList (t' :: items) ++ rest)) h.1
        (by simp [Closes]) (by omega)
      have hnext := readItems_writeList (t' :: items) fuel rest (t :: done) (by simp) h.2 (by omega)
      rw [writeList, List.append_assoc, writeItems, List.cons_append]
      rw [writeList] at hread hnext
      simp only [readItems, hread, skipBlanks_cons (c := ',') (by decide)]
      rw [hnext, List.reverse_cons, List.append_assoc, List.singleton_append]

/-- Members are read back up to the end of their object. -/
theorem readMembers_writePairs : ∀ (members : List (Option String × Tree)) (fuel : Nat)
    (rest : List Char) (done : List (Option String × Tree)), members ≠ [] →
    MembersPlain members → (writePairs members).length < fuel →
    readMembers fuel done (writePairs members ++ rest) = some (done.reverse ++ members, rest)
  | [], _, _, _, h, _, _ => absurd rfl h
  | _ :: _, 0, _, _, _, _, hfuel => absurd hfuel (Nat.not_lt_zero _)
  | (none, _) :: _, _, _, _, _, h, _ => absurd h.1 (by simp)
  | [(some key, t)], fuel + 1, rest, done, _, h, hfuel => by
      have hread := readTree_write t fuel ('\x7d' :: rest) h.2.1 (by simp [Closes])
        (by simp [writePairs, writeMembers] at hfuel; omega)
      rw [writePairs, writeMembers, List.append_assoc, writeString_append, readMembers,
        skipBlanks_cons (by decide)]
      simp only [List.cons_append, List.append_assoc, List.nil_append, Option.getD_some,
        readString_toList, skipBlanks_cons (c := ':') (by decide), hread,
        skipBlanks_cons (c := '\x7d') (by decide), List.reverse_cons]
  | (some key, t) :: (key', t') :: members, fuel + 1, rest, done, _, h, hfuel => by
      have hlength : (writeMembers ((key', t') :: members)).length =
          (writePairs ((key', t') :: members)).length + 1 := by
        simp [writeMembers, writePairs]
      rw [writePairs, List.length_append, List.length_cons, List.length_append] at hfuel
      have hread := readTree_write t fuel (',' :: (writePairs ((key', t') :: members) ++ rest))
        h.2.1 (by simp [Closes]) (by omega)
      have hnext := readMembers_writePairs ((key', t') :: members) fuel rest ((some key, t) :: done)
        (by simp) h.2.2 (by omega)
      rw [writePairs, writeMembers, List.append_assoc, writeString_append, readMembers,
        skipBlanks_cons (by decide)]
      rw [writePairs] at hread hnext
      simp only [List.cons_append, List.append_assoc, Option.getD_some,
        readString_toList, skipBlanks_cons (c := ':') (by decide)] at hread hnext ⊢
      simp only [hread, skipBlanks_cons (c := ',') (by decide)]
      rw [hnext, List.reverse_cons, List.append_assoc, List.singleton_append]
end

/-- A tree is read back from its text. -/
theorem parse_text {t : Tree} (h : t.IsPlain) : Tree.parse t.text = some t := by
  have hread := readTree_write t (t.write.length + 1) [] h (by simp [Closes])
    (Nat.lt_succ_self _)
  rw [List.append_nil] at hread
  simp [Tree.parse, Tree.ofChars, Tree.text, hread, skipBlanks]

end Tree

end PreviewDeploy.Json
