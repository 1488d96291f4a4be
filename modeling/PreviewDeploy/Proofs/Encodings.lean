import PreviewDeploy.Text.Base64Url
import PreviewDeploy.Text.Bytes

/-!
# Bytes and their texts

A text is read back from its bytes in UTF-8 (`ofUtf8?_utf8`), and bytes from their text in base64
for URLs (`Base64Url.decode?_encode`), which has no dot in it, and from their hexadecimal digits
(`ofHex?_hex`).
-/

namespace PreviewDeploy

/-! ### UTF-8 -/

/-- A byte array is listed from the index on, after what was listed before. -/
theorem toList_loop (bytes : ByteArray) (i : Nat) (before : List UInt8) :
    ByteArray.toList.loop bytes i before = before.reverse ++ bytes.data.toList.drop i := by
  rw [ByteArray.toList.loop]
  split
  · rename_i h
    have hsize : i < bytes.data.toList.length := h
    have hget : bytes.get! i = bytes.data.toList[i] := by
      change bytes.data[i]! = _
      rw [getElem!_pos bytes.data i h, Array.getElem_toList]
    rw [toList_loop bytes (i + 1), List.reverse_cons, List.append_assoc, List.singleton_append,
      List.drop_eq_getElem_cons hsize, hget]
  · rename_i h
    rw [List.drop_eq_nil_of_le (Nat.le_of_not_lt h), List.append_nil]
termination_by bytes.size - i

theorem utf8_eq (s : String) : utf8 s = s.toUTF8.data.toList := by
  unfold utf8 ByteArray.toList
  rw [toList_loop, List.reverse_nil, List.nil_append, List.drop_zero]

theorem ofUtf8?_utf8 (s : String) : ofUtf8? (utf8 s) = some s := by
  unfold ofUtf8? String.fromUTF8?
  rw [utf8_eq]
  exact dif_pos s.isValidUTF8

theorem utf8_inj {s t : String} : utf8 s = utf8 t ↔ s = t := by
  constructor
  · intro h
    have hread := congrArg ofUtf8? h
    rwa [ofUtf8?_utf8, ofUtf8?_utf8, Option.some_inj] at hread
  · intro h
    rw [h]

/-! ### Base64 -/

namespace Base64Url

theorem value?_digit {n : Nat} (h : n < 64) : value? (digit n) = some n := by
  have all : ∀ n : Fin 64, value? (digit n) = some n.val := by decide
  exact all ⟨n, h⟩

theorem ofNat_eq {n : Nat} {b : UInt8} (h : n = b.toNat) : UInt8.ofNat n = b := by
  rw [h, UInt8.ofNat_toNat]

theorem decode?_encode (bytes : List UInt8) : decode? (encode bytes) = some bytes := by
  induction bytes using encode.induct with
  | case1 => rfl
  | case2 a =>
      have ha : a.toNat < 256 := a.toNat_lt
      simp only [encode, decode?, value?_digit (n := a.toNat / 4) (by omega),
        value?_digit (n := a.toNat % 4 * 16) (by omega), Option.bind_eq_bind, Option.bind_some]
      rw [if_pos (by omega), ofNat_eq (b := a) (by omega)]
  | case3 a b =>
      have ha : a.toNat < 256 := a.toNat_lt
      have hb : b.toNat < 256 := b.toNat_lt
      simp only [encode, decode?, value?_digit (n := a.toNat / 4) (by omega),
        value?_digit (n := a.toNat % 4 * 16 + b.toNat / 16) (by omega),
        value?_digit (n := b.toNat % 16 * 4) (by omega), Option.bind_eq_bind, Option.bind_some]
      rw [if_pos (by omega), ofNat_eq (b := a) (by omega), ofNat_eq (b := b) (by omega)]
  | case4 a b c rest ih =>
      have ha : a.toNat < 256 := a.toNat_lt
      have hb : b.toNat < 256 := b.toNat_lt
      have hc : c.toNat < 256 := c.toNat_lt
      simp only [encode, decode?, value?_digit (n := a.toNat / 4) (by omega),
        value?_digit (n := a.toNat % 4 * 16 + b.toNat / 16) (by omega),
        value?_digit (n := b.toNat % 16 * 4 + c.toNat / 64) (by omega),
        value?_digit (n := c.toNat % 64) (by omega), ih, Option.bind_eq_bind, Option.bind_some]
      rw [ofNat_eq (b := a) (by omega), ofNat_eq (b := b) (by omega), ofNat_eq (b := c) (by omega)]
      rfl

theorem exists_digit_of_mem {bytes : List UInt8} {c : Char} (h : c ∈ encode bytes) :
    ∃ n < 64, c = digit n := by
  induction bytes using encode.induct with
  | case1 => cases h
  | case2 a =>
      have ha : a.toNat < 256 := a.toNat_lt
      simp only [encode, List.mem_cons, List.not_mem_nil, or_false] at h
      obtain h | h := h
      · exact ⟨_, by omega, h⟩
      · exact ⟨_, by omega, h⟩
  | case3 a b =>
      have ha : a.toNat < 256 := a.toNat_lt
      have hb : b.toNat < 256 := b.toNat_lt
      simp only [encode, List.mem_cons, List.not_mem_nil, or_false] at h
      obtain h | h | h := h
      · exact ⟨_, by omega, h⟩
      · exact ⟨_, by omega, h⟩
      · exact ⟨_, by omega, h⟩
  | case4 a b c' rest ih =>
      have ha : a.toNat < 256 := a.toNat_lt
      have hb : b.toNat < 256 := b.toNat_lt
      have hc : c'.toNat < 256 := c'.toNat_lt
      simp only [encode, List.mem_cons] at h
      obtain h | h | h | h | h := h
      · exact ⟨_, by omega, h⟩
      · exact ⟨_, by omega, h⟩
      · exact ⟨_, by omega, h⟩
      · exact ⟨_, by omega, h⟩
      · exact ih h

theorem dot_notMem_encode (bytes : List UInt8) : '.' ∉ encode bytes := fun h => by
  obtain ⟨n, hn, hdot⟩ := exists_digit_of_mem h
  have hnone : value? '.' = none := by decide
  rw [hdot, value?_digit hn] at hnone
  cases hnone

end Base64Url

/-! ### Hexadecimal digits -/

theorem hexValue?_hexDigit {n : Nat} (h : n < 16) : hexValue? (hexDigit n) = some n := by
  have all : ∀ n : Fin 16, hexValue? (hexDigit n) = some n.val := by decide
  exact all ⟨n, h⟩

theorem ofHex?_hex (bytes : List UInt8) : ofHex? (hex bytes).toList = some bytes := by
  rw [hex, String.toList_ofList]
  induction bytes with
  | nil => rfl
  | cons b bytes ih =>
      have hb : b.toNat < 256 := b.toNat_lt
      have hdigits : hexDigits 2 b.toNat =
          [hexDigit (b.toNat / 16 % 16), hexDigit (b.toNat % 16)] := rfl
      simp only [List.flatMap_cons, hdigits, List.cons_append, List.nil_append, ofHex?,
        hexValue?_hexDigit (n := b.toNat / 16 % 16) (by omega),
        hexValue?_hexDigit (n := b.toNat % 16) (by omega), Option.bind_eq_bind, Option.bind_some,
        ih]
      rw [Base64Url.ofNat_eq (b := b) (by omega)]
      rfl

theorem hex_inj {bytes bytes' : List UInt8} : hex bytes = hex bytes' ↔ bytes = bytes' := by
  constructor
  · intro h
    have hread := congrArg (fun s => ofHex? s.toList) h
    rwa [ofHex?_hex, ofHex?_hex, Option.some_inj] at hread
  · intro h
    rw [h]

end PreviewDeploy
