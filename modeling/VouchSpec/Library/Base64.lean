import VouchSpec.Library.Bytes

/-! Reading base64, with padding or in its URL-safe form without. What the
encodings write is read back; other texts may be read too. -/

namespace Bytes

def base64Value? (c : Char) : Option Nat :=
  if 65 ≤ c.toNat ∧ c.toNat ≤ 90 then some (c.toNat - 65)
  else if 97 ≤ c.toNat ∧ c.toNat ≤ 122 then some (c.toNat - 71)
  else if 48 ≤ c.toNat ∧ c.toNat ≤ 57 then some (c.toNat + 4)
  else if c.toNat = 43 then some 62
  else if c.toNat = 47 then some 63
  else none

/-- The bytes of six-bit groups; spare bits of the last one are dropped. -/
def ofSextets : List Nat → Option Bytes
  | [] => some []
  | [_] => none
  | [a, b] => some [UInt8.ofNat (4 * a + b / 16)]
  | [a, b, c] => some [UInt8.ofNat (4 * a + b / 16), UInt8.ofNat (b % 16 * 16 + c / 4)]
  | a :: b :: c :: d :: rest => do
      let more ← ofSextets rest
      return UInt8.ofNat (4 * a + b / 16) :: UInt8.ofNat (b % 16 * 16 + c / 4) ::
        UInt8.ofNat (c % 4 * 64 + d) :: more

/-- The values of the digits, or nothing when one is no digit. -/
def base64Values : List Char → Option (List Nat)
  | [] => some []
  | c :: rest => do
      let value ← base64Value? c
      let values ← base64Values rest
      return value :: values

/-- Whole groups of four characters, the last one padded. -/
def decodeBase64 (characters : List Char) : Option Bytes :=
  let padding := characters.dropWhile fun c => c ≠ '='
  if characters.length % 4 = 0 ∧ padding.length ≤ 2 ∧ (padding.all fun c => c = '=') = true then
    (base64Values (characters.takeWhile fun c => c ≠ '=')).bind ofSextets
  else none

/-- The URL-safe form, read through the standard one. -/
def decodeBase64Url (characters : List Char) : Option Bytes :=
  decodeBase64 ((characters.map fun c => if c = '-' then '+' else if c = '_' then '/' else c) ++
    List.replicate ((4 - characters.length % 4) % 4) '=')

private theorem base64Value_char {value : Nat} (h : value < 64) :
    base64Value? (base64Char '+' '/' value) = some value ∧ base64Char '+' '/' value ≠ '=' := by
  interval_cases value <;> decide

private theorem base64Values_map {values : List Nat} (h : ∀ value ∈ values, value < 64) :
    base64Values (values.map (base64Char '+' '/')) = some values := by
  induction values with
  | nil => rfl
  | cons value rest ih =>
      have hRest := ih fun other hOther => h other (List.mem_cons_of_mem _ hOther)
      rw [List.map_cons, base64Values, (base64Value_char (h value (by simp))).1, hRest]
      rfl

private theorem ofNat_eq (byte : UInt8) {value : Nat} (h : value = byte.toNat) : UInt8.ofNat value = byte := by
  rw [h, UInt8.ofNat_toNat]

theorem ofSextets_sextets (bytes : Bytes) : ofSextets (sextets bytes) = some bytes := by
  induction bytes using sextets.induct with
  | case1 => rfl
  | case2 a =>
      have ha := a.toNat_lt
      rw [sextets, ofSextets, ofNat_eq a (by omega)]
  | case3 a b =>
      have ha := a.toNat_lt
      have hb := b.toNat_lt
      rw [sextets, ofSextets, ofNat_eq a (by omega), ofNat_eq b (by omega)]
  | case4 a b c rest ih =>
      have ha := a.toNat_lt
      have hb := b.toNat_lt
      have hc := c.toNat_lt
      rw [sextets, ofSextets, ih, ofNat_eq a (by omega), ofNat_eq b (by omega),
        ofNat_eq c (by omega)]
      rfl

theorem decodeBase64_base64 (bytes : Bytes) : decodeBase64 (base64 bytes) = some bytes := by
  have hDigits : ∀ c ∈ (sextets bytes).map (base64Char '+' '/'), decide (c ≠ '=') = true := by
    intro c hc
    obtain ⟨value, hValue, rfl⟩ := List.mem_map.mp hc
    exact decide_eq_true (base64Value_char (sextets_lt bytes value hValue)).2
  have hPad : ∀ count, (List.replicate count '=').takeWhile (fun c => decide (c ≠ '=')) = [] ∧
      (List.replicate count '=').dropWhile (fun c => decide (c ≠ '=')) = List.replicate count '=' := by
    intro count
    cases count <;> simp [List.replicate_succ]
  have hTake : (base64 bytes).takeWhile (fun c => decide (c ≠ '=')) =
      (sextets bytes).map (base64Char '+' '/') := by
    rw [base64, List.takeWhile_append_of_pos hDigits, (hPad _).1, List.append_nil]
  have hDrop : (base64 bytes).dropWhile (fun c => decide (c ≠ '=')) =
      List.replicate ((3 - bytes.length % 3) % 3) '=' := by
    rw [base64, List.dropWhile_append_of_pos hDigits, (hPad _).2]
  unfold decodeBase64
  simp only [hTake, hDrop, base64_length, List.length_replicate]
  rw [if_pos ⟨by omega, by omega, by simp⟩, base64Values_map (sextets_lt bytes), Option.bind_some,
    ofSextets_sextets]

private theorem base64Char_standard {value : Nat} (h : value < 64) :
    (if base64Char '-' '_' value = '-' then '+'
      else if base64Char '-' '_' value = '_' then '/' else base64Char '-' '_' value) =
      base64Char '+' '/' value := by
  interval_cases value <;> rfl

theorem decodeBase64Url_base64Url (bytes : Bytes) : decodeBase64Url (base64Url bytes) = some bytes := by
  have hCount : (4 - (base64Url bytes).length % 4) % 4 = (3 - bytes.length % 3) % 3 := by
    rw [base64Url_length]
    have hThird := Nat.div_add_mod bytes.length 3
    have hLt := Nat.mod_lt bytes.length (show 0 < 3 by decide)
    generalize bytes.length / 3 = third at hThird
    generalize bytes.length % 3 = left at hThird hLt ⊢
    interval_cases left <;> omega
  have hSame : (base64Url bytes).map (fun c => if c = '-' then '+' else if c = '_' then '/' else c) =
      (sextets bytes).map (base64Char '+' '/') := by
    rw [base64Url, List.map_map]
    exact List.map_congr_left fun value hValue => base64Char_standard (sextets_lt bytes value hValue)
  rw [decodeBase64Url, hCount, hSame]
  exact decodeBase64_base64 bytes

/-- UTF-8 text. -/
def decodeUtf8 (bytes : Bytes) : Option (List Char) :=
  bytes.toByteArray.utf8Decode?.map Array.toList

theorem decodeUtf8_utf8 (characters : List Char) : decodeUtf8 (utf8 characters) = some characters := by
  have hBytes : (utf8 characters).toByteArray = characters.utf8Encode := rfl
  rw [decodeUtf8, hBytes, List.utf8Decode?_utf8Encode]
  rfl

end Bytes
