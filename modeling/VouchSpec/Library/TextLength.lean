import VouchSpec.Library.Document

/-! How long the ASCII text of a value is: a sum over its members, in whatever order
they are written. -/

namespace Json

private theorem ascii_hexDigit {value : Nat} (hValue : value < 16) : (Bytes.hexDigit value).toNat < 127 := by
  interval_cases value <;> decide

private theorem ascii_codeEscape {code : Nat} (hCode : code < 0x10000) : ∀ c ∈ codeEscape code, c.toNat < 127 := by
  intro c hc
  simp only [codeEscape, List.mem_cons, List.not_mem_nil, or_false] at hc
  rcases hc with rfl | rfl | rfl | rfl | rfl | rfl
  · decide
  · decide
  · exact ascii_hexDigit (by omega)
  · exact ascii_hexDigit (by omega)
  · exact ascii_hexDigit (by omega)
  · exact ascii_hexDigit (by omega)

theorem ascii_asciiEscape (c : Char) : ∀ escaped ∈ asciiEscape c, escaped.toNat < 127 := by
  intro escaped hEscaped
  have hCode := char_code c
  unfold asciiEscape at hEscaped
  split at hEscaped
  · next hAscii => rwa [List.mem_singleton.mp hEscaped]
  · split at hEscaped
    · next hUnit => exact ascii_codeEscape hUnit escaped hEscaped
    · rcases List.mem_append.mp hEscaped with hHigh | hLow
      · exact ascii_codeEscape (by omega) escaped hHigh
      · exact ascii_codeEscape (by omega) escaped hLow

theorem ascii_asciiText (value : Json) : ∀ c ∈ value.asciiText, c.toNat < 127 := by
  intro c hc
  obtain ⟨original, -, hEscaped⟩ := List.mem_flatMap.mp hc
  exact ascii_asciiEscape original c hEscaped

/-- How many characters a value takes. -/
def size (value : Json) : Nat := value.asciiText.length

theorem size_utf8 (value : Json) : (Bytes.utf8 value.asciiText).length = value.size :=
  Bytes.utf8_length_of_ascii fun c hc => Nat.lt_succ_of_lt (ascii_asciiText value c hc)

/-- A member, with the colon and the comma or the brace after it. -/
def memberSize (member : String × Json) : Nat := (str member.1).size + member.2.size + 2

private theorem escaped_mark {c : Char} (hAscii : c.toNat < 127) (rest : List Char) :
    ((c :: rest).flatMap asciiEscape).length = (rest.flatMap asciiEscape).length + 1 := by
  rw [List.flatMap_cons, asciiEscape, if_pos hAscii, List.singleton_append, List.length_cons]

private theorem size_membersText (members : List (String × Json)) :
    ((membersText members).flatMap asciiEscape).length = (members.map memberSize).sum + 1 := by
  induction members with
  | nil => rfl
  | cons member rest ih =>
      obtain ⟨name, value⟩ := member
      rw [membersText, escaped_mark (by decide), List.flatMap_append, List.length_append, escaped_mark (by decide),
        List.flatMap_append, List.length_append, ih, List.map_cons, List.sum_cons]
      simp only [memberSize, size, asciiText, text]
      omega

theorem size_obj {members : List (String × Json)} (hMembers : members ≠ []) :
    (obj members).size = (members.map memberSize).sum + 1 := by
  cases members with
  | nil => exact absurd rfl hMembers
  | cons member rest =>
      obtain ⟨name, value⟩ := member
      rw [size, asciiText, text, escaped_mark (by decide), List.flatMap_append, List.length_append,
        escaped_mark (by decide), List.flatMap_append, List.length_append, size_membersText, List.map_cons, List.sum_cons]
      simp only [memberSize, size, asciiText, text]
      omega

/-- The order in which the members are written does not matter. -/
theorem size_sorted_obj (members : List (String × Json)) :
    (obj members).sorted.size = (obj (members.map fun member => (member.1, member.2.sorted))).size := by
  rw [sorted, sortedMembers_eq_map]
  have hPerm := sorted_perm members
  by_cases hEmpty : members = []
  · subst hEmpty
    rfl
  · have hMapped : (members.map fun member => (member.1, member.2.sorted)) ≠ [] := by simpa using hEmpty
    have hSorted : (members.map fun member => (member.1, member.2.sorted)).insertionSort
        (fun first second => first.1 ≤ second.1) ≠ [] := fun hNil => hMapped (List.nil_perm.mp (hNil ▸ hPerm))
    rw [size_obj hSorted, size_obj hMapped, (hPerm.map memberSize).sum_nat]

/-- A positive number takes its digits. -/
theorem size_int {number : Int} (hPositive : 0 ≤ number) :
    (int number).size = (Nat.toDigits 10 number.natAbs).length := by
  obtain ⟨value, rfl⟩ := Int.eq_ofNat_of_zero_le hPositive
  rw [size, asciiText, text]
  have hDigits : ∀ c ∈ Nat.toDigits 10 value, c.toNat < 127 := by
    intro c hc
    have hDigit := toDigits_digit value c hc
    simp only [Char.isDigit, Bool.and_eq_true, decide_eq_true_eq] at hDigit
    have hHigh : c.toNat ≤ 57 := hDigit.2
    omega
  exact congrArg List.length (spelling_ascii.ascii hDigits)

end Json
