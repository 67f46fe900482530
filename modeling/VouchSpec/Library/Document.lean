import Mathlib.Data.List.Sort
import VouchSpec.Library.Base64
import VouchSpec.Library.JsonReader

/-! Whole documents: values with their members sorted by name, and the bytes of
a JSON text. What is read has no name twice and no overlong integer, and what
is written is read back. -/

/-- No character takes more than four bytes. -/
theorem Bytes.utf8_length_le (characters : List Char) :
    (Bytes.utf8 characters).length ≤ 4 * characters.length := by
  induction characters with
  | nil => simp [Bytes.utf8]
  | cons c rest ih =>
      have hOne : (String.utf8EncodeChar c).length ≤ 4 := by
        rw [String.length_utf8EncodeChar]
        exact Char.utf8Size_le_four c
      rw [Bytes.utf8] at ih ⊢
      rw [List.flatMap_cons, List.length_append, List.length_cons]
      omega

/-- Every character takes a byte at least. -/
theorem Bytes.length_le_utf8 (characters : List Char) : characters.length ≤ (Bytes.utf8 characters).length := by
  induction characters with
  | nil => exact Nat.le_refl 0
  | cons c rest ih =>
      have hOne := Char.utf8Size_pos c
      simp only [Bytes.utf8, List.flatMap_cons, List.length_append, List.length_cons,
        String.length_utf8EncodeChar] at ih ⊢
      omega

/-- What is decoded is encoded to the same bytes. -/
theorem Bytes.utf8_of_decodeUtf8 {bytes : Bytes} {characters : List Char}
    (h : Bytes.decodeUtf8 bytes = some characters) : Bytes.utf8 characters = bytes := by
  obtain ⟨decoded, hDecoded, rfl⟩ := Option.map_eq_some_iff.mp h
  have hSome : bytes.toByteArray.utf8Decode?.isSome = true := by
    rw [hDecoded]
    rfl
  have hBack := @ByteArray.utf8Encode_get_utf8Decode? bytes.toByteArray hSome
  have hSame : bytes.toByteArray.utf8Decode?.get hSome = decoded := by
    simp only [hDecoded, Option.get_some]
  rw [hSame] at hBack
  have hBytes : (Bytes.utf8 decoded.toList).toByteArray = bytes.toByteArray := hBack
  simpa using congrArg (fun found => found.data.toList) hBytes

theorem Bytes.length_le_of_decodeUtf8 {bytes : Bytes} {characters : List Char}
    (h : Bytes.decodeUtf8 bytes = some characters) : characters.length ≤ bytes.length := by
  rw [← Bytes.utf8_of_decodeUtf8 h]
  exact Bytes.length_le_utf8 characters

namespace Json

/-- The member of an object, which is null when it is absent. -/
def member (value : Json) (name : String) : Json := (value.get? name).getD null

mutual
/-- The members of every object in the order of their names. -/
def sorted : Json → Json
  | arr items => arr (sortedItems items)
  | obj members => obj ((sortedMembers members).insertionSort fun first second => first.1 ≤ second.1)
  | value => value

def sortedItems : List Json → List Json
  | [] => []
  | item :: rest => item.sorted :: sortedItems rest

def sortedMembers : List (String × Json) → List (String × Json)
  | [] => []
  | (name, value) :: rest => (name, value.sorted) :: sortedMembers rest
end

section
attribute [local simp] sorted sortedItems sortedMembers

theorem sortedItems_eq_map (items : List Json) : sortedItems items = items.map sorted := by
  induction items with
  | nil => simp
  | cons item rest ih => simp [ih]

theorem sortedMembers_eq_map (members : List (String × Json)) :
    sortedMembers members = members.map fun member => (member.1, member.2.sorted) := by
  induction members with
  | nil => simp
  | cons member rest ih => simp [ih]

end

theorem sorted_perm (members : List (String × Json)) :
    (members.map fun member => (member.1, member.2.sorted)).insertionSort
      (fun first second => first.1 ≤ second.1) |>.Perm (members.map fun member => (member.1, member.2.sorted)) :=
  List.perm_insertionSort _ _

theorem Plain.get? {value found : Json} {depth : Nat} (hPlain : value.Plain depth) {name : String}
    (hFound : value.get? name = some found) : ∃ inner, found.Plain inner := by
  cases value with
  | obj members =>
      obtain ⟨member, hMember, rfl⟩ := Option.map_eq_some_iff.mp hFound
      cases depth with
      | zero => exact absurd hPlain (not_plain_obj members)
      | succ depth => exact ⟨depth, hPlain.2 member (List.mem_of_find?_eq_some hMember)⟩
  | _ => cases hFound

theorem Plain.nodup {members : List (String × Json)} {depth : Nat} (hPlain : (obj members).Plain depth) :
    (members.map Prod.fst).Nodup := by
  cases depth with
  | zero => exact absurd hPlain (not_plain_obj members)
  | succ depth => exact hPlain.1

theorem get?_obj_eq_some {members : List (String × Json)} (hNames : (members.map Prod.fst).Nodup)
    {name : String} {value : Json} : (obj members).get? name = some value ↔ (name, value) ∈ members := by
  induction members with
  | nil => simp [get?]
  | cons member rest ih =>
      obtain ⟨hNew, hRest⟩ := List.nodup_cons.mp hNames
      have hGet : (obj (member :: rest)).get? name =
          if member.1 = name then some member.2 else (obj rest).get? name := by
        by_cases hName : member.1 = name <;> simp [get?, hName]
      rw [hGet, List.mem_cons]
      by_cases hName : member.1 = name
      · rw [if_pos hName]
        constructor
        · intro h
          left
          rw [← hName, ← Option.some.inj h]
        · rintro (hSame | hMember)
          · rw [← hSame]
          · exact absurd (List.mem_map_of_mem (f := Prod.fst) hMember) (hName ▸ hNew)
      · rw [if_neg hName, ih hRest]
        constructor
        · exact Or.inr
        · rintro (hSame | hMember)
          · exact absurd (congrArg Prod.fst hSame).symm hName
          · exact hMember

/-- Sorting the members changes none of them. -/
theorem get?_sorted {members : List (String × Json)} (hNames : (members.map Prod.fst).Nodup) (name : String) :
    (obj members).sorted.get? name = ((obj members).get? name).map Json.sorted := by
  have hPerm := sorted_perm members
  have hKept : (members.map fun member => (member.1, member.2.sorted)).map Prod.fst = members.map Prod.fst := by
    rw [List.map_map]
    rfl
  rw [Json.sorted, sortedMembers_eq_map]
  apply Option.ext
  intro value
  rw [get?_obj_eq_some (((hPerm.map Prod.fst).nodup_iff).mpr (hKept ▸ hNames)), hPerm.mem_iff, List.mem_map,
    Option.map_eq_some_iff]
  constructor
  · rintro ⟨member, hMember, hSame⟩
    obtain ⟨rfl, rfl⟩ := Prod.mk.inj hSame
    exact ⟨member.2, (get?_obj_eq_some hNames).mpr hMember, rfl⟩
  · rintro ⟨original, hFound, rfl⟩
    exact ⟨(name, original), (get?_obj_eq_some hNames).mp hFound, rfl⟩

theorem Plain.sorted {value : Json} {depth : Nat} (hPlain : value.Plain depth) :
    value.sorted.Plain depth := by
  induction depth generalizing value with
  | zero =>
      cases value with
      | arr items => exact absurd hPlain (not_plain_arr items)
      | obj members => exact absurd hPlain (not_plain_obj members)
      | _ => simpa only [Json.sorted] using hPlain
  | succ depth ih =>
      cases value with
      | arr items =>
          rw [Json.sorted, sortedItems_eq_map, plain_arr]
          intro item hItem
          obtain ⟨other, hOther, rfl⟩ := List.mem_map.mp hItem
          exact ih (hPlain other hOther)
      | obj members =>
          rw [Json.sorted, sortedMembers_eq_map, plain_obj]
          constructor
          · have hNames := (sorted_perm members).map Prod.fst
            rw [List.map_map] at hNames
            exact hNames.nodup_iff.mpr hPlain.1
          · intro member hMember
            obtain ⟨other, hOther, rfl⟩ := List.mem_map.mp ((sorted_perm members).mem_iff.mp hMember)
            exact ih (hPlain.2 other hOther)
      | _ => simpa only [Json.sorted] using hPlain

@[simp] theorem str?_sorted (value : Json) : value.sorted.str? = value.str? := by
  cases value <;> simp [Json.sorted, str?]

@[simp] theorem int?_sorted (value : Json) : value.sorted.int? = value.int? := by
  cases value <;> simp [Json.sorted, int?]

@[simp] theorem sorted_eq_str {value : Json} {text : String} : value.sorted = str text ↔ value = str text := by
  cases value <;> simp [Json.sorted]

theorem hasExactly_sorted (names : List String) (value : Json) :
    value.sorted.hasExactly names = value.hasExactly names := by
  cases value with
  | obj members =>
      have hPerm := sorted_perm members
      have hSame : ∀ name, (members.map fun member => (member.1, member.2.sorted)).any
          (fun member => member.1 = name) = members.any fun member => member.1 = name := by
        intro name
        rw [List.any_map]
        rfl
      rw [Json.sorted, sortedMembers_eq_map, hasExactly, hasExactly, hPerm.all_eq, List.all_map]
      simp only [hPerm.any_eq, hSame]
      rfl
  | _ => simp [Json.sorted, hasExactly]

theorem member_sorted {value : Json} {depth : Nat} (hPlain : value.Plain depth) (name : String) :
    value.sorted.member name = (value.member name).sorted := by
  cases value with
  | obj members =>
      rw [member, get?_sorted hPlain.nodup, member]
      cases (obj members).get? name <;> simp [Json.sorted]
  | _ => simp [Json.sorted, member, get?]

theorem isSome_get?_sorted {value : Json} {depth : Nat} (hPlain : value.Plain depth) (name : String) :
    (value.sorted.get? name).isSome = (value.get? name).isSome := by
  cases value with
  | obj members => rw [get?_sorted hPlain.nodup, Option.isSome_map]
  | _ => simp [Json.sorted, get?]

theorem Plain.member {value : Json} {depth : Nat} (hPlain : value.Plain depth) (name : String) :
    ∃ inner, (value.member name).Plain inner := by
  cases hFound : value.get? name with
  | none =>
      rw [Json.member, hFound]
      exact ⟨0, plain_null 0⟩
  | some found =>
      rw [Json.member, hFound]
      exact hPlain.get? hFound

theorem Plain.mono {value : Json} {depth deeper : Nat} (hPlain : value.Plain depth) (hDeeper : depth ≤ deeper) :
    value.Plain deeper := by
  induction hDeeper with
  | refl => exact hPlain
  | step _ ih => exact ih.succ

theorem Plain.items {items : List Json} {depth : Nat} (hPlain : (arr items).Plain depth) :
    ∃ inner, ∀ item ∈ items, item.Plain inner := by
  cases depth with
  | zero => exact absurd hPlain (not_plain_arr items)
  | succ depth => exact ⟨depth, hPlain⟩

/-- A JSON text in UTF-8. -/
def read (bytes : Bytes) : Option Json := (Bytes.decodeUtf8 bytes).bind readText

theorem read_text {value : Json} {depth : Nat} (hPlain : value.Plain depth) {rest : List Char}
    (hRest : skipBlanks rest = []) : read (Bytes.utf8 (value.text ++ rest)) = some value := by
  rw [read, Bytes.decodeUtf8_utf8, Option.bind_some, readText_text hPlain hRest]

theorem read_asciiText {value : Json} {depth : Nat} (hPlain : value.Plain depth) {rest : List Char}
    (hRest : skipBlanks rest = []) : read (Bytes.utf8 (value.asciiText ++ rest)) = some value := by
  rw [read, Bytes.decodeUtf8_utf8, Option.bind_some, readText_asciiText hPlain hRest]

private theorem readDigits_lt {characters rest : List Char} {value : Nat}
    (h : readDigits characters = some (value, rest)) : value < 10 ^ maxDigits := by
  unfold readDigits at h
  simp only at h
  split at h
  · cases h
  · next hGood =>
      simp only [Option.some.injEq, Prod.mk.injEq] at h
      rw [← h.1]
      have hDigits : ∀ c ∈ characters.takeWhile Char.isDigit, c.isDigit = true :=
        List.all_eq_true.mp List.all_takeWhile
      have hLength : (characters.takeWhile Char.isDigit).length ≤ maxDigits := by
        by_contra hLong
        exact hGood (Or.inr (Or.inr (by omega)))
      exact lt_of_lt_of_le (ofDigitChars_lt hDigits) (Nat.pow_le_pow_right (by decide) hLength)

private theorem readInt_lt {characters rest : List Char} {value : Int}
    (h : readInt characters = some (value, rest)) : value.natAbs < 10 ^ maxDigits := by
  cases characters with
  | nil => cases h
  | cons first more =>
      rw [readInt] at h
      split at h
      · obtain ⟨⟨count, other⟩, hRead, hValue⟩ := Option.bind_eq_some_iff.mp h
        simp only [pure, Option.some.injEq, Prod.mk.injEq] at hValue
        rw [← hValue.1, Int.natAbs_neg]
        exact readDigits_lt hRead
      · obtain ⟨⟨count, other⟩, hRead, hValue⟩ := Option.bind_eq_some_iff.mp h
        simp only [pure, Option.some.injEq, Prod.mk.injEq] at hValue
        rw [← hValue.1]
        exact readDigits_lt hRead

private theorem readWord_eq {word characters rest : List Char} {value found : Json}
    (h : readWord word value characters = some (found, rest)) : found = value := by
  unfold readWord at h
  split at h
  · simp only [Option.some.injEq, Prod.mk.injEq] at h
    exact h.1.symm
  · cases h

/-- What the three readers return at any fuel. -/
private theorem plain_of_readers (fuel : Nat) :
    (∀ characters value rest, readValue fuel characters = some (value, rest) → value.Plain fuel) ∧
    (∀ characters items rest, readItems fuel characters = some (items, rest) →
      ∀ item ∈ items, item.Plain fuel) ∧
    ∀ characters members rest, readMembers fuel characters = some (members, rest) →
      (members.map Prod.fst).Nodup ∧ ∀ member ∈ members, member.2.Plain fuel := by
  induction fuel with
  | zero =>
      refine ⟨?_, ?_, ?_⟩
      · intro characters value rest h
        cases h
      · intro characters items rest h
        cases h
      · intro characters members rest h
        cases h
  | succ fuel ih =>
      obtain ⟨ihValue, ihItems, ihMembers⟩ := ih
      refine ⟨?_, ?_, ?_⟩
      · intro characters value rest h
        rw [readValue] at h
        split at h
        · cases h
        · split at h
          · simp [readWord_eq h]
          · simp [readWord_eq h]
          · simp [readWord_eq h]
          · obtain ⟨⟨found, other⟩, -, hValue⟩ := Option.bind_eq_some_iff.mp h
            simp only [pure, Option.some.injEq, Prod.mk.injEq] at hValue
            simp [← hValue.1]
          · split at h
            · simp only [Option.some.injEq, Prod.mk.injEq] at h
              simp [← h.1]
            · obtain ⟨⟨items, other⟩, hRead, hValue⟩ := Option.bind_eq_some_iff.mp h
              simp only [pure, Option.some.injEq, Prod.mk.injEq] at hValue
              rw [← hValue.1]
              exact ihItems _ _ _ hRead
          · split at h
            · simp only [Option.some.injEq, Prod.mk.injEq] at h
              simp [← h.1]
            · obtain ⟨⟨members, other⟩, hRead, hValue⟩ := Option.bind_eq_some_iff.mp h
              simp only [pure, Option.some.injEq, Prod.mk.injEq] at hValue
              rw [← hValue.1]
              exact ihMembers _ _ _ hRead
          · obtain ⟨⟨number, other⟩, hRead, hValue⟩ := Option.bind_eq_some_iff.mp h
            simp only [pure, Option.some.injEq, Prod.mk.injEq] at hValue
            rw [← hValue.1, plain_int]
            exact readInt_lt hRead
      · intro characters items rest h
        rw [readItems] at h
        obtain ⟨⟨item, other⟩, hItem, hNext⟩ := Option.bind_eq_some_iff.mp h
        have hFirst := (ihValue _ _ _ hItem).succ
        simp only at hNext
        split at hNext
        · cases hNext
        · split at hNext
          · simp only [Option.some.injEq, Prod.mk.injEq] at hNext
            simpa [← hNext.1] using hFirst
          · split at hNext
            · obtain ⟨⟨more, last⟩, hMore, hValue⟩ := Option.bind_eq_some_iff.mp hNext
              simp only [pure, Option.some.injEq, Prod.mk.injEq] at hValue
              rw [← hValue.1]
              intro found hFound
              rcases List.mem_cons.mp hFound with rfl | hFound
              · exact hFirst
              · exact (ihItems _ _ _ hMore found hFound).succ
            · cases hNext
      · intro characters members rest h
        rw [readMembers] at h
        split at h
        · cases h
        · split at h
          · obtain ⟨⟨name, other⟩, -, hNext⟩ := Option.bind_eq_some_iff.mp h
            simp only at hNext
            split at hNext
            · obtain ⟨⟨value, last⟩, hValue, hEnd⟩ := Option.bind_eq_some_iff.mp hNext
              have hFirst := (ihValue _ _ _ hValue).succ
              simp only at hEnd
              split at hEnd
              · cases hEnd
              · split at hEnd
                · simp only [Option.some.injEq, Prod.mk.injEq] at hEnd
                  rw [← hEnd.1]
                  exact ⟨by simp, by simpa using hFirst⟩
                · split at hEnd
                  · obtain ⟨⟨more, final⟩, hMore, hAll⟩ := Option.bind_eq_some_iff.mp hEnd
                    simp only at hAll
                    split at hAll
                    · cases hAll
                    · next hNew =>
                        simp only [pure, Option.some.injEq, Prod.mk.injEq] at hAll
                        obtain ⟨hNames, hPlain⟩ := ihMembers _ _ _ hMore
                        rw [← hAll.1]
                        refine ⟨List.nodup_cons.mpr ⟨hNew, hNames⟩, ?_⟩
                        intro member hMember
                        rcases List.mem_cons.mp hMember with rfl | hMember
                        · exact hFirst
                        · exact (hPlain member hMember).succ
                  · cases hEnd
            · cases hNext
          · cases h

theorem plain_of_read {bytes : Bytes} {value : Json} (h : read bytes = some value) :
    ∃ depth, value.Plain depth := by
  obtain ⟨characters, -, hText⟩ := Option.bind_eq_some_iff.mp h
  obtain ⟨⟨found, rest⟩, hRead, hEnd⟩ := Option.bind_eq_some_iff.mp hText
  simp only at hEnd
  split at hEnd
  · rw [← Option.some.inj hEnd]
    exact ⟨_, (plain_of_readers _).1 _ _ _ hRead⟩
  · cases hEnd

end Json
