import VouchSpec.Library.Canonical
import VouchSpec.Library.Regex

/-! JSON schemas by their keywords, and the values that are valid under them. -/

namespace Json

/-- The types that a schema can ask for. -/
inductive TypeName where
  | object
  | array
  | string
  | integer
  | boolean
  | null
deriving DecidableEq

def typeName : Json → TypeName
  | .null => .null
  | .bool _ => .boolean
  | .int _ => .integer
  | .str _ => .string
  | .arr _ => .array
  | .obj _ => .object

/-- No object in a value has a name twice. -/
inductive Distinct : Json → Prop
  | null : Distinct .null
  | bool (value : Bool) : Distinct (.bool value)
  | int (value : Int) : Distinct (.int value)
  | str (value : String) : Distinct (.str value)
  | arr {items : List Json} (hItems : ∀ item ∈ items, item.Distinct) : Distinct (.arr items)
  | obj {members : List (String × Json)} (hNames : (members.map Prod.fst).Nodup)
      (hMembers : ∀ member ∈ members, member.2.Distinct) : Distinct (.obj members)

theorem Distinct.get? {value found : Json} (distinct : value.Distinct) {name : String}
    (hFound : value.get? name = some found) : found.Distinct := by
  cases distinct with
  | obj hNames hMembers => exact hMembers _ ((get?_obj_eq_some hNames).mp hFound)
  | _ => cases hFound

/-- Objects with the same members are equal, but for the order. -/
theorem sorted_obj_eq {first second : List (String × Json)} (hFirst : (first.map Prod.fst).Nodup)
    (hSecond : (second.map Prod.fst).Nodup)
    (hSame : ∀ name, ((obj first).get? name).map sorted = ((obj second).get? name).map sorted) :
    (obj first).sorted = (obj second).sorted := by
  have hNames : ∀ {members : List (String × Json)}, (members.map Prod.fst).Nodup →
      ((members.map fun member => (member.1, member.2.sorted)).map Prod.fst).Nodup := by
    intro members hNodup
    rwa [List.map_map]
  have hMember : ∀ {members : List (String × Json)}, (members.map Prod.fst).Nodup → ∀ member,
      member ∈ (members.map fun member => (member.1, member.2.sorted)) ↔
        ((obj members).get? member.1).map sorted = some member.2 := by
    intro members hNodup member
    rw [List.mem_map, Option.map_eq_some_iff]
    constructor
    · rintro ⟨found, hFound, rfl⟩
      exact ⟨found.2, (get?_obj_eq_some hNodup).mpr hFound, rfl⟩
    · rintro ⟨found, hFound, hSorted⟩
      exact ⟨(member.1, found), (get?_obj_eq_some hNodup).mp hFound, Prod.ext rfl hSorted⟩
  have hPerm : (first.map fun member => (member.1, member.2.sorted)).Perm
      (second.map fun member => (member.1, member.2.sorted)) := by
    refine (List.perm_ext_iff_of_nodup (hNames hFirst).of_map (hNames hSecond).of_map).mpr ?_
    intro member
    rw [hMember hFirst, hMember hSecond, hSame]
  rw [sorted, sorted, sortedMembers_eq_map, sortedMembers_eq_map, sort_eq_of_perm hPerm (hNames hFirst)]

/-- An object has the members that it is said to have exactly. -/
theorem get?_of_hasExactly {value : Json} {names : List String} (h : value.hasExactly names = true) (name : String) :
    (∃ found, value.get? name = some found) ↔ name ∈ names := by
  cases value with
  | obj members =>
      simp only [hasExactly, Bool.and_eq_true, List.all_eq_true, decide_eq_true_eq, List.any_eq_true] at h
      simp only [get?, Option.map_eq_some_iff]
      constructor
      · rintro ⟨found, member, hMember, rfl⟩
        have hName := List.find?_some hMember
        rw [← of_decide_eq_true hName]
        exact h.1 member (List.mem_of_find?_eq_some hMember)
      · intro hName
        obtain ⟨member, hMember, hSame⟩ := h.2 name hName
        have hSome : (members.find? fun member => member.1 = name).isSome = true :=
          List.find?_isSome.mpr ⟨member, hMember, by simp [hSame]⟩
        obtain ⟨found, hFound⟩ := Option.isSome_iff_exists.mp hSome
        exact ⟨found.2, found, hFound, rfl⟩
  | _ => simp [hasExactly] at h

/-- An object with exactly the members of another, each equal to its own. -/
theorem sorted_eq_of_members {value : Json} {members : List (String × Json)} (distinct : value.Distinct)
    (hMembers : (members.map Prod.fst).Nodup) (hExactly : value.hasExactly (members.map Prod.fst) = true)
    (hSame : ∀ member ∈ members, ∀ found, value.get? member.1 = some found → found.sorted = member.2.sorted) :
    value.sorted = (obj members).sorted := by
  cases distinct with
  | obj hNames _ =>
      refine sorted_obj_eq hNames hMembers ?_
      intro name
      have hHas := get?_of_hasExactly hExactly name
      cases hFound : (obj members).get? name with
      | some expected =>
          have hMember := (get?_obj_eq_some hMembers).mp hFound
          obtain ⟨found, hValue⟩ := hHas.mpr (List.mem_map_of_mem (f := Prod.fst) hMember)
          rw [hValue, Option.map_some, Option.map_some, hSame _ hMember found hValue]
      | none =>
          rw [Option.map_none, Option.map_eq_none_iff, Option.eq_none_iff_forall_ne_some]
          intro found hValue
          obtain ⟨member, hMember, rfl⟩ := List.mem_map.mp (hHas.mp ⟨found, hValue⟩)
          rw [(get?_obj_eq_some hMembers).mpr hMember] at hFound
          cases hFound
  | _ => simp [hasExactly] at hExactly

end Json

/-- A keyword of a schema, or several together. A pattern is matched against the whole
of a string, and `additionalProperties` names the properties beside it. -/
inductive Schema where
  | type (types : List Json.TypeName)
  | const (expected : Json)
  | enum (expected : List Json)
  | minLength (least : Nat)
  | maxLength (most : Nat)
  | pattern (regex : Regex)
  | minimum (least : Int)
  | maximum (most : Int)
  | minItems (least : Nat)
  | maxItems (most : Nat)
  | uniqueItems
  | items (schema : Schema)
  | required (names : List String)
  | properties (members : List (String × Schema))
  | additionalProperties (names : List String)
  | allOf (schemas : List Schema)
  | anyOf (schemas : List Schema)
  | oneOf (schemas : List Schema)

namespace Schema

/-- Two values are equal, apart from the order of their members. -/
def same (first second : Json) : Bool := first.sorted = second.sorted

mutual
def valid : Schema → Json → Bool
  | type types, value => value.typeName ∈ types
  | const expected, value => same value expected
  | enum expected, value => expected.any fun other => same value other
  | minLength least, .str text => least ≤ text.toList.length
  | maxLength most, .str text => text.toList.length ≤ most
  | pattern regex, .str text => regex.fullmatch text.toList
  | minimum least, .int number => least ≤ number
  | maximum most, .int number => number ≤ most
  | minItems least, .arr found => least ≤ found.length
  | maxItems most, .arr found => found.length ≤ most
  | uniqueItems, .arr found => (found.map Json.sorted).Nodup
  | items schema, .arr found => found.all fun item => schema.valid item
  | required names, .obj members => names.all fun name => members.any fun member => member.1 = name
  | properties members, value => validProperties members value
  | additionalProperties names, .obj members => members.all fun member => member.1 ∈ names
  | allOf schemas, value => validAll schemas value
  | anyOf schemas, value => 1 ≤ validCount schemas value
  | oneOf schemas, value => validCount schemas value = 1
  | _, _ => true

def validProperties : List (String × Schema) → Json → Bool
  | [], _ => true
  | (name, schema) :: rest, value =>
      (match value.get? name with
        | some found => schema.valid found
        | none => true) && validProperties rest value

def validAll : List Schema → Json → Bool
  | [], _ => true
  | schema :: rest, value => schema.valid value && validAll rest value

def validCount : List Schema → Json → Nat
  | [], _ => 0
  | schema :: rest, value => (if schema.valid value = true then 1 else 0) + validCount rest value
end

/-- An object with no other properties than these. -/
def record (names : List String) (members : List (String × Schema)) : Schema :=
  allOf [type [.object], additionalProperties (members.map Prod.fst), required names, properties members]

/-- A string that a pattern describes. -/
def matching (regex : Regex) : Schema := allOf [type [.string], pattern regex]

/-- An integer between two bounds. -/
def integer (least most : Int) : Schema := allOf [type [.integer], minimum least, maximum most]

section
attribute [local simp] valid validAll validProperties validCount

theorem validAll_iff {schemas : List Schema} {value : Json} :
    validAll schemas value = true ↔ ∀ schema ∈ schemas, schema.valid value = true := by
  induction schemas with
  | nil => simp
  | cons schema rest ih => simp [ih]

end

theorem validProperties_iff {members : List (String × Schema)} {value : Json} :
    validProperties members value = true ↔
      ∀ member ∈ members, ∀ found, value.get? member.1 = some found → member.2.valid found = true := by
  induction members with
  | nil => simp [validProperties]
  | cons member rest ih =>
      obtain ⟨name, schema⟩ := member
      rw [validProperties, Bool.and_eq_true, ih, List.forall_mem_cons]
      refine and_congr_left' ?_
      cases value.get? name with
      | none => simp
      | some found => simp

/-- A record holds its properties, each of them valid. -/
theorem record_valid {members : List (String × Schema)} {value : Json} :
    (record (members.map Prod.fst) members).valid value = true ↔
      value.hasExactly (members.map Prod.fst) = true ∧
        ∀ member ∈ members, ∀ found, value.get? member.1 = some found → member.2.valid found = true := by
  rw [record, valid, validAll_iff]
  simp only [List.forall_mem_cons, List.not_mem_nil, false_implies, implies_true, and_true]
  cases value with
  | obj members => simp [valid, Json.typeName, Json.hasExactly, validProperties_iff, and_assoc]
  | _ => simp [valid, Json.typeName, Json.hasExactly]

/-- A record holds each of its properties. -/
theorem record_valid_iff {members : List (String × Schema)} {value : Json} :
    (record (members.map Prod.fst) members).valid value = true ↔
      value.hasExactly (members.map Prod.fst) = true ∧
        ∀ member ∈ members, ∃ found, value.get? member.1 = some found ∧ member.2.valid found = true := by
  rw [record_valid]
  refine and_congr_right fun hExactly => forall₂_congr fun member hMember => ?_
  obtain ⟨found, hFound⟩ := (Json.get?_of_hasExactly hExactly member.1).mpr (List.mem_map_of_mem hMember)
  simp [hFound]

theorem const_str_valid {value : Json} {text : String} :
    (const (.str text)).valid value = true ↔ value = .str text := by
  rw [valid, same, decide_eq_true_iff, show (Json.str text).sorted = .str text by simp [Json.sorted]]
  exact Json.sorted_eq_str

theorem matching_valid {regex : Regex} {value : Json} :
    (matching regex).valid value = true ↔ ∃ text, value = .str text ∧ text.toList ∈ regex.language := by
  rw [matching, valid, validAll_iff]
  simp only [List.forall_mem_cons, List.not_mem_nil, false_implies, implies_true, and_true]
  cases value <;> simp [valid, Json.typeName, Regex.fullmatch_iff]

theorem integer_valid {least most : Int} {value : Json} :
    (integer least most).valid value = true ↔ ∃ number, value = .int number ∧ least ≤ number ∧ number ≤ most := by
  rw [integer, valid, validAll_iff]
  simp only [List.forall_mem_cons, List.not_mem_nil, false_implies, implies_true, and_true]
  cases value <;> simp [valid, Json.typeName]

/-- A string of bounded length. -/
def text (least most : Nat) : Schema := allOf [type [.string], minLength least, maxLength most]

/-- An array of bounded length. -/
def list (most : Nat) (item : Schema) : Schema := allOf [type [.array], maxItems most, items item]

def listBetween (least most : Nat) (item : Schema) : Schema :=
  allOf [type [.array], minItems least, maxItems most, items item]

def atLeast (least : Int) : Schema := allOf [type [.integer], minimum least]

/-- One of several strings. -/
def texts (values : List String) : Schema := enum (values.map Json.str)

theorem allOf_valid {schemas : List Schema} {value : Json} :
    (allOf schemas).valid value = true ↔ ∀ schema ∈ schemas, schema.valid value = true := by
  rw [valid, validAll_iff]

theorem text_valid {least most : Nat} {value : String} :
    (text least most).valid (.str value) = true ↔ least ≤ value.toList.length ∧ value.toList.length ≤ most := by
  rw [text, allOf_valid]
  simp [valid, Json.typeName]

theorem list_valid {most : Nat} {item : Schema} {found : List Json} :
    (list most item).valid (.arr found) = true ↔ found.length ≤ most ∧ ∀ value ∈ found, item.valid value = true := by
  rw [list, allOf_valid]
  simp [valid, Json.typeName]

theorem listBetween_valid {least most : Nat} {item : Schema} {found : List Json} :
    (listBetween least most item).valid (.arr found) = true ↔
      (least ≤ found.length ∧ found.length ≤ most) ∧ ∀ value ∈ found, item.valid value = true := by
  rw [listBetween, allOf_valid]
  simp [valid, Json.typeName, and_assoc]

theorem atLeast_valid {least number : Int} : (atLeast least).valid (.int number) = true ↔ least ≤ number := by
  rw [atLeast, allOf_valid]
  simp [valid, Json.typeName]

theorem texts_valid {values : List String} {value : String} :
    (texts values).valid (.str value) = true ↔ value ∈ values := by
  rw [texts, valid]
  simp [same, Json.sorted]

theorem integer_int_valid {least most number : Int} :
    (integer least most).valid (.int number) = true ↔ least ≤ number ∧ number ≤ most := by
  rw [integer_valid]
  simp

theorem text_literal {least most : Nat} {value : String} {characters : List Char} (hValue : value = String.ofList characters)
    (hLength : least ≤ characters.length ∧ characters.length ≤ most) : (text least most).valid (.str value) = true := by
  rw [text_valid, hValue, String.toList_ofList]
  exact hLength

theorem text_append_literal {least most : Nat} {first second : String} {left right : List Char}
    (hFirst : first = String.ofList left) (hSecond : second = String.ofList right)
    (hLength : least ≤ left.length + right.length ∧ left.length + right.length ≤ most) :
    (text least most).valid (.str (first ++ second)) = true := by
  rw [text_valid, hFirst, hSecond, String.toList_append, String.toList_ofList, String.toList_ofList, List.length_append]
  exact hLength

theorem anyOf_two_valid {first second : Schema} {value : Json} :
    (anyOf [first, second]).valid value = true ↔ first.valid value = true ∨ second.valid value = true := by
  cases hFirst : first.valid value <;> cases hSecond : second.valid value <;> simp [valid, validCount, hFirst, hSecond]

theorem oneOf_two_valid {first second : Schema} {value : Json} :
    (oneOf [first, second]).valid value = true ↔
      (first.valid value = true ↔ ¬second.valid value = true) := by
  cases hFirst : first.valid value <;> cases hSecond : second.valid value <;> simp [valid, validCount, hFirst, hSecond]

/-- A record with its members in the order of the properties: each of them under its own. -/
theorem record_obj_valid {names : List String} {properties : List (String × Schema)} {members : List (String × Json)}
    (hOrder : members.map Prod.fst <+: properties.map Prod.fst) (hNodup : (properties.map Prod.fst).Nodup)
    (hRequired : ∀ name ∈ names, name ∈ members.map Prod.fst) :
    (record names properties).valid (.obj members) = true ↔
      ∀ pair ∈ members.zip properties, pair.2.2.valid pair.1.2 = true := by
  have hMembers : (members.map Prod.fst).Nodup := hOrder.sublist.nodup hNodup
  have hAt : ∀ index (hMember : index < members.length) (hProperty : index < properties.length),
      members[index].1 = properties[index].1 := by
    intro index hMember hProperty
    have h := hOrder.getElem (i := index) (by rwa [List.length_map])
    rwa [List.getElem_map, List.getElem_map] at h
  have hLength : members.length ≤ properties.length := by simpa using hOrder.length_le
  have hValid : (record names properties).valid (.obj members) = true ↔
      ∀ property ∈ properties, ∀ found, (property.1, found) ∈ members → property.2.valid found = true := by
    rw [record, allOf_valid]
    simp only [List.forall_mem_cons, List.not_mem_nil, false_implies, implies_true, and_true]
    simp only [valid, Json.typeName, List.mem_singleton, decide_true, true_and, validProperties_iff,
      Json.get?_obj_eq_some hMembers]
    refine ⟨fun h => h.2.2, fun h => ⟨?_, ?_, h⟩⟩
    · simp only [List.all_eq_true, decide_eq_true_eq]
      exact fun member hMember => hOrder.subset (List.mem_map_of_mem hMember)
    · simp only [List.all_eq_true, List.any_eq_true, decide_eq_true_eq]
      exact fun name hName => List.mem_map.mp (hRequired name hName)
  rw [hValid]
  constructor
  · intro hProperties pair hPair
    obtain ⟨index, hIndex, rfl⟩ := List.getElem_of_mem hPair
    rw [List.length_zip] at hIndex
    have hMember : index < members.length := by omega
    have hProperty : index < properties.length := by omega
    rw [List.getElem_zip]
    refine hProperties _ (List.getElem_mem hProperty) _ ?_
    rw [← hAt index hMember hProperty]
    exact List.getElem_mem hMember
  · intro hPairs property hProperty found hFound
    obtain ⟨index, hMember, hFound⟩ := List.getElem_of_mem hFound
    have hIndex : index < properties.length := by omega
    have hSame : properties[index] = property := by
      refine List.inj_on_of_nodup_map hNodup (List.getElem_mem hIndex) hProperty ?_
      rw [← hAt index hMember hIndex, hFound]
    have hPair : (members[index], properties[index]) ∈ members.zip properties := by
      rw [← List.getElem_zip (h := by rw [List.length_zip]; omega)]
      exact List.getElem_mem _
    have h := hPairs _ hPair
    rwa [hSame, hFound] at h

theorem validCount_congr {schemas : List Schema} {first second : Json}
    (hSame : ∀ schema ∈ schemas, schema.valid first = schema.valid second) :
    validCount schemas first = validCount schemas second := by
  induction schemas with
  | nil => rfl
  | cons schema rest ih =>
      rw [validCount, validCount, hSame schema List.mem_cons_self,
        ih fun other hOther => hSame other (List.mem_cons_of_mem _ hOther)]

theorem typeName_sorted (value : Json) : value.sorted.typeName = value.typeName := by
  cases value <;> simp [Json.sorted, Json.typeName]

theorem same_sorted {value : Json} {depth : Nat} (hPlain : value.Plain depth) (expected : Json) :
    same value.sorted expected = same value expected := by
  rw [same, same, Json.sorted_sorted hPlain]

/-- The order of members does not count. -/
theorem valid_sorted (schema : Schema) {value : Json} {depth : Nat} (hPlain : value.Plain depth) :
    schema.valid value.sorted = schema.valid value := by
  induction hSize : sizeOf schema using Nat.strong_induction_on generalizing schema value depth with
  | _ size ih =>
      subst hSize
      cases schema with
      | type types => rw [valid, valid, typeName_sorted]
      | const expected => rw [valid, valid, same_sorted hPlain]
      | enum expected => simp only [valid, same_sorted hPlain]
      | minLength least => cases value <;> simp [valid, Json.sorted]
      | maxLength most => cases value <;> simp [valid, Json.sorted]
      | pattern regex => cases value <;> simp [valid, Json.sorted]
      | minimum least => cases value <;> simp [valid, Json.sorted]
      | maximum most => cases value <;> simp [valid, Json.sorted]
      | minItems least => cases value <;> simp [valid, Json.sorted, Json.sortedItems_eq_map]
      | maxItems most => cases value <;> simp [valid, Json.sorted, Json.sortedItems_eq_map]
      | uniqueItems =>
          cases value with
          | arr found =>
              obtain ⟨inner, hItems⟩ := hPlain.items
              have hTwice : (found.map Json.sorted).map Json.sorted = found.map Json.sorted := by
                rw [List.map_map]
                exact List.map_congr_left fun item hItem => Json.sorted_sorted (hItems item hItem)
              rw [Json.sorted, Json.sortedItems_eq_map, valid, valid, hTwice]
          | _ => simp [valid, Json.sorted]
      | items schema =>
          cases value with
          | arr found =>
              obtain ⟨inner, hItems⟩ := hPlain.items
              rw [Json.sorted, Json.sortedItems_eq_map, valid, valid, List.all_map, Bool.eq_iff_iff, List.all_eq_true,
                List.all_eq_true]
              refine forall₂_congr fun item hItem => ?_
              rw [Function.comp_apply, ih _ (by simp) schema (hItems item hItem) rfl]
          | _ => simp [valid, Json.sorted]
      | required names =>
          cases value with
          | obj members =>
              rw [Json.sorted, Json.sortedMembers_eq_map, valid, valid]
              congr 1
              funext name
              rw [(Json.sorted_perm members).any_eq, List.any_map]
              rfl
          | _ => simp [valid, Json.sorted]
      | additionalProperties names =>
          cases value with
          | obj members =>
              rw [Json.sorted, Json.sortedMembers_eq_map, valid, valid, (Json.sorted_perm members).all_eq, List.all_map]
              rfl
          | _ => simp [valid, Json.sorted]
      | properties members =>
          rw [valid, valid, Bool.eq_iff_iff, validProperties_iff, validProperties_iff]
          refine forall₂_congr fun member hMember => ?_
          have hSmaller : sizeOf member.2 < sizeOf (properties members) := by
            have hIn := List.sizeOf_lt_of_mem hMember
            obtain ⟨name, schema⟩ := member
            simp only [Prod.mk.sizeOf_spec, properties.sizeOf_spec] at hIn ⊢
            omega
          cases value with
          | obj found =>
              rw [Json.get?_sorted hPlain.nodup]
              cases hFound : (Json.obj found).get? member.1 with
              | none => simp
              | some inner =>
                  obtain ⟨level, hInner⟩ := hPlain.get? hFound
                  simp [ih _ hSmaller member.2 hInner rfl]
          | _ => simp [Json.sorted, Json.get?]
      | allOf schemas =>
          rw [Bool.eq_iff_iff, allOf_valid, allOf_valid]
          refine forall₂_congr fun schema hSchema => ?_
          have hIn := List.sizeOf_lt_of_mem hSchema
          rw [ih _ (by rw [allOf.sizeOf_spec]; omega) schema hPlain rfl]
      | anyOf schemas =>
          have hSame : ∀ schema ∈ schemas, schema.valid value.sorted = schema.valid value := by
            intro schema hSchema
            have hIn := List.sizeOf_lt_of_mem hSchema
            exact ih _ (by rw [anyOf.sizeOf_spec]; omega) schema hPlain rfl
          rw [valid, valid, validCount_congr hSame]
      | oneOf schemas =>
          have hSame : ∀ schema ∈ schemas, schema.valid value.sorted = schema.valid value := by
            intro schema hSchema
            have hIn := List.sizeOf_lt_of_mem hSchema
            exact ih _ (by rw [oneOf.sizeOf_spec]; omega) schema hPlain rfl
          rw [valid, valid, validCount_congr hSame]

end Schema
