import VouchSpec.Library.Canonical
import VouchSpec.Inspection.Receipt

/-! A sealed receipt passes the integrity check, also as it is read back from its
serialisation. -/

namespace VouchSpec

namespace Inspection

open Signing

theorem withoutMembers_eq (names : List String) (value : Json) : withoutMembers names value = Json.without names value := by
  cases value <;> rfl

/-- The names that a core keeps clear of. -/
structure Sealable (core : List (String × Json)) (depth : Nat) : Prop where
  plain : (Json.obj core).Plain depth
  free : ∀ member ∈ core, member.1 ∉ ["integrity", "receipt_id"]
  assurance : (Json.obj core).member "integrity_assurance" = .str integrityAssurance

section
variable {p : Platform} {core : List (String × Json)} {depth : Nat}

theorem plain_externalSignature : externalSignature.Plain 1 := by
  simp [externalSignature]

theorem isDict_sorted (value : Json) : isDict value.sorted = isDict value := by
  cases value <;> simp [isDict, Json.sorted]

theorem plain_integrityJson (evidenceSha256 : String) : (integrityJson evidenceSha256).Plain 2 := by
  simp [integrityJson, externalSignature]

theorem integrityJson_signature (evidenceSha256 : String) :
    (integrityJson evidenceSha256).member "signature" = externalSignature := by
  simp [integrityJson, Json.member, Json.get?]

theorem plain_sealMembers (evidenceSha256 : String) : ∀ member ∈ sealMembers evidenceSha256, member.2.Plain 2 := by
  simp [sealMembers, integrityJson, externalSignature]

theorem Sealable.plain_seal (sealable : Sealable core depth) (hDepth : 3 ≤ depth) :
    (sealReceipt p core).Plain depth := by
  obtain ⟨inner, rfl⟩ : ∃ inner, depth = inner + 1 := ⟨depth - 1, by omega⟩
  rw [sealReceipt, Json.plain_obj, List.map_append]
  constructor
  · rw [List.nodup_append]
    refine ⟨sealable.plain.1, by simp [sealMembers], ?_⟩
    intro name hName other hOther hSame
    obtain ⟨member, hMember, rfl⟩ := List.mem_map.mp hName
    have hFree := sealable.free member hMember
    rw [hSame] at hFree
    simp only [sealMembers, List.map_cons, List.map_nil, List.mem_cons, List.not_mem_nil, or_false] at hOther hFree
    tauto
  · intro member hMember
    rcases List.mem_append.mp hMember with hCore | hSeal
    · exact sealable.plain.2 member hCore
    · exact (plain_sealMembers _ member hSeal).mono (by omega)

/-- Taking the seal away leaves the core. -/
theorem Sealable.unsealed (sealable : Sealable core depth) :
    Json.without ["integrity", "receipt_id"] (sealReceipt p core) = .obj core := by
  refine Json.without_append sealable.free ?_
  simp [sealMembers]

theorem Sealable.get?_seal (sealable : Sealable core depth) {name : String} {value : Json}
    (hMember : (name, value) ∈ sealMembers (sha256Json p (.obj core))) (hDepth : 3 ≤ depth) :
    (sealReceipt p core).get? name = some value :=
  (Json.get?_obj_eq_some (sealable.plain_seal hDepth).nodup).mpr (List.mem_append_right _ hMember)

/-- The value of a member as it is read back. -/
theorem member_sorted_of_get? {value found : Json} {depth : Nat} (hPlain : value.Plain depth) {name : String}
    (hFound : value.get? name = some found) : value.sorted.member name = found.sorted := by
  rw [Json.member_sorted hPlain, Json.member, hFound]
  rfl

/-- A sealed receipt that is read back passes the integrity check. -/
theorem Sealable.verify (t : Toolkit) {core : List (String × Json)} {depth : Nat} (sealable : Sealable core depth)
    (hDepth : 3 ≤ depth) : verifyReceiptIntegrity t (sealReceipt t.toPlatform core).sorted = true := by
  have hPlain := sealable.plain_seal hDepth (p := t.toPlatform)
  have hCandidate : deterministicJson (withoutMembers ["integrity", "receipt_id"] (sealReceipt t.toPlatform core).sorted)
      = deterministicJson (.obj core) := by
    rw [deterministicJson, withoutMembers_eq, Json.without_sorted _ hPlain, sealable.unsealed, deterministicJson]
  have hId := member_sorted_of_get? hPlain (sealable.get?_seal (p := t.toPlatform) (List.mem_cons_self) hDepth)
  have hIntegrity := member_sorted_of_get? hPlain
    (sealable.get?_seal (p := t.toPlatform) (List.mem_cons_of_mem _ List.mem_cons_self) hDepth)
  have hAssurance : (withoutMembers ["integrity", "receipt_id"] (sealReceipt t.toPlatform core).sorted).member
      "integrity_assurance" = .str integrityAssurance := by
    have hGet : (sealReceipt t.toPlatform core).get? "integrity_assurance" =
        (Json.obj core).get? "integrity_assurance" := by
      rw [← @Json.get?_without ["integrity", "receipt_id"] _ (by decide), sealable.unsealed]
    have hKept := sealable.assurance
    rw [withoutMembers_eq, Json.member, Json.get?_without (by decide), ← Json.member, Json.member_sorted hPlain,
      Json.member, hGet, ← Json.member, hKept]
    simp only [Json.sorted]
  have hInner := plain_integrityJson (sha256Json t.toPlatform (.obj core))
  have hSignature := plain_externalSignature
  simp only [verifyReceiptIntegrity, hCandidate, hId, hIntegrity, hAssurance, Json.sorted, Json.str?,
    Json.member_sorted hInner, isDict_sorted, integrityJson_signature, Json.member_sorted hSignature]
  simp [integrityJson, externalSignature, Json.member, Json.get?, isDict, sha256Json]

end

end Inspection

end VouchSpec
