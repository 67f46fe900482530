import Mathlib.Order.Basic

/-! A high-water mark over numbered documents: the highest number seen and, when
known, the digest of the document that had it. The mark only rises, and a
document below it, or another document of its number, is refused. -/

structure Watermark (Digest : Type) where
  sequence : Int
  digest : Option Digest
deriving DecidableEq

namespace Watermark

variable {Digest : Type}

/-- The later mark is higher, or of the same number and knows at least as much. -/
def Le (earlier later : Watermark Digest) : Prop :=
  earlier.sequence < later.sequence ∨
    earlier.sequence = later.sequence ∧ (earlier.digest = none ∨ later.digest = earlier.digest)

instance : LE (Watermark Digest) := ⟨Le⟩

theorem le_def {earlier later : Watermark Digest} : earlier ≤ later ↔ earlier.sequence < later.sequence ∨
    earlier.sequence = later.sequence ∧ (earlier.digest = none ∨ later.digest = earlier.digest) := Iff.rfl

instance : Preorder (Watermark Digest) where
  le_refl mark := Or.inr ⟨rfl, Or.inr rfl⟩
  le_trans first second third hFirst hSecond := by
    rw [le_def] at hFirst hSecond ⊢
    rcases hFirst with hLt | ⟨hSame, hDigest⟩
    · left
      rcases hSecond with hNext | ⟨hNext, -⟩ <;> omega
    · rcases hSecond with hNext | ⟨hNext, hOther⟩
      · left
        omega
      · right
        refine ⟨hSame.trans hNext, ?_⟩
        rcases hDigest with hNone | hKept
        · exact Or.inl hNone
        · rcases hOther with hNone | hAgain
          · exact Or.inl (hKept.symm.trans hNone)
          · exact Or.inr (hAgain.trans hKept)

theorem le_sequence {earlier later : Watermark Digest} (h : earlier ≤ later) :
    earlier.sequence ≤ later.sequence := by
  rcases le_def.mp h with hLt | ⟨hSame, -⟩ <;> omega

/-- A document that is not below the mark and does not contradict it. -/
def Admits (mark : Watermark Digest) (sequence : Int) (digest : Digest) : Prop :=
  mark.sequence ≤ sequence ∧ (sequence = mark.sequence → mark.digest = none ∨ mark.digest = some digest)

/-- The mark after a document that it admits. -/
theorem le_of_admits {mark : Watermark Digest} {sequence : Int} {digest : Digest}
    (h : mark.Admits sequence digest) : mark ≤ ⟨sequence, some digest⟩ := by
  rw [le_def]
  by_cases hSame : sequence = mark.sequence
  · right
    refine ⟨hSame.symm, ?_⟩
    rcases h.2 hSame with hNone | hSome
    · exact Or.inl hNone
    · exact Or.inr hSome.symm
  · left
    have hLe := h.1
    show mark.sequence < sequence
    omega

/-- After a document, nothing below it and no other of its number is admitted. -/
theorem Admits.not_below {mark : Watermark Digest} {sequence other : Int} {digest image : Digest}
    (hSeen : ⟨sequence, some digest⟩ ≤ mark) (h : mark.Admits other image) :
    sequence ≤ other ∧ (other = sequence → image = digest) := by
  rcases le_def.mp hSeen with hLt | ⟨hSame, hDigest⟩
  · have hLe := h.1
    have hBelow : sequence < mark.sequence := hLt
    exact ⟨by omega, by omega⟩
  · have hSequence : sequence = mark.sequence := hSame
    refine ⟨hSequence ▸ h.1, fun hOther => ?_⟩
    have hKnown : mark.digest = some digest := by
      rcases hDigest with hNone | hKept
      · cases hNone
      · exact hKept
    rcases h.2 (hOther.trans hSequence) with hNone | hSome
    · rw [hKnown] at hNone
      cases hNone
    · exact (Option.some.inj (hKnown.symm.trans hSome)).symm

/-- What a mark admits, every mark below it admits. -/
theorem Admits.mono {floor mark : Watermark Digest} {sequence : Int} {digest : Digest}
    (h : mark.Admits sequence digest) (hFloor : floor ≤ mark) : floor.Admits sequence digest := by
  refine ⟨Int.le_trans (le_sequence hFloor) h.1, fun hSame => ?_⟩
  rcases le_def.mp hFloor with hLt | ⟨hEqual, hDigest⟩
  · have hLe := h.1
    omega
  · rcases hDigest with hNone | hKept
    · exact Or.inl hNone
    · exact hKept ▸ h.2 (hSame.trans hEqual)

/-- A mark may be missing, which is below every mark. -/
def Below : Option (Watermark Digest) → Option (Watermark Digest) → Prop
  | none, _ => True
  | some _, none => False
  | some earlier, some later => earlier ≤ later

theorem below_some {earlier : Watermark Digest} {later : Option (Watermark Digest)} :
    Below (some earlier) later ↔ ∃ mark, later = some mark ∧ earlier ≤ mark := by
  cases later with
  | none => simp [Below]
  | some mark => simp [Below]

theorem Below.refl (mark : Option (Watermark Digest)) : Below mark mark := by
  cases mark with
  | none => trivial
  | some mark => exact le_refl mark

theorem Below.trans {first second third : Option (Watermark Digest)} (hFirst : Below first second)
    (hSecond : Below second third) : Below first third := by
  cases first with
  | none => trivial
  | some first =>
      cases second with
      | none => exact hFirst.elim
      | some second =>
          cases third with
          | none => exact hSecond.elim
          | some third => exact le_trans (show first ≤ second from hFirst) hSecond

end Watermark
