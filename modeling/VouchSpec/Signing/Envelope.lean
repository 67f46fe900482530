import VouchSpec.Signing.Dsse

/-! What is signed determines its type and its payload, and what is encoded is
decoded again. -/

namespace VouchSpec

namespace Signing

private theorem decimal_digits (count : Nat) : ∀ c ∈ (String.ofList (Nat.toDigits 10 count)).toList,
    48 ≤ c.toNat ∧ c.toNat ≤ 57 := by
  intro c hc
  rw [String.toList_ofList] at hc
  have hDigit := Json.toDigits_digit count c hc
  simp only [Char.isDigit, Bool.and_eq_true, decide_eq_true_eq] at hDigit
  exact hDigit

theorem decimal_no_space (count : Nat) : (32 : UInt8) ∉ decimal count := by
  intro h
  obtain ⟨c, hc, hByte⟩ := List.mem_map.mp h
  have hDigit := decimal_digits count c hc
  have hCode := congrArg UInt8.toNat hByte
  rw [UInt8.toNat_ofNat'] at hCode
  have hSpace : (32 : UInt8).toNat = 32 := rfl
  omega

theorem decimal_inj {left right : Nat} (h : decimal left = decimal right) : left = right := by
  have hAscii : ∀ count, Bytes.isAscii (String.ofList (Nat.toDigits 10 count)) = true := by
    intro count
    rw [Bytes.isAscii, List.all_eq_true]
    intro c hc
    have hDigit := decimal_digits count c hc
    exact decide_eq_true (by omega)
  have hDigits := String.ofList_injective (Bytes.ascii_inj (hAscii left) (hAscii right) h)
  have hValue := congrArg (fun digits => Nat.ofDigitChars 10 digits 0) hDigits
  simpa only [Nat.ofDigitChars_ten_toDigits] using hValue

/-- A text after its length in decimal digits determines where it ends. -/
theorem framed_inj {left right x y : Bytes}
    (h : decimal left.length ++ 32 :: (left ++ x) = decimal right.length ++ 32 :: (right ++ y)) :
    left = right ∧ x = y := by
  obtain ⟨hCount, hRest⟩ := Bytes.cut_inj (decimal_no_space _) (decimal_no_space _) h
  exact List.append_inj hRest (decimal_inj hCount)

theorem dssePae_eq_ok {payloadType : String} {payload message : Bytes} :
    dssePae payloadType payload = .ok message ↔ (payloadType ≠ "" ∧ Bytes.isAscii payloadType = true) ∧
      message = Bytes.ascii "DSSEv1 " ++ (decimal (Bytes.ascii payloadType).length ++ 32 ::
        (Bytes.ascii payloadType ++ 32 :: (decimal payload.length ++ 32 :: (payload ++ [])))) := by
  unfold dssePae
  simp only [Except.bind_eq_ok_iff, require_eq_ok, exists_const, Except.pure_eq_ok_iff, List.append_assoc,
    List.append_nil]
  exact and_congr_right fun _ => eq_comm

/-- The encoding determines the type and the payload. -/
theorem dssePae_inj {payloadType other : String} {payload image message : Bytes}
    (hLeft : dssePae payloadType payload = .ok message) (hRight : dssePae other image = .ok message) :
    payloadType = other ∧ payload = image := by
  obtain ⟨⟨-, hAscii⟩, rfl⟩ := dssePae_eq_ok.mp hLeft
  obtain ⟨⟨-, hOther⟩, hSame⟩ := dssePae_eq_ok.mp hRight
  obtain ⟨hType, hTail⟩ := framed_inj (List.append_cancel_left hSame)
  obtain ⟨hPayload, -⟩ := framed_inj (List.cons.inj hTail).2
  exact ⟨Bytes.ascii_inj hAscii hOther hType, hPayload⟩

/-- Printable characters that JSON writes as they are. -/
def Safe (c : Char) : Prop := 32 < c.toNat ∧ c.toNat < 127 ∧ c.toNat ≠ 34 ∧ c.toNat ≠ 92

instance (c : Char) : Decidable (Safe c) := inferInstanceAs (Decidable (_ ∧ _))

theorem safe_base64 (bytes : Bytes) : ∀ c ∈ Bytes.base64 bytes, Safe c := by
  intro c hc
  rcases List.mem_append.mp hc with hc | hc
  · obtain ⟨value, hValue, rfl⟩ := List.mem_map.mp hc
    have hLt := Bytes.sextets_lt bytes value hValue
    interval_cases value <;> decide
  · rw [(List.mem_replicate.mp hc).2]
    decide

theorem safe_base64Url (bytes : Bytes) : ∀ c ∈ Bytes.base64Url bytes, Safe c ∧ c ≠ '=' := by
  intro c hc
  obtain ⟨value, hValue, rfl⟩ := List.mem_map.mp hc
  have hLt := Bytes.sextets_lt bytes value hValue
  interval_cases value <;> decide

private theorem Safe.not_space {c : Char} (safe : Safe c) : isSpace c = false := by
  have hLow := safe.1
  have hHigh := safe.2.1
  simp only [isSpace, Bool.or_eq_false_iff, Bool.and_eq_false_iff, decide_eq_false_iff_not]
  omega

private theorem base64Text_of_safe {characters : List Char} (hSafe : ∀ c ∈ characters, Safe c)
    (hSome : characters ≠ []) (error : Raised) :
    base64Text (.str (String.ofList characters)) error = .ok (String.ofList characters) := by
  have hText : String.ofList characters ≠ "" := by
    intro h
    exact hSome (String.ofList_injective h)
  have hSpace : ∀ c ∈ characters, isSpace c = false := fun c hc => (hSafe c hc).not_space
  have hChecked : String.ofList characters ≠ "" ∧ (String.ofList characters).toList.any isSpace = false := by
    refine ⟨hText, ?_⟩
    rw [String.toList_ofList, List.any_eq_false]
    intro c hc
    simp [hSpace c hc]
  rw [base64Text, Json.str?, Except.ofOption]
  simp only [bind, Except.bind, require, if_pos hChecked, pure, Except.pure]

/-- Canonical base64 of a payload within its limit is read back. -/
theorem b64Decode_b64encode {bytes : Bytes} {maximum : Nat} (hSome : bytes ≠ []) :
    b64Decode (.str (b64encode bytes)) maximum =
      if bytes.length ≤ maximum then .ok bytes
      else .error (rejected "invalid or oversized DSSE base64 value" "invalid_base64") := by
  have hText : Bytes.base64 bytes ≠ [] := by
    intro h
    have hLength := congrArg List.length h
    have hPositive := List.length_pos_iff.mpr hSome
    rw [Bytes.base64_length, List.length_nil] at hLength
    omega
  rw [b64Decode, b64encode, base64Text_of_safe (safe_base64 bytes) hText]
  by_cases hLength : bytes.length ≤ maximum
  · simp [Except.ofOption, Bytes.decodeBase64_base64, bind, Except.bind, require, b64encode, hLength, pure,
      Except.pure]
  · simp [Except.ofOption, Bytes.decodeBase64_base64, bind, Except.bind, require, b64encode, hLength,
      invalidBase64]

theorem b64urlDecode_b64urlNoPad {bytes : Bytes} (hSome : bytes ≠ []) :
    b64urlDecode (.str (b64urlNoPad bytes)) bytes.length = .ok bytes := by
  have hText : Bytes.base64Url bytes ≠ [] := by
    intro h
    have hLength := congrArg List.length h
    have hPositive := List.length_pos_iff.mpr hSome
    rw [Bytes.base64Url_length, List.length_nil] at hLength
    omega
  have hPadding : '=' ∉ Bytes.base64Url bytes := fun h => (safe_base64Url bytes _ h).2 rfl
  rw [b64urlDecode, b64urlNoPad, base64Text_of_safe (fun c hc => (safe_base64Url bytes c hc).1) hText]
  simp [Except.ofOption, Bytes.decodeBase64Url_base64Url, bind, Except.bind, require, hPadding, b64urlNoPad,
    pure, Except.pure]

theorem b64Decode_eq_ok {value : Json} {maximum : Nat} {bytes : Bytes} (h : b64Decode value maximum = .ok bytes) :
    bytes.length ≤ maximum ∧ value = .str (b64encode bytes) := by
  unfold b64Decode base64Text at h
  simp only [Except.bind_eq_ok_iff, Except.ofOption_eq_ok_iff, Except.pure_eq_ok_iff, require_eq_ok,
    Json.str?_eq_some, exists_const] at h
  obtain ⟨text, ⟨_, rfl, -, rfl⟩, decoded, -, ⟨hLength, rfl⟩, rfl⟩ := h
  exact ⟨hLength, rfl⟩

theorem b64urlDecode_eq_ok {value : Json} {count : Nat} {bytes : Bytes}
    (h : b64urlDecode value count = .ok bytes) : bytes.length = count ∧ value = .str (b64urlNoPad bytes) := by
  unfold b64urlDecode base64Text at h
  simp only [Except.bind_eq_ok_iff, Except.ofOption_eq_ok_iff, Except.pure_eq_ok_iff, require_eq_ok,
    Json.str?_eq_some, exists_const] at h
  obtain ⟨text, ⟨_, rfl, -, rfl⟩, -, decoded, -, rfl, hLength, rfl⟩ := h
  exact ⟨hLength, rfl⟩

section
variable {Key : Type} (t : Toolkit) (scheme : Ed25519 Key)

private theorem publicBytes_ne_nil (key : Key) : scheme.publicBytes key ≠ [] := by
  intro h
  have hLength := scheme.publicBytes_length key
  rw [h] at hLength
  cases hLength

theorem decode_publicJwk (key : Key) :
    b64urlDecode ((publicJwk scheme key).member "x") 32 = .ok (scheme.publicBytes key) := by
  have hDecode := b64urlDecode_b64urlNoPad (publicBytes_ne_nil scheme key)
  rwa [scheme.publicBytes_length] at hDecode

/-- The key id of a raw public key. -/
def keyidOf (key : Key) : String :=
  b64urlNoPad (t.sha256 (Bytes.utf8 (Json.obj [("crv", .str "Ed25519"), ("kty", .str "OKP"),
    ("x", .str (b64urlNoPad (scheme.publicBytes key)))]).asciiText)).bytes

theorem jwkThumbprint_publicJwk (key : Key) :
    jwkThumbprint t (publicJwk scheme key) = .ok (keyidOf t scheme key) := by
  unfold jwkThumbprint
  rw [decode_publicJwk]
  rfl

theorem publicKeyFromJwk_publicJwk (key : Key) :
    publicKeyFromJwk t (publicJwk scheme key) = .ok (scheme.publicBytes key) := by
  unfold publicKeyFromJwk
  rw [jwkThumbprint_publicJwk, decode_publicJwk]
  rfl

theorem publicKeyFromJwk_eq_ok {jwk : Json} {publicKey : Bytes} (h : publicKeyFromJwk t jwk = .ok publicKey) :
    publicKey.length = 32 ∧ jwk.member "x" = .str (b64urlNoPad publicKey) := by
  simp only [publicKeyFromJwk, Except.bind_eq_ok_iff] at h
  obtain ⟨-, -, hDecode⟩ := h
  exact b64urlDecode_eq_ok hDecode

/-- The key id depends on the raw key alone. -/
theorem jwkThumbprint_eq_of_publicKey {jwk : Json} {keyid : String} {key : Key}
    (hThumbprint : jwkThumbprint t jwk = .ok keyid)
    (hKey : publicKeyFromJwk t jwk = .ok (scheme.publicBytes key)) : keyid = keyidOf t scheme key := by
  simp only [jwkThumbprint, Except.bind_eq_ok_iff, Except.pure_eq_ok_iff] at hThumbprint
  obtain ⟨-, -, -, -, -, -, hValue⟩ := hThumbprint
  rw [← hValue, (publicKeyFromJwk_eq_ok t hKey).2]
  rfl

theorem keyidOf_length (key : Key) : (keyidOf t scheme key).toList.length = 43 := by
  rw [keyidOf, b64urlNoPad, String.toList_ofList, Bytes.base64Url_length, Digest.length_bytes]

end

end Signing

end VouchSpec
