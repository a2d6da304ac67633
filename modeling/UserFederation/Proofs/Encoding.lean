import Mathlib
import UserFederation.Http.Percent

/-! Percent-encoded texts. An encoded text holds no separator (`mem_encode`), and decoding gives the
text back (`decode?_encode`). -/

namespace UserFederation.Percent

variable {s : String} {c : Char} {byte : Nat}

theorem unreserved_bounds (h : isUnreserved c) : 0x2D ≤ c.toNat ∧ c.toNat < 0x7F := by
  simp only [isUnreserved, Char.isAlphanum, Char.isAlpha, Char.isUpper, Char.isLower, Char.isDigit,
    ge_iff_le, Bool.or_eq_true, Bool.and_eq_true, decide_eq_true_eq, UInt32.le_iff_toNat_le,
    Char.toNat_val, Char.reduceToNat] at h
  rcases h with (((((h | h) | h) | rfl) | rfl) | rfl) | rfl
  · omega
  · omega
  · omega
  all_goals decide

theorem hexDigit_unreserved : ∀ n < 16, isUnreserved (Text.hexDigit true n) := by
  decide

theorem toNat_lt (c : Char) : c.toNat < 0x110000 := by
  rcases c.valid with h | ⟨-, h⟩
  · exact Nat.lt_trans h (by decide)
  · exact h

theorem utf8_lt (h : byte ∈ Text.utf8 c) : byte < 256 := by
  have := toNat_lt c
  simp only [Text.utf8] at h
  split at h
  · simp at h
    omega
  · split at h
    · simp at h
      omega
    · split at h <;> simp at h <;> omega

theorem utf8_ne_nil (c : Char) : Text.utf8 c ≠ [] := by
  simp only [Text.utf8]
  repeat' split
  all_goals simp

theorem mem_escape (h : byte < 256) (hc : c ∈ escape byte) : isUnreserved c ∨ c = '%' := by
  simp only [escape, List.mem_cons, List.not_mem_nil, or_false] at hc
  rcases hc with rfl | rfl | rfl
  · exact .inr rfl
  · exact .inl (hexDigit_unreserved _ (by omega))
  · exact .inl (hexDigit_unreserved _ (by omega))

theorem mem_encode (h : c ∈ (encode s).toList) : isUnreserved c ∨ c = '%' := by
  simp only [encode, encodeWhere, String.toList_ofList, List.mem_flatMap] at h
  obtain ⟨d, -, hc⟩ := h
  cases reserved : isUnreserved d with
  | true =>
    simp only [reserved, Bool.not_true, Bool.false_eq_true, if_false, List.mem_singleton] at hc
    exact .inl (hc ▸ reserved)
  | false =>
    simp only [reserved, Bool.not_false, if_true, List.mem_flatMap] at hc
    obtain ⟨byte, hb, hc⟩ := hc
    exact mem_escape (utf8_lt hb) hc

/-- A reserved character leaves a percent sign behind. -/
theorem percent_mem_encode (hc : c ∈ s.toList) (reserved : isUnreserved c = false) :
    '%' ∈ (encode s).toList := by
  obtain ⟨byte, hb⟩ := List.exists_mem_of_ne_nil _ (utf8_ne_nil c)
  simp only [encode, encodeWhere, String.toList_ofList, List.mem_flatMap]
  refine ⟨c, hc, ?_⟩
  simp only [reserved, Bool.not_false, if_true, List.mem_flatMap]
  exact ⟨byte, hb, List.mem_cons_self⟩

theorem length_encodeWhere (escaped : Char → Bool) (cs : List Char) :
    cs.length + cs.countP escaped ≤ (encodeWhere escaped cs).length := by
  induction cs with
  | nil => exact Nat.le_refl _
  | cons c cs ih =>
    have rest : encodeWhere escaped (c :: cs) =
        (if escaped c then (Text.utf8 c).flatMap escape else [c]) ++ encodeWhere escaped cs := rfl
    rw [rest, List.length_append, List.length_cons]
    cases hc : escaped c with
    | false =>
      rw [List.countP_cons_of_neg (by simp [hc])]
      simp only [Bool.false_eq_true, if_false, List.length_singleton]
      omega
    | true =>
      obtain ⟨byte, bytes, hu⟩ := List.exists_cons_of_ne_nil (utf8_ne_nil c)
      rw [List.countP_cons_of_pos hc]
      simp only [if_true, hu, List.flatMap_cons, List.length_append, escape, List.length_cons]
      omega

/-- Encoding is noticed: it leaves only texts alone of which it encodes nothing. -/
theorem encodeWhere_eq_self_iff {escaped : Char → Bool} {cs : List Char} :
    encodeWhere escaped cs = cs ↔ ∀ c ∈ cs, escaped c = false := by
  constructor
  · intro same c hc
    have longer := length_encodeWhere escaped cs
    rw [same] at longer
    have none : cs.countP escaped = 0 := by omega
    simpa using List.countP_eq_zero.mp none c hc
  · intro plain
    have single : encodeWhere escaped cs = cs.flatMap fun c => [c] :=
      List.flatMap_congr fun c hc => by rw [plain c hc, if_neg Bool.false_ne_true]
    rw [single, List.flatMap_singleton']

theorem encode_eq_self_iff : encode s = s ↔ ∀ c ∈ s.toList, isUnreserved c := by
  have chars : encode s = s ↔ encodeWhere (fun c => !isUnreserved c) s.toList = s.toList := by
    rw [← String.toList_inj, encode, String.toList_ofList]
  simp only [chars, encodeWhere_eq_self_iff, Bool.not_eq_false']

/-- Encoding once more changes each text that encoding changes. -/
theorem encode_encode_iff : encode (encode s) = encode s ↔ ∀ c ∈ s.toList, isUnreserved c := by
  constructor
  · intro same c hc
    cases reserved : isUnreserved c with
    | true => rfl
    | false =>
      -- The percent sign that the first encoding leaves is itself reserved.
      have kept := encode_eq_self_iff.mp same '%' (percent_mem_encode hc reserved)
      exact absurd kept (by decide)
  · intro h
    rw [encode_eq_self_iff.mpr h, encode_eq_self_iff.mpr h]

theorem encode_ne_empty (h : s ≠ "") : (encode s).toList ≠ [] := by
  intro none
  have longer := length_encodeWhere (fun c => !isUnreserved c) s.toList
  rw [encode, String.toList_ofList] at none
  rw [none, List.length_nil] at longer
  have short : s.toList = [] := List.eq_nil_of_length_eq_zero (by omega)
  exact h (String.toList_eq_nil_iff.mp short)

/-! ### Decoding -/

/-- The text whose bytes a percent-encoded text gives. -/
def decode? (cs : List Char) : Option String :=
  String.fromUTF8? ((decodeBytes cs).map UInt8.ofNat).toByteArray

theorem hexValue?_hexDigit : ∀ n < 16, Text.hexValue? (Text.hexDigit true n) = some n := by decide

/-- Decoding undoes the escapes of some bytes. -/
theorem decodeBytes_escape {bytes : List Nat} (h : ∀ byte ∈ bytes, byte < 256) (rest : List Char) :
    decodeBytes (bytes.flatMap escape ++ rest) = bytes ++ decodeBytes rest := by
  induction bytes with
  | nil => rfl
  | cons byte bytes ih =>
    obtain ⟨small, later⟩ := List.forall_mem_cons.mp h
    have digits : Text.hexNumber?
        [Text.hexDigit true (byte / 16), Text.hexDigit true (byte % 16)] = some byte := by
      simp only [Text.hexNumber?, List.foldlM_cons, List.foldlM_nil, Option.bind_eq_bind,
        hexValue?_hexDigit (byte / 16) (by omega), hexValue?_hexDigit (byte % 16) (by omega),
        Option.map_some, Option.bind_some, Option.pure_def]
      congr 1
      omega
    rw [List.flatMap_cons, List.append_assoc, escape]
    simp only [List.cons_append, List.nil_append, decodeBytes, digits, ih later]

/-- A character other than a percent sign stands for itself. -/
theorem decodeBytes_cons {c : Char} (h : c ≠ '%') (rest : List Char) :
    decodeBytes (c :: rest) = Text.utf8 c ++ decodeBytes rest := by
  rw [decodeBytes]
  exact fun _ _ _ same => absurd same h

theorem decodeBytes_encode (cs : List Char) :
    decodeBytes (encodeWhere (fun c => !isUnreserved c) cs) = cs.flatMap Text.utf8 := by
  induction cs with
  | nil => rfl
  | cons c cs ih =>
    have first : encodeWhere (fun c => !isUnreserved c) (c :: cs) =
        (if !isUnreserved c then (Text.utf8 c).flatMap escape else [c]) ++
          encodeWhere (fun c => !isUnreserved c) cs := rfl
    rw [first, List.flatMap_cons]
    cases reserved : isUnreserved c with
    | false =>
      simp only [Bool.not_false, if_true]
      rw [decodeBytes_escape (fun _ => utf8_lt), ih]
    | true =>
      have plain : c ≠ '%' := by
        rintro rfl
        exact absurd reserved (by decide)
      simp only [Bool.not_true, Bool.false_eq_true, if_false, List.singleton_append]
      rw [decodeBytes_cons plain, ih]

/-- The bytes of a character are those of its encoding in a text. -/
theorem map_utf8 (c : Char) : (Text.utf8 c).map UInt8.ofNat = String.utf8EncodeChar c := by
  have := toNat_lt c
  simp only [Text.utf8, String.utf8EncodeChar, Char.toNat_val]
  by_cases one : c.toNat < 0x80
  · rw [if_pos one, if_pos (by omega)]
    rfl
  by_cases two : c.toNat < 0x800
  · rw [if_neg one, if_pos two, if_neg (by omega), if_pos (by omega)]
    have lead : c.toNat / 64 % 32 = c.toNat / 64 := Nat.mod_eq_of_lt (by omega)
    rw [lead]
    simp only [Nat.add_comm, List.map_cons, List.map_nil]
  by_cases three : c.toNat < 0x10000
  · rw [if_neg one, if_neg two, if_pos three, if_neg (by omega), if_neg (by omega),
      if_pos (by omega)]
    have lead : c.toNat / 4096 % 16 = c.toNat / 4096 := Nat.mod_eq_of_lt (by omega)
    rw [lead]
    simp only [Nat.add_comm, List.map_cons, List.map_nil]
  · rw [if_neg one, if_neg two, if_neg three, if_neg (by omega), if_neg (by omega),
      if_neg (by omega)]
    have lead : c.toNat / 262144 % 8 = c.toNat / 262144 := Nat.mod_eq_of_lt (by omega)
    rw [lead]
    simp only [Nat.add_comm, List.map_cons, List.map_nil]

theorem toByteArray_utf8Bytes (s : String) :
    ((Text.utf8Bytes s).map UInt8.ofNat).toByteArray = s.toByteArray := by
  rw [Text.utf8Bytes, List.map_flatMap, ← String.utf8Encode_toList]
  simp only [map_utf8]
  rfl

/-- Decoding gives an encoded text back. -/
theorem decode?_encode (s : String) : decode? (encode s).toList = some s := by
  rw [decode?, encode, String.toList_ofList, decodeBytes_encode, ← Text.utf8Bytes,
    toByteArray_utf8Bytes, String.fromUTF8?]
  exact dif_pos s.isValidUTF8

/-- The bytes of an encoded text tell the text. -/
theorem eq_of_decodeBytes {s t : String} (h : decodeBytes (encode s).toList = Text.utf8Bytes t) :
    s = t := by
  rw [encode, String.toList_ofList, decodeBytes_encode, ← Text.utf8Bytes] at h
  rw [← String.toByteArray_inj, ← toByteArray_utf8Bytes, ← toByteArray_utf8Bytes, h]

end UserFederation.Percent
