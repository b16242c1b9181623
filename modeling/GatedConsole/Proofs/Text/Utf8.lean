import GatedConsole.Text.Utf8

/-!
UTF-8 there and back. Main statement: the bytes of an encoded text decode to the text.
-/

set_option autoImplicit false
set_option relaxedAutoImplicit false

namespace GatedConsole.Utf8

/-- The surrogates of a text without a fault are all forgiven. -/
theorem faultFrom_eq_none_iff {forgiven : CodePoint → Bool} {t : Text} {p : Nat} :
    faultFrom forgiven p t = none ↔ ∀ c ∈ t, c.isSurrogate = true → forgiven c = true := by
  induction t generalizing p with
  | nil => simp [faultFrom]
  | cons c t ih =>
    rw [List.forall_mem_cons, ← ih (p := p + 1), faultFrom]
    cases lone : c.isSurrogate with
    | false => simp
    | true =>
      cases here : forgiven c with
      | false => simp
      | true => simp

theorem encode_eq_ok_iff {t : Text} {bytes : Bytes} :
    encode t = .ok bytes ↔ (∀ c ∈ t, c.isSurrogate = false) ∧ t.flatMap encodeOne = bytes := by
  have faultless : firstFault? t = none ↔ ∀ c ∈ t, c.isSurrogate = false := by
    rw [firstFault?, faultFrom_eq_none_iff]
    simp
  rw [← faultless, encode]
  split
  · rename_i fault found
    simp [found]
  · rename_i found
    simp [found]

private theorem toNat_byte {n : Nat} (h : n < 256) : (UInt8.ofNat n).toNat = n := by
  rw [UInt8.toNat_ofNat']
  omega

private theorem eq_iff_toNat (a b : UInt8) : a = b ↔ a.toNat = b.toNat := UInt8.toNat_inj.symm

private theorem maySecond_of {a b : Nat} (ha : a < 256) (hb : 0x80 ≤ b ∧ b < 0xC0)
    (long3 : a = 0xE0 → 0xA0 ≤ b) (surrogate : a = 0xED → b < 0xA0) (long4 : a = 0xF0 → 0x90 ≤ b)
    (above : a = 0xF4 → b < 0x90) : maySecond (UInt8.ofNat a) (UInt8.ofNat b) = true := by
  have first := toNat_byte ha
  have second := toNat_byte (n := b) (by omega)
  simp only [maySecond, isContinuation, eq_iff_toNat, first, second]
  simp only [Bool.and_eq_true, Bool.not_eq_true', Bool.and_eq_false_iff, decide_eq_true_eq,
    decide_eq_false_iff_not, UInt8.toNat_ofNat]
  omega

private theorem isContinuation_of {b : Nat} (hb : 0x80 ≤ b ∧ b < 0xC0) :
    isContinuation (UInt8.ofNat b) = true := by
  simp only [isContinuation, toNat_byte (n := b) (by omega), Bool.and_eq_true, decide_eq_true_eq]
  omega

private theorem ofNat_of_eq (c : CodePoint) (n : Nat) (h : n = c.val) : CodePoint.ofNat n = c := by
  rw [h, CodePoint.ofNat_val]

section Widths

variable {c : CodePoint} {position : Nat} {rest : Bytes}

private theorem decodeFrom_one (small : c.val < 0x80) :
    decodeFrom position ([UInt8.ofNat c.val] ++ rest) =
      (decodeFrom (position + 1) rest).map (c :: ·) := by
  conv => lhs; unfold decodeFrom
  rw [List.cons_append]
  dsimp only
  rw [toNat_byte (n := c.val) (by omega), if_pos small, ofNat_of_eq c _ rfl]
  rfl

private theorem decodeFrom_two (large : 0x80 ≤ c.val) (small : c.val < 0x800) :
    decodeFrom position
        ([UInt8.ofNat (0xC0 + c.val / 64), UInt8.ofNat (0x80 + c.val % 64)] ++ rest) =
      (decodeFrom (position + 2) rest).map (c :: ·) := by
  have first := toNat_byte (n := 0xC0 + c.val / 64) (by omega)
  have second := toNat_byte (n := 0x80 + c.val % 64) (by omega)
  have may := maySecond_of (a := 0xC0 + c.val / 64) (b := 0x80 + c.val % 64) (by omega)
    (by omega) (by omega) (by omega) (by omega) (by omega)
  rw [List.cons_append, List.cons_append]
  conv => lhs; unfold decodeFrom
  dsimp only
  rw [first, if_neg (by omega), if_neg (by omega)]
  simp only [may, Bool.not_true, Bool.false_eq_true, if_false, List.nil_append]
  rw [if_pos (by omega), two, payload, first, second, ofNat_of_eq c _ (by omega)]

private theorem decodeFrom_three (scalar : ¬(0xD800 ≤ c.val ∧ c.val < 0xE000))
    (large : 0x800 ≤ c.val) (small : c.val < 0x10000) :
    decodeFrom position
        ([UInt8.ofNat (0xE0 + c.val / 4096), UInt8.ofNat (0x80 + c.val / 64 % 64),
          UInt8.ofNat (0x80 + c.val % 64)] ++ rest) =
      (decodeFrom (position + 3) rest).map (c :: ·) := by
  have first := toNat_byte (n := 0xE0 + c.val / 4096) (by omega)
  have second := toNat_byte (n := 0x80 + c.val / 64 % 64) (by omega)
  have third := toNat_byte (n := 0x80 + c.val % 64) (by omega)
  have may := maySecond_of (a := 0xE0 + c.val / 4096) (b := 0x80 + c.val / 64 % 64)
    (by omega) (by omega) (by omega) (by omega) (by omega) (by omega)
  have goes := isContinuation_of (b := 0x80 + c.val % 64) (by omega)
  rw [List.cons_append, List.cons_append, List.cons_append]
  conv => lhs; unfold decodeFrom
  dsimp only
  rw [first, if_neg (by omega), if_neg (by omega)]
  simp only [may, goes, Bool.not_true, Bool.false_eq_true, if_false, List.nil_append]
  rw [if_neg (by omega), if_pos (by omega), three, payload, payload, first, second, third,
    ofNat_of_eq c _ (by omega)]

private theorem decodeFrom_four (large : 0x10000 ≤ c.val) :
    decodeFrom position
        ([UInt8.ofNat (0xF0 + c.val / 262144), UInt8.ofNat (0x80 + c.val / 4096 % 64),
          UInt8.ofNat (0x80 + c.val / 64 % 64), UInt8.ofNat (0x80 + c.val % 64)] ++ rest) =
      (decodeFrom (position + 4) rest).map (c :: ·) := by
  have bound := c.lt_bound
  have first := toNat_byte (n := 0xF0 + c.val / 262144) (by omega)
  have second := toNat_byte (n := 0x80 + c.val / 4096 % 64) (by omega)
  have third := toNat_byte (n := 0x80 + c.val / 64 % 64) (by omega)
  have fourth := toNat_byte (n := 0x80 + c.val % 64) (by omega)
  have may := maySecond_of (a := 0xF0 + c.val / 262144) (b := 0x80 + c.val / 4096 % 64)
    (by omega) (by omega) (by omega) (by omega) (by omega) (by omega)
  have goes := isContinuation_of (b := 0x80 + c.val / 64 % 64) (by omega)
  have goes_on := isContinuation_of (b := 0x80 + c.val % 64) (by omega)
  rw [List.cons_append, List.cons_append, List.cons_append, List.cons_append]
  conv => lhs; unfold decodeFrom
  dsimp only
  rw [first, if_neg (by omega), if_neg (by omega)]
  simp only [may, goes, goes_on, Bool.not_true, Bool.false_eq_true, if_false, List.nil_append]
  rw [if_neg (by omega), if_neg (by omega), four, payload, payload, payload, first, second,
    third, fourth, ofNat_of_eq c _ (by omega)]

end Widths

/-- The bytes of a code point are read as that code point. -/
theorem decodeFrom_encodeOne (c : CodePoint) (scalar : c.isSurrogate = false) (position : Nat)
    (rest : Bytes) :
    decodeFrom position (encodeOne c ++ rest) =
      (decodeFrom (position + (encodeOne c).length) rest).map (c :: ·) := by
  simp only [CodePoint.isSurrogate, Bool.and_eq_false_iff, decide_eq_false_iff_not] at scalar
  unfold encodeOne
  split
  · rename_i small
    exact decodeFrom_one small
  · rename_i large
    split
    · rename_i small
      exact decodeFrom_two (by omega) small
    · rename_i large
      split
      · rename_i small
        exact decodeFrom_three (by omega) (by omega) small
      · exact decodeFrom_four (by omega)

theorem decodeFrom_flatMap {t : Text} (scalar : ∀ c ∈ t, c.isSurrogate = false) (position : Nat) :
    decodeFrom position (t.flatMap encodeOne) = .ok t := by
  induction t generalizing position with
  | nil => rfl
  | cons c t ih =>
    rw [List.flatMap_cons, decodeFrom_encodeOne c (scalar c List.mem_cons_self),
      ih fun d mem => scalar d (List.mem_cons_of_mem c mem)]
    rfl

/-- What was encoded is decoded again. -/
theorem decode_of_encode {t : Text} {bytes : Bytes} (h : encode t = .ok bytes) :
    decode bytes = .ok t := by
  obtain ⟨scalar, rfl⟩ := encode_eq_ok_iff.1 h
  exact decodeFrom_flatMap scalar 0

end GatedConsole.Utf8
