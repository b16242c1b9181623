import GatedConsole.Json.Writer
import GatedConsole.Proofs.Text.Numeral
import GatedConsole.Proofs.Text.Utf8
import GatedConsole.Text.Newline

/-!
Plain text: line feeds and the visible signs of ASCII. It can be encoded, and it comes back from a
file as it was written. Main statement: JSON as it is written is plain.
-/

set_option autoImplicit false
set_option relaxedAutoImplicit false

namespace GatedConsole

namespace Text

def IsPlain (t : Text) : Prop := ∀ c ∈ t, c.val = 0x0A ∨ (0x20 ≤ c.val ∧ c.val ≤ 0x7E)

instance (t : Text) : Decidable t.IsPlain := inferInstanceAs (Decidable (∀ c ∈ t, _))

variable {t u : Text}

theorem isPlain_nil : IsPlain [] := nofun

theorem isPlain_append : (t ++ u).IsPlain ↔ t.IsPlain ∧ u.IsPlain := List.forall_mem_append

theorem isPlain_flatMap {f : CodePoint → Text} (h : ∀ c, (f c).IsPlain) :
    IsPlain (t.flatMap f) := by
  intro c mem
  obtain ⟨d, _, among⟩ := List.mem_flatMap.1 mem
  exact h d c among

theorem isPlain_replicate (n : Nat) {c : CodePoint} (h : IsPlain [c]) :
    IsPlain (List.replicate n c) := by
  intro d mem
  exact h d (by simp [(List.mem_replicate.1 mem).2])

theorem IsPlain.take (h : t.IsPlain) (n : Nat) : IsPlain (List.take n t) :=
  fun c mem => h c (List.mem_of_mem_take mem)

theorem IsPlain.drop (h : t.IsPlain) (n : Nat) : IsPlain (List.drop n t) :=
  fun c mem => h c (List.mem_of_mem_drop mem)

theorem isPlain_of_digits (h : ∀ c ∈ t, c.isAsciiDigit = true) : t.IsPlain := by
  intro c mem
  have digit := h c mem
  simp only [CodePoint.isAsciiDigit, Bool.and_eq_true, decide_eq_true_eq] at digit
  exact .inr ⟨Nat.le_trans (by decide) digit.1, Nat.le_trans digit.2 (by decide)⟩

theorem isPlain_ofNat (n : Nat) : IsPlain (ofNat n) :=
  isPlain_of_digits fun _ mem => isAsciiDigit_of_mem_ofNat mem

theorem isPlain_ofInt (i : Int) : IsPlain (ofInt i) := by
  unfold ofInt
  split
  · exact isPlain_append.2 ⟨by decide, isPlain_ofNat _⟩
  · exact isPlain_ofNat _

theorem isPlain_hexDigit (n : Nat) : IsPlain [hexDigit n] := by
  have all : ∀ m < 16, IsPlain [CodePoint.ofChar (Nat.digitChar m)] := by decide
  exact all (n % 16) (Nat.mod_lt n (by decide))

theorem isPlain_hex (width n : Nat) : IsPlain (hex width n) := by
  induction width generalizing n with
  | zero => exact isPlain_nil
  | succ width ih => exact isPlain_append.2 ⟨ih _, isPlain_hexDigit n⟩

/-- A plain text has no carriage returns. -/
theorem IsPlain.unifyNewlines_eq (h : t.IsPlain) : t.unifyNewlines = t := by
  induction t with
  | nil => rfl
  | cons c t ih =>
    have other : c ≠ CodePoint.ofChar '\r' := by
      rintro rfl
      exact absurd (h _ List.mem_cons_self) (by decide)
    rw [unifyNewlines.eq_def]
    dsimp only
    rw [if_neg other, ih fun d mem => h d (List.mem_cons_of_mem c mem)]

theorem IsPlain.scalar (h : t.IsPlain) : ∀ c ∈ t, c.isSurrogate = false := by
  intro c mem
  have small := h c mem
  simp only [CodePoint.isSurrogate, Bool.and_eq_false_iff, decide_eq_false_iff_not]
  omega

theorem IsPlain.encode_eq (h : t.IsPlain) : Utf8.encode t = .ok (t.flatMap Utf8.encodeOne) :=
  Utf8.encode_eq_ok_iff.2 ⟨h.scalar, rfl⟩

end Text

namespace Binary64

open Text

theorem isPlain_sign (negative : Bool) : IsPlain (sign negative) := by
  cases negative <;> decide

/-- The digits of a decimal are digits. -/
def Decimal.Regular (d : Decimal) : Prop := ∀ c ∈ d.digits, c.isDigit = true

theorem regular_ofNat (n : Nat) (exponent : Int) : (Decimal.ofNat n exponent).Regular := by
  intro c mem
  exact Nat.isDigit_of_mem_toDigits (by decide) (by decide) (List.mem_of_mem_take mem)

theorem regular_shortest (mantissa : Nat) (exponent : Int) :
    (shortest mantissa exponent).Regular := by
  simp only [shortest]
  split
  · rename_i found
    obtain ⟨e, _, found⟩ := List.exists_of_findSome?_eq_some found
    obtain ⟨n, _, rfl⟩ := Option.map_eq_some_iff.1 found
    exact regular_ofNat n e
  · exact regular_ofNat _ _

theorem isPlain_decimal {d : Decimal} (h : d.Regular) : IsPlain d.text := by
  have digits : IsPlain (d.digits.map CodePoint.ofChar) :=
    isPlain_of_digits fun _ mem => isAsciiDigit_of_mem_map h mem
  have zeros (n : Nat) : IsPlain (List.replicate n (CodePoint.ofChar '0')) :=
    isPlain_replicate n (by decide)
  simp only [Decimal.text]
  split
  · split
    · exact isPlain_append.2 ⟨isPlain_append.2 ⟨by decide, zeros _⟩, digits⟩
    · split
      · exact isPlain_append.2 ⟨isPlain_append.2 ⟨digits, zeros _⟩, by decide⟩
      · exact isPlain_append.2 ⟨isPlain_append.2 ⟨digits.take _, by decide⟩, digits.drop _⟩
  · have fraction : IsPlain (if (d.digits.length : Int) = 1 then [] else
        "." ++ (d.digits.map CodePoint.ofChar).drop 1) := by
      split
      · exact isPlain_nil
      · exact isPlain_append.2 ⟨by decide, digits.drop 1⟩
    have sign : IsPlain (ofString (if d.digits.length + d.exponent - 1 < 0 then "-" else "+")) := by
      split <;> decide
    simp only [isPlain_append]
    exact ⟨⟨⟨⟨⟨digits.take 1, fraction⟩, by decide⟩, sign⟩, zeros _⟩, isPlain_ofNat _⟩

theorem isPlain_text (x : Binary64) : IsPlain x.text := by
  unfold text
  split
  · decide
  · exact isPlain_append.2 ⟨isPlain_sign _, by decide⟩
  · exact isPlain_append.2 ⟨isPlain_sign _, by decide⟩
  · exact isPlain_append.2 ⟨isPlain_sign _, isPlain_decimal (regular_shortest _ _)⟩

end Binary64

namespace Json

open Text

theorem isPlain_escaped (c : CodePoint) : IsPlain (escaped c) := by
  unfold escaped
  repeat' split
  all_goals try decide
  · intro d mem
    rw [List.mem_singleton.1 mem]
    exact .inr (by assumption)
  · intro d mem
    obtain ⟨unit, _, among⟩ := List.mem_flatMap.1 mem
    exact (isPlain_append.2 ⟨by decide, isPlain_hex 4 unit⟩ : IsPlain ("\\u" ++ hex 4 unit)) d among

theorem isPlain_writeText (t : Text) : IsPlain (writeText t) :=
  isPlain_append.2 ⟨isPlain_append.2 ⟨by decide, isPlain_flatMap isPlain_escaped⟩, by decide⟩

theorem isPlain_writeFloat (x : Binary64) : IsPlain (writeFloat x) := by
  unfold writeFloat
  split
  · decide
  · exact isPlain_append.2 ⟨Binary64.isPlain_sign _, by decide⟩
  · exact Binary64.isPlain_text _

theorem isPlain_newline (level : Nat) : IsPlain (newline level) :=
  isPlain_append.2 ⟨by decide, isPlain_replicate _ (by decide)⟩

mutual

theorem isPlain_writeAt (level : Nat) : ∀ document : Json, IsPlain (writeAt level document)
  | .null => (by decide : IsPlain "null")
  | .bool true => (by decide : IsPlain "true")
  | .bool false => (by decide : IsPlain "false")
  | .int i => isPlain_ofInt i
  | .float x => isPlain_writeFloat x
  | .text t => isPlain_writeText t
  | .list [] => (by decide : IsPlain "[]")
  | .list (item :: items) => by
    have opens : IsPlain "[" := by decide
    have closes : IsPlain "]" := by decide
    simp only [writeAt, isPlain_append]
    exact ⟨⟨⟨⟨⟨opens, isPlain_newline _⟩, isPlain_writeAt _ item⟩, isPlain_writeItems _ items⟩,
      isPlain_newline level⟩, closes⟩
  | .object [] => (by decide : IsPlain "\x7b\x7d")
  | .object ((name, value) :: members) => by
    have opens : IsPlain "\x7b" := by decide
    have closes : IsPlain "\x7d" := by decide
    have parts : IsPlain ": " := by decide
    simp only [writeAt, isPlain_append]
    exact ⟨⟨⟨⟨⟨⟨⟨opens, isPlain_newline _⟩, isPlain_writeText name⟩, parts⟩,
      isPlain_writeAt _ value⟩, isPlain_writeMembers _ members⟩, isPlain_newline level⟩, closes⟩

theorem isPlain_writeItems (level : Nat) : ∀ items : List Json, IsPlain (writeItems level items)
  | [] => isPlain_nil
  | item :: items => by
    have comma : IsPlain "," := by decide
    simp only [writeItems, isPlain_append]
    exact ⟨⟨⟨comma, isPlain_newline _⟩, isPlain_writeAt _ item⟩, isPlain_writeItems _ items⟩

theorem isPlain_writeMembers (level : Nat) :
    ∀ members : List (Text × Json), IsPlain (writeMembers level members)
  | [] => isPlain_nil
  | (name, value) :: members => by
    have comma : IsPlain "," := by decide
    have parts : IsPlain ": " := by decide
    simp only [writeMembers, isPlain_append]
    exact ⟨⟨⟨⟨⟨comma, isPlain_newline _⟩, isPlain_writeText name⟩, parts⟩,
      isPlain_writeAt _ value⟩, isPlain_writeMembers _ members⟩

end

/-- A document is written as plain text. -/
theorem isPlain_write (document : Json) : IsPlain document.write := isPlain_writeAt 0 document

end Json

end GatedConsole
