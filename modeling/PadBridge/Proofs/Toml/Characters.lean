import Mathlib.Data.List.TakeWhile
import PadBridge.Proofs.Toml.Grammar
import PadBridge.Proofs.Toml.Scanner
import PadBridge.Toml.Number
import PadBridge.Toml.Text

/-!
The classes of characters a reader looks at are those of the grammar.
-/

namespace PadBridge.Toml

open Grammar

theorem isBlank_iff {c : Char} : isBlank c = true ↔ c = ' ' ∨ c = '\t' := by
  simp [isBlank]

theorem isCommentChar_iff {c : Char} : isCommentChar c = true ↔ IsPlain c := by
  simp [isCommentChar, IsPlain]

theorem isBasicChar_iff {c : Char} : isBasicChar c = true ↔ IsPlain c ∧ c ≠ '"' ∧ c ≠ '\\' := by
  simp [isBasicChar, isCommentChar_iff, and_assoc]

theorem isLiteralChar_iff {c : Char} : isLiteralChar c = true ↔ IsPlain c ∧ c ≠ '\'' := by
  simp [isLiteralChar, isCommentChar_iff]

section Classes

variable {c : Char}

theorem isUpper_iff_le : c.isUpper = true ↔ 'A' ≤ c ∧ c ≤ 'Z' :=
  decide_eq_true_iff

theorem isLower_iff_le : c.isLower = true ↔ 'a' ≤ c ∧ c ≤ 'z' :=
  Bool.and_eq_true_iff.trans (and_congr decide_eq_true_iff decide_eq_true_iff)

theorem isDigit_iff_le : c.isDigit = true ↔ '0' ≤ c ∧ c ≤ '9' :=
  Bool.and_eq_true_iff.trans (and_congr decide_eq_true_iff decide_eq_true_iff)

theorem isAlpha_iff : c.isAlpha = true ↔ c.isUpper = true ∨ c.isLower = true :=
  Bool.or_eq_true_iff

theorem isBareChar_iff : isBareChar c = true ↔ IsBare c := by
  simp only [isBareChar, IsBare, Char.isAlphanum, Bool.or_eq_true, isAlpha_iff, isUpper_iff_le,
    isLower_iff_le, isDigit_iff_le, decide_eq_true_eq, or_assoc]

end Classes

section Digit

variable {base value : Nat} {c : Char}

/-- A digit by its number among the characters. -/
theorem digit_iff_toNat : Digit base c value ↔ value < base
    ∧ ((value < 10 ∧ c.toNat = 0x30 + value)
      ∨ (10 ≤ value ∧ value < 16 ∧ (c.toNat = 0x37 + value ∨ c.toNat = 0x57 + value))) := by
  have hdecimal : ∀ value < 10, (Char.ofNat (0x30 + value)).toNat = 0x30 + value := by decide
  have hupper : ∀ value < 6, (Char.ofNat (0x41 + value)).toNat = 0x41 + value := by decide
  have hlower : ∀ value < 6, (Char.ofNat (0x61 + value)).toNat = 0x61 + value := by decide
  constructor
  · rintro (⟨hvalue, hbase⟩ | ⟨hvalue, hbase⟩ | ⟨hvalue, hbase⟩)
    · exact ⟨hbase, Or.inl ⟨hvalue, hdecimal _ hvalue⟩⟩
    · refine ⟨hbase, Or.inr ⟨by omega, by omega, Or.inl ?_⟩⟩
      rw [hupper _ hvalue]
      omega
    · refine ⟨hbase, Or.inr ⟨by omega, by omega, Or.inr ?_⟩⟩
      rw [hlower _ hvalue]
      omega
  · rintro ⟨hbase, ⟨hvalue, hc⟩ | ⟨hten, hvalue, hc⟩⟩
    · rw [← Char.ofNat_toNat c, hc]
      exact .decimal hvalue hbase
    · obtain ⟨more, rfl⟩ := Nat.exists_eq_add_of_le hten
      have hmore : more < 6 := by omega
      rcases hc with hc | hc
      · rw [← Char.ofNat_toNat c, hc, show 0x37 + (10 + more) = 0x41 + more by omega]
        exact .upper hmore hbase
      · rw [← Char.ofNat_toNat c, hc, show 0x57 + (10 + more) = 0x61 + more by omega]
        exact .lower hmore hbase

theorem isDigit_iff_toNat : c.isDigit = true ↔ 48 ≤ c.toNat ∧ c.toNat ≤ 57 :=
  isDigit_iff_le

theorem isUpper_iff_toNat : c.isUpper = true ↔ 65 ≤ c.toNat ∧ c.toNat ≤ 90 :=
  isUpper_iff_le

theorem isDigitOf_iff :
    isDigitOf base c = true ∧ digitValue c = value ↔ Digit base c value := by
  rw [digit_iff_toNat]
  simp only [isDigitOf, digitValue, Bool.and_eq_true, Bool.or_eq_true, decide_eq_true_eq,
    isDigit_iff_toNat, isUpper_iff_toNat, Char.le_def, UInt32.le_iff_toNat_le, Char.toNat_val,
    Char.reduceToNat]
  split
  · omega
  · split <;> omega

theorem isDigit_iff : c.isDigit = true ∧ digitValue c = value ↔ Digit 10 c value := by
  rw [← isDigitOf_iff]
  refine and_congr_left fun _ => ?_
  simp only [isDigitOf, digitValue, Bool.and_eq_true, Bool.or_eq_true, decide_eq_true_eq,
    isDigit_iff_toNat, isUpper_iff_toNat, Char.le_def, UInt32.le_iff_toNat_le, Char.toNat_val,
    Char.reduceToNat]
  split
  · omega
  · split <;> omega

theorem hexDigit?_eq_some_iff : Text.hexDigit? c = some value ↔ Digit 16 c value := by
  rw [digit_iff_toNat]
  simp only [Text.hexDigit?, Char.le_def, UInt32.le_iff_toNat_le, Char.toNat_val,
    Char.reduceToNat]
  split
  · rw [Option.some.injEq]
    omega
  · split
    · rw [Option.some.injEq]
      omega
    · split
      · rw [Option.some.injEq]
        omega
      · refine iff_of_false nofun ?_
        omega


end Digit
end PadBridge.Toml
