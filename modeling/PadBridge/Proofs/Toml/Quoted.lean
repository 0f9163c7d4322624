import PadBridge.Proofs.Toml.Characters
import PadBridge.Toml.Quoted

/-!
What is written for a text is a string of the grammar, whichever form it takes.  Between three
quotes the end is the difficulty: no part of the text holds more than two quotes in a row that a
reader could take for it.
-/

namespace PadBridge.Toml

open Grammar

section Escape

theorem isPlain_of_not_isControl {c : Char} (hc : isControl c = false) : IsPlain c := by
  simp only [isControl, Bool.or_eq_false_iff, Bool.and_eq_false_iff, decide_eq_false_iff_not,
    Decidable.not_not] at hc
  rcases hc with ⟨hlow | htab, hdel⟩
  · exact Or.inr ⟨by omega, hdel⟩
  · exact Or.inl htab

theorem toNat_lt_of_isControl {c : Char} (hc : isControl c = true) : c.toNat < 0x80 := by
  simp only [isControl, Bool.or_eq_true, Bool.and_eq_true, decide_eq_true_eq] at hc
  omega

theorem digit_hexDigitUpper {value : Nat} (hvalue : value < 16) :
    Digit 16 (hexDigitUpper value) value :=
  hexDigit?_eq_some_iff.mp
    ((by decide : ∀ value < 16, Text.hexDigit? (hexDigitUpper value) = some value) value hvalue)

/-- What cannot stand for itself where there are escapes. -/
def IsSpecial (form : Form) (c : Char) : Prop :=
  (isControl c ∧ ¬(form.isBlock ∧ c = '\n')) ∨ c ∈ ['\t', '"', '\\']

/-- What is written for a character that cannot stand for itself is an escape of it. -/
theorem escape_escaped {form : Form} {c : Char} (hc : IsSpecial form c) : Escape (escaped c) c := by
  unfold escaped
  split
  · exact .short (by decide)
  · exact .short (by decide)
  · exact .short (by decide)
  · exact .short (by decide)
  · exact .short (by decide)
  · exact .short (by decide)
  · exact .short (by decide)
  · rename_i htab _ _ _ hquote hbackslash
    have hcontrol : isControl c = true := by
      rcases hc with ⟨hcontrol, -⟩ | hlisted
      · exact hcontrol
      · simp only [List.mem_cons, List.not_mem_nil, or_false] at hlisted
        rcases hlisted with rfl | rfl | rfl
        · exact absurd rfl htab
        · exact absurd rfl hquote
        · exact absurd rfl hbackslash
    have hlow := toNat_lt_of_isControl hcontrol
    have hzero : Digit 16 '0' 0 := digit_hexDigitUpper (show 0 < 16 by decide)
    have hhigh := digit_hexDigitUpper (show c.toNat / 16 < 16 by omega)
    have hunit := digit_hexDigitUpper (show c.toNat % 16 < 16 by omega)
    refine .four (.cons hzero (.cons hzero (.cons hhigh (.cons hunit .nil)))) rfl ?_
    simp only [numberOf, List.foldl_cons, List.foldl_nil]
    omega

/-- Where there are escapes a character is written in one of three ways. -/
theorem escapedText_cons_cases (form : Form) (seen : Nat) (c : Char) (text : List Char) :
    (c = '"' ∧ form.isBlock = true ∧ seen < 2
      ∧ escapedText form seen (c :: text) = '"' :: escapedText form (seen + 1) text) ∨
    (IsSpecial form c
      ∧ escapedText form seen (c :: text) = escaped c ++ escapedText form 0 text) ∨
    (¬ IsSpecial form c ∧ escapedText form seen (c :: text) = c :: escapedText form 0 text) := by
  rw [escapedText]
  split
  · rename_i hquote
    exact Or.inl ⟨hquote.1, hquote.2.1, hquote.2.2, by rw [hquote.1]⟩
  · split
    · rename_i hspecial
      exact Or.inr (Or.inl ⟨hspecial, rfl⟩)
    · rename_i hplain
      exact Or.inr (Or.inr ⟨hplain, rfl⟩)

variable {form : Form} {c : Char}

theorem isPlain_of_not_isSpecial (hc : ¬ IsSpecial form c)
    (hline : form.isBlock = true → c ≠ '\n') : IsPlain c := by
  refine isPlain_of_not_isControl (Bool.eq_false_iff.mpr fun hcontrol => ?_)
  exact hc (Or.inl ⟨hcontrol, fun h => hline h.1 h.2⟩)

theorem ne_of_not_isSpecial (hc : ¬ IsSpecial form c) : c ≠ '"' ∧ c ≠ '\\' :=
  ⟨fun h => hc (Or.inr (by simp [h])), fun h => hc (Or.inr (by simp [h]))⟩

end Escape

section Body

theorem basicBody_escapedText (text : List Char) : BasicBody (escapedText .basic 0 text) text := by
  induction text with
  | nil => exact .nil
  | cons c text ih =>
      rcases escapedText_cons_cases .basic 0 c text with ⟨-, hblock, -⟩ | ⟨hspecial, hwritten⟩ |
        ⟨hplain, hwritten⟩
      · cases hblock
      · rw [hwritten]
        exact .escape (escape_escaped hspecial) ih
      · obtain ⟨hquote, hbackslash⟩ := ne_of_not_isSpecial hplain
        rw [hwritten]
        exact .plain (isPlain_of_not_isSpecial hplain nofun) hquote hbackslash ih

theorem basicBlock_escapedText (seen : Nat) (text : List Char) :
    BasicBlock seen (escapedText .blockBasic seen text) text := by
  induction text generalizing seen with
  | nil => exact .nil
  | cons c text ih =>
      rcases escapedText_cons_cases .blockBasic seen c text with ⟨rfl, -, hfew, hwritten⟩ |
        ⟨hspecial, hwritten⟩ | ⟨hplain, hwritten⟩
      · rw [hwritten]
        exact .quote hfew (ih (seen + 1))
      · rw [hwritten]
        exact .escape (escape_escaped hspecial) (ih 0)
      · rw [hwritten]
        by_cases hline : c = '\n'
        · subst hline
          exact .newline .feed (ih 0)
        · obtain ⟨hquote, hbackslash⟩ := ne_of_not_isSpecial hplain
          exact .plain (isPlain_of_not_isSpecial hplain fun _ => hline) hquote hbackslash (ih 0)

theorem literalBlock_of_runs {seen : Nat} {text : List Char}
    (htext : ∀ c ∈ text, isControl c = false ∨ c = '\n')
    (hrun : hasRunOfThree '\'' seen text = false) : LiteralBlock seen text text := by
  induction text generalizing seen with
  | nil => exact .nil
  | cons c text ih =>
      have hrest := fun other hother => htext other (List.mem_cons_of_mem c hother)
      rw [hasRunOfThree] at hrun
      split at hrun
      · rename_i hquote
        subst hquote
        rw [Bool.or_eq_false_iff, decide_eq_false_iff_not] at hrun
        exact .quote (by omega) (ih hrest hrun.2)
      · rename_i hquote
        rcases htext c List.mem_cons_self with hcontrol | rfl
        · exact .plain (isPlain_of_not_isControl hcontrol) hquote (ih hrest hrun)
        · exact .newline .feed (ih hrest hrun)

/-- A line end is put in front of a text that could lose its own. -/
theorem opened_of_contains {Block : List Char → List Char → Prop} {text body : List Char}
    (hbody : Block body text)
    (hfirst : '\n' ∉ text → ∀ c ∈ body.head?, c ≠ '\n' ∧ c ≠ '\r') :
    Opened Block ((if text.contains '\n' then ['\n'] else []) ++ body) text := by
  split
  · exact .newline .feed hbody
  · rename_i hline
    exact .direct (hfirst (by simpa using hline)) hbody

/-- An escaped text begins with a line end only if the text does, and never with a carriage
return. -/
theorem head?_escapedText {text : List Char} (hline : '\n' ∉ text) :
    ∀ c ∈ (escapedText .blockBasic 0 text).head?, c ≠ '\n' ∧ c ≠ '\r' := by
  intro c hc
  cases text with
  | nil => cases hc
  | cons first text =>
      rcases escapedText_cons_cases .blockBasic 0 first text with ⟨-, -, -, hwritten⟩ |
        ⟨hspecial, hwritten⟩ | ⟨hplain, hwritten⟩
      · rw [hwritten] at hc
        cases hc
        decide
      · have hbackslash : ∃ more, escaped first = '\\' :: more := by
          unfold escaped
          split <;> exact ⟨_, rfl⟩
        obtain ⟨more, hmore⟩ := hbackslash
        rw [hwritten, hmore] at hc
        cases hc
        decide
      · rw [hwritten] at hc
        cases hc
        refine ⟨fun h => hline (by simp [h]), ?_⟩
        rintro rfl
        exact hplain (Or.inl (by decide))

end Body

section Form

theorem stringText_write_basic (text : List Char) :
    StringText (Form.basic.write text) text := by
  have hwrite : Form.basic.write text = '"' :: escapedText .basic 0 text ++ ['"'] := by
    simp [Form.write, Form.isBlock, Form.hasEscapes, Form.quote]
  rw [hwrite]
  exact .basic (.mk (basicBody_escapedText text))

theorem stringText_write_literal {text : List Char} (hholds : Form.literal.holds text = true) :
    StringText (Form.literal.write text) text := by
  simp only [Form.holds, Form.isBlock, Form.hasEscapes, Form.quote, Bool.false_and, Bool.or_false,
    Bool.not_false, Bool.true_or, Bool.and_true, Bool.false_eq_true, if_false, Bool.and_eq_true,
    List.all_eq_true, Bool.not_eq_true', List.contains_eq_mem, decide_eq_false_iff_not] at hholds
  obtain ⟨hcontrol, hquote⟩ := hholds
  have hwrite : Form.literal.write text = '\'' :: text ++ ['\''] := by
    simp [Form.write, Form.isBlock, Form.hasEscapes, Form.quote]
  rw [hwrite]
  exact .literal (.mk fun c hc =>
    ⟨isPlain_of_not_isControl (hcontrol c hc), fun h => hquote (h ▸ hc)⟩)

theorem stringText_write_blockBasic (text : List Char) :
    StringText (Form.blockBasic.write text) text := by
  have hwrite : Form.blockBasic.write text = '"' :: '"' :: '"' ::
      ((if text.contains '\n' then ['\n'] else []) ++ escapedText .blockBasic 0 text)
        ++ ['"', '"', '"'] := by
    simp [Form.write, Form.isBlock, Form.hasEscapes, Form.quote, List.replicate]
  rw [hwrite]
  exact .basicBlock (opened_of_contains (basicBlock_escapedText 0 text) head?_escapedText)

theorem stringText_write_blockLiteral {text : List Char}
    (hholds : Form.blockLiteral.holds text = true) :
    StringText (Form.blockLiteral.write text) text := by
  simp only [Form.holds, Form.isBlock, Form.hasEscapes, Form.quote, Bool.true_and, Bool.not_false,
    Bool.true_or, Bool.and_true, if_true, Bool.and_eq_true, List.all_eq_true, Bool.or_eq_true,
    Bool.not_eq_true', decide_eq_true_eq] at hholds
  obtain ⟨hcontrol, hrun⟩ := hholds
  have hfirst : '\n' ∉ text → ∀ c ∈ text.head?, c ≠ '\n' ∧ c ≠ '\r' := by
    intro hline c hc
    have hmem := List.mem_of_head? hc
    refine ⟨fun h => hline (h ▸ hmem), ?_⟩
    rintro rfl
    exact absurd (hcontrol '\r' hmem) (by decide)
  have hwrite : Form.blockLiteral.write text = '\'' :: '\'' :: '\'' ::
      ((if text.contains '\n' then ['\n'] else []) ++ text) ++ ['\'', '\'', '\''] := by
    simp [Form.write, Form.isBlock, Form.hasEscapes, Form.quote, List.replicate]
  rw [hwrite]
  exact .literalBlock (opened_of_contains (literalBlock_of_runs hcontrol hrun) hfirst)

theorem hasEscapes_or_holds_of (text : List Char) :
    (Form.of text).hasEscapes = true ∨ (Form.of text).holds text = true := by
  unfold Form.of
  split
  · rename_i hfound
    have hholds := List.find?_some hfound
    exact Or.inr hholds
  · split
    · exact Or.inl rfl
    · exact Or.inl rfl

/-- A text that is written as a string is what the string says. -/
theorem stringText_quoted (text : List Char) : StringText (quoted text) text := by
  have hform := hasEscapes_or_holds_of text
  rw [quoted]
  cases hof : Form.of text with
  | basic => exact stringText_write_basic text
  | literal =>
      rw [hof] at hform
      exact stringText_write_literal (hform.resolve_left (by decide))
  | blockBasic => exact stringText_write_blockBasic text
  | blockLiteral =>
      rw [hof] at hform
      exact stringText_write_blockLiteral (hform.resolve_left (by decide))

end Form
end PadBridge.Toml
