import PadBridge.Proofs.Toml.Characters

/-!
Escapes and strings on one line are read as the grammar has them.
-/

namespace PadBridge.Toml

open Grammar
open Text (hexDigit? scalar?)

section Escape

variable {input rest : List Char} {c : Char}

theorem scalar?_eq_some_iff {value : Nat} : scalar? value = some c ↔ value = c.toNat := by
  rw [scalar?, Option.dite_none_right_eq_some]
  constructor
  · rintro ⟨hvalid, h⟩
    cases h
    rfl
  · rintro rfl
    exact ⟨c.valid, rfl⟩

theorem hexValue?_eq_some_iff {count value result : Nat} :
    hexValue? count value input = some (result, rest) ↔
      ∃ spelled digits, input = spelled ++ rest ∧ Digits 16 spelled digits
        ∧ digits.length = count ∧ digits.foldl (fun number digit => number * 16 + digit) value =
          result := by
  induction count generalizing value input with
  | zero =>
      rw [hexValue?, Option.some.injEq, Prod.mk.injEq]
      constructor
      · rintro ⟨rfl, rfl⟩
        exact ⟨[], [], rfl, .nil, rfl, rfl⟩
      · rintro ⟨spelled, digits, rfl, hdigits, hlength, rfl⟩
        cases hdigits with
        | nil => exact ⟨rfl, rfl⟩
        | cons => cases hlength
  | succ count ih =>
      constructor
      · intro h
        cases input with
        | nil => cases h
        | cons first more =>
            cases hfirst : hexDigit? first with
            | none => simp [hexValue?, hfirst] at h
            | some digit =>
                rw [hexValue?, hfirst] at h
                obtain ⟨spelled, digits, rfl, hdigits, hlength, rfl⟩ := ih.mp h
                exact ⟨first :: spelled, digit :: digits, rfl,
                  .cons (hexDigit?_eq_some_iff.mp hfirst) hdigits,
                  by rw [List.length_cons, hlength], rfl⟩
      · rintro ⟨spelled, digits, rfl, hdigits, hlength, rfl⟩
        cases hdigits with
        | nil => cases hlength
        | cons hfirst hmore =>
            rw [List.cons_append, hexValue?, hexDigit?_eq_some_iff.mpr hfirst]
            exact ih.mpr ⟨_, _, rfl, hmore, Nat.succ.inj hlength, rfl⟩

theorem hexChar?_eq_some_iff {count : Nat} :
    hexChar? count input = some (c, rest) ↔
      ∃ spelled digits, input = spelled ++ rest ∧ Digits 16 spelled digits
        ∧ digits.length = count ∧ numberOf 16 digits = c.toNat := by
  rw [hexChar?]
  constructor
  · intro h
    split at h
    · rename_i value more hvalue
      obtain ⟨found, hfound, heq⟩ := Option.map_eq_some_iff.mp h
      cases heq
      obtain ⟨spelled, digits, hinput, hdigits, hlength, hnumber⟩ := hexValue?_eq_some_iff.mp hvalue
      exact ⟨spelled, digits, hinput, hdigits, hlength,
        hnumber.trans (scalar?_eq_some_iff.mp hfound)⟩
    · cases h
  · rintro ⟨spelled, digits, hinput, hdigits, hlength, hnumber⟩
    rw [hexValue?_eq_some_iff.mpr ⟨spelled, digits, hinput, hdigits, hlength, hnumber⟩]
    simp only [scalar?_eq_some_iff.mpr rfl, Option.map_some]

/-- An escape is read from behind its backslash. -/
theorem escape?_eq_some_iff :
    escape? input = some (c, rest) ↔ ∃ piece, '\\' :: input = piece ++ rest ∧ Escape piece c := by
  constructor
  · intro h
    cases input with
    | nil => cases h
    | cons letter more =>
        have hshort : ∀ found, (letter, found) ∈ shortEscapes → (found, more) = (c, rest) →
            ∃ piece, '\\' :: letter :: more = piece ++ rest ∧ Escape piece c := by
          rintro found hfound ⟨⟩
          exact ⟨['\\', letter], rfl, .short hfound⟩
        unfold escape? at h
        simp only at h
        split at h
        · exact hshort _ (by decide) (Option.some.inj h)
        · exact hshort _ (by decide) (Option.some.inj h)
        · exact hshort _ (by decide) (Option.some.inj h)
        · exact hshort _ (by decide) (Option.some.inj h)
        · exact hshort _ (by decide) (Option.some.inj h)
        · exact hshort _ (by decide) (Option.some.inj h)
        · exact hshort _ (by decide) (Option.some.inj h)
        · obtain ⟨spelled, digits, rfl, hdigits, hlength, hnumber⟩ := hexChar?_eq_some_iff.mp h
          exact ⟨'\\' :: 'u' :: spelled, rfl, .four hdigits hlength hnumber⟩
        · obtain ⟨spelled, digits, rfl, hdigits, hlength, hnumber⟩ := hexChar?_eq_some_iff.mp h
          exact ⟨'\\' :: 'U' :: spelled, rfl, .eight hdigits hlength hnumber⟩
        · cases h
  · rintro ⟨piece, hinput, hpiece⟩
    cases hpiece with
    | @short letter found hletter =>
        have hread : ∀ entry ∈ shortEscapes, ∀ rest, escape? (entry.1 :: rest) =
            some (entry.2, rest) := by
          simp [shortEscapes, escape?]
        cases hinput
        exact hread _ hletter rest
    | @four spelled digits found hdigits hlength hnumber =>
        cases hinput
        exact hexChar?_eq_some_iff.mpr ⟨spelled, digits, rfl, hdigits, hlength, hnumber⟩
    | @eight spelled digits found hdigits hlength hnumber =>
        cases hinput
        exact hexChar?_eq_some_iff.mpr ⟨spelled, digits, rfl, hdigits, hlength, hnumber⟩

/-- An escape begins with a backslash and a letter. -/
theorem Grammar.Escape.exists_letter {piece : List Char} (hpiece : Escape piece c) :
    ∃ letter more, piece = '\\' :: letter :: more ∧ letter ∉ [' ', '\t', '\n', '\r'] := by
  cases hpiece with
  | @short letter found hletter =>
      have hall : ∀ entry ∈ shortEscapes, entry.1 ∉ [' ', '\t', '\n', '\r'] := by decide
      exact ⟨letter, [], rfl, hall _ hletter⟩
  | four => exact ⟨'u', _, rfl, by decide⟩
  | eight => exact ⟨'U', _, rfl, by decide⟩

end Escape

section OneLine

variable {input rest text : List Char}

theorem basicText_eq_some_iff : basicText input = some (text, rest) ↔
    ∃ body, input = body ++ '"' :: rest ∧ BasicBody body text := by
  constructor
  · intro h
    fun_induction basicText input generalizing text with
    | case1 => cases h
    | case2 more =>
        cases h
        exact ⟨[], rfl, .nil⟩
    | case3 => cases h
    | case4 more found after hescape hquote ih =>
        obtain ⟨⟨later, last⟩, hlater, heq⟩ := Option.map_eq_some_iff.mp h
        cases heq
        obtain ⟨body, rfl, hbody⟩ := ih hlater
        obtain ⟨piece, hpiece, hspells⟩ := escape?_eq_some_iff.mp hescape
        exact ⟨piece ++ body, by rw [hpiece, List.append_assoc], .escape hspells hbody⟩
    | case5 c more hquote hbackslash hbasic ih =>
        obtain ⟨⟨later, last⟩, hlater, heq⟩ := Option.map_eq_some_iff.mp h
        cases heq
        obtain ⟨body, rfl, hbody⟩ := ih hlater
        exact ⟨c :: body, rfl, .plain (isBasicChar_iff.mp hbasic).1 hquote hbackslash hbody⟩
    | case6 => cases h
  · rintro ⟨body, rfl, hbody⟩
    induction hbody with
    | nil => rw [List.nil_append, basicText, if_pos rfl]
    | @plain c more text hplain hquote hbackslash _ ih =>
        rw [List.cons_append, basicText, if_neg hquote, if_neg hbackslash,
          if_pos (isBasicChar_iff.mpr ⟨hplain, hquote, hbackslash⟩), ih]
        rfl
    | @escape piece more text c hpiece _ ih =>
        obtain ⟨letter, tail, rfl, -⟩ := hpiece.exists_letter
        have hread : escape? (letter :: tail ++ (more ++ '"' :: rest)) =
            some (c, more ++ '"' :: rest) :=
          escape?_eq_some_iff.mpr ⟨_, rfl, hpiece⟩
        rw [List.append_assoc, List.cons_append, basicText, if_neg (by decide), if_pos rfl, hread]
        simp only [ih, Option.map_some]

theorem literalText_eq_some_iff : literalText input = some (text, rest) ↔
    input = text ++ '\'' :: rest ∧ ∀ c ∈ text, IsPlain c ∧ c ≠ '\'' := by
  constructor
  · intro h
    fun_induction literalText input generalizing text with
    | case1 => cases h
    | case2 more =>
        cases h
        exact ⟨rfl, by simp⟩
    | case3 c more hquote hliteral ih =>
        obtain ⟨⟨later, last⟩, hlater, heq⟩ := Option.map_eq_some_iff.mp h
        cases heq
        obtain ⟨rfl, htext⟩ := ih hlater
        exact ⟨rfl, List.forall_mem_cons.mpr ⟨isLiteralChar_iff.mp hliteral, htext⟩⟩
    | case4 => cases h
  · rintro ⟨rfl, htext⟩
    induction text with
    | nil => rw [List.nil_append, literalText, if_pos rfl]
    | cons c text ih =>
        obtain ⟨hc, hmore⟩ := List.forall_mem_cons.mp htext
        rw [List.cons_append, literalText, if_neg hc.2, if_pos (isLiteralChar_iff.mpr hc), ih hmore]
        rfl

end OneLine

end PadBridge.Toml
