import PadBridge.Json.Text
import PadBridge.Proofs.Json.Grammar
import PadBridge.Proofs.Utf8

/-!
Reading strings.  Every reader of a string or of a part of it gives a value and a rest exactly if
the input is a piece of the grammar for that value with that rest behind it.
-/

namespace PadBridge.Json

theorem hexValue?_eq_some_iff {byte : UInt8} {value : Nat} :
    hexValue? byte = some value ↔ HexDigit byte value := by
  constructor
  · intro h
    simp only [hexValue?, Bool.and_eq_true, decide_eq_true_eq, UInt8.le_iff_toNat_le,
      UInt8.reduceToNat] at h
    split at h
    · cases h
      have hdigit : HexDigit (.ofNat (0x30 + (byte.toNat - 0x30))) (byte.toNat - 0x30) :=
        .decimal (by omega)
      rwa [show 0x30 + (byte.toNat - 0x30) = byte.toNat by omega, UInt8.ofNat_toNat] at hdigit
    · split at h
      · cases h
        have hdigit : HexDigit (.ofNat (0x41 + (byte.toNat - 0x41)))
            (10 + (byte.toNat - 0x41)) := .upper (by omega)
        rwa [show 0x41 + (byte.toNat - 0x41) = byte.toNat by omega, UInt8.ofNat_toNat,
          show 10 + (byte.toNat - 0x41) = byte.toNat - 0x37 by omega] at hdigit
      · split at h
        · cases h
          have hdigit : HexDigit (.ofNat (0x61 + (byte.toNat - 0x61)))
              (10 + (byte.toNat - 0x61)) := .lower (by omega)
          rwa [show 0x61 + (byte.toNat - 0x61) = byte.toNat by omega, UInt8.ofNat_toNat,
            show 10 + (byte.toNat - 0x61) = byte.toNat - 0x57 by omega] at hdigit
        · cases h
  · intro h
    have hten : ∀ value < 10, hexValue? (.ofNat (0x30 + value)) = some value := by decide
    have hupper : ∀ value < 6, hexValue? (.ofNat (0x41 + value)) = some (10 + value) := by decide
    have hlower : ∀ value < 6, hexValue? (.ofNat (0x61 + value)) = some (10 + value) := by decide
    cases h with
    | decimal hvalue => exact hten _ hvalue
    | upper hvalue => exact hupper _ hvalue
    | lower hvalue => exact hlower _ hvalue

theorem hexQuad_eq_ok_iff {input rest : List UInt8} {value : Nat} :
    hexQuad input = .ok (value, rest) ↔
      ∃ digits, CodeUnit digits value ∧ input = digits ++ rest := by
  constructor
  · intro h
    unfold hexQuad at h
    split at h
    · split at h
      · rename_i first second third fourth more _ _ _ _ a b c d hfirst hsecond hthird hfourth
        cases h
        have hunit := CodeUnit.digits (hexValue?_eq_some_iff.mp hfirst)
          (hexValue?_eq_some_iff.mp hsecond) (hexValue?_eq_some_iff.mp hthird)
          (hexValue?_eq_some_iff.mp hfourth)
        rw [show a * 4096 + b * 256 + c * 16 + d = ((a * 16 + b) * 16 + c) * 16 + d by
          omega] at hunit
        exact ⟨[first, second, third, fourth], hunit, rfl⟩
      · cases h
    · cases h
  · intro h
    rcases h with ⟨digits, hunit, rfl⟩
    cases hunit with
    | digits hfirst hsecond hthird hfourth =>
        simp only [List.cons_append, List.nil_append, hexQuad, hexValue?_eq_some_iff.mpr hfirst,
          hexValue?_eq_some_iff.mpr hsecond, hexValue?_eq_some_iff.mpr hthird,
          hexValue?_eq_some_iff.mpr hfourth, Except.ok.injEq, Prod.mk.injEq, and_true]
        omega

theorem HexDigit.lt {byte : UInt8} {value : Nat} (hdigit : HexDigit byte value) : value < 16 := by
  cases hdigit <;> omega

theorem CodeUnit.lt {digits : List UInt8} {value : Nat} (hunit : CodeUnit digits value) :
    value < 0x10000 := by
  cases hunit with
  | digits hfirst hsecond hthird hfourth =>
      have := hfirst.lt
      have := hsecond.lt
      have := hthird.lt
      have := hfourth.lt
      omega

theorem CodeUnit.hexQuad {digits : List UInt8} {value : Nat} (hunit : CodeUnit digits value)
    (rest : List UInt8) : hexQuad (digits ++ rest) = .ok (value, rest) :=
  hexQuad_eq_ok_iff.mpr ⟨digits, hunit, rfl⟩

/-- The letters of short escapes are read as the characters they stand for. -/
theorem shortEscape?_eq_some_iff {letter : UInt8} {c : Char} :
    shortEscape? letter = some c ↔ (letter, c) ∈ shortEscapes := by
  simp only [shortEscapes, List.mem_cons, Prod.mk.injEq, List.not_mem_nil, or_false]
  unfold shortEscape?
  constructor
  · intro h
    repeat' split at h
    all_goals simp_all [eq_comm]
  · rintro (⟨rfl, rfl⟩ | ⟨rfl, rfl⟩ | ⟨rfl, rfl⟩ | ⟨rfl, rfl⟩ | ⟨rfl, rfl⟩ | ⟨rfl, rfl⟩ |
      ⟨rfl, rfl⟩ | ⟨rfl, rfl⟩) <;> rfl

theorem isHighSurrogate_iff (unit : Nat) :
    isHighSurrogate unit = true ↔ 0xD800 ≤ unit ∧ unit < 0xDC00 := by
  rw [isHighSurrogate, Bool.and_eq_true, decide_eq_true_eq, decide_eq_true_eq]
  omega

theorem isLowSurrogate_iff (unit : Nat) :
    isLowSurrogate unit = true ↔ 0xDC00 ≤ unit ∧ unit < 0xE000 := by
  rw [isLowSurrogate, Bool.and_eq_true, decide_eq_true_eq, decide_eq_true_eq]
  omega

theorem lowHalf_eq_ok_iff {high : Nat} {input rest : List UInt8} {c : Char}
    (hhigh : high < 0x400) :
    lowHalf (0xD800 + high) input = .ok (c, rest) ↔
      ∃ digits low, CodeUnit digits (0xDC00 + low) ∧ low < 0x400
        ∧ c.toNat = 0x10000 + high * 0x400 + low
        ∧ input = 0x5C :: 0x75 :: digits ++ rest := by
  constructor
  · intro h
    unfold lowHalf at h
    split at h
    · cases h
    · rename_i byte tail
      split at h
      · cases h
      · rename_i hbyte
        split at h
        · cases h
        · rename_i letter digits
          split at h
          · cases h
          · rename_i hletter
            split at h
            · cases h
            · rename_i low more hquad
              split at h
              · rename_i hlow
                simp only [Except.ok.injEq, Prod.mk.injEq] at h
                obtain ⟨rfl, rfl⟩ := h
                rw [isLowSurrogate_iff] at hlow
                obtain ⟨piece, hunit, rfl⟩ := hexQuad_eq_ok_iff.mp hquad
                refine ⟨piece, low - 0xDC00, ?_, by omega, ?_, ?_⟩
                · rwa [show 0xDC00 + (low - 0xDC00) = low by omega]
                · rw [Utf8.toNat_ofNat_char _ (by omega)]
                  omega
                · rw [Decidable.not_not.mp hbyte, Decidable.not_not.mp hletter]
                  rfl
              · cases h
  · intro h
    rcases h with ⟨digits, low, hunit, hlow, hc, rfl⟩
    have hrange : isLowSurrogate (0xDC00 + low) = true :=
      (isLowSurrogate_iff _).mpr (by omega)
    have hvalue : (0xD800 + high - 0xD800) * 0x400 + (0xDC00 + low - 0xDC00) + 0x10000 =
        c.toNat := by
      omega
    simp only [lowHalf, List.cons_append, backslash, ne_eq, not_true_eq_false, if_false,
      hunit.hexQuad rest, hrange, if_true, hvalue, Char.ofNat_toNat]

/-- An escape is read from behind its backslash. -/
theorem escape_eq_ok_iff {input rest : List UInt8} {c : Char} :
    escape input = .ok (c, rest) ↔
      ∃ piece, Escape piece c ∧ 0x5C :: input = piece ++ rest := by
  constructor
  · intro h
    unfold escape at h
    split at h
    · cases h
    · rename_i byte tail
      split at h
      · rename_i hbyte
        subst hbyte
        split at h
        · cases h
        · rename_i unit more hquad
          obtain ⟨digits, hunit, rfl⟩ := hexQuad_eq_ok_iff.mp hquad
          split at h
          · cases h
          · rename_i hlow
            rw [isLowSurrogate_iff] at hlow
            split at h
            · rename_i hhigh
              rw [isHighSurrogate_iff] at hhigh
              have hsum : 0xD800 + (unit - 0xD800) = unit := by omega
              rw [← hsum, lowHalf_eq_ok_iff (by omega)] at h
              obtain ⟨lowDigits, low, hlowUnit, hlowRange, hc, rfl⟩ := h
              rw [← hsum] at hunit
              exact ⟨_, .pair hunit hlowUnit (by omega) hlowRange hc, by simp⟩
            · rename_i hhigh
              rw [isHighSurrogate_iff] at hhigh
              simp only [Except.ok.injEq, Prod.mk.injEq] at h
              obtain ⟨rfl, rfl⟩ := h
              have hlt := hunit.lt
              rw [← Utf8.toNat_ofNat_char unit (by omega)] at hunit
              exact ⟨_, .unit hunit, rfl⟩
      · split at h
        · rename_i hshort
          simp only [Except.ok.injEq, Prod.mk.injEq] at h
          obtain ⟨rfl, rfl⟩ := h
          exact ⟨_, .short (shortEscape?_eq_some_iff.mp hshort), rfl⟩
        · cases h
  · intro h
    rcases h with ⟨piece, hpiece, heq⟩
    cases hpiece with
    | @short letter _ hletter =>
        have hother : letter ≠ 0x75 := by
          rintro rfl
          revert hletter
          simp [shortEscapes]
        have hinput : input = letter :: rest := by simpa using heq
        rw [hinput]
        simp only [escape, if_neg hother, shortEscape?_eq_some_iff.mpr hletter]
    | @unit digits _ hdigits =>
        have hinput : input = 0x75 :: (digits ++ rest) := by simpa using heq
        have hscalar : c.toNat < 0xD800 ∨ 0xDFFF < c.toNat ∧ c.toNat < 0x110000 := c.valid
        have hlow : ¬ isLowSurrogate c.toNat = true := by
          rw [isLowSurrogate_iff]
          omega
        have hhigh : ¬ isHighSurrogate c.toNat = true := by
          rw [isHighSurrogate_iff]
          omega
        rw [hinput]
        simp only [escape, if_true, hdigits.hexQuad rest, if_neg hlow, if_neg hhigh,
          Char.ofNat_toNat]
    | @pair highDigits lowDigits high low _ hhigh hlow hhighRange hlowRange hc =>
        have hinput : input = 0x75 :: (highDigits ++ (0x5C :: 0x75 :: lowDigits ++ rest)) := by
          simpa using heq
        have hnotLow : ¬ isLowSurrogate (0xD800 + high) = true := by
          rw [isLowSurrogate_iff]
          omega
        have hisHigh : isHighSurrogate (0xD800 + high) = true := by
          rw [isHighSurrogate_iff]
          omega
        rw [hinput]
        simp only [escape, if_true, hhigh.hexQuad, if_neg hnotLow, if_pos hisHigh]
        exact (lowHalf_eq_ok_iff hhighRange).mpr ⟨lowDigits, low, hlow, hlowRange, hc, rfl⟩

/-- The bytes of a character that can stand for itself neither end a string nor begin an escape,
and none is a control character. -/
theorem bytes_of_raw {c : Char} (hquote : c ≠ '"') (hbackslash : c ≠ '\\')
    (hcontrol : 0x20 ≤ c.toNat) :
    ∀ byte ∈ String.utf8EncodeChar c, byte ≠ quote ∧ byte ≠ backslash ∧ ¬ byte < 0x20 := by
  intro byte hbyte
  have hvalue : byte.toNat = c.toNat ∨ 0x80 ≤ byte.toNat := by
    rcases Nat.lt_or_ge c.toNat 0x80 with hone | hone
    · rw [Utf8.encodeChar_one hone, List.mem_singleton] at hbyte
      rw [hbyte, Utf8.toNat_ofNat_of_lt (by omega)]
      exact Or.inl rfl
    · exact Or.inr (Utf8.le_of_mem_encodeChar hone hbyte)
  have hne : ∀ other : Char, c ≠ other → c.toNat ≠ other.toNat := by
    intro other hother h
    exact hother (Char.toNat_inj.mp h)
  have hquoteValue : c.toNat ≠ 0x22 := hne _ hquote
  have hbackslashValue : c.toNat ≠ 0x5C := hne _ hbackslash
  refine ⟨?_, ?_, ?_⟩
  · rintro rfl
    rcases hvalue with hvalue | hvalue
    · exact hquoteValue hvalue.symm
    · exact absurd hvalue (by decide)
  · rintro rfl
    rcases hvalue with hvalue | hvalue
    · exact hbackslashValue hvalue.symm
    · exact absurd hvalue (by decide)
  · rw [UInt8.lt_iff_toNat_lt]
    simp only [UInt8.reduceToNat]
    omega

/-- Bytes that stand for themselves are taken over. -/
theorem textBytes_append_raw {raw : List UInt8}
    (hraw : ∀ byte ∈ raw, byte ≠ quote ∧ byte ≠ backslash ∧ ¬ byte < 0x20) (more : List UInt8) :
    textBytes (raw ++ more) = (textBytes more).map fun (bytes, after) => (raw ++ bytes, after) := by
  induction raw with
  | nil =>
      rw [List.nil_append]
      cases textBytes more <;> rfl
  | cons byte rest ih =>
      obtain ⟨hquote, hbackslash, hcontrol⟩ := hraw byte List.mem_cons_self
      rw [List.cons_append, textBytes, if_neg hquote, if_neg hbackslash, if_neg hcontrol,
        ih fun other hother => hraw other (List.mem_cons_of_mem byte hother)]
      cases textBytes more <;> rfl

theorem textBytes_quote (rest : List UInt8) : textBytes (quote :: rest) = .ok ([], rest) := by
  rw [textBytes, if_pos rfl]

/-- An escape adds the bytes of its character. -/
theorem textBytes_append_escape {piece : List UInt8} {c : Char} (hpiece : Escape piece c)
    (more : List UInt8) :
    textBytes (piece ++ more) =
      (textBytes more).map fun (bytes, after) => (String.utf8EncodeChar c ++ bytes, after) := by
  obtain ⟨tail, htail⟩ : ∃ tail, piece = backslash :: tail := by
    cases hpiece <;> exact ⟨_, rfl⟩
  have hescape : escape (tail ++ more) = .ok (c, more) :=
    escape_eq_ok_iff.mpr ⟨piece, hpiece, by rw [htail]; rfl⟩
  rw [htail, List.cons_append, textBytes, if_neg (by decide), if_pos rfl]
  split
  · rename_i hother
    rw [hescape] at hother
    cases hother
  · rename_i hother
    rw [hescape] at hother
    cases hother
    rfl

theorem textBytes_append_spells {piece : List UInt8} {c : Char} (hpiece : Spells piece c)
    (more : List UInt8) :
    textBytes (piece ++ more) =
      (textBytes more).map fun (bytes, after) => (String.utf8EncodeChar c ++ bytes, after) := by
  cases hpiece with
  | raw hquote hbackslash hcontrol =>
      exact textBytes_append_raw (bytes_of_raw hquote hbackslash hcontrol) more
  | escaped hescape => exact textBytes_append_escape hescape more

/-- A read string begins in one of three ways. -/
theorem textBytes_eq_ok_cases {input bytes rest : List UInt8}
    (h : textBytes input = .ok (bytes, rest)) :
    (input = quote :: rest ∧ bytes = []) ∨
    (∃ piece c more left, Escape piece c ∧ input = piece ++ more
      ∧ textBytes more = .ok (left, rest) ∧ bytes = String.utf8EncodeChar c ++ left) ∨
    (∃ byte more left, (byte ≠ quote ∧ byte ≠ backslash ∧ ¬ byte < 0x20) ∧ input = byte :: more
      ∧ textBytes more = .ok (left, rest) ∧ bytes = byte :: left) := by
  cases input with
  | nil =>
      rw [textBytes] at h
      cases h
  | cons byte tail =>
      rw [textBytes] at h
      split at h
      · rename_i hquote
        cases h
        exact Or.inl ⟨by rw [hquote], rfl⟩
      · rename_i hquote
        split at h
        · rename_i hbackslash
          split at h
          · cases h
          · rename_i c more hescape
            obtain ⟨piece, hpiece, heq⟩ := escape_eq_ok_iff.mp hescape
            cases hmore : textBytes more with
            | error fault => rw [hmore] at h; cases h
            | ok pair =>
                rw [hmore] at h
                cases h
                refine Or.inr (Or.inl ⟨piece, c, more, pair.1, hpiece, ?_, hmore, rfl⟩)
                rw [hbackslash]
                exact heq
        · rename_i hbackslash
          split at h
          · cases h
          · rename_i hcontrol
            cases hmore : textBytes tail with
            | error fault => rw [hmore] at h; cases h
            | ok pair =>
                rw [hmore] at h
                cases h
                exact Or.inr (Or.inr ⟨byte, tail, pair.1, ⟨hquote, hbackslash, hcontrol⟩, rfl,
                  hmore, rfl⟩)

/-- No escape gives continuation bytes, so those of a string stand in its text as they are. -/
theorem raw_of_continuation {tail bytes input rest : List UInt8}
    (htail : ∀ byte ∈ tail, Utf8.isContinuation byte = true)
    (h : textBytes input = .ok (tail ++ bytes, rest)) :
    ∃ more, input = tail ++ more ∧ textBytes more = .ok (bytes, rest) := by
  induction tail generalizing input with
  | nil => exact ⟨input, rfl, h⟩
  | cons byte tail ih =>
      have hbyte := htail byte List.mem_cons_self
      rcases textBytes_eq_ok_cases h with
        ⟨_, hnil⟩ | ⟨piece, c, more, left, _, _, _, heq⟩ | ⟨other, more, left, _, rfl, hmore, heq⟩
      · cases hnil
      · obtain ⟨lead, follow, hc, hlead, _⟩ := Utf8.exists_encodeChar c
        rw [hc, List.cons_append, List.cons_append] at heq
        rw [(List.cons.inj heq).1, hlead] at hbyte
        cases hbyte
      · obtain ⟨rfl, rfl⟩ := List.cons.inj heq
        obtain ⟨after, rfl, hafter⟩ :=
          ih (fun other hother => htail other (List.mem_cons_of_mem byte hother)) hmore
        exact ⟨after, rfl, hafter⟩

/-- If the bytes of a string begin with a character, its text begins with a spelling of it. -/
theorem textBytes_eq_ok_append_iff {input bytes rest : List UInt8} {c : Char} :
    textBytes input = .ok (String.utf8EncodeChar c ++ bytes, rest) ↔
      ∃ piece more, Spells piece c ∧ input = piece ++ more
        ∧ textBytes more = .ok (bytes, rest) := by
  constructor
  · intro h
    obtain ⟨lead, tail, hc, hlead, htail⟩ := Utf8.exists_encodeChar c
    rcases textBytes_eq_ok_cases h with ⟨_, hnil⟩ |
      ⟨piece, d, more, left, hpiece, rfl, hmore, heq⟩ |
      ⟨byte, more, left, ⟨hquote, hbackslash, hcontrol⟩, rfl, hmore, heq⟩
    · rw [hc] at hnil
      cases hnil
    · obtain ⟨rfl, rfl⟩ := Utf8.encodeChar_injective_append heq
      exact ⟨piece, more, .escaped hpiece, rfl, hmore⟩
    · rw [hc, List.cons_append] at heq
      obtain ⟨rfl, rfl⟩ := List.cons.inj heq
      obtain ⟨after, rfl, hafter⟩ := raw_of_continuation htail hmore
      refine ⟨_, after, .raw ?_ ?_ ?_, by rw [hc]; rfl, hafter⟩
      · rintro rfl
        cases hc
        exact hquote rfl
      · rintro rfl
        cases hc
        exact hbackslash rfl
      · refine Nat.not_lt.mp fun hlow => hcontrol ?_
        rw [Utf8.encodeChar_one (by omega)] at hc
        rw [← (List.cons.inj hc).1, UInt8.lt_iff_toNat_lt, Utf8.toNat_ofNat_of_lt (by omega)]
        exact hlow
  · intro h
    rcases h with ⟨piece, more, hpiece, rfl, hmore⟩
    rw [textBytes_append_spells hpiece, hmore]
    rfl

/-- A string is read as UTF-8 exactly if every piece of it spells a character. -/
theorem textBytes_eq_ok_encode_iff {input rest : List UInt8} {text : List Char} :
    textBytes input = .ok (Utf8.encode text, rest) ↔
      ∃ body, Body body text ∧ input = body ++ quote :: rest := by
  induction text generalizing input with
  | nil =>
      constructor
      · intro h
        rcases textBytes_eq_ok_cases h with
          ⟨hinput, _⟩ | ⟨_, c, _, _, _, _, _, heq⟩ | ⟨_, _, _, _, _, _, heq⟩
        · exact ⟨[], .nil, hinput⟩
        · obtain ⟨lead, tail, hc, _⟩ := Utf8.exists_encodeChar c
          rw [hc] at heq
          cases heq
        · cases heq
      · intro h
        rcases h with ⟨body, hbody, rfl⟩
        cases hbody
        exact textBytes_quote rest
  | cons c text ih =>
      rw [Utf8.encode_cons, textBytes_eq_ok_append_iff]
      constructor
      · intro h
        rcases h with ⟨piece, more, hpiece, rfl, hmore⟩
        obtain ⟨body, hbody, rfl⟩ := ih.mp hmore
        exact ⟨piece ++ body, .cons hpiece hbody, by rw [List.append_assoc]⟩
      · intro h
        rcases h with ⟨body, hbody, rfl⟩
        cases hbody with
        | cons hpiece hrest =>
            exact ⟨_, _, hpiece, List.append_assoc _ _ _, ih.mpr ⟨_, hrest, rfl⟩⟩

/-- A string is read from behind its opening quote. -/
theorem text_eq_ok_iff {input rest : List UInt8} {value : String} :
    text input = .ok (value, rest) ↔
      ∃ piece, Quoted piece value ∧ quote :: input = piece ++ rest := by
  have hread : text input = .ok (value, rest) ↔
      textBytes input = .ok (Utf8.encode value.toList, rest) := by
    rw [text]
    constructor
    · intro h
      split at h
      · cases h
      · rename_i bytes more hbytes
        split at h
        · rename_i other hdecode
          cases h
          rw [hbytes, Utf8.decodeString?_eq_some_iff.mp hdecode]
          rfl
        · cases h
    · intro h
      have hdecode := Utf8.decodeString?_bytesOf value
      rw [Utf8.bytesOf] at hdecode
      simp only [h, hdecode]
  rw [hread, textBytes_eq_ok_encode_iff]
  constructor
  · intro h
    rcases h with ⟨body, hbody, rfl⟩
    exact ⟨_, .mk hbody, by simp [quote]⟩
  · intro h
    rcases h with ⟨_, ⟨hbody⟩, heq⟩
    exact ⟨_, hbody, by simpa [quote] using heq⟩

end PadBridge.Json
