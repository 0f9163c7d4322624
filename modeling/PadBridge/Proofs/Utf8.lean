import PadBridge.Text.Utf8

/-!
UTF-8 read and written.  The front of a byte string is a character exactly if the bytes start with
the encoding of that character, and a text is read from its encoding and from nothing else.
-/

namespace PadBridge.Utf8

/-- The continuation byte for the lowest six bits of a value. -/
def tailByte (value : Nat) : UInt8 :=
  .ofNat (0x80 + value % 64)

theorem toNat_ofNat_of_lt {value : Nat} (hvalue : value < 256) :
    (UInt8.ofNat value).toNat = value := by
  rw [UInt8.toNat_ofNat']
  exact Nat.mod_eq_of_lt hvalue

theorem toNat_tailByte (value : Nat) : (tailByte value).toNat = 0x80 + value % 64 :=
  toNat_ofNat_of_lt (by omega)

theorem isContinuation_iff (byte : UInt8) :
    isContinuation byte = true ↔ 0x80 ≤ byte.toNat ∧ byte.toNat < 0xC0 := by
  simp only [isContinuation, Bool.and_eq_true, decide_eq_true_eq, UInt8.le_iff_toNat_le,
    UInt8.reduceToNat]
  omega

theorem isContinuation_tailByte (value : Nat) : isContinuation (tailByte value) = true := by
  rw [isContinuation_iff, toNat_tailByte]
  omega

theorem extend_tailByte (value next : Nat) :
    extend value (tailByte next) = value * 64 + next % 64 := by
  rw [extend, toNat_tailByte]
  omega

/-- A continuation byte is written for the value that it completes. -/
theorem tailByte_extend {byte : UInt8} (hbyte : isContinuation byte = true) (value : Nat) :
    tailByte (extend value byte) = byte := by
  rw [isContinuation_iff] at hbyte
  rw [← UInt8.toNat_inj, toNat_tailByte, extend]
  omega

theorem toNat_lt (c : Char) : c.toNat < 0x110000 := by
  rcases c.valid with hlow | ⟨_, hhigh⟩
  · exact Nat.lt_trans hlow (by decide)
  · exact hhigh

theorem encodeChar_one {c : Char} (hhigh : c.toNat < 0x80) :
    String.utf8EncodeChar c = [.ofNat c.toNat] := by
  have hone : c.val.toNat ≤ 0x7f := Nat.le_of_lt_succ hhigh
  simp only [String.utf8EncodeChar, if_pos hone]
  rfl

theorem ofNat_add_eq_tailByte (value : Nat) :
    UInt8.ofNat (value % 0x40 + 0x80) = tailByte value :=
  congrArg UInt8.ofNat (Nat.add_comm (value % 64) 0x80)

theorem encodeChar_two {c : Char} (hlow : 0x80 ≤ c.toNat) (hhigh : c.toNat < 0x800) :
    String.utf8EncodeChar c = [.ofNat (0xC0 + c.toNat / 64), tailByte c.toNat] := by
  have hone : ¬ c.val.toNat ≤ 0x7f := Nat.not_le.mpr hlow
  have htwo : c.val.toNat ≤ 0x7ff := Nat.le_of_lt_succ hhigh
  have hlead : c.toNat / 64 % 0x20 + 0xc0 = 0xC0 + c.toNat / 64 := by omega
  simp only [String.utf8EncodeChar, if_neg hone, if_pos htwo, ofNat_add_eq_tailByte]
  rw [← hlead]
  rfl

theorem encodeChar_three {c : Char} (hlow : 0x800 ≤ c.toNat) (hhigh : c.toNat < 0x10000) :
    String.utf8EncodeChar c =
      [.ofNat (0xE0 + c.toNat / 4096), tailByte (c.toNat / 64), tailByte c.toNat] := by
  have hone : ¬ c.val.toNat ≤ 0x7f := Nat.not_le.mpr (Nat.le_trans (by decide) hlow)
  have htwo : ¬ c.val.toNat ≤ 0x7ff := Nat.not_le.mpr hlow
  have hthree : c.val.toNat ≤ 0xffff := Nat.le_of_lt_succ hhigh
  have hlead : c.toNat / 4096 % 0x10 + 0xe0 = 0xE0 + c.toNat / 4096 := by omega
  simp only [String.utf8EncodeChar, if_neg hone, if_neg htwo, if_pos hthree,
    ofNat_add_eq_tailByte]
  rw [← hlead]
  rfl

theorem encodeChar_four {c : Char} (hlow : 0x10000 ≤ c.toNat) :
    String.utf8EncodeChar c =
      [.ofNat (0xF0 + c.toNat / 262144), tailByte (c.toNat / 4096), tailByte (c.toNat / 64),
        tailByte c.toNat] := by
  have hone : ¬ c.val.toNat ≤ 0x7f := Nat.not_le.mpr (Nat.le_trans (by decide) hlow)
  have htwo : ¬ c.val.toNat ≤ 0x7ff := Nat.not_le.mpr (Nat.le_trans (by decide) hlow)
  have hthree : ¬ c.val.toNat ≤ 0xffff := Nat.not_le.mpr hlow
  have hlead : c.toNat / 262144 % 0x08 + 0xf0 = 0xF0 + c.toNat / 262144 := by
    have := toNat_lt c
    omega
  simp only [String.utf8EncodeChar, if_neg hone, if_neg htwo, if_neg hthree,
    ofNat_add_eq_tailByte]
  rw [← hlead]
  rfl

theorem follow?_eq_some_iff {lead low high : UInt8} {count : Nat} :
    follow? lead = some (count, low, high) ↔
      (0xC2 ≤ lead.toNat ∧ lead.toNat < 0xE0 ∧ (count, low, high) = (1, 0x80, 0xBF)) ∨
      (0xE0 ≤ lead.toNat ∧ lead.toNat < 0xF0 ∧ (count, low, high) =
        (2, if lead.toNat = 0xE0 then 0xA0 else 0x80,
          if lead.toNat = 0xED then 0x9F else 0xBF)) ∨
      (0xF0 ≤ lead.toNat ∧ lead.toNat < 0xF5 ∧ (count, low, high) =
        (3, if lead.toNat = 0xF0 then 0x90 else 0x80,
          if lead.toNat = 0xF4 then 0x8F else 0xBF)) := by
  simp only [follow?, Bool.and_eq_true, decide_eq_true_eq, UInt8.le_iff_toNat_le,
    UInt8.reduceToNat, ← UInt8.toNat_inj]
  grind

theorem continued_zero_eq_char_iff {value : Nat} {bytes more : List UInt8} {c : Char} :
    continued 0 value bytes = .char c more ↔ Char.ofNat value = c ∧ bytes = more := by
  simp [continued]

theorem continued_succ_eq_char_iff {count value : Nat} {bytes more : List UInt8} {c : Char} :
    continued (count + 1) value bytes = .char c more ↔
      ∃ byte rest, bytes = byte :: rest ∧ isContinuation byte = true
        ∧ continued count (extend value byte) rest = .char c more := by
  cases bytes with
  | nil => simp [continued]
  | cons byte rest =>
      rw [continued]
      constructor
      · intro h
        split at h
        · exact ⟨byte, rest, rfl, ‹_›, h⟩
        · cases h
      · intro h
        rcases h with ⟨_, _, ⟨rfl, rfl⟩, hbyte, h⟩
        rwa [if_pos hbyte]

theorem front_eq_char_iff_of_lt {lead : UInt8} {rest more : List UInt8} {c : Char}
    (hlead : lead.toNat < 0x80) :
    front lead rest = .char c more ↔ Char.ofNat lead.toNat = c ∧ rest = more := by
  have hascii : lead < 0x80 := UInt8.lt_iff_toNat_lt.mpr hlead
  simp [front, hascii]

theorem front_eq_char_iff_of_le {lead : UInt8} {rest more : List UInt8} {c : Char}
    (hlead : 0x80 ≤ lead.toNat) :
    front lead rest = .char c more ↔
      ∃ count low high second tail, follow? lead = some (count, low, high)
        ∧ rest = second :: tail ∧ low.toNat ≤ second.toNat ∧ second.toNat ≤ high.toNat
        ∧ continued (count - 1) (extend (lead.toNat % Nat.pow 2 (6 - count)) second) tail
          = .char c more := by
  have hlarge : ¬ lead < 0x80 := by
    rw [UInt8.lt_iff_toNat_lt]
    exact Nat.not_lt.mpr hlead
  unfold front
  rw [if_neg hlarge]
  constructor
  · intro h
    split at h
    · rename_i count low high second tail hfollow
      split at h
      · rename_i hrange
        rw [Bool.and_eq_true, decide_eq_true_eq, decide_eq_true_eq] at hrange
        exact ⟨count, low, high, second, tail, hfollow, rfl, hrange.1, hrange.2, h⟩
      · cases h
    · cases h
  · intro h
    rcases h with ⟨count, low, high, second, tail, hfollow, rfl, hlow, hhigh, h⟩
    have hrange : (decide (low ≤ second) && decide (second ≤ high)) = true := by
      rw [Bool.and_eq_true, decide_eq_true_eq, decide_eq_true_eq]
      exact ⟨hlow, hhigh⟩
    simp only [hfollow]
    rwa [if_pos hrange]

/-- A lead byte gives five bits of a character, four or three. -/
theorem leadBits_two (lead : Nat) : lead % Nat.pow 2 (6 - 1) = lead % 32 := rfl

theorem leadBits_three (lead : Nat) : lead % Nat.pow 2 (6 - 2) = lead % 16 := rfl

theorem leadBits_four (lead : Nat) : lead % Nat.pow 2 (6 - 3) = lead % 8 := rfl

theorem front_two {value : Nat} (hlow : 0x80 ≤ value) (hhigh : value < 0x800)
    (more : List UInt8) :
    front (.ofNat (0xC0 + value / 64)) (tailByte value :: more) =
      .char (Char.ofNat value) more := by
  have hlead := toNat_ofNat_of_lt (show 0xC0 + value / 64 < 256 by omega)
  have hsecond := toNat_tailByte value
  rw [front_eq_char_iff_of_le (by omega)]
  refine ⟨1, 0x80, 0xBF, tailByte value, more,
    follow?_eq_some_iff.mpr (Or.inl ⟨by omega, by omega, rfl⟩), rfl, ?_, ?_, ?_⟩
  · rw [hsecond]
    simp
  · simp only [hsecond, UInt8.reduceToNat]
    omega
  · rw [continued_zero_eq_char_iff, hlead, leadBits_two, extend_tailByte]
    exact ⟨congrArg Char.ofNat (by omega), rfl⟩

theorem front_three {value : Nat} (hlow : 0x800 ≤ value) (hhigh : value < 0x10000)
    (hscalar : value < 0xD800 ∨ 0xDFFF < value) (more : List UInt8) :
    front (.ofNat (0xE0 + value / 4096)) (tailByte (value / 64) :: tailByte value :: more) =
      .char (Char.ofNat value) more := by
  have hlead := toNat_ofNat_of_lt (show 0xE0 + value / 4096 < 256 by omega)
  have hsecond := toNat_tailByte (value / 64)
  rw [front_eq_char_iff_of_le (by omega)]
  refine ⟨2, _, _, tailByte (value / 64), tailByte value :: more,
    follow?_eq_some_iff.mpr (Or.inr (Or.inl ⟨by omega, by omega, rfl⟩)), rfl, ?_, ?_, ?_⟩
  · rw [hsecond, hlead]
    split <;> simp only [UInt8.reduceToNat] <;> omega
  · rw [hsecond, hlead]
    split <;> simp only [UInt8.reduceToNat] <;> omega
  · refine continued_succ_eq_char_iff.mpr ⟨_, _, rfl, isContinuation_tailByte value, ?_⟩
    rw [continued_zero_eq_char_iff, hlead, leadBits_three, extend_tailByte, extend_tailByte]
    exact ⟨congrArg Char.ofNat (by omega), rfl⟩

theorem front_four {value : Nat} (hlow : 0x10000 ≤ value) (hhigh : value < 0x110000)
    (more : List UInt8) :
    front (.ofNat (0xF0 + value / 262144))
        (tailByte (value / 4096) :: tailByte (value / 64) :: tailByte value :: more) =
      .char (Char.ofNat value) more := by
  have hlead := toNat_ofNat_of_lt (show 0xF0 + value / 262144 < 256 by omega)
  have hsecond := toNat_tailByte (value / 4096)
  rw [front_eq_char_iff_of_le (by omega)]
  refine ⟨3, _, _, tailByte (value / 4096), tailByte (value / 64) :: tailByte value :: more,
    follow?_eq_some_iff.mpr (Or.inr (Or.inr ⟨by omega, by omega, rfl⟩)), rfl, ?_, ?_, ?_⟩
  · rw [hsecond, hlead]
    split <;> simp only [UInt8.reduceToNat] <;> omega
  · rw [hsecond, hlead]
    split <;> simp only [UInt8.reduceToNat] <;> omega
  · refine continued_succ_eq_char_iff.mpr ⟨_, _, rfl, isContinuation_tailByte _, ?_⟩
    refine continued_succ_eq_char_iff.mpr ⟨_, _, rfl, isContinuation_tailByte _, ?_⟩
    rw [continued_zero_eq_char_iff, hlead, leadBits_four, extend_tailByte, extend_tailByte,
      extend_tailByte]
    exact ⟨congrArg Char.ofNat (by omega), rfl⟩

/-- An encoded character is found in front of whatever follows it. -/
theorem front_of_encodeChar {lead : UInt8} {rest more : List UInt8} {c : Char}
    (h : lead :: rest = String.utf8EncodeChar c ++ more) : front lead rest = .char c more := by
  have hscalar : c.toNat < 0xD800 ∨ 0xDFFF < c.toNat ∧ c.toNat < 0x110000 := c.valid
  rcases Nat.lt_or_ge c.toNat 0x80 with hone | hone
  · rw [encodeChar_one hone] at h
    obtain ⟨rfl, rfl⟩ := List.cons.inj h
    have hlead := toNat_ofNat_of_lt (show c.toNat < 256 by omega)
    rw [front_eq_char_iff_of_lt (by omega), hlead, Char.ofNat_toNat]
    exact ⟨rfl, rfl⟩
  rcases Nat.lt_or_ge c.toNat 0x800 with htwo | htwo
  · rw [encodeChar_two hone htwo] at h
    obtain ⟨rfl, rfl⟩ := List.cons.inj h
    simpa using front_two hone htwo more
  rcases Nat.lt_or_ge c.toNat 0x10000 with hthree | hthree
  · rw [encodeChar_three htwo hthree] at h
    obtain ⟨rfl, rfl⟩ := List.cons.inj h
    simpa using front_three htwo hthree (by omega) more
  · rw [encodeChar_four hthree] at h
    obtain ⟨rfl, rfl⟩ := List.cons.inj h
    simpa using front_four hthree (by omega) more

theorem toNat_ofNat_char (value : Nat)
    (hscalar : value < 0xD800 ∨ 0xDFFF < value ∧ value < 0x110000) :
    (Char.ofNat value).toNat = value := by
  have hvalid : value.isValidChar := hscalar
  rw [Char.ofNat, dif_pos hvalid]
  rfl

theorem encodeChar_of_lead_two {lead second : UInt8} (hmin : 0xC2 ≤ lead.toNat)
    (hmax : lead.toNat < 0xE0) (hsecond : isContinuation second = true) :
    String.utf8EncodeChar (Char.ofNat (extend (lead.toNat % 32) second)) = [lead, second] := by
  have hbits := tailByte_extend hsecond (lead.toNat % 32)
  have hvalue : 0xC0 + extend (lead.toNat % 32) second / 64 = lead.toNat := by
    rw [extend]
    omega
  generalize extend (lead.toNat % 32) second = value at hbits hvalue
  have hnat := toNat_ofNat_char value (by omega)
  rw [encodeChar_two (by omega) (by omega), hnat, hbits, hvalue, UInt8.ofNat_toNat]

theorem encodeChar_of_lead_three {lead second third : UInt8} (hmin : 0xE0 ≤ lead.toNat)
    (hmax : lead.toNat < 0xF0) (hlow : lead.toNat = 0xE0 → 0xA0 ≤ second.toNat)
    (hhigh : lead.toNat = 0xED → second.toNat < 0xA0) (hsecond : isContinuation second = true)
    (hthird : isContinuation third = true) :
    String.utf8EncodeChar (Char.ofNat (extend (extend (lead.toNat % 16) second) third)) =
      [lead, second, third] := by
  have hfirstBits := tailByte_extend hsecond (lead.toNat % 16)
  have hbits := tailByte_extend hthird (extend (lead.toNat % 16) second)
  have hshift : extend (extend (lead.toNat % 16) second) third / 64 =
      extend (lead.toNat % 16) second := by
    rw [extend]
    omega
  have hvalue : 0xE0 + extend (lead.toNat % 16) second / 64 = lead.toNat
      ∧ (extend (lead.toNat % 16) second < 0x360 ∨ 0x37F < extend (lead.toNat % 16) second)
      ∧ 0x20 ≤ extend (lead.toNat % 16) second := by
    rw [isContinuation_iff] at hsecond
    rw [extend]
    omega
  generalize extend (extend (lead.toNat % 16) second) third = value at hbits hshift
  have hnat := toNat_ofNat_char value (by omega)
  rw [encodeChar_three (by omega) (by omega), hnat, hbits, hshift, hfirstBits,
    show 0xE0 + value / 4096 = lead.toNat by omega, UInt8.ofNat_toNat]

theorem encodeChar_of_lead_four {lead second third fourth : UInt8} (hmin : 0xF0 ≤ lead.toNat)
    (hmax : lead.toNat < 0xF5) (hlow : lead.toNat = 0xF0 → 0x90 ≤ second.toNat)
    (hhigh : lead.toNat = 0xF4 → second.toNat < 0x90) (hsecond : isContinuation second = true)
    (hthird : isContinuation third = true) (hfourth : isContinuation fourth = true) :
    String.utf8EncodeChar
        (Char.ofNat (extend (extend (extend (lead.toNat % 8) second) third) fourth)) =
      [lead, second, third, fourth] := by
  have hfirstBits := tailByte_extend hsecond (lead.toNat % 8)
  have hsecondBits := tailByte_extend hthird (extend (lead.toNat % 8) second)
  have hbits := tailByte_extend hfourth (extend (extend (lead.toNat % 8) second) third)
  have hshift : ∀ (value : Nat) (byte : UInt8), extend value byte / 64 = value := by
    intro value byte
    rw [extend]
    omega
  have hvalue : 0xF0 + extend (lead.toNat % 8) second / 64 = lead.toNat
      ∧ 0x10 ≤ extend (lead.toNat % 8) second ∧ extend (lead.toNat % 8) second < 0x110 := by
    rw [isContinuation_iff] at hsecond
    rw [extend]
    omega
  have hthirdShift := hshift (extend (lead.toNat % 8) second) third
  have hfourthShift := hshift (extend (extend (lead.toNat % 8) second) third) fourth
  generalize extend (extend (extend (lead.toNat % 8) second) third) fourth = value
    at hbits hfourthShift
  have hnat := toNat_ofNat_char value (by omega)
  rw [encodeChar_four (by omega), hnat, hbits, hfourthShift, hsecondBits,
    show value / 4096 = extend (lead.toNat % 8) second by omega, hfirstBits,
    show 0xF0 + value / 262144 = lead.toNat by omega, UInt8.ofNat_toNat]

/-- What is found in front is the encoding of a character. -/
theorem encodeChar_of_front {lead : UInt8} {rest more : List UInt8} {c : Char}
    (h : front lead rest = .char c more) : lead :: rest = String.utf8EncodeChar c ++ more := by
  rcases Nat.lt_or_ge lead.toNat 0x80 with hascii | hlarge
  · obtain ⟨rfl, rfl⟩ := (front_eq_char_iff_of_lt hascii).mp h
    have hvalue := toNat_ofNat_char _ (Or.inl (show lead.toNat < 0xD800 by omega))
    rw [encodeChar_one (by omega), hvalue, UInt8.ofNat_toNat]
    rfl
  · obtain ⟨count, low, high, second, tail, hfollow, rfl, hlow, hhigh, hchar⟩ :=
      (front_eq_char_iff_of_le hlarge).mp h
    rcases follow?_eq_some_iff.mp hfollow with
      ⟨hmin, hmax, heq⟩ | ⟨hmin, hmax, heq⟩ | ⟨hmin, hmax, heq⟩
    · cases heq
      simp only [UInt8.reduceToNat] at hlow hhigh
      obtain ⟨rfl, rfl⟩ := continued_zero_eq_char_iff.mp hchar
      rw [leadBits_two,
        encodeChar_of_lead_two hmin hmax ((isContinuation_iff second).mpr (by omega))]
      rfl
    · cases heq
      obtain ⟨third, tail, rfl, hthird, hchar⟩ := continued_succ_eq_char_iff.mp hchar
      obtain ⟨rfl, rfl⟩ := continued_zero_eq_char_iff.mp hchar
      have hleast : 0x80 ≤ second.toNat ∧ (lead.toNat = 0xE0 → 0xA0 ≤ second.toNat) := by
        split at hlow <;> simp only [UInt8.reduceToNat] at hlow <;> omega
      have hmost : second.toNat < 0xC0 ∧ (lead.toNat = 0xED → second.toNat < 0xA0) := by
        split at hhigh <;> simp only [UInt8.reduceToNat] at hhigh <;> omega
      rw [leadBits_three, encodeChar_of_lead_three hmin hmax hleast.2 hmost.2
        ((isContinuation_iff second).mpr ⟨hleast.1, hmost.1⟩) hthird]
      rfl
    · cases heq
      obtain ⟨third, tail, rfl, hthird, hchar⟩ := continued_succ_eq_char_iff.mp hchar
      obtain ⟨fourth, tail, rfl, hfourth, hchar⟩ := continued_succ_eq_char_iff.mp hchar
      obtain ⟨rfl, rfl⟩ := continued_zero_eq_char_iff.mp hchar
      have hleast : 0x80 ≤ second.toNat ∧ (lead.toNat = 0xF0 → 0x90 ≤ second.toNat) := by
        split at hlow <;> simp only [UInt8.reduceToNat] at hlow <;> omega
      have hmost : second.toNat < 0xC0 ∧ (lead.toNat = 0xF4 → second.toNat < 0x90) := by
        split at hhigh <;> simp only [UInt8.reduceToNat] at hhigh <;> omega
      rw [leadBits_four, encodeChar_of_lead_four hmin hmax hleast.2 hmost.2
        ((isContinuation_iff second).mpr ⟨hleast.1, hmost.1⟩) hthird hfourth]
      rfl


@[simp] theorem encode_nil : encode [] = [] :=
  rfl

@[simp] theorem encode_cons (c : Char) (text : List Char) :
    encode (c :: text) = String.utf8EncodeChar c ++ encode text :=
  List.flatMap_cons

@[simp] theorem encode_append (left right : List Char) :
    encode (left ++ right) = encode left ++ encode right :=
  List.flatMap_append

/-- A character begins with a byte of its own, and the bytes that continue it are no such bytes. -/
theorem exists_encodeChar (c : Char) :
    ∃ lead rest, String.utf8EncodeChar c = lead :: rest ∧ isContinuation lead = false
      ∧ ∀ byte ∈ rest, isContinuation byte = true := by
  have hlead : ∀ {value}, value < 256 → (value < 0x80 ∨ 0xC0 ≤ value) →
      isContinuation (.ofNat value) = false := by
    intro value hvalue hrange
    rw [Bool.eq_false_iff, ne_eq, isContinuation_iff, toNat_ofNat_of_lt hvalue]
    omega
  have hvalid := toNat_lt c
  rcases Nat.lt_or_ge c.toNat 0x80 with hone | hone
  · exact ⟨_, _, encodeChar_one hone, hlead (by omega) (by omega), by simp⟩
  rcases Nat.lt_or_ge c.toNat 0x800 with htwo | htwo
  · exact ⟨_, _, encodeChar_two hone htwo, hlead (by omega) (by omega),
      by simp [isContinuation_tailByte]⟩
  rcases Nat.lt_or_ge c.toNat 0x10000 with hthree | hthree
  · exact ⟨_, _, encodeChar_three htwo hthree, hlead (by omega) (by omega),
      by simp [isContinuation_tailByte]⟩
  · exact ⟨_, _, encodeChar_four hthree, hlead (by omega) (by omega),
      by simp [isContinuation_tailByte]⟩

/-- No byte of a character beyond ASCII is the byte of an ASCII character. -/
theorem le_of_mem_encodeChar {c : Char} (hc : 0x80 ≤ c.toNat) {byte : UInt8}
    (hbyte : byte ∈ String.utf8EncodeChar c) : 0x80 ≤ byte.toNat := by
  have hvalid := toNat_lt c
  have htail : ∀ value, 0x80 ≤ (tailByte value).toNat := by
    intro value
    rw [toNat_tailByte]
    exact Nat.le_add_right 0x80 _
  have hlead : ∀ {value}, value < 256 → 0x80 ≤ value → 0x80 ≤ (UInt8.ofNat value).toNat := by
    intro value hvalue hlow
    rwa [toNat_ofNat_of_lt hvalue]
  rcases Nat.lt_or_ge c.toNat 0x800 with htwo | htwo
  · rw [encodeChar_two hc htwo] at hbyte
    simp only [List.mem_cons, List.not_mem_nil, or_false] at hbyte
    rcases hbyte with rfl | rfl
    · exact hlead (by omega) (by omega)
    · exact htail _
  rcases Nat.lt_or_ge c.toNat 0x10000 with hthree | hthree
  · rw [encodeChar_three htwo hthree] at hbyte
    simp only [List.mem_cons, List.not_mem_nil, or_false] at hbyte
    rcases hbyte with rfl | rfl | rfl
    · exact hlead (by omega) (by omega)
    · exact htail _
    · exact htail _
  · rw [encodeChar_four hthree] at hbyte
    simp only [List.mem_cons, List.not_mem_nil, or_false] at hbyte
    rcases hbyte with rfl | rfl | rfl | rfl
    · exact hlead (by omega) (by omega)
    · exact htail _
    · exact htail _
    · exact htail _

theorem encodeChar_injective_append {left right : Char} {leftRest rightRest : List UInt8}
    (h : String.utf8EncodeChar left ++ leftRest = String.utf8EncodeChar right ++ rightRest) :
    left = right ∧ leftRest = rightRest := by
  obtain ⟨lead, rest, hleft, _⟩ := exists_encodeChar left
  rw [hleft, List.cons_append] at h
  have hfront : front lead (rest ++ leftRest) = .char left leftRest :=
    front_of_encodeChar (by rw [hleft]; rfl)
  have hright := hfront.symm.trans (front_of_encodeChar h)
  cases hright
  exact ⟨rfl, rfl⟩

/-- A text is read from its encoding and from nothing else. -/
theorem decode?_eq_some_iff {bytes : List UInt8} {text : List Char} :
    decode? bytes = some text ↔ bytes = encode text := by
  induction text generalizing bytes with
  | nil =>
      cases bytes with
      | nil => simp [decode?]
      | cons lead rest =>
          rw [decode?]
          split <;> simp
  | cons c text ih =>
      cases bytes with
      | nil =>
          obtain ⟨lead, rest, hc, _⟩ := exists_encodeChar c
          simp [decode?, hc]
      | cons lead rest =>
          rw [decode?, encode_cons]
          constructor
          · intro h
            split at h
            · rename_i d more hfront
              obtain ⟨tail, htail, heq⟩ := Option.map_eq_some_iff.mp h
              cases heq
              rw [encodeChar_of_front hfront, ih.mp htail]
            · cases h
          · intro h
            have hfront := front_of_encodeChar h
            split
            · rename_i d more hother
              cases hfront.symm.trans hother
              rw [ih.mpr rfl]
              rfl
            · rename_i more hother
              cases hfront.symm.trans hother

theorem decodeString?_eq_some_iff {bytes : List UInt8} {text : String} :
    decodeString? bytes = some text ↔ bytes = bytesOf text := by
  rw [decodeString?, Option.map_eq_some_iff, bytesOf]
  constructor
  · intro h
    rcases h with ⟨characters, hread, rfl⟩
    rw [String.toList_ofList]
    exact decode?_eq_some_iff.mp hread
  · intro h
    exact ⟨text.toList, decode?_eq_some_iff.mpr h, String.ofList_toList⟩

@[simp] theorem decodeString?_bytesOf (text : String) :
    decodeString? (bytesOf text) = some text :=
  decodeString?_eq_some_iff.mpr rfl

theorem bytesOf_injective {left right : String} (h : bytesOf left = bytesOf right) :
    left = right := by
  have hread := congrArg decodeString? h
  rwa [decodeString?_bytesOf, decodeString?_bytesOf, Option.some.injEq] at hread

end PadBridge.Utf8
