import PadBridge.Proofs.Toml.Characters

/-!
Numbers are read as the grammar has them.
-/

namespace PadBridge.Toml

open Grammar

section Front

variable {accepts : Char → Bool} {front taken more rest : List Char} {c : Char}

/-- Two ways to cut an input where a run of a class ends cut it at the same place. -/
theorem eq_of_append_eq_append (hfront : ∀ c ∈ front, accepts c = true) (hc : accepts c = false)
    (htaken : ∀ c ∈ taken, accepts c = true) (hrest : Stops accepts rest)
    (heq : front ++ c :: more = taken ++ rest) : rest = c :: more := by
  have hstop : Stops accepts (c :: more) := by
    rintro other ⟨⟩
    exact hc
  rw [← dropWhile_of_stops htaken hrest, ← heq, dropWhile_of_stops hfront hstop]

end Front

/-- What may follow a value: blanks, and then the end of the text or of the line, a comment, a comma
or a closing bracket. -/
def Ends (rest : List Char) : Prop :=
  ∀ c ∈ (rest.dropWhile isBlank).head?, c ∈ ['\n', '\r', '#', ',', ']', '\x7d']

theorem Ends.head? {rest : List Char} (hrest : Ends rest) :
    ∀ c ∈ rest.head?, c ∈ [' ', '\t', '\n', '\r', '#', ',', ']', '\x7d'] := by
  intro c hc
  cases rest with
  | nil => cases hc
  | cons first more =>
      cases hc
      by_cases hblank : isBlank c = true
      · rcases isBlank_iff.mp hblank with rfl | rfl <;> decide
      · have hhead := hrest c (by rw [List.dropWhile_cons_of_neg hblank]; rfl)
        exact List.mem_cons_of_mem _ (List.mem_cons_of_mem _ hhead)

theorem Ends.stops {rest : List Char} (hrest : Ends rest) {accepts : Char → Bool}
    (haccepts : [' ', '\t', '\n', '\r', '#', ',', ']', '\x7d'].all (fun c => !accepts c) = true) :
    Stops accepts rest := by
  intro c hc
  simpa using List.all_eq_true.mp haccepts c (hrest.head? c hc)

section Digits

variable {base : Nat} {spelled input rest : List Char} {digits : List Nat}

/-- The digits of a base and the underscores between them. -/
def isGroupedOf (base : Nat) (c : Char) : Bool :=
  isDigitOf base c || c = '_'

theorem Grammar.Digit.ne_underscore {c : Char} {value : Nat} (hc : Digit base c value) :
    c ≠ '_' := by
  rintro rfl
  have hdigit := isDigitOf_iff.mpr hc
  simp [isDigitOf] at hdigit

theorem valueOf_eq (chars : List Char) :
    valueOf base chars = numberOf base (chars.map digitValue) := by
  rw [valueOf, numberOf, List.foldl_map]

/-- Grouped digits are those between which an underscore stands at most, and their values are those
of the digits among them. -/
theorem grouped_of_groupsDigits {spelled : List Char}
    (hclass : ∀ c ∈ spelled, isGroupedOf base c = true)
    (hgroups : groupsDigits false spelled = true) :
    Grouped base spelled ((spelled.filter (· ≠ '_')).map digitValue) := by
  match spelled with
  | [] => cases hgroups
  | c :: rest =>
      have hunderscore : c ≠ '_' := by
        rintro rfl
        simp [groupsDigits] at hgroups
      have hdigit : Digit base c (digitValue c) := by
        have hc := hclass c List.mem_cons_self
        exact isDigitOf_iff.mp ⟨by simpa [isGroupedOf, hunderscore] using hc, rfl⟩
      have hrest := fun other hother => hclass other (List.mem_cons_of_mem c hother)
      rw [groupsDigits, if_neg hunderscore] at hgroups
      rw [List.filter_cons_of_pos (by simpa using hunderscore), List.map_cons]
      match rest with
      | [] => exact .one hdigit
      | next :: more =>
          by_cases hnext : next = '_'
          · subst hnext
            have hmore := fun other hother => hrest other (List.mem_cons_of_mem _ hother)
            have hlater : groupsDigits false more = true := by simpa [groupsDigits] using hgroups
            exact .apart hdigit (grouped_of_groupsDigits hmore hlater)
          · have hlater : groupsDigits false (next :: more) = true := by
              rw [groupsDigits, if_neg hnext] at hgroups ⊢
              exact hgroups
            exact .next hdigit (grouped_of_groupsDigits hrest hlater)

theorem Grammar.Grouped.groupsDigits (hspelled : Grouped base spelled digits) (before : Bool) :
    groupsDigits before spelled = true := by
  induction hspelled generalizing before with
  | one hc => rw [Toml.groupsDigits, if_neg hc.ne_underscore, Toml.groupsDigits]
  | next hc _ ih => rw [Toml.groupsDigits, if_neg hc.ne_underscore, ih]
  | apart hc _ ih =>
      rw [Toml.groupsDigits, if_neg hc.ne_underscore, Toml.groupsDigits, if_pos rfl, ih]
      rfl

theorem Grammar.Grouped.isGroupedOf (hspelled : Grouped base spelled digits) :
    ∀ c ∈ spelled, isGroupedOf base c = true := by
  have hdigit : ∀ {c value}, Digit base c value → Toml.isGroupedOf base c = true := by
    intro c value hc
    rw [Toml.isGroupedOf, (isDigitOf_iff.mpr hc).1]
    rfl
  induction hspelled with
  | one hc => simpa using hdigit hc
  | next hc _ ih => exact List.forall_mem_cons.mpr ⟨hdigit hc, ih⟩
  | apart hc _ ih =>
      refine List.forall_mem_cons.mpr ⟨hdigit hc, List.forall_mem_cons.mpr ⟨?_, ih⟩⟩
      simp [Toml.isGroupedOf]

theorem Grammar.Grouped.map_filter (hspelled : Grouped base spelled digits) :
    (spelled.filter (· ≠ '_')).map digitValue = digits := by
  induction hspelled with
  | one hc =>
      rw [List.filter_cons_of_pos (by simpa using hc.ne_underscore), List.map_cons,
        (isDigitOf_iff.mpr hc).2]
      rfl
  | next hc _ ih =>
      rw [List.filter_cons_of_pos (by simpa using hc.ne_underscore), List.map_cons,
        (isDigitOf_iff.mpr hc).2, ih]
  | apart hc _ ih =>
      rw [List.filter_cons_of_pos (by simpa using hc.ne_underscore),
        List.filter_cons_of_neg (by simp), List.map_cons, (isDigitOf_iff.mpr hc).2, ih]

variable {isDigit : Char → Bool} (hdigit : ∀ c, isDigit c = isDigitOf base c)
include hdigit

theorem groupedDigits_sound {found : List Char}
    (h : Reads (groupedDigits isDigit) input found rest) :
    ∃ spelled, input = spelled ++ rest ∧ Grouped base spelled (found.map digitValue)
      ∧ ∀ c ∈ found, isDigitOf base c = true := by
  obtain rfl : isDigit = isDigitOf base := funext hdigit
  simp only [groupedDigits, Reads.bind_iff, Reads.require_iff, Reads.pure_iff] at h
  obtain ⟨spelled, _, hrun, _, _, ⟨hgroups, rfl⟩, rfl, rfl⟩ := h
  obtain ⟨hinput, hclass, _⟩ := Reads.run_iff.mp hrun
  refine ⟨spelled, hinput, grouped_of_groupsDigits hclass hgroups, fun c hc => ?_⟩
  obtain ⟨hmem, hunderscore⟩ := List.mem_filter.mp hc
  simpa [of_decide_eq_true hunderscore] using hclass c hmem

theorem groupedDigits_complete (hspelled : Grouped base spelled digits)
    (hrest : Stops (isGroupedOf base) rest) :
    ∃ found, Reads (groupedDigits isDigit) (spelled ++ rest) found rest
      ∧ found.map digitValue = digits := by
  obtain rfl : isDigit = isDigitOf base := funext hdigit
  exact ⟨_, .bind (Reads.run_iff.mpr ⟨rfl, hspelled.isGroupedOf, hrest⟩)
    (.bind (.require (hspelled.groupsDigits _) _) (.pure _ _)), hspelled.map_filter⟩

end Digits

theorem isDigit_eq (c : Char) : c.isDigit = isDigitOf 10 c := by
  rw [Bool.eq_iff_iff]
  have hdigit := @isDigit_iff (digitValue c) c
  have hten := @isDigitOf_iff 10 (digitValue c) c
  rw [← hten] at hdigit
  simpa using hdigit

section Sign

variable {input rest spelled : List Char} {negative : Bool}

theorem sign_sound (h : Reads sign input negative rest) :
    ∃ spelled, input = spelled ++ rest ∧ Sign spelled negative := by
  obtain ⟨found, middle, haccept, hsign⟩ := Reads.bind_iff.mp h
  rcases Reads.accept_iff.mp haccept with ⟨rfl, hinput⟩ | ⟨rfl, _, rfl⟩
  · obtain ⟨rfl, rfl⟩ := Reads.pure_iff.mp hsign
    exact ⟨['-'], hinput, .minus⟩
  · obtain ⟨found, last, hplus, hdone⟩ := Reads.bind_iff.mp hsign
    obtain ⟨rfl, rfl⟩ := Reads.pure_iff.mp hdone
    rcases Reads.accept_iff.mp hplus with ⟨rfl, hinput⟩ | ⟨rfl, _, hinput⟩
    · exact ⟨['+'], hinput, .plus⟩
    · exact ⟨[], hinput.symm, .none⟩

theorem sign_complete (hspelled : Sign spelled negative)
    (hrest : ∀ c ∈ rest.head?, c ≠ '+' ∧ c ≠ '-') :
    Reads sign (spelled ++ rest) negative rest := by
  have hfront : ∀ c : Char, (c = '+' ∨ c = '-') → ¬ [c] <+: rest := by
    rintro c hc ⟨more, rfl⟩
    have hother := hrest c rfl
    rcases hc with rfl | rfl
    · exact hother.1 rfl
    · exact hother.2 rfl
  cases hspelled with
  | none =>
      exact .bind (.accept_false (hfront '-' (Or.inr rfl)))
        (.bind (.accept_false (hfront '+' (Or.inl rfl))) (.pure _ _))
  | plus =>
      have hminus : ¬ "-".toList <+: ['+'] ++ rest := by
        rintro ⟨more, h⟩
        cases h
      exact .bind (.accept_false hminus) (.bind (.accept_true "+" rest) (.pure _ _))
  | minus => exact .bind (.accept_true "-" rest) (.pure _ _)

end Sign

section Overflow

variable {digits : Nat} {exponent : Int}

theorem shift_le_pow {shift exponent : Nat} (h : shift ≤ 3 * exponent) :
    1 <<< shift ≤ Nat.pow 10 exponent :=
  calc 1 <<< shift = 2 ^ shift := Nat.one_shiftLeft shift
    _ ≤ 2 ^ (3 * exponent) := Nat.pow_le_pow_right (by decide) h
    _ = (2 ^ 3) ^ exponent := Nat.pow_mul 2 3 exponent
    _ ≤ 10 ^ exponent := Nat.pow_le_pow_left (by decide) exponent

theorem doubleLimit_pos : 0 < doubleLimit := by decide

theorem doubleLimit_le {exponent : Nat} (h : 400 ≤ exponent) :
    doubleLimit ≤ Nat.pow 10 exponent :=
  calc doubleLimit ≤ 1 <<< 1024 := Nat.sub_le _ _
    _ ≤ Nat.pow 10 exponent := shift_le_pow (by omega)

/-- The number of digits bounds how far a number is from one. -/
theorem lt_ten_pow_log2 (digits : Nat) : digits < Nat.pow 10 (digits.log2 + 1) :=
  calc digits < Nat.pow 2 (digits.log2 + 1) := Nat.lt_log2_self
    _ ≤ Nat.pow 10 (digits.log2 + 1) := Nat.pow_le_pow_left (by decide) _

/-- The shortcuts do not change which numbers are too large. -/
theorem overflows_iff : overflows digits exponent = true ↔ Overflows digits exponent := by
  have hlimit : Overflows digits exponent ↔
      doubleLimit * Nat.pow 10 (-exponent).toNat ≤ digits * Nat.pow 10 exponent.toNat :=
    Iff.rfl
  rw [overflows, hlimit]
  split
  · rename_i hsmall
    refine iff_of_false Bool.false_ne_true (Nat.not_le.mpr ?_)
    rcases hsmall with rfl | hsmall
    · rw [Nat.zero_mul]
      exact Nat.mul_pos doubleLimit_pos (Nat.pow_pos (by decide))
    · have hzero : exponent.toNat = 0 := by omega
      have hpow : digits.log2 + 1 ≤ (-exponent).toNat := by omega
      rw [hzero, show Nat.pow 10 0 = 1 from rfl, Nat.mul_one]
      calc digits < Nat.pow 10 (digits.log2 + 1) := lt_ten_pow_log2 digits
        _ ≤ Nat.pow 10 (-exponent).toNat := Nat.pow_le_pow_right (by decide) hpow
        _ ≤ doubleLimit * Nat.pow 10 (-exponent).toNat :=
            Nat.le_mul_of_pos_left _ doubleLimit_pos
  · rename_i hnot
    split
    · rename_i hlarge
      have hone : 1 ≤ digits := by omega
      have hzero : (-exponent).toNat = 0 := by omega
      have hpow : 400 ≤ exponent.toNat := by omega
      refine iff_of_true rfl ?_
      rw [hzero, show Nat.pow 10 0 = 1 from rfl, Nat.mul_one]
      calc doubleLimit ≤ Nat.pow 10 exponent.toNat := doubleLimit_le hpow
        _ ≤ digits * Nat.pow 10 exponent.toNat := Nat.le_mul_of_pos_left _ hone
    · rw [decide_eq_true_eq]

end Overflow

theorem signed_eq (negative : Bool) (size : Nat) : signed negative size = withSign negative size :=
  rfl

theorem isWord_iff {value : Int} : isWord value = true ↔ InRange value := by
  simp [isWord, InRange]

section Decimal

variable {input rest spelled : List Char}

theorem fractionPart_sound {found : Option (List Char)} (h : Reads fractionPart input found rest) :
    ∃ spelled, input = spelled ++ rest
      ∧ Fraction spelled ((found.getD []).map digitValue)
      ∧ (found.isSome = true ↔ spelled ≠ []) := by
  obtain ⟨point, middle, haccept, hdigits⟩ := Reads.bind_iff.mp h
  rcases Reads.accept_iff.mp haccept with ⟨rfl, rfl⟩ | ⟨rfl, _, rfl⟩
  · obtain ⟨digits, _, hread, hdone⟩ := Reads.bind_iff.mp hdigits
    obtain ⟨rfl, rfl⟩ := Reads.pure_iff.mp hdone
    obtain ⟨spelled, rfl, hspelled, _⟩ := groupedDigits_sound isDigit_eq hread
    exact ⟨'.' :: spelled, rfl, .some hspelled, by simp⟩
  · obtain ⟨rfl, rfl⟩ := Reads.pure_iff.mp hdigits
    exact ⟨[], rfl, .none, by simp⟩

theorem fractionPart_complete {digits : List Nat} (hspelled : Fraction spelled digits)
    (hrest : Stops (fun c => isGroupedOf 10 c || c = '.') rest) :
    ∃ found, Reads fractionPart (spelled ++ rest) found rest
      ∧ (found.getD []).map digitValue = digits ∧ (found.isSome = true ↔ spelled ≠ []) := by
  cases hspelled with
  | none =>
      have hpoint : ¬ ".".toList <+: rest := by
        rintro ⟨more, rfl⟩
        cases hrest '.' rfl
      exact ⟨none, .bind (.accept_false hpoint) (.pure _ _), rfl, by simp⟩
  | @some spelled digits hspelled =>
      have hstop : Stops (isGroupedOf 10) rest := fun c hc =>
        (Bool.or_eq_false_iff.mp (hrest c hc)).1
      obtain ⟨found, hread, hdigits⟩ := groupedDigits_complete isDigit_eq hspelled hstop
      exact ⟨some found, .bind (.accept_true "." (spelled ++ rest)) (.bind hread (.pure _ _)),
        hdigits, by simp⟩

theorem exponentMark_sound {found : Bool} (h : Reads exponentMark input found rest) :
    (found = true ∧ ∃ letter, input = letter :: rest ∧ (letter = 'e' ∨ letter = 'E'))
      ∨ (found = false ∧ rest = input) := by
  obtain ⟨small, middle, hsmall, hlarge⟩ := Reads.bind_iff.mp h
  rcases Reads.accept_iff.mp hsmall with ⟨rfl, rfl⟩ | ⟨rfl, _, rfl⟩
  · obtain ⟨rfl, rfl⟩ := Reads.pure_iff.mp hlarge
    exact Or.inl ⟨rfl, 'e', rfl, Or.inl rfl⟩
  · rcases Reads.accept_iff.mp hlarge with ⟨rfl, rfl⟩ | ⟨rfl, _, rfl⟩
    · exact Or.inl ⟨rfl, 'E', rfl, Or.inr rfl⟩
    · exact Or.inr ⟨rfl, rfl⟩

theorem exponentPart_sound {found : Option Int} (h : Reads exponentPart input found rest) :
    ∃ spelled, input = spelled ++ rest ∧ Exponent spelled (found.getD 0)
      ∧ (found.isSome = true ↔ spelled ≠ []) := by
  obtain ⟨mark, middle, hmark, hexponent⟩ := Reads.bind_iff.mp h
  rcases exponentMark_sound hmark with ⟨rfl, letter, rfl, hletter⟩ | ⟨rfl, rfl⟩
  · simp only [if_true, Reads.bind_iff, Reads.pure_iff] at hexponent
    obtain ⟨negative, _, hsign, digits, _, hdigits, rfl, rfl⟩ := hexponent
    obtain ⟨sign, rfl, hnegative⟩ := sign_sound hsign
    obtain ⟨spelled, rfl, hspelled, _⟩ := groupedDigits_sound isDigit_eq hdigits
    refine ⟨letter :: sign ++ spelled, by simp, ?_, by simp⟩
    rw [Option.getD_some, signed_eq, valueOf_eq]
    exact .some hletter hnegative hspelled
  · obtain ⟨rfl, rfl⟩ := Reads.pure_iff.mp hexponent
    exact ⟨[], rfl, .none, by simp⟩

/-- Digits do not begin with a sign. -/
theorem Grammar.Grouped.head?_ne_sign {base : Nat} {digits : List Nat}
    (hspelled : Grouped base spelled digits) (rest : List Char) :
    ∀ c ∈ (spelled ++ rest).head?, c ≠ '+' ∧ c ≠ '-' := by
  have hdigit : ∀ {c value}, Digit base c value → c ≠ '+' ∧ c ≠ '-' := by
    intro c value hc
    have hclass := (isDigitOf_iff.mpr hc).1
    constructor
    · rintro rfl
      simp [isDigitOf] at hclass
    · rintro rfl
      simp [isDigitOf] at hclass
  cases hspelled with
  | one hc | next hc _ | apart hc _ =>
      rintro c ⟨⟩
      exact hdigit hc

theorem exponentPart_complete {scale : Int} (hspelled : Exponent spelled scale)
    (hrest : Stops (fun c => isGroupedOf 10 c || c = 'e' || c = 'E') rest) :
    ∃ found, Reads exponentPart (spelled ++ rest) found rest
      ∧ found.getD 0 = scale ∧ (found.isSome = true ↔ spelled ≠ []) := by
  cases hspelled with
  | none =>
      have hsmall : ¬ "e".toList <+: rest := by
        rintro ⟨more, rfl⟩
        cases hrest 'e' rfl
      have hlarge : ¬ "E".toList <+: rest := by
        rintro ⟨more, rfl⟩
        cases hrest 'E' rfl
      have hmark : Reads exponentMark rest false rest :=
        .bind (.accept_false hsmall) (.accept_false hlarge)
      exact ⟨none, .bind hmark (.pure _ _), rfl, by simp⟩
  | @some letter sign spelled negative digits hletter hsign hspelled =>
      have hstop : Stops (isGroupedOf 10) rest := by
        intro c hc
        exact (Bool.or_eq_false_iff.mp (Bool.or_eq_false_iff.mp (hrest c hc)).1).1
      obtain ⟨found, hread, rfl⟩ := groupedDigits_complete isDigit_eq hspelled hstop
      have hmark : Reads exponentMark (letter :: (sign ++ (spelled ++ rest))) true
          (sign ++ (spelled ++ rest)) := by
        rcases hletter with rfl | rfl
        · exact .bind (.accept_true "e" _) (.pure _ _)
        · have hsmall : ¬ "e".toList <+: 'E' :: (sign ++ (spelled ++ rest)) := by
            rintro ⟨more, h⟩
            cases h
          exact .bind (.accept_false hsmall) (.accept_true "E" _)
      have hinput : letter :: sign ++ spelled ++ rest = letter :: (sign ++ (spelled ++ rest)) := by
        simp
      rw [hinput]
      refine ⟨some (signed negative (valueOf 10 found)), .bind hmark
        (.bind (sign_complete hsign (hspelled.head?_ne_sign rest)) (.bind hread (.pure _ _))), ?_,
        by simp⟩
      rw [Option.getD_some, signed_eq, valueOf_eq]

def Numeral.item : Numeral → Item
  | .integer value => .integer value
  | .number _ => .number

theorem eq_zero_of_digitValue {c : Char} (hc : isDigitOf 10 c = true) (hzero : digitValue c = 0) :
    c = '0' := by
  have hdigit : Digit 10 c 0 := isDigitOf_iff.mp ⟨hc, hzero⟩
  obtain ⟨_, ⟨_, hnat⟩ | ⟨hten, _⟩⟩ := digit_iff_toNat.mp hdigit
  · rw [← Char.ofNat_toNat c, hnat]
  · cases hten

theorem decimal_sound {sign : List Char} {negative : Bool} {found : Numeral}
    (hsign : Sign sign negative) (h : Reads (decimal negative) input found rest) :
    ∃ spelled, input = spelled ++ rest ∧ Scalar .reading (sign ++ spelled) found.item := by
  simp only [decimal, Reads.bind_iff, Reads.require_iff] at h
  obtain ⟨chars, _, hchars, _, _, ⟨hzero, rfl⟩, decimals, _, hdecimals, scale, _, hscale,
    hfound⟩ := h
  obtain ⟨whole, rfl, hgrouped, hclass⟩ := groupedDigits_sound isDigit_eq hchars
  obtain ⟨fraction, rfl, hfraction, hpoint⟩ := fractionPart_sound hdecimals
  obtain ⟨exponent, rfl, hexponent, hmark⟩ := exponentPart_sound hscale
  have hwhole : Whole whole (chars.map digitValue) := by
    refine ⟨hgrouped, fun hhead => ?_⟩
    rw [List.head?_map, Option.map_eq_some_iff] at hhead
    obtain ⟨c, hc, hvalue⟩ := hhead
    obtain ⟨more, rfl⟩ := List.head?_eq_some_iff.mp hc
    have hfirst := eq_zero_of_digitValue (hclass c List.mem_cons_self) hvalue
    rcases hzero with hlength | hne
    · obtain rfl := List.eq_nil_of_length_eq_zero (Nat.succ.inj hlength)
      rw [List.map_cons, hvalue, List.map_nil]
    · exact absurd (congrArg some hfirst) hne
  split at hfound
  · rename_i hmarked
    obtain ⟨_, _, hrequire, hdone⟩ := Reads.bind_iff.mp hfound
    obtain ⟨hlimit, rfl⟩ := Reads.require_iff.mp hrequire
    obtain ⟨rfl, rfl⟩ := Reads.pure_iff.mp hdone
    refine ⟨whole ++ fraction ++ exponent, by simp, ?_⟩
    have hsize : negative = true ∨ ¬ Overflows
        (numberOf 10 (chars.map digitValue ++ (decimals.getD []).map digitValue))
        (scale.getD 0 - ((decimals.getD []).map digitValue).length) := by
      rw [← overflows_iff, ← List.map_append, ← valueOf_eq, List.length_map]
      simpa using hlimit
    have hsome : fraction ≠ [] ∨ exponent ≠ [] := by
      rw [← hpoint, ← hmark, ← Bool.or_eq_true]
      exact hmarked
    rw [← List.append_assoc, ← List.append_assoc]
    exact .number (.decimal hsign hwhole hfraction hexponent hsome (Or.inr hsize))
  · rename_i hmarked
    obtain ⟨_, _, hrequire, hdone⟩ := Reads.bind_iff.mp hfound
    obtain ⟨hrange, rfl⟩ := Reads.require_iff.mp hrequire
    obtain ⟨rfl, rfl⟩ := Reads.pure_iff.mp hdone
    have hnone : fraction = [] ∧ exponent = [] := by
      rw [Bool.or_eq_true, hpoint, hmark] at hmarked
      exact ⟨by_contra fun h => hmarked (Or.inl h), by_contra fun h => hmarked (Or.inr h)⟩
    obtain ⟨rfl, rfl⟩ := hnone
    refine ⟨whole, by simp, ?_⟩
    rw [isWord_iff, signed_eq, valueOf_eq] at hrange
    rw [Numeral.item, signed_eq, valueOf_eq]
    exact .integer (.decimal hsign hwhole) hrange

theorem stops_append {accepts : Char → Bool} {front : List Char} (hfront : Stops accepts front)
    (hrest : Stops accepts rest) : Stops accepts (front ++ rest) := by
  cases front with
  | nil => exact hrest
  | cons c more => exact hfront

theorem Grammar.Fraction.stops {digits : List Nat} (hspelled : Fraction spelled digits)
    {accepts : Char → Bool} (hpoint : accepts '.' = false) : Stops accepts spelled := by
  cases hspelled with
  | none => rintro _ ⟨⟩
  | some _ =>
      rintro _ ⟨⟩
      exact hpoint

theorem Grammar.Exponent.stops {scale : Int} (hspelled : Exponent spelled scale)
    {accepts : Char → Bool} (hsmall : accepts 'e' = false) (hlarge : accepts 'E' = false) :
    Stops accepts spelled := by
  cases hspelled with
  | none => rintro _ ⟨⟩
  | some hletter _ _ =>
      rintro _ ⟨⟩
      rcases hletter with rfl | rfl
      · exact hsmall
      · exact hlarge

end Decimal

section Complete

variable {sign whole fraction exponent rest : List Char} {negative : Bool}
  {digits decimals : List Nat} {scale : Int}

theorem length_eq_one_or_of_map {chars : List Char} (hchars : chars.map digitValue = digits)
    (hzero : digits.head? = some 0 → digits = [0]) :
    chars.length = 1 ∨ chars.head? ≠ some '0' := by
  by_cases hhead : chars.head? = some '0'
  · have hfirst : digits.head? = some 0 := by
      rw [← hchars, List.head?_map, hhead]
      rfl
    refine Or.inl ?_
    rw [← List.length_map digitValue, hchars, hzero hfirst]
    rfl
  · exact Or.inr hhead

/-- The digits in front of a fraction, an exponent or the end of a value are read as a whole. -/
theorem whole_complete (hwhole : Whole whole digits) {tail : List Char}
    (htail : Stops (isGroupedOf 10) tail) :
    ∃ found, Reads (groupedDigits Char.isDigit) (whole ++ tail) found tail
      ∧ found.map digitValue = digits ∧ (found.length = 1 ∨ found.head? ≠ some '0') := by
  obtain ⟨hspelled, hzero⟩ := hwhole
  obtain ⟨found, hread, hdigits⟩ := groupedDigits_complete isDigit_eq hspelled htail
  exact ⟨found, hread, hdigits, length_eq_one_or_of_map hdigits hzero⟩

theorem decimal_complete_integer (hwhole : Whole whole digits)
    (hrange : InRange (withSign negative (numberOf 10 digits))) (hrest : Ends rest) :
    Reads (decimal negative) (whole ++ rest)
      (.integer (withSign negative (numberOf 10 digits))) rest := by
  obtain ⟨found, hread, rfl, hzero⟩ := whole_complete hwhole (hrest.stops rfl)
  obtain ⟨fraction, hfraction, _, hpoint⟩ := fractionPart_complete .none (hrest.stops rfl)
  obtain ⟨exponent, hexponent, _, hmark⟩ := exponentPart_complete .none (hrest.stops rfl)
  have hmarked : ¬ (fraction.isSome || exponent.isSome) = true := by
    rw [Bool.or_eq_true, hpoint, hmark]
    simp
  refine .bind hread (.bind (.require hzero _) (.bind hfraction (.bind hexponent ?_)))
  rw [← valueOf_eq, ← signed_eq] at hrange ⊢
  rw [if_neg hmarked]
  exact .bind (.require (isWord_iff.mpr hrange) _) (.pure _ _)

theorem decimal_complete_number (hwhole : Whole whole digits)
    (hfraction : Fraction fraction decimals) (hexponent : Exponent exponent scale)
    (hmarked : fraction ≠ [] ∨ exponent ≠ [])
    (hsize : negative = true
      ∨ ¬ Overflows (numberOf 10 (digits ++ decimals)) (scale - decimals.length))
    (hrest : Ends rest) :
    ∃ size, Reads (decimal negative) (whole ++ (fraction ++ (exponent ++ rest)))
      (.number size) rest := by
  have hexponentTail : Stops (fun c => isGroupedOf 10 c || c = '.') (exponent ++ rest) :=
    stops_append (hexponent.stops rfl rfl) (hrest.stops rfl)
  have hwholeTail : Stops (isGroupedOf 10) (fraction ++ (exponent ++ rest)) :=
    stops_append (hfraction.stops rfl) (stops_append (hexponent.stops rfl rfl) (hrest.stops rfl))
  obtain ⟨chars, hchars, rfl, hzero⟩ := whole_complete hwhole hwholeTail
  obtain ⟨behind, hbehind, rfl, hpoint⟩ := fractionPart_complete hfraction hexponentTail
  obtain ⟨power, hpower, rfl, hmark⟩ := exponentPart_complete hexponent (hrest.stops rfl)
  have hsome : (behind.isSome || power.isSome) = true := by
    rw [Bool.or_eq_true, hpoint, hmark]
    exact hmarked
  rw [← List.map_append, ← valueOf_eq, List.length_map, ← overflows_iff] at hsize
  apply Exists.intro
  refine .bind hchars (.bind (.require hzero _) (.bind hbehind (.bind hpower ?_)))
  rw [if_pos hsome]
  exact .bind (.require (by simpa using hsize) _) (.pure _ _)

/-- No mark of another base, of a date or of a time stands behind the digits at the front. -/
def Unmarked (input : List Char) : Prop :=
  ∀ front c more, front ≠ [] → (∀ digit ∈ front, isGroupedOf 10 digit = true) →
    c ∈ ['x', 'o', 'b', '-', ':'] → input ≠ front ++ c :: more

theorem unmarked_of_head? {input : List Char}
    (hinput : ∀ c ∈ input.head?, isGroupedOf 10 c = false) : Unmarked input := by
  rintro front c more hne hfront - rfl
  obtain ⟨first, other, rfl⟩ := List.exists_cons_of_ne_nil hne
  have hfirst := hinput first rfl
  rw [hfront first List.mem_cons_self] at hfirst
  cases hfirst

theorem unmarked_whole (hwhole : Whole whole digits) {tail : List Char}
    (htail : Stops (fun c => isGroupedOf 10 c || ['x', 'o', 'b', '-', ':'].contains c) tail) :
    Unmarked (whole ++ tail) := by
  obtain ⟨hspelled, _⟩ := hwhole
  intro front c more _ hfront hc heq
  have hdigits : Stops (isGroupedOf 10) tail := fun other hother =>
    (Bool.or_eq_false_iff.mp (htail other hother)).1
  have hmark : isGroupedOf 10 c = false := by
    have hmarks : ['x', 'o', 'b', '-', ':'].all (!isGroupedOf 10 ·) = true := by decide
    simpa using List.all_eq_true.mp hmarks c hc
  obtain rfl := eq_of_append_eq_append hfront hmark hspelled.isGroupedOf hdigits heq.symm
  have hcontains := (Bool.or_eq_false_iff.mp (htail c rfl)).2
  rw [List.contains_iff_mem.mpr hc] at hcontains
  cases hcontains

theorem unmarked_sign {tail : List Char} (hsign : Sign sign negative) (htail : Unmarked tail) :
    Unmarked (sign ++ tail) := by
  cases hsign with
  | none => exact htail
  | plus | minus =>
      refine unmarked_of_head? ?_
      rintro _ ⟨⟩
      rfl

theorem Unmarked.accept_false {input : List Char} (hinput : Unmarked input) {letter : Char}
    {base : Nat} (hletter : (letter, base) ∈ baseSigns) :
    ¬ ['0', letter] <+: input := by
  rintro ⟨more, rfl⟩
  have hmark : letter ∈ ['x', 'o', 'b', '-', ':'] := by
    simp only [baseSigns, List.mem_cons, Prod.mk.injEq, List.not_mem_nil, or_false] at hletter
    rcases hletter with ⟨rfl, -⟩ | ⟨rfl, -⟩ | ⟨rfl, -⟩ <;> decide
  have hzero : ∀ digit ∈ ['0'], isGroupedOf 10 digit = true :=
    List.forall_mem_singleton.mpr (by decide)
  exact hinput ['0'] letter more (by simp) hzero hmark rfl

/-- A number without the sign of another base is read from its sign on. -/
theorem Unmarked.numeral {input : List Char} (hinput : Unmarked input) {found : Numeral}
    {tail : List Char} (hsign : Reads Toml.sign input negative tail)
    (hfound : Reads (unsignedNumeral negative) tail found rest) :
    Reads numeral input found rest :=
  .bind (.accept_false (hinput.accept_false (.head _)))
    (.bind (.accept_false (hinput.accept_false (.tail _ (.head _))))
      (.bind (.accept_false (hinput.accept_false (.tail _ (.tail _ (.head _)))))
        (.bind hsign hfound)))

/-- A number in another base is marked as such. -/
theorem based_complete {letter : Char} {base : Nat} (hletter : (letter, base) ∈ baseSigns)
    (hspelled : Grouped base whole digits) (hrange : InRange (numberOf base digits))
    (hrest : Ends rest) :
    Reads numeral ('0' :: letter :: whole ++ rest) (.integer (numberOf base digits)) rest := by
  have hstop : ∀ base ∈ [16, 8, 2], Stops (isGroupedOf base) rest := by
    intro base hbase
    refine hrest.stops ?_
    revert base
    decide
  have hbase : base ∈ [16, 8, 2] := by
    simp only [baseSigns, List.mem_cons, Prod.mk.injEq, List.not_mem_nil, or_false] at hletter
    rcases hletter with ⟨-, rfl⟩ | ⟨-, rfl⟩ | ⟨-, rfl⟩ <;> decide
  obtain ⟨found, hread, rfl⟩ := groupedDigits_complete (fun _ => rfl) hspelled (hstop base hbase)
  rw [← valueOf_eq] at hrange ⊢
  have hbased : Reads (basedInteger base) (whole ++ rest) (.integer (valueOf base found)) rest :=
    .bind hread (.bind (.require (isWord_iff.mpr hrange) _) (.pure _ _))
  have hother : ∀ {other : Char}, other ≠ letter →
      ¬ ['0', other] <+: '0' :: letter :: (whole ++ rest) := by
    intro other hne h
    exact hne (List.cons_prefix_cons.mp (List.cons_prefix_cons.mp h).2).1
  simp only [baseSigns, List.mem_cons, Prod.mk.injEq, List.not_mem_nil, or_false] at hletter
  rcases hletter with ⟨rfl, rfl⟩ | ⟨rfl, rfl⟩ | ⟨rfl, rfl⟩
  · exact .bind (.accept_true "0x" _) hbased
  · exact .bind (.accept_false (hother (by decide))) (.bind (.accept_true "0o" _) hbased)
  · exact .bind (.accept_false (hother (by decide))) (.bind (.accept_false (hother (by decide)))
      (.bind (.accept_true "0b" _) hbased))

theorem stops_mark (hfraction : Fraction fraction decimals) (hexponent : Exponent exponent scale)
    (hrest : Ends rest) :
    Stops (fun c => isGroupedOf 10 c || ['x', 'o', 'b', '-', ':'].contains c)
      (fraction ++ (exponent ++ rest)) :=
  stops_append (hfraction.stops rfl) (stops_append (hexponent.stops rfl rfl) (hrest.stops rfl))

/-- Digits are no word. -/
theorem not_startsWith_word (hwhole : Whole whole digits) {c : Char} (hc : isGroupedOf 10 c = false)
    (word tail : List Char) : ¬ c :: word <+: whole ++ tail := by
  obtain ⟨hspelled, _⟩ := hwhole
  have hclass := hspelled.isGroupedOf
  have hfirst : ∀ {first more}, whole = first :: more → ¬ c :: word <+: whole ++ tail := by
    rintro first more rfl h
    obtain rfl := (List.cons_prefix_cons.mp h).1
    rw [hclass c List.mem_cons_self] at hc
    cases hc
  cases hspelled with
  | one _ | next _ _ | apart _ _ => exact hfirst rfl

theorem unsignedNumeral_complete (hwhole : Whole whole digits) {tail : List Char}
    {found : Numeral} (h : Reads (decimal negative) (whole ++ tail) found rest) :
    Reads (unsignedNumeral negative) (whole ++ tail) found rest :=
  .bind (.accept_false (not_startsWith_word hwhole rfl _ tail))
    (.bind (.accept_false (not_startsWith_word hwhole rfl _ tail)) h)

theorem Grammar.Whole.head?_ne_sign (hwhole : Whole whole digits) (tail : List Char) :
    ∀ c ∈ (whole ++ tail).head?, c ≠ '+' ∧ c ≠ '-' := by
  obtain ⟨hspelled, _⟩ := hwhole
  exact hspelled.head?_ne_sign tail

theorem integer_unmarked (hsign : Sign sign negative) (hwhole : Whole whole digits)
    (hrest : Ends rest) : Unmarked (sign ++ whole ++ rest) := by
  rw [List.append_assoc]
  exact unmarked_sign hsign (unmarked_whole hwhole (stops_mark .none .none hrest))

theorem integer_complete {spelled : List Char} {value : Int} (hspelled : IntegerText spelled value)
    (hrange : InRange value) (hrest : Ends rest) :
    Reads numeral (spelled ++ rest) (.integer value) rest := by
  cases hspelled with
  | decimal hsign hwhole =>
      have hunmarked := integer_unmarked hsign hwhole hrest
      rw [List.append_assoc] at hunmarked ⊢
      exact hunmarked.numeral (sign_complete hsign (hwhole.head?_ne_sign rest))
        (unsignedNumeral_complete hwhole (decimal_complete_integer hwhole hrange hrest))
  | based hletter hdigits => exact based_complete hletter hdigits hrange hrest

theorem number_unmarked {spelled : List Char} (hspelled : NumberText .reading spelled)
    (hrest : Ends rest) : Unmarked (spelled ++ rest) := by
  cases hspelled with
  | decimal hsign hwhole hfraction hexponent _ _ =>
      simp only [List.append_assoc]
      exact unmarked_sign hsign (unmarked_whole hwhole (stops_mark hfraction hexponent hrest))
  | named hsign hname =>
      rw [List.append_assoc]
      refine unmarked_sign hsign (unmarked_of_head? ?_)
      rcases hname with rfl | rfl
      · rintro _ ⟨⟩
        rfl
      · rintro _ ⟨⟩
        rfl

theorem number_complete {spelled : List Char} (hspelled : NumberText .reading spelled)
    (hrest : Ends rest) : ∃ size, Reads numeral (spelled ++ rest) (.number size) rest := by
  have hunmarked := number_unmarked hspelled hrest
  cases hspelled with
  | decimal hsign hwhole hfraction hexponent hmarked hsize =>
      have hlimit := hsize.resolve_left Bool.false_ne_true
      obtain ⟨size, hread⟩ :=
        decimal_complete_number hwhole hfraction hexponent hmarked hlimit hrest
      simp only [List.append_assoc] at hunmarked ⊢
      exact ⟨size, hunmarked.numeral (sign_complete hsign (hwhole.head?_ne_sign _))
        (unsignedNumeral_complete hwhole hread)⟩
  | @named sign name negative hsign hname =>
      rw [List.append_assoc] at hunmarked ⊢
      have hhead : ∀ c ∈ (name ++ rest).head?, c ≠ '+' ∧ c ≠ '-' := by
        rcases hname with rfl | rfl
        · rintro _ ⟨⟩
          decide
        · rintro _ ⟨⟩
          decide
      rcases hname with rfl | rfl
      · exact ⟨_, hunmarked.numeral (sign_complete hsign hhead)
          (.bind (.accept_true "inf" rest) (.pure _ _))⟩
      · have hinf : ¬ "inf".toList <+: ['n', 'a', 'n'] ++ rest := not_prefix_of_ne (by decide) _
        exact ⟨_, hunmarked.numeral (sign_complete hsign hhead)
          (.bind (.accept_false hinf) (.bind (.accept_true "nan" rest) (.pure _ _)))⟩

end Complete

section Sound

variable {input rest : List Char} {found : Numeral}

theorem basedInteger_sound {letter : Char} {base : Nat} (hletter : (letter, base) ∈ baseSigns)
    (h : Reads (basedInteger base) input found rest) :
    ∃ spelled, input = spelled ++ rest ∧ Scalar .reading ('0' :: letter :: spelled) found.item := by
  simp only [basedInteger, Reads.bind_iff, Reads.require_iff, Reads.pure_iff] at h
  obtain ⟨digits, _, hdigits, _, _, ⟨hrange, rfl⟩, rfl, rfl⟩ := h
  obtain ⟨spelled, rfl, hspelled, _⟩ := groupedDigits_sound (fun _ => rfl) hdigits
  rw [isWord_iff, valueOf_eq] at hrange
  rw [Numeral.item, valueOf_eq]
  exact ⟨spelled, rfl, .integer (.based hletter hspelled) hrange⟩

theorem unsignedNumeral_sound {sign : List Char} {negative : Bool} (hsign : Sign sign negative)
    (h : Reads (unsignedNumeral negative) input found rest) :
    ∃ spelled, input = spelled ++ rest ∧ Scalar .reading (sign ++ spelled) found.item := by
  obtain ⟨_, _, hinf, hother⟩ := Reads.bind_iff.mp h
  rcases Reads.accept_iff.mp hinf with ⟨rfl, rfl⟩ | ⟨rfl, _, rfl⟩
  · obtain ⟨rfl, rfl⟩ := Reads.pure_iff.mp hother
    exact ⟨['i', 'n', 'f'], rfl, .number (.named hsign (Or.inl rfl))⟩
  · obtain ⟨_, _, hnan, hdecimal⟩ := Reads.bind_iff.mp hother
    rcases Reads.accept_iff.mp hnan with ⟨rfl, rfl⟩ | ⟨rfl, _, rfl⟩
    · obtain ⟨rfl, rfl⟩ := Reads.pure_iff.mp hdecimal
      exact ⟨['n', 'a', 'n'], rfl, .number (.named hsign (Or.inr rfl))⟩
    · exact decimal_sound hsign hdecimal

theorem numeral_sound (h : Reads numeral input found rest) :
    ∃ spelled, input = spelled ++ rest ∧ Scalar .reading spelled found.item := by
  have based {letter : Char} {base : Nat} {middle : List Char}
      (hletter : (letter, base) ∈ baseSigns) (hread : Reads (basedInteger base) middle found rest) :
      ∃ spelled, '0' :: letter :: middle = spelled ++ rest
        ∧ Scalar .reading spelled found.item := by
    obtain ⟨spelled, rfl, hspelled⟩ := basedInteger_sound hletter hread
    exact ⟨'0' :: letter :: spelled, rfl, hspelled⟩
  obtain ⟨_, _, hsixteen, hnext⟩ := Reads.bind_iff.mp h
  rcases Reads.accept_iff.mp hsixteen with ⟨rfl, rfl⟩ | ⟨rfl, _, rfl⟩
  · exact based (.head _) hnext
  obtain ⟨_, _, height, hlater⟩ := Reads.bind_iff.mp hnext
  rcases Reads.accept_iff.mp height with ⟨rfl, rfl⟩ | ⟨rfl, _, rfl⟩
  · exact based (.tail _ (.head _)) hlater
  obtain ⟨_, _, htwo, hlast⟩ := Reads.bind_iff.mp hlater
  rcases Reads.accept_iff.mp htwo with ⟨rfl, rfl⟩ | ⟨rfl, _, rfl⟩
  · exact based (.tail _ (.tail _ (.head _))) hlast
  obtain ⟨negative, _, hsign, hunsigned⟩ := Reads.bind_iff.mp hlast
  obtain ⟨sign, rfl, hsigned⟩ := sign_sound hsign
  obtain ⟨spelled, rfl, hspelled⟩ := unsignedNumeral_sound hsigned hunsigned
  exact ⟨sign ++ spelled, by simp, hspelled⟩

end Sound
end PadBridge.Toml
