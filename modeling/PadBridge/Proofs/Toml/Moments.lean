import Mathlib.Tactic.IntervalCases
import PadBridge.Proofs.Toml.Numerals
import PadBridge.Proofs.Toml.Keys
import PadBridge.Proofs.Toml.Tables

/-!
Dates and times are read as the grammar has them, and no number is taken for one.
-/

namespace PadBridge.Toml

open Grammar

variable {input rest spelled : List Char}

section Fixed

variable {count : Nat}

theorem digits_iff {digits : List Nat} :
    Digits 10 spelled digits ↔
      (∀ c ∈ spelled, c.isDigit = true) ∧ spelled.map digitValue = digits := by
  constructor
  · intro h
    induction h with
    | nil => exact ⟨by simp, rfl⟩
    | cons hc _ ih =>
        obtain ⟨hdigit, hvalue⟩ := isDigit_iff.mpr hc
        exact ⟨List.forall_mem_cons.mpr ⟨hdigit, ih.1⟩, by rw [List.map_cons, hvalue, ih.2]⟩
  · rintro ⟨hclass, rfl⟩
    induction spelled with
    | nil => exact .nil
    | cons c more ih =>
        obtain ⟨hc, hmore⟩ := List.forall_mem_cons.mp hclass
        exact .cons (isDigit_iff.mp ⟨hc, rfl⟩) (ih hmore)

theorem Grammar.Fixed.isDigit {value : Nat} (hspelled : Fixed count spelled value) :
    spelled.length = count ∧ ∀ c ∈ spelled, c.isDigit = true := by
  obtain ⟨hdigits, hcount⟩ := hspelled
  obtain ⟨hclass, rfl⟩ := digits_iff.mp hdigits
  exact ⟨by rw [← hcount, List.length_map], hclass⟩

/-- A fixed number of digits ends by itself. -/
theorem fixedDigits_iff {value : Nat} :
    Reads (fixedDigits count) input value rest ↔
      ∃ spelled, input = spelled ++ rest ∧ Fixed count spelled value := by
  rw [fixedDigits, Reads.ofFunction_iff]
  constructor
  · intro h
    simp only at h
    split at h
    · rename_i hdigits
      cases h
      refine ⟨input.take count, (List.take_append_drop count input).symm, ?_⟩
      rw [valueOf_eq]
      exact .mk (digits_iff.mpr ⟨List.all_eq_true.mp hdigits.2, rfl⟩)
        (by rw [List.length_map, hdigits.1])
    · cases h
  · rintro ⟨spelled, rfl, hspelled⟩
    obtain ⟨hlength, hclass⟩ := hspelled.isDigit
    obtain ⟨hdigits, -⟩ := hspelled
    obtain ⟨-, rfl⟩ := digits_iff.mp hdigits
    rw [List.take_left' hlength, List.drop_left' hlength,
      if_pos ⟨hlength, List.all_eq_true.mpr hclass⟩, valueOf_eq]

theorem fixedDigitsUpTo_iff {limit : Nat} {done : Unit} :
    Reads (fixedDigitsUpTo count limit) input done rest ↔
      ∃ spelled value, input = spelled ++ rest ∧ Fixed count spelled value ∧ value ≤ limit := by
  simp only [fixedDigitsUpTo, Reads.bind_iff, Reads.require_iff, fixedDigits_iff]
  constructor
  · rintro ⟨value, _, ⟨spelled, rfl, hspelled⟩, hlimit, rfl⟩
    exact ⟨spelled, value, rfl, hspelled, hlimit⟩
  · rintro ⟨spelled, value, rfl, hspelled, hlimit⟩
    exact ⟨value, rest, ⟨spelled, rfl, hspelled⟩, hlimit, rfl⟩

end Fixed

section Date

theorem daysOfMonths_getElem? {year month days : Nat} :
    (daysOfMonths year)[month]? = some days ↔
      month < 12 ∧ days = daysOfMonth year (month + 1) := by
  by_cases hmonth : month < 12
  · have hdays : (daysOfMonths year)[month]? = some (daysOfMonth year (month + 1)) := by
      interval_cases month <;> rfl
    rw [hdays, Option.some.injEq, eq_comm]
    exact (and_iff_right hmonth).symm
  · have hlength : (daysOfMonths year).length ≤ month := Nat.not_lt.mp hmonth
    rw [List.getElem?_eq_none hlength]
    exact iff_of_false (by simp) fun h => hmonth h.1

theorem date_iff {done : Unit} :
    Reads date input done rest ↔ ∃ spelled, input = spelled ++ rest ∧ DateText spelled := by
  simp only [date, Reads.bind_iff, Reads.require_iff, Reads.exact_iff, fixedDigits_iff]
  constructor
  · rintro ⟨year, _, ⟨yearText, rfl, hyear⟩, _, _, rfl, number, _, ⟨monthText, rfl, hmonth⟩, _, _,
      ⟨⟨hfirst, hlast⟩, rfl⟩, _, _, rfl, day, _, ⟨dayText, rfl, hday⟩, ⟨hone, hdays⟩, rfl⟩
    obtain ⟨month, rfl⟩ := Nat.exists_eq_succ_of_ne_zero (Nat.one_le_iff_ne_zero.mp hfirst)
    exact ⟨yearText ++ '-' :: monthText ++ '-' :: dayText, by simp,
      .mk hyear hmonth hday (daysOfMonths_getElem?.mpr ⟨hlast, rfl⟩) hone hdays⟩
  · rintro ⟨_, rfl, hyear, hmonth, hday, hdays, hone, hlast⟩
    rename_i yearText monthText dayText year month day days
    obtain ⟨htwelve, rfl⟩ := daysOfMonths_getElem?.mp hdays
    exact ⟨year, _, ⟨yearText, by simp, hyear⟩, (), _, rfl, month + 1, _,
      ⟨monthText, rfl, hmonth⟩, (), _, ⟨⟨Nat.succ_pos month, htwelve⟩, rfl⟩, (), _, rfl, day, rest,
      ⟨dayText, rfl, hday⟩, ⟨hone, hlast⟩, rfl⟩

end Date

section Time

theorem hourAndMinute_iff {done : Unit} :
    Reads hourAndMinute input done rest ↔
      ∃ spelled, input = spelled ++ rest ∧ HourText spelled := by
  simp only [hourAndMinute, Reads.bind_iff, Reads.exact_iff, fixedDigitsUpTo_iff]
  constructor
  · rintro ⟨_, _, ⟨hourText, hour, rfl, hhour, hhours⟩, _, _, rfl, minuteText, minute, rfl, hminute,
      hminutes⟩
    exact ⟨hourText ++ ':' :: minuteText, by simp, .mk hhour hminute hhours hminutes⟩
  · rintro ⟨_, rfl, hhour, hminute, hhours, hminutes⟩
    exact ⟨(), _, ⟨_, _, by simp, hhour, hhours⟩, (), _, rfl, _, _, rfl, hminute, hminutes⟩

theorem time_sound {done : Unit} (h : Reads time input done rest) :
    ∃ spelled, input = spelled ++ rest ∧ TimeText spelled := by
  simp only [time, Reads.bind_iff, Reads.exact_iff, fixedDigitsUpTo_iff, hourAndMinute_iff] at h
  obtain ⟨_, _, ⟨hour, rfl, hhour⟩, _, _, rfl, _, _, ⟨secondText, second, rfl, hsecond, hseconds⟩,
    _, _, hpoint, hdigits⟩ := h
  rcases Reads.accept_iff.mp hpoint with ⟨rfl, rfl⟩ | ⟨rfl, _, rfl⟩
  · simp only [if_true, Reads.bind_iff, Reads.run_iff, Reads.require_iff] at hdigits
    obtain ⟨digits, _, ⟨rfl, hclass, _⟩, hne, rfl⟩ := hdigits
    exact ⟨hour ++ ':' :: secondText ++ '.' :: digits, by simp,
      .mk hhour hsecond hseconds (.some (digits_iff.mpr ⟨hclass, rfl⟩) hne)⟩
  · obtain ⟨-, rfl⟩ := Reads.pure_iff.mp hdigits
    exact ⟨hour ++ ':' :: secondText ++ [], by simp, .mk hhour hsecond hseconds .none⟩

theorem time_complete (hspelled : TimeText spelled)
    (hrest : Stops (fun c => c.isDigit || c = '.') rest) :
    Reads time (spelled ++ rest) () rest := by
  obtain ⟨hhour, hsecond, hseconds, hsubsecond⟩ := hspelled
  rename_i hour secondText subsecond second
  have hinput : hour ++ ':' :: secondText ++ subsecond ++ rest =
      hour ++ ':' :: (secondText ++ (subsecond ++ rest)) := by simp
  have hfirst : Reads hourAndMinute (hour ++ ':' :: (secondText ++ (subsecond ++ rest))) ()
      (':' :: (secondText ++ (subsecond ++ rest))) := hourAndMinute_iff.mpr ⟨hour, rfl, hhour⟩
  have hnext : Reads (fixedDigitsUpTo 2 60) (secondText ++ (subsecond ++ rest)) ()
      (subsecond ++ rest) := fixedDigitsUpTo_iff.mpr ⟨secondText, second, rfl, hsecond, hseconds⟩
  rw [hinput]
  refine .bind hfirst (.bind (.exact ":" _) (.bind hnext ?_))
  cases hsubsecond with
  | none =>
      have hpoint : ¬ ".".toList <+: rest := by
        rintro ⟨more, rfl⟩
        cases hrest '.' rfl
      exact .bind (.accept_false hpoint) (.pure _ _)
  | @some digitText digits hdigits hne =>
      have hclass := (digits_iff.mp hdigits).1
      have hstop : Stops Char.isDigit rest := fun c hc => (Bool.or_eq_false_iff.mp (hrest c hc)).1
      exact .bind (.accept_true "." (digitText ++ rest))
        (.bind (Reads.run_iff.mpr ⟨rfl, hclass, hstop⟩) (.require hne _))

end Time

section Offset

theorem isOffsetSign_iff {c : Char} : isOffsetSign c = true ↔ c = '+' ∨ c = '-' := by
  simp [isOffsetSign]

theorem offset_sound {done : Unit} (h : Reads offset input done rest) :
    ∃ spelled, input = spelled ++ rest ∧ OffsetText spelled := by
  obtain ⟨_, _, hfront, hnext⟩ := Reads.bind_iff.mp h
  obtain ⟨rfl, rfl⟩ := Reads.front_iff.mp hfront
  split at hnext
  · rename_i c hc
    split at hnext
    · rename_i hzulu
      simp only [Reads.bind_iff, Reads.one_iff, Reads.pure_iff] at hnext
      obtain ⟨other, _, ⟨_, rfl⟩, -, rfl⟩ := hnext
      cases hc
      exact ⟨[c], rfl, .zulu hzulu⟩
    · split at hnext
      · rename_i hsign
        simp only [Reads.bind_iff, Reads.one_iff, hourAndMinute_iff] at hnext
        obtain ⟨other, _, ⟨_, rfl⟩, hour, rfl, hhour⟩ := hnext
        cases hc
        exact ⟨c :: hour, rfl, .hours (isOffsetSign_iff.mp hsign) hhour⟩
      · obtain ⟨-, rfl⟩ := Reads.pure_iff.mp hnext
        exact ⟨[], rfl, .none⟩
  · obtain ⟨-, rfl⟩ := Reads.pure_iff.mp hnext
    exact ⟨[], rfl, .none⟩

theorem offset_complete (hspelled : OffsetText spelled)
    (hrest : Stops (fun c => c = 'Z' || c = 'z' || isOffsetSign c) rest) :
    Reads offset (spelled ++ rest) () rest := by
  refine .bind (.front _) ?_
  cases hspelled with
  | none =>
      cases rest with
      | nil => exact .pure _ _
      | cons c more =>
          have hc := hrest c rfl
          simp only [Bool.or_eq_false_iff, decide_eq_false_iff_not] at hc
          simp only [List.nil_append, List.head?_cons]
          rw [if_neg (by simp [hc.1.1, hc.1.2]), if_neg (by simp [hc.2])]
          exact .pure _ _
  | @zulu letter hletter =>
      simp only [List.cons_append, List.head?_cons]
      rw [if_pos hletter]
      exact .bind (Reads.one_iff.mpr ⟨rfl, rfl⟩) (.pure _ _)
  | @hours sign hour hsign hhour =>
      have hzulu : ¬ (sign = 'Z' ∨ sign = 'z') := by
        rcases hsign with rfl | rfl <;> decide
      simp only [List.cons_append, List.head?_cons]
      rw [if_neg hzulu, if_pos (isOffsetSign_iff.mpr hsign)]
      exact .bind (Reads.one_iff.mpr ⟨isOffsetSign_iff.mpr hsign, rfl⟩)
        (hourAndMinute_iff.mpr ⟨hour, rfl, hhour⟩)

end Offset

section Both

/-- Digits that are followed by a mark. -/
theorem marked_iff {count : Nat} {c : Char} :
    ((input.take count).all Char.isDigit && input[count]? = some c) = true ↔
      ∃ front more, input = front ++ c :: more ∧ front.length = count
        ∧ ∀ digit ∈ front, digit.isDigit = true := by
  rw [Bool.and_eq_true, List.all_eq_true, decide_eq_true_eq]
  constructor
  · rintro ⟨hclass, hmark⟩
    obtain ⟨hcount, hc⟩ := List.getElem?_eq_some_iff.mp hmark
    refine ⟨input.take count, input.drop (count + 1), ?_, List.length_take_of_le hcount.le, hclass⟩
    rw [← hc, ← List.drop_eq_getElem_cons hcount, List.take_append_drop]
  · rintro ⟨front, more, rfl, rfl, hclass⟩
    rw [List.take_left]
    exact ⟨hclass, by simp⟩

theorem Unmarked.not_marked (hinput : Unmarked input) {count : Nat} {c : Char} (hcount : 0 < count)
    (hc : c ∈ ['x', 'o', 'b', '-', ':']) :
    ((input.take count).all Char.isDigit && input[count]? = some c) = false := by
  refine Bool.eq_false_iff.mpr fun hmarked => ?_
  obtain ⟨front, more, hfront, hlength, hclass⟩ := marked_iff.mp hmarked
  refine hinput front c more (List.ne_nil_of_length_pos (by omega)) (fun digit hdigit => ?_) hc
    hfront
  rw [isGroupedOf, ← isDigit_eq, hclass digit hdigit]
  rfl

theorem Grammar.HourText.exists_cons (hspelled : HourText spelled) :
    ∃ first second more, spelled = first :: second :: ':' :: more ∧ first.isDigit = true
      ∧ second.isDigit = true := by
  obtain ⟨hhour, -, -, -⟩ := hspelled
  rename_i hourText minuteText hour minute
  obtain ⟨hlength, hclass⟩ := hhour.isDigit
  match hourText, hlength with
  | [first, second], _ =>
      exact ⟨first, second, minuteText, rfl, hclass first (by simp), hclass second (by simp)⟩

theorem Grammar.TimeText.exists_cons (hspelled : TimeText spelled) :
    ∃ first second more, spelled = first :: second :: ':' :: more ∧ first.isDigit = true
      ∧ second.isDigit = true := by
  obtain ⟨hhour, -, -, -⟩ := hspelled
  obtain ⟨first, second, more, rfl, hfirst, hsecond⟩ := hhour.exists_cons
  exact ⟨first, second, _, rfl, hfirst, hsecond⟩

theorem timeStarts_time (hspelled : TimeText spelled) (rest : List Char) :
    timeStarts (spelled ++ rest) = true := by
  obtain ⟨first, second, more, rfl, hfirst, hsecond⟩ := hspelled.exists_cons
  refine marked_iff.mpr ⟨[first, second], more ++ rest, rfl, rfl, ?_⟩
  simp [hfirst, hsecond]

theorem dateStarts_date (hspelled : DateText spelled) (rest : List Char) :
    dateStarts (spelled ++ rest) = true := by
  obtain ⟨hyear, -, -, -, -, -⟩ := hspelled
  rename_i yearText monthText dayText _ _ _ _
  obtain ⟨hlength, hclass⟩ := hyear.isDigit
  exact marked_iff.mpr ⟨yearText, monthText ++ '-' :: dayText ++ rest, by simp, hlength, hclass⟩

/-- A time starts with two digits only. -/
theorem dateStarts_time (hspelled : TimeText spelled) (rest : List Char) :
    dateStarts (spelled ++ rest) = false := by
  obtain ⟨first, second, more, rfl, -, -⟩ := hspelled.exists_cons
  simp [dateStarts]

theorem timeFollows_iff : timeFollows input = true ↔
    ∃ separator first second more, input = separator :: first :: second :: ':' :: more
      ∧ separator ∈ ['T', 't', ' '] ∧ first.isDigit = true ∧ second.isDigit = true := by
  constructor
  · intro h
    unfold timeFollows at h
    split at h
    · rename_i separator first second more
      simp only [Bool.and_eq_true, Bool.or_eq_true, decide_eq_true_eq] at h
      exact ⟨separator, first, second, more, rfl, by simpa [or_assoc] using h.1.1, h.1.2, h.2⟩
    · cases h
  · rintro ⟨separator, first, second, more, rfl, hseparator, hfirst, hsecond⟩
    rw [timeFollows, hfirst, hsecond]
    simpa [or_assoc] using hseparator

theorem timeFollows_of_ends (hrest : Ends rest) : timeFollows rest = false := by
  refine Bool.eq_false_iff.mpr fun h => ?_
  obtain ⟨separator, first, second, more, rfl, hseparator, hfirst, -⟩ := timeFollows_iff.mp h
  have hdigit : isBlank first = false ∧ first ∉ ['\n', '\r', '#', ',', ']', '\x7d'] := by
    constructor
    · refine Bool.eq_false_iff.mpr fun hblank => ?_
      rcases isBlank_iff.mp hblank with rfl | rfl <;> cases hfirst
    · intro hmem
      simp only [List.mem_cons, List.not_mem_nil, or_false] at hmem
      rcases hmem with rfl | rfl | rfl | rfl | rfl | rfl <;> cases hfirst
  simp only [List.mem_cons, List.not_mem_nil, or_false] at hseparator
  rcases hseparator with rfl | rfl | rfl
  · exact absurd (hrest 'T' rfl) (by decide)
  · exact absurd (hrest 't' rfl) (by decide)
  · refine hdigit.2 (hrest first ?_)
    rw [List.dropWhile_cons_of_pos rfl, List.dropWhile_cons_of_neg (by simp [hdigit.1])]
    rfl

theorem dateAndTime_sound {done : Unit} (h : Reads dateAndTime input done rest) :
    ∃ spelled, input = spelled ++ rest ∧ MomentText spelled := by
  simp only [dateAndTime, Reads.bind_iff, date_iff, Reads.get_iff] at h
  obtain ⟨_, _, ⟨date, rfl, hdate⟩, _, _, ⟨rfl, rfl⟩, hnext⟩ := h
  split at hnext
  · rename_i hfollows
    obtain ⟨separator, first, second, more, rfl, hseparator, -, -⟩ := timeFollows_iff.mp hfollows
    simp only [Reads.bind_iff, Reads.one_iff] at hnext
    obtain ⟨other, _, ⟨-, hother⟩, _, _, htime, hoffset⟩ := hnext
    cases hother
    obtain ⟨time, htaken, hspelled⟩ := time_sound htime
    obtain ⟨offset, rfl, hlast⟩ := offset_sound hoffset
    exact ⟨date ++ separator :: time ++ offset, by rw [htaken]; simp,
      .both hdate hseparator hspelled hlast⟩
  · obtain ⟨-, rfl⟩ := Reads.pure_iff.mp hnext
    exact ⟨date, rfl, .date hdate⟩

theorem Grammar.OffsetText.stops (hspelled : OffsetText spelled) {accepts : Char → Bool}
    (haccepts : ['Z', 'z', '+', '-'].all (fun c => !accepts c) = true) : Stops accepts spelled := by
  have hclass : ∀ c ∈ ['Z', 'z', '+', '-'], accepts c = false := by
    intro c hc
    simpa using List.all_eq_true.mp haccepts c hc
  cases hspelled with
  | none => rintro _ ⟨⟩
  | zulu hletter =>
      rintro _ ⟨⟩
      rcases hletter with rfl | rfl <;> exact hclass _ (by decide)
  | hours hsign _ =>
      rintro _ ⟨⟩
      rcases hsign with rfl | rfl <;> exact hclass _ (by decide)

theorem both_complete {date time offset : List Char} {separator : Char} (hdate : DateText date)
    (hseparator : separator ∈ ['T', 't', ' ']) (htime : TimeText time)
    (hoffset : OffsetText offset) (hrest : Ends rest) :
    Reads dateAndTime (date ++ separator :: time ++ offset ++ rest) () rest := by
  have hinput : date ++ separator :: time ++ offset ++ rest =
      date ++ separator :: (time ++ (offset ++ rest)) := by simp
  have hfollows : timeFollows (separator :: (time ++ (offset ++ rest))) = true := by
    obtain ⟨first, second, more, rfl, hfirst, hsecond⟩ := htime.exists_cons
    exact timeFollows_iff.mpr ⟨separator, first, second, _, rfl, hseparator, hfirst, hsecond⟩
  have hdateRead : Reads Toml.date (date ++ separator :: (time ++ (offset ++ rest))) ()
      (separator :: (time ++ (offset ++ rest))) := date_iff.mpr ⟨date, rfl, hdate⟩
  rw [hinput]
  refine .bind hdateRead (.bind (.get _) ?_)
  rw [if_pos hfollows]
  exact .bind (Reads.one_iff.mpr ⟨rfl, rfl⟩)
    (.bind (time_complete htime (stops_append (hoffset.stops rfl) (hrest.stops rfl)))
      (offset_complete hoffset (hrest.stops rfl)))

theorem date_complete (hspelled : DateText spelled) (hrest : Ends rest) :
    Reads dateAndTime (spelled ++ rest) () rest := by
  have hdate : Reads date (spelled ++ rest) () rest := date_iff.mpr ⟨spelled, rfl, hspelled⟩
  refine .bind hdate (.bind (.get _) ?_)
  rw [if_neg (by simp [timeFollows_of_ends hrest])]
  exact .pure _ _

end Both

section NumeralOrMoment

theorem numeralOrMoment_sound {found : Value} (h : Reads numeralOrMoment input found rest) :
    ∃ spelled, input = spelled ++ rest ∧ Scalar .reading spelled found.shown := by
  obtain ⟨_, _, hget, hnext⟩ := Reads.bind_iff.mp h
  obtain ⟨rfl, rfl⟩ := Reads.get_iff.mp hget
  split at hnext
  · obtain ⟨_, _, hmoment, hdone⟩ := Reads.bind_iff.mp hnext
    obtain ⟨rfl, rfl⟩ := Reads.pure_iff.mp hdone
    obtain ⟨spelled, hinput, hspelled⟩ := dateAndTime_sound hmoment
    exact ⟨spelled, hinput, .moment hspelled⟩
  · split at hnext
    · obtain ⟨_, _, htime, hdone⟩ := Reads.bind_iff.mp hnext
      obtain ⟨rfl, rfl⟩ := Reads.pure_iff.mp hdone
      obtain ⟨spelled, hinput, hspelled⟩ := time_sound htime
      exact ⟨spelled, hinput, .moment (.time hspelled)⟩
    · obtain ⟨numeral, _, hnumeral, hdone⟩ := Reads.bind_iff.mp hnext
      obtain ⟨spelled, hinput, hspelled⟩ := numeral_sound hnumeral
      cases numeral with
      | integer | number =>
          obtain ⟨rfl, rfl⟩ := Reads.pure_iff.mp hdone
          exact ⟨spelled, hinput, hspelled⟩

theorem moment_complete (hspelled : MomentText spelled) (hrest : Ends rest) :
    Reads numeralOrMoment (spelled ++ rest) .moment rest := by
  refine .bind (.get _) ?_
  cases hspelled with
  | date hdate =>
      rw [if_pos (dateStarts_date hdate rest)]
      exact .bind (date_complete hdate hrest) (.pure _ _)
  | time htime =>
      rw [if_neg (by simp [dateStarts_time htime rest]), if_pos (timeStarts_time htime rest)]
      exact .bind (time_complete htime (hrest.stops rfl)) (.pure _ _)
  | @both date time offset separator hdate hseparator htime hoffset =>
      have hstarts : dateStarts (date ++ separator :: time ++ offset ++ rest) = true := by
        have h := dateStarts_date hdate (separator :: time ++ (offset ++ rest))
        simpa using h
      rw [if_pos hstarts]
      exact .bind (both_complete hdate hseparator htime hoffset hrest) (.pure _ _)

/-- Numbers are no dates and no times. -/
theorem numeralOrMoment_of_numeral {numeral : Numeral} {found : Value}
    (hdate : dateStarts input = false) (htime : timeStarts input = false)
    (hnumeral : Reads Toml.numeral input numeral rest)
    (hfound : ∀ input, Reads (match numeral with
      | .integer value => (Pure.pure (.integer value) : Scanner Value)
      | .number value => Pure.pure (.number value)) input found input) :
    Reads numeralOrMoment input found rest := by
  refine .bind (.get _) ?_
  rw [if_neg (by simp [hdate]), if_neg (by simp [htime])]
  exact .bind hnumeral (hfound rest)

theorem not_moment_integer {value : Int} (hspelled : IntegerText spelled value)
    (hrest : Ends rest) :
    dateStarts (spelled ++ rest) = false ∧ timeStarts (spelled ++ rest) = false := by
  cases hspelled with
  | decimal hsign hwhole =>
      have hunmarked := integer_unmarked hsign hwhole hrest
      exact ⟨hunmarked.not_marked (by decide) (by decide),
        hunmarked.not_marked (by decide) (by decide)⟩
  | based hletter _ =>
      simp only [baseSigns, List.mem_cons, Prod.mk.injEq, List.not_mem_nil, or_false] at hletter
      rcases hletter with ⟨rfl, -⟩ | ⟨rfl, -⟩ | ⟨rfl, -⟩ <;> exact ⟨rfl, rfl⟩

theorem numeralOrMoment_integer {value : Int} (hspelled : IntegerText spelled value)
    (hrange : InRange value) (hrest : Ends rest) :
    Reads numeralOrMoment (spelled ++ rest) (.integer value) rest := by
  obtain ⟨hdate, htime⟩ := not_moment_integer hspelled hrest
  exact numeralOrMoment_of_numeral hdate htime (integer_complete hspelled hrange hrest)
    fun input => .pure _ input

theorem numeralOrMoment_number (hspelled : NumberText .reading spelled) (hrest : Ends rest) :
    ∃ size, Reads numeralOrMoment (spelled ++ rest) (.number size) rest := by
  have hunmarked := number_unmarked hspelled hrest
  obtain ⟨size, hnumber⟩ := number_complete hspelled hrest
  exact ⟨size, numeralOrMoment_of_numeral (hunmarked.not_marked (by decide) (by decide))
    (hunmarked.not_marked (by decide) (by decide)) hnumber fun input => .pure _ input⟩

end NumeralOrMoment
end PadBridge.Toml
