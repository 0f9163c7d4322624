import PadBridge.Proofs.Toml.Moments

/-!
Values that hold no others are read as the grammar has them.  The first character of a value tells
which kind it is of.
-/

namespace PadBridge.Toml

open Grammar

variable {input rest spelled : List Char}

section Opening

def opensScalar (c : Char) : Bool :=
  c.isDigit || ['"', '\'', '+', '-', 'i', 'n', 't', 'f'].contains c

def opensValue (c : Char) : Bool :=
  opensScalar c || c = '[' || c = '\x7b'

theorem Grammar.Grouped.exists_cons {base : Nat} {digits : List Nat}
    (hspelled : Grouped base spelled digits) :
    ∃ c more, spelled = c :: more ∧ isDigitOf base c = true := by
  cases hspelled with
  | one hc | next hc _ | apart hc _ => exact ⟨_, _, rfl, (isDigitOf_iff.mpr hc).1⟩

theorem opens_signed {sign whole : List Char} {negative : Bool} {digits : List Nat}
    (hsign : Sign sign negative) (hwhole : Whole whole digits) (tail : List Char) :
    ∃ c more, sign ++ whole ++ tail = c :: more ∧ (c = '+' ∨ c = '-' ∨ c.isDigit = true) := by
  cases hsign with
  | none =>
      obtain ⟨hdigits, -⟩ := hwhole
      obtain ⟨c, more, rfl, hc⟩ := hdigits.exists_cons
      exact ⟨c, more ++ tail, rfl, Or.inr (Or.inr (by rw [isDigit_eq, hc]))⟩
  | plus => exact ⟨'+', whole ++ tail, rfl, Or.inl rfl⟩
  | minus => exact ⟨'-', whole ++ tail, rfl, Or.inr (Or.inl rfl)⟩

/-- A number begins with a sign, a digit or the letter of a word. -/
def opensNumeral (c : Char) : Bool :=
  c.isDigit || ['+', '-', 'i', 'n'].contains c

theorem opensNumeral_of_signed {c : Char} (hc : c = '+' ∨ c = '-' ∨ c.isDigit = true) :
    opensNumeral c = true := by
  rcases hc with rfl | rfl | hdigit
  · rfl
  · rfl
  · rw [opensNumeral, hdigit]
    rfl

theorem Grammar.IntegerText.exists_cons {value : Int} (hspelled : IntegerText spelled value) :
    ∃ c more, spelled = c :: more ∧ opensNumeral c = true := by
  cases hspelled with
  | decimal hsign hwhole =>
      obtain ⟨c, more, hcons, hc⟩ := opens_signed hsign hwhole []
      exact ⟨c, more, by rw [← hcons, List.append_nil], opensNumeral_of_signed hc⟩
  | based _ _ => exact ⟨'0', _, rfl, rfl⟩

theorem Grammar.NumberText.exists_cons {limits : Limits} (hspelled : NumberText limits spelled) :
    ∃ c more, spelled = c :: more ∧ opensNumeral c = true := by
  cases hspelled with
  | @decimal _ _ fraction exponent _ _ _ _ hsign hwhole _ _ _ _ =>
      obtain ⟨c, more, hcons, hc⟩ := opens_signed hsign hwhole (fraction ++ exponent)
      exact ⟨c, more, by rw [← hcons]; simp, opensNumeral_of_signed hc⟩
  | named hsign hname =>
      cases hsign with
      | none => rcases hname with rfl | rfl <;> exact ⟨_, _, rfl, rfl⟩
      | plus | minus => exact ⟨_, _, rfl, rfl⟩

theorem Grammar.Fixed.exists_cons {count value : Nat} (hspelled : Fixed (count + 1) spelled value) :
    ∃ c more, spelled = c :: more ∧ c.isDigit = true := by
  obtain ⟨hlength, hclass⟩ := hspelled.isDigit
  match spelled, hlength with
  | c :: more, _ => exact ⟨c, more, rfl, hclass c List.mem_cons_self⟩

theorem Grammar.MomentText.exists_cons (hspelled : MomentText spelled) :
    ∃ c more, spelled = c :: more ∧ opensNumeral c = true := by
  have hopens : ∀ {c : Char}, c.isDigit = true → opensNumeral c = true := fun hc =>
    opensNumeral_of_signed (Or.inr (Or.inr hc))
  have hdateOpens : ∀ {date}, DateText date → ∃ c more, date = c :: more ∧ c.isDigit = true := by
    rintro _ ⟨hyear, -, -, -, -, -⟩
    obtain ⟨c, more, rfl, hc⟩ := hyear.exists_cons
    exact ⟨c, _, rfl, hc⟩
  cases hspelled with
  | date hdate =>
      obtain ⟨c, more, rfl, hc⟩ := hdateOpens hdate
      exact ⟨c, more, rfl, hopens hc⟩
  | time htime =>
      obtain ⟨c, _, more, rfl, hc, -⟩ := htime.exists_cons
      exact ⟨c, _, rfl, hopens hc⟩
  | both hdate _ _ _ =>
      obtain ⟨c, more, rfl, hc⟩ := hdateOpens hdate
      exact ⟨c, _, rfl, hopens hc⟩

theorem Grammar.StringText.exists_cons {text : List Char} (hspelled : StringText spelled text) :
    ∃ c more, spelled = c :: more ∧ (c = '"' ∨ c = '\'') := by
  cases hspelled with
  | basic hbasic =>
      obtain ⟨_⟩ := hbasic
      exact ⟨'"', _, rfl, Or.inl rfl⟩
  | literal hliteral =>
      obtain ⟨_⟩ := hliteral
      exact ⟨'\'', _, rfl, Or.inr rfl⟩
  | basicBlock _ => exact ⟨'"', _, rfl, Or.inl rfl⟩
  | literalBlock _ => exact ⟨'\'', _, rfl, Or.inr rfl⟩

theorem opensScalar_of_opensNumeral {c : Char} (hc : opensNumeral c = true) :
    opensScalar c = true := by
  simp only [opensNumeral, opensScalar, Bool.or_eq_true, List.contains_iff_mem, List.mem_cons,
    List.not_mem_nil, or_false] at hc ⊢
  tauto

theorem Grammar.Scalar.exists_cons {limits : Limits} {item : Item}
    (hspelled : Scalar limits spelled item) :
    ∃ c more, spelled = c :: more ∧ opensScalar c = true := by
  have hnumeral : (∃ c more, spelled = c :: more ∧ opensNumeral c = true) →
      ∃ c more, spelled = c :: more ∧ opensScalar c = true := by
    rintro ⟨c, more, rfl, hc⟩
    exact ⟨c, more, rfl, opensScalar_of_opensNumeral hc⟩
  cases hspelled with
  | text htext =>
      obtain ⟨c, more, rfl, rfl | rfl⟩ := htext.exists_cons
      · exact ⟨'"', more, rfl, rfl⟩
      · exact ⟨'\'', more, rfl, rfl⟩
  | integer hinteger _ => exact hnumeral hinteger.exists_cons
  | number hnumber => exact hnumeral hnumber.exists_cons
  | yes => exact ⟨'t', _, rfl, rfl⟩
  | no => exact ⟨'f', _, rfl, rfl⟩
  | moment hmoment => exact hnumeral hmoment.exists_cons

theorem Grammar.IsValue.exists_cons {limits : Limits} {depth : Nat} {item : Item}
    (hspelled : IsValue limits depth spelled item) :
    ∃ c more, spelled = c :: more ∧ opensValue c = true := by
  have hscalar : Scalar limits spelled item →
      ∃ c more, spelled = c :: more ∧ opensValue c = true := by
    intro h
    obtain ⟨c, more, rfl, hc⟩ := h.exists_cons
    exact ⟨c, more, rfl, by simp [opensValue, hc]⟩
  cases depth with
  | zero => exact hscalar hspelled
  | succ depth =>
      cases hspelled with
      | scalar h => exact hscalar h
      | array h => cases h <;> exact ⟨'[', _, rfl, rfl⟩
      | inline h => cases h <;> exact ⟨'\x7b', _, rfl, rfl⟩

/-- No value begins like what may stand around it. -/
theorem ne_of_opensValue {c : Char} (hc : opensValue c = true) :
    c ∉ [' ', '\t', '\n', '\r', '#', ',', ']', '\x7d'] := by
  intro hmem
  simp only [List.mem_cons, List.not_mem_nil, or_false] at hmem
  rcases hmem with rfl | rfl | rfl | rfl | rfl | rfl | rfl | rfl <;> cases hc

end Opening

section Scalar

theorem scalar_sound {found : Value} (h : Reads scalar input found rest) :
    ∃ spelled, input = spelled ++ rest ∧ Scalar .reading spelled found.shown := by
  obtain ⟨_, _, hfront, hnext⟩ := Reads.bind_iff.mp h
  obtain ⟨rfl, rfl⟩ := Reads.front_iff.mp hfront
  have htext : ∀ {input}, Reads (do return Value.text (← text)) input found rest →
      ∃ spelled, input = spelled ++ rest ∧ Scalar .reading spelled found.shown := by
    intro input h
    obtain ⟨said, _, hread, hdone⟩ := Reads.bind_iff.mp h
    obtain ⟨rfl, rfl⟩ := Reads.pure_iff.mp hdone
    obtain ⟨⟨chars, _⟩, hchars, heq⟩ := Option.map_eq_some_iff.mp (Reads.ofFunction_iff.mp hread)
    cases heq
    obtain ⟨spelled, rfl, hspelled⟩ := textChars_sound hchars
    exact ⟨spelled, rfl, .text hspelled⟩
  split at hnext
  · exact htext hnext
  · exact htext hnext
  · obtain ⟨_, _, hexact, hdone⟩ := Reads.bind_iff.mp hnext
    obtain ⟨rfl, rfl⟩ := Reads.pure_iff.mp hdone
    exact ⟨_, Reads.exact_iff.mp hexact, .yes⟩
  · obtain ⟨_, _, hexact, hdone⟩ := Reads.bind_iff.mp hnext
    obtain ⟨rfl, rfl⟩ := Reads.pure_iff.mp hdone
    exact ⟨_, Reads.exact_iff.mp hexact, .no⟩
  · exact numeralOrMoment_sound hnext

/-- Numbers, dates and times cannot be taken for strings or for words. -/
theorem scalar_of_numeral {found : Value}
    (hopens : ∃ c more, spelled = c :: more ∧ opensNumeral c = true)
    (h : Reads numeralOrMoment (spelled ++ rest) found rest) :
    Reads scalar (spelled ++ rest) found rest := by
  obtain ⟨c, more, rfl, hc⟩ := hopens
  refine .bind (.front _) ?_
  rw [List.cons_append, List.head?_cons]
  split
  · rename_i heq
    cases heq
    cases hc
  · rename_i heq
    cases heq
    cases hc
  · rename_i heq
    cases heq
    cases hc
  · rename_i heq
    cases heq
    cases hc
  · exact h

theorem scalar_text {said : List Char} (hspelled : StringText spelled said) (hrest : Ends rest) :
    Reads scalar (spelled ++ rest) (.text (.ofList said)) rest := by
  have hquote : ∀ quote : Char,
      [' ', '\t', '\n', '\r', '#', ',', ']', '\x7d'].contains quote = false →
      rest.head? ≠ some quote := by
    intro quote hquote hhead
    rw [List.contains_iff_mem.mpr (hrest.head? quote hhead)] at hquote
    cases hquote
  have htext : Reads text (spelled ++ rest) (.ofList said) rest := by
    refine Reads.ofFunction_iff.mpr ?_
    rw [textChars_complete hspelled (hquote '"' rfl) (hquote '\'' rfl)]
    rfl
  refine .bind (.front _) ?_
  obtain ⟨c, more, rfl, rfl | rfl⟩ := hspelled.exists_cons
  · exact .bind htext (.pure _ _)
  · exact .bind htext (.pure _ _)

theorem scalar_complete {item : Item} (hspelled : Scalar .reading spelled item)
    (hrest : Ends rest) :
    ∃ found, Reads scalar (spelled ++ rest) found rest ∧ found.shown = item := by
  cases hspelled with
  | text htext => exact ⟨_, scalar_text htext hrest, rfl⟩
  | integer hinteger hrange =>
      exact ⟨_, scalar_of_numeral hinteger.exists_cons
        (numeralOrMoment_integer hinteger hrange hrest), rfl⟩
  | number hnumber =>
      obtain ⟨size, hread⟩ := numeralOrMoment_number hnumber hrest
      exact ⟨_, scalar_of_numeral hnumber.exists_cons hread, rfl⟩
  | yes => exact ⟨.boolean true, .bind (.front _) (.bind (.exact "true" rest) (.pure _ _)), rfl⟩
  | no => exact ⟨.boolean false, .bind (.front _) (.bind (.exact "false" rest) (.pure _ _)), rfl⟩
  | moment hmoment =>
      exact ⟨_, scalar_of_numeral hmoment.exists_cons (moment_complete hmoment hrest), rfl⟩

end Scalar
end PadBridge.Toml
