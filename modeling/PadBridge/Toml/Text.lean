import PadBridge.Text.Hex
import PadBridge.Toml.Scanner

/-!
Strings of a TOML text: basic ones, which have escapes, and literal ones, which have none, both
either on one line or, between three quotes, on several.
-/

namespace PadBridge.Toml

open Text (hexDigit? scalar?)

/-- What stands for itself in a basic string. -/
def isBasicChar (c : Char) : Bool :=
  isCommentChar c && c ≠ '"' && c ≠ '\\'

/-- What stands for itself in a literal string. -/
def isLiteralChar (c : Char) : Bool :=
  isCommentChar c && c ≠ '\''

/-- The value of exactly `count` hexadecimal digits. -/
def hexValue? : Nat → Nat → List Char → Option (Nat × List Char)
  | 0, value, rest => some (value, rest)
  | _ + 1, _, [] => none
  | count + 1, value, c :: rest =>
      match hexDigit? c with
      | some digit => hexValue? count (value * 16 + digit) rest
      | none => none

def hexChar? (count : Nat) (input : List Char) : Option (Char × List Char) :=
  match hexValue? count 0 input with
  | some (value, rest) => (scalar? value).map fun c => (c, rest)
  | none => none

/-- The character of an escape, from behind its backslash. -/
def escape? : List Char → Option (Char × List Char)
  | [] => none
  | c :: rest =>
      match c with
      | 'b' => some ('\x08', rest)
      | 't' => some ('\t', rest)
      | 'n' => some ('\n', rest)
      | 'f' => some ('\x0C', rest)
      | 'r' => some ('\r', rest)
      | '"' => some ('"', rest)
      | '\\' => some ('\\', rest)
      | 'u' => hexChar? 4 rest
      | 'U' => hexChar? 8 rest
      | _ => none

theorem length_hexValue? {count value result : Nat} {input rest : List Char}
    (h : hexValue? count value input = some (result, rest)) :
    rest.length ≤ input.length := by
  induction count generalizing value input with
  | zero =>
      simp only [hexValue?, Option.some.injEq, Prod.mk.injEq] at h
      exact Nat.le_of_eq (by rw [h.2])
  | succ count ih =>
      cases input with
      | nil => cases h
      | cons c tail =>
          cases hdigit : hexDigit? c with
          | none => simp [hexValue?, hdigit] at h
          | some digit =>
              rw [hexValue?, hdigit] at h
              exact Nat.le_succ_of_le (ih h)

theorem length_hexChar? {count : Nat} {input rest : List Char} {c : Char}
    (h : hexChar? count input = some (c, rest)) : rest.length ≤ input.length := by
  unfold hexChar? at h
  split at h
  · rename_i hvalue
    rw [Option.map_eq_some_iff] at h
    obtain ⟨_, _, heq⟩ := h
    cases heq
    exact length_hexValue? hvalue
  · cases h

/-- An escape takes at least one character. -/
theorem length_escape? {input rest : List Char} {c : Char}
    (h : escape? input = some (c, rest)) : rest.length < input.length := by
  unfold escape? at h
  split at h
  · cases h
  · rename_i first tail
    have short {found : Char} (h : some (found, tail) = some (c, rest)) :
        rest.length < (first :: tail).length := by
      cases h
      simp
    have long {count : Nat} (h : hexChar? count tail = some (c, rest)) :
        rest.length < (first :: tail).length :=
      Nat.lt_succ_of_le (length_hexChar? h)
    split at h
    all_goals first | exact short h | exact long h | cases h

/-- A basic string on one line, from behind its quote. -/
def basicText : List Char → Option (List Char × List Char)
  | [] => none
  | c :: rest =>
      if c = '"' then some ([], rest)
      else if c = '\\' then
        match _hescape : escape? rest with
        | none => none
        | some (found, more) =>
            (basicText more).map fun (text, after) => (found :: text, after)
      else if isBasicChar c then
        (basicText rest).map fun (text, after) => (c :: text, after)
      else none
termination_by input => input.length
decreasing_by
  · have hlength := length_escape? _hescape
    simp only [List.length_cons]
    omega
  · simp

/-- A literal string on one line, from behind its quote. -/
def literalText : List Char → Option (List Char × List Char)
  | [] => none
  | c :: rest =>
      if c = '\'' then some ([], rest)
      else if isLiteralChar c then
        (literalText rest).map fun (text, after) => (c :: text, after)
      else none

/-- The end of a string between three quotes.  Up to two more quotes before them are part of the
string. -/
def closing? (quote : Char) (input : List Char) : Option (List Char × List Char) :=
  let quotes := input.takeWhile (· = quote)
  if quotes.length < 3 then none
  else
    let inside := min (quotes.length - 3) 2
    some (List.replicate inside quote, input.drop (inside + 3))

/-- What follows blanks and line ends. -/
def skipBlankLines : List Char → List Char
  | ' ' :: rest => skipBlankLines rest
  | '\t' :: rest => skipBlankLines rest
  | '\n' :: rest => skipBlankLines rest
  | '\r' :: '\n' :: rest => skipBlankLines rest
  | rest => rest

theorem length_skipBlankLines (input : List Char) :
    (skipBlankLines input).length ≤ input.length := by
  fun_induction skipBlankLines input with
  | case1 _ ih | case2 _ ih | case3 _ ih => exact Nat.le_succ_of_le ih
  | case4 _ ih =>
      simp only [List.length_cons]
      omega
  | case5 => exact Nat.le_refl _

theorem length_afterNewline? {input rest : List Char} (h : afterNewline? input = some rest) :
    rest.length < input.length := by
  unfold afterNewline? at h
  split at h
  · cases h
    simp
  · cases h
    simp only [List.length_cons]
    omega
  · cases h

/-- A line end behind a backslash is left out together with all blanks and line ends after it. -/
def foldedLine? (input : List Char) : Option (List Char) :=
  (afterNewline? (input.dropWhile isBlank)).map skipBlankLines

theorem length_foldedLine? {input rest : List Char} (h : foldedLine? input = some rest) :
    rest.length < input.length := by
  unfold foldedLine? at h
  rw [Option.map_eq_some_iff] at h
  obtain ⟨line, hline, rfl⟩ := h
  have hskip := length_skipBlankLines line
  have hnewline := length_afterNewline? hline
  have hblank : (input.dropWhile isBlank).length ≤ input.length :=
    (List.dropWhile_suffix isBlank).length_le
  omega

/-- A basic string between three quotes, from behind them.  Every line end counts as one
character. -/
def blockBasicText (input : List Char) : Option (List Char × List Char) :=
  match input with
  | [] => none
  | c :: rest =>
      match closing? '"' (c :: rest) with
      | some found => some found
      | none =>
          if c = '\\' then
            match _hfold : foldedLine? rest with
            | some more => blockBasicText more
            | none =>
                match _hescape : escape? rest with
                | none => none
                | some (found, more) =>
                    (blockBasicText more).map fun (text, after) => (found :: text, after)
          else
            match _hline : afterNewline? (c :: rest) with
            | some more => (blockBasicText more).map fun (text, after) => ('\n' :: text, after)
            | none =>
                if c = '"' || isBasicChar c then
                  (blockBasicText rest).map fun (text, after) => (c :: text, after)
                else none
termination_by input.length
decreasing_by
  · have hlength := length_foldedLine? _hfold
    simp only [List.length_cons]
    omega
  · have hlength := length_escape? _hescape
    simp only [List.length_cons]
    omega
  · exact length_afterNewline? _hline
  · simp

/-- A literal string between three quotes, from behind them.  Every line end counts as one
character. -/
def blockLiteralText (input : List Char) : Option (List Char × List Char) :=
  match input with
  | [] => none
  | c :: rest =>
      match closing? '\'' (c :: rest) with
      | some found => some found
      | none =>
          match _hline : afterNewline? (c :: rest) with
          | some more => (blockLiteralText more).map fun (text, after) => ('\n' :: text, after)
          | none =>
              if isCommentChar c then
                (blockLiteralText rest).map fun (text, after) => (c :: text, after)
              else none
termination_by input.length
decreasing_by
  · exact length_afterNewline? _hline
  · simp

/-- A line end directly behind three opening quotes is left out. -/
def skipFirstNewline (input : List Char) : List Char :=
  (afterNewline? input).getD input

/-- The characters of a string of any kind. -/
def textChars : List Char → Option (List Char × List Char)
  | '"' :: '"' :: '"' :: rest => blockBasicText (skipFirstNewline rest)
  | '"' :: rest => basicText rest
  | '\'' :: '\'' :: '\'' :: rest => blockLiteralText (skipFirstNewline rest)
  | '\'' :: rest => literalText rest
  | _ => none

/-- A string of any kind. -/
def text : Scanner String :=
  .ofFunction fun input => (textChars input).map fun (chars, rest) => (String.ofList chars, rest)

def isBareChar (c : Char) : Bool :=
  c.isAlphanum || c = '-' || c = '_'

/-- One part of a key: a string on one line, or a bare word. -/
def keyPart : Scanner String := do
  match ← Scanner.front with
  | some '"' =>
      Scanner.exact "\""
      return String.ofList (← Scanner.ofFunction basicText)
  | some '\'' =>
      Scanner.exact "'"
      return String.ofList (← Scanner.ofFunction literalText)
  | _ =>
      let word ← Scanner.run isBareChar
      Scanner.require (word ≠ [])
      return String.ofList word

end PadBridge.Toml
