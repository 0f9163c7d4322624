import PadBridge.Json.Fault
import PadBridge.Text.Utf8

/-!
Strings of a JSON text.  The bytes between the quotes are read first, escapes replaced; only when
the closing quote is reached are they taken as UTF-8.
-/

namespace PadBridge.Json

def quote : UInt8 := 0x22
def backslash : UInt8 := 0x5C

/-- The character behind a backslash that stands for one character by itself. -/
def shortEscape? (byte : UInt8) : Option Char :=
  if byte = 0x22 then some '"'
  else if byte = 0x5C then some '\\'
  else if byte = 0x2F then some '/'
  else if byte = 0x62 then some '\x08'
  else if byte = 0x66 then some '\x0C'
  else if byte = 0x6E then some '\n'
  else if byte = 0x72 then some '\r'
  else if byte = 0x74 then some '\t'
  else none

def hexValue? (byte : UInt8) : Option Nat :=
  if 0x30 ≤ byte && byte ≤ 0x39 then some (byte.toNat - 0x30)
  else if 0x41 ≤ byte && byte ≤ 0x46 then some (byte.toNat - 0x37)
  else if 0x61 ≤ byte && byte ≤ 0x66 then some (byte.toNat - 0x57)
  else none

/-- The value of four hexadecimal digits. -/
def hexQuad : List UInt8 → Except Fault (Nat × List UInt8)
  | first :: second :: third :: fourth :: rest =>
      match hexValue? first, hexValue? second, hexValue? third, hexValue? fourth with
      | some a, some b, some c, some d => .ok (((a * 16 + b) * 16 + c) * 16 + d, rest)
      | _, _, _, _ => .error (.before .invalidEscape rest)
  | _ => .error (.before .endInText [])

/-- The upper half of a surrogate pair, which comes first. -/
def isHighSurrogate (unit : Nat) : Bool :=
  0xD800 ≤ unit && unit ≤ 0xDBFF

/-- The lower half of a surrogate pair, which comes second. -/
def isLowSurrogate (unit : Nat) : Bool :=
  0xDC00 ≤ unit && unit ≤ 0xDFFF

/-- Read the lower half that has to follow `high`, with its backslash. -/
def lowHalf (high : Nat) : List UInt8 → Except Fault (Char × List UInt8)
  | [] => .error (.before .endInText [])
  | byte :: rest =>
      if byte ≠ backslash then .error (.before .brokenSurrogatePair rest)
      else
        match rest with
        | [] => .error (.before .endInText [])
        | letter :: digits =>
            if letter ≠ 0x75 then .error (.before .brokenSurrogatePair digits)
            else
              match hexQuad digits with
              | .error fault => .error fault
              | .ok (low, rest) =>
                  if isLowSurrogate low then
                    .ok (Char.ofNat ((high - 0xD800) * 0x400 + (low - 0xDC00) + 0x10000), rest)
                  else .error (.before .loneSurrogate rest)

/-- The character of an escape, from behind its backslash. -/
def escape : List UInt8 → Except Fault (Char × List UInt8)
  | [] => .error (.before .endInText [])
  | byte :: rest =>
      if byte = 0x75 then
        match hexQuad rest with
        | .error fault => .error fault
        | .ok (unit, rest) =>
            if isLowSurrogate unit then .error (.before .loneSurrogate rest)
            else if isHighSurrogate unit then lowHalf unit rest
            else .ok (Char.ofNat unit, rest)
      else
        match shortEscape? byte with
        | some c => .ok (c, rest)
        | none => .error (.before .invalidEscape rest)

theorem length_hexQuad {input rest : List UInt8} {value : Nat}
    (h : hexQuad input = .ok (value, rest)) : rest.length < input.length := by
  unfold hexQuad at h
  split at h
  · split at h
    · cases h
      simp only [List.length_cons]
      omega
    · cases h
  · cases h

theorem length_lowHalf {high : Nat} {input rest : List UInt8} {c : Char}
    (h : lowHalf high input = .ok (c, rest)) : rest.length < input.length := by
  unfold lowHalf at h
  split at h
  · cases h
  · split at h
    · cases h
    · split at h
      · cases h
      · split at h
        · cases h
        · split at h
          · cases h
          · rename_i hquad
            split at h
            · simp only [Except.ok.injEq, Prod.mk.injEq] at h
              obtain ⟨_, rfl⟩ := h
              have hlength := length_hexQuad hquad
              simp only [List.length_cons]
              omega
            · cases h

/-- An escape takes at least one byte. -/
theorem length_escape {input rest : List UInt8} {c : Char}
    (h : escape input = .ok (c, rest)) : rest.length < input.length := by
  unfold escape at h
  split at h
  · cases h
  · split at h
    · split at h
      · cases h
      · rename_i hquad
        have hlength := length_hexQuad hquad
        split at h
        · cases h
        · split at h
          · have := length_lowHalf h
            simp only [List.length_cons]
            omega
          · cases h
            simp only [List.length_cons]
            omega
    · split at h
      · cases h
        simp
      · cases h

/-- The bytes a string stands for, from behind its opening quote. -/
def textBytes : List UInt8 → Except Fault (List UInt8 × List UInt8)
  | [] => .error (.before .endInText [])
  | byte :: rest =>
      if byte = quote then .ok ([], rest)
      else if byte = backslash then
        match _hescape : escape rest with
        | .error fault => .error fault
        | .ok (c, more) =>
            (textBytes more).map fun (bytes, after) => (String.utf8EncodeChar c ++ bytes, after)
      else if byte < 0x20 then .error (.before .controlCharacter rest)
      else (textBytes rest).map fun (bytes, after) => (byte :: bytes, after)
termination_by input => input.length
decreasing_by
  · have hlength := length_escape _hescape
    simp only [List.length_cons]
    omega
  · simp

theorem length_textBytes {input bytes rest : List UInt8}
    (h : textBytes input = .ok (bytes, rest)) : rest.length < input.length := by
  fun_induction textBytes input generalizing bytes rest with
  | case1 => cases h
  | case2 tail => cases h; simp
  | case3 => cases h
  | case4 tail c more hescape _ ih =>
      cases hread : textBytes more with
      | error fault => rw [hread] at h; cases h
      | ok pair =>
          rw [hread] at h
          cases h
          have hmore := ih hread
          have hlength := length_escape hescape
          simp only [List.length_cons]
          omega
  | case5 => cases h
  | case6 byte tail _ _ _ ih =>
      cases hread : textBytes tail with
      | error fault => rw [hread] at h; cases h
      | ok pair =>
          rw [hread] at h
          cases h
          have htail := ih hread
          simp only [List.length_cons]
          omega

/-- A string, from behind its opening quote.  In one that is not UTF-8 the column is that of the
first byte that cannot be read, as far as the bytes before it stand for themselves. -/
def text (input : List UInt8) : Except Fault (String × List UInt8) :=
  match textBytes input with
  | .error fault => .error fault
  | .ok (bytes, rest) =>
      match Utf8.decodeString? bytes with
      | some value => .ok (value, rest)
      | none =>
          .error
            { Fault.before .invalidUnicode rest with
              back := bytes.length - Utf8.validLength bytes }

theorem length_text {input rest : List UInt8} {value : String}
    (h : text input = .ok (value, rest)) : rest.length < input.length := by
  unfold text at h
  split at h
  · cases h
  · rename_i hbytes
    split at h
    · cases h
      exact length_textBytes hbytes
    · cases h

end PadBridge.Json
