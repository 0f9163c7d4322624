import PadBridge.Json.Printer
import PadBridge.Proofs.Json.Grammar
import PadBridge.Proofs.Utf8

/-!
Printed objects.  Every character of a string is printed as one of its spellings, and the text of an
object is in the grammar for exactly the entries it was printed for.
-/

namespace PadBridge.Json

open Utf8 (encode)

/-- The digits of code units are written as digits. -/
theorem hexDigit_hexDigitLower : ∀ value < 16,
    ∃ byte, encode [hexDigitLower value] = [byte] ∧ HexDigit byte value := by
  intro value hvalue
  rcases Nat.lt_or_ge value 10 with hdecimal | hletter
  · have hc : (hexDigitLower value).toNat = 0x30 + value := by
      rw [hexDigitLower, if_pos hdecimal, Utf8.toNat_ofNat_char _ (by omega)]
    refine ⟨.ofNat (0x30 + value), ?_, .decimal hdecimal⟩
    rw [Utf8.encode_cons, Utf8.encodeChar_one (by omega), hc]
    rfl
  · have hc : (hexDigitLower value).toNat = 0x61 + (value - 10) := by
      rw [hexDigitLower, if_neg (by omega), Utf8.toNat_ofNat_char _ (by omega)]
      omega
    have hdigit : HexDigit (.ofNat (0x61 + (value - 10))) (10 + (value - 10)) :=
      .lower (by omega)
    rw [show 10 + (value - 10) = value by omega] at hdigit
    refine ⟨.ofNat (0x61 + (value - 10)), ?_, hdigit⟩
    rw [Utf8.encode_cons, Utf8.encodeChar_one (by omega), hc]
    rfl

theorem spells_control {c : Char} (hc : c.toNat < 0x20) :
    Spells (encode ['\\', 'u', '0', '0', hexDigitLower (c.toNat / 16),
      hexDigitLower (c.toNat % 16)]) c := by
  obtain ⟨high, hhigh, hhighDigit⟩ := hexDigit_hexDigitLower (c.toNat / 16) (by omega)
  obtain ⟨low, hlow, hlowDigit⟩ := hexDigit_hexDigitLower (c.toNat % 16) (by omega)
  have hzero : HexDigit 0x30 0 := HexDigit.decimal (Nat.zero_lt_succ 9)
  have hunit := CodeUnit.digits hzero hzero hhighDigit hlowDigit
  rw [show 0 * 4096 + 0 * 256 + c.toNat / 16 * 16 + c.toNat % 16 = c.toNat by omega] at hunit
  have hbytes : encode ['\\', 'u', '0', '0', hexDigitLower (c.toNat / 16),
      hexDigitLower (c.toNat % 16)] = 0x5C :: 0x75 :: [0x30, 0x30, high, low] := by
    have hfront : encode ['\\', 'u', '0', '0'] = [0x5C, 0x75, 0x30, 0x30] := by decide
    rw [show ['\\', 'u', '0', '0', hexDigitLower (c.toNat / 16), hexDigitLower (c.toNat % 16)] =
      ['\\', 'u', '0', '0'] ++ ([hexDigitLower (c.toNat / 16)] ++ [hexDigitLower (c.toNat % 16)])
      from rfl, Utf8.encode_append, Utf8.encode_append, hfront, hhigh, hlow]
    rfl
  rw [hbytes]
  exact .escaped (.unit hunit)

/-- Every character is printed as one of its spellings. -/
theorem spells_escapedChar (c : Char) : Spells (encode (escapedChar c)) c := by
  have hshort : ∀ entry ∈ shortEscapes, Spells [0x5C, entry.1] entry.2 :=
    fun _ hentry => .escaped (.short hentry)
  unfold escapedChar
  split
  · exact hshort (0x22, '"') (by decide)
  · exact hshort (0x5C, '\\') (by decide)
  · exact hshort (0x62, '\x08') (by decide)
  · exact hshort (0x66, '\x0C') (by decide)
  · exact hshort (0x6E, '\n') (by decide)
  · exact hshort (0x72, '\r') (by decide)
  · exact hshort (0x74, '\t') (by decide)
  · rename_i hquote hbackslash _ _ _ _ _
    split
    · rename_i hcontrol
      exact spells_control hcontrol
    · rename_i hcontrol
      rw [Utf8.encode_cons, Utf8.encode_nil, List.append_nil]
      exact .raw hquote hbackslash (Nat.not_lt.mp hcontrol)

theorem body_flatMap_escapedChar (text : List Char) :
    Body (encode (text.flatMap escapedChar)) text := by
  induction text with
  | nil => exact .nil
  | cons c rest ih =>
      rw [List.flatMap_cons, Utf8.encode_append]
      exact .cons (spells_escapedChar c) ih

theorem quoted_stringLiteral (text : String) : Quoted (encode (stringLiteral text)) text := by
  rw [stringLiteral, Utf8.encode_append, Utf8.encode_append]
  exact .mk (body_flatMap_escapedChar text.toList)

/-- A member line is a member behind its indentation. -/
theorem exists_member_memberLine (entry : String × String) :
    ∃ piece, Member piece entry ∧ encode (memberLine entry) = [0x20, 0x20] ++ piece := by
  have hmember := Member.mk (quoted_stringLiteral entry.1) .nil
    (.single (Or.inl rfl) : Blanks [0x20]) (quoted_stringLiteral entry.2)
  refine ⟨_, hmember, ?_⟩
  rw [memberLine]
  simp only [Utf8.encode_append]
  rw [show encode [' ', ' '] = [0x20, 0x20] by decide,
    show encode [':', ' '] = [0x3A, 0x20] by decide]
  simp

theorem exists_members_memberLines (entry : String × String) (rest : List (String × String)) :
    ∃ pieces, Members pieces (entry :: rest)
      ∧ encode (memberLines (entry :: rest)) = [0x0A, 0x20, 0x20] ++ pieces ++ [0x0A] := by
  induction rest generalizing entry with
  | nil =>
      obtain ⟨piece, hpiece, hline⟩ := exists_member_memberLine entry
      refine ⟨piece, .one hpiece, ?_⟩
      rw [memberLines, Utf8.encode_append, Utf8.encode_cons, hline]
      rfl
  | cons next rest ih =>
      obtain ⟨piece, hpiece, hline⟩ := exists_member_memberLine entry
      obtain ⟨pieces, hpieces, hlines⟩ := ih next
      have hindent : Blanks [0x0A, 0x20, 0x20] := by
        simp [Blanks]
      refine ⟨_, .more hpiece .nil hindent hpieces, ?_⟩
      rw [memberLines, Utf8.encode_append, Utf8.encode_append, Utf8.encode_cons, hline, hlines,
        show encode [','] = [0x2C] by decide, show String.utf8EncodeChar '\n' = [0x0A] by decide]
      · simp
      · simp

/-- The text of an object is an object of strings, with exactly the entries it was printed for. -/
theorem isObjectText_printObject (entries : List (String × String)) :
    IsObjectText (Utf8.bytesOf (printObject entries)) entries := by
  rw [Utf8.bytesOf, printObject, String.toList_ofList, objectText, Utf8.encode_append,
    Utf8.encode_append, show encode ['\x7b'] = [0x7B] by decide,
    show encode ['\x7d'] = [0x7D] by decide]
  have hobject : ObjectOf ([0x7B] ++ encode (memberLines entries) ++ [0x7D]) entries := by
    cases entries with
    | nil => exact .empty .nil
    | cons entry rest =>
        obtain ⟨pieces, hpieces, hlines⟩ := exists_members_memberLines entry rest
        have hbefore : Blanks [0x0A, 0x20, 0x20] := by
          simp [Blanks]
        have hafter : Blanks [0x0A] := by
          simp [Blanks]
        have hfilled := ObjectOf.filled hbefore hpieces hafter
        rw [hlines]
        simpa using hfilled
  simpa using IsObjectText.mk .nil hobject .nil

end PadBridge.Json
