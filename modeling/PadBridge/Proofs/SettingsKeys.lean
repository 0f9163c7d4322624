import PadBridge.Proofs.Toml.Documents
import PadBridge.Settings

/-!
Which part of a document settings are read from.  Only two keys of its top level count.  A value of
the wrong kind under one of them is noticed when all lines are read, so what is wrong with a line
counts first.
-/

namespace PadBridge

namespace Settings

open Toml (Consistent Item Entries Line Places repeatsKey topLevel lookup_eq_none_iff lookup_of_mem
  mem_of_lookup)
open Toml.Grammar
open Toml.TopLevel (keys)

/-- The kind of value that stands under a key, if it is the key of a setting. -/
def wanted? (key : String) : Option Wanted :=
  if key = "mapping_file" then some .path
  else if key = "show_instructions" then some .boolean
  else none

def Wanted.accepts : Wanted → Item → Bool
  | .path, .text _ => true
  | .boolean, .boolean _ => true
  | _, _ => false

/-- Whether an entry of the top level is no setting or has a value of the kind that is wanted. -/
def fits (entry : String × Item) : Bool :=
  (wanted? entry.1).all fun wanted => wanted.accepts entry.2

/-- Settings with those in place that a top level gives. -/
def given (settings : Settings) (items : List (String × Item)) : Settings where
  mappingFile := match items.lookup "mapping_file" with
    | some (.text path) => .ofString path
    | _ => settings.mappingFile
  showInstructions := match items.lookup "show_instructions" with
    | some (.boolean flag) => flag
    | _ => settings.showInstructions

/-- What is said about an item of the wrong kind.  About a number it is told how it is written. -/
inductive Described : Item → String → Prop where
  | text (value : String) : Described (.text value) ("string " ++ Text.quoted value)
  | integer (value : Int) : Described (.integer value) ("integer `" ++ toString value ++ "`")
  | number (written : String) : Described .number ("floating point `" ++ written ++ "`")
  | boolean (value : Bool) : Described (.boolean value) ("boolean `" ++ toString value ++ "`")
  | moment : Described .moment "map"
  | array : Described .array "sequence"
  | inline : Described .inline "map"
  | table : Described .table "map"
  | tables : Described .tables "sequence"

theorem described (found : Toml.Value) : Described found.shown (describe found) := by
  cases found with
  | text value => exact .text value
  | integer value => exact .integer value
  | number value => exact .number (numberStyle.text value)
  | boolean value => exact .boolean value
  | moment => exact .moment
  | array _ => exact .array
  | tables _ _ => exact .tables
  | table origin entries =>
      cases origin with
      | inline => exact .inline
      | header | implied | dotted => exact .table

variable {settings : Settings} {key : String} {value : Toml.Value} {entries : Entries}

/-- One entry of the top level is taken over, or refused if it does not fit. -/
theorem readEntry_eq (settings : Settings) (key : String) (value : Toml.Value) :
    (fits (key, value.shown) = true
        ∧ settings.readEntry (key, value) = .ok (settings.given [(key, value.shown)]))
      ∨ (fits (key, value.shown) = false ∧ ∃ wanted, wanted? key = some wanted
        ∧ settings.readEntry (key, value) = .error (.mismatch value wanted)) := by
  by_cases hpath : key = "mapping_file"
  · subst hpath
    cases value with
    | text path => exact Or.inl ⟨rfl, rfl⟩
    | table origin entries => cases origin <;> exact Or.inr ⟨rfl, .path, rfl, rfl⟩
    | integer | number | boolean | moment | array | tables => exact Or.inr ⟨rfl, .path, rfl, rfl⟩
  · by_cases hflag : key = "show_instructions"
    · subst hflag
      cases value with
      | boolean flag => exact Or.inl ⟨rfl, rfl⟩
      | table origin entries => cases origin <;> exact Or.inr ⟨rfl, .boolean, rfl, rfl⟩
      | text | integer | number | moment | array | tables =>
          exact Or.inr ⟨rfl, .boolean, rfl, rfl⟩
    · have hwanted : wanted? key = none := by rw [wanted?, if_neg hpath, if_neg hflag]
      refine Or.inl ⟨by rw [fits, hwanted]; rfl, ?_⟩
      rw [readEntry, mappingFileKey, showInstructionsKey, if_neg hpath, if_neg hflag, given,
        List.lookup_cons, List.lookup_cons, beq_false_of_ne (Ne.symm hpath),
        beq_false_of_ne (Ne.symm hflag)]
      rfl

/-- A key is found in the first of some entries or in the others. -/
theorem lookup_cons_cases {entry : String × Item} {rest : List (String × Item)}
    (hentry : entry.1 ∉ keys rest) (key : String) :
    (rest.lookup key = none ∧ [entry].lookup key = (entry :: rest).lookup key)
      ∨ ([entry].lookup key = none ∧ rest.lookup key = (entry :: rest).lookup key) := by
  rw [List.lookup_cons, List.lookup_cons]
  by_cases hkey : key = entry.1
  · subst hkey
    exact Or.inl ⟨lookup_eq_none_iff.mpr hentry, by simp⟩
  · rw [beq_false_of_ne hkey]
    exact Or.inr ⟨rfl, rfl⟩

/-- Entries under distinct keys are taken over one after the other. -/
theorem given_cons {entry : String × Item} {rest : List (String × Item)}
    (hentry : entry.1 ∉ keys rest) :
    (settings.given [entry]).given rest = settings.given (entry :: rest) := by
  rcases lookup_cons_cases hentry "mapping_file" with ⟨hpath, hsame⟩ | ⟨hpath, hsame⟩ <;>
    rcases lookup_cons_cases hentry "show_instructions" with ⟨hflag, hequal⟩ | ⟨hflag, hequal⟩ <;>
      simp only [given, hpath, hflag, ← hsame, ← hequal]

theorem ofEntries_of_fits (settings : Settings) (hnodup : (keys entries.shown).Nodup)
    (hfits : ∀ entry ∈ entries.shown, fits entry = true) :
    settings.ofEntries entries = .ok (settings.given entries.shown) := by
  induction entries generalizing settings with
  | nil => rfl
  | cons entry rest ih =>
      obtain ⟨key, value⟩ := entry
      obtain ⟨hkey, hrest⟩ := List.nodup_cons.mp hnodup
      have hentry := hfits _ List.mem_cons_self
      rcases settings.readEntry_eq key value with ⟨_, hread⟩ | ⟨hmisfit, _⟩
      · simp only [ofEntries, hread]
        rw [ih _ hrest fun other hother => hfits other (List.mem_cons_of_mem _ hother)]
        exact congrArg Except.ok (given_cons hkey)
      · exact absurd (hentry.symm.trans hmisfit) (by decide)

/-- The first entry that does not fit is refused. -/
theorem ofEntries_of_misfit (settings : Settings) {misfit : String × Item}
    (hmisfit : entries.shown.find? (fun entry => !fits entry) = some misfit) :
    ∃ found wanted, wanted? misfit.1 = some wanted ∧ found.shown = misfit.2
      ∧ settings.ofEntries entries = .error (.mismatch found wanted) := by
  induction entries generalizing settings with
  | nil => cases hmisfit
  | cons entry rest ih =>
      obtain ⟨key, value⟩ := entry
      rw [Entries.shown, List.map_cons, List.find?_cons] at hmisfit
      rcases settings.readEntry_eq key value with ⟨hfits, hread⟩ | ⟨hfirst, wanted, hwanted, hread⟩
      · simp only [hfits] at hmisfit
        simp only [ofEntries, hread]
        exact ih _ hmisfit
      · simp only [hfirst] at hmisfit
        cases hmisfit
        exact ⟨value, wanted, hwanted, rfl, by simp only [ofEntries, hread]⟩

section Agreeing

variable {items others : List (String × Item)}
  (hagree : ∀ key, wanted? key ≠ none → items.lookup key = others.lookup key)
include hagree

theorem given_congr (settings : Settings) : settings.given items = settings.given others := by
  have hpath := hagree "mapping_file" (Option.some_ne_none _)
  have hflag := hagree "show_instructions" (Option.some_ne_none _)
  rw [given, given, hpath, hflag]

theorem fits_congr (hnodup : (keys others).Nodup) (hfits : ∀ entry ∈ items, fits entry = true) :
    ∀ entry ∈ others, fits entry = true := by
  rintro ⟨key, item⟩ hentry
  cases hwanted : wanted? key with
  | none => rw [fits, hwanted, Option.all_none]
  | some wanted =>
      have hlookup := hagree key (by rw [hwanted]; exact Option.some_ne_none wanted)
      rw [lookup_of_mem hnodup hentry] at hlookup
      exact hfits _ (mem_of_lookup hlookup)

end Agreeing

section Document

variable {text : List Char} {lines : List Line} (hdocument : IsDocument .reading text lines)
include hdocument

theorem ofToml_of_fits (hfits : ∀ entry ∈ topLevel lines, fits entry = true) :
    ofToml text = .ok (default.given (topLevel lines)) := by
  obtain ⟨⟨entries, hparse, hshown⟩, hnodup⟩ := Toml.parse_of_isDocument hdocument
  rw [← hshown] at hfits hnodup ⊢
  rw [ofToml, hparse]
  exact ofEntries_of_fits default hnodup hfits

theorem ofToml_of_misfit {misfit : String × Item}
    (hmisfit : (topLevel lines).find? (fun entry => !fits entry) = some misfit) :
    ∃ found wanted, wanted? misfit.1 = some wanted ∧ found.shown = misfit.2
      ∧ ofToml text = .error (.mismatch found wanted) := by
  obtain ⟨⟨entries, hparse, hshown⟩, -⟩ := Toml.parse_of_isDocument hdocument
  rw [← hshown] at hmisfit
  rw [ofToml, hparse]
  exact ofEntries_of_misfit default hmisfit

theorem toOption_ofToml :
    (ofToml text).toOption =
      if (∀ entry ∈ topLevel lines, fits entry = true) then some (default.given (topLevel lines))
      else none := by
  split
  · rename_i hfits
    rw [ofToml_of_fits hdocument hfits]
    rfl
  · rename_i hfits
    have hsome : (topLevel lines).find? (fun entry => !fits entry) ≠ none := by
      simpa using hfits
    obtain ⟨misfit, hmisfit⟩ := Option.ne_none_iff_exists'.mp hsome
    obtain ⟨_, _, _, _, hread⟩ := ofToml_of_misfit hdocument hmisfit
    rw [hread]
    rfl

end Document

theorem ofToml_of_parse_error {text : List Char} {fault : Toml.Fault}
    (h : Toml.parse text = .error fault) : ofToml text = .error (.notToml fault) := by
  rw [ofToml, h]

/-- Settings are read from two keys of the top level of a document and from nothing else.  If what
stands there fits, each setting is the given one, or else the default one; otherwise the first of
the two that does not fit is refused.  So documents that agree on these keys give the same settings.
A text that is no document is refused as such, whatever its entries are.  One is a text with two
entries for a key in any of its tables. -/
theorem ofToml_reads_keys (text : List Char) :
    (∀ lines, IsDocument .reading text lines →
      (keys (topLevel lines)).Nodup
        ∧ ((∀ entry ∈ topLevel lines, fits entry = true) →
          ofToml text = .ok (given ⟨.ofString "gc_n64_mappings.json", true⟩ (topLevel lines)))
        ∧ (∀ misfit, (topLevel lines).find? (fun entry => !fits entry) = some misfit →
          ∃ found wanted, ofToml text = .error (.mismatch found wanted)
            ∧ found.shown = misfit.2 ∧ wanted? misfit.1 = some wanted
            ∧ ∃ kind, Described misfit.2 kind ∧ (ReadError.mismatch found wanted).detail =
              "invalid type: " ++ kind ++ ", expected " ++ wanted.describe)
        ∧ ∀ other otherLines, IsDocument .reading other otherLines →
          (∀ key, wanted? key ≠ none →
            (topLevel lines).lookup key = (topLevel otherLines).lookup key) →
          (ofToml text).toOption = (ofToml other).toOption)
      ∧ ((¬ ∃ lines, IsDocument .reading text lines) →
        ∃ fault, ofToml text = .error (.notToml fault))
      ∧ ∀ lines, Written .reading text lines → repeatsKey lines = true →
        ∃ fault, ofToml text = .error (.notToml fault) := by
  refine ⟨fun lines hdocument => ?_, fun hnone => ?_, fun lines hwritten hrepeats => ?_⟩
  · obtain ⟨-, hnodup⟩ := Toml.parse_of_isDocument hdocument
    refine ⟨hnodup, ofToml_of_fits hdocument, fun misfit hmisfit => ?_,
      fun other otherLines hother hagree => ?_⟩
    · obtain ⟨found, wanted, hwanted, hfound, hread⟩ := ofToml_of_misfit hdocument hmisfit
      exact ⟨found, wanted, hread, hfound, hwanted, describe found, hfound ▸ described found, rfl⟩
    · obtain ⟨-, hotherNodup⟩ := Toml.parse_of_isDocument hother
      have hsame : (∀ entry ∈ topLevel lines, fits entry = true) ↔
          ∀ entry ∈ topLevel otherLines, fits entry = true :=
        ⟨fits_congr hagree hotherNodup,
          fits_congr (fun key hkey => (hagree key hkey).symm) hnodup⟩
      rw [toOption_ofToml hdocument, toOption_ofToml hother, given_congr hagree]
      simp only [hsame]
  · cases hparse : Toml.parse text with
    | error fault => exact ⟨fault, ofToml_of_parse_error hparse⟩
    | ok entries =>
        obtain ⟨lines, hdocument, -⟩ := Toml.isDocument_of_parse hparse
        exact absurd ⟨lines, hdocument⟩ hnone
  · have hnot := Toml.not_consistent_of_repeatsKey hrepeats
    exact ⟨.malformed, ofToml_of_parse_error (Toml.parse_of_written hwritten hnot)⟩

/-- A quoted key counts like a bare one, and keys below the top level do not count.  A table that is
passed by a dotted key is no boolean, and this is told before the other key is looked at.  A key
that comes twice and a line that breaks off leave no document. -/
theorem ofToml_reads_keys_nested :
    let nested := "\"mapping_file\" = 'x'\n[a]\nmapping_file = 1\n[[b.show_instructions]]\n".toList
    let dotted := "show_instructions.a = 1\n[mapping_file]\n".toList
    ofToml nested = .ok ⟨.ofString "x", true⟩
      ∧ (∃ found wanted, ofToml dotted = .error (.mismatch found wanted)
          ∧ (ReadError.mismatch found wanted).detail = "invalid type: map, expected a boolean")
      ∧ (∃ fault, ofToml "[a]\nb = 'x'\n'b' = 'y'\n".toList = .error (.notToml fault))
      ∧ ∃ fault, ofToml "mapping_file = 1\n=".toList = .error (.notToml fault) := by
  intro nested dotted
  refine ⟨?_, ?_, ?_, ?_⟩
  · obtain ⟨lines, hdocument, hlines⟩ := @Toml.exists_isDocument nested
      [("mapping_file", .text "x"), ("a", .table), ("b", .table)] (by decide +kernel)
    obtain ⟨-, hread, -⟩ := (ofToml_reads_keys nested).1 lines hdocument
    rw [hlines] at hread
    exact hread (by decide)
  · obtain ⟨lines, hdocument, hlines⟩ := @Toml.exists_isDocument dotted
      [("show_instructions", .table), ("mapping_file", .table)] (by decide +kernel)
    obtain ⟨-, -, hrefused, -⟩ := (ofToml_reads_keys dotted).1 lines hdocument
    rw [hlines] at hrefused
    obtain ⟨found, wanted, hread, -, hwanted, kind, hkind, hdetail⟩ :=
      hrefused ("show_instructions", .table) (by decide)
    cases hwanted
    cases hkind
    exact ⟨found, .boolean, hread, hdetail⟩
  · have hread : (Toml.linesFrom "[a]\nb = 'x'\n'b' = 'y'\n".toList).2 = none := by decide +kernel
    refine (ofToml_reads_keys _).2.2 _
      (Toml.written_iff_lines.mpr (Toml.linesFrom_sound (Prod.ext rfl hread)).1) ?_
    decide +kernel
  · refine (ofToml_reads_keys _).2.1 ?_
    rintro ⟨lines, hdocument⟩
    obtain ⟨⟨entries, hentries, -⟩, -⟩ := Toml.parse_of_isDocument hdocument
    have hnone : (Toml.parse "mapping_file = 1\n=".toList).toOption.isSome = false := by
      decide +kernel
    rw [hentries] at hnone
    cases hnone

/-- Arrays in each other, the innermost one empty. -/
def brackets (depth : Nat) : List Char :=
  .replicate depth '[' ++ .replicate depth ']'

theorem brackets_succ (depth : Nat) : brackets (depth + 1) = '[' :: (brackets depth ++ [']']) := by
  rw [brackets, List.replicate_succ, List.replicate_succ', brackets, List.cons_append,
    List.append_assoc]

theorem isValue_brackets (limits : Limits) (depth : Nat) :
    IsValue limits (depth + 1) (brackets (depth + 1)) .array := by
  have hgap : Gap [] := .last Toml.blanks_nil
  rw [brackets_succ]
  induction depth with
  | zero => exact .array (.empty hgap)
  | succ depth ih =>
      have hvalue : brackets (depth + 1) ++ [']'] = brackets (depth + 1) ++ [] ++ [']'] := by simp
      rw [hvalue, brackets_succ]
      exact .array (@ArrayText.filled _ [] _ hgap (.last ih hgap))

/-- Not all of TOML is read.  Here arrays nest deeper than they may, under a key that settings do
not have. -/
theorem ofToml_refuses_deep_nesting :
    let text := "x = ".toList ++ brackets 128
    (∃ limits lines, IsDocument limits text lines ∧ ∀ entry ∈ topLevel lines, fits entry = true)
      ∧ ∃ fault, ofToml text = .error (.notToml fault) := by
  intro text
  constructor
  · let limits : Limits := ⟨128, 79, false⟩
    have hbare : ∀ c ∈ ['x'], IsBare c := by
      rintro c (_ | ⟨_, ⟨⟩⟩)
      exact Toml.isBareChar_iff.mp rfl
    have hkey : Dotted ['x'] ⟨[], "x"⟩ := .one (.bare (by decide) hbare)
    have hblank : Blanks [' '] := fun c hc => Or.inl (List.mem_singleton.mp hc)
    have hpair : PairText limits (IsValue limits 128)
        (['x'] ++ [' '] ++ '=' :: [' '] ++ brackets 128) ⟨[], "x"⟩ .array :=
      .mk hkey (by decide) hblank hblank (isValue_brackets limits 127)
    have hline := WholeLine.mk Toml.blanks_nil (.entry hpair) Toml.blanks_nil .none
    rw [List.nil_append, List.append_nil, List.append_nil] at hline
    refine ⟨limits, _, ⟨.plain (.last hline), ?_⟩, ?_⟩
    · exact ⟨Places.admits_of_path_nil rfl, trivial⟩
    · decide
  · have hnone : (Toml.parse text).toOption.isSome = false := by decide +kernel
    cases hparse : Toml.parse text with
    | error fault => exact ⟨fault, ofToml_of_parse_error hparse⟩
    | ok entries =>
        rw [hparse] at hnone
        cases hnone

end Settings
end PadBridge
