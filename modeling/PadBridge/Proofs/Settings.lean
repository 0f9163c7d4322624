import PadBridge.Proofs.SettingsKeys
import PadBridge.Proofs.Toml.Quoted
import PadBridge.Proofs.Utf8

/-!
Settings that have a text are read back from it as they were, down to the spelling of the path.
-/

namespace PadBridge.Settings

open Toml (Item Line Places topLevel)
open Toml.Grammar

variable {rest written : List Char} {lines : List Line}

/-- A line of a settings text, in front of what follows it. -/
theorem lines_line {key : String} (hne : key.toList ≠ [])
    (hkey : key.toList.all Toml.isBareChar = true) {item : Item}
    (hvalue : IsValue .reading Limits.reading.nesting written item)
    (hrest : Lines .reading rest lines) :
    Lines .reading (line key written ++ rest) (.entry ⟨[], key⟩ item :: lines) := by
  have hbare : ∀ c ∈ key.toList, IsBare c := fun c hc =>
    Toml.isBareChar_iff.mp (List.all_eq_true.mp hkey c hc)
  have hpart : KeyPart key.toList key := by
    have h := KeyPart.bare hne hbare
    rwa [String.ofList_toList] at h
  have hblank : Blanks [' '] := fun c hc => Or.inl (List.mem_singleton.mp hc)
  have hpair : PairText .reading (IsValue .reading Limits.reading.nesting)
      (key.toList ++ [' '] ++ '=' :: [' '] ++ written) ⟨[], key⟩ item :=
    .mk (.one hpart) (Nat.le_add_left 1 78) hblank hblank hvalue
  have hlines := Lines.more (.mk Toml.blanks_nil (.entry hpair) Toml.blanks_nil .none) .feed hrest
  have hinput : [] ++ (key.toList ++ [' '] ++ '=' :: [' '] ++ written) ++ [] ++ [] ++ ['\n']
      ++ rest = line key written ++ rest := by
    simp [line]
  rwa [hinput] at hlines

theorem isValue_path (path : List Char) :
    IsValue .reading Limits.reading.nesting (Toml.quoted path) (.text (.ofList path)) :=
  .scalar (.text (Toml.stringText_quoted path))

theorem isValue_flag (flag : Bool) :
    IsValue .reading Limits.reading.nesting (toString flag).toList (.boolean flag) := by
  cases flag with
  | true => exact .scalar .yes
  | false => exact .scalar .no

theorem lines_flag (flag : Bool) :
    Lines .reading (line showInstructionsKey (toString flag).toList)
      [.entry ⟨[], showInstructionsKey⟩ (.boolean flag)] := by
  have hlines := @lines_line [] _ [] showInstructionsKey (by decide) (by decide) _
    (isValue_flag flag) Toml.lines_nil
  rwa [List.append_nil] at hlines

/-- A text with the flag only keeps the default path. -/
theorem ofToml_flag (flag : Bool) :
    ofToml (line showInstructionsKey (toString flag).toList) =
      .ok { default with showInstructions := flag } := by
  have hdocument : IsDocument .reading (line showInstructionsKey (toString flag).toList)
      [.entry ⟨[], showInstructionsKey⟩ (.boolean flag)] :=
    ⟨.plain (lines_flag flag), Places.admits_of_path_nil rfl, trivial⟩
  exact ofToml_of_fits hdocument (List.forall_mem_cons.mpr ⟨rfl, nofun⟩)

/-- A settings text is a document with one entry for each of the two settings. -/
theorem isDocument_settings (path : List Char) (flag : Bool) :
    IsDocument .reading
      (line mappingFileKey (Toml.quoted path) ++ line showInstructionsKey (toString flag).toList)
      [.entry ⟨[], mappingFileKey⟩ (.text (.ofList path)),
        .entry ⟨[], showInstructionsKey⟩ (.boolean flag)] where
  written := .plain (lines_line (by decide) (by decide) (isValue_path path) (lines_flag flag))
  consistent := ⟨Places.admits_of_path_nil rfl, Places.admits_of_path_nil rfl, trivial⟩

/-- Settings that have a text are read back from it. -/
theorem ofToml_of_toToml {settings : Settings} {text : List Char}
    (htext : settings.toToml = .ok text) : ofToml text = .ok settings := by
  obtain ⟨⟨bytes⟩, flag⟩ := settings
  rw [toToml] at htext
  split at htext
  · rename_i path hpath
    cases htext
    have hbytes : bytes = Utf8.encode path := Utf8.decode?_eq_some_iff.mp hpath
    have hread : ofToml (line mappingFileKey (Toml.quoted path)
        ++ line showInstructionsKey (toString flag).toList) =
          .ok ⟨.ofString (String.ofList path), flag⟩ :=
      ofToml_of_fits (isDocument_settings path flag)
        (List.forall_mem_cons.mpr ⟨rfl, List.forall_mem_cons.mpr ⟨rfl, nofun⟩⟩)
    rw [hread, Path.ofString, Utf8.bytesOf, String.toList_ofList, hbytes]
  · cases htext

theorem toToml_ofString (path : String) (flag : Bool) :
    toToml ⟨.ofString path, flag⟩ = .ok (line mappingFileKey (Toml.quoted path.toList)
      ++ line showInstructionsKey (toString flag).toList) := by
  have hpath : Utf8.decode? (Path.ofString path).bytes = some path.toList :=
    Utf8.decode?_eq_some_iff.mpr rfl
  simp only [toToml, hpath]

/-- Settings whose path is any Unicode text at all have a text, and are read back from it with the
same spelling of the path.  Settings whose path is no Unicode text have none. -/
theorem toToml_roundTrip :
    (∀ (path : String) (flag : Bool), ∃ text, toToml ⟨.ofString path, flag⟩ = .ok text
      ∧ ofToml text = .ok ⟨.ofString path, flag⟩) ∧
    ∀ settings : Settings, (∀ path : String, settings.mappingFile ≠ .ofString path) →
      settings.toToml = .error .pathNotText := by
  refine ⟨fun path flag => ?_, fun settings hpath => ?_⟩
  · have htext := toToml_ofString path flag
    exact ⟨_, htext, ofToml_of_toToml htext⟩
  · rw [toToml]
    split
    · rename_i path hdecode
      have hbytes : settings.mappingFile.bytes = Utf8.encode path :=
        Utf8.decode?_eq_some_iff.mp hdecode
      refine absurd ?_ (hpath (String.ofList path))
      rw [Path.ofString, Utf8.bytesOf, String.toList_ofList, ← hbytes]
    · rfl

/-- A path that ends with quotes behind a line end, and one that breaks off within a character. -/
theorem toToml_roundTrip_quotes :
    (∃ text, toToml ⟨.ofString "\n''''\"\"\"\\\r\t\"\"", false⟩ = .ok text
      ∧ ofToml text = .ok ⟨.ofString "\n''''\"\"\"\\\r\t\"\"", false⟩) ∧
    toToml ⟨⟨[0xC3]⟩, true⟩ = .error .pathNotText := by
  refine ⟨toToml_roundTrip.1 _ _, toToml_roundTrip.2 _ fun path hpath => ?_⟩
  have hdecode : Utf8.decode? [0xC3] = some path.toList :=
    Utf8.decode?_eq_some_iff.mpr (congrArg Path.bytes hpath)
  have hbroken : Utf8.decode? [0xC3] = none := by
    rw [Utf8.decode?]
    rfl
  rw [hbroken] at hdecode
  cases hdecode

end PadBridge.Settings
