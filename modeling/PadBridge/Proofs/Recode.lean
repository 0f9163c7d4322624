import PadBridge.Proofs.Document

/-!
Mappings that come back from their documents.  A mapping is canonical if its targets are read from
names and none of its other entries is named like a button.  What is read from a document is
canonical, editing keeps it so, and a canonical mapping is left as it is when it is written and read
again.
-/

namespace PadBridge

theorem Target.ofName_name_button (destination : N64Button) :
    Target.ofName destination.name = .button destination := by
  cases destination <;> rfl

namespace Mapping

/-- Every target is read from a name, and no other entry is named like a button. -/
structure Canonical (mapping : Mapping) : Prop where
  targets : ∀ button, ∃ name, mapping.get button = .ofName name
  extras : ∀ key ∈ mapping.extra.keys, isExtraKey key = true

theorem canonical_factory : Canonical factory where
  targets button := ⟨button.factory.name, (Target.ofName_name_button button.factory).symm⟩
  extras key hkey := by cases hkey

theorem canonical_unassigned : Canonical unassigned where
  targets button := ⟨Target.noneName, get_unassigned button⟩
  extras key hkey := by cases hkey

theorem Canonical.set {mapping : Mapping} (hcanonical : Canonical mapping)
    (source : GameCubeButton) (name : String) : Canonical (mapping.set source (.ofName name)) where
  targets button := by
    rw [get_set]
    split
    · exact ⟨name, rfl⟩
    · exact hcanonical.targets button
  extras := hcanonical.extras

theorem canonical_readEntries (members : List (String × String)) :
    Canonical (factory.readEntries members) where
  targets button := by
    rw [get_readEntries]
    cases lastValue? members button.name with
    | none => exact canonical_factory.targets button
    | some value => exact ⟨value, rfl⟩
  extras key hkey := by
    rw [extra_readEntries] at hkey
    change key ∈ (Ledger.ofList (extraEntries members)).keys at hkey
    rw [keys_ofList_extraEntries, List.mem_filter] at hkey
    exact hkey.2

theorem canonical_ofDocument (document : Document) : Canonical (ofDocument document) :=
  canonical_readEntries document.entries

theorem canonical_of_decode {bytes : List UInt8} {mapping : Mapping}
    (hdecode : decode bytes = .ok mapping) : Canonical mapping := by
  obtain ⟨members, _, rfl⟩ := decode_eq_ok_iff.mp hdecode
  exact canonical_readEntries members

theorem lastValue?_namedEntries (mapping : Mapping) (button : GameCubeButton) :
    lastValue? mapping.namedEntries button.name = some (mapping.get button).name := by
  cases button <;> rfl

theorem map_fst_namedEntries (mapping : Mapping) :
    mapping.namedEntries.map Prod.fst = GameCubeButton.all.map GameCubeButton.name :=
  rfl

theorem isExtraKey_iff {key : String} :
    isExtraKey key = true ↔ key ∉ GameCubeButton.all.map GameCubeButton.name := by
  rw [isExtraKey, Option.isNone_iff_eq_none, GameCubeButton.ofName?_eq_none_iff]
  simp [GameCubeButton.mem_all]

theorem get?_toDocument (mapping : Mapping) (key : String) :
    mapping.toDocument.get? key =
      (mapping.extra.get? key).or (lastValue? mapping.namedEntries key) := by
  rw [toDocument, Ledger.get?_insertAll, Ledger.get?_ofList, ← Ledger.get?_eq_lastValue?]

theorem keys_toDocument (mapping : Mapping) :
    mapping.toDocument.keys =
      GameCubeButton.all.map GameCubeButton.name ++ mapping.extra.keys.filter isExtraKey := by
  have hnames : (Ledger.ofList mapping.namedEntries).keys =
      GameCubeButton.all.map GameCubeButton.name := by
    rw [Ledger.keys_ofList, map_fst_namedEntries]
    decide
  have hextras : mapping.extra.keys.filter (· ∉ GameCubeButton.all.map GameCubeButton.name) =
      mapping.extra.keys.filter isExtraKey := by
    apply List.filter_congr
    intro key _
    rw [Bool.eq_iff_iff, decide_eq_true_eq, isExtraKey_iff]
  have hnodup : (mapping.extra.keys.filter isExtraKey).Nodup :=
    mapping.extra.keys_nodup.filter isExtraKey
  rw [toDocument, Ledger.keys_insertAll, hnames]
  change _ ++ (mapping.extra.keys.filter _).eraseDups = _
  rw [hextras, eraseDups_of_nodup hnodup]

/-- What the document of a mapping says about a button: the name of its target, unless an extra
entry has taken its place. -/
def written (mapping : Mapping) (button : GameCubeButton) : String :=
  (mapping.extra.get? button.name).getD (mapping.get button).name

theorem get?_toDocument_name (mapping : Mapping) (button : GameCubeButton) :
    mapping.toDocument.get? button.name = some (mapping.written button) := by
  rw [get?_toDocument, lastValue?_namedEntries, written]
  cases mapping.extra.get? button.name <;> rfl

/-- The document of a mapping: the buttons in their order, and then what names no button. -/
theorem entries_toDocument (mapping : Mapping) :
    mapping.toDocument.entries =
      buttonEntries mapping.written ++ extraEntries mapping.extra.entries := by
  apply Ledger.entries_eq_of_get?
  · rw [keys_toDocument, List.map_append, map_fst_buttonEntries, map_fst_extraEntries]
    rfl
  · intro entry hentry
    rcases List.mem_append.mp hentry with hbutton | hextra
    · obtain ⟨button, _, rfl⟩ := List.mem_map.mp hbutton
      exact mapping.get?_toDocument_name button
    · obtain ⟨hmem, _⟩ := List.mem_filter.mp hextra
      rw [get?_toDocument, Ledger.get?_eq_some_iff.mpr hmem]
      rfl

theorem get_recode (mapping : Mapping) (button : GameCubeButton) :
    mapping.recode.get button = .ofName (mapping.written button) := by
  rw [recode, get_ofDocument, get?_toDocument_name]
  rfl

theorem entries_extra_recode (mapping : Mapping) :
    mapping.recode.extra.entries = extraEntries mapping.extra.entries := by
  rw [recode, entries_extra_ofDocument, entries_toDocument, extraEntries_append,
    extraEntries_buttonEntries, extraEntries_extraEntries, List.nil_append]

theorem Canonical.written {mapping : Mapping} (hcanonical : Canonical mapping)
    (button : GameCubeButton) : mapping.written button = (mapping.get button).name := by
  have habsent : mapping.extra.get? button.name = none := by
    refine Ledger.get?_eq_none_iff.mpr fun hkey => ?_
    have hextra := hcanonical.extras button.name hkey
    rw [isExtraKey_name] at hextra
    cases hextra
  rw [Mapping.written, habsent]
  rfl

/-- A canonical mapping is what its document says. -/
theorem Canonical.recode {mapping : Mapping} (hcanonical : Canonical mapping) :
    mapping.recode = mapping := by
  refine ext_get (fun button => ?_) (Ledger.ext_entries ?_)
  · obtain ⟨name, hname⟩ := hcanonical.targets button
    rw [get_recode, hcanonical.written, hname, Target.name_ofName]
  · rw [entries_extra_recode]
    exact List.filter_eq_self.mpr fun entry hentry =>
      hcanonical.extras entry.1 (List.mem_map_of_mem hentry)

/-- The text of a canonical mapping is decoded to the mapping itself. -/
theorem Canonical.decode_text {mapping : Mapping} (hcanonical : Canonical mapping) :
    decode (Utf8.bytesOf mapping.text) = .ok mapping := by
  rw [text, decode_bytesOf_text]
  exact congrArg Except.ok hcanonical.recode

end Mapping
end PadBridge
