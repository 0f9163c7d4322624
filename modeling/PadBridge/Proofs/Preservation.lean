import PadBridge.Proofs.Agreement
import PadBridge.Proofs.Recode

/-!
What reading and writing keep.  A mapping that is written and read again is the same exactly if it
is canonical: no target is called by a name that means another one, and no other entry is called
like a button.  A document that is read and written again keeps every one of its entries.
-/

namespace PadBridge

/-- A target is read from a name unless it is called unknown by a name that is known. -/
theorem Target.exists_ofName_iff (target : Target) :
    (∃ name, target = .ofName name) ↔
      ∀ name, target = .unknown name →
        name ≠ noneName ∧ ∀ destination : N64Button, name ≠ destination.name := by
  cases target with
  | unassigned => exact ⟨fun _ _ hunknown => by simp at hunknown, fun _ => ⟨noneName, rfl⟩⟩
  | button destination =>
      have hread := (ofName_name_button destination).symm
      exact ⟨fun _ _ hunknown => by simp at hunknown, fun _ => ⟨_, hread⟩⟩
  | unknown given =>
      constructor
      · intro h name hname
        obtain ⟨other, hread⟩ := h
        obtain rfl : given = name := by simpa using hname
        obtain rfl : given = other := (congrArg Target.name hread).trans (name_ofName other)
        constructor
        · rintro rfl
          cases hread
        · rintro destination rfl
          rw [ofName_name_button] at hread
          cases hread
      · intro h
        obtain ⟨hnone, hother⟩ := h given rfl
        have hread : N64Button.ofName? given = none :=
          N64Button.ofName?_eq_none_iff.mpr fun destination => (hother destination).symm
        exact ⟨given, by rw [ofName, if_neg hnone, hread]⟩

namespace Mapping

/-- A mapping is canonical if neither its targets nor its other entries borrow a name. -/
theorem canonical_iff {mapping : Mapping} :
    Canonical mapping ↔
      (∀ key ∈ mapping.extra.keys, ∀ button : GameCubeButton, key ≠ button.name) ∧
      ∀ button name, mapping.get button = .unknown name →
        name ≠ Target.noneName ∧ ∀ destination : N64Button, name ≠ destination.name := by
  have hkey : ∀ key, isExtraKey key = true ↔ ∀ button : GameCubeButton, key ≠ button.name := by
    intro key
    rw [isExtraKey, Option.isNone_iff_eq_none, GameCubeButton.ofName?_eq_none_iff]
    exact forall_congr' fun button => ne_comm
  simp only [← hkey, ← Target.exists_ofName_iff]
  exact ⟨fun h => ⟨h.extras, h.targets⟩, fun h => ⟨h.2, h.1⟩⟩

/-- Only a canonical mapping agrees with what its document says. -/
theorem recode_agrees_iff {mapping : Mapping} :
    mapping.recode.agrees mapping = true ↔ Canonical mapping := by
  rw [agrees_iff]
  constructor
  · intro h
    obtain ⟨hget, hextra⟩ := h
    -- Whatever is read from a document is canonical, and agreeing carries that over.
    refine ⟨fun button => ⟨mapping.written button, ?_⟩, fun key hkey => ?_⟩
    · rw [← get_recode, hget]
    · have hmem : key ∈ mapping.recode.extra.entries.map Prod.fst :=
        (hextra.map Prod.fst).mem_iff.mpr hkey
      rw [entries_extra_recode, map_fst_extraEntries, List.mem_filter] at hmem
      exact hmem.2
  · intro hcanonical
    rw [hcanonical.recode]
    exact ⟨rfl, List.Perm.refl _⟩

/-- What a mapping is when its document is read again.  A target comes back by its name, unless an
extra entry took its place, and the extra entries without a button's name come back as they stand.
The mapping agrees with this exactly if no name is borrowed, and then nothing at all is lost. -/
theorem recode_exact (mapping : Mapping) :
    (∀ button, mapping.recode.get button =
      .ofName ((mapping.extra.get? button.name).getD (mapping.get button).name)) ∧
    mapping.recode.extra.entries =
      mapping.extra.entries.filter (fun entry => GameCubeButton.ofName? entry.1 = none) ∧
    (mapping.recode.agrees mapping = true ↔
      (∀ key ∈ mapping.extra.keys, ∀ button : GameCubeButton, key ≠ button.name) ∧
      ∀ button name, mapping.get button = .unknown name →
        name ≠ Target.noneName ∧ ∀ destination : N64Button, name ≠ destination.name) ∧
    (mapping.recode.agrees mapping = true →
      mapping.recode.extra.entries = mapping.extra.entries ∧
      mapping.recode.generate = mapping.generate ∧
      mapping.recode.skipped = mapping.skipped) := by
  refine ⟨get_recode mapping, ?_, recode_agrees_iff.trans canonical_iff, fun hagrees => ?_⟩
  · rw [entries_extra_recode, extraEntries_eq_filter]
  · rw [(recode_agrees_iff.mp hagrees).recode]
    exact ⟨rfl, rfl, rfl⟩

/-- An unknown name and a note come back; a target that is called unknown by a button's name and an
extra entry that is called like a button do not. -/
theorem recode_exact_unknown_name :
    let kept := (factory.set .a (.unknown "Quack")).setExtra "note" "x"
    kept.recode.agrees kept = true ∧ kept.recode.generate = kept.generate
      ∧ (factory.set .a (.unknown "Z")).recode.agrees (factory.set .a (.unknown "Z")) = false
      ∧ (factory.setExtra "A" "Z").recode.get .a = .button .z := by
  intro kept
  have hagrees : kept.recode.agrees kept = true := by
    refine (recode_exact kept).2.2.1.mpr ⟨?_, ?_⟩
    · intro key hkey button
      obtain rfl : key = "note" := List.mem_singleton.mp hkey
      cases button <;> decide
    · intro button name hname
      cases button <;> cases hname
      exact ⟨by decide, fun destination => by cases destination <;> decide⟩
  refine ⟨hagrees, ((recode_exact kept).2.2.2 hagrees).2.1, ?_, ?_⟩
  · rw [Bool.eq_false_iff]
    intro h
    exact ((recode_exact _).2.2.1.mp h).2 .a "Z" rfl |>.2 .z rfl
  · rw [(recode_exact _).1]
    rfl

/-- Reading and writing a document keeps every entry: first come the buttons in their order, each
with what the document says about it or with its factory destination, then all other entries as
they stand.  Of the order of a document only the order of these shows in its mapping. -/
theorem toDocument_ofDocument (document : Document) :
    (ofDocument document).toDocument.entries =
      (GameCubeButton.all.map fun button =>
        (button.name, (document.get? button.name).getD button.factory.name)) ++
      document.entries.filter (fun entry => GameCubeButton.ofName? entry.1 = none) ∧
    ((ofDocument document).toDocument.entries.map Prod.fst).Nodup ∧
    ∀ other : Document, document.entries.Perm other.entries →
      (ofDocument document).agrees (ofDocument other) = true ∧
      (ofDocument document).generate = (ofDocument other).generate ∧
      (ofDocument document).get = (ofDocument other).get ∧
      (ofDocument document).extra.entries.Perm (ofDocument other).extra.entries := by
  refine ⟨?_, (ofDocument document).toDocument.keys_nodup, fun other hperm => ?_⟩
  · rw [entries_toDocument, entries_extra_ofDocument, extraEntries_extraEntries,
      extraEntries_eq_filter]
    refine congrArg (· ++ _) (List.map_congr_left fun button _ => ?_)
    rw [(canonical_ofDocument document).written, get_ofDocument]
    cases document.get? button.name with
    | none => rfl
    | some value => exact congrArg (Prod.mk button.name) (Target.name_ofName value)
  · have hget : (ofDocument document).get = (ofDocument other).get := by
      funext button
      rw [get_ofDocument, get_ofDocument, Ledger.perm_iff_get?.mp hperm]
    have hextra : (ofDocument document).extra.entries.Perm (ofDocument other).extra.entries := by
      rw [entries_extra_ofDocument, entries_extra_ofDocument]
      exact hperm.filter _
    exact ⟨agrees_iff.mpr ⟨hget, hextra⟩, generate_congr hget, hget, hextra⟩

/-- Two orders of one document give mappings that agree, though their other entries stand in
different orders. -/
theorem toDocument_ofDocument_reordered :
    let document : Document := Ledger.ofList [("Turbo", "A"), ("A", "Quack"), ("mode", "x")]
    let other : Document := Ledger.ofList [("mode", "x"), ("A", "Quack"), ("Turbo", "A")]
    document.entries.Perm other.entries
      ∧ (ofDocument document).agrees (ofDocument other) = true
      ∧ (ofDocument document).extra ≠ (ofDocument other).extra := by
  intro document other
  have hperm : document.entries.Perm other.entries := by decide
  obtain ⟨_, _, hreordered⟩ := toDocument_ofDocument document
  exact ⟨hperm, (hreordered other hperm).1, by decide⟩

end Mapping
end PadBridge
