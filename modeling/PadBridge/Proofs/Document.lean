import PadBridge.Proofs.Json.Objects
import PadBridge.Proofs.Json.Printing
import PadBridge.Proofs.Ledger
import PadBridge.Proofs.Stream.Source
import PadBridge.Session

/-!
Mapping documents as texts.  The members of a document decide its mapping button by button; how the
text spells them, and where among the others a button's member stands, does not show.  A text that
was written for a mapping is read back as its document, whatever the names in it are.
-/

namespace PadBridge

def isExtraKey (key : String) : Bool :=
  (GameCubeButton.ofName? key).isNone

theorem isExtraKey_name (button : GameCubeButton) : isExtraKey button.name = false := by
  simp [isExtraKey]

def extraEntries (entries : List (String × String)) : List (String × String) :=
  entries.filter fun entry => isExtraKey entry.1

theorem extraEntries_eq_filter (entries : List (String × String)) :
    extraEntries entries = entries.filter fun entry => GameCubeButton.ofName? entry.1 = none := by
  apply List.filter_congr
  intro entry _
  rw [isExtraKey]
  cases GameCubeButton.ofName? entry.1 <;> simp

theorem map_fst_extraEntries (entries : List (String × String)) :
    (extraEntries entries).map Prod.fst = (entries.map Prod.fst).filter isExtraKey := by
  rw [List.filter_map]
  rfl

theorem lastValue?_extraEntries (entries : List (String × String)) (key : String) :
    lastValue? (extraEntries entries) key =
      if isExtraKey key then lastValue? entries key else none :=
  lastValue?_filter entries isExtraKey key

theorem extraEntries_append (left right : List (String × String)) :
    extraEntries (left ++ right) = extraEntries left ++ extraEntries right :=
  List.filter_append left right

theorem extraEntries_extraEntries (entries : List (String × String)) :
    extraEntries (extraEntries entries) = extraEntries entries := by
  rw [extraEntries, extraEntries, List.filter_filter]
  simp only [Bool.and_self]

theorem nodup_extraEntries {entries : List (String × String)}
    (hnodup : (entries.map Prod.fst).Nodup) : ((extraEntries entries).map Prod.fst).Nodup := by
  rw [map_fst_extraEntries]
  exact hnodup.filter isExtraKey

def buttonEntries (value : GameCubeButton → String) : List (String × String) :=
  GameCubeButton.all.map fun button => (button.name, value button)

theorem map_fst_buttonEntries (value : GameCubeButton → String) :
    (buttonEntries value).map Prod.fst = GameCubeButton.all.map GameCubeButton.name :=
  rfl

theorem extraEntries_buttonEntries (value : GameCubeButton → String) :
    extraEntries (buttonEntries value) = [] := by
  refine List.filter_eq_nil_iff.mpr fun entry hentry => ?_
  obtain ⟨button, _, rfl⟩ := List.mem_map.mp hentry
  simp [isExtraKey_name]

theorem keys_ofList_extraEntries (entries : List (String × String)) :
    (Ledger.ofList (extraEntries entries)).keys =
      (entries.map Prod.fst).eraseDups.filter isExtraKey := by
  rw [Ledger.keys_ofList, map_fst_extraEntries, eraseDups_filter]

namespace Mapping

theorem ext_get {left right : Mapping} (hget : ∀ button, left.get button = right.get button)
    (hextra : left.extra = right.extra) : left = right := by
  cases left
  cases right
  cases funext hget
  cases hextra
  rfl

def readEntries (mapping : Mapping) (entries : List (String × String)) : Mapping :=
  entries.foldl (fun sofar entry => sofar.read entry.1 entry.2) mapping

theorem get_read (mapping : Mapping) (key value : String) (button : GameCubeButton) :
    (mapping.read key value).get button =
      if button.name = key then .ofName value else mapping.get button := by
  rw [read]
  cases hkey : GameCubeButton.ofName? key with
  | none =>
      have hname : ¬ button.name = key := GameCubeButton.ofName?_eq_none_iff.mp hkey button
      rw [if_neg hname]
      rfl
  | some owner =>
      have howner : owner.name = key := GameCubeButton.ofName?_eq_some_iff.mp hkey
      rw [get_set]
      by_cases hbutton : button = owner
      · rw [if_pos hbutton, if_pos (hbutton ▸ howner)]
      · rw [if_neg hbutton, if_neg]
        intro hname
        exact hbutton (GameCubeButton.name_injective (hname.trans howner.symm))

theorem extra_read (mapping : Mapping) (key value : String) :
    (mapping.read key value).extra =
      if isExtraKey key then mapping.extra.insert key value else mapping.extra := by
  rw [read, isExtraKey]
  cases GameCubeButton.ofName? key <;> rfl

theorem get_readEntries (mapping : Mapping) (entries : List (String × String))
    (button : GameCubeButton) :
    (mapping.readEntries entries).get button =
      ((lastValue? entries button.name).map .ofName).getD (mapping.get button) := by
  induction entries generalizing mapping with
  | nil => rfl
  | cons entry rest ih =>
      rw [readEntries, List.foldl_cons, ← readEntries, ih, get_read, lastValue?_cons]
      cases lastValue? rest button.name with
      | none => by_cases hname : button.name = entry.1 <;> simp [hname]
      | some value => rfl

theorem extra_readEntries (mapping : Mapping) (entries : List (String × String)) :
    (mapping.readEntries entries).extra = mapping.extra.insertAll (extraEntries entries) := by
  induction entries generalizing mapping with
  | nil => rfl
  | cons entry rest ih =>
      rw [readEntries, List.foldl_cons, ← readEntries, ih, extra_read]
      by_cases hkey : isExtraKey entry.1 = true
      · have hcons : extraEntries (entry :: rest) = entry :: extraEntries rest :=
          List.filter_cons_of_pos hkey
        rw [if_pos hkey, hcons]
        rfl
      · have hcons : extraEntries (entry :: rest) = extraEntries rest :=
          List.filter_cons_of_neg hkey
        rw [if_neg hkey, hcons]

theorem get_ofDocument (document : Document) (button : GameCubeButton) :
    (ofDocument document).get button =
      ((document.get? button.name).map .ofName).getD (.button button.factory) := by
  rw [Ledger.get?_eq_lastValue?]
  exact get_readEntries factory document.entries button

theorem extra_ofDocument (document : Document) :
    (ofDocument document).extra = Ledger.ofList (extraEntries document.entries) :=
  extra_readEntries factory document.entries

/-- A document's other entries are kept as they stand. -/
theorem entries_extra_ofDocument (document : Document) :
    (ofDocument document).extra.entries = extraEntries document.entries := by
  rw [extra_ofDocument, Ledger.entries_ofList (nodup_extraEntries document.keys_nodup)]

/-- Members may be taken over as they come, without writing them into a document first. -/
theorem ofDocument_ofList (members : List (String × String)) :
    ofDocument (Ledger.ofList members) = factory.readEntries members := by
  refine ext_get (fun button => ?_) ?_
  · rw [get_ofDocument, get_readEntries, Ledger.get?_ofList]
    rfl
  · rw [extra_ofDocument, extra_readEntries]
    change _ = Ledger.ofList (extraEntries members)
    refine Ledger.ext_get? ?_ fun key => ?_
    · rw [keys_ofList_extraEntries, keys_ofList_extraEntries]
      change (Ledger.ofList members).keys.eraseDups.filter isExtraKey = _
      rw [Ledger.eraseDups_keys, Ledger.keys_ofList]
    · rw [Ledger.get?_ofList, Ledger.get?_ofList, lastValue?_extraEntries,
        lastValue?_extraEntries, ← Ledger.get?_eq_lastValue?, Ledger.get?_ofList]

/-- A byte string is decoded exactly if it is the text of an object of strings, and then to what its
members say. -/
theorem decode_eq_ok_iff {bytes : List UInt8} {mapping : Mapping} :
    decode bytes = .ok mapping ↔
      ∃ members, Json.IsObjectText bytes members ∧ mapping = factory.readEntries members := by
  rw [decode, Document.ofBytes]
  constructor
  · intro h
    cases hread : Json.readObject bytes with
    | error error => rw [hread] at h; cases h
    | ok members =>
        rw [hread] at h
        cases h
        exact ⟨members, Json.readObject_eq_ok_iff.mp hread, ofDocument_ofList members⟩
  · intro h
    rcases h with ⟨members, hmembers, rfl⟩
    rw [Json.readObject_eq_ok_iff.mpr hmembers, ← ofDocument_ofList]
    rfl

/-- What the members of a document say about its mapping: the last value of a button's name is its
target, a button that is not mentioned has its factory destination, and what names no button is kept
in the order in which the keys first come, each with its last value. -/
structure Describes (members : List (String × String)) (mapping : Mapping) : Prop where
  get_of_mentioned : ∀ (button : GameCubeButton) (value : String),
    lastValue? members button.name = some value → mapping.get button = .ofName value
  get_of_absent : ∀ button : GameCubeButton, button.name ∉ members.map Prod.fst →
    mapping.get button = .button button.factory
  extra_keys : mapping.extra.keys =
    (members.map Prod.fst).eraseDups.filter fun key => GameCubeButton.ofName? key = none
  extra_values : ∀ key ∈ mapping.extra.keys, mapping.extra.get? key = lastValue? members key

theorem describes_readEntries (members : List (String × String)) :
    Describes members (factory.readEntries members) where
  get_of_mentioned button value hvalue := by
    rw [get_readEntries, hvalue]
    rfl
  get_of_absent button habsent := by
    rw [get_readEntries, lastValue?_eq_none_iff.mpr habsent]
    rfl
  extra_keys := by
    rw [extra_readEntries]
    change (Ledger.ofList (extraEntries members)).keys = _
    rw [keys_ofList_extraEntries]
    apply List.filter_congr
    intro key _
    rw [isExtraKey]
    cases GameCubeButton.ofName? key <;> simp
  extra_values key hkey := by
    rw [extra_readEntries] at hkey ⊢
    change key ∈ (Ledger.ofList (extraEntries members)).keys at hkey
    change (Ledger.ofList (extraEntries members)).get? key = _
    rw [keys_ofList_extraEntries, List.mem_filter] at hkey
    rw [Ledger.get?_ofList, lastValue?_extraEntries, if_pos hkey.2]

/-- A byte string is decoded exactly if it is the text of an object of strings, to the mapping that
its members describe; any other is malformed.  Two texts give the same mapping if their last values
for every button agree and the other members are the same. -/
theorem decode_objectText (bytes : List UInt8) :
    (∀ members, Json.IsObjectText bytes members →
      ∃ mapping, decode bytes = .ok mapping ∧ Describes members mapping) ∧
    ((¬ ∃ members, Json.IsObjectText bytes members) →
      ∃ error, decode bytes = .error error
        ∧ readFrom (.ofBytes bytes) = .error (.malformed error)) ∧
    ∀ members others other, Json.IsObjectText bytes members → Json.IsObjectText other others →
      (∀ button : GameCubeButton,
        lastValue? members button.name = lastValue? others button.name) →
      (members.filter fun entry => GameCubeButton.ofName? entry.1 = none) =
        (others.filter fun entry => GameCubeButton.ofName? entry.1 = none) →
      decode bytes = decode other := by
  refine ⟨?_, ?_, ?_⟩
  · intro members hmembers
    exact ⟨_, decode_eq_ok_iff.mpr ⟨members, hmembers, rfl⟩, describes_readEntries members⟩
  · intro hnone
    cases hdecode : decode bytes with
    | ok mapping =>
        obtain ⟨members, hmembers, _⟩ := decode_eq_ok_iff.mp hdecode
        exact absurd ⟨members, hmembers⟩ hnone
    | error error =>
        refine ⟨error, rfl, ?_⟩
        rw [readFrom, Source.readAll_ofBytes]
        simp only [hdecode]
        rfl
  · intro members others other hmembers hothers hbuttons hextra
    rw [← extraEntries_eq_filter, ← extraEntries_eq_filter] at hextra
    rw [decode_eq_ok_iff.mpr ⟨members, hmembers, rfl⟩,
      decode_eq_ok_iff.mpr ⟨others, hothers, rfl⟩]
    refine congrArg Except.ok (ext_get (fun button => ?_) ?_)
    · rw [get_readEntries, get_readEntries, hbuttons]
    · rw [extra_readEntries, extra_readEntries, hextra]

/-- Of a key that stands twice the last value counts, an unclosed object is malformed, and the place
of a button among the members does not matter. -/
theorem decode_objectText_repeated :
    (∃ mapping, decode (Utf8.bytesOf
        (Json.printObject [("A", "None"), ("note", "x"), ("A", "Z")])) = .ok mapping
      ∧ mapping.get .a = .button .z ∧ mapping.get .b = .button .b
      ∧ mapping.extra.get? "note" = some "x") ∧
    (∃ error, decode [0x7B] = .error error
      ∧ readFrom (.ofBytes [0x7B]) = .error (.malformed error)) ∧
    decode (Utf8.bytesOf (Json.printObject [("A", "None"), ("note", "x"), ("A", "Z")])) =
      decode (Utf8.bytesOf (Json.printObject [("note", "x"), ("A", "Z")])) := by
  have hrepeated := Json.isObjectText_printObject [("A", "None"), ("note", "x"), ("A", "Z")]
  have hsingle := Json.isObjectText_printObject [("note", "x"), ("A", "Z")]
  have hunclosed : ¬ ∃ members, Json.IsObjectText [0x7B] members := by
    intro h
    rcases h with ⟨members, hmembers⟩
    have hread := Json.readObject_eq_ok_iff.mpr hmembers
    have hfault : Json.readObject [0x7B] =
        .error ((Json.Fault.at .endInObject []).locate [0x7B]) := rfl
    rw [hfault] at hread
    cases hread
  obtain ⟨hdecoded, _, hsame⟩ := decode_objectText
    (Utf8.bytesOf (Json.printObject [("A", "None"), ("note", "x"), ("A", "Z")]))
  obtain ⟨mapping, hmapping, hdescribes⟩ := hdecoded _ hrepeated
  refine ⟨⟨mapping, hmapping, ?_, ?_, ?_⟩, (decode_objectText [0x7B]).2.1 hunclosed,
    hsame _ _ _ hrepeated hsingle ?_ ?_⟩
  · exact hdescribes.get_of_mentioned .a "Z" rfl
  · exact hdescribes.get_of_absent .b (by decide)
  · have hkeys : mapping.extra.keys = ["note"] := hdescribes.extra_keys.trans (by decide)
    rw [hdescribes.extra_values "note" (by simp [hkeys])]
    rfl
  · intro button
    cases button <;> decide
  · decide

/-- The text of a document is decoded to what the document says. -/
theorem decode_bytesOf_text (document : Document) :
    decode (Utf8.bytesOf document.text) = .ok (ofDocument document) := by
  refine decode_eq_ok_iff.mpr ⟨document.entries, Json.isObjectText_printObject _, ?_⟩
  rw [← ofDocument_ofList, Ledger.ofList_entries]

/-- The text of a mapping is an object with the entries of its document as members, in their order
and no others, and it is decoded to what is left of the mapping when its document is read. -/
theorem text_roundTrip (mapping : Mapping) :
    Json.IsObjectText (Utf8.bytesOf mapping.text) mapping.toDocument.entries ∧
    (∀ members, Json.IsObjectText (Utf8.bytesOf mapping.text) members →
      members = mapping.toDocument.entries) ∧
    decode (Utf8.bytesOf mapping.text) = .ok (ofDocument mapping.toDocument) := by
  have htext : Json.IsObjectText (Utf8.bytesOf mapping.text) mapping.toDocument.entries :=
    Json.isObjectText_printObject mapping.toDocument.entries
  refine ⟨htext, fun members hmembers => hmembers.unique htext, ?_⟩
  exact decode_bytesOf_text mapping.toDocument

end Mapping
end PadBridge
