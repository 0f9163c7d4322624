import Mathlib.Data.List.Induction
import PadBridge.Proofs.Agreement
import PadBridge.Proofs.Loading
import PadBridge.Proofs.Stores

/-!
Histories of a mapping.  Some operations put a new mapping in place of the old one, and behind the
last of these every target and every other entry is the one that was written last.
-/

namespace PadBridge

inductive Operation where
  | new
  | unassignAll
  | reset
  | set (source : GameCubeButton) (target : Target)
  | setExtra (key value : String)
  /-- Replace the mapping by the one that some bytes describe, if they do. -/
  | load (bytes : List UInt8)

/-- Targets, and entries that name no button. -/
structure Content where
  target : GameCubeButton → Target
  entries : List (String × String)

def Mapping.content (mapping : Mapping) : Content where
  target := mapping.get
  entries := mapping.extra.entries

namespace Operation

/-- What an operation leaves that keeps nothing of the mapping before it. -/
def left? : Operation → Option Content
  | .new | .reset => some ⟨fun source => .button source.factory, []⟩
  | .unassignAll => some ⟨fun _ => .unassigned, []⟩
  | .load bytes => (Mapping.decode bytes).toOption.map Mapping.content
  | .set _ _ | .setExtra _ _ => none

def target? (source : GameCubeButton) : Operation → Option Target
  | .set assigned target => if assigned = source then some target else none
  | _ => none

def entry? : Operation → Option (String × String)
  | .setExtra key value => some (key, value)
  | _ => none

end Operation

namespace Mapping

def apply (mapping : Mapping) : Operation → Mapping
  | .new => .factory
  | .unassignAll => .unassigned
  | .reset => (Session.mk mapping).reset.mapping
  | .set source target => mapping.set source target
  | .setExtra key value => mapping.setExtra key value
  | .load bytes => ((Session.mk mapping).load (.ofBytes bytes)).1.mapping

def applyAll (mapping : Mapping) (history : List Operation) : Mapping :=
  history.foldl apply mapping

end Mapping

namespace Stores

def apply (stores : Stores) : Operation → Stores
  | .new => .new
  | .unassignAll => .unassigned
  | .reset => stores.reset
  | .set source target => stores.set source target
  | .setExtra key value => stores.setExtra key value
  | .load bytes =>
      match Document.ofBytes bytes with
      | .ok document => .ofDocument document
      | .error _ => stores

def applyAll (stores : Stores) (history : List Operation) : Stores :=
  history.foldl apply stores

end Stores

namespace Mapping

theorem applyAll_append (mapping : Mapping) (before after : List Operation) :
    mapping.applyAll (before ++ after) = (mapping.applyAll before).applyAll after :=
  List.foldl_append

theorem content_inj {left right : Mapping} : left.content = right.content ↔ left = right := by
  refine ⟨fun h => ?_, congrArg content⟩
  obtain ⟨hget, hentries⟩ := Content.mk.inj h
  exact ext_get (congrFun hget) (Ledger.ext_entries hentries)

theorem content_factory : factory.content = ⟨fun source => .button source.factory, []⟩ :=
  rfl

theorem content_unassigned : unassigned.content = ⟨fun _ => .unassigned, []⟩ := by
  rw [content, extra_unassigned, funext get_unassigned]
  rfl

theorem content_reset (mapping : Mapping) : mapping.reset.content = factory.content :=
  rfl

theorem apply_load_of_ok (mapping : Mapping) {bytes : List UInt8} {next : Mapping}
    (hdecode : decode bytes = .ok next) : mapping.apply (.load bytes) = next := by
  rw [apply, Session.load_of_decode_ok ⟨mapping⟩ (Source.readAll_ofBytes bytes) hdecode]

theorem apply_load_of_error (mapping : Mapping) {bytes : List UInt8} {error : Json.Error}
    (hdecode : decode bytes = .error error) : mapping.apply (.load bytes) = mapping := by
  rw [apply, Session.load_of_decode_error ⟨mapping⟩ (Source.readAll_ofBytes bytes) hdecode]

/-- Nothing of the old mapping outlives an operation that replaces it. -/
theorem apply_of_left? (mapping : Mapping) {operation : Operation} {base : Content}
    (hleft : operation.left? = some base) : (mapping.apply operation).content = base := by
  cases operation with
  | new =>
      cases hleft
      exact content_factory
  | unassignAll =>
      cases hleft
      exact content_unassigned
  | reset =>
      cases hleft
      exact mapping.content_reset
  | set source target => cases hleft
  | setExtra key value => cases hleft
  | load bytes =>
      cases hdecode : decode bytes with
      | error error => simp [Operation.left?, hdecode, Except.toOption] at hleft
      | ok decoded =>
          simp only [Operation.left?, hdecode, Except.toOption, Option.map_some,
            Option.some.injEq] at hleft
          rw [mapping.apply_load_of_ok hdecode, hleft]

/-- An operation that does not replace the mapping writes at most one target or one entry. -/
theorem apply_of_keeps (mapping : Mapping) {operation : Operation}
    (hkeeps : operation.left? = none) :
    (∀ source, (mapping.apply operation).get source =
        (operation.target? source).getD (mapping.get source))
      ∧ (mapping.apply operation).extra = mapping.extra.insertAll operation.entry?.toList := by
  cases operation with
  | new => cases hkeeps
  | unassignAll => cases hkeeps
  | reset => cases hkeeps
  | set assigned target =>
      refine ⟨fun source => ?_, rfl⟩
      rw [apply, get_set, Operation.target?]
      by_cases hsource : source = assigned
      · simp [hsource]
      · simp [hsource, Ne.symm hsource]
  | setExtra key value => exact ⟨fun _ => rfl, rfl⟩
  | load bytes =>
      cases hdecode : decode bytes with
      | ok decoded => simp [Operation.left?, hdecode, Except.toOption] at hkeeps
      | error error =>
          rw [mapping.apply_load_of_error hdecode]
          exact ⟨fun _ => rfl, rfl⟩

end Mapping

namespace Stores

/-- An operation on stores is seen as the same operation on what is seen of them. -/
theorem seen_apply (stores : Stores) (operation : Operation) :
    (stores.apply operation).seen = stores.seen.apply operation := by
  cases operation with
  | new => exact seen_new
  | unassignAll => exact seen_unassigned
  | reset => exact stores.seen_reset
  | set source target => exact stores.seen_set source target
  | setExtra key value => exact stores.seen_setExtra key value
  | load bytes =>
      rw [apply]
      cases hdocument : Document.ofBytes bytes with
      | error error =>
          have hdecode : Mapping.decode bytes = .error error := by
            rw [Mapping.decode, hdocument]
            rfl
          rw [stores.seen.apply_load_of_error hdecode]
      | ok document =>
          have hdecode : Mapping.decode bytes = .ok (.ofDocument document) := by
            rw [Mapping.decode, hdocument]
            rfl
          rw [stores.seen.apply_load_of_ok hdecode]
          exact seen_ofDocument document

theorem seen_applyAll (stores : Stores) (history : List Operation) :
    (stores.applyAll history).seen = stores.seen.applyAll history :=
  seen_foldl seen_apply history stores

end Stores

namespace Mapping

def lastTarget? (history : List Operation) (source : GameCubeButton) : Option Target :=
  (history.filterMap (Operation.target? source)).getLast?

def writtenEntries (history : List Operation) : List (String × String) :=
  history.filterMap Operation.entry?

theorem lastTarget?_cons (operation : Operation) (history : List Operation)
    (source : GameCubeButton) :
    lastTarget? (operation :: history) source =
      (lastTarget? history source).or (operation.target? source) := by
  rw [lastTarget?, lastTarget?, List.filterMap_cons]
  cases operation.target? source with
  | none => rw [Option.or_none]
  | some target =>
      rw [List.getLast?_cons]
      cases (history.filterMap (Operation.target? source)).getLast? <;> rfl

/-- Operations that keep the mapping leave the last target of every source and the last value of
every entry, each entry at the place where it first came. -/
structure LastWritten (base : Content) (recent : List Operation) (mapping : Mapping) : Prop where
  target : ∀ source, mapping.get source = (lastTarget? recent source).getD (base.target source)
  keys : mapping.extra.keys = base.entries.map Prod.fst ++
    (((writtenEntries recent).map Prod.fst).filter (· ∉ base.entries.map Prod.fst)).eraseDups
  value : ∀ key, mapping.extra.get? key =
    (lastValue? (writtenEntries recent) key).or (base.entries.lookup key)
  nodup : mapping.extra.keys.Nodup

theorem get_applyAll (base : Mapping) {recent : List Operation}
    (hkeeps : ∀ operation ∈ recent, operation.left? = none) (source : GameCubeButton) :
    (base.applyAll recent).get source = (lastTarget? recent source).getD (base.get source) := by
  induction recent generalizing base with
  | nil => rfl
  | cons operation rest ih =>
      obtain ⟨hget, _⟩ := base.apply_of_keeps (hkeeps operation List.mem_cons_self)
      have hrest := ih (base.apply operation) fun other hother =>
        hkeeps other (List.mem_cons_of_mem operation hother)
      rw [applyAll, List.foldl_cons, ← applyAll, hrest, hget, lastTarget?_cons]
      cases lastTarget? rest source <;> rfl

theorem extra_applyAll (base : Mapping) {recent : List Operation}
    (hkeeps : ∀ operation ∈ recent, operation.left? = none) :
    (base.applyAll recent).extra = base.extra.insertAll (writtenEntries recent) := by
  induction recent generalizing base with
  | nil => rfl
  | cons operation rest ih =>
      obtain ⟨_, hextra⟩ := base.apply_of_keeps (hkeeps operation List.mem_cons_self)
      have hrest := ih (base.apply operation) fun other hother =>
        hkeeps other (List.mem_cons_of_mem operation hother)
      rw [applyAll, List.foldl_cons, ← applyAll, hrest, hextra, writtenEntries, writtenEntries,
        List.filterMap_cons]
      cases operation.entry? <;> rfl

theorem lastWritten_applyAll (base : Mapping) {recent : List Operation}
    (hkeeps : ∀ operation ∈ recent, operation.left? = none) :
    LastWritten base.content recent (base.applyAll recent) where
  target := base.get_applyAll hkeeps
  keys := by
    rw [base.extra_applyAll hkeeps, Ledger.keys_insertAll]
    rfl
  value key := by
    rw [base.extra_applyAll hkeeps, Ledger.get?_insertAll]
    rfl
  nodup := (base.applyAll recent).extra.keys_nodup

/-- A history taken apart: `recent` is what it does behind the last operation that replaces the
mapping, and `base` is what that operation leaves; without one it is what there was at the start. -/
structure Since (start : Content) (history : List Operation) (base : Content)
    (recent : List Operation) : Prop where
  keeps : ∀ operation ∈ recent, operation.left? = none
  base : (history = recent ∧ base = start) ∨ ∃ before operation,
    history = before ++ operation :: recent ∧ operation.left? = some base

theorem exists_since (start : Content) (history : List Operation) :
    ∃ base recent, Since start history base recent := by
  induction history using List.reverseRecOn with
  | nil => exact ⟨start, [], by simp, Or.inl ⟨rfl, rfl⟩⟩
  | append_singleton history operation ih =>
      cases hleft : operation.left? with
      | some base => exact ⟨base, [], by simp, Or.inr ⟨history, operation, rfl, hleft⟩⟩
      | none =>
          obtain ⟨base, recent, hkeeps, hbase⟩ := ih
          refine ⟨base, recent ++ [operation], ?_, ?_⟩
          · intro other hother
            rcases List.mem_append.mp hother with hrecent | hlast
            · exact hkeeps other hrecent
            · rw [List.mem_singleton.mp hlast, hleft]
          · rcases hbase with ⟨rfl, rfl⟩ | ⟨before, replacing, rfl, hreplacing⟩
            · exact Or.inl ⟨rfl, rfl⟩
            · exact Or.inr ⟨before, replacing, by simp, hreplacing⟩

/-- What a history did before the last replacement does not matter. -/
theorem Since.lastWritten {start : Mapping} {base : Content} {history recent : List Operation}
    (hsince : Since start.content history base recent) :
    LastWritten base recent (start.applyAll history) := by
  rcases hsince.base with ⟨rfl, rfl⟩ | ⟨before, operation, rfl, hleft⟩
  · exact lastWritten_applyAll start hsince.keeps
  · rw [applyAll_append, applyAll, List.foldl_cons, ← applyAll,
      ← (start.applyAll before).apply_of_left? hleft]
    exact lastWritten_applyAll _ hsince.keeps

/-- Whatever is done to the two stores of a mapping, behind the last replacement the last writer of
every target and of every other entry wins; a new and a reset mapping have the factory targets, one
that assigns nothing has none, and neither has another entry.  Assigning a target touches nothing
else; writing another entry shows in no target and in nothing that is made of them; bytes that
describe no mapping change nothing.  What a history left is all that counts. -/
theorem applyAll_lastWriter (stores : Stores) (history : List Operation) :
    let start := stores.seen
    let final := (stores.applyAll history).seen
    ((∃ base recent, Since start.content history base recent) ∧
      ∀ base recent, Since start.content history base recent → LastWritten base recent final) ∧
    final = start.applyAll history ∧
    (∀ mapping : Mapping, ∀ source,
      (mapping.apply .new).get source = .button source.factory
        ∧ (mapping.apply .reset).get source = .button source.factory
        ∧ (mapping.apply .unassignAll).get source = .unassigned) ∧
    (∀ mapping : Mapping, ∀ operation ∈ [Operation.new, .reset, .unassignAll],
      (mapping.apply operation).extra.entries = []) ∧
    (∀ mapping : Mapping, ∀ source target,
      (mapping.apply (.set source target)).extra = mapping.extra
        ∧ ∀ other, other ≠ source →
          (mapping.apply (.set source target)).get other = mapping.get other) ∧
    (∀ mapping : Mapping, ∀ key value,
      (mapping.apply (.setExtra key value)).get = mapping.get
        ∧ (mapping.apply (.setExtra key value)).generate = mapping.generate
        ∧ (mapping.apply (.setExtra key value)).skipped = mapping.skipped) ∧
    (∀ mapping : Mapping, ∀ bytes error, decode bytes = .error error →
      mapping.apply (.load bytes) = mapping) ∧
    ∀ (other : Stores) (later : List Operation),
      final.get = (other.applyAll later).seen.get →
      final.extra.entries = (other.applyAll later).seen.extra.entries →
      final.generate = (other.applyAll later).seen.generate
        ∧ final.text = (other.applyAll later).seen.text
        ∧ final.skipped = (other.applyAll later).seen.skipped := by
  intro start final
  have hfinal : final = start.applyAll history := stores.seen_applyAll history
  refine ⟨⟨exists_since start.content history, fun base recent hsince => ?_⟩, hfinal,
    fun mapping source => ⟨rfl, rfl, get_unassigned source⟩, fun mapping operation hmem => ?_,
    fun mapping source target => ⟨rfl, fun other hother => ?_⟩, fun mapping key value => ?_,
    fun mapping bytes error hdecode => mapping.apply_load_of_error hdecode,
    fun other later hget hextra => ?_⟩
  · rw [hfinal]
    exact hsince.lastWritten
  · obtain ⟨base, hleft, hnone⟩ : ∃ base, operation.left? = some base ∧ base.entries = [] := by
      simp only [List.mem_cons, List.not_mem_nil, or_false] at hmem
      rcases hmem with rfl | rfl | rfl <;> exact ⟨_, rfl, rfl⟩
    have hcontent := mapping.apply_of_left? hleft
    rw [← hcontent] at hnone
    exact hnone
  · rw [apply, get_set, if_neg hother]
  · have hget : (mapping.apply (.setExtra key value)).get = mapping.get := rfl
    exact ⟨hget, generate_congr hget, skipped_congr hget⟩
  · have hsame : final = (other.applyAll later).seen :=
      ext_get (congrFun hget) (Ledger.ext_entries hextra)
    rw [hsame]
    exact ⟨rfl, rfl, rfl⟩

/-- What was there before a document does not come back, a document that cannot be read does not
count, and a note keeps its place when it is written again. -/
theorem applyAll_lastWriter_reloaded :
    let bytes := Utf8.bytesOf (Json.printObject [("note", "x"), ("A", "B")])
    let recent : List Operation :=
      [.set .a (.unknown "Q"), .setExtra "A" "y", .load [0x5B], .setExtra "note" "z",
        .set .a (.button .z)]
    let final := (Stores.unassigned.applyAll (.setExtra "old" "1" :: .load bytes :: recent)).seen
    final.get .a = .button .z ∧ final.get .b = .button .b
      ∧ final.extra.keys = ["note", "A"] ∧ final.extra.get? "note" = some "z" := by
  intro bytes recent final
  have hdecode : decode bytes = .ok ((factory.setExtra "note" "x").set .a (.button .b)) :=
    decode_eq_ok_iff.mpr ⟨_, Json.isObjectText_printObject _, rfl⟩
  have hbracket : ∃ error, decode [0x5B] = .error error := ⟨_, rfl⟩
  have hsince : Since Stores.unassigned.seen.content
      (.setExtra "old" "1" :: .load bytes :: recent)
      ((factory.setExtra "note" "x").set .a (.button .b)).content recent := by
    refine ⟨?_, Or.inr ⟨[.setExtra "old" "1"], .load bytes, rfl, ?_⟩⟩
    · obtain ⟨error, hbracket⟩ := hbracket
      simp [recent, Operation.left?, hbracket, Except.toOption]
    · simp [Operation.left?, hdecode, Except.toOption]
  have hwritten := (applyAll_lastWriter .unassigned _).1.2 _ _ hsince
  refine ⟨(hwritten.target .a).trans rfl, (hwritten.target .b).trans rfl,
    hwritten.keys.trans ?_, (hwritten.value "note").trans rfl⟩
  decide

end Mapping
end PadBridge
