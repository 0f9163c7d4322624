import PadBridge.Proofs.LastWriter
import PadBridge.Proofs.Preservation

/-!
Mappings that agree cannot be told apart.  Whatever is done to both of them alike, they agree
afterwards, and what is made of them is the same but for the order of the entries that name no
button.  Mappings that do not agree differ in a target or in what stands under some key.
-/

namespace PadBridge

/-- Writing under a key does not show in which order the other keys stand. -/
theorem Ledger.perm_insert {left right : Ledger} (hperm : left.entries.Perm right.entries)
    (key value : String) :
    (left.insert key value).entries.Perm (right.insert key value).entries := by
  rw [perm_iff_get?] at hperm ⊢
  intro other
  rw [get?_insert, get?_insert, hperm]

/-- A change of a mapping: an operation, or writing it as a document and reading that again. -/
inductive Change where
  | operation (operation : Operation)
  | recode

namespace Mapping

def change (mapping : Mapping) : Change → Mapping
  | .operation operation => mapping.apply operation
  | .recode => mapping.recode

def changeAll (mapping : Mapping) (history : List Change) : Mapping :=
  history.foldl change mapping

theorem agrees_refl (mapping : Mapping) : mapping.agrees mapping = true :=
  agrees_iff.mpr ⟨rfl, List.Perm.refl _⟩

theorem agrees_symm {left right : Mapping} (hagrees : left.agrees right = true) :
    right.agrees left = true := by
  obtain ⟨hget, hextra⟩ := agrees_iff.mp hagrees
  exact agrees_iff.mpr ⟨hget.symm, hextra.symm⟩

theorem agrees_trans {left middle right : Mapping} (hfirst : left.agrees middle = true)
    (hsecond : middle.agrees right = true) : left.agrees right = true := by
  obtain ⟨hgetFirst, hextraFirst⟩ := agrees_iff.mp hfirst
  obtain ⟨hgetSecond, hextraSecond⟩ := agrees_iff.mp hsecond
  exact agrees_iff.mpr ⟨hgetFirst.trans hgetSecond, hextraFirst.trans hextraSecond⟩

/-- Where mappings do not agree, looking up a target or a key shows it. -/
theorem agrees_eq_false_iff {left right : Mapping} :
    left.agrees right = false ↔
      (∃ source, left.get source ≠ right.get source)
        ∨ ∃ key, left.extra.get? key ≠ right.extra.get? key := by
  rw [Bool.eq_false_iff, ne_eq, agrees_iff, Ledger.perm_iff_get?, funext_iff, not_and_or,
    not_forall, not_forall]

section Agrees

variable {left right : Mapping} (hagrees : left.agrees right = true)
include hagrees

/-- Mappings that agree have the same written under every button, also where another entry has
taken a button's place. -/
theorem written_congr : left.written = right.written := by
  obtain ⟨hget, hextra⟩ := agrees_iff.mp hagrees
  funext button
  rw [written, written, hget, Ledger.perm_iff_get?.mp hextra]

theorem agrees_recode : left.recode.agrees right.recode = true := by
  obtain ⟨_, hextra⟩ := agrees_iff.mp hagrees
  refine agrees_iff.mpr ⟨?_, ?_⟩
  · funext button
    rw [get_recode, get_recode, written_congr hagrees]
  · rw [entries_extra_recode, entries_extra_recode]
    exact hextra.filter _

theorem agrees_apply (operation : Operation) :
    (left.apply operation).agrees (right.apply operation) = true := by
  cases hnext : operation.left? with
  | some base =>
      have hsame : (left.apply operation).content = (right.apply operation).content :=
        (left.apply_of_left? hnext).trans (right.apply_of_left? hnext).symm
      rw [content_inj.mp hsame]
      exact agrees_refl _
  | none =>
      -- What is left over writes a target, or an entry, or nothing where bytes describe no mapping.
      obtain ⟨hget, hextra⟩ := agrees_iff.mp hagrees
      obtain ⟨hgetLeft, hextraLeft⟩ := left.apply_of_keeps hnext
      obtain ⟨hgetRight, hextraRight⟩ := right.apply_of_keeps hnext
      refine agrees_iff.mpr ⟨?_, ?_⟩
      · funext source
        rw [hgetLeft, hgetRight, hget]
      · rw [hextraLeft, hextraRight]
        cases operation.entry? with
        | none => exact hextra
        | some entry => exact Ledger.perm_insert hextra entry.1 entry.2

theorem agrees_change (change : Change) :
    (left.change change).agrees (right.change change) = true := by
  cases change with
  | operation operation => exact agrees_apply hagrees operation
  | recode => exact agrees_recode hagrees

end Agrees

theorem agrees_changeAll {left right : Mapping} (hagrees : left.agrees right = true)
    (history : List Change) : (left.changeAll history).agrees (right.changeAll history) = true := by
  induction history generalizing left right with
  | nil => exact hagrees
  | cons change rest ih => exact ih (agrees_change hagrees change)

/-- Nothing that is made of two mappings tells them apart: their functions are the same bytes, the
same buttons are skipped, and their documents have the same buttons in the same order and behind
them the same other entries in some order. -/
structure Alike (left right : Mapping) : Prop where
  agrees : left.agrees right = true
  generate : Utf8.bytesOf left.generate = Utf8.bytesOf right.generate
  skipped : left.skipped = right.skipped
  buttons : left.toDocument.entries.take 16 = right.toDocument.entries.take 16
  others : (left.toDocument.entries.drop 16).Perm (right.toDocument.entries.drop 16)

/-- The first entries of a document are its buttons. -/
theorem take_entries_toDocument (mapping : Mapping) :
    mapping.toDocument.entries.take 16 = buttonEntries mapping.written := by
  rw [entries_toDocument]
  exact List.take_left' rfl

theorem drop_entries_toDocument (mapping : Mapping) :
    mapping.toDocument.entries.drop 16 = extraEntries mapping.extra.entries := by
  rw [entries_toDocument]
  exact List.drop_left' rfl

theorem alike_of_agrees {left right : Mapping} (hagrees : left.agrees right = true) :
    Alike left right where
  agrees := hagrees
  generate := by rw [generate_congr (agrees_iff.mp hagrees).1]
  skipped := skipped_congr (agrees_iff.mp hagrees).1
  buttons := by rw [take_entries_toDocument, take_entries_toDocument, written_congr hagrees]
  others := by
    rw [drop_entries_toDocument, drop_entries_toDocument]
    exact (agrees_iff.mp hagrees).2.filter _

/-- Agreeing is an equivalence that no history of changes can break, and that shows in nothing that
is made of a mapping: a target that is written again where it stood makes no difference either.
Where two mappings do not agree, a target tells them apart, or a key that one of them lacks or under
which they keep different values. -/
theorem agrees_congruence (left right : Mapping) :
    left.agrees left = true ∧
    (left.agrees right = true → right.agrees left = true) ∧
    (∀ other, left.agrees right = true → right.agrees other = true → left.agrees other = true) ∧
    (∀ source, (left.set source (left.get source)).agrees left = true) ∧
    (left.agrees right = true → ∀ history : List Change,
      Alike (left.changeAll history) (right.changeAll history)) ∧
    (left.agrees right = false ↔
      (∃ source, left.get source ≠ right.get source)
        ∨ ∃ key, left.extra.get? key ≠ right.extra.get? key) := by
  refine ⟨agrees_refl left, agrees_symm, fun other => agrees_trans, fun source => ?_,
    fun hagrees history => alike_of_agrees (agrees_changeAll hagrees history), agrees_eq_false_iff⟩
  refine agrees_iff.mpr ⟨?_, List.Perm.refl _⟩
  funext button
  rw [get_set]
  split
  · rename_i hbutton
    rw [hbutton]
  · rfl

/-- Two mappings keep their other entries in different orders, one of these under a button's name,
which takes the place of the button's target in a document.  The same changes leave them alike;
another target for one of them does not. -/
theorem agrees_congruence_reordered :
    let left := (factory.setExtra "Turbo" "A").setExtra "B" "Quack"
    let right := ((factory.set .a (.button .a)).setExtra "B" "Quack").setExtra "Turbo" "A"
    let history : List Change := [.operation (.setExtra "mode" "x"), .operation (.load [0x5B]),
      .recode, .operation (.set .x (.unknown "None"))]
    left.extra ≠ right.extra ∧ Alike (left.changeAll history) (right.changeAll history)
      ∧ left.recode.get .b = .unknown "Quack"
      ∧ ((left.set .a .unassigned).agrees right = false
        ∧ ∃ source, (left.set .a .unassigned).get source ≠ right.get source) := by
  intro left right history
  have hagrees : left.agrees right = true := by decide
  have hdiffer : (left.set .a .unassigned).agrees right = false := by decide
  obtain ⟨_, _, _, _, halike, _⟩ := agrees_congruence left right
  obtain ⟨_, _, _, _, _, hshown⟩ := agrees_congruence (left.set .a .unassigned) right
  refine ⟨by decide, halike hagrees history, by decide, hdiffer, ?_⟩
  refine (hshown.mp hdiffer).resolve_right ?_
  rintro ⟨key, hkey⟩
  have hperm : (left.set .a .unassigned).extra.entries.Perm right.extra.entries := by decide
  exact hkey (Ledger.perm_iff_get?.mp hperm key)

end Mapping
end PadBridge
