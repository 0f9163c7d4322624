import Mathlib.Data.List.Nodup
import Mathlib.Data.List.Perm.Subperm
import PadBridge.Proofs.Ledger
import PadBridge.Sketch

/-!
When mappings agree.  Ledgers have the same texts if one is the other in some order; mappings that
agree have the same targets, so they are compiled to the same function, and the same other entries.
-/

namespace PadBridge

namespace Ledger

variable {left right : Ledger}

theorem nodup_entries (ledger : Ledger) : ledger.entries.Nodup :=
  List.Nodup.of_map Prod.fst ledger.keys_nodup

/-- Ledgers that cannot be told apart by looking up keys differ at most in their order. -/
theorem perm_iff_get? :
    left.entries.Perm right.entries ↔ ∀ key, left.get? key = right.get? key := by
  rw [List.perm_ext_iff_of_nodup left.nodup_entries right.nodup_entries]
  constructor
  · intro hmem key
    apply Option.ext
    intro value
    rw [get?_eq_some_iff, get?_eq_some_iff, hmem]
  · intro hget entry
    rw [← get?_eq_some_iff, ← get?_eq_some_iff, hget]

theorem sameTexts_iff_perm : left.sameTexts right = true ↔ left.entries.Perm right.entries := by
  rw [sameTexts, Bool.and_eq_true, beq_iff_eq, List.all_eq_true]
  constructor
  · intro h
    obtain ⟨hlength, hall⟩ := h
    have hsubset : left.entries ⊆ right.entries := by
      intro entry hentry
      exact get?_eq_some_iff.mp (by simpa using hall entry hentry)
    exact (left.nodup_entries.subperm hsubset).perm_of_length_le (Nat.le_of_eq hlength.symm)
  · intro hperm
    refine ⟨hperm.length_eq, fun entry hentry => ?_⟩
    rw [beq_iff_eq, get?_eq_some_iff]
    exact hperm.mem_iff.mp hentry

end Ledger

namespace Mapping

variable {left right : Mapping}

theorem entries_inj : left.entries = right.entries ↔ left.get = right.get := by
  simp only [entries, List.map_inj_left, Prod.mk.injEq, true_and, funext_iff]
  exact ⟨fun h button => h button button.mem_all, fun h button _ => h button⟩

theorem agrees_iff :
    left.agrees right = true ↔
      left.get = right.get ∧ left.extra.entries.Perm right.extra.entries := by
  rw [agrees, Bool.and_eq_true, beq_iff_eq, entries_inj, Ledger.sameTexts_iff_perm]

/-- Only the targets are compiled. -/
theorem generate_congr (hget : left.get = right.get) : left.generate = right.generate := by
  rw [generate, rules, entries_inj.mpr hget, generate, rules]

/-- Only targets are skipped. -/
theorem skipped_congr (hget : left.get = right.get) : left.skipped = right.skipped := by
  rw [skipped, entries_inj.mpr hget, skipped]

end Mapping

end PadBridge
