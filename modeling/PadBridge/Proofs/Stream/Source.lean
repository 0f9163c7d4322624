import PadBridge.Stream.Source

/-!
Reading a source to its end.  However a source cuts its pieces, and wherever it is interrupted, what
is read is all that it holds, or its failure if it fails before a read shows the end.
-/

namespace PadBridge.Source

/-- Every read hands out something as long as something remains. -/
structure Flows (source : Source) : Prop where
  next : source.chunk ≠ some 0
  later : ∀ turn ∈ source.later, turn.chunk ≠ some 0

/-- A read fails before one shows the end. -/
def BreaksOff (source : Source) : Prop :=
  ∃ count, source.failAfter = some count ∧ count ≤ source.remaining.length

variable {source next : Source} {bytes : List UInt8}

theorem Flows.advance (hflows : source.Flows) : source.advance.Flows := by
  unfold Source.advance
  split
  · exact ⟨hflows.next, hflows.later⟩
  · rename_i turn later hlater
    refine ⟨hflows.later turn (by simp [hlater]), fun other hother => hflows.later other ?_⟩
    rw [hlater]
    exact List.mem_cons_of_mem turn hother

theorem capped_le (limit : Option Nat) (count : Nat) : capped limit count ≤ count := by
  cases limit with
  | none => exact Nat.le_refl count
  | some limit => exact Nat.min_le_right limit count

theorem capped_eq_zero_iff {limit : Option Nat} {count : Nat} (hlimit : limit ≠ some 0) :
    capped limit count = 0 ↔ count = 0 := by
  cases limit with
  | none => rfl
  | some limit =>
      have hpositive : limit ≠ 0 := fun hzero => hlimit (congrArg some hzero)
      rw [capped]
      omega

theorem share_le_of_failAfter {count : Nat} (hfail : source.failAfter = some count) :
    source.share ≤ count := by
  rw [share, hfail]
  exact Nat.le_trans (capped_le _ _) (Nat.min_le_left _ _)

theorem share_eq_zero_iff (hflows : source.Flows) (hfail : source.failAfter ≠ some 0) :
    source.share = 0 ↔ source.remaining = [] := by
  rw [share, capped_eq_zero_iff hflows.next, capped_eq_zero_iff hfail, List.length_eq_zero_iff]

theorem read_eq_failed (hread : source.read = .failed) : source.failAfter = some 0 := by
  unfold read at hread
  split at hread
  · cases hread
  · split at hread
    · assumption
    · cases hread

/-- What a read that is answered hands out and leaves. -/
theorem read_eq_piece (hread : source.read = .piece bytes next) :
    source.failAfter ≠ some 0 ∧ bytes = source.remaining.take source.share
      ∧ next = { source.advance with
          remaining := source.remaining.drop source.share
          failAfter := source.failAfter.map (· - source.share) } := by
  unfold read at hread
  split at hread
  · cases hread
  · split at hread
    · cases hread
    · cases hread
      exact ⟨‹_›, rfl, rfl⟩

theorem Flows.of_read (hflows : source.Flows) (hread : source.read = .piece bytes next) :
    next.Flows := by
  obtain ⟨_, _, rfl⟩ := read_eq_piece hread
  exact ⟨hflows.advance.next, hflows.advance.later⟩

/-- Whether a source breaks off does not change while it is read. -/
theorem breaksOff_of_read (hread : source.read = .piece bytes next) :
    next.BreaksOff ↔ source.BreaksOff := by
  obtain ⟨_, _, rfl⟩ := read_eq_piece hread
  have hlength : source.share ≤ source.remaining.length :=
    Nat.le_trans (capped_le _ _) (capped_le _ _)
  simp only [BreaksOff, List.length_drop, Option.map_eq_some_iff]
  constructor
  · intro h
    obtain ⟨_, ⟨count, hcount, rfl⟩, hle⟩ := h
    have hshare := share_le_of_failAfter hcount
    exact ⟨count, hcount, by omega⟩
  · intro h
    obtain ⟨count, hcount, hle⟩ := h
    exact ⟨_, ⟨count, hcount, rfl⟩, by omega⟩

/-- A read that hands out nothing shows the end, and then no failure came before. -/
theorem end_of_read (hflows : source.Flows) (hread : source.read = .piece [] next) :
    source.remaining = [] ∧ ¬ source.BreaksOff := by
  obtain ⟨hfail, hpiece, _⟩ := read_eq_piece hread
  have hend : source.remaining = [] := by
    rcases List.take_eq_nil_iff.mp hpiece.symm with hzero | hend
    · exact (share_eq_zero_iff hflows hfail).mp hzero
    · exact hend
  refine ⟨hend, fun hbreaks => ?_⟩
  obtain ⟨count, hcount, hle⟩ := hbreaks
  rw [hend, List.length_nil, Nat.le_zero] at hle
  exact hfail (hle ▸ hcount)

/-- Reading to the end, one read at a time. -/
theorem readAll_eq (source : Source) :
    source.readAll =
      match source.read with
      | .interrupted next => next.readAll
      | .failed => .error .brokenPipe
      | .piece [] _ => .ok []
      | .piece (byte :: bytes) next => next.readAll.map fun rest => byte :: bytes ++ rest := by
  rw [readAll]
  split <;> simp [*]

/-- Reading a source to its end gives what it holds, unless the source breaks off. -/
theorem readAll_of_flows (source : Source) (hflows : source.Flows) :
    (source.BreaksOff → source.readAll = .error .brokenPipe)
      ∧ (¬ source.BreaksOff → source.readAll = .ok source.remaining) := by
  -- Along the reads: what is still to come decides, and no read changes whether it breaks off.
  induction source using readAll.induct with
  | case1 source next hread ih =>
      obtain ⟨_, rfl⟩ := interruptPending_of_read hread
      rw [readAll_eq, hread]
      exact ih ⟨hflows.next, hflows.later⟩
  | case2 source hread =>
      have hbreaks : source.BreaksOff := ⟨0, read_eq_failed hread, Nat.zero_le _⟩
      rw [readAll_eq, hread]
      exact ⟨fun _ => rfl, fun hnot => absurd hbreaks hnot⟩
  | case3 source next hread =>
      obtain ⟨hend, hnot⟩ := end_of_read hflows hread
      rw [readAll_eq, hread, hend]
      exact ⟨fun hbreaks => absurd hbreaks hnot, fun _ => rfl⟩
  | case4 source byte bytes next hread ih =>
      obtain ⟨herror, hok⟩ := ih (hflows.of_read hread)
      rw [breaksOff_of_read hread] at herror hok
      rw [readAll_eq, hread, remaining_of_read hread]
      refine ⟨fun hbreaks => ?_, fun hnot => ?_⟩
      · simp only [herror hbreaks]
        rfl
      · simp only [hok hnot]
        rfl

/-- The source that hands out everything at once is read as it is. -/
theorem readAll_ofBytes (bytes : List UInt8) : (ofBytes bytes).readAll = .ok bytes := by
  have hflows : (ofBytes bytes).Flows := ⟨by simp [ofBytes], by simp [ofBytes]⟩
  have hnot : ¬ (ofBytes bytes).BreaksOff := by simp [BreaksOff, ofBytes]
  exact (readAll_of_flows _ hflows).2 hnot

/-- A source whose first read shows the end holds nothing for its reader. -/
theorem readAll_of_read_nil
    (hread : { source with interruptPending := false }.read = .piece [] next) :
    source.readAll = .ok [] := by
  have hready : { source with interruptPending := false }.readAll = .ok [] := by
    rw [readAll_eq, hread]
  cases hpending : source.interruptPending with
  | false =>
      have hsame : { source with interruptPending := false } = source := by rw [← hpending]
      rwa [hsame] at hready
  | true =>
      have hinterrupted : source.read = .interrupted { source with interruptPending := false } := by
        rw [read, if_pos hpending]
      rw [readAll_eq, hinterrupted]
      exact hready

end PadBridge.Source
