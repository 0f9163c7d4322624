import PadBridge.Proofs.Stream.Source
import PadBridge.Stream.Sink

/-!
Writing all of some bytes to a sink, and flushing it.  However a sink cuts its pieces, it takes the
bytes from the front on until it holds all of them or has reached its limit; only a sink that takes
nothing at a time takes nothing at all.
-/

namespace PadBridge.Sink

open Source (capped capped_le capped_eq_zero_iff)

/-- How many of some bytes a sink takes before its writes no longer succeed. -/
def accepted (sink : Sink) (bytes : List UInt8) : Nat :=
  capped sink.stopAfter bytes.length

def taking (sink : Sink) (bytes : List UInt8) : Sink :=
  { sink with
    taken := sink.taken ++ bytes
    stopAfter := sink.stopAfter.map (· - bytes.length) }

/-- How a write fails that the sink no longer lets through. -/
def refusal (sink : Sink) : StreamFailure :=
  if sink.takesNothing then .nothingTaken else .brokenPipe

theorem taking_nil (sink : Sink) : sink.taking [] = sink := by
  simp [taking]

theorem taking_append (sink : Sink) (front back : List UInt8) :
    sink.taking (front ++ back) = (sink.taking front).taking back := by
  simp [taking, Function.comp_def, Nat.sub_sub]

variable {sink next : Sink} {bytes : List UInt8} {count : Nat}

theorem share_le_accepted (sink : Sink) (bytes : List UInt8) :
    sink.share bytes ≤ sink.accepted bytes :=
  capped_le _ _

theorem accepted_le_length (sink : Sink) (bytes : List UInt8) :
    sink.accepted bytes ≤ bytes.length :=
  capped_le _ _

theorem share_eq_zero_iff (hchunk : sink.chunk ≠ some 0) :
    sink.share bytes = 0 ↔ sink.accepted bytes = 0 :=
  capped_eq_zero_iff hchunk

theorem accepted_eq_zero_iff (hbytes : bytes ≠ []) :
    sink.accepted bytes = 0 ↔ sink.stopAfter = some 0 := by
  have hlength := List.length_pos_iff.mpr hbytes
  unfold accepted capped
  cases sink.stopAfter with
  | none => simp [hbytes]
  | some limit =>
      rw [Option.some.injEq]
      simp only
      omega

/-- Of some bytes a sink accepts those of the first write and then what it accepts of the rest. -/
theorem accepted_eq_add (hcount : count ≤ sink.accepted bytes) :
    sink.accepted bytes =
      count + (sink.taking (bytes.take count)).accepted (bytes.drop count) := by
  have hlength := sink.accepted_le_length bytes
  have htake : (bytes.take count).length = count := by
    rw [List.length_take]
    omega
  unfold accepted capped at *
  simp only [taking, htake, List.length_drop]
  cases hlimit : sink.stopAfter with
  | none =>
      simp only [hlimit, Option.map_none] at hcount ⊢
      omega
  | some limit =>
      simp only [hlimit, Option.map_some] at hcount ⊢
      omega

theorem write_eq_failed (hwrite : sink.write bytes = .failed) :
    sink.stopAfter = some 0 ∧ sink.takesNothing = false := by
  unfold write at hwrite
  split at hwrite
  · assumption
  · cases hwrite

theorem write_eq_took (hwrite : sink.write bytes = .took count next) :
    count = sink.share bytes ∧ next = sink.taking (bytes.take count)
      ∧ (sink.stopAfter = some 0 → sink.takesNothing = true) := by
  unfold write at hwrite
  split at hwrite
  · cases hwrite
  · rename_i hpasses
    cases hwrite
    have hlength : (bytes.take (sink.share bytes)).length = sink.share bytes := by
      rw [List.length_take, Nat.min_eq_left]
      exact Nat.le_trans (sink.share_le_accepted bytes) (sink.accepted_le_length bytes)
    refine ⟨rfl, by rw [taking, hlength], fun hlimit => ?_⟩
    cases htakes : sink.takesNothing with
    | true => rfl
    | false => exact absurd ⟨hlimit, htakes⟩ hpasses

/-- A sink that takes something at a time takes all that it accepts, and if this is not all there is
the next write is refused. -/
theorem writeAll_eq (sink : Sink) (bytes : List UInt8) (hchunk : sink.chunk ≠ some 0) :
    sink.writeAll bytes =
      (sink.taking (bytes.take (sink.accepted bytes)),
        if sink.accepted bytes = bytes.length then .ok () else .error sink.refusal) := by
  -- Along the writes: each takes bytes off the front and lowers the limit by as many.
  induction sink, bytes using writeAll.induct with
  | case1 sink =>
      have hnone : sink.accepted [] = 0 := Nat.le_zero.mp (sink.accepted_le_length [])
      rw [writeAll, List.take_nil, taking_nil, hnone]
      rfl
  | case2 sink byte rest hwrite =>
      obtain ⟨hlimit, htakes⟩ := write_eq_failed hwrite
      have hnone := (accepted_eq_zero_iff (List.cons_ne_nil byte rest)).mpr hlimit
      rw [writeAll, hwrite, hnone, List.take_zero, taking_nil, if_neg (by simp), refusal, htakes]
      rfl
  | case3 sink byte rest next hwrite =>
      obtain ⟨hshare, _, htakes⟩ := write_eq_took hwrite
      have hnone := (share_eq_zero_iff hchunk).mp hshare.symm
      have hlimit := (accepted_eq_zero_iff (List.cons_ne_nil byte rest)).mp hnone
      rw [writeAll, hwrite, hnone, List.take_zero, taking_nil, if_neg (by simp), refusal,
        htakes hlimit]
      rfl
  | case4 sink byte rest count next hwrite ih =>
      obtain ⟨hshare, hnext, _⟩ := write_eq_took hwrite
      have hcount := hshare ▸ sink.share_le_accepted (byte :: rest)
      have hall := accepted_eq_add hcount
      have hsame : next.chunk = sink.chunk ∧ next.refusal = sink.refusal := by
        rw [hnext]
        exact ⟨rfl, rfl⟩
      have hlength := sink.accepted_le_length (byte :: rest)
      rw [← hnext, List.drop_succ_cons] at hall
      have hends : next.accepted (rest.drop count) = (rest.drop count).length ↔
          sink.accepted (byte :: rest) = (byte :: rest).length := by
        rw [List.length_drop, List.length_cons]
        rw [List.length_cons] at hlength
        omega
      have houtcome : (if sink.accepted (byte :: rest) = (byte :: rest).length then .ok ()
          else .error sink.refusal : Except StreamFailure Unit) =
            if next.accepted (rest.drop count) = (rest.drop count).length then .ok ()
            else .error next.refusal := by
        simp only [hends, hsame.2]
      rw [writeAll, hwrite, houtcome, hall, List.take_add, taking_append, ← hnext,
        List.drop_succ_cons]
      exact ih (hsame.1 ▸ hchunk)

/-- A sink that takes nothing at a time takes nothing, and the first write is refused. -/
theorem writeAll_of_chunk_zero (hchunk : sink.chunk = some 0) (hbytes : bytes ≠ []) :
    sink.writeAll bytes =
      (sink, .error (if sink.stopAfter = some 0 ∧ sink.takesNothing = false then .brokenPipe
        else .nothingTaken)) := by
  obtain ⟨byte, rest, rfl⟩ := List.exists_cons_of_ne_nil hbytes
  have hshare : sink.share (byte :: rest) = 0 := by
    rw [share, hchunk]
    exact Nat.zero_min _
  by_cases hrefused : sink.stopAfter = some 0 ∧ sink.takesNothing = false
  · rw [writeAll, write, if_pos hrefused, if_pos hrefused]
  · rw [writeAll, write, if_neg hrefused, if_neg hrefused, hshare]

/-- A sink that takes something at a time and has room for all of the bytes takes them once, and
then only flushing can fail. -/
theorem deliver_of_room (hchunk : sink.chunk ≠ some 0)
    (hroom : sink.accepted bytes = bytes.length) :
    sink.deliver bytes = (sink.taking bytes, sink.flush) := by
  rw [deliver, writeAll_eq sink bytes hchunk, if_pos hroom, hroom, List.take_length]
  rfl

/-- A sink that takes something at a time and has no room for all takes what there is room for. -/
theorem deliver_of_no_room (hchunk : sink.chunk ≠ some 0)
    (hroom : sink.accepted bytes ≠ bytes.length) :
    sink.deliver bytes =
      (sink.taking (bytes.take (sink.accepted bytes)), .error sink.refusal) := by
  rw [deliver, writeAll_eq sink bytes hchunk, if_neg hroom]

theorem deliver_of_chunk_zero (hchunk : sink.chunk = some 0) (hbytes : bytes ≠ []) :
    sink.deliver bytes =
      (sink, .error (if sink.stopAfter = some 0 ∧ sink.takesNothing = false then .brokenPipe
        else .nothingTaken)) := by
  rw [deliver, writeAll_of_chunk_zero hchunk hbytes]

theorem accepted_eq_length_iff :
    sink.accepted bytes = bytes.length ↔
      ∀ limit, sink.stopAfter = some limit → bytes.length ≤ limit := by
  unfold accepted capped
  cases sink.stopAfter with
  | none => simp
  | some limit =>
      simp only [Option.some.injEq, forall_eq']
      omega

theorem accepted_of_lt {limit : Nat} (hlimit : sink.stopAfter = some limit)
    (hroom : limit < bytes.length) : sink.accepted bytes = limit := by
  rw [accepted, hlimit]
  exact Nat.min_eq_left (Nat.le_of_lt hroom)

theorem flush_eq_ok_iff : sink.flush = .ok () ↔ sink.failsFlush = false := by
  unfold flush
  split <;> simp_all

/-- Whatever a sink does, it gets the bytes or a front part of them, and the outcome tells which. -/
theorem deliver_front (sink : Sink) (hbytes : bytes ≠ []) :
    ∃ delivered, delivered <+: bytes ∧ (sink.deliver bytes).1.taken = sink.taken ++ delivered
      ∧ ((sink.deliver bytes).2 = .ok () ↔ delivered = bytes ∧ sink.failsFlush = false) := by
  by_cases hchunk : sink.chunk = some 0
  · rw [deliver_of_chunk_zero hchunk hbytes]
    refine ⟨[], List.nil_prefix, (List.append_nil _).symm, nofun, fun h => ?_⟩
    exact absurd h.1.symm hbytes
  · by_cases hroom : sink.accepted bytes = bytes.length
    · rw [deliver_of_room hchunk hroom]
      refine ⟨bytes, List.prefix_rfl, rfl, ?_⟩
      rw [flush_eq_ok_iff, and_iff_right rfl]
    · rw [deliver_of_no_room hchunk hroom]
      refine ⟨_, List.take_prefix _ bytes, rfl, nofun, fun h => ?_⟩
      have hlength := congrArg List.length h.1
      rw [List.length_take, Nat.min_eq_left (sink.accepted_le_length bytes)] at hlength
      exact absurd hlength hroom

/-- How many bytes a sink takes at a time does not show, as long as it takes any. -/
theorem deliver_chunk {chunk : Option Nat} (hchunk : sink.chunk ≠ some 0)
    (hother : chunk ≠ some 0) :
    { sink with chunk }.deliver bytes =
      ({ (sink.deliver bytes).1 with chunk }, (sink.deliver bytes).2) := by
  let other : Sink := { sink with chunk }
  have hchunkOther : other.chunk ≠ some 0 := hother
  by_cases hroom : sink.accepted bytes = bytes.length
  · have hroomOther : other.accepted bytes = bytes.length := hroom
    have hdeliver : other.deliver bytes = (other.taking bytes, other.flush) :=
      deliver_of_room hchunkOther hroomOther
    rw [deliver_of_room hchunk hroom]
    exact hdeliver
  · have hroomOther : other.accepted bytes ≠ bytes.length := hroom
    have hdeliver : other.deliver bytes =
        (other.taking (bytes.take (other.accepted bytes)), .error other.refusal) :=
      deliver_of_no_room hchunkOther hroomOther
    rw [deliver_of_no_room hchunk hroom]
    exact hdeliver

end PadBridge.Sink
