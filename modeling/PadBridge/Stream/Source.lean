import PadBridge.FileTree.Error

/-!
A byte source hands out a byte string in pieces, and may interrupt or fail.  Reading it to the end
gives either all of its bytes or the failure; how it cuts its pieces does not show.
-/

namespace PadBridge

/-- Why a stream does not go on. -/
inductive StreamFailure where
  /-- The other end is gone. -/
  | brokenPipe
  /-- A write took nothing. -/
  | nothingTaken
  /-- The file behind a stream cannot be read. -/
  | file (error : FileError)
deriving Repr, DecidableEq

def StreamFailure.message : StreamFailure → String
  | .brokenPipe => "broken pipe"
  | .nothingTaken => "failed to write whole buffer"
  | .file error => error.message

/-- How one read goes. -/
structure Source.Turn where
  /-- The most bytes it hands out; without it a read hands out what it can. -/
  chunk : Option Nat
  /-- Whether it is interrupted once before it is answered. -/
  interrupted : Bool
deriving Repr, DecidableEq

/-- A source of bytes, as it stands between two reads. -/
structure Source where
  /-- What has not been handed out. -/
  remaining : List UInt8
  /-- The most bytes of the next read; without it a read hands out what it can. -/
  chunk : Option Nat
  /-- After so many more bytes reads fail. -/
  failAfter : Option Nat
  /-- Whether a read is interrupted once before it is answered, unless its turn says otherwise. -/
  interrupts : Bool
  /-- Whether the next read is interrupted. -/
  interruptPending : Bool
  /-- The turns of the reads behind the next one.  Behind these all reads are alike. -/
  later : List Source.Turn := []
deriving Repr, DecidableEq

/-- What one read gives; no bytes mean the end. -/
inductive Source.Read where
  | interrupted (next : Source)
  | failed
  | piece (bytes : List UInt8) (next : Source)

namespace Source

/-- The source that hands out everything at once. -/
def ofBytes (bytes : List UInt8) : Source where
  remaining := bytes
  chunk := none
  failAfter := none
  interrupts := false
  interruptPending := false

/-- A limit on a number, if there is one. -/
def capped (limit : Option Nat) (count : Nat) : Nat :=
  match limit with
  | some limit => min limit count
  | none => count

/-- How many bytes the next read hands out. -/
def share (source : Source) : Nat :=
  capped source.chunk (capped source.failAfter source.remaining.length)

/-- Get ready for the read behind the next one. -/
def advance (source : Source) : Source :=
  match source.later with
  | [] => { source with interruptPending := source.interrupts }
  | turn :: later =>
      { source with chunk := turn.chunk, interruptPending := turn.interrupted, later := later }

/-- One read. -/
def read (source : Source) : Read :=
  if source.interruptPending then .interrupted { source with interruptPending := false }
  else if source.failAfter = some 0 then .failed
  else
    .piece (source.remaining.take source.share)
      { source.advance with
        remaining := source.remaining.drop source.share
        failAfter := source.failAfter.map (· - source.share) }

/-- An interruption is over when the read is tried again. -/
theorem interruptPending_of_read {source next : Source}
    (h : source.read = .interrupted next) :
    source.interruptPending = true ∧ next = { source with interruptPending := false } := by
  unfold read at h
  split at h
  · rename_i hpending
    cases h
    exact ⟨hpending, rfl⟩
  · split at h <;> cases h

/-- A piece is cut off the front of what remains. -/
theorem remaining_of_read {source next : Source} {bytes : List UInt8}
    (h : source.read = .piece bytes next) : source.remaining = bytes ++ next.remaining := by
  unfold read at h
  split at h
  · cases h
  · split at h
    · cases h
    · cases h
      exact (List.take_append_drop _ _).symm

/-- Read to the end: until a read gives no bytes.  An interrupted read is tried again. -/
def readAll (source : Source) : Except StreamFailure (List UInt8) :=
  match _hread : source.read with
  | .interrupted next => next.readAll
  | .failed => .error .brokenPipe
  | .piece [] _ => .ok []
  | .piece (byte :: bytes) next => next.readAll.map fun rest => byte :: bytes ++ rest
termination_by (source.remaining.length, source.interruptPending.toNat)
decreasing_by
  · obtain ⟨hpending, rfl⟩ := interruptPending_of_read _hread
    exact Prod.Lex.right _ (by simp [hpending])
  · have hlength := congrArg List.length (remaining_of_read _hread)
    simp only [List.length_append, List.length_cons] at hlength
    exact Prod.Lex.left _ _ (by omega)

end Source

end PadBridge
