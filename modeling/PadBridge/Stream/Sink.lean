import PadBridge.Stream.Source

/-!
A byte sink takes a byte string in pieces, and may fail or take nothing.  What it has taken is
always a front part of what was written.
-/

namespace PadBridge

/-- A sink of bytes, as it stands between two writes. -/
structure Sink where
  taken : List UInt8
  /-- The most bytes of one write; without it a write takes everything. -/
  chunk : Option Nat
  /-- After so many more bytes writes no longer succeed. -/
  stopAfter : Option Nat
  /-- Whether a write that no longer succeeds takes nothing instead of failing. -/
  takesNothing : Bool
  /-- Whether flushing fails. -/
  failsFlush : Bool
deriving Repr, DecidableEq

/-- What one write gives: a failure, or how many bytes were taken. -/
inductive Sink.Write where
  | failed
  | took (count : Nat) (next : Sink)

namespace Sink

/-- The sink that takes everything at once. -/
def memory : Sink where
  taken := []
  chunk := none
  stopAfter := none
  takesNothing := false
  failsFlush := false

/-- How many of some bytes the next write takes. -/
def share (sink : Sink) (bytes : List UInt8) : Nat :=
  Source.capped sink.chunk (Source.capped sink.stopAfter bytes.length)

/-- One write of some bytes. -/
def write (sink : Sink) (bytes : List UInt8) : Write :=
  if sink.stopAfter = some 0 ∧ sink.takesNothing = false then .failed
  else
    .took (sink.share bytes)
      { sink with
        taken := sink.taken ++ bytes.take (sink.share bytes)
        stopAfter := sink.stopAfter.map (· - sink.share bytes) }

/-- Write everything.  A write that takes nothing gives up. -/
def writeAll (sink : Sink) (bytes : List UInt8) : Sink × Except StreamFailure Unit :=
  match bytes with
  | [] => (sink, .ok ())
  | byte :: rest =>
      match sink.write (byte :: rest) with
      | .failed => (sink, .error .brokenPipe)
      | .took 0 _ => (sink, .error .nothingTaken)
      | .took (count + 1) next => next.writeAll (rest.drop count)
termination_by bytes.length
decreasing_by
  simp only [List.length_drop, List.length_cons]
  omega

def flush (sink : Sink) : Except StreamFailure Unit :=
  if sink.failsFlush then .error .brokenPipe else .ok ()

/-- Write everything and flush. -/
def deliver (sink : Sink) (bytes : List UInt8) : Sink × Except StreamFailure Unit :=
  match sink.writeAll bytes with
  | (sink, .ok ()) => (sink, sink.flush)
  | (sink, .error failure) => (sink, .error failure)

end Sink

end PadBridge
