import PadBridge.Proofs.Saving

/-!
Delivering a document to a sink.  The sink gets the document or a front part of it, and the outcome
tells which: how many bytes it takes at a time does not show, unless it takes none.
-/

namespace PadBridge.Mapping

/-- A document is not written, and this is the cause that is told. -/
def Unwritten (outcome : Except DocumentError Unit) (cause : String) : Prop :=
  ∃ failure : StreamFailure, outcome = .error (.unwritable failure) ∧ failure.message = cause

theorem bytesOf_text (mapping : Mapping) :
    Utf8.bytesOf mapping.text = Utf8.encode (Json.objectText mapping.toDocument.entries) := by
  rw [Utf8.bytesOf, text, Document.text, Json.printObject, String.toList_ofList]

theorem bytesOf_text_ne_nil (mapping : Mapping) : Utf8.bytesOf mapping.text ≠ [] := by
  intro hnil
  have hdecode := mapping.decode_text
  rw [hnil, Session.decode_nil] at hdecode
  cases hdecode

theorem writeTo_eq (mapping : Mapping) (sink : Sink) :
    mapping.writeTo sink =
      ((sink.deliver (Utf8.bytesOf mapping.text)).1,
        (sink.deliver (Utf8.bytesOf mapping.text)).2.mapError .unwritable) :=
  rfl

theorem mapError_eq_ok_iff {outcome : Except StreamFailure Unit} :
    outcome.mapError DocumentError.unwritable = .ok () ↔ outcome = .ok () := by
  cases outcome <;> simp [Except.mapError]

theorem unwritten_refusal (sink : Sink) :
    Unwritten (.error (.unwritable sink.refusal))
      (if sink.takesNothing then "failed to write whole buffer" else "broken pipe") := by
  refine ⟨sink.refusal, rfl, ?_⟩
  unfold Sink.refusal
  split <;> rfl

/-- A document is delivered once, or a front part of it and an error.  A sink that takes something
at a time gets all that it has room for: the whole document, and then only flushing can still fail,
or exactly as many bytes as its limit says.  A sink that takes nothing at a time gets nothing.  The
error tells of a write that took nothing or of a broken pipe.  How many bytes are taken at a time
makes no other difference.  The mapping is only looked at: a save gives back the sink and the
outcome and nothing else. -/
theorem writeTo_delivers (mapping : Mapping) (sink : Sink) :
    let text := Utf8.bytesOf mapping.text
    let after := (mapping.writeTo sink).1
    let outcome := (mapping.writeTo sink).2
    Session.save ⟨mapping⟩ sink = (after, outcome)
      ∧ (∃ delivered, delivered <+: text ∧ after.taken = sink.taken ++ delivered
        ∧ (outcome = .ok () ↔ delivered = text ∧ sink.failsFlush = false))
      ∧ (sink.chunk ≠ some 0 → (∀ limit, sink.stopAfter = some limit → text.length ≤ limit) →
        after.taken = sink.taken ++ text
          ∧ (sink.failsFlush = false → outcome = .ok ())
          ∧ (sink.failsFlush = true → Unwritten outcome "broken pipe"))
      ∧ (sink.chunk ≠ some 0 → ∀ limit, sink.stopAfter = some limit → limit < text.length →
        after.taken = sink.taken ++ text.take limit
          ∧ Unwritten outcome
            (if sink.takesNothing then "failed to write whole buffer" else "broken pipe"))
      ∧ (sink.chunk = some 0 → after.taken = sink.taken
        ∧ Unwritten outcome (if sink.stopAfter = some 0 ∧ sink.takesNothing = false
          then "broken pipe" else "failed to write whole buffer"))
      ∧ ∀ chunk, sink.chunk ≠ some 0 → chunk ≠ some 0 →
        mapping.writeTo { sink with chunk } = ({ after with chunk }, outcome) := by
  intro text after outcome
  have htext : text ≠ [] := mapping.bytesOf_text_ne_nil
  have hdelivered : (after, outcome) =
      ((sink.deliver text).1, (sink.deliver text).2.mapError .unwritable) := mapping.writeTo_eq sink
  obtain ⟨hafter, houtcome⟩ := Prod.mk.inj hdelivered
  refine ⟨rfl, ?_, fun hchunk hroom => ?_, fun hchunk limit hlimit hroom => ?_, fun hchunk => ?_,
    fun chunk hchunk hother => ?_⟩
  · obtain ⟨delivered, hfront, htaken, hok⟩ := sink.deliver_front htext
    rw [houtcome, mapError_eq_ok_iff, hafter]
    exact ⟨delivered, hfront, htaken, hok⟩
  · rw [hafter, houtcome, Sink.deliver_of_room hchunk (Sink.accepted_eq_length_iff.mpr hroom)]
    refine ⟨rfl, fun hflush => ?_, fun hflush => ?_⟩
    · exact mapError_eq_ok_iff.mpr (Sink.flush_eq_ok_iff.mpr hflush)
    · exact ⟨.brokenPipe, by rw [Sink.flush, hflush]; rfl, rfl⟩
  · have haccepted := Sink.accepted_of_lt hlimit hroom
    rw [hafter, houtcome, Sink.deliver_of_no_room hchunk (by omega), haccepted]
    exact ⟨rfl, unwritten_refusal sink⟩
  · rw [hafter, houtcome, Sink.deliver_of_chunk_zero hchunk htext]
    refine ⟨rfl, _, rfl, ?_⟩
    split <;> rfl
  · rw [writeTo_eq, Sink.deliver_chunk hchunk hother, hafter, houtcome]

/-- Room for eleven bytes ends inside a letter of two bytes, however many are taken at a time.  With
room for all of them only flushing can fail, and a sink that takes nothing has nothing. -/
theorem writeTo_delivers_in_pieces :
    let mapping := factory.set .a (.unknown "é")
    let short : Sink := { Sink.memory with chunk := some 2, stopAfter := some 11 }
    let stuck : Sink := { Sink.memory with chunk := some 0 }
    (mapping.writeTo short).1.taken = Utf8.bytesOf "\x7b\n  \"A\": \"" ++ [0xc3]
      ∧ Unwritten (mapping.writeTo short).2 "broken pipe"
      ∧ mapping.writeTo { short with chunk := some 7 } =
        ({ (mapping.writeTo short).1 with chunk := some 7 }, (mapping.writeTo short).2)
      ∧ (mapping.writeTo { short with stopAfter := none }).2 = .ok ()
      ∧ Unwritten (mapping.writeTo { short with stopAfter := none, failsFlush := true }).2
        "broken pipe"
      ∧ (mapping.writeTo stuck).1.taken = []
      ∧ Unwritten (mapping.writeTo stuck).2 "failed to write whole buffer" := by
  intro mapping short stuck
  have hcut : (Utf8.bytesOf mapping.text).take 11 =
      Utf8.bytesOf "\x7b\n  \"A\": \"" ++ [0xc3] := by
    rw [bytesOf_text]
    decide +kernel
  have hlong : 11 < (Utf8.bytesOf mapping.text).length := by
    rw [bytesOf_text]
    decide +kernel
  obtain ⟨_, _, _, hshort, _, hchunk⟩ := mapping.writeTo_delivers short
  obtain ⟨_, _, hroom, _⟩ := mapping.writeTo_delivers { short with stopAfter := none }
  obtain ⟨_, _, hflush, _⟩ :=
    mapping.writeTo_delivers { short with stopAfter := none, failsFlush := true }
  obtain ⟨_, _, _, _, hstuck, _⟩ := mapping.writeTo_delivers stuck
  obtain ⟨htaken, hunwritten⟩ := hshort (by decide) 11 rfl hlong
  obtain ⟨_, hwritten, _⟩ := hroom (by decide) nofun
  obtain ⟨_, _, hunflushed⟩ := hflush (by decide) nofun
  obtain ⟨hnothing, hrefused⟩ := hstuck rfl
  have hpieces := hchunk (some 7) (by decide) (by decide)
  refine ⟨?_, hunwritten, hpieces, hwritten rfl, hunflushed rfl, hnothing, hrefused⟩
  rw [htaken, hcut]
  rfl

end PadBridge.Mapping
