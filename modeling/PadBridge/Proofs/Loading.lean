import PadBridge.Proofs.Document

/-!
Loading a document into a session.  The mapping is replaced as a whole or not at all, and how the
bytes of the document are delivered does not show.
-/

namespace PadBridge.Session

variable {source : Source}

theorem load_of_readAll_error (session : Session) {failure : StreamFailure}
    (hread : source.readAll = .error failure) :
    session.load source = (session, .error (.unreadable failure)) := by
  simp only [load, Mapping.readFrom, hread]

theorem load_of_decode_ok (session : Session) {bytes : List UInt8} {mapping : Mapping}
    (hread : source.readAll = .ok bytes) (hdecode : Mapping.decode bytes = .ok mapping) :
    session.load source = (⟨mapping⟩, .ok ()) := by
  simp only [load, Mapping.readFrom, hread, hdecode, Except.mapError]

theorem load_of_decode_error (session : Session) {bytes : List UInt8} {error : Json.Error}
    (hread : source.readAll = .ok bytes) (hdecode : Mapping.decode bytes = .error error) :
    session.load source = (session, .error (.malformed error)) := by
  simp only [load, Mapping.readFrom, hread, hdecode, Except.mapError]

/-- No bytes are no document. -/
theorem decode_nil :
    Mapping.decode [] = .error ((Json.Fault.at .endInValue []).locate []) :=
  rfl

/-- A session takes over a document as a whole or not at all, however it is delivered.  A source
that breaks off is unreadable, whatever it has handed out; any other is as good as its bytes; one
whose first read shows the end is as good as no bytes, and these are no document. -/
theorem load_delivered (session : Session) (source : Source) :
    (source.Flows → source.BreaksOff →
      session.load source = (session, .error (.unreadable .brokenPipe))) ∧
    (source.Flows → ¬ source.BreaksOff →
      (∀ mapping, Mapping.decode source.remaining = .ok mapping →
        session.load source = (⟨mapping⟩, .ok ())) ∧
      ∀ error, Mapping.decode source.remaining = .error error →
        session.load source = (session, .error (.malformed error))) ∧
    ∀ next, { source with interruptPending := false }.read = .piece [] next →
      ∃ error, Mapping.decode [] = .error error
        ∧ session.load source = (session, .error (.malformed error)) := by
  refine ⟨fun hflows hbreaks => ?_, fun hflows hnot => ⟨?_, ?_⟩, fun next hread => ?_⟩
  · exact session.load_of_readAll_error ((source.readAll_of_flows hflows).1 hbreaks)
  · intro mapping hdecode
    exact session.load_of_decode_ok ((source.readAll_of_flows hflows).2 hnot) hdecode
  · intro error hdecode
    exact session.load_of_decode_error ((source.readAll_of_flows hflows).2 hnot) hdecode
  · have hnothing := Source.readAll_of_read_nil hread
    exact ⟨_, decode_nil, session.load_of_decode_error hnothing decode_nil⟩

/-- A document that comes in three pieces replaces what was there before.  If the source fails after
the last byte nothing is loaded, nor if the document is malformed or the first read shows the
end. -/
theorem load_delivered_in_pieces :
    let bytes := Utf8.bytesOf (Json.printObject [("A", "Z")])
    let source : Source := ⟨bytes, some 1, none, false, true, [⟨some 3, true⟩, ⟨none, false⟩]⟩
    let session : Session := ⟨.unassigned⟩
    session.load source = (⟨Mapping.factory.set .a (.button .z)⟩, .ok ())
      ∧ session.load { source with failAfter := some bytes.length } =
        (session, .error (.unreadable .brokenPipe))
      ∧ (∃ error, session.load { source with remaining := [0x5B] } =
        (session, .error (.malformed error)))
      ∧ ∃ error, session.load { source with chunk := some 0 } =
        (session, .error (.malformed error)) := by
  intro bytes source session
  have hnext : source.chunk ≠ some 0 := by decide
  have hlater : ∀ turn ∈ source.later, turn.chunk ≠ some 0 := by decide
  have hnot : ¬ ∃ count, source.failAfter = some count ∧ count ≤ bytes.length := by
    simp [source]
  have hdecode : Mapping.decode bytes = .ok (Mapping.factory.set .a (.button .z)) :=
    Mapping.decode_eq_ok_iff.mpr ⟨[("A", "Z")], Json.isObjectText_printObject _, rfl⟩
  obtain ⟨error, hbracket⟩ : ∃ error, Mapping.decode [0x5B] = .error error := ⟨_, rfl⟩
  refine ⟨?_, ?_, ⟨error, ?_⟩, ?_⟩
  · exact ((load_delivered session source).2.1 ⟨hnext, hlater⟩ hnot).1 _ hdecode
  · exact (load_delivered session { source with failAfter := some bytes.length }).1
      ⟨hnext, hlater⟩ ⟨bytes.length, rfl, Nat.le_refl _⟩
  · exact ((load_delivered session { source with remaining := [0x5B] }).2.1
      ⟨hnext, hlater⟩ (by simp [Source.BreaksOff, source])).2 error hbracket
  · obtain ⟨error, _, hload⟩ :=
      (load_delivered session { source with chunk := some 0 }).2.2 _ rfl
    exact ⟨error, hload⟩

end PadBridge.Session
