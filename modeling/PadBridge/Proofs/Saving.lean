import PadBridge.Proofs.Loading
import PadBridge.Proofs.Recode
import PadBridge.Proofs.Stream.Sink

/-!
Saving a session and loading it again.  A mapping may not survive this as it is: a target called
unknown by the name of a button, and another entry called like a button, come back as what their
names say.  Its document does survive.  From the first save on the file stays as it is, byte for
byte, however often it is loaded and saved.
-/

namespace PadBridge

namespace Mapping

/-- A document is not changed by reading it as a mapping: what was written under a button's name is
the name of the target that is read there. -/
theorem toDocument_recode (mapping : Mapping) : mapping.recode.toDocument = mapping.toDocument := by
  have hcanonical : mapping.recode.Canonical := canonical_ofDocument mapping.toDocument
  have hwritten : mapping.recode.written = mapping.written := by
    funext button
    rw [hcanonical.written, get_recode, Target.name_ofName]
  apply Ledger.ext_entries
  rw [entries_toDocument, entries_toDocument, hwritten, entries_extra_recode,
    extraEntries_extraEntries]

theorem text_recode (mapping : Mapping) : mapping.recode.text = mapping.text :=
  congrArg Document.text mapping.toDocument_recode

end Mapping

namespace Session

theorem save_memory (session : Session) :
    session.save .memory =
      ({ Sink.memory with taken := Utf8.bytesOf session.mapping.text }, .ok ()) := by
  rw [save, Mapping.writeTo, Sink.deliver_of_room (Option.some_ne_none 0).symm rfl]
  rfl

theorem taken_save (session : Session) :
    (session.save .memory).1.taken = Utf8.bytesOf session.mapping.text := by
  rw [save_memory]

def saved (session : Session) : Except DocumentError (List UInt8) :=
  match session.save .memory with
  | (sink, .ok ()) => .ok sink.taken
  | (_, .error error) => .error error

/-- A file is loaded, whatever the session held before, and saved again. -/
def resaved (bytes : List UInt8) (session : Session) : Except DocumentError (List UInt8) :=
  match session.load (.ofBytes bytes) with
  | (next, .ok ()) => next.saved
  | (_, .error error) => .error error

def cycle (bytes : List UInt8) (sessions : List Session) : Except DocumentError (List UInt8) :=
  sessions.foldlM resaved bytes

theorem saved_eq (session : Session) : session.saved = .ok (Utf8.bytesOf session.mapping.text) := by
  rw [saved, save_memory]

theorem resaved_of_decode {bytes : List UInt8} {mapping : Mapping}
    (hdecode : Mapping.decode bytes = .ok mapping) (session : Session) :
    resaved bytes session = .ok (Utf8.bytesOf mapping.text) := by
  rw [resaved, session.load_of_decode_ok (Source.readAll_ofBytes bytes) hdecode]
  exact saved_eq ⟨mapping⟩

end Session

namespace Mapping

theorem decode_text (mapping : Mapping) :
    decode (Utf8.bytesOf mapping.text) = .ok mapping.recode :=
  decode_bytesOf_text mapping.toDocument

/-- A saved file is saved again with the same bytes. -/
theorem resaved_text (mapping : Mapping) (session : Session) :
    Session.resaved (Utf8.bytesOf mapping.text) session = .ok (Utf8.bytesOf mapping.text) := by
  rw [Session.resaved_of_decode mapping.decode_text, text_recode]

theorem cycle_text (mapping : Mapping) (sessions : List Session) :
    Session.cycle (Utf8.bytesOf mapping.text) sessions = .ok (Utf8.bytesOf mapping.text) := by
  induction sessions with
  | nil => rfl
  | cons session rest ih =>
      rw [Session.cycle, List.foldlM_cons, resaved_text]
      exact ih

/-- What is saved is a fixed point.  The file of any mapping can be loaded, and it is not changed by
saving what was loaded, any number of times.  Every other file that can be loaded is settled by the
first save: the settled file is loaded as the same mapping, its other entries in the same order, and
never changes again. -/
theorem text_fixed (mapping : Mapping) (given : List UInt8) :
    Session.saved ⟨mapping⟩ = .ok (Utf8.bytesOf mapping.text) ∧
    (∃ decoded, decode (Utf8.bytesOf mapping.text) = .ok decoded ∧
      Utf8.bytesOf decoded.text = Utf8.bytesOf mapping.text) ∧
    (∀ sessions, Session.cycle (Utf8.bytesOf mapping.text) sessions =
      .ok (Utf8.bytesOf mapping.text)) ∧
    ∀ decoded, decode given = .ok decoded →
      decode (Utf8.bytesOf decoded.text) = .ok decoded ∧
      ∀ session sessions, Session.cycle given (session :: sessions) =
        .ok (Utf8.bytesOf decoded.text) := by
  refine ⟨Session.saved_eq ⟨mapping⟩, ⟨mapping.recode, mapping.decode_text, ?_⟩,
    mapping.cycle_text, fun decoded hdecode => ⟨?_, fun session sessions => ?_⟩⟩
  · rw [text_recode]
  · exact (canonical_of_decode hdecode).decode_text
  · rw [Session.cycle, List.foldlM_cons, Session.resaved_of_decode hdecode]
    exact decoded.cycle_text sessions

/-- A target that is called unknown by a button's name and an entry called like a button are lost
when they are saved and loaded, but the file is the same again.  A file that names one button
settles on one that is loaded as the same mapping. -/
theorem text_fixed_borrowed_names :
    let borrowed := (factory.set .a (.unknown "Z")).setExtra "B" "None"
    let given := Utf8.bytesOf (Json.printObject [("mode", "x"), ("A", "Quack")])
    let decoded := (factory.setExtra "mode" "x").set .a (.unknown "Quack")
    let file := Utf8.bytesOf borrowed.text
    borrowed.recode.get .a = .button .z ∧ borrowed.recode.get .b = .unassigned
      ∧ Session.cycle file [.new, ⟨borrowed⟩, .new] = .ok file
      ∧ decode (Utf8.bytesOf decoded.text) = .ok decoded
      ∧ Session.cycle given [.new, ⟨borrowed⟩] = .ok (Utf8.bytesOf decoded.text) := by
  intro borrowed given decoded file
  have hdecode : decode given = .ok decoded :=
    decode_eq_ok_iff.mpr ⟨_, Json.isObjectText_printObject _, rfl⟩
  obtain ⟨_, _, hcycle, hsettled⟩ := text_fixed borrowed given
  obtain ⟨hagain, hsame⟩ := hsettled decoded hdecode
  exact ⟨by decide, by decide, hcycle _, hagain, hsame .new [⟨borrowed⟩]⟩

end Mapping
end PadBridge
