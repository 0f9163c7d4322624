import PadBridge.Proofs.CommandLine.Verbosity
import PadBridge.Proofs.Log.Cutting
import PadBridge.Proofs.Run.Messages

/-!
How much a run is to log.  Nothing that a run does looks at it: two runs whose command lines are the
same without the switches for log records, and whose log filters can be taken apart, do the same and
say the same, and only log records are missing on the one side or the other.  A filter that cannot
be taken apart ends a run before it does anything.
-/

namespace PadBridge.Run

open CommandLine (Command Argument Invocation)

/-- A text is written with log records put in between.  A record is a warning or tells about the
course of a run, it says which part of the program it is from, and it ends its line. -/
inductive WithRecords : String → String → Prop
  | nil : WithRecords "" ""
  | message (text : String) {said written : String} :
      WithRecords said written → WithRecords (text ++ said) (text ++ written)
  | record {event : Log.Event} {level text said written : String}
      (hlevel : level ∈ [" WARN ", "DEBUG "])
      (hrecord : event.record = level ++ event.target ++ ": " ++ text ++ "\n") :
      WithRecords said written → WithRecords said (event.record ++ written)

theorem WithRecords.refl (text : String) : WithRecords text text := by
  have hmessage := WithRecords.message text .nil
  rwa [String.append_empty] at hmessage

theorem exists_record (event : Log.Event) :
    ∃ level ∈ [" WARN ", "DEBUG "], ∃ text,
      event.record = level ++ event.target ++ ": " ++ text ++ "\n" := by
  have hevent : event.level = .warn ∨ event.level = .debug := by
    cases event <;> first | exact Or.inl rfl | exact Or.inr rfl
  have hlevel : Text.pad .right 5 event.level.name ++ " " ∈ [" WARN ", "DEBUG "] := by
    rcases hevent with hevent | hevent <;> rw [hevent] <;> decide
  exact ⟨_, hlevel, _, rfl⟩

/-- What a run writes beside its output are its messages, and between them the log records that its
filter shows. -/
theorem withRecords_diagnostics (outcome : Outcome) :
    WithRecords outcome.messages outcome.diagnostics := by
  rw [Outcome.messages, Outcome.diagnostics]
  induction outcome.notices with
  | nil => exact .refl _
  | cons notice rest ih =>
      cases notice with
      | unmapped source name =>
          rw [List.filter_cons_of_pos rfl, List.map_cons, List.map_cons, String.join_cons,
            String.join_cons, String.append_assoc, String.append_assoc]
          exact .message _ ih
      | instructions =>
          rw [List.filter_cons_of_pos rfl, List.map_cons, List.map_cons, String.join_cons,
            String.join_cons, String.append_assoc, String.append_assoc]
          exact .message _ ih
      | event event =>
          rw [List.filter_cons_of_neg (by exact Bool.false_ne_true), List.map_cons,
            String.join_cons, String.append_assoc, Notice.text_event]
          split
          · obtain ⟨level, hlevel, text, hrecord⟩ := exists_record event
            exact .record hlevel hrecord ih
          · rw [String.empty_append]
            exact ih

/-- Two runs that differ at most in which of their log records are shown. -/
structure Outcome.Alike (left right : Outcome) : Prop where
  tree : left.tree = right.tree
  output : left.output = right.output
  notices : left.notices = right.notices
  ending : left.ending = right.ending

section Runs

variable {surroundings : Surroundings} {tree : FileTree} {left right : Option (List UInt8)}
  {arguments others : List Argument} {invocation : Invocation}

/-- No part of a run looks at the filter or at the wish for log records. -/
theorem perform_congr (surroundings : Surroundings) (chosen : Option (List UInt8))
    (invocation : Invocation) (verbose : Bool) :
    perform { surroundings with logFilter := chosen } { invocation with verbose } =
      perform surroundings invocation :=
  rfl

theorem alike_invoke (hleft : ¬ Log.Filter.IsMiscut left) (hright : ¬ Log.Filter.IsMiscut right)
    (invocation : Invocation) (verbose : Bool) :
    (invoke { surroundings with logFilter := left } tree invocation).Alike
      (invoke { surroundings with logFilter := right } tree { invocation with verbose }) := by
  have hchosen : Log.Filter.choose left invocation.verbose ≠ none :=
    mt Log.Filter.choose_eq_none_iff.mp hleft
  have hother : Log.Filter.choose right verbose ≠ none :=
    mt Log.Filter.choose_eq_none_iff.mp hright
  obtain ⟨first, hfirst⟩ := Option.ne_none_iff_exists'.mp hchosen
  obtain ⟨second, hsecond⟩ := Option.ne_none_iff_exists'.mp hother
  have hperform := perform_congr surroundings left invocation invocation.verbose
  simp only [invoke, hfirst, hsecond, hperform, perform_congr]
  exact ⟨rfl, rfl, rfl, rfl⟩

/-- Command lines that are accepted and are the same without the switches. -/
theorem alike_run (haccepted : ∀ stop,
      CommandLine.read surroundings.mapping arguments = .error stop → ¬ stop.IsRefusal)
    (hothers : ∀ stop,
      CommandLine.read surroundings.mapping others = .error stop → ¬ stop.IsRefusal)
    (hsame : CommandLine.quieted arguments = CommandLine.quieted others)
    (hleft : ¬ Log.Filter.IsMiscut left) (hright : ¬ Log.Filter.IsMiscut right) :
    (run { surroundings with logFilter := left } tree arguments).Alike
      (run { surroundings with logFilter := right } tree others) := by
  rcases CommandLine.read_of_quieted_eq hsame haccepted hothers with
    ⟨stop, hread, hother⟩ | ⟨invocation, verbose, hread, hother⟩
  · simp only [run, hread, hother]
    cases stop <;> exact ⟨rfl, rfl, rfl, rfl⟩
  · simp only [run, hread, hother]
    exact alike_invoke hleft hright invocation verbose

/-- How much is logged shows in the log records and in nothing else, whatever command is run and
however it ends: the files with the settings among them, the output, the exit code and all messages
are the same.  Only a filter that cannot be taken apart shows: then nothing is done at all. -/
theorem verbosity_shows_in_records (haccepted : ∀ stop,
      CommandLine.read surroundings.mapping arguments = .error stop → ¬ stop.IsRefusal)
    (hothers : ∀ stop,
      CommandLine.read surroundings.mapping others = .error stop → ¬ stop.IsRefusal)
    (hsame : CommandLine.quieted arguments = CommandLine.quieted others) :
    let first := run { surroundings with logFilter := left } tree arguments
    let second := run { surroundings with logFilter := right } tree others
    (¬ Log.Filter.IsMiscut left → ¬ Log.Filter.IsMiscut right →
      first.tree = second.tree ∧ first.output = second.output
        ∧ first.ending.code = second.ending.code ∧ first.messages = second.messages
        ∧ WithRecords first.messages first.diagnostics
        ∧ WithRecords first.messages second.diagnostics)
      ∧ (Log.Filter.IsMiscut left →
        ∀ invocation, CommandLine.read surroundings.mapping arguments = .ok invocation →
          first = idle tree "" .crashed) := by
  intro first second
  refine ⟨fun hleft hright => ?_, fun hmiscut invocation hread => ?_⟩
  · have halike : first.Alike second := alike_run haccepted hothers hsame hleft hright
    have hmessages := Outcome.messages_congr halike.notices halike.ending
    refine ⟨halike.tree, halike.output, by rw [halike.ending], hmessages,
      withRecords_diagnostics first, ?_⟩
    rw [hmessages]
    exact withRecords_diagnostics second
  · exact run_of_no_filter hread (Log.Filter.choose_eq_none_iff.mpr hmiscut)

end Runs

/-- Code that cannot be written where it should go.  One run logs all it can, the other one nothing;
both report the failure. -/
theorem verbosity_shows_in_records_unwritten :
    let arguments := Command.spelled (.generate (some (.ofString "d/x"))) (.ofString "m.json")
    let silent := { bareSurroundings with logFilter := some (Utf8.bytesOf "off") }
    let first := run bareSurroundings .empty (Utf8.bytesOf "-v" :: arguments)
    let second := run silent .empty arguments
    first.ending.code = 1 ∧ second.ending.code = 1 ∧ first.tree = second.tree
      ∧ first.messages = second.messages ∧ first.diagnostics ≠ second.diagnostics
      ∧ WithRecords first.messages first.diagnostics
      ∧ WithRecords first.messages second.diagnostics := by
  intro arguments silent first second
  have hverbose : CommandLine.read none (Utf8.bytesOf "-v" :: arguments) =
      .ok ⟨some (.ofString "m.json"), true, .generate (some (.ofString "d/x"))⟩ := by
    decide +kernel
  have hquiet : CommandLine.read none arguments =
      .ok ⟨some (.ofString "m.json"), false, .generate (some (.ofString "d/x"))⟩ := by
    decide +kernel
  have hoff : ¬ Log.Filter.IsMiscut (some (Utf8.bytesOf "off")) :=
    Log.Filter.not_isMiscut (by decide)
  obtain ⟨hshown, _⟩ := @verbosity_shows_in_records bareSurroundings .empty none
    (some (Utf8.bytesOf "off")) (Utf8.bytesOf "-v" :: arguments) arguments
    (fun stop hstop => by cases hverbose.symm.trans hstop)
    (fun stop hstop => by cases hquiet.symm.trans hstop) (by decide)
  obtain ⟨htree, _, hcode, hmessages, hrecords, hwritten⟩ := hshown nofun hoff
  have hfailed : first.ending.code = 1 := by decide +kernel
  have hlogged : first.diagnostics ≠ second.diagnostics := by decide +kernel
  exact ⟨hfailed, hcode.symm.trans hfailed, htree, hmessages, hlogged, hrecords, hwritten⟩

/-- A filter of one directive with a wide blank in front: its target would be cut inside the blank.
-/
theorem miscut_filter_crashes :
    let arguments := Command.spelled .show (.ofString "m.json")
    let blank := { bareSurroundings with logFilter := some (Utf8.bytesOf "\u00A0a=") }
    let first := run bareSurroundings .empty arguments
    let second := run blank .empty arguments
    first.ending.code = 0 ∧ second.ending.code = 101 ∧ first.output ≠ second.output
      ∧ second = idle .empty "" .crashed := by
  intro arguments blank first second
  have hread : CommandLine.read blank.mapping arguments =
      .ok ⟨some (.ofString "m.json"), false, .show⟩ :=
    Command.read_spelled .show (fun _ h => by cases h) (by decide) (fun _ h => by cases h)
  have hmiscut : Log.Filter.IsMiscut (some (Utf8.bytesOf "\u00A0a=")) := by
    have hdecode := Utf8.decode?_eq_some_iff.mpr (Eq.refl (Utf8.bytesOf "\u00A0a="))
    rw [Log.Filter.IsMiscut, Option.bind_some, hdecode]
    rfl
  have hcrashed : second = idle .empty "" .crashed :=
    run_of_no_filter hread (Log.Filter.choose_eq_none_iff.mpr hmiscut)
  have hdone : first.ending.code = 0 := by decide +kernel
  have hshown : first.output ≠ "" := by decide +kernel
  rw [hcrashed]
  exact ⟨hdone, rfl, hshown, rfl⟩

end PadBridge.Run
