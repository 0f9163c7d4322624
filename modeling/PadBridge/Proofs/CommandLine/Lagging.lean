import PadBridge.Proofs.CommandLine
import PadBridge.Proofs.Faults

/-!
A level that is read with the switch for log records, beside one that is read without it.  The
switch takes what is held back; without it this comes a little later, but what is given in the end
is the same.
-/

namespace PadBridge.CommandLine

def Stop.IsRefusal : Stop → Prop
  | .refused _ => True
  | .help _ | .version | .nothing => False

def Given.quiet (given : Given) : Given :=
  { given with verbose := false }

def Progress.quiet (progress : Progress) : Progress :=
  { progress with given := progress.given.quiet }

theorem faultOr_readPath (flag : Flag) (value : Argument) :
    FaultOr Stop.IsRefusal (fun path => Given.readPath flag value = .ok path)
      (Given.readPath flag value) := by
  by_cases hvalue : value = []
  · rw [Given.readPath, if_pos hvalue]
    exact .fault trivial
  · rw [Given.readPath, if_neg hvalue]
    exact .done rfl

theorem faultOr_readChoice (flag : Flag) (value : Argument) :
    FaultOr Stop.IsRefusal (fun choice => Given.readChoice flag value = .ok choice)
      (Given.readChoice flag value) := by
  unfold Given.readChoice
  split
  · exact .fault trivial
  · split
    · exact .done rfl
    · split
      · exact .done rfl
      · exact .fault trivial

theorem faultOr_setValue (given : Given) (flag : Flag) (value : Argument) :
    FaultOr Stop.IsRefusal (fun next => given.quiet.setValue flag value = .ok next.quiet)
      (given.setValue flag value) := by
  cases hhas : given.has flag with
  | true =>
      have hrepeated : given.setValue flag value = .error (.refused (.repeated flag)) := by
        simp [Given.setValue, hhas, refuse, bind, Except.bind]
      rw [hrepeated]
      exact .fault trivial
  | false =>
      have hquiet : given.quiet.has flag = false := by
        cases flag <;> first | exact hhas | rfl
      simp only [Given.setValue, hhas, hquiet, Bool.false_eq_true, if_false]
      cases flag with
      | mapping | out | mappingFile =>
          refine (faultOr_readPath _ value).bind fun path hpath => .done ?_
          rw [hpath]
          rfl
      | showInstructions =>
          refine (faultOr_readChoice _ value).bind fun choice hchoice => .done ?_
          rw [hchoice]
          rfl
      | verbose | help | version => exact .done rfl

theorem faultOr_setPositional (given : Given) (positional : Positional) (value : Argument) :
    FaultOr Stop.IsRefusal (fun next => given.quiet.setPositional positional value = .ok next.quiet)
      (given.setPositional positional value) := by
  unfold Given.setPositional
  cases Utf8.decodeString? value with
  | none => exact .fault trivial
  | some text =>
      cases positional with
      | source =>
          cases hname : GameCubeButton.ofName text with
          | ok button =>
              simp only [hname]
              exact .done rfl
          | error unknown =>
              simp only [hname]
              exact .fault trivial
      | destination => exact .done rfl

/-- How far a level is read without the switch, beside how far it is read with it.  The switch takes
what is held back; without it this may still be to do. -/
def Lags (lagging progress : Progress) : Prop :=
  lagging = progress.quiet ∨ lagging.settle = .ok progress.quiet

variable {level : Level} {progress lagging settled : Progress} {flag : Flag} {argument : Argument}

theorem settle_eq_ok (hsettle : progress.settle = .ok settled) :
    settled.pending = .nothing ∧ settled.expected = progress.expected
      ∧ settled.trailing = progress.trailing ∧ progress.pending.isAwaiting = false := by
  rcases progress with ⟨given, pending, expected, trailing⟩
  cases pending with
  | nothing =>
      cases hsettle
      exact ⟨rfl, rfl, rfl, rfl⟩
  | awaiting flag => cases hsettle
  | value | positional =>
      obtain ⟨_, _, hsettled⟩ := bind_eq_ok_iff.mp hsettle
      cases hsettled
      exact ⟨rfl, rfl, rfl, rfl⟩

theorem settle_of_nothing (hpending : progress.pending = .nothing) :
    progress.settle = .ok progress := by
  rcases progress with ⟨given, pending, expected, trailing⟩
  cases hpending
  rfl

theorem settle_behindDashes (progress : Progress) :
    Progress.settle { progress with trailing := true } =
      progress.settle.map fun settled => { settled with trailing := true } := by
  rcases progress with ⟨given, pending, expected, trailing⟩
  cases pending with
  | nothing | awaiting flag => rfl
  | value flag value =>
      change (given.setValue flag value >>= fun given => _) =
        (given.setValue flag value >>= fun given => _).map _
      cases given.setValue flag value <;> rfl
  | positional positional value =>
      change (given.setPositional positional value >>= fun given => _) =
        (given.setPositional positional value >>= fun given => _).map _
      cases given.setPositional positional value <;> rfl

namespace Lags

theorem expected (hlags : Lags lagging progress) : lagging.expected = progress.expected := by
  rcases hlags with rfl | hsettle
  · rfl
  · exact (settle_eq_ok hsettle).2.1.symm

theorem trailing (hlags : Lags lagging progress) : lagging.trailing = progress.trailing := by
  rcases hlags with rfl | hsettle
  · rfl
  · exact (settle_eq_ok hsettle).2.2.1.symm

theorem isAwaiting (hlags : Lags lagging progress) :
    lagging.pending.isAwaiting = progress.pending.isAwaiting := by
  rcases hlags with rfl | hsettle
  · rfl
  · obtain ⟨hpending, _, _, hawaiting⟩ := settle_eq_ok hsettle
    have hnothing : progress.pending = .nothing := hpending
    rw [hawaiting, hnothing]
    rfl

/-- An option waits for its value in both readings. -/
theorem eq_quiet (hlags : Lags lagging progress) (hpending : progress.pending = .awaiting flag) :
    lagging = progress.quiet := by
  refine hlags.resolve_right fun hsettle => ?_
  have hnothing : progress.pending = .nothing := (settle_eq_ok hsettle).1
  rw [hpending] at hnothing
  cases hnothing

/-- Once what is held back is taken, no reading is behind the other. -/
theorem faultOr_settle (hlags : Lags lagging progress) :
    FaultOr Stop.IsRefusal (fun settled => lagging.settle = .ok settled.quiet
      ∧ settled.pending = .nothing ∧ settled.trailing = progress.trailing) progress.settle := by
  rcases hlags with rfl | hsettle
  · rcases progress with ⟨given, pending, expected, trailing⟩
    cases pending with
    | nothing => exact .done ⟨rfl, rfl, rfl⟩
    | awaiting flag => exact .fault trivial
    | value flag value =>
        refine (faultOr_setValue given flag value).bind fun next hnext => .done ⟨?_, rfl, rfl⟩
        change (given.quiet.setValue flag value >>= fun given => _) = _
        rw [hnext]
        rfl
    | positional positional value =>
        refine (faultOr_setPositional given positional value).bind fun next hnext =>
          .done ⟨?_, rfl, rfl⟩
        change (given.quiet.setPositional positional value >>= fun given => _) = _
        rw [hnext]
        rfl
  · have hpending : progress.pending = .nothing := (settle_eq_ok hsettle).1
    rw [settle_of_nothing hpending]
    exact .done ⟨hsettle, hpending, rfl⟩

/-- What a step of the one reading leaves when the other one makes the same step, or none where
there is only the switch to read. -/
def Step (progress next lagging : Progress) : Prop :=
  Lags lagging next ∧ next.trailing = progress.trailing

theorem followed_hold (hlags : Lags lagging progress) (pending : Pending) :
    Followed Stop.IsRefusal
      (fun next other => other = next.quiet ∧ next.trailing = progress.trailing)
      (progress.hold pending) (lagging.hold pending) := by
  refine hlags.faultOr_settle.followed ?_
  rintro settled ⟨hsettle, _, htrailing⟩
  rw [Progress.hold, hsettle]
  exact .done ⟨rfl, htrailing⟩

theorem followed_attach (hlags : Lags lagging progress) (flag : Flag) (value : Argument) :
    Followed Stop.IsRefusal (Step progress) (progress.attach flag value)
      (lagging.attach flag value) := by
  refine hlags.faultOr_settle.followed ?_
  rintro settled ⟨hsettle, _, htrailing⟩
  refine (faultOr_setValue settled.given flag value).followed fun next hnext => ?_
  have hattach : lagging.attach flag value = .ok { settled.quiet with given := next.quiet } := by
    rw [Progress.attach, hsettle]
    change (settled.given.quiet.setValue flag value >>= fun given => _) = _
    rw [hnext]
    rfl
  rw [hattach]
  exact .done ⟨Or.inl rfl, htrailing⟩

/-- Asking for help or for the version ends both readings. -/
theorem followed_switch (hlags : Lags lagging progress) (hflag : flag = .help ∨ flag = .version)
    (related : Progress → Progress → Prop) :
    Followed Stop.IsRefusal related (progress.switch level flag) (lagging.switch level flag) := by
  refine hlags.faultOr_settle.followed ?_
  rintro settled ⟨hsettle, _, _⟩
  rw [Progress.switch, hsettle]
  rcases hflag with rfl | rfl
  · exact .failed _
  · exact .failed _

/-- The switch for log records is read with nothing on the other side. -/
theorem faultOr_switch (hlags : Lags lagging progress) :
    FaultOr Stop.IsRefusal (fun next => Step progress next lagging ∧ next.given.verbose = true
      ∧ next.pending = .nothing) (progress.switch level .verbose) := by
  refine hlags.faultOr_settle.bind ?_
  rintro settled ⟨hsettle, hpending, htrailing⟩
  by_cases hverbose : settled.given.verbose = true
  · simp only [hverbose, if_true]
    exact .fault trivial
  · simp only [hverbose]
    exact .done ⟨⟨Or.inr hsettle, htrailing⟩, rfl, hpending⟩

/-- Two dashes leave what is held back where it is. -/
theorem behindDashes (hlags : Lags lagging progress) :
    Lags { lagging with trailing := true } { progress with trailing := true } := by
  rcases hlags with rfl | hsettle
  · exact Or.inl rfl
  · refine Or.inr ?_
    rw [settle_behindDashes, hsettle]
    rfl

/-- What a level gives in the end with the switches it gives without them. -/
theorem faultOr_complete (hlags : Lags lagging progress) (chosen : Option Path) :
    FaultOr Stop.IsRefusal (fun given => complete lagging chosen = .ok given.quiet)
      (complete progress chosen) := by
  refine hlags.faultOr_settle.bind ?_
  rintro settled ⟨hsettle, _, _⟩
  have hquiet : settled.quiet.given.mapping = settled.given.mapping := rfl
  rw [complete, hsettle]
  simp only [bind, Except.bind, hquiet]
  cases settled.given.mapping with
  | some path => exact .done rfl
  | none =>
      cases chosen with
      | none => exact .done rfl
      | some path =>
          simp only [Option.isNone_none, if_true]
          have hread := faultOr_readPath .mapping path.bytes
          generalize Given.readPath .mapping path.bytes = reading at hread
          cases hread with
          | fault herror => exact .fault herror
          | done _ => exact .done rfl

end Lags

end PadBridge.CommandLine
