import PadBridge.Proofs.CommandLine
import PadBridge.Proofs.Faults

/-!
Which options a command line gives.  The arguments are looked through one by one, without checking
anything: an option has its value attached or takes the next argument, whatever it looks like.
Where a command line is read to its end, what was read are the values that are found this way.
-/

namespace PadBridge.CommandLine

def Pending.awaits? : Pending → Option Flag
  | .awaiting flag => some flag
  | _ => none

/-- The option that is there with its value. -/
def Pending.held : Pending → List (Flag × Argument)
  | .value flag text => [(flag, text)]
  | _ => []

/-- What letters behind one dash give of an option with a value. -/
def openingShort (level : Level) (broken : Argument) : List Char → Pending
  | [] => .nothing
  | letter :: rest =>
      match level.shortFlag? letter with
      | none => .nothing
      | some flag =>
          if flag.takesValue then
            match Utf8.encode rest ++ broken with
            | [] => .awaiting flag
            | byte :: value => .value flag (if byte = equalsSign then value else byte :: value)
          else openingShort level broken rest

def openingLong (level : Level) (text : Argument) : Pending :=
  match (Utf8.decode? (splitValue text).1).bind level.longFlag? with
  | none => .nothing
  | some flag =>
      if flag.takesValue then
        match (splitValue text).2 with
        | some value => .value flag value
        | none => .awaiting flag
      else .nothing

def opening (level : Level) : Argument → Pending
  | [0x2D, 0x2D] => .nothing
  | 0x2D :: 0x2D :: text => openingLong level text
  | 0x2D :: letter :: letters =>
      openingShort level (Utf8.split (letter :: letters)).2 (Utf8.split (letter :: letters)).1
  | _ => .nothing

/-- The options with their values that arguments of one level give, up to two dashes or a command;
the first argument may be the value of an option before it. -/
def options (level : Level) : Option Flag → List Argument → List (Flag × Argument)
  | _, [] => []
  | some flag, value :: rest => (flag, value) :: options level none rest
  | none, argument :: rest =>
      if argument = [dash, dash] ∨ (level = .top ∧ (word? argument).isSome) then []
      else (opening level argument).held ++ options level (opening level argument).awaits? rest

def behind : Option Flag → List Argument → List Argument
  | _, [] => []
  | some _, _ :: rest => behind none rest
  | none, argument :: rest =>
      if (word? argument).isSome then rest else behind (opening .top argument).awaits? rest

example : options .top none [Utf8.bytesOf "-vm", Utf8.bytesOf "show", Utf8.bytesOf "show"] =
    [(.mapping, Utf8.bytesOf "show")] := by
  decide +kernel

def Given.value? (given : Given) : Flag → Option Argument
  | .mapping => given.mapping.map Path.bytes
  | .out => given.out.map Path.bytes
  | .mappingFile => given.mappingFile.map Path.bytes
  | .showInstructions => given.showInstructions.map fun choice => Utf8.bytesOf (toString choice)
  | .verbose | .help | .version => none

/-- The value of an option, taken or held back. -/
def Progress.value? (progress : Progress) (flag : Flag) : Option Argument :=
  (progress.given.value? flag).or (progress.pending.held.lookup flag)

theorem readPath_eq_ok_iff {flag : Flag} {value : Argument} {path : Path} :
    Given.readPath flag value = .ok path ↔ value ≠ [] ∧ path = ⟨value⟩ := by
  unfold Given.readPath
  by_cases hvalue : value = []
  · simp [hvalue, refuse]
  · simp [hvalue, eq_comm]

theorem readChoice_eq_ok {flag : Flag} {value : Argument} {choice : Bool}
    (hread : Given.readChoice flag value = .ok choice) :
    value = Utf8.bytesOf (toString choice) := by
  unfold Given.readChoice at hread
  split at hread
  · cases hread
  · split at hread
    · cases hread
      assumption
    · split at hread
      · cases hread
        assumption
      · cases hread

/-- Taking a value changes its option only. -/
theorem setValue_eq_ok {given next : Given} {flag : Flag} {value : Argument}
    (hset : given.setValue flag value = .ok next) :
    given.has flag = false ∧ (flag.takesValue = true → next.value? flag = some value)
      ∧ ∀ other, other.takesValue = true → other ≠ flag →
        next.value? other = given.value? other := by
  have hhas : given.has flag = false := by
    cases hflag : given.has flag with
    | false => rfl
    | true => simp [Given.setValue, hflag, refuse, bind, Except.bind] at hset
  simp only [Given.setValue, hhas, Bool.false_eq_true, if_false] at hset
  refine ⟨hhas, ?_⟩
  cases flag with
  | mapping | out | mappingFile =>
      obtain ⟨path, hpath, hnext⟩ := bind_eq_ok_iff.mp hset
      obtain ⟨_, rfl⟩ := readPath_eq_ok_iff.mp hpath
      cases hnext
      refine ⟨fun _ => rfl, fun other _ hother => ?_⟩
      cases other <;> first | rfl | exact absurd rfl hother
  | showInstructions =>
      obtain ⟨choice, hchoice, hnext⟩ := bind_eq_ok_iff.mp hset
      cases hnext
      refine ⟨fun _ => congrArg some (readChoice_eq_ok hchoice).symm, fun other _ hother => ?_⟩
      cases other <;> first | rfl | exact absurd rfl hother
  | verbose | help | version =>
      cases hset
      refine ⟨fun htakes => ?_, fun _ _ _ => rfl⟩
      cases htakes

theorem value?_of_not_has {given : Given} {flag : Flag} (hhas : given.has flag = false) :
    given.value? flag = none := by
  cases flag <;> simp_all [Given.has, Given.value?]

/-- Taking a value gives it to its option, which had none, and leaves the others. -/
theorem value?_setValue {given next : Given} {flag : Flag} {value : Argument}
    (hset : given.setValue flag value = .ok next) {other : Flag}
    (hother : other.takesValue = true) :
    next.value? other = (given.value? other).or ([(flag, value)].lookup other) := by
  obtain ⟨hhas, hown, hothers⟩ := setValue_eq_ok hset
  by_cases hflag : other = flag
  · subst hflag
    rw [hown hother, value?_of_not_has hhas]
    simp
  · rw [hothers other hother hflag, List.lookup_cons, beq_false_of_ne hflag]
    simp

theorem value?_setPositional {given next : Given} {positional : Positional} {value : Argument}
    (hset : given.setPositional positional value = .ok next) (flag : Flag) :
    next.value? flag = given.value? flag := by
  unfold Given.setPositional at hset
  split at hset
  · cases hset
  · split at hset
    · split at hset
      · cases hset
        cases flag <;> rfl
      · cases hset
    · cases hset
      cases flag <;> rfl

/-- What is held back is taken as it is. -/
structure Settles (progress settled : Progress) : Prop where
  ready : progress.pending.awaits? = none
  pending : settled.pending = .nothing
  trailing : settled.trailing = progress.trailing
  value : ∀ flag, flag.takesValue = true → settled.given.value? flag = progress.value? flag

/-- One step further.  Before it no value was missing; what is new is the option that is opened. -/
structure Opens (progress next : Progress) (opened : Pending) : Prop where
  ready : progress.pending.awaits? = none
  awaits : next.pending.awaits? = opened.awaits?
  trailing : next.trailing = progress.trailing
  value : ∀ flag, flag.takesValue = true →
    next.value? flag = (progress.value? flag).or (opened.held.lookup flag)

variable {level : Level} {progress next settled : Progress} {flag : Flag}
  {value argument : Argument}

theorem settles_of_ok (hsettle : progress.settle = .ok settled) : Settles progress settled := by
  rcases progress with ⟨given, pending, expected, trailing⟩
  cases pending with
  | nothing =>
      cases hsettle
      exact ⟨rfl, rfl, rfl, fun _ _ => Option.or_none.symm⟩
  | awaiting flag => cases hsettle
  | value flag value =>
      obtain ⟨after, hgiven, hsettled⟩ := bind_eq_ok_iff.mp hsettle
      cases hsettled
      exact ⟨rfl, rfl, rfl, fun _ hother => value?_setValue hgiven hother⟩
  | positional positional value =>
      obtain ⟨after, hgiven, hsettled⟩ := bind_eq_ok_iff.mp hsettle
      cases hsettled
      exact ⟨rfl, rfl, rfl, fun other _ =>
        (value?_setPositional hgiven other).trans Option.or_none.symm⟩

theorem opens_hold {pending : Pending} (hhold : progress.hold pending = .ok next) :
    Opens progress next pending := by
  obtain ⟨settled, hsettle, hnext⟩ := bind_eq_ok_iff.mp hhold
  have hsettles := settles_of_ok hsettle
  cases hnext
  refine ⟨hsettles.ready, rfl, hsettles.trailing, fun flag hflag => ?_⟩
  rw [Progress.value?, hsettles.value flag hflag]

theorem opens_attach (hattach : progress.attach flag value = .ok next) :
    Opens progress next (.value flag value) := by
  obtain ⟨settled, hsettle, hnext⟩ := bind_eq_ok_iff.mp hattach
  obtain ⟨given, hset, hgiven⟩ := bind_eq_ok_iff.mp hnext
  obtain ⟨hready, hpending, htrailing, hvalue⟩ := settles_of_ok hsettle
  cases hgiven
  refine ⟨hready, by rw [hpending]; rfl, htrailing, fun other hother => ?_⟩
  rw [Progress.value?, value?_setValue hset hother, hvalue other hother, hpending]
  exact Option.or_none

theorem opens_switch (hswitch : progress.switch level flag = .ok next) :
    Opens progress next .nothing := by
  obtain ⟨settled, hsettle, hnext⟩ := bind_eq_ok_iff.mp hswitch
  obtain ⟨hready, hpending, htrailing, hvalue⟩ := settles_of_ok hsettle
  have hgiven : ∃ verbose, next = { settled with given := { settled.given with verbose } } := by
    by_cases hverbose : settled.given.verbose = true
    · cases flag <;>
        simp [hverbose, refuse, throw, throwThe, MonadExceptOf.throw, bind, Except.bind] at hnext
    · cases flag <;>
        simp [hverbose, throw, throwThe, MonadExceptOf.throw, pure, Except.pure] at hnext
      all_goals exact ⟨true, hnext.symm⟩
  obtain ⟨verbose, rfl⟩ := hgiven
  refine ⟨hready, by rw [hpending], htrailing, fun other hother => ?_⟩
  rw [← hvalue other hother, Progress.value?, hpending]
  cases other <;> rfl

/-- What is left open by one step is left open by the steps behind it. -/
theorem Opens.trans {between : Progress} {opened : Pending}
    (hfirst : Opens progress between .nothing) (hsecond : Opens between next opened) :
    Opens progress next opened where
  ready := hfirst.ready
  awaits := hsecond.awaits
  trailing := hsecond.trailing.trans hfirst.trailing
  value flag hflag := by
    rw [hsecond.value flag hflag, hfirst.value flag hflag]
    exact congrArg (fun sofar : Option Argument => sofar.or _) Option.or_none

theorem opens_readShort {broken : Argument} {letters : List Char}
    (hletters : letters ≠ [] ∨ broken ≠ [] ∨ progress.pending.awaits? = none)
    (hread : readShort level progress broken letters = .ok next) :
    Opens progress next (openingShort level broken letters) := by
  induction letters generalizing progress with
  | nil =>
      rw [readShort] at hread
      split at hread
      · rename_i hbroken
        cases hread
        have hready := (hletters.resolve_left (by simp)).resolve_left (by simp [hbroken])
        exact ⟨hready, hready, rfl, fun _ _ => Option.or_none.symm⟩
      · cases hread
  | cons letter rest ih =>
      rw [readShort] at hread
      rw [openingShort]
      cases hflag : level.shortFlag? letter with
      | none =>
          rw [hflag] at hread
          cases hread
      | some flag =>
          simp only [hflag] at hread ⊢
          by_cases hvalue : flag.takesValue = true
          · simp only [if_pos hvalue] at hread ⊢
            cases htext : Utf8.encode rest ++ broken with
            | nil =>
                rw [htext] at hread
                exact opens_hold hread
            | cons byte text =>
                rw [htext] at hread
                exact opens_attach hread
          · simp only [if_neg hvalue] at hread ⊢
            obtain ⟨between, hswitch, hrest⟩ := bind_eq_ok_iff.mp hread
            have hfirst := opens_switch hswitch
            exact hfirst.trans (ih (Or.inr (Or.inr hfirst.awaits)) hrest)

theorem split_ne_nil (letter : UInt8) (letters : Argument) :
    (Utf8.split (letter :: letters)).1 ≠ [] ∨ (Utf8.split (letter :: letters)).2 ≠ [] := by
  rw [Utf8.split]
  split <;> simp

theorem opens_readLong {text : Argument} (hread : readLong level progress text = .ok next) :
    Opens progress next (openingLong level text) := by
  unfold readLong at hread
  unfold openingLong
  simp only at hread ⊢
  cases hflag : (Utf8.decode? (splitValue text).1).bind level.longFlag? with
  | none =>
      simp only [hflag] at hread
      cases hread
  | some flag =>
      simp only [hflag] at hread ⊢
      by_cases hvalue : flag.takesValue = true
      · simp only [if_pos hvalue] at hread ⊢
        cases htext : (splitValue text).2 with
        | none =>
            rw [htext] at hread
            exact opens_hold hread
        | some value =>
            rw [htext] at hread
            exact opens_attach hread
      · simp only [if_neg hvalue] at hread ⊢
        split at hread
        · cases hread
        · exact opens_switch hread

theorem opens_readPositional (hread : readPositional level progress argument = .ok next) :
    Opens progress next .nothing := by
  unfold readPositional at hread
  split at hread
  · cases hread
  · obtain ⟨between, hhold, hnext⟩ := bind_eq_ok_iff.mp hread
    obtain ⟨hready, hawaits, htrailing, hvalue⟩ := opens_hold hhold
    cases hnext
    exact ⟨hready, hawaits, htrailing, hvalue⟩

/-- An argument is two dashes, or opens an option, or is the value of the one before it. -/
theorem readArgument_cases (hread : readArgument level progress argument = .ok next) :
    argument = [dash, dash] ∧ next = { progress with trailing := true }
      ∨ Opens progress next (opening level argument)
      ∨ ∃ flag, progress.pending = .awaiting flag
        ∧ next = { progress with pending := .value flag argument } := by
  unfold readArgument at hread
  split at hread
  · cases hread
    exact Or.inl ⟨rfl, rfl⟩
  · rename_i text htext
    refine Or.inr (Or.inl ?_)
    rw [opening]
    · exact opens_readLong hread
    · exact htext
  · rename_i letter letters hdashes hdash
    refine Or.inr (Or.inl ?_)
    rw [opening]
    · exact opens_readShort ((split_ne_nil letter letters).imp_right Or.inl) hread
    · exact hdashes
    · exact hdash
  · rename_i hdashes hlong hshort
    cases hpending : progress.pending with
    | awaiting flag =>
        simp only [hpending] at hread
        cases hread
        exact Or.inr (Or.inr ⟨flag, rfl, rfl⟩)
    | _ =>
        refine Or.inr (Or.inl ?_)
        simp only [hpending] at hread
        rw [opening]
        · exact opens_readPositional hread
        · exact hdashes
        · exact hlong
        · exact hshort

section Level

variable {arguments : List Argument} {last : Progress} {found : Option (Verb × List Argument)}

/-- Behind two dashes there are no options and no command. -/
theorem value?_of_readLevel_trailing (htrailing : progress.trailing = true)
    (hread : readLevel level progress arguments = .ok (last, found))
    (hsettle : last.settle = .ok settled) :
    progress.pending.awaits? = none ∧ found = none
      ∧ ∀ flag, flag.takesValue = true → settled.given.value? flag = progress.value? flag := by
  induction arguments generalizing progress with
  | nil =>
      cases hread
      have hsettles := settles_of_ok hsettle
      exact ⟨hsettles.ready, rfl, hsettles.value⟩
  | cons argument rest ih =>
      rw [readLevel, if_pos htrailing] at hread
      obtain ⟨next, hnext, hrest⟩ := bind_eq_ok_iff.mp hread
      have hopens := opens_readPositional hnext
      obtain ⟨_, hfound, hvalue⟩ := ih (hopens.trailing.trans htrailing) hrest
      refine ⟨hopens.ready, hfound, fun flag hflag => ?_⟩
      rw [hvalue flag hflag, hopens.value flag hflag]
      exact Option.or_none

/-- An argument that is no command is taken before the ones behind it. -/
theorem readLevel_cons_cases (htrailing : progress.trailing = false)
    (hread : readLevel level progress (argument :: arguments) = .ok (last, found)) :
    (∃ verb, level = .top ∧ progress.pending.awaits? = none ∧ word? argument = some (.verb verb)
        ∧ last = progress ∧ found = some (verb, arguments))
      ∨ (progress.pending.awaits? = none → ¬ (level = .top ∧ (word? argument).isSome))
        ∧ ∃ next, readArgument level progress argument = .ok next
          ∧ readLevel level next arguments = .ok (last, found) := by
  have hawaiting : progress.pending.isAwaiting = progress.pending.awaits?.isSome := by
    cases progress.pending <;> rfl
  rw [readLevel, htrailing, hawaiting] at hread
  simp only [Bool.false_eq_true, if_false] at hread
  by_cases hplace : (decide (level = .top) && !progress.pending.awaits?.isSome) = true
  · obtain ⟨htop, hawaits⟩ : level = .top ∧ progress.pending.awaits? = none := by
      simpa using hplace
    simp only [if_pos hplace] at hread
    cases hword : word? argument with
    | none =>
        simp only [hword] at hread
        exact Or.inr ⟨by simp, bind_eq_ok_iff.mp hread⟩
    | some word =>
        cases word with
        | help =>
            simp only [hword] at hread
            obtain ⟨page, _, hthrow⟩ := bind_eq_ok_iff.mp hread
            cases hthrow
        | verb verb =>
            simp only [hword] at hread
            cases hread
            exact Or.inl ⟨verb, htop, hawaits, rfl, rfl, rfl⟩
  · simp only [if_neg hplace] at hread
    refine Or.inr ⟨fun hawaits => ?_, bind_eq_ok_iff.mp hread⟩
    rintro ⟨htop, _⟩
    exact hplace (by simp [htop, hawaits])

/-- What is read on a level are the options that its arguments give, and what follows the command
is left. -/
theorem value?_of_readLevel (htrailing : progress.trailing = false)
    (hread : readLevel level progress arguments = .ok (last, found))
    (hsettle : last.settle = .ok settled) :
    (∀ flag, flag.takesValue = true → settled.given.value? flag =
        (progress.value? flag).or
          ((options level progress.pending.awaits? arguments).lookup flag))
      ∧ ∀ verb rest, found = some (verb, rest) →
        level = .top ∧ rest = behind progress.pending.awaits? arguments := by
  induction arguments generalizing progress with
  | nil =>
      cases hread
      have hsettles := settles_of_ok hsettle
      refine ⟨fun flag hflag => ?_, nofun⟩
      rw [hsettles.value flag hflag, options]
      exact Option.or_none.symm
  | cons argument rest ih =>
      rcases readLevel_cons_cases htrailing hread with
        ⟨verb, htop, hawaits, hword, rfl, rfl⟩ | ⟨hword, next, hnext, hrest⟩
      · have hsettles := settles_of_ok hsettle
        refine ⟨fun flag hflag => ?_, ?_⟩
        · rw [hsettles.value flag hflag, hawaits, options, if_pos (Or.inr ⟨htop, by simp [hword]⟩)]
          exact Option.or_none.symm
        · rintro _ _ ⟨⟩
          rw [hawaits, behind, if_pos (by simp [hword])]
          exact ⟨htop, rfl⟩
      · rcases readArgument_cases hnext with ⟨rfl, rfl⟩ | hopens | ⟨flag, hpending, rfl⟩
        · obtain ⟨hawaits, rfl, hvalue⟩ := value?_of_readLevel_trailing rfl hrest hsettle
          refine ⟨fun flag hflag => ?_, nofun⟩
          rw [hvalue flag hflag, hawaits, options, if_pos (Or.inl rfl)]
          exact Option.or_none.symm
        · obtain ⟨hvalue, hbehind⟩ := ih (hopens.trailing.trans htrailing) hrest
          have hdashes : argument ≠ [dash, dash] := by
            rintro rfl
            cases hnext
            cases hopens.trailing.trans htrailing
          have hnone := hword hopens.ready
          refine ⟨fun flag hflag => ?_, fun verb after hfound => ?_⟩
          · rw [hvalue flag hflag, hopens.value flag hflag, hopens.awaits, hopens.ready, options,
              if_neg (not_or.mpr ⟨hdashes, hnone⟩), List.lookup_append, Option.or_assoc]
          · obtain ⟨rfl, rfl⟩ := hbehind verb after hfound
            rw [hopens.ready, behind, if_neg fun h => hnone ⟨rfl, h⟩, hopens.awaits]
            exact ⟨rfl, rfl⟩
        · obtain ⟨hvalue, hbehind⟩ :=
            @ih { progress with pending := .value flag argument } htrailing hrest
          have hawaits : progress.pending.awaits? = some flag := by rw [hpending]; rfl
          refine ⟨fun other hother => ?_, fun verb after hfound => ?_⟩
          · have hheld : progress.value? other = progress.given.value? other := by
              rw [Progress.value?, hpending]
              exact Option.or_none
            have hcons : (flag, argument) :: options level none rest =
                [(flag, argument)] ++ options level none rest := rfl
            rw [hvalue other hother, hheld, hawaits, options, hcons, List.lookup_append,
              ← Option.or_assoc]
            rfl
          · rw [hawaits, behind]
            exact hbehind verb after hfound

end Level

/-- A level that is completed has taken everything that was held back. -/
theorem exists_settle_of_complete {mapping : Option Path} {given : Given}
    (hcomplete : complete progress mapping = .ok given) :
    ∃ settled, progress.settle = .ok settled ∧ settled.given = given := by
  obtain ⟨settled, hsettle, hrest⟩ := bind_eq_ok_iff.mp hcomplete
  refine ⟨settled, hsettle, ?_⟩
  cases hmapping : settled.given.mapping with
  | some path =>
      simp only [hmapping] at hrest
      cases hrest
      rfl
  | none =>
      simp only [hmapping] at hrest
      cases mapping with
      | none =>
          cases hrest
          rfl
      | some path =>
          obtain ⟨_, _, hgiven⟩ := bind_eq_ok_iff.mp hrest
          cases hgiven
          rfl

theorem verb_of_command {verb : Verb} {given : Given} {found : Command}
    (hcommand : command verb given = .ok found) :
    found.verb = verb ∧ ∀ out, found = .generate out → out = given.out := by
  cases verb with
  | set =>
      unfold command at hcommand
      simp only at hcommand
      split at hcommand
      · cases hcommand
        exact ⟨rfl, nofun⟩
      · cases hcommand
  | generate =>
      cases hcommand
      refine ⟨rfl, ?_⟩
      rintro _ ⟨⟩
      rfl
  | _ =>
      cases hcommand
      exact ⟨rfl, nofun⟩

/-- The parts that an invocation is read from. -/
theorem exists_levels_of_read {chosen : Option Path} {arguments : List Argument}
    {invocation : Invocation} (hread : read chosen arguments = .ok invocation) :
    ∃ top verb rest last found outer inner,
      readLevel .top (.start .top) arguments = .ok (top, some (verb, rest))
        ∧ readLevel (.command verb) (.start (.command verb)) rest = .ok (last, found)
        ∧ complete top chosen = .ok outer ∧ complete last chosen = .ok inner
        ∧ command verb inner = .ok invocation.command
        ∧ invocation.mapping = (inner.mapping.or outer.mapping).or chosen := by
  obtain ⟨⟨top, next⟩, htop, hnext⟩ := bind_eq_ok_iff.mp hread
  cases next with
  | none =>
      obtain ⟨given, _, hrefused⟩ := bind_eq_ok_iff.mp hnext
      simp only at hrefused
      split at hrefused <;> cases hrefused
  | some following =>
      obtain ⟨verb, rest⟩ := following
      obtain ⟨⟨last, found⟩, hlast, hnext⟩ := bind_eq_ok_iff.mp hnext
      obtain ⟨inner, hinner, hnext⟩ := bind_eq_ok_iff.mp hnext
      obtain ⟨command, hcommand, hnext⟩ := bind_eq_ok_iff.mp hnext
      obtain ⟨outer, houter, hnext⟩ := bind_eq_ok_iff.mp hnext
      cases hnext
      exact ⟨top, verb, rest, last, found, outer, inner, htop, hlast, houter, hinner, hcommand, rfl⟩

/-- The mapping document of an invocation is the one that is named behind the command, else the one
that is named in front of it, else the one that is chosen for all runs. -/
theorem named_of_read {chosen : Option Path} {arguments : List Argument} {invocation : Invocation}
    (hread : read chosen arguments = .ok invocation) :
    let outer := options .top none arguments
    let inner := options (.command invocation.command.verb) none (behind none arguments)
    invocation.mapping =
        (((inner.lookup .mapping).or (outer.lookup .mapping)).map Path.mk).or chosen
      ∧ ∀ out, invocation.command = .generate out → out = (inner.lookup .out).map Path.mk := by
  obtain ⟨top, verb, rest, last, found, outerGiven, innerGiven, htop, hlast, houter, hinner,
    hcommand, hmapping⟩ := exists_levels_of_read hread
  obtain ⟨settledTop, hsettleTop, rfl⟩ := exists_settle_of_complete houter
  obtain ⟨settledLast, hsettleLast, rfl⟩ := exists_settle_of_complete hinner
  obtain ⟨hverb, hout⟩ := verb_of_command hcommand
  obtain ⟨houterValue, hbehind⟩ := value?_of_readLevel rfl htop hsettleTop
  obtain ⟨_, rfl⟩ := hbehind verb rest rfl
  obtain ⟨hinnerValue, _⟩ := value?_of_readLevel rfl hlast hsettleLast
  have hpath : ∀ path : Option Path, path = (path.map Path.bytes).map Path.mk := by
    rintro (_ | path) <;> rfl
  subst hverb
  refine ⟨?_, fun out hgenerate => ?_⟩
  · have houterMapping : settledTop.given.mapping.map Path.bytes = _ := houterValue .mapping rfl
    have hinnerMapping : settledLast.given.mapping.map Path.bytes = _ := hinnerValue .mapping rfl
    rw [hmapping, hpath (settledLast.given.mapping.or settledTop.given.mapping), Option.map_or,
      hinnerMapping, houterMapping]
    rfl
  · rw [hout out hgenerate, hpath settledLast.given.out]
    exact congrArg (Option.map Path.mk) (hinnerValue .out rfl)

end PadBridge.CommandLine
