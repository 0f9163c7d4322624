import PadBridge.Proofs.CommandLine.Lagging

/-!
Asking for log records.  The switch for it may stand among the options of both levels, by its name,
as a letter, or in front of other letters.  A command line is read with the switches and without
them side by side, and asks for the same.
-/

namespace PadBridge.CommandLine

def verboseLetter : UInt8 := 0x76

def verboseName : Argument :=
  Utf8.bytesOf Flag.verbose.longName

/-- What is left of an argument without the switch. -/
def hushed : Argument → Option Argument
  | 0x2D :: 0x76 :: letters => if letters = [] then none else some (dash :: letters)
  | argument => if argument = dash :: dash :: verboseName then none else some argument

/-- A command line without the switches.  Behind two dashes there are none. -/
def quieted : List Argument → List Argument
  | [] => []
  | argument :: rest =>
      if argument = [dash, dash] then argument :: rest
      else (hushed argument).toList ++ quieted rest

example : quieted (["-vm", "x", "-v", "set", "--verbose", "A", "--", "-v"].map Utf8.bytesOf) =
    ["-m", "x", "set", "A", "--", "-v"].map Utf8.bytesOf := by
  decide

/-- An argument is the switch, or has it in front of other letters, or does not have it. -/
theorem hushed_cases (argument : Argument) :
    (argument = [dash, verboseLetter] ∨ argument = dash :: dash :: verboseName)
        ∧ hushed argument = none
      ∨ (∃ letter letters, argument = dash :: verboseLetter :: letter :: letters
        ∧ hushed argument = some (dash :: letter :: letters))
      ∨ (∀ letters, argument ≠ dash :: verboseLetter :: letters)
        ∧ argument ≠ dash :: dash :: verboseName ∧ hushed argument = some argument := by
  unfold hushed
  split
  · rename_i letters
    cases letters with
    | nil => exact Or.inl ⟨Or.inl rfl, rfl⟩
    | cons letter letters => exact Or.inr (Or.inl ⟨letter, letters, rfl, rfl⟩)
  · rename_i hletters
    by_cases hname : argument = dash :: dash :: verboseName
    · exact Or.inl ⟨Or.inr hname, if_pos hname⟩
    · exact Or.inr (Or.inr ⟨hletters, hname, if_neg hname⟩)

variable {level : Level} {progress lagging : Progress} {flag : Flag} {argument : Argument}

theorem splitValue_eq_none {text name : Argument} (hsplit : splitValue text = (name, none)) :
    text = name := by
  unfold splitValue at hsplit
  split at hsplit
  · cases hsplit
    rfl
  · cases hsplit

theorem longFlag?_eq_some {name : List Char} (hname : level.longFlag? name = some flag) :
    name = flag.longName.toList := by
  have hfound := List.find?_some hname
  rw [decide_eq_true_eq] at hfound
  exact hfound.symm

theorem shortFlag?_eq_some {letter : Char} (hletter : level.shortFlag? letter = some flag) :
    flag.letter? = some letter := by
  have hfound := List.find?_some hletter
  rwa [decide_eq_true_eq] at hfound

theorem verbose_mem_flags (level : Level) : Flag.verbose ∈ level.flags := by
  cases level with
  | top => decide
  | command verb => cases verb <;> decide

theorem shortFlag?_verbose (level : Level) : level.shortFlag? 'v' = some .verbose := by
  cases level with
  | top => rfl
  | command verb => cases verb <;> rfl

/-- Of the options without a value only the switch does not end the reading. -/
theorem ends_of_not_takesValue (hvalue : ¬ flag.takesValue = true) (hverbose : flag ≠ .verbose) :
    flag = .help ∨ flag = .version := by
  cases flag with
  | help => exact Or.inl rfl
  | version => exact Or.inr rfl
  | verbose => exact absurd rfl hverbose
  | mapping | out | mappingFile | showInstructions => exact absurd rfl hvalue

theorem readLong_verboseName (level : Level) (progress : Progress) :
    readLong level progress verboseName = progress.switch level .verbose := by
  have hname : Utf8.decode? verboseName = some Flag.verbose.longName.toList :=
    Utf8.decode?_eq_some_iff.mpr rfl
  have hsplit : splitValue verboseName = (verboseName, none) := rfl
  rw [readLong, hsplit]
  simp only [hname, Option.bind_some, Level.longFlag?_longName (verbose_mem_flags level)]
  rfl

namespace Lags

theorem followed_readLong (hlags : Lags lagging progress) {text : Argument}
    (htext : text ≠ verboseName) :
    Followed Stop.IsRefusal (Step progress) (readLong level progress text)
      (readLong level lagging text) := by
  unfold readLong
  obtain ⟨name, value?, hsplit⟩ : ∃ name value?, splitValue text = (name, value?) := ⟨_, _, rfl⟩
  simp only [hsplit]
  cases hflag : (Utf8.decode? name).bind level.longFlag? with
  | none => exact .fault _ trivial
  | some flag =>
      by_cases hvalue : flag.takesValue = true
      · simp only [if_pos hvalue]
        cases value? with
        | some value => exact hlags.followed_attach flag value
        | none =>
            refine (hlags.followed_hold (.awaiting flag)).mono ?_
            rintro next other ⟨rfl, htrailing⟩
            exact ⟨Or.inl rfl, htrailing⟩
      · simp only [if_neg hvalue]
        cases value? with
        | some value => exact .fault _ trivial
        | none =>
            refine hlags.followed_switch (ends_of_not_takesValue hvalue ?_) _
            rintro rfl
            obtain ⟨letters, hletters, hlong⟩ := Option.bind_eq_some_iff.mp hflag
            rw [longFlag?_eq_some hlong] at hletters
            exact htext ((splitValue_eq_none hsplit).trans (Utf8.decode?_eq_some_iff.mp hletters))

theorem followed_readShort (hlags : Lags lagging progress) (broken : Argument)
    {letters : List Char} (hletters : letters.head? ≠ some 'v') :
    Followed Stop.IsRefusal (Step progress) (readShort level progress broken letters)
      (readShort level lagging broken letters) := by
  cases letters with
  | nil =>
      rw [readShort, readShort]
      split
      · exact .done ⟨hlags, rfl⟩
      · exact .fault _ trivial
  | cons letter rest =>
      rw [readShort, readShort]
      cases hflag : level.shortFlag? letter with
      | none => exact .fault _ trivial
      | some flag =>
          by_cases hvalue : flag.takesValue = true
          · simp only [if_pos hvalue]
            cases Utf8.encode rest ++ broken with
            | nil =>
                refine (hlags.followed_hold (.awaiting flag)).mono ?_
                rintro next other ⟨rfl, htrailing⟩
                exact ⟨Or.inl rfl, htrailing⟩
            | cons byte value => exact hlags.followed_attach flag _
          · simp only [if_neg hvalue]
            have hends : flag = .help ∨ flag = .version := by
              refine ends_of_not_takesValue hvalue ?_
              rintro rfl
              exact hletters (shortFlag?_eq_some hflag).symm
            exact (hlags.followed_switch hends fun _ _ => False).bind fun _ _ h => h.elim

/-- In front of other letters the switch is read with nothing on the other side. -/
theorem followed_readShort_verbose (hlags : Lags lagging progress) (broken : Argument)
    (letters : List Char) :
    Followed Stop.IsRefusal (Step progress) (readShort level progress broken ('v' :: letters))
      (readShort level lagging broken letters) := by
  rw [readShort, shortFlag?_verbose]
  refine hlags.faultOr_switch.followed ?_
  rintro next ⟨⟨hnext, htrailing⟩, hverbose, hpending⟩
  by_cases hletters : letters.head? = some 'v'
  · obtain ⟨rest, rfl⟩ : ∃ rest, letters = 'v' :: rest := by
      cases letters with
      | nil => cases hletters
      | cons letter rest =>
          cases hletters
          exact ⟨rest, rfl⟩
    -- the switch a second time
    have hrepeated : next.switch level .verbose = .error (.refused (.repeated .verbose)) := by
      rw [Progress.switch, settle_of_nothing hpending]
      simp [bind, Except.bind, hverbose, refuse]
    rw [readShort, shortFlag?_verbose]
    simp only [hrepeated]
    exact .fault _ trivial
  · refine (hnext.followed_readShort broken hletters).mono ?_
    rintro after other ⟨hafter, hsame⟩
    exact ⟨hafter, hsame.trans htrailing⟩

theorem followed_readPositional (hlags : Lags lagging progress) (argument : Argument) :
    Followed Stop.IsRefusal (Step progress) (readPositional level progress argument)
      (readPositional level lagging argument) := by
  unfold readPositional
  rw [hlags.expected]
  cases progress.expected with
  | nil => exact .fault _ trivial
  | cons positional expected =>
      refine (hlags.followed_hold (.positional positional argument)).bind ?_
      rintro next other ⟨rfl, htrailing⟩
      exact .done ⟨Or.inl rfl, htrailing⟩

end Lags

/-- Letters of ASCII are read one by one. -/
theorem split_ascii {lead : UInt8} (hlead : lead < 0x80) (rest : Argument) :
    Utf8.split (lead :: rest) =
      (Char.ofNat lead.toNat :: (Utf8.split rest).1, (Utf8.split rest).2) := by
  have hfront : Utf8.front lead rest = .char (Char.ofNat lead.toNat) rest := if_pos hlead
  rw [Utf8.split]
  split
  · rename_i c more hmore
    cases hfront.symm.trans hmore
    rfl
  · rename_i more hmore
    cases hfront.symm.trans hmore

/-- The letter of the switch is written in one way. -/
theorem eq_verboseLetter_of_split {lead : UInt8} {rest : Argument}
    (hhead : (Utf8.split (lead :: rest)).1.head? = some 'v') : lead = verboseLetter := by
  rw [Utf8.split] at hhead
  split at hhead
  · rename_i c more hfront
    cases hhead
    have hbytes := Utf8.encodeChar_of_front hfront
    cases hbytes
    rfl
  · cases hhead

theorem shortFlag?_dash (level : Level) : level.shortFlag? '-' = none := by
  cases level with
  | top => rfl
  | command verb => cases verb <;> rfl

theorem readArgument_short (level : Level) (progress : Progress) {letter : UInt8}
    (hletter : letter ≠ dash) (letters : Argument) :
    readArgument level progress (dash :: letter :: letters) =
      readShort level progress (Utf8.split (letter :: letters)).2
        (Utf8.split (letter :: letters)).1 := by
  unfold readArgument
  split
  · rename_i hdashes
    cases hdashes
    exact absurd rfl hletter
  · rename_i hdashes
    cases hdashes
    exact absurd rfl hletter
  · rename_i hshort
    cases hshort
    rfl
  · rename_i hother
    exact absurd rfl (hother letter letters)

theorem readArgument_verboseLetter (level : Level) (progress : Progress) (letters : Argument) :
    readArgument level progress (dash :: verboseLetter :: letters) =
      readShort level progress (Utf8.split letters).2 ('v' :: (Utf8.split letters).1) := by
  have hsplit : Utf8.split (verboseLetter :: letters) =
      ('v' :: (Utf8.split letters).1, (Utf8.split letters).2) := split_ascii (by decide) letters
  rw [readArgument_short level progress (by decide), hsplit]

namespace Lags

/-- An argument without the switch is read on both sides. -/
theorem followed_readArgument_same (hlags : Lags lagging progress)
    (hdashes : argument ≠ [dash, dash])
    (hletters : ∀ letters, argument ≠ dash :: verboseLetter :: letters)
    (hname : argument ≠ dash :: dash :: verboseName) :
    Followed Stop.IsRefusal (Step progress) (readArgument level progress argument)
      (readArgument level lagging argument) := by
  unfold readArgument
  split
  · exact absurd rfl hdashes
  · rename_i text _
    refine hlags.followed_readLong ?_
    rintro rfl
    exact hname rfl
  · rename_i letter letters _ _
    refine hlags.followed_readShort _ fun hhead => ?_
    rw [eq_verboseLetter_of_split hhead] at hletters
    exact hletters letters rfl
  · cases hpending : progress.pending with
    | awaiting flag =>
        rw [hlags.eq_quiet hpending]
        simp only [Progress.quiet, hpending]
        exact .done ⟨Or.inl rfl, rfl⟩
    | nothing | value | positional =>
        have hawaiting := hlags.isAwaiting
        rw [hpending] at hawaiting
        cases hlagging : lagging.pending with
        | awaiting flag =>
            rw [hlagging] at hawaiting
            cases hawaiting
        | nothing | value | positional => exact hlags.followed_readPositional argument

/-- An argument is read without the switch on the other side, if anything is left of it. -/
theorem followed_readArgument (hlags : Lags lagging progress) (hdashes : argument ≠ [dash, dash]) :
    Followed Stop.IsRefusal (Step progress) (readArgument level progress argument)
      ((hushed argument).elim (.ok lagging) (readArgument level lagging)) := by
  rcases hushed_cases argument with ⟨rfl | rfl, hhushed⟩ | ⟨letter, letters, rfl, hhushed⟩
    | ⟨hletters, hname, hhushed⟩
  · have hnone : Utf8.split [] = ([], []) := by simp [Utf8.split]
    rw [hhushed, readArgument_verboseLetter, hnone]
    exact hlags.followed_readShort_verbose [] []
  · rw [hhushed]
    change Followed _ _ (readLong level progress verboseName) (.ok lagging)
    rw [readLong_verboseName]
    exact hlags.faultOr_switch.beside fun _ hnext => hnext.1
  · rw [hhushed, readArgument_verboseLetter]
    by_cases hletter : letter = dash
    · -- a dash is no option, so the argument is refused
      have hsplit : Utf8.split (letter :: letters) =
          ('-' :: (Utf8.split letters).1, (Utf8.split letters).2) := by
        rw [hletter]
        exact split_ascii (by decide) letters
      rw [hsplit, readShort, shortFlag?_verbose]
      refine hlags.faultOr_switch.followed fun next _ => ?_
      rw [readShort, shortFlag?_dash]
      exact .fault _ trivial
    · rw [Option.elim_some, readArgument_short level lagging hletter]
      exact hlags.followed_readShort_verbose _ _
  · rw [hhushed, Option.elim_some]
    exact hlags.followed_readArgument_same hdashes hletters hname

end Lags

/-- A command, or `help`, is no option. -/
theorem hushed_of_word (hword : (word? argument).isSome = true) :
    argument ≠ [dash, dash] ∧ hushed argument = some argument := by
  have hdash : ∀ rest, argument ≠ dash :: rest := by
    rintro rest rfl
    rw [word?_of_dash] at hword
    cases hword
  refine ⟨hdash _, ?_⟩
  rcases hushed_cases argument with ⟨hswitch, _⟩ | ⟨letter, letters, hletters, _⟩ | ⟨_, _, hhushed⟩
  · exact (hswitch.elim (hdash _) (hdash _)).elim
  · exact (hdash _ hletters).elim
  · exact hhushed

/-- What is left of an option is no command either. -/
theorem word?_of_hushed {other : Argument} (hhushed : hushed argument = some other)
    (hword : word? argument = none) : word? other = none := by
  rcases hushed_cases argument with ⟨_, hnone⟩ | ⟨letter, letters, _, hletters⟩ | ⟨_, _, hsame⟩
  · rw [hnone] at hhushed
    cases hhushed
  · rw [hletters] at hhushed
    cases hhushed
    exact word?_of_dash _
  · rw [hsame] at hhushed
    cases hhushed
    exact hword

theorem quieted_cons (hdashes : argument ≠ [dash, dash]) (rest : List Argument) :
    quieted (argument :: rest) = (hushed argument).toList ++ quieted rest :=
  if_neg hdashes

theorem followed_helpPage (rest : List Argument) :
    Followed Stop.IsRefusal Eq (helpPage rest) (helpPage (quieted rest)) := by
  cases rest with
  | nil => exact .same _
  | cons first more =>
      rw [helpPage]
      cases hword : word? first with
      | none => exact .fault _ trivial
      | some found =>
          cases more with
          | cons second more => exact .fault _ trivial
          | nil =>
              obtain ⟨hdashes, hhushed⟩ := hushed_of_word (Option.isSome_iff_exists.mpr ⟨_, hword⟩)
              rw [quieted_cons hdashes, hhushed]
              simp only [Option.toList_some, quieted, List.append_nil, helpPage, hword]
              exact .same _

/-- Behind the argument of a level that is no command the level goes on. -/
theorem readLevel_cons_of_no_word (htrailing : progress.trailing = false)
    (hword : (decide (level = .top) && !progress.pending.isAwaiting) = true →
      word? argument = none) (rest : List Argument) :
    readLevel level progress (argument :: rest) =
      readArgument level progress argument >>= fun next => readLevel level next rest := by
  rw [readLevel, htrailing]
  simp only [Bool.false_eq_true, if_false]
  by_cases hplace : (decide (level = .top) && !progress.pending.isAwaiting) = true
  · simp only [if_pos hplace, hword hplace]
  · simp only [if_neg hplace]

namespace Lags

/-- What a level is read to, with the switches and without them. -/
def LevelRead (last other : Progress × Option (Verb × List Argument)) : Prop :=
  Lags other.1 last.1 ∧ other.2 = last.2.map fun found => (found.1, quieted found.2)

theorem followed_readLevel_trailing (hlags : Lags lagging progress)
    (htrailing : progress.trailing = true) (arguments : List Argument) :
    Followed Stop.IsRefusal LevelRead (readLevel level progress arguments)
      (readLevel level lagging arguments) := by
  induction arguments generalizing progress lagging with
  | nil => exact .done ⟨hlags, rfl⟩
  | cons argument rest ih =>
      rw [readLevel, readLevel, if_pos htrailing, if_pos (hlags.trailing.trans htrailing)]
      refine (hlags.followed_readPositional argument).bind ?_
      rintro next other ⟨hnext, hsame⟩
      exact ih hnext (hsame.trans htrailing)

/-- At a command, or at `help`, the top level ends in both readings. -/
theorem followed_readLevel_word (hlags : Lags lagging progress)
    (htrailing : progress.trailing = false)
    (hplace : (decide (level = .top) && !progress.pending.isAwaiting) = true) {word : Word}
    (hword : word? argument = some word) (rest : List Argument) :
    Followed Stop.IsRefusal LevelRead (readLevel level progress (argument :: rest))
      (readLevel level lagging (argument :: quieted rest)) := by
  rw [readLevel, readLevel, hlags.trailing, htrailing, hlags.isAwaiting]
  simp only [Bool.false_eq_true, if_false, if_pos hplace, hword]
  cases word with
  | help =>
      refine (followed_helpPage rest).bind ?_
      rintro page _ rfl
      exact .failed _
  | verb verb => exact .done ⟨hlags, rfl⟩

/-- A level is read with the switches and without them. -/
theorem followed_readLevel (hlags : Lags lagging progress) (htrailing : progress.trailing = false)
    (arguments : List Argument) :
    Followed Stop.IsRefusal LevelRead (readLevel level progress arguments)
      (readLevel level lagging (quieted arguments)) := by
  induction arguments generalizing progress lagging with
  | nil => exact .done ⟨hlags, rfl⟩
  | cons argument rest ih =>
      have hother : lagging.trailing = false := hlags.trailing.trans htrailing
      by_cases hdashes : argument = [dash, dash]
      · subst hdashes
        have hword : word? [dash, dash] = none := word?_of_dash [dash]
        rw [quieted, if_pos rfl, readLevel_cons_of_no_word htrailing fun _ => hword,
          readLevel_cons_of_no_word hother fun _ => hword]
        exact hlags.behindDashes.followed_readLevel_trailing rfl rest
      rw [quieted_cons hdashes]
      by_cases hcommand : (decide (level = .top) && !progress.pending.isAwaiting) = true
          ∧ (word? argument).isSome = true
      · obtain ⟨hplace, hsome⟩ := hcommand
        obtain ⟨word, hword⟩ := Option.isSome_iff_exists.mp hsome
        obtain ⟨_, hhushed⟩ := hushed_of_word hsome
        rw [hhushed]
        exact hlags.followed_readLevel_word htrailing hplace hword rest
      · have hword : (decide (level = .top) && !progress.pending.isAwaiting) = true →
            word? argument = none := by
          intro hplace
          cases hword : word? argument with
          | none => rfl
          | some word => exact absurd ⟨hplace, by rw [hword]; rfl⟩ hcommand
        have hread : Followed Stop.IsRefusal (Step progress)
            (readArgument level progress argument) _ := hlags.followed_readArgument hdashes
        rw [readLevel_cons_of_no_word htrailing hword]
        cases hhushed : hushed argument with
        | none =>
            rw [hhushed] at hread
            refine hread.bind_beside ?_
            rintro next ⟨hnext, hsame⟩
            exact ih hnext (hsame.trans htrailing)
        | some left =>
            rw [hhushed] at hread
            rw [Option.toList_some, List.singleton_append, readLevel_cons_of_no_word hother]
            · refine hread.bind ?_
              rintro next other ⟨hnext, hsame⟩
              exact ih hnext (hsame.trans htrailing)
            · rw [hlags.isAwaiting]
              exact fun hplace => word?_of_hushed hhushed (hword hplace)

end Lags

theorem command_quiet (verb : Verb) (given : Given) :
    command verb given.quiet = command verb given := by
  cases verb <;> rfl

/-- A command line is read with the switches and without them. -/
theorem followed_read (chosen : Option Path) (arguments : List Argument) :
    Followed Stop.IsRefusal (fun invocation other => other = { invocation with verbose := false })
      (read chosen arguments) (read chosen (quieted arguments)) := by
  have hstart : ∀ level, Lags (.start level) (.start level) := fun _ => Or.inl rfl
  unfold read
  refine ((hstart .top).followed_readLevel rfl arguments).bind ?_
  rintro ⟨top, found⟩ ⟨other, _⟩ ⟨hlags, rfl⟩
  cases found with
  | none =>
      refine (hlags.faultOr_complete chosen).followed fun given hgiven => ?_
      change Followed _ _ _ (complete other chosen >>= fun given => _)
      rw [hgiven]
      by_cases hnothing : given = .nothing ∧ chosen = none
      · obtain ⟨rfl, rfl⟩ := hnothing
        exact .failed _
      · simp only [if_neg hnothing]
        exact .fault _ trivial
  | some found =>
      obtain ⟨verb, rest⟩ := found
      refine ((hstart (.command verb)).followed_readLevel rfl rest).bind ?_
      rintro ⟨last, after⟩ ⟨otherLast, _⟩ ⟨hlast, rfl⟩
      refine (hlast.faultOr_complete chosen).followed fun inner hinner => ?_
      change Followed _ _ _ (complete otherLast chosen >>= fun inner => _)
      rw [hinner]
      change Followed _ _ _ (command verb inner.quiet >>= fun command => _)
      rw [command_quiet]
      refine (Followed.same (command verb inner)).bind ?_
      rintro command _ rfl
      refine (hlags.faultOr_complete chosen).followed fun outer houter => ?_
      rw [houter]
      exact .done rfl

/-- Command lines that are the same without the switches ask for the same, or end the same way. -/
theorem read_of_quieted_eq {chosen : Option Path} {arguments others : List Argument}
    (hsame : quieted arguments = quieted others)
    (haccepted : ∀ stop, read chosen arguments = .error stop → ¬ stop.IsRefusal)
    (hothers : ∀ stop, read chosen others = .error stop → ¬ stop.IsRefusal) :
    (∃ stop, read chosen arguments = .error stop ∧ read chosen others = .error stop)
      ∨ ∃ invocation verbose, read chosen arguments = .ok invocation
        ∧ read chosen others = .ok { invocation with verbose } := by
  have hfirst := followed_read chosen arguments
  have hsecond := followed_read chosen others
  rw [← hsame] at hsecond
  generalize read chosen (quieted arguments) = quiet at hfirst hsecond
  generalize read chosen arguments = first at hfirst haccepted ⊢
  generalize read chosen others = second at hsecond hothers ⊢
  cases hfirst with
  | @fault stop _ hstop => exact absurd hstop (haccepted stop rfl)
  | failed stop =>
      cases hsecond with
      | fault _ hstop => exact absurd hstop (hothers _ rfl)
      | failed _ => exact Or.inl ⟨stop, rfl, rfl⟩
  | @done invocation _ hquiet =>
      cases hsecond with
      | fault _ hstop => exact absurd hstop (hothers _ rfl)
      | @done other _ hother =>
          refine Or.inr ⟨invocation, other.verbose, rfl, congrArg Except.ok ?_⟩
          rw [hquiet] at hother
          cases invocation
          cases other
          cases hother
          rfl

end PadBridge.CommandLine
