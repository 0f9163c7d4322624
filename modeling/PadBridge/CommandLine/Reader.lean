import PadBridge.CommandLine.Help
import PadBridge.CommandLine.Usage

/-!
Reading the command line.  It is read in two levels, before the command and behind it, argument by
argument.  What an argument gives is held back until the next one shows that it is complete; only
then is it checked.  So of several faults it is not always the first that is reported.
-/

namespace PadBridge.CommandLine

/-- An argument as it was given. -/
abbrev Argument := List UInt8

/-- Why reading ends without an invocation. -/
inductive Stop where
  | help (page : Page)
  | version
  /-- There is no command, nor anything else. -/
  | nothing
  | refused (error : UsageError)
deriving Repr, DecidableEq

/-- What was given on one level. -/
structure Given where
  mapping : Option Path
  verbose : Bool
  out : Option Path
  mappingFile : Option Path
  showInstructions : Option Bool
  source : Option GameCubeButton
  destination : Option String
deriving Repr, DecidableEq

def Given.nothing : Given where
  mapping := none
  verbose := false
  out := none
  mappingFile := none
  showInstructions := none
  source := none
  destination := none

/-- What is held back. -/
inductive Pending where
  | nothing
  /-- An option whose value has not come yet. -/
  | awaiting (flag : Flag)
  | value (flag : Flag) (value : Argument)
  | positional (positional : Positional) (value : Argument)
deriving Repr, DecidableEq

/-- How far a level has been read. -/
structure Progress where
  given : Given
  pending : Pending
  /-- The arguments without names that may still come. -/
  expected : List Positional
  /-- Whether two dashes came, behind which there are no options. -/
  trailing : Bool
deriving Repr, DecidableEq

def Progress.start (level : Level) : Progress where
  given := .nothing
  pending := .nothing
  expected := level.positionals
  trailing := false

def refuse {α : Type} (error : UsageError) : Except Stop α :=
  .error (.refused error)

namespace Given

/-- Whether an option was given. -/
def has (given : Given) : Flag → Bool
  | .mapping => given.mapping.isSome
  | .verbose => given.verbose
  | .out => given.out.isSome
  | .mappingFile => given.mappingFile.isSome
  | .showInstructions => given.showInstructions.isSome
  | .help | .version => false

/-- A path, which must not be empty. -/
def readPath (flag : Flag) (value : Argument) : Except Stop Path :=
  if value = [] then refuse (.valueMissing flag) else .ok ⟨value⟩

def readChoice (flag : Flag) (value : Argument) : Except Stop Bool :=
  if value = [] then refuse (.valueMissing flag)
  else if value = Utf8.bytesOf "true" then .ok true
  else if value = Utf8.bytesOf "false" then .ok false
  else refuse (.invalidValue flag (Utf8.shown value))

/-- Take the value of an option.  An option can be given once. -/
def setValue (given : Given) (flag : Flag) (value : Argument) : Except Stop Given := do
  if given.has flag then refuse (.repeated flag)
  match flag with
  | .mapping => return { given with mapping := some (← readPath flag value) }
  | .out => return { given with out := some (← readPath flag value) }
  | .mappingFile => return { given with mappingFile := some (← readPath flag value) }
  | .showInstructions =>
      return { given with showInstructions := some (← readChoice flag value) }
  | .verbose | .help | .version => return given

/-- Take an argument without a name. -/
def setPositional (given : Given) (positional : Positional) (value : Argument) :
    Except Stop Given :=
  match Utf8.decodeString? value with
  | none => refuse .notText
  | some text =>
      match positional with
      | .source =>
          match GameCubeButton.ofName text with
          | .ok button => .ok { given with source := some button }
          | .error unknown => refuse (.invalidSource text unknown)
      | .destination => .ok { given with destination := some text }

end Given

namespace Progress

/-- Take what is held back. -/
def settle (progress : Progress) : Except Stop Progress := do
  let given ← match progress.pending with
    | .nothing => pure progress.given
    | .awaiting flag => refuse (.valueMissing flag)
    | .value flag value => progress.given.setValue flag value
    | .positional positional value => progress.given.setPositional positional value
  return { progress with given, pending := .nothing }

/-- Hold something back, once what was held back before is taken. -/
def hold (progress : Progress) (pending : Pending) : Except Stop Progress := do
  return { ← progress.settle with pending }

/-- Take an option with the value that is attached to it. -/
def attach (progress : Progress) (flag : Flag) (value : Argument) : Except Stop Progress := do
  let progress ← progress.settle
  return { progress with given := ← progress.given.setValue flag value }

/-- The page that explains a level. -/
def page : Level → Page
  | .top => .top
  | .command verb => .command verb

/-- An option without value. -/
def switch (level : Level) (progress : Progress) (flag : Flag) : Except Stop Progress := do
  let progress ← progress.settle
  match flag with
  | .help => throw (.help (page level))
  | .version => throw .version
  | _ =>
      if progress.given.verbose then refuse (.repeated flag)
      return { progress with given := { progress.given with verbose := true } }

end Progress

def dash : UInt8 := 0x2D

def equalsSign : UInt8 := 0x3D

/-- Split an argument at its first equals sign. -/
def splitValue (text : Argument) : Argument × Option Argument :=
  match text.dropWhile (· ≠ equalsSign) with
  | [] => (text, none)
  | _ :: value => (text.takeWhile (· ≠ equalsSign), some value)

/-- An option behind two dashes. -/
def readLong (level : Level) (progress : Progress) (text : Argument) : Except Stop Progress :=
  let (name, value?) := splitValue text
  match (Utf8.decode? name).bind level.longFlag? with
  | none => refuse (.unexpected ("--" ++ Utf8.shown name))
  | some flag =>
      if flag.takesValue then
        match value? with
        | some value => progress.attach flag value
        | none => progress.hold (.awaiting flag)
      else
        match value? with
        | some value => refuse (.valueUnwanted flag (Utf8.shown value))
        | none => progress.switch level flag

/-- Letters behind one dash, with the bytes behind them that are not UTF-8.  A letter that takes a
value takes the rest, or if there is none the next argument. -/
def readShort (level : Level) (progress : Progress) (broken : Argument) :
    List Char → Except Stop Progress
  | [] => if broken = [] then .ok progress else refuse (.unexpected ("-" ++ Utf8.shown broken))
  | letter :: rest =>
      match level.shortFlag? letter with
      | none => refuse (.unexpected ("-" ++ letter.toString))
      | some flag =>
          if flag.takesValue then
            match Utf8.encode rest ++ broken with
            | [] => progress.hold (.awaiting flag)
            | byte :: value =>
                progress.attach flag (if byte = equalsSign then value else byte :: value)
          else do readShort level (← progress.switch level flag) broken rest

/-- What an argument is on the top level: a command, or a wish for help. -/
inductive Word where
  | verb (verb : Verb)
  | help

def word? (argument : Argument) : Option Word :=
  match Utf8.decodeString? argument with
  | none => none
  | some text =>
      if text = "help" then some .help
      else (Verb.all.find? fun verb => verb.name = text).map .verb

/-- The fault of an argument that nothing expects. -/
def surplus (level : Level) (trailing : Bool) (argument : Argument) : UsageError :=
  let shown := Utf8.shown argument
  match level with
  | .top =>
      if trailing && (word? argument).isSome then .unexpected shown else .unknownCommand shown
  | .command _ => .unexpected shown

/-- Take an argument that is no option. -/
def readPositional (level : Level) (progress : Progress) (argument : Argument) :
    Except Stop Progress :=
  match progress.expected with
  | [] => refuse (surplus level progress.trailing argument)
  | positional :: expected => do
      return { ← progress.hold (.positional positional argument) with expected }

/-- Take an argument in front of which no two dashes came. -/
def readArgument (level : Level) (progress : Progress) (argument : Argument) :
    Except Stop Progress :=
  match argument with
  | [0x2D, 0x2D] => .ok { progress with trailing := true }
  | 0x2D :: 0x2D :: text => readLong level progress text
  | 0x2D :: letter :: letters =>
      let (text, broken) := Utf8.split (letter :: letters)
      readShort level progress broken text
  | _ =>
      match progress.pending with
      | .awaiting flag => .ok { progress with pending := .value flag argument }
      | _ => readPositional level progress argument

def Pending.isAwaiting : Pending → Bool
  | .awaiting _ => true
  | _ => false

/-- The page that `help` with some words asks for. -/
def helpPage : List Argument → Except Stop Page
  | [] => .ok .top
  | first :: rest =>
      match word? first with
      | none => refuse (.unknownCommand (Utf8.shown first))
      | some found =>
          match rest with
          | second :: _ => refuse (.unknownCommand (Utf8.shown second))
          | [] =>
              match found with
              | .verb verb => .ok (.command verb)
              | .help => .ok .help

/-- Read one level: to the end, or on the top level to the command and what follows it. -/
def readLevel (level : Level) (progress : Progress) :
    List Argument → Except Stop (Progress × Option (Verb × List Argument))
  | [] => .ok (progress, none)
  | argument :: rest =>
      if progress.trailing then do
        readLevel level (← readPositional level progress argument) rest
      else
        let word := if level = .top && !progress.pending.isAwaiting then word? argument else none
        match word with
        | some .help => do throw (.help (← helpPage rest))
        | some (.verb verb) => .ok (progress, some (verb, rest))
        | none => do readLevel level (← readArgument level progress argument) rest

/-- Complete a level: take what is held back, and unless the level names a mapping document the one
chosen for all runs, which must not be empty either. -/
def complete (progress : Progress) (mapping : Option Path) : Except Stop Given := do
  let progress ← progress.settle
  if progress.given.mapping.isNone then
    if let some path := mapping then
      let _ ← Given.readPath .mapping path.bytes
  return progress.given

/-- The command that was given. -/
def command (verb : Verb) (given : Given) : Except Stop Command :=
  match verb with
  | .generate => .ok (.generate given.out)
  | .set =>
      match given.source, given.destination with
      | some source, some destination => .ok (.set source destination)
      | source, destination =>
          refuse (.argumentsMissing
            ((if source.isNone then [.source] else [])
              ++ if destination.isNone then [.destination] else []))
  | .show => .ok .show
  | .reset => .ok .reset
  | .clear => .ok .clear
  | .buttons => .ok .buttons
  | .config => .ok (.config given.mappingFile given.showInstructions)

/-- Read the arguments of a run; `mapping` is the mapping document chosen for all runs.  A document
named behind the command counts before one named in front of it. -/
def read (mapping : Option Path) (arguments : List Argument) : Except Stop Invocation := do
  match ← readLevel .top (.start .top) arguments with
  | (top, none) =>
      let given ← complete top mapping
      if given = .nothing ∧ mapping = none then throw .nothing
      refuse .commandMissing
  | (top, some (verb, rest)) =>
      let (inner, _) ← readLevel (.command verb) (.start (.command verb)) rest
      let inner ← complete inner mapping
      let command ← command verb inner
      let outer ← complete top mapping
      return {
        mapping := (inner.mapping.or outer.mapping).or mapping
        verbose := inner.verbose || outer.verbose
        command }

end PadBridge.CommandLine
