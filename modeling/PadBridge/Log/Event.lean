import PadBridge.Log.Filter
import PadBridge.Run.Failure

/-!
What happens in a run and is logged, and the records that tell about it.
-/

namespace PadBridge.Log

/-- What is logged. -/
inductive Event where
  | settingsIgnored (cause : Settings.LoadError)
  | mappingMissing (path : Path)
  | mappingSaved (path : Path)
  | mappingDiscarded (cause : Failure)
  | targetUnknown (source : GameCubeButton) (name : String)
  | assigned (source : GameCubeButton) (target : Target)
  | keyKept (key : String)
  | documentLoaded
  | buttonSkipped (source : GameCubeButton) (name : String)

namespace Event

def level : Event → Level
  | .settingsIgnored _ | .mappingDiscarded _ | .targetUnknown _ _ => .warn
  | _ => .debug

/-- The part of the program that an event belongs to. -/
def target : Event → String
  | .assigned _ _ => "gc2n64_remapper::mapping"
  | .keyKept _ => "gc2n64_remapper::document"
  | .documentLoaded => "gc2n64_remapper::session"
  | .buttonSkipped _ _ => "gc2n64_remapper::codegen"
  | _ => "gc2n64_remapper::cli_app"

def message : Event → String
  | .settingsIgnored cause => "Failed to load config, using defaults: " ++ cause.message
  | .mappingMissing path => "No mapping at " ++ path.shown ++ ", using factory mapping"
  | .mappingSaved path => "Saved mapping to " ++ path.shown
  | .mappingDiscarded cause => "Discarding unreadable mapping: " ++ cause.oneLine
  | .targetUnknown source name =>
      "`" ++ name ++ "` is not an N64 button, " ++ source.name
        ++ " will be skipped when generating code"
  | .assigned source target => "Mapping " ++ source.name ++ " to " ++ target.name
  | .keyKept key => "Keeping unrecognized mapping key `" ++ key ++ "`"
  | .documentLoaded => "Loaded mapping document"
  | .buttonSkipped source name =>
      "Skipping " ++ source.name ++ ": `" ++ name ++ "` is not an N64 button"

end Event

/-- How a character stands in a record.  Controls that could steer a terminal are written out. -/
def recordChar (c : Char) : List Char :=
  if c = '\x1B' then ['\\', 'x', '1', 'b']
  else if c = '\x07' then ['\\', 'x', '0', '7']
  else if c = '\x08' then ['\\', 'x', '0', '8']
  else if c = '\x0C' then ['\\', 'x', '0', 'c']
  else if c = '\x7F' then ['\\', 'x', '7', 'f']
  else if 0x80 ≤ c.toNat ∧ c.toNat ≤ 0x9F then
    ['\\', 'u', '\x7b'] ++ Nat.toDigits 16 c.toNat ++ ['\x7d']
  else [c]

/-- The record of an event, without the time. -/
def Event.record (event : Event) : String :=
  Text.pad .right 5 event.level.name ++ " " ++ event.target ++ ": "
    ++ String.ofList (event.message.toList.flatMap recordChar) ++ "\n"

def Event.isShown (filter : Filter) (event : Event) : Bool :=
  filter.shows event.target event.level

end PadBridge.Log
