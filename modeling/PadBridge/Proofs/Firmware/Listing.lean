import Mathlib.Data.List.Nodup
import PadBridge.Proofs.Firmware.Reading

/-!
A generated text as a listing of its blocks.  The text is cut into lines, and five lines that have
the shape of a block are one.  Every source has its one block, or is skipped by name, or is
unassigned; the blocks come in vocabulary order around the heading of the C-Stick, and the lines
that are no part of a block are the same for every mapping.
-/

namespace PadBridge

/-- In a list without repetitions every value is responsible for what it gives. -/
theorem filter_filterMap_owner {α β : Type} [DecidableEq α] {give : α → Option β}
    {owns : α → β → Bool}
    (howns : ∀ {value given}, give value = some given → ∀ other, owns other given = true ↔
      other = value)
    {values : List α} (hnodup : values.Nodup) (owner : α) :
    (values.filterMap give).filter (owns owner) =
      if owner ∈ values then (give owner).toList else [] := by
  induction values with
  | nil => rfl
  | cons value rest ih =>
      obtain ⟨hvalue, hrest⟩ := List.nodup_cons.mp hnodup
      have hfilter := ih hrest
      by_cases howner : owner = value
      · subst howner
        rw [if_neg hvalue] at hfilter
        rw [if_pos List.mem_cons_self, List.filterMap_cons]
        cases hgive : give owner with
        | none => exact hfilter
        | some given =>
            rw [List.filter_cons_of_pos ((howns hgive owner).mpr rfl), hfilter]
            rfl
      · have hmem : owner ∈ value :: rest ↔ owner ∈ rest := by simp [howner]
        rw [List.filterMap_cons]
        simp only [hmem]
        cases hgive : give value with
        | none => exact hfilter
        | some given =>
            have hnot : ¬ owns owner given = true := fun h => howner ((howns hgive owner).mp h)
            rw [List.filter_cons_of_neg hnot, hfilter]

namespace GameCubeButton

def digital : List GameCubeButton :=
  all.filter fun button => button.statusBit?.isSome

def stick : List GameCubeButton :=
  all.filter fun button => button.stickDirection?.isSome

theorem digital_append_stick : digital ++ stick = all :=
  rfl

end GameCubeButton

namespace Firmware

/-- A block as it stands in a text: what its comment says, what it tests and what it does. -/
structure Block where
  comment : String
  condition : String
  assignment : String
deriving Repr, DecidableEq

/-- A part of a text: a block, or a line that belongs to no block. -/
inductive Item where
  | block (found : Block)
  | line (text : String)
deriving Repr, DecidableEq

def Item.block? : Item → Option Block
  | .block found => some found
  | .line _ => none

def Item.line? : Item → Option String
  | .block _ => none
  | .line text => some text

def inside? (opening closing line : String) : Option String :=
  ((line.toList.dropPrefix? opening.toList).bind (·.dropSuffix? closing.toList)).map String.ofList

/-- Five lines in the shape of a block. -/
def block? (comment condition assignment brace blank : String) : Option Block := do
  let comment ← inside? "    // Map " "" comment
  let condition ← inside? "    if (" ") \x7b" condition
  let assignment ← inside? "        " ";" assignment
  if brace = "    \x7d" ∧ blank = "" then some ⟨comment, condition, assignment⟩ else none

/-- Lines, with those together that make a block. -/
def itemsOfLines : List String → List Item
  | comment :: condition :: assignment :: brace :: blank :: rest =>
      match block? comment condition assignment brace blank with
      | some found => .block found :: itemsOfLines rest
      | none => .line comment :: itemsOfLines (condition :: assignment :: brace :: blank :: rest)
  | line :: rest => .line line :: itemsOfLines rest
  | [] => []

def items (text : String) : List Item :=
  itemsOfLines ((lines text.toList).map String.ofList)

def blocks (items : List Item) : List Block :=
  items.filterMap Item.block?

def withoutBlocks (text : String) : String :=
  "\n".intercalate ((items text).filterMap Item.line?)

/-- How a text asks whether a source is pressed. -/
def question : GameCubeButton → String
  | .a => "gc_status.data1 & 0x01"
  | .b => "gc_status.data1 & 0x02"
  | .x => "gc_status.data1 & 0x04"
  | .y => "gc_status.data1 & 0x08"
  | .start => "gc_status.data1 & 0x10"
  | .l => "gc_status.data2 & 0x40"
  | .r => "gc_status.data2 & 0x20"
  | .z => "gc_status.data2 & 0x10"
  | .dUp => "gc_status.data2 & 0x08"
  | .dDown => "gc_status.data2 & 0x04"
  | .dLeft => "gc_status.data2 & 0x01"
  | .dRight => "gc_status.data2 & 0x02"
  | .cStickUp => "gc_status.cstick_y > 0xB0"
  | .cStickDown => "gc_status.cstick_y < 0x50"
  | .cStickLeft => "gc_status.cstick_x < 0x50"
  | .cStickRight => "gc_status.cstick_x > 0xB0"

/-- How a text presses a destination. -/
def answer : N64Button → String
  | .a => "n64_buffer[0] |= 0x80"
  | .b => "n64_buffer[0] |= 0x40"
  | .z => "n64_buffer[0] |= 0x20"
  | .start => "n64_buffer[0] |= 0x10"
  | .dUp => "n64_buffer[0] |= 0x08"
  | .dDown => "n64_buffer[0] |= 0x04"
  | .dLeft => "n64_buffer[0] |= 0x02"
  | .dRight => "n64_buffer[0] |= 0x01"
  | .l => "n64_buffer[1] |= 0x20"
  | .r => "n64_buffer[1] |= 0x10"
  | .cUp => "n64_buffer[1] |= 0x08"
  | .cDown => "n64_buffer[1] |= 0x04"
  | .cLeft => "n64_buffer[1] |= 0x02"
  | .cRight => "n64_buffer[1] |= 0x01"

theorem expression_condition (source : GameCubeButton) :
    source.condition.expression = question source := by
  cases source <;> rfl

theorem assignment_bit (destination : N64Button) :
    destination.bit.assignment = answer destination := by
  cases destination <;> rfl

def Block.of (source : GameCubeButton) (destination : N64Button) : Block where
  comment := source.name ++ " to " ++ destination.name
  condition := question source
  assignment := answer destination

/-- Whether the comment of a block names a source. -/
def Block.isFor (source : GameCubeButton) (block : Block) : Bool :=
  (source.name ++ " to ").toList.isPrefixOf block.comment.toList

/-- No block names two sources. -/
theorem Block.isFor_of_iff {source : GameCubeButton} {destination : N64Button}
    (other : GameCubeButton) :
    (Block.of source destination).isFor other = true ↔ other = source := by
  have hall : ∀ source ∈ GameCubeButton.all, ∀ other ∈ GameCubeButton.all,
      (other.name ++ " to ").toList <+: (source.name ++ " to ").toList → other = source := by
    decide
  have hof : (Block.of source destination).comment.toList =
      (source.name ++ " to ").toList ++ destination.name.toList := by
    rw [Block.of, String.toList_append, String.toList_append]
  rw [isFor, List.isPrefixOf_iff_prefix, hof]
  constructor
  · intro hother
    -- Of two names in front of the same text one is in front of the other.
    have hsource := List.prefix_append (source.name ++ " to ").toList destination.name.toList
    rcases List.prefix_or_prefix_of_prefix hother hsource with hfront | hfront
    · exact hall source source.mem_all other other.mem_all hfront
    · exact (hall other other.mem_all source source.mem_all hfront).symm
  · rintro rfl
    exact List.prefix_append _ _

theorem inside?_append (opening closing inner : String) :
    inside? opening closing (opening ++ inner ++ closing) = some inner := by
  have hopening : (opening ++ inner ++ closing).toList.dropPrefix? opening.toList =
      some (inner ++ closing).toList :=
    List.dropPrefix?_eq_some_iff.mpr
      ⟨opening.toList, by simp only [String.toList_append, List.append_assoc], beq_self_eq_true _⟩
  have hclosing : (inner ++ closing).toList.dropSuffix? closing.toList = some inner.toList :=
    List.dropSuffix?_eq_some_iff.mpr
      ⟨closing.toList, String.toList_append, beq_self_eq_true _⟩
  rw [inside?, hopening, Option.bind_some, hclosing, Option.map_some, String.ofList_toList]

/-- The lines of a rule are read as its block. -/
theorem itemsOfLines_blockLines (rule : Rule) (rest : List String) :
    itemsOfLines (Sketch.blockLines rule ++ rest) =
      .block (.of rule.source rule.destination) :: itemsOfLines rest := by
  have hcomment : inside? "    // Map " "" ("    // Map " ++ rule.source.name ++ " to "
      ++ rule.destination.name) = some (rule.source.name ++ " to " ++ rule.destination.name) := by
    have happend := inside?_append "    // Map " ""
      (rule.source.name ++ " to " ++ rule.destination.name)
    rwa [String.append_empty, ← String.append_assoc, ← String.append_assoc] at happend
  have hblock : block? ("    // Map " ++ rule.source.name ++ " to " ++ rule.destination.name)
      ("    if (" ++ rule.source.condition.expression ++ ") \x7b")
      ("        " ++ rule.destination.bit.assignment ++ ";") "    \x7d" "" =
      some (.of rule.source rule.destination) := by
    rw [block?, hcomment, inside?_append, inside?_append, expression_condition, assignment_bit]
    rfl
  rw [Sketch.blockLines]
  simp only [List.cons_append, List.nil_append]
  rw [itemsOfLines, hblock]

theorem itemsOfLines_blocks (rules : List Rule) (rest : List String) :
    itemsOfLines (rules.flatMap Sketch.blockLines ++ rest) =
      (rules.map fun rule => .block (.of rule.source rule.destination)) ++ itemsOfLines rest := by
  induction rules with
  | nil => rfl
  | cons rule more ih =>
      rw [List.flatMap_cons, List.append_assoc, itemsOfLines_blockLines, ih]
      rfl

/-- A line that does not begin like the comment of a block stands for itself. -/
theorem itemsOfLines_cons {line : String} (hline : inside? "    // Map " "" line = none)
    (rest : List String) : itemsOfLines (line :: rest) = .line line :: itemsOfLines rest := by
  rcases rest with _ | ⟨condition, _ | ⟨assignment, _ | ⟨brace, _ | ⟨blank, more⟩⟩⟩⟩
  · rfl
  · rfl
  · rfl
  · rfl
  · have hnone : block? line condition assignment brace blank = none := by
      rw [block?, hline]
      rfl
    rw [itemsOfLines, hnone]

theorem itemsOfLines_append {opening : List String}
    (hopening : ∀ line ∈ opening, inside? "    // Map " "" line = none) (rest : List String) :
    itemsOfLines (opening ++ rest) = opening.map .line ++ itemsOfLines rest := by
  induction opening with
  | nil => rfl
  | cons line more ih =>
      have hmore := ih fun other hother => hopening other (List.mem_cons_of_mem line hother)
      rw [List.cons_append, itemsOfLines_cons (hopening line List.mem_cons_self), hmore]
      rfl

/-- A text that is put together from lines is cut into these, and nothing stands behind the last
line end. -/
theorem lines_ofLines {text : List String} (htext : ∀ line ∈ text, '\n' ∉ line.toList) :
    (lines (Sketch.ofLines text).toList).map String.ofList = text ++ [""] := by
  rw [Sketch.ofLines, String.toList_join]
  induction text with
  | nil => rfl
  | cons line more ih =>
      have hmore := ih fun other hother => htext other (List.mem_cons_of_mem line hother)
      have hnewline : "\n".toList = ['\n'] := rfl
      simp only [List.map_cons, List.flatMap_cons, String.toList_append, List.append_assoc]
      rw [hnewline, List.singleton_append, lines_append_newline (htext line List.mem_cons_self),
        List.map_cons, hmore, String.ofList_toList, List.cons_append]

theorem intercalate_newline (text : List String) :
    "\n".intercalate (text ++ [""]) = Sketch.ofLines text := by
  rw [Sketch.ofLines]
  induction text with
  | nil => rfl
  | cons line more ih =>
      rw [List.cons_append, String.intercalate_cons_of_ne_nil (by simp), ih, List.map_cons,
        String.join_cons]

theorem blocks_append (left right : List Item) :
    blocks (left ++ right) = blocks left ++ blocks right :=
  List.filterMap_append

theorem blocks_map_line (text : List String) : blocks (text.map .line) = [] := by
  rw [blocks, List.filterMap_map]
  exact List.filterMap_eq_nil_iff.mpr fun _ _ => rfl

theorem blocks_map_block (found : List Block) : blocks (found.map .block) = found := by
  rw [blocks, List.filterMap_map]
  exact List.filterMap_some

theorem lines_map_line (text : List String) :
    ((text.map .line).filterMap Item.line?) = text := by
  rw [List.filterMap_map]
  exact List.filterMap_some

theorem lines_map_block (found : List Block) :
    ((found.map .block).filterMap Item.line?) = [] := by
  rw [List.filterMap_map]
  exact List.filterMap_eq_nil_iff.mpr fun _ _ => rfl

theorem blocks_front (found : List Block) :
    blocks (Sketch.opening.map .line ++ found.map .block) = found := by
  rw [blocks_append, blocks_map_line, blocks_map_block, List.nil_append]

theorem blocks_back (found : List Block) :
    blocks (found.map .block ++ [.line "\x7d", .line ""]) = found := by
  rw [blocks_append, blocks_map_block]
  exact List.append_nil found

end Firmware

namespace Mapping

open Firmware

def blockOf? (mapping : Mapping) (source : GameCubeButton) : Option Block :=
  (mapping.get source).button?.map (Block.of source)

/-- How a source that is left out for its unknown destination is listed. -/
def skippedOf? (mapping : Mapping) (source : GameCubeButton) : Option (GameCubeButton × String) :=
  match mapping.get source with
  | .unknown name => some (source, name)
  | _ => none

variable (mapping : Mapping)

theorem blockOf?_eq_some {source : GameCubeButton} {found : Block}
    (hfound : mapping.blockOf? source = some found) :
    ∃ destination, found = .of source destination := by
  obtain ⟨destination, _, rfl⟩ := Option.map_eq_some_iff.mp hfound
  exact ⟨destination, rfl⟩

theorem fst_of_skippedOf? {source : GameCubeButton} {entry : GameCubeButton × String}
    (hentry : mapping.skippedOf? source = some entry) : entry.1 = source := by
  rw [skippedOf?] at hentry
  cases htarget : mapping.get source <;> simp [htarget] at hentry
  rw [← hentry]

theorem skipped_eq_filterMap : mapping.skipped = GameCubeButton.all.filterMap mapping.skippedOf? :=
  List.filterMap_map

/-- The rules for some of the sources are what the targets of these give. -/
theorem map_of_filter_rules {keep keepSource : GameCubeButton → Bool}
    (hkeep : ∀ source, keep source = keepSource source) :
    ((mapping.rules.filter fun rule => keep rule.source).map fun rule =>
        Block.of rule.source rule.destination) =
      (GameCubeButton.all.filter keepSource).filterMap mapping.blockOf? := by
  rw [rules, entries, List.filterMap_map, List.filter_filterMap, List.map_filterMap,
    List.filterMap_filter]
  congr 1
  funext source
  rw [← hkeep, blockOf?, Function.comp_apply]
  cases (mapping.get source).button? with
  | none => simp
  | some destination => cases hsource : keep source <;> simp [hsource]

/-- The parts of a generated text: fixed lines, the blocks of the digital buttons, the heading, the
blocks of the C-Stick, and a closing brace. -/
theorem items_generate :
    items mapping.generate =
      (Sketch.opening.map .line
          ++ (GameCubeButton.digital.filterMap mapping.blockOf?).map .block)
        ++ .line Sketch.stickHeading
        :: ((GameCubeButton.stick.filterMap mapping.blockOf?).map .block
          ++ [.line "\x7d", .line ""]) := by
  have hopening : ∀ line ∈ Sketch.opening, inside? "    // Map " "" line = none := by decide
  have hclosing : itemsOfLines ["\x7d", ""] = [.line "\x7d", .line ""] := rfl
  rw [items, generate, lines_ofLines (newline_notMem_lines mapping.rules), Sketch.lines]
  simp only [List.append_assoc, List.cons_append, List.nil_append]
  rw [itemsOfLines_append hopening, itemsOfLines_blocks, itemsOfLines_cons rfl,
    itemsOfLines_blocks, hclosing]
  rw [GameCubeButton.digital, ← mapping.map_of_filter_rules fun _ => rfl, GameCubeButton.stick,
    ← mapping.map_of_filter_rules fun _ => rfl, List.map_map, List.map_map]
  rfl

/-- The blocks of a text are those of its sources, in the order of the vocabulary. -/
theorem blocks_generate :
    blocks (items mapping.generate) = GameCubeButton.all.filterMap mapping.blockOf? := by
  have hheading : ∀ rest, blocks (.line Sketch.stickHeading :: rest) = blocks rest := fun _ => rfl
  rw [items_generate, blocks_append, blocks_front, hheading, blocks_back,
    ← GameCubeButton.digital_append_stick, List.filterMap_append]

theorem withoutBlocks_generate : withoutBlocks mapping.generate = unassigned.generate := by
  have hheading : ∀ rest, (Item.line Sketch.stickHeading :: rest).filterMap Item.line? =
      Sketch.stickHeading :: rest.filterMap Item.line? := fun _ => rfl
  have hplain : (items mapping.generate).filterMap Item.line? =
      Sketch.lines unassigned.rules ++ [""] := by
    rw [items_generate, List.filterMap_append, List.filterMap_append, lines_map_line,
      lines_map_block, hheading, List.filterMap_append, lines_map_block]
    rfl
  rw [withoutBlocks, hplain, intercalate_newline]
  rfl

/-- What a generated text and the list of skipped sources account for. -/
structure Accounted : Prop where
  /-- The digital buttons and the C-Stick together are every source once. -/
  passes : GameCubeButton.digital.length = 12
    ∧ GameCubeButton.digital ++ GameCubeButton.stick = GameCubeButton.all
  /-- A source has one block, or is skipped by the name of its destination, or is unassigned. -/
  source : ∀ source,
    match mapping.get source with
    | .button destination =>
        (blocks (items mapping.generate)).filter (·.isFor source) = [.of source destination]
          ∧ mapping.skipped.filter (·.1 = source) = []
    | .unknown name =>
        (blocks (items mapping.generate)).filter (·.isFor source) = []
          ∧ mapping.skipped.filter (·.1 = source) = [(source, name)]
    | .unassigned =>
        (blocks (items mapping.generate)).filter (·.isFor source) = []
          ∧ mapping.skipped.filter (·.1 = source) = []
  /-- There is no block that is for none of the sources, or for two. -/
  owner : ∀ found ∈ blocks (items mapping.generate), ∃! source, found.isFor source = true
  /-- There is one heading.  In front of it stand the blocks of the digital buttons and behind it
  those of the C-Stick, in the order of the vocabulary. -/
  halves : ∃ front back,
    items mapping.generate = front ++ .line "    // C-Stick mappings" :: back
      ∧ .line "    // C-Stick mappings" ∉ front ∧ .line "    // C-Stick mappings" ∉ back
      ∧ blocks front = GameCubeButton.digital.filterMap mapping.blockOf?
      ∧ blocks back = GameCubeButton.stick.filterMap mapping.blockOf?
  order : blocks (items mapping.generate) = GameCubeButton.all.filterMap mapping.blockOf?
  skipped : (mapping.skipped.map Prod.fst).Sublist GameCubeButton.all
  /-- Without its blocks the text is the one of the mapping that assigns nothing. -/
  rest : withoutBlocks mapping.generate = unassigned.generate

theorem filter_blocks_generate (source : GameCubeButton) :
    (blocks (items mapping.generate)).filter (·.isFor source) =
      (mapping.blockOf? source).toList := by
  have howns : ∀ {value found}, mapping.blockOf? value = some found →
      ∀ other, found.isFor other = true ↔ other = value := by
    intro value found hfound other
    obtain ⟨destination, rfl⟩ := mapping.blockOf?_eq_some hfound
    exact Block.isFor_of_iff other
  rw [blocks_generate, filter_filterMap_owner howns GameCubeButton.all_nodup,
    if_pos source.mem_all]

theorem filter_skipped (source : GameCubeButton) :
    mapping.skipped.filter (·.1 = source) = (mapping.skippedOf? source).toList := by
  have howns : ∀ {value entry}, mapping.skippedOf? value = some entry →
      ∀ other, decide (entry.1 = other) = true ↔ other = value := by
    intro value entry hentry other
    rw [mapping.fst_of_skippedOf? hentry, decide_eq_true_eq, eq_comm]
  rw [skipped_eq_filterMap, filter_filterMap_owner howns GameCubeButton.all_nodup,
    if_pos source.mem_all]

theorem sublist_map_skipped : (mapping.skipped.map Prod.fst).Sublist GameCubeButton.all := by
  have hfst : (fun source => (mapping.skippedOf? source).map Prod.fst) =
      Option.guard fun source => (mapping.skippedOf? source).isSome := by
    funext source
    cases hentry : mapping.skippedOf? source with
    | none => simp [Option.guard, hentry]
    | some entry => simp [Option.guard, hentry, mapping.fst_of_skippedOf? hentry]
  rw [skipped_eq_filterMap, List.map_filterMap, hfst, List.filterMap_eq_filter]
  exact List.filter_sublist

/-- A generated text and the list of skipped sources account for every source exactly once. -/
theorem accounted_generate : mapping.Accounted where
  passes := ⟨rfl, GameCubeButton.digital_append_stick⟩
  source source := by
    rw [filter_blocks_generate, filter_skipped, blockOf?, skippedOf?]
    cases mapping.get source with
    | unassigned => exact ⟨rfl, rfl⟩
    | button destination => exact ⟨rfl, rfl⟩
    | unknown name => exact ⟨rfl, rfl⟩
  owner := by
    intro found hfound
    rw [blocks_generate] at hfound
    obtain ⟨source, _, hsource⟩ := List.mem_filterMap.mp hfound
    obtain ⟨destination, rfl⟩ := mapping.blockOf?_eq_some hsource
    exact ⟨source, (Block.isFor_of_iff source).mpr rfl,
      fun other hother => (Block.isFor_of_iff other).mp hother⟩
  halves := by
    have hblock : ∀ found : List Block,
        Item.line Sketch.stickHeading ∉ found.map Item.block := by
      intro found hmem
      obtain ⟨_, _, hline⟩ := List.mem_map.mp hmem
      cases hline
    refine ⟨_, _, mapping.items_generate, ?_, ?_, blocks_front _, blocks_back _⟩
    · rw [List.mem_append, not_or]
      exact ⟨by decide, hblock _⟩
    · rw [List.mem_append, not_or]
      exact ⟨hblock _, by decide⟩
  order := mapping.blocks_generate
  skipped := mapping.sublist_map_skipped
  rest := mapping.withoutBlocks_generate

/-- A digital button, a direction of the C-Stick, a destination that is no button and, with all the
others, a source without one. -/
theorem accounted_generate_mixed :
    let mapping := ((unassigned.set .x (.button .cLeft)).set .cStickUp (.button .a)).set .z
      (.unknown "None")
    blocks (items mapping.generate) =
        [⟨"X to CLeft", "gc_status.data1 & 0x04", "n64_buffer[1] |= 0x02"⟩,
          ⟨"CStick Up to A", "gc_status.cstick_y > 0xB0", "n64_buffer[0] |= 0x80"⟩]
      ∧ mapping.skipped = [(.z, "None")]
      ∧ mapping.get .b = .unassigned
      ∧ (blocks (items mapping.generate)).filter (·.isFor .b) = [] := by
  intro mapping
  have haccounted : mapping.Accounted := accounted_generate mapping
  exact ⟨haccounted.order.trans rfl, rfl, rfl, (haccounted.source .b).1⟩

end Mapping
end PadBridge
