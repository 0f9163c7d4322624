import PadBridge.Proofs.Firmware.Program
import PadBridge.Sketch

/-!
Reading generated text as firmware.  Line by line the text of a function has exactly the tokens one
would write down for its rules, whatever the names in its comments are, and from the tokens come
three instructions for every block.
-/

namespace PadBridge.Firmware

/-- Word characters are gathered one after the other. -/
theorem scan_word {pending word rest : List Char} (hword : ∀ c ∈ word, isWordChar c = true) :
    scan pending (word ++ rest) = scan (pending ++ word) rest := by
  induction word generalizing pending with
  | nil => simp
  | cons c more ih =>
      have hc : isWordChar c = true := hword c List.mem_cons_self
      have hslash : c ≠ '/' := by
        rintro rfl
        exact absurd hc (by decide)
      have hbar : c ≠ '|' := by
        rintro rfl
        exact absurd hc (by decide)
      have hstep : scan pending (c :: (more ++ rest)) = scan (pending ++ [c]) (more ++ rest) := by
        rw [scan, if_pos hc]
        · simp [hslash]
        · simp [hbar]
      rw [List.cons_append, hstep, ih fun d hd => hword d (List.mem_cons_of_mem c hd),
        List.append_assoc, List.singleton_append]

theorem lines_append_newline {line rest : List Char} (hline : '\n' ∉ line) :
    lines (line ++ '\n' :: rest) = line :: lines rest := by
  induction line with
  | nil => simp [lines]
  | cons c more ih =>
      have hc : c ≠ '\n' := by
        rintro rfl
        exact hline List.mem_cons_self
      rw [List.cons_append, lines, if_neg hc, ih fun h => hline (List.mem_cons_of_mem c h)]

/-- The tokens of a text that is put together from lines are those of its lines. -/
theorem tokens_ofLines (text : List String) (htext : ∀ line ∈ text, '\n' ∉ line.toList) :
    tokens (Sketch.ofLines text).toList = text.flatMap fun line => scan [] line.toList := by
  rw [Sketch.ofLines, String.toList_join]
  induction text with
  | nil => rfl
  | cons line more ih =>
      have hmore := ih fun other hother => htext other (List.mem_cons_of_mem line hother)
      rw [tokens] at hmore ⊢
      simp only [List.map_cons, List.flatMap_cons, String.toList_append, List.append_assoc]
      rw [show "\n".toList = ['\n'] from rfl, List.singleton_append,
        lines_append_newline (htext line List.mem_cons_self), List.flatMap_cons, hmore]

/-- The digits of bytes can stand in a word, and they read back. -/
theorem hexDigit?_written : ∀ value < 16,
    let digit := Char.ofNat (if value < 10 then 48 + value else 55 + value)
    isWordChar digit = true ∧ Text.hexDigit? digit = some value := by
  decide

theorem toList_hexLiteral (byte : UInt8) :
    ∃ high low : Char, (hexLiteral byte).toList = ['0', 'x', high, low]
      ∧ isWordChar high = true ∧ isWordChar low = true
      ∧ Text.hexDigit? high = some (byte.toNat / 16)
      ∧ Text.hexDigit? low = some (byte.toNat % 16) := by
  have hbyte : byte.toNat < 256 := byte.toNat_lt
  obtain ⟨hhigh, hhighValue⟩ := hexDigit?_written (byte.toNat / 16) (by omega)
  obtain ⟨hlow, hlowValue⟩ := hexDigit?_written (byte.toNat % 16) (by omega)
  exact ⟨_, _, by simp [hexLiteral, hexDigits], hhigh, hlow, hhighValue, hlowValue⟩

theorem isWordChar_hexLiteral (byte : UInt8) :
    ∀ c ∈ (hexLiteral byte).toList, isWordChar c = true := by
  obtain ⟨high, low, htext, hhigh, hlow, _, _⟩ := toList_hexLiteral byte
  intro c hc
  rw [htext] at hc
  simp only [List.mem_cons, List.not_mem_nil, or_false] at hc
  rcases hc with rfl | rfl | rfl | rfl
  · decide
  · decide
  · exact hhigh
  · exact hlow

theorem hexLiteral_ne_empty (byte : UInt8) : hexLiteral byte ≠ "" := by
  obtain ⟨high, low, htext, _⟩ := toList_hexLiteral byte
  intro hempty
  rw [hempty] at htext
  cases htext

/-- A byte is read as the number it was written for. -/
theorem numeral?_hexLiteral (byte : UInt8) : numeral? (hexLiteral byte) = some byte.toNat := by
  obtain ⟨high, low, htext, _, _, hhigh, hlow⟩ := toList_hexLiteral byte
  have hbyte : byte.toNat < 256 := byte.toNat_lt
  have hhighDigit : byte.toNat / 16 < 16 := by omega
  have hlowDigit : byte.toNat % 16 < 16 := by omega
  have hvalue : (0 * 16 + byte.toNat / 16) * 16 + byte.toNat % 16 = byte.toNat := by omega
  simp only [numeral?, htext, digitsValue?, List.foldlM, hhigh, hlow, if_pos hhighDigit,
    if_pos hlowDigit]
  exact congrArg some hvalue

theorem flush_toList {word : String} (hword : word ≠ "") : flush word.toList = [.word word] := by
  cases hlist : word.toList with
  | nil => exact absurd (String.toList_eq_nil_iff.mp hlist) hword
  | cons c rest => rw [flush, ← hlist, String.ofList_toList]; simp

/-- A byte at the end of what is gathered is a token of its own if what follows ends the word. -/
theorem scan_hexLiteral (byte : UInt8) {rest : List Char} {more : List Token}
    (hrest : ∀ pending, scan pending rest = flush pending ++ more) :
    scan [] ((hexLiteral byte).toList ++ rest) = .word (hexLiteral byte) :: more := by
  rw [scan_word (isWordChar_hexLiteral byte), List.nil_append, hrest,
    flush_toList (hexLiteral_ne_empty byte), List.singleton_append]

def testOf : Condition → Test
  | .bit tested => ⟨"gc_status", tested.register.field, '&', tested.mask.toNat⟩
  | .stick ⟨axis, .above, threshold⟩ => ⟨"gc_status", axis.field, '>', threshold.toNat⟩
  | .stick ⟨axis, .below, threshold⟩ => ⟨"gc_status", axis.field, '<', threshold.toNat⟩

/-- What a condition is written against. -/
def operandOf : Condition → UInt8
  | .bit tested => tested.mask
  | .stick test => test.threshold

theorem scan_condition (condition : Condition) :
    scan [] ("    if (" ++ condition.expression ++ ") \x7b").toList =
      [.word "if", .symbol '(', .word (testOf condition).record, .symbol '.',
        .word (testOf condition).field, .symbol (testOf condition).operator,
        .word (hexLiteral (operandOf condition)), .symbol ')', .symbol '\x7b'] := by
  have hoperand : scan [] ((hexLiteral (operandOf condition)).toList ++ ") \x7b".toList) =
      [.word (hexLiteral (operandOf condition)), .symbol ')', .symbol '\x7b'] :=
    scan_hexLiteral _ fun _ => rfl
  rcases condition with ⟨register, mask⟩ | ⟨axis, comparison, threshold⟩
  · simp only [Condition.expression, String.toList_append, List.append_assoc, operandOf] at *
    rw [← hoperand]
    generalize (hexLiteral mask).toList ++ ") \x7b".toList = rest
    cases register <;> rfl
  · simp only [Condition.expression, String.toList_append, List.append_assoc, operandOf] at *
    rw [← hoperand]
    generalize (hexLiteral threshold).toList ++ ") \x7b".toList = rest
    cases axis <;> cases comparison <;> rfl

theorem scan_assignment (bit : BufferBit) :
    scan [] ("        " ++ bit.assignment ++ ";").toList =
      [.word "n64_buffer", .symbol '[', .word (toString bit.index.val), .symbol ']', .orAssign,
        .word (hexLiteral bit.mask), .symbol ';'] := by
  rcases bit with ⟨index, mask⟩
  have hmask : scan [] ((hexLiteral mask).toList ++ ";".toList) =
      [.word (hexLiteral mask), .symbol ';'] :=
    scan_hexLiteral mask fun _ => rfl
  simp only [BufferBit.assignment, String.toList_append, List.append_assoc]
  rw [← hmask]
  generalize (hexLiteral mask).toList ++ ";".toList = rest
  match index with
  | 0 => rfl
  | 1 => rfl

theorem newline_notMem_hexLiteral (byte : UInt8) : '\n' ∉ (hexLiteral byte).toList :=
  fun h => absurd (isWordChar_hexLiteral byte '\n' h) (by decide)

theorem newline_notMem_condition (condition : Condition) :
    '\n' ∉ condition.expression.toList := by
  rcases condition with ⟨register, mask⟩ | ⟨axis, comparison, threshold⟩
  · have hmask := newline_notMem_hexLiteral mask
    cases register <;>
      simp [Condition.expression, statusVariable, Register.field, String.toList_append, hmask]
  · have hthreshold := newline_notMem_hexLiteral threshold
    cases axis <;> cases comparison <;>
      simp [Condition.expression, statusVariable, StickAxis.field, Comparison.symbol,
        String.toList_append, hthreshold]

theorem newline_notMem_assignment (bit : BufferBit) : '\n' ∉ bit.assignment.toList := by
  have hindex : ∀ index : Fin 2, '\n' ∉ (toString index.val).toList := by decide
  have hmask := newline_notMem_hexLiteral bit.mask
  simp only [BufferBit.assignment, bufferVariable, String.toList_append, List.mem_append,
    hindex bit.index, hmask, or_false]
  decide

theorem newline_notMem_blockLines (rule : Rule) :
    ∀ line ∈ Sketch.blockLines rule, '\n' ∉ line.toList := by
  have hsource : '\n' ∉ rule.source.name.toList := by cases rule.source <;> decide
  have hdestination : '\n' ∉ rule.destination.name.toList := by
    cases rule.destination <;> decide
  have hcondition := newline_notMem_condition rule.source.condition
  have hassignment := newline_notMem_assignment rule.destination.bit
  simp [Sketch.blockLines, String.toList_append, hsource, hdestination, hcondition, hassignment]

theorem newline_notMem_lines (rules : List Rule) :
    ∀ line ∈ Sketch.lines rules, '\n' ∉ line.toList := by
  intro line hline
  have hblocks : ∀ kept : List Rule, line ∈ kept.flatMap Sketch.blockLines →
      '\n' ∉ line.toList := by
    intro kept hmem
    obtain ⟨rule, _, hrule⟩ := List.mem_flatMap.mp hmem
    exact newline_notMem_blockLines rule line hrule
  simp only [Sketch.lines, List.mem_append, List.mem_singleton] at hline
  rcases hline with (((hopening | hdigital) | rfl) | hstick) | rfl
  · simp only [Sketch.opening, List.mem_cons, List.not_mem_nil, or_false] at hopening
    rcases hopening with rfl | rfl | rfl | rfl | rfl <;> decide
  · exact hblocks _ hdigital
  · decide
  · exact hblocks _ hstick
  · decide

def block (rule : Rule) : List Instruction :=
  [.enter (testOf rule.source.condition),
    .raise "n64_buffer" rule.destination.bit.index rule.destination.bit.mask.toNat, .leave]

/-- The lines of a block read as its three instructions, whatever follows. -/
theorem instructions_blockLines (rule : Rule) (rest : List Token) :
    instructions ((Sketch.blockLines rule).flatMap (fun line => scan [] line.toList) ++ rest) =
      (instructions rest).map (block rule ++ ·) := by
  have hcomment : scan [] ("    // Map " ++ rule.source.name ++ " to "
      ++ rule.destination.name).toList = [] := by
    simp only [String.toList_append, List.append_assoc]
    rfl
  have hindex : ∀ index : Fin 2, numeral? (toString index.val) = some index.val := by decide
  have hoperand : numeral? (hexLiteral (operandOf rule.source.condition)) =
      some (testOf rule.source.condition).operand := by
    rw [numeral?_hexLiteral]
    rcases rule.source.condition with _ | ⟨_, _ | _, _⟩ <;> rfl
  simp only [Sketch.blockLines, List.flatMap_cons, List.flatMap_nil, hcomment, scan_condition,
    scan_assignment]
  have hclose : scan [] "    \x7d".toList ++ (scan [] "".toList ++ []) = [.symbol '\x7d'] := rfl
  simp only [hclose, List.nil_append, List.cons_append]
  rw [instructions, instructions, instructions, hoperand, hindex, numeral?_hexLiteral]
  cases instructions rest <;> rfl

theorem instructions_blocks (rules : List Rule) (rest : List Token) :
    instructions ((rules.flatMap Sketch.blockLines).flatMap (fun line => scan [] line.toList)
        ++ rest) =
      (instructions rest).map (rules.flatMap block ++ ·) := by
  induction rules with
  | nil => simp
  | cons rule more ih =>
      rw [List.flatMap_cons, List.flatMap_append, List.append_assoc, instructions_blockLines, ih,
        Option.map_map, List.flatMap_cons]
      simp only [Function.comp_def, List.append_assoc]

/-- The rules of digital buttons before those of the C-Stick, each kind in its order. -/
def inPasses (rules : List Rule) : List Rule :=
  rules.filter (·.source.statusBit?.isSome) ++ rules.filter (·.source.stickDirection?.isSome)

theorem mem_inPasses {rules : List Rule} {rule : Rule} : rule ∈ inPasses rules ↔ rule ∈ rules := by
  have hpass : rule.source.statusBit?.isSome ∨ rule.source.stickDirection?.isSome := by
    rw [← rule.source.statusBit?_isNone_iff]
    cases rule.source.statusBit? <;> simp
  simp only [inPasses, List.mem_append, List.mem_filter, ← and_or_left, and_iff_left hpass]

/-- The instructions of a whole function: clear the buffer, then one block for every rule. -/
def functionOf (rules : List Rule) : List Instruction :=
  .fill "n64_buffer" 0 "n64_buffer" :: (inPasses rules).flatMap block ++ [.leave]

/-- A generated text is a function and reads as its instructions. -/
theorem tokens_generate (mapping : Mapping) :
    ∃ body, tokens mapping.generate.toList =
        .word "void" :: .word "mapGamecubeToN64" :: .symbol '(' :: .symbol ')' :: .symbol '\x7b'
          :: body
      ∧ instructions body = some (functionOf mapping.rules) := by
  let scanned (text : List String) : List Token := text.flatMap fun line => scan [] line.toList
  let digital := mapping.rules.filter (·.source.statusBit?.isSome)
  let stick := mapping.rules.filter (·.source.stickDirection?.isSome)
  let blocks := scanned (digital.flatMap Sketch.blockLines)
    ++ (scanned (stick.flatMap Sketch.blockLines) ++ [.symbol '\x7d'])
  have hblocks : instructions blocks =
      some ((inPasses mapping.rules).flatMap block ++ [.leave]) := by
    rw [instructions_blocks, instructions_blocks, inPasses, List.flatMap_append]
    simp [instructions, digital, stick]
  refine ⟨.word "memset" :: .symbol '(' :: .word "n64_buffer" :: .symbol ',' :: .word "0"
    :: .symbol ',' :: .word "sizeof" :: .symbol '(' :: .word "n64_buffer" :: .symbol ')'
    :: .symbol ')' :: .symbol ';' :: blocks, ?_, ?_⟩
  · have hopening : scanned Sketch.opening = [.word "void", .word "mapGamecubeToN64", .symbol '(',
        .symbol ')', .symbol '\x7b', .word "memset", .symbol '(', .word "n64_buffer", .symbol ',',
        .word "0", .symbol ',', .word "sizeof", .symbol '(', .word "n64_buffer", .symbol ')',
        .symbol ')', .symbol ';'] := rfl
    have hheading : scanned [Sketch.stickHeading] = [] := rfl
    have hbrace : scanned ["\x7d"] = [.symbol '\x7d'] := rfl
    have hlines : scanned (Sketch.lines mapping.rules) = scanned Sketch.opening ++ blocks := by
      simp only [Sketch.lines, scanned, List.flatMap_append] at hheading hbrace ⊢
      rw [hheading, hbrace]
      simp only [List.append_nil, List.append_assoc, blocks, digital, stick, scanned]
    rw [Mapping.generate, tokens_ofLines _ (newline_notMem_lines mapping.rules)]
    exact hlines.trans (congrArg (· ++ blocks) hopening)
  · rw [instructions, hblocks]
    rfl

end PadBridge.Firmware
