import Mathlib.Data.Nat.Bitwise
import PadBridge.Proofs.Firmware.Reading

/-!
What a generated function does when the adapter calls it.  Every block adds the bit of its
destination while its source is pressed and leaves the other bits alone, so at the end a bit is set
exactly if some pressed button is mapped to it.
-/

namespace PadBridge

/-- Every digital GameCube button is one bit of its register. -/
theorem GameCubeButton.mask_eq_two_pow {button : GameCubeButton} {tested : StatusBit}
    (h : button.statusBit? = some tested) : ∃ place < 8, tested.mask.toNat = 2 ^ place := by
  cases button <;> cases h <;> decide

/-- Every N64 button is one bit of one byte. -/
theorem N64Button.mask_eq_two_pow (button : N64Button) :
    ∃ place < 8, button.bit.mask.toNat = 2 ^ place := by
  cases button <;> decide

/-- Of an N64 button's mask the one bit is set that it stands for. -/
theorem N64Button.testBit_mask (button : N64Button) (place : Nat) :
    button.bit.mask.toNat.testBit place = true ↔ button.bit.mask.toNat = 2 ^ place := by
  obtain ⟨own, _, hown⟩ := button.mask_eq_two_pow
  rw [hown, Nat.testBit_two_pow, decide_eq_true_iff]
  exact (Nat.pow_right_injective (Nat.le_refl 2)).eq_iff.symm

/-- A button is pressed: the bit of a digital one is set, and for the C-Stick an axis lies beyond
its threshold. -/
def GameCubeButton.Pressed (status : PadStatus) : GameCubeButton → Prop
  | .cStickUp => 0xB0 < status.cStickY
  | .cStickDown => status.cStickY < 0x50
  | .cStickLeft => status.cStickX < 0x50
  | .cStickRight => 0xB0 < status.cStickX
  | button => ∃ tested, button.statusBit? = some tested
      ∧ status.register tested.register &&& tested.mask = tested.mask

namespace Firmware

/-- A byte held against a single bit leaves that bit if it is set, and else nothing. -/
theorem and_eq_iff_testBit {byte mask : UInt8} {place : Nat} (hmask : mask.toNat = 2 ^ place) :
    byte &&& mask = mask ↔ byte.toNat.testBit place = true := by
  rw [← UInt8.toNat_inj, UInt8.toNat_and, hmask, Nat.and_two_pow]
  cases byte.toNat.testBit place
  · simp [(Nat.two_pow_pos place).ne]
  · simp

theorem and_ne_zero_iff_testBit {byte mask : UInt8} {place : Nat} (hmask : mask.toNat = 2 ^ place) :
    byte &&& mask ≠ 0 ↔ byte.toNat.testBit place = true := by
  rw [← UInt8.toNat_inj.ne, UInt8.toNat_and, hmask, Nat.and_two_pow]
  cases byte.toNat.testBit place
  · simp
  · simp

theorem isPressed_iff (status : PadStatus) (button : GameCubeButton) :
    status.isPressed button = true ↔ button.Pressed status := by
  cases hbit : button.statusBit? with
  | none =>
      -- Without a bit the button is a direction, and both sides are one comparison.
      cases button <;> cases hbit <;> exact decide_eq_true_iff
  | some tested =>
      obtain ⟨place, _, hmask⟩ := GameCubeButton.mask_eq_two_pow hbit
      have hsatisfies : status.isPressed button =
          (status.register tested.register &&& tested.mask != 0) := by
        cases button <;> cases hbit <;> rfl
      have hpressed : button.Pressed status ↔
          status.register tested.register &&& tested.mask = tested.mask := by
        cases button <;> cases hbit <;>
          simp [GameCubeButton.Pressed, GameCubeButton.statusBit?, GameCubeButton.condition]
      rw [hsatisfies, hpressed, and_eq_iff_testBit hmask, ← and_ne_zero_iff_testBit hmask]
      exact bne_iff_ne

/-- The tests of generated code find their fields and hold when their conditions do. -/
theorem holds?_testOf (condition : Condition) (status : PadStatus) :
    (testOf condition).holds? status = some (status.satisfies condition) := by
  rcases condition with ⟨register, mask⟩ | ⟨axis, comparison, threshold⟩
  · have hbits : ∀ byte : UInt8, (byte.toNat &&& mask.toNat != 0) = (byte &&& mask != 0) := by
      intro byte
      rw [← UInt8.toNat_and, Bool.eq_iff_iff, bne_iff_ne, bne_iff_ne, ← UInt8.toNat_inj.ne]
      rfl
    cases register with
    | data1 => exact congrArg some (hbits status.data1)
    | data2 => exact congrArg some (hbits status.data2)
  · cases axis <;> cases comparison <;> rfl

def Buffer.apply (status : PadStatus) (buffer : Buffer) (rule : Rule) : Buffer :=
  if status.isPressed rule.source then
    buffer.raise rule.destination.bit.index rule.destination.bit.mask.toNat
  else buffer

theorem execute_block (status : PadStatus) (rule : Rule) (rest : List Instruction)
    (buffer : Buffer) :
    execute status [] (block rule ++ rest) buffer =
      execute status [] rest (buffer.apply status rule) := by
  have hindex : rule.destination.bit.index.val < 2 := rule.destination.bit.index.isLt
  have hheld : (testOf rule.source.condition).holds? status = some (status.isPressed rule.source) :=
    holds?_testOf rule.source.condition status
  simp only [block, List.cons_append, List.nil_append, execute, hheld, Option.bind_eq_bind,
    Option.bind_some, hindex, and_self, ↓reduceDIte, Buffer.apply]
  cases status.isPressed rule.source <;> rfl

theorem execute_blocks (status : PadStatus) (rules : List Rule) (buffer : Buffer) :
    execute status [] (rules.flatMap block ++ [.leave]) buffer =
      some (rules.foldl (Buffer.apply status) buffer) := by
  induction rules generalizing buffer with
  | nil => rfl
  | cons rule more ih =>
      rw [List.flatMap_cons, List.append_assoc, execute_block, ih, List.foldl_cons]

/-- A call clears the buffer and applies the rules. -/
theorem call_generate_eq (mapping : Mapping) (status : PadStatus) (before : Buffer) :
    call mapping.generate status before =
      some ((inPasses mapping.rules).foldl (Buffer.apply status) fun _ => 0) := by
  obtain ⟨body, htokens, hbody⟩ := tokens_generate mapping
  rw [call, htokens]
  simp only [hbody, functionOf, List.cons_append]
  exact execute_blocks status (inPasses mapping.rules) fun _ => 0

theorem testBit_raise (buffer : Buffer) (raised index : Fin 2) (mask : UInt8) (place : Nat) :
    (buffer.raise raised mask.toNat index).toNat.testBit place =
      ((buffer index).toNat.testBit place || (raised = index && mask.toNat.testBit place)) := by
  by_cases hindex : index = raised
  · subst hindex
    have hbound : (buffer index).toNat ||| mask.toNat < 2 ^ 8 :=
      Nat.or_lt_two_pow (buffer index).toNat_lt mask.toNat_lt
    have hvalue : (buffer.raise index mask.toNat index).toNat =
        (buffer index).toNat ||| mask.toNat := by
      rw [Buffer.raise, Function.update_self, UInt8.toNat_ofNat']
      exact Nat.mod_eq_of_lt hbound
    rw [hvalue, Nat.testBit_or]
    simp
  · rw [Buffer.raise, Function.update_of_ne hindex]
    simp [Ne.symm hindex]

/-- A rule adds its bit while its source is pressed. -/
theorem testBit_apply (status : PadStatus) (buffer : Buffer) (rule : Rule) (index : Fin 2)
    (place : Nat) :
    (buffer.apply status rule index).toNat.testBit place =
      ((buffer index).toNat.testBit place || (status.isPressed rule.source
        && (rule.destination.bit.index = index
          && rule.destination.bit.mask.toNat.testBit place))) := by
  rw [Buffer.apply]
  cases status.isPressed rule.source
  · simp
  · simpa using
      testBit_raise buffer rule.destination.bit.index index rule.destination.bit.mask place

/-- Rules only add bits, and each only its own. -/
theorem testBit_foldl_apply (status : PadStatus) (rules : List Rule) (buffer : Buffer)
    (index : Fin 2) (place : Nat) :
    (rules.foldl (Buffer.apply status) buffer index).toNat.testBit place = true ↔
      (buffer index).toNat.testBit place = true ∨ ∃ rule ∈ rules,
        status.isPressed rule.source = true ∧ rule.destination.bit.index = index
          ∧ rule.destination.bit.mask.toNat.testBit place = true := by
  induction rules generalizing buffer with
  | nil => simp
  | cons rule more ih =>
      rw [List.foldl_cons, ih, testBit_apply]
      simp only [Bool.or_eq_true, Bool.and_eq_true, decide_eq_true_eq, List.mem_cons,
        exists_eq_or_imp, or_assoc]

/-- Calling the generated function succeeds whatever the buffer held.  Afterwards the bit of an N64
button is set exactly if a pressed button is mapped to it, and no other bit is set. -/
theorem call_generate (mapping : Mapping) (status : PadStatus) (before : Buffer) :
    ∃ after, call mapping.generate status before = some after
      ∧ (∀ destination : N64Button,
          after destination.bit.index &&& destination.bit.mask = destination.bit.mask ↔
            ∃ source, mapping.get source = .button destination ∧ source.Pressed status)
      ∧ ∀ (index : Fin 2) (place : Nat),
          (∀ destination : N64Button,
            ¬ (destination.bit.index = index ∧ destination.bit.mask.toNat = 2 ^ place)) →
          (after index).toNat.testBit place = false := by
  have hbit : ∀ index place, ((inPasses mapping.rules).foldl (Buffer.apply status) (fun _ => 0)
        index).toNat.testBit place = true ↔ ∃ source destination,
          mapping.get source = .button destination ∧ source.Pressed status
            ∧ destination.bit.index = index ∧ destination.bit.mask.toNat = 2 ^ place := by
    intro index place
    rw [testBit_foldl_apply]
    constructor
    · rintro (hclear | ⟨rule, hrule, hpressed, hindex, hmask⟩)
      · simp at hclear
      · exact ⟨rule.source, rule.destination, (mapping.mem_rules rule).mp (mem_inPasses.mp hrule),
          (isPressed_iff status rule.source).mp hpressed, hindex,
          (rule.destination.testBit_mask place).mp hmask⟩
    · intro h
      rcases h with ⟨source, destination, htarget, hpressed, hindex, hmask⟩
      refine Or.inr ⟨⟨source, destination⟩, mem_inPasses.mpr ?_, ?_, hindex, ?_⟩
      · exact (mapping.mem_rules ⟨source, destination⟩).mpr htarget
      · exact (isPressed_iff status source).mpr hpressed
      · exact (destination.testBit_mask place).mpr hmask
  refine ⟨_, call_generate_eq mapping status before, ?_, ?_⟩
  · intro destination
    obtain ⟨place, _, hmask⟩ := destination.mask_eq_two_pow
    rw [and_eq_iff_testBit hmask, hbit]
    constructor
    · intro h
      rcases h with ⟨source, other, htarget, hpressed, hindex, hother⟩
      have hmasks : other.bit.mask = destination.bit.mask :=
        UInt8.toNat_inj.mp (hother.trans hmask.symm)
      have hbits : other.bit = destination.bit := by
        rw [show other.bit = ⟨other.bit.index, other.bit.mask⟩ from rfl, hindex, hmasks]
      exact ⟨source, N64Button.bit_injective hbits ▸ htarget, hpressed⟩
    · intro h
      rcases h with ⟨source, htarget, hpressed⟩
      exact ⟨source, destination, htarget, hpressed, rfl, hmask⟩
  · intro index place hnone
    rw [Bool.eq_false_iff, ne_eq, hbit]
    intro h
    rcases h with ⟨_, destination, _, _, hindex, hmask⟩
    exact hnone destination ⟨hindex, hmask⟩

end Firmware
end PadBridge
