import PadBridge.Proofs.Firmware.Effect
import PadBridge.Proofs.Utf8

/-!
What a generated text depends on, and what it gives away.  Only the buttons that targets are go into
it, so no name and no other entry of a mapping can show in the text.  The function tells these
buttons one by one: while a single source is held it sets the bit of that source's button.
-/

namespace PadBridge

/-- What the adapter reads while nobody touches the controller. -/
def PadStatus.resting : PadStatus :=
  ⟨0, 0, 0x80, 0x80⟩

/-- A controller at rest but for what a condition looks at. -/
def Condition.alone : Condition → PadStatus
  | .bit ⟨.data1, mask⟩ => { PadStatus.resting with data1 := mask }
  | .bit ⟨.data2, mask⟩ => { PadStatus.resting with data2 := mask }
  | .stick ⟨.x, .above, _⟩ => { PadStatus.resting with cStickX := 0xFF }
  | .stick ⟨.x, .below, _⟩ => { PadStatus.resting with cStickX := 0 }
  | .stick ⟨.y, .above, _⟩ => { PadStatus.resting with cStickY := 0xFF }
  | .stick ⟨.y, .below, _⟩ => { PadStatus.resting with cStickY := 0 }

/-- No two buttons share a bit or a direction. -/
theorem isPressed_alone (source button : GameCubeButton) :
    source.condition.alone.isPressed button = true ↔ button = source := by
  have hall : ∀ source ∈ GameCubeButton.all, ∀ button ∈ GameCubeButton.all,
      (source.condition.alone.isPressed button = true ↔ button = source) := by
    decide
  exact hall source source.mem_all button button.mem_all

namespace Firmware

/-- While one source is held, only the rule for that source adds its bit. -/
theorem and_foldl_apply_alone (mapping : Mapping) (source : GameCubeButton)
    (destination : N64Button) :
    (inPasses mapping.rules).foldl (Buffer.apply source.condition.alone) (fun _ => 0)
        destination.bit.index &&& destination.bit.mask = destination.bit.mask ↔
      mapping.get source = .button destination := by
  obtain ⟨place, _, hmask⟩ := destination.mask_eq_two_pow
  have hown := (destination.testBit_mask place).mpr hmask
  rw [and_eq_iff_testBit hmask, testBit_foldl_apply]
  constructor
  · rintro (hclear | ⟨rule, hrule, hpressed, hindex, hother⟩)
    · simp at hclear
    · have hsource : rule.source = source := (isPressed_alone source rule.source).mp hpressed
      have hmasks : rule.destination.bit.mask = destination.bit.mask :=
        UInt8.toNat_inj.mp (((rule.destination.testBit_mask place).mp hother).trans hmask.symm)
      have hbits : rule.destination.bit = destination.bit := by
        rw [show rule.destination.bit = ⟨rule.destination.bit.index, rule.destination.bit.mask⟩
          from rfl, hindex, hmasks]
      rw [← hsource, ← N64Button.bit_injective hbits]
      exact (mapping.mem_rules rule).mp (mem_inPasses.mp hrule)
  · intro htarget
    have hrule : ⟨source, destination⟩ ∈ mapping.rules :=
      (mapping.mem_rules ⟨source, destination⟩).mpr htarget
    exact Or.inr ⟨_, mem_inPasses.mpr hrule, (isPressed_alone source source).mpr rfl, rfl, hown⟩

/-- Functions that cannot be told apart by holding one source at a time come from mappings with the
same buttons. -/
theorem button?_eq_of_call {left right : Mapping} {source : GameCubeButton} (before : Buffer)
    (hcall : call left.generate source.condition.alone before =
      call right.generate source.condition.alone before) :
    (left.get source).button? = (right.get source).button? := by
  rw [call_generate_eq, call_generate_eq, Option.some.injEq] at hcall
  have hsame : ∀ destination, left.get source = .button destination ↔
      right.get source = .button destination := by
    intro destination
    rw [← and_foldl_apply_alone, ← and_foldl_apply_alone, hcall]
  have hbutton : ∀ (target : Target) (destination : N64Button),
      target.button? = some destination ↔ target = .button destination := by
    intro target destination
    cases target <;> simp [Target.button?]
  apply Option.ext
  intro destination
  rw [hbutton, hbutton, hsame]

end Firmware

namespace Mapping

/-- Only the buttons that targets are go into a generated text. -/
theorem generate_eq_of_button? {left right : Mapping}
    (h : ∀ source, (left.get source).button? = (right.get source).button?) :
    left.generate = right.generate := by
  have hrules : left.rules = right.rules := by
    simp only [rules, entries, List.filterMap_map, Function.comp_def, h]
  rw [generate, hrules, generate]

/-- Two mappings are compiled to the same bytes exactly if every source has the same button, and
functions that do the same are the same bytes.  So no entry beside the buttons and no unknown name
shows in the text, and neither does whether a factory button was ever set. -/
theorem bytesOf_generate_eq_iff (left right : Mapping) :
    (Utf8.bytesOf left.generate = Utf8.bytesOf right.generate ↔
      ∀ source, (left.get source).button? = (right.get source).button?) ∧
    ((∀ status before, Firmware.call left.generate status before =
        Firmware.call right.generate status before) →
      Utf8.bytesOf left.generate = Utf8.bytesOf right.generate) ∧
    (∀ extra, Utf8.bytesOf ({ left with extra } : Mapping).generate =
      Utf8.bytesOf left.generate) ∧
    (∀ source name, left.get source = .unknown name →
      Utf8.bytesOf (left.set source .unassigned).generate = Utf8.bytesOf left.generate) ∧
    ∀ source, left.get source = .button source.factory →
      Utf8.bytesOf (left.set source (.button source.factory)).generate =
        Utf8.bytesOf left.generate := by
  have hset : ∀ source target, target.button? = (left.get source).button? →
      (left.set source target).generate = left.generate := by
    intro source target htarget
    refine generate_eq_of_button? fun button => ?_
    rw [get_set]
    split
    · rename_i hsource
      rw [htarget, hsource]
    · rfl
  refine ⟨⟨fun hbytes source => ?_, fun h => ?_⟩, fun hcalls => ?_, fun extra => ?_,
    fun source name hname => ?_, fun source hfactory => ?_⟩
  · have htext : left.generate = right.generate := Utf8.bytesOf_injective hbytes
    exact Firmware.button?_eq_of_call (fun _ => 0) (by rw [htext])
  · rw [generate_eq_of_button? h]
  · rw [generate_eq_of_button? fun source => Firmware.button?_eq_of_call _ (hcalls _ fun _ => 0)]
  · exact congrArg Utf8.bytesOf (generate_eq_of_button? fun _ => rfl)
  · rw [hset source .unassigned (by rw [hname]; rfl)]
  · rw [hset source _ (by rw [hfactory])]

/-- Code that is put into the name of a target, or under the name of a button into another entry,
does not get into the text.  Another button does. -/
theorem bytesOf_generate_eq_iff_injected :
    let injected := (unassigned.set .a (.unknown "Z\n        n64_buffer[0] |= 0x20;")).setExtra "A"
      "*/ n64_buffer[0] |= 0x20; //"
    Utf8.bytesOf injected.generate = Utf8.bytesOf unassigned.generate
      ∧ Utf8.bytesOf (injected.set .a .unassigned).generate = Utf8.bytesOf injected.generate
      ∧ Utf8.bytesOf (factory.set .a (.button .a)).generate = Utf8.bytesOf factory.generate
      ∧ Utf8.bytesOf (factory.set .a (.button .z)).generate ≠ Utf8.bytesOf factory.generate := by
  intro injected
  refine ⟨?_, ?_, ?_, ?_⟩
  · refine (bytesOf_generate_eq_iff injected unassigned).1.mpr fun source => ?_
    cases source <;> rfl
  · exact (bytesOf_generate_eq_iff injected injected).2.2.2.1 .a _ rfl
  · exact (bytesOf_generate_eq_iff factory factory).2.2.2.2 .a rfl
  · intro hbytes
    have hbuttons := (bytesOf_generate_eq_iff _ factory).1.mp hbytes .a
    cases hbuttons

end Mapping
end PadBridge
