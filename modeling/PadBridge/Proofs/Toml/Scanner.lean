import Mathlib.Data.List.TakeWhile
import PadBridge.Toml.Scanner

/-!
What scanners take off the front of an input.  Every way to put scanners together has one lemma that
says exactly when the whole takes something, so a scanner can be followed in both directions: from
what it took to what stood there, and from what stands there to what it takes.
-/

namespace PadBridge.Toml

/-- A scanner takes a value off the front of an input and leaves the rest. -/
def Reads {α : Type} (scanner : Scanner α) (input : List Char) (value : α)
    (rest : List Char) : Prop :=
  scanner input = .ok (value, rest)

namespace Reads

variable {α β : Type} {scanner : Scanner α} {value other : α} {input rest : List Char}

theorem bind_iff {next : α → Scanner β} {result : β} :
    Reads (scanner >>= next) input result rest ↔
      ∃ value middle, Reads scanner input value middle ∧ Reads (next value) middle result rest := by
  change Except.bind (scanner input) (fun found => next found.1 found.2) = _ ↔ _
  simp only [Reads]
  cases hscan : scanner input with
  | error fault =>
      constructor
      · intro h
        cases h
      · rintro ⟨_, _, h, _⟩
        cases h
  | ok found =>
      constructor
      · intro h
        exact ⟨found.1, found.2, rfl, h⟩
      · rintro ⟨_, _, h, hnext⟩
        cases h
        exact hnext

theorem bind {next : α → Scanner β} {result : β} {middle : List Char}
    (hscan : Reads scanner input value middle) (hnext : Reads (next value) middle result rest) :
    Reads (scanner >>= next) input result rest :=
  bind_iff.mpr ⟨value, middle, hscan, hnext⟩

theorem pure_iff : Reads (Pure.pure value) input other rest ↔ other = value ∧ rest = input := by
  constructor
  · intro h
    cases h
    exact ⟨rfl, rfl⟩
  · rintro ⟨rfl, rfl⟩
    rfl

theorem pure (value : α) (input : List Char) : Reads (Pure.pure value) input value input :=
  rfl

theorem not_refuse {fault : Fault} : ¬ Reads (Scanner.refuse fault) input value rest := by
  intro h
  cases h

theorem ofFunction_iff {scan : List Char → Option (α × List Char)} :
    Reads (Scanner.ofFunction scan) input value rest ↔ scan input = some (value, rest) := by
  rw [Reads, Scanner.ofFunction]
  cases scan input with
  | none => simp
  | some found => simp

theorem blaming_iff {fault : Fault} :
    Reads (scanner.blaming fault) input value rest ↔ Reads scanner input value rest := by
  rw [Reads, Reads, Scanner.blaming]
  cases scanner input with
  | error found => simp [Except.mapError]
  | ok found => simp [Except.mapError]

theorem require_iff {condition : Prop} [Decidable condition] {done : Unit} :
    Reads (Scanner.require condition) input done rest ↔ condition ∧ rest = input := by
  rw [Scanner.require]
  split
  · rename_i hcondition
    exact pure_iff.trans ⟨fun h => ⟨hcondition, h.2⟩, fun h => ⟨rfl, h.2⟩⟩
  · rename_i hcondition
    exact ⟨fun h => absurd h not_refuse, fun h => absurd h.1 hcondition⟩

theorem require {condition : Prop} [Decidable condition] (h : condition) (input : List Char) :
    Reads (Scanner.require condition) input () input :=
  require_iff.mpr ⟨h, rfl⟩

theorem get_iff {found : List Char} :
    Reads get input found rest ↔ found = input ∧ rest = input := by
  constructor
  · intro h
    cases h
    exact ⟨rfl, rfl⟩
  · rintro ⟨rfl, rfl⟩
    rfl

theorem get (input : List Char) : Reads get input input input :=
  rfl

theorem front_iff {found : Option Char} :
    Reads Scanner.front input found rest ↔ found = input.head? ∧ rest = input := by
  rw [Scanner.front, ofFunction_iff, Option.some.injEq, Prod.mk.injEq, eq_comm, @eq_comm _ input]

theorem front (input : List Char) : Reads Scanner.front input input.head? input :=
  rfl

theorem one_iff {accepts : Char → Bool} {c : Char} :
    Reads (Scanner.one accepts) input c rest ↔ accepts c = true ∧ input = c :: rest := by
  rw [Scanner.one, ofFunction_iff]
  cases input with
  | nil => simp
  | cons first more =>
      constructor
      · intro h
        simp only at h
        split at h
        · rename_i haccepts
          cases h
          exact ⟨haccepts, rfl⟩
        · cases h
      · rintro ⟨haccepts, heq⟩
        cases heq
        exact if_pos haccepts

theorem pass_iff {skip : List Char → List Char} {done : Unit} :
    Reads (Scanner.pass skip) input done rest ↔ rest = skip input := by
  rw [Scanner.pass, ofFunction_iff, Option.some.injEq, Prod.mk.injEq, eq_comm (a := skip input)]
  exact and_iff_right rfl

theorem exact_iff {text : String} {done : Unit} :
    Reads (Scanner.exact text) input done rest ↔ input = text.toList ++ rest := by
  rw [Scanner.exact, ofFunction_iff]
  constructor
  · intro h
    split at h
    · rename_i hfront
      obtain ⟨more, rfl⟩ := List.isPrefixOf_iff_prefix.mp hfront
      cases h
      rw [List.drop_left' String.length_toList]
    · cases h
  · rintro rfl
    rw [if_pos (List.isPrefixOf_iff_prefix.mpr (List.prefix_append _ _)),
      List.drop_left' String.length_toList]

theorem exact (text : String) (rest : List Char) :
    Reads (Scanner.exact text) (text.toList ++ rest) () rest :=
  exact_iff.mpr rfl

theorem accept_iff {text : String} {found : Bool} :
    Reads (Scanner.accept text) input found rest ↔
      (found = true ∧ input = text.toList ++ rest)
        ∨ (found = false ∧ ¬ text.toList <+: input ∧ rest = input) := by
  rw [Scanner.accept, ofFunction_iff]
  constructor
  · intro h
    split at h
    · rename_i hfront
      obtain ⟨more, rfl⟩ := List.isPrefixOf_iff_prefix.mp hfront
      cases h
      exact Or.inl ⟨rfl, by rw [List.drop_left' String.length_toList]⟩
    · rename_i hfront
      cases h
      exact Or.inr ⟨rfl, fun h => hfront (List.isPrefixOf_iff_prefix.mpr h), rfl⟩
  · rintro (⟨rfl, rfl⟩ | ⟨rfl, hfront, rfl⟩)
    · rw [if_pos (List.isPrefixOf_iff_prefix.mpr (List.prefix_append _ _)),
        List.drop_left' String.length_toList]
    · rw [if_neg fun h => hfront (List.isPrefixOf_iff_prefix.mp h)]

theorem accept_true (text : String) (rest : List Char) :
    Reads (Scanner.accept text) (text.toList ++ rest) true rest :=
  accept_iff.mpr (Or.inl ⟨rfl, rfl⟩)

theorem accept_false {text : String} (h : ¬ text.toList <+: input) :
    Reads (Scanner.accept text) input false input :=
  accept_iff.mpr (Or.inr ⟨rfl, h, rfl⟩)

end Reads

theorem not_prefix_of_ne {first c : Char} {more : List Char} (hc : c ≠ first) (rest : List Char) :
    ¬ first :: more <+: c :: rest :=
  fun h => hc (List.cons_prefix_cons.mp h).1.symm

/-- No character of a class stands at the front. -/
def Stops (accepts : Char → Bool) (input : List Char) : Prop :=
  ∀ c ∈ input.head?, accepts c = false

theorem stops_cons {accepts : Char → Bool} {c : Char} (hc : accepts c = false) (rest : List Char) :
    Stops accepts (c :: rest) := by
  rintro other ⟨⟩
  exact hc

section Stops

variable {accepts : Char → Bool} {taken input : List Char}

theorem takeWhile_of_stops (htaken : ∀ c ∈ taken, accepts c = true) (hinput : Stops accepts input) :
    (taken ++ input).takeWhile accepts = taken := by
  rw [List.takeWhile_append_of_pos htaken]
  cases input with
  | nil => exact List.append_nil taken
  | cons c input =>
      have hc : accepts c = false := hinput c (by simp)
      rw [List.takeWhile_cons_of_neg (by simp [hc]), List.append_nil]

theorem dropWhile_of_stops (htaken : ∀ c ∈ taken, accepts c = true) (hinput : Stops accepts input) :
    (taken ++ input).dropWhile accepts = input := by
  rw [List.dropWhile_append_of_pos htaken]
  cases input with
  | nil => rfl
  | cons c input =>
      have hc : accepts c = false := hinput c (by simp)
      exact List.dropWhile_cons_of_neg (by simp [hc])

theorem stops_dropWhile (accepts : Char → Bool) (input : List Char) :
    Stops accepts (input.dropWhile accepts) := by
  intro c hc
  have hhead := List.head?_dropWhile_not accepts input
  rw [Option.mem_def.mp hc] at hhead
  exact hhead

end Stops

namespace Reads

variable {α : Type} {input rest : List Char}

theorem run_iff {accepts : Char → Bool} {taken : List Char} :
    Reads (Scanner.run accepts) input taken rest ↔
      input = taken ++ rest ∧ (∀ c ∈ taken, accepts c = true) ∧ Stops accepts rest := by
  rw [Scanner.run, ofFunction_iff, Option.some.injEq, Prod.mk.injEq]
  constructor
  · rintro ⟨rfl, rfl⟩
    exact ⟨List.takeWhile_append_dropWhile.symm, fun c hc => List.mem_takeWhile_imp hc,
      stops_dropWhile accepts input⟩
  · rintro ⟨rfl, htaken, hrest⟩
    exact ⟨takeWhile_of_stops htaken hrest, dropWhile_of_stops htaken hrest⟩

theorem skipBlank_iff {done : Unit} :
    Reads skipBlank input done rest ↔
      ∃ blanks, input = blanks ++ rest ∧ (∀ c ∈ blanks, isBlank c = true) ∧ Stops isBlank rest := by
  rw [skipBlank, pass_iff]
  constructor
  · rintro rfl
    exact ⟨input.takeWhile isBlank, List.takeWhile_append_dropWhile.symm,
      fun c hc => List.mem_takeWhile_imp hc, stops_dropWhile isBlank input⟩
  · rintro ⟨blanks, rfl, hblanks, hrest⟩
    exact (dropWhile_of_stops hblanks hrest).symm

/-- A chain ends with the item that says so. -/
theorem chain_iff {item : Scanner (α × Bool)} {values : List α} :
    Reads (Scanner.chain item) input values rest ↔
      (∃ value, Reads item input (value, false) rest ∧ values = [value])
        ∨ ∃ value middle later, Reads item input (value, true) middle
          ∧ middle.length < input.length ∧ Reads (Scanner.chain item) middle later rest
          ∧ values = value :: later := by
  constructor
  · intro h
    rw [Reads, Scanner.chain, Scanner.chainFrom] at h
    split at h
    · cases h
    · rename_i value more middle hitem
      cases more with
      | false =>
          cases h
          exact Or.inl ⟨value, hitem, rfl⟩
      | true =>
          simp only [if_true] at h
          split at h
          · rename_i hshorter
            cases hlater : Scanner.chainFrom item middle with
            | error fault =>
                rw [hlater] at h
                cases h
            | ok found =>
                rw [hlater] at h
                cases h
                exact Or.inr ⟨value, middle, found.1, hitem, hshorter, hlater, rfl⟩
          · cases h
  · rintro (⟨value, hitem, rfl⟩ | ⟨value, middle, later, hitem, hshorter, hlater, rfl⟩)
    · rw [Reads] at hitem
      rw [Reads, Scanner.chain, Scanner.chainFrom, hitem]
      rfl
    · rw [Reads] at hitem
      rw [Reads, Scanner.chain] at hlater
      rw [Reads, Scanner.chain, Scanner.chainFrom, hitem]
      simp only [if_true]
      rw [dif_pos hshorter, hlater]
      rfl

/-- What holds along a chain: of its last item, and with every item in front of more. -/
theorem chain_induction {item : Scanner (α × Bool)} {motive : List Char → List α → Prop}
    (hlast : ∀ {input value}, Reads item input (value, false) rest → motive input [value])
    (hmore : ∀ {input middle value later}, Reads item input (value, true) middle →
      Reads (Scanner.chain item) middle later rest → motive middle later →
      motive input (value :: later))
    {values : List α} (hchain : Reads (Scanner.chain item) input values rest) :
    motive input values := by
  induction values generalizing input with
  | nil =>
      rcases chain_iff.mp hchain with ⟨_, _, h⟩ | ⟨_, _, _, _, _, _, h⟩ <;> cases h
  | cons value later ih =>
      rcases chain_iff.mp hchain with ⟨_, hitem, h⟩ | ⟨_, middle, _, hitem, _, hlater, h⟩
      · cases h
        exact hlast hitem
      · cases h
        exact hmore hitem hlater (ih hlater)

theorem chain_last {item : Scanner (α × Bool)} {value : α}
    (hitem : Reads item input (value, false) rest) :
    Reads (Scanner.chain item) input [value] rest :=
  chain_iff.mpr (Or.inl ⟨value, hitem, rfl⟩)

theorem chain_more {item : Scanner (α × Bool)} {value : α} {later : List α} {middle : List Char}
    (hitem : Reads item input (value, true) middle) (hshorter : middle.length < input.length)
    (hlater : Reads (Scanner.chain item) middle later rest) :
    Reads (Scanner.chain item) input (value :: later) rest :=
  chain_iff.mpr (Or.inr ⟨value, middle, later, hitem, hshorter, hlater, rfl⟩)

end Reads
end PadBridge.Toml
