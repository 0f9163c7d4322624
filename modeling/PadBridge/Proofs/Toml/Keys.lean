import PadBridge.Proofs.Toml.Strings
import PadBridge.Toml.Document

/-!
Keys are read as the grammar has them.
-/

namespace PadBridge.Toml

open Grammar

variable {input rest : List Char}

/-- Blanks in front of something else are passed. -/
theorem Reads.blanks {blanks : List Char} (hblanks : Blanks blanks) (hrest : Stops isBlank rest) :
    Reads skipBlank (blanks ++ rest) () rest :=
  skipBlank_iff.mpr ⟨blanks, rfl, fun c hc => isBlank_iff.mpr (hblanks c hc), hrest⟩

theorem Reads.blanks_sound {done : Unit} (h : Reads skipBlank input done rest) :
    ∃ blanks, input = blanks ++ rest ∧ Blanks blanks ∧ Stops isBlank rest := by
  obtain ⟨blanks, hinput, hblanks, hrest⟩ := skipBlank_iff.mp h
  exact ⟨blanks, hinput, fun c hc => isBlank_iff.mp (hblanks c hc), hrest⟩

/-- What a key begins with. -/
def opensKey (c : Char) : Bool :=
  c = '"' || c = '\'' || isBareChar c

theorem not_isBlank_of_opensKey {c : Char} (hc : opensKey c = true) : isBlank c = false := by
  refine Bool.eq_false_iff.mpr fun hblank => ?_
  rcases isBlank_iff.mp hblank with rfl | rfl <;> cases hc

section KeyPart

variable {part : List Char} {name : String}

theorem keyPart_sound (h : Reads keyPart input name rest) :
    ∃ part, input = part ++ rest ∧ KeyPart part name := by
  obtain ⟨_, _, hfront, hpart⟩ := Reads.bind_iff.mp h
  obtain ⟨rfl, rfl⟩ := Reads.front_iff.mp hfront
  split at hpart
  · obtain ⟨_, _, hquote, hrest⟩ := Reads.bind_iff.mp hpart
    obtain ⟨text, _, htext, hdone⟩ := Reads.bind_iff.mp hrest
    obtain ⟨rfl, rfl⟩ := Reads.pure_iff.mp hdone
    obtain ⟨body, rfl, hbody⟩ := basicText_eq_some_iff.mp (Reads.ofFunction_iff.mp htext)
    refine ⟨'"' :: body ++ ['"'], ?_, .basic (.mk hbody)⟩
    rw [Reads.exact_iff.mp hquote]
    simp
  · obtain ⟨_, _, hquote, hrest⟩ := Reads.bind_iff.mp hpart
    obtain ⟨text, _, htext, hdone⟩ := Reads.bind_iff.mp hrest
    obtain ⟨rfl, rfl⟩ := Reads.pure_iff.mp hdone
    obtain ⟨rfl, hall⟩ := literalText_eq_some_iff.mp (Reads.ofFunction_iff.mp htext)
    refine ⟨'\'' :: text ++ ['\''], ?_, .literal (.mk hall)⟩
    rw [Reads.exact_iff.mp hquote]
    simp
  · obtain ⟨word, _, hrun, hrest⟩ := Reads.bind_iff.mp hpart
    obtain ⟨_, _, hrequire, hdone⟩ := Reads.bind_iff.mp hrest
    obtain ⟨hne, rfl⟩ := Reads.require_iff.mp hrequire
    obtain ⟨rfl, rfl⟩ := Reads.pure_iff.mp hdone
    obtain ⟨hinput, hword, _⟩ := Reads.run_iff.mp hrun
    exact ⟨word, hinput, .bare hne fun c hc => isBareChar_iff.mp (hword c hc)⟩

theorem Grammar.KeyPart.exists_cons (hpart : KeyPart part name) :
    ∃ c more, part = c :: more ∧ opensKey c = true := by
  cases hpart with
  | bare hne hword =>
      obtain ⟨c, more, rfl⟩ := List.exists_cons_of_ne_nil hne
      have hbare := isBareChar_iff.mpr (hword c List.mem_cons_self)
      exact ⟨c, more, rfl, by simp [opensKey, hbare]⟩
  | basic hbasic =>
      obtain ⟨_⟩ := hbasic
      exact ⟨'"', _, rfl, rfl⟩
  | literal hliteral =>
      obtain ⟨_⟩ := hliteral
      exact ⟨'\'', _, rfl, rfl⟩

theorem keyPart_complete (hpart : KeyPart part name) (hrest : Stops isBareChar rest) :
    Reads keyPart (part ++ rest) name rest := by
  refine Reads.bind (Reads.front _) ?_
  cases hpart with
  | bare hne hword =>
      obtain ⟨c, more, rfl⟩ := List.exists_cons_of_ne_nil hne
      have hbare : ∀ other ∈ c :: more, isBareChar other = true :=
        fun other hother => isBareChar_iff.mpr (hword other hother)
      have hfirst := hbare c List.mem_cons_self
      rw [List.cons_append, List.head?_cons]
      split
      · rename_i h
        cases h
        cases hfirst
      · rename_i h
        cases h
        cases hfirst
      · exact .bind (Reads.run_iff.mpr ⟨rfl, hbare, hrest⟩) (.bind (.require hne _) (.pure _ _))
  | basic hbasic =>
      obtain ⟨hbody⟩ := hbasic
      rename_i text body
      have hinput : '"' :: body ++ ['"'] ++ rest = "\"".toList ++ (body ++ '"' :: rest) := by simp
      have htext : basicText (body ++ '"' :: rest) = some (text, rest) :=
        basicText_eq_some_iff.mpr ⟨body, rfl, hbody⟩
      rw [hinput]
      exact .bind (.exact _ _) (.bind (Reads.ofFunction_iff.mpr htext) (.pure _ _))
  | literal hliteral =>
      obtain ⟨hall⟩ := hliteral
      rename_i text
      have hinput : '\'' :: text ++ ['\''] ++ rest = "'".toList ++ (text ++ '\'' :: rest) := by simp
      have htext : literalText (text ++ '\'' :: rest) = some (text, rest) :=
        literalText_eq_some_iff.mpr ⟨rfl, hall⟩
      rw [hinput]
      exact .bind (.exact _ _) (.bind (Reads.ofFunction_iff.mpr htext) (.pure _ _))

end KeyPart

section Dotted

variable {spelled : List Char} {key : Key}

/-- The parts of a key are chained by dots. -/
theorem dottedPart_sound {name : String} {more : Bool}
    (h : Reads dottedPart input (name, more) rest) :
    ∃ before part after, Blanks before ∧ KeyPart part name ∧ Blanks after
      ∧ (more = true ∧ input = before ++ part ++ after ++ '.' :: rest
        ∨ more = false ∧ input = before ++ part ++ after ++ rest) := by
  simp only [dottedPart, Reads.bind_iff, Reads.pure_iff, Prod.mk.injEq] at h
  obtain ⟨_, _, hfirst, _, _, hpart, _, _, hsecond, _, _, haccept, ⟨rfl, rfl⟩, rfl⟩ := h
  obtain ⟨before, rfl, hbefore, _⟩ := Reads.blanks_sound hfirst
  obtain ⟨part, rfl, hspelled⟩ := keyPart_sound hpart
  obtain ⟨after, rfl, hafter, _⟩ := Reads.blanks_sound hsecond
  refine ⟨before, part, after, hbefore, hspelled, hafter, ?_⟩
  rcases Reads.accept_iff.mp haccept with ⟨rfl, rfl⟩ | ⟨rfl, _, rfl⟩
  · exact Or.inl ⟨rfl, by simp⟩
  · exact Or.inr ⟨rfl, by simp⟩

theorem chain_dottedPart_sound {parts : List String}
    (h : Reads (Scanner.chain dottedPart) input parts rest) :
    ∃ before spelled after key, input = before ++ spelled ++ after ++ rest ∧ Blanks before
      ∧ Dotted spelled key ∧ Blanks after ∧ parts = key.parts := by
  refine Reads.chain_induction (motive := fun input parts => ∃ before spelled after key,
    input = before ++ spelled ++ after ++ rest ∧ Blanks before ∧ Dotted spelled key
      ∧ Blanks after ∧ parts = key.parts) ?_ ?_ h
  · intro input name hitem
    obtain ⟨before, part, after, hbefore, hpart, hafter, ⟨hmore, _⟩ | ⟨_, hinput⟩⟩ :=
      dottedPart_sound hitem
    · cases hmore
    · exact ⟨before, part, after, _, hinput, hbefore, .one hpart, hafter, rfl⟩
  · rintro input middle name later hitem - ⟨between, spelled, last, ⟨path, key⟩, rfl, hbetween,
      hspelled, hlast, rfl⟩
    obtain ⟨before, part, after, hbefore, hpart, hafter, ⟨_, hinput⟩ | ⟨hmore, _⟩⟩ :=
      dottedPart_sound hitem
    · exact ⟨before, _, last, ⟨name :: path, key⟩, by rw [hinput]; simp, hbefore,
        .more hpart hafter hbetween hspelled, hlast, rfl⟩
    · cases hmore

theorem key_sound (h : Reads Toml.key input key rest) :
    ∃ before spelled after, input = before ++ spelled ++ after ++ rest ∧ Blanks before
      ∧ Dotted spelled key ∧ Blanks after ∧ key.parts.length ≤ Limits.reading.keyParts := by
  simp only [Toml.key, Reads.bind_iff, Reads.require_iff] at h
  obtain ⟨parts, _, hchain, _, _, ⟨hlength, rfl⟩, hdone⟩ := h
  obtain ⟨before, spelled, after, ⟨path, last⟩, hinput, hbefore, hspelled, hafter, rfl⟩ :=
    chain_dottedPart_sound hchain
  have hlast : (Key.mk path last).parts.getLast? = some last := List.getLast?_concat
  have hpath : (Key.mk path last).parts.dropLast = path := List.dropLast_concat
  simp only [hlast, hpath] at hdone
  obtain ⟨rfl, rfl⟩ := Reads.pure_iff.mp hdone
  exact ⟨before, spelled, after, hinput, hbefore, hspelled, hafter, Nat.le_of_lt_succ hlength⟩

theorem not_isBareChar_of_blank {c : Char} (hc : isBlank c = true) : isBareChar c = false := by
  rcases isBlank_iff.mp hc with rfl | rfl <;> rfl

/-- What may follow a part of a key: blanks, and then something that is neither blank nor bare. -/
theorem stops_isBareChar {blanks : List Char} (hblanks : Blanks blanks)
    (hrest : Stops isBareChar rest) : Stops isBareChar (blanks ++ rest) := by
  intro c hc
  cases blanks with
  | nil => exact hrest c hc
  | cons first blanks =>
      cases hc
      exact not_isBareChar_of_blank (isBlank_iff.mpr (hblanks c List.mem_cons_self))

theorem stops_isBlank_keyPart {part : List Char} {name : String} (hpart : KeyPart part name)
    (rest : List Char) : Stops isBlank (part ++ rest) := by
  obtain ⟨c, more, rfl, hc⟩ := hpart.exists_cons
  exact stops_cons (not_isBlank_of_opensKey hc) _

theorem Grammar.Dotted.exists_cons (hspelled : Dotted spelled key) :
    ∃ c more, spelled = c :: more ∧ opensKey c = true := by
  cases hspelled with
  | one hpart | more hpart _ _ _ =>
      obtain ⟨c, more, rfl, hc⟩ := hpart.exists_cons
      exact ⟨c, _, rfl, hc⟩

theorem chain_dottedPart_complete {c : Char} (hspelled : Dotted spelled key)
    {before after : List Char} (hbefore : Blanks before) (hafter : Blanks after)
    (hc : c = '=' ∨ c = ']') (rest : List Char) :
    Reads (Scanner.chain dottedPart) (before ++ spelled ++ after ++ c :: rest) key.parts
      (c :: rest) := by
  have hbare : Stops isBareChar (c :: rest) := by
    refine stops_cons ?_ rest
    rcases hc with rfl | rfl <;> rfl
  have hblank : Stops isBlank (c :: rest) := by
    refine stops_cons ?_ rest
    rcases hc with rfl | rfl <;> rfl
  have hdot : ¬ ".".toList <+: c :: rest := by
    rcases hc with rfl | rfl <;> exact not_prefix_of_ne (by decide) rest
  induction hspelled generalizing before with
  | @one part name hpart =>
      have hnext := stops_isBareChar hafter hbare
      rw [List.append_assoc, List.append_assoc]
      exact Reads.chain_last (.bind (.blanks hbefore (stops_isBlank_keyPart hpart _))
        (.bind (keyPart_complete hpart hnext) (.bind (.blanks hafter hblank)
          (.bind (.accept_false hdot) (.pure _ _)))))
  | @more part first second spelled name last path hpart hfirst hsecond _ ih =>
      have hnext : Stops isBareChar (first ++ '.' :: (second ++ spelled ++ after ++ c :: rest)) :=
        stops_isBareChar hfirst (stops_cons rfl _)
      have hinput : before ++ (part ++ first ++ '.' :: second ++ spelled) ++ after ++ c :: rest =
          before ++ (part ++ (first ++ '.' :: (second ++ spelled ++ after ++ c :: rest))) := by simp
      have hshorter : (second ++ spelled ++ after ++ c :: rest).length <
          (before ++
            (part ++ (first ++ '.' :: (second ++ spelled ++ after ++ c :: rest)))).length := by
        simp only [List.length_append, List.length_cons]
        omega
      rw [hinput]
      exact Reads.chain_more (.bind (.blanks hbefore (stops_isBlank_keyPart hpart _))
        (.bind (keyPart_complete hpart hnext) (.bind (.blanks hfirst (stops_cons rfl _))
          (.bind (.accept_true "." _) (.pure _ _))))) hshorter (ih hsecond)

/-- A key is read with the blanks around it, up to its equals sign or its bracket. -/
theorem key_complete {c : Char} (hspelled : Dotted spelled key)
    (hparts : key.parts.length ≤ Limits.reading.keyParts)
    {before after : List Char} (hbefore : Blanks before) (hafter : Blanks after)
    (hc : c = '=' ∨ c = ']') (rest : List Char) :
    Reads Toml.key (before ++ spelled ++ after ++ c :: rest) key (c :: rest) := by
  have hlast : key.parts.getLast? = some key.last := List.getLast?_concat
  have hpath : key.parts.dropLast = key.path := List.dropLast_concat
  refine .bind (chain_dottedPart_complete hspelled hbefore hafter hc rest)
    (.bind (.require (Nat.lt_succ_of_le hparts) _) ?_)
  simp only [hlast, hpath]
  exact .pure _ _

end Dotted
end PadBridge.Toml
