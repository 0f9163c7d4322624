import PadBridge.Proofs.Toml.Blocks

/-!
Strings of all four kinds are read as the grammar has them.
-/

namespace PadBridge.Toml

open Grammar

section StringText

variable {input rest text : List Char}

/-- A line end behind the opening quotes is not part of a string. -/
theorem opened_skipFirstNewline {Block : List Char → List Char → Prop} {tail : List Char}
    (hinput : ∃ body, skipFirstNewline input = body ++ tail ∧ Block body text)
    (hreturn : ∀ more, Block ('\r' :: more) text → ∃ later, more = '\n' :: later) :
    ∃ body, input = body ++ tail ∧ Opened Block body text := by
  obtain ⟨body, hskip, hbody⟩ := hinput
  cases hline : afterNewline? input with
  | some more =>
      obtain ⟨newline, hnewline, rfl⟩ := afterNewline?_eq_some_iff.mp hline
      rw [skipFirstNewline, hline, Option.getD_some] at hskip
      exact ⟨newline ++ body, by rw [hskip, List.append_assoc], .newline hnewline hbody⟩
  | none =>
      rw [skipFirstNewline, hline, Option.getD_none] at hskip
      subst hskip
      refine ⟨body, rfl, .direct (fun c hc => ?_) hbody⟩
      cases body with
      | nil => cases hc
      | cons first body =>
          cases hc
          refine ⟨?_, ?_⟩
          · rintro rfl
            cases hline
          · rintro rfl
            obtain ⟨later, rfl⟩ := hreturn body hbody
            cases hline

theorem skipFirstNewline_append {Block : List Char → List Char → Prop} {body : List Char}
    {quote : Char} (hbody : Opened Block body text) (hquote : quote ≠ '\n' ∧ quote ≠ '\r')
    (rest : List Char) :
    ∃ inner, skipFirstNewline (body ++ quote :: rest) = inner ++ quote :: rest
      ∧ Block inner text := by
  cases hbody with
  | @newline newline inner _ hnewline hinner =>
      refine ⟨inner, ?_, hinner⟩
      rw [skipFirstNewline, List.append_assoc, afterNewline?_append hnewline, Option.getD_some]
  | direct hfirst hinner =>
      refine ⟨body, ?_, hinner⟩
      cases body with
      | nil =>
          rw [skipFirstNewline, List.nil_append, afterNewline?_eq_none hquote.1 hquote.2]
          rfl
      | cons c body =>
          have hc := hfirst c (by simp)
          rw [skipFirstNewline, List.cons_append, afterNewline?_eq_none hc.1 hc.2]
          rfl

theorem textChars_sound (h : textChars input = some (text, rest)) :
    ∃ spelled, input = spelled ++ rest ∧ StringText spelled text := by
  unfold textChars at h
  split at h
  · obtain ⟨inner, hinner, hbody⟩ := blockBasicText_sound h (Or.inl rfl)
    rw [List.append_assoc] at hinner
    obtain ⟨body, rfl, hopened⟩ := opened_skipFirstNewline ⟨inner, hinner, hbody⟩
      fun more hmore => hmore.newline_of_return
    exact ⟨_, by simp, .basicBlock hopened⟩
  · obtain ⟨body, rfl, hbody⟩ := basicText_eq_some_iff.mp h
    exact ⟨'"' :: body ++ ['"'], by simp, .basic (.mk hbody)⟩
  · obtain ⟨inner, hinner, hbody⟩ := blockLiteralText_sound h (Or.inl rfl)
    rw [List.append_assoc] at hinner
    obtain ⟨body, rfl, hopened⟩ := opened_skipFirstNewline ⟨inner, hinner, hbody⟩
      fun more hmore => hmore.newline_of_return
    exact ⟨_, by simp, .literalBlock hopened⟩
  · obtain ⟨rfl, htext⟩ := literalText_eq_some_iff.mp h
    exact ⟨'\'' :: text ++ ['\''], by simp, .literal (.mk htext)⟩
  · cases h

/-- Two quotes do not stand in front of a text on one line, not even of an empty one. -/
theorem ne_two_quotes {quote : Char} {body : List Char} (hbody : body.head? ≠ some quote)
    (hrest : rest.head? ≠ some quote) (more : List Char) :
    body ++ quote :: rest ≠ quote :: quote :: more := by
  intro h
  cases body with
  | nil =>
      rw [List.nil_append, List.cons_inj_right] at h
      exact hrest (by rw [h, List.head?_cons])
  | cons c body =>
      rw [List.cons_append, List.cons.injEq] at h
      exact hbody (by rw [List.head?_cons, h.1])

theorem Grammar.BasicBody.head?_ne {body : List Char} (hbody : BasicBody body text) :
    body.head? ≠ some '"' := by
  cases hbody with
  | nil => exact nofun
  | plain _ hquote =>
      rw [List.head?_cons, ne_eq, Option.some.injEq]
      exact hquote
  | escape hpiece =>
      obtain ⟨letter, tail, rfl, -⟩ := hpiece.exists_letter
      exact nofun

/-- A string of any kind is read up to its end, if no further quote follows. -/
theorem textChars_complete {spelled : List Char} (hspelled : StringText spelled text)
    (hdouble : rest.head? ≠ some '"') (hsingle : rest.head? ≠ some '\'') :
    textChars (spelled ++ rest) = some (text, rest) := by
  cases hspelled with
  | basic hbasic =>
      obtain ⟨hbody⟩ := hbasic
      rename_i body
      have hinput : '"' :: body ++ ['"'] ++ rest = '"' :: (body ++ '"' :: rest) := by simp
      rw [hinput, textChars.eq_2 _ fun more h => ne_two_quotes hbody.head?_ne hdouble more h]
      exact basicText_eq_some_iff.mpr ⟨body, rfl, hbody⟩
  | literal hliteral =>
      obtain ⟨htext⟩ := hliteral
      have hhead : text.head? ≠ some '\'' := fun h => (htext '\'' (List.mem_of_head? h)).2 rfl
      have hinput : '\'' :: text ++ ['\''] ++ rest = '\'' :: (text ++ '\'' :: rest) := by simp
      rw [hinput, textChars.eq_4 _ fun more h => ne_two_quotes hhead hsingle more h]
      exact literalText_eq_some_iff.mpr ⟨rfl, htext⟩
  | @basicBlock body _ hbody =>
      have hquote : '"' ≠ '\n' ∧ '"' ≠ '\r' := by decide
      obtain ⟨inner, hskip, hinner⟩ := skipFirstNewline_append hbody hquote ('"' :: '"' :: rest)
      have hinput : '"' :: '"' :: '"' :: body ++ ['"', '"', '"'] ++ rest =
          '"' :: '"' :: '"' :: (body ++ '"' :: '"' :: '"' :: rest) := by simp
      rw [hinput, textChars, hskip]
      exact blockBasicText_complete hinner (Nat.zero_le 2) hdouble
  | @literalBlock body _ hbody =>
      have hquote : '\'' ≠ '\n' ∧ '\'' ≠ '\r' := by decide
      obtain ⟨inner, hskip, hinner⟩ := skipFirstNewline_append hbody hquote ('\'' :: '\'' :: rest)
      have hinput : '\'' :: '\'' :: '\'' :: body ++ ['\'', '\'', '\''] ++ rest =
          '\'' :: '\'' :: '\'' :: (body ++ '\'' :: '\'' :: '\'' :: rest) := by simp
      rw [hinput, textChars, hskip]
      exact blockLiteralText_complete hinner (Nat.zero_le 2) hsingle

end StringText

end PadBridge.Toml
