import PadBridge.Proofs.Toml.Escapes

/-!
Strings between three quotes are read as the grammar has them.  The end is the difficulty: no more
than two quotes in a row belong to the text, so the last three of any longer run close it.
-/

namespace PadBridge.Toml

open Grammar

section LineEnds

variable {input rest : List Char}

theorem afterNewline?_eq_some_iff :
    afterNewline? input = some rest ↔ ∃ newline, Newline newline ∧ input = newline ++ rest := by
  constructor
  · intro h
    unfold afterNewline? at h
    split at h
    · cases h
      exact ⟨_, .feed, rfl⟩
    · cases h
      exact ⟨_, .returnFeed, rfl⟩
    · cases h
  · rintro ⟨newline, hnewline, rfl⟩
    cases hnewline <;> rfl

theorem afterNewline?_append {newline : List Char} (hnewline : Newline newline)
    (rest : List Char) : afterNewline? (newline ++ rest) = some rest :=
  afterNewline?_eq_some_iff.mpr ⟨newline, hnewline, rfl⟩

theorem afterNewline?_eq_none {c : Char} (hnewline : c ≠ '\n') (hreturn : c ≠ '\r')
    (rest : List Char) : afterNewline? (c :: rest) = none := by
  unfold afterNewline?
  split
  · rename_i h
    cases h
    exact absurd rfl hnewline
  · rename_i h
    cases h
    exact absurd rfl hreturn
  · rfl

/-- What a folded line leaves out ends where something else begins. -/
theorem fold_skipBlankLines (input : List Char) :
    (∃ skipped, Fold skipped ∧ input = skipped ++ skipBlankLines input)
      ∧ (∀ c ∈ (skipBlankLines input).head?, c ∉ [' ', '\t', '\n'])
      ∧ afterNewline? (skipBlankLines input) = none := by
  fun_induction skipBlankLines input with
  | case1 more ih =>
      obtain ⟨⟨skipped, hskipped, hmore⟩, hrest⟩ := ih
      exact ⟨⟨' ' :: skipped, .blank (Or.inl rfl) hskipped, congrArg (' ' :: ·) hmore⟩, hrest⟩
  | case2 more ih =>
      obtain ⟨⟨skipped, hskipped, hmore⟩, hrest⟩ := ih
      exact ⟨⟨'\t' :: skipped, .blank (Or.inr rfl) hskipped, congrArg ('\t' :: ·) hmore⟩, hrest⟩
  | case3 more ih =>
      obtain ⟨⟨skipped, hskipped, hmore⟩, hrest⟩ := ih
      exact ⟨⟨['\n'] ++ skipped, .newline .feed hskipped, congrArg ('\n' :: ·) hmore⟩, hrest⟩
  | case4 more ih =>
      obtain ⟨⟨skipped, hskipped, hmore⟩, hrest⟩ := ih
      exact ⟨⟨['\r', '\n'] ++ skipped, .newline .returnFeed hskipped,
        congrArg (['\r', '\n'] ++ ·) hmore⟩, hrest⟩
  | case5 rest hspace htab hfeed hreturn =>
      refine ⟨⟨[], .nil, rfl⟩, ?_, ?_⟩
      · intro c hc
        cases rest with
        | nil => cases hc
        | cons first more =>
            cases hc
            simp only [List.mem_cons, List.not_mem_nil, or_false, not_or]
            exact ⟨fun h => hspace more (by rw [h]), fun h => htab more (by rw [h]),
              fun h => hfeed more (by rw [h])⟩
      · unfold afterNewline?
        split
        · exact absurd rfl (hfeed _)
        · exact absurd rfl (hreturn _)
        · rfl

theorem skipBlankLines_append {skipped : List Char} (hskipped : Fold skipped)
    (hrest : ∀ c ∈ rest.head?, c ∉ [' ', '\t', '\n', '\r']) :
    skipBlankLines (skipped ++ rest) = rest := by
  induction hskipped with
  | nil =>
      cases rest with
      | nil => rfl
      | cons c rest =>
          have hc := hrest c (by simp)
          simp only [List.mem_cons, List.not_mem_nil, or_false, not_or] at hc
          rw [List.nil_append]
          unfold skipBlankLines
          split
          · rename_i h
            cases h
            exact absurd rfl hc.1
          · rename_i h
            cases h
            exact absurd rfl hc.2.1
          · rename_i h
            cases h
            exact absurd rfl hc.2.2.1
          · rename_i h
            cases h
            exact absurd rfl hc.2.2.2
          · rfl
  | blank hc _ ih => rcases hc with rfl | rfl <;> exact ih
  | newline hnewline _ ih => cases hnewline <;> exact ih

theorem foldedLine?_eq_none {c : Char} (hc : c ∉ [' ', '\t', '\n', '\r']) (rest : List Char) :
    foldedLine? (c :: rest) = none := by
  simp only [List.mem_cons, List.not_mem_nil, or_false, not_or] at hc
  obtain ⟨hspace, htab, hnewline, hreturn⟩ := hc
  rw [foldedLine?, List.dropWhile_cons_of_neg (by simp [isBlank, hspace, htab]),
    afterNewline?_eq_none hnewline hreturn]
  rfl

theorem stops_newline {newline : List Char} (hnewline : Newline newline) (rest : List Char) :
    Stops isBlank (newline ++ rest) := by
  intro c hc
  cases hnewline <;> cases hc <;> rfl

theorem foldedLine?_append {blanks newline skipped : List Char} (hblanks : Blanks blanks)
    (hnewline : Newline newline) (hskipped : Fold skipped)
    (hrest : ∀ c ∈ rest.head?, c ∉ [' ', '\t', '\n', '\r']) :
    foldedLine? (blanks ++ newline ++ skipped ++ rest) = some rest := by
  have hdrop : (blanks ++ (newline ++ (skipped ++ rest))).dropWhile isBlank =
      newline ++ (skipped ++ rest) :=
    dropWhile_of_stops (fun c hc => isBlank_iff.mpr (hblanks c hc)) (stops_newline hnewline _)
  rw [foldedLine?, List.append_assoc, List.append_assoc, hdrop, afterNewline?_append hnewline,
    Option.map_some, skipBlankLines_append hskipped hrest]

theorem foldedLine?_sound (hfold : foldedLine? input = some rest) :
    ∃ blanks newline skipped, Blanks blanks ∧ Newline newline ∧ Fold skipped
      ∧ input = blanks ++ newline ++ skipped ++ rest
      ∧ (∀ c ∈ rest.head?, c ∉ [' ', '\t', '\n']) ∧ afterNewline? rest = none := by
  obtain ⟨more, hmore, rfl⟩ := Option.map_eq_some_iff.mp hfold
  obtain ⟨newline, hnewline, hdrop⟩ := afterNewline?_eq_some_iff.mp hmore
  obtain ⟨⟨skipped, hskipped, hrest⟩, hhead, hnone⟩ := fold_skipBlankLines more
  refine ⟨input.takeWhile isBlank, newline, skipped,
    fun c hc => isBlank_iff.mp (List.mem_takeWhile_imp hc), hnewline, hskipped, ?_, hhead, hnone⟩
  rw [List.append_assoc, ← hrest, List.append_assoc, ← hdrop, List.takeWhile_append_dropWhile]

end LineEnds

section Closing

variable {quote : Char} {text rest input : List Char}

def quotesInFront (quote : Char) (input : List Char) : Nat :=
  (input.takeWhile (· = quote)).length

theorem quotesInFront_cons_self (quote : Char) (rest : List Char) :
    quotesInFront quote (quote :: rest) = quotesInFront quote rest + 1 := by
  rw [quotesInFront, List.takeWhile_cons_of_pos (by simp), List.length_cons, quotesInFront]

theorem quotesInFront_cons {c : Char} (hc : c ≠ quote) (rest : List Char) :
    quotesInFront quote (c :: rest) = 0 := by
  rw [quotesInFront, List.takeWhile_cons_of_neg (by simpa using hc), List.length_nil]

theorem closing?_eq_none_iff : closing? quote input = none ↔ quotesInFront quote input < 3 := by
  rw [closing?, quotesInFront]
  simp

/-- What closes a string leaves up to two quotes to it. -/
theorem closing?_sound (hclose : closing? quote input = some (text, rest)) :
    ∃ count ≤ 2, text = List.replicate count quote
      ∧ input = text ++ [quote, quote, quote] ++ rest := by
  rw [closing?] at hclose
  simp only at hclose
  split at hclose
  · cases hclose
  · rename_i hlength
    cases hclose
    refine ⟨_, Nat.min_le_right _ 2, rfl, ?_⟩
    obtain ⟨count, hcount⟩ : ∃ count, count = min ((input.takeWhile (· = quote)).length - 3) 2 :=
      ⟨_, rfl⟩
    have hrun : input.takeWhile (· = quote) =
        List.replicate (input.takeWhile (· = quote)).length quote :=
      List.eq_replicate_iff.mpr ⟨rfl, fun c hc => by simpa using List.mem_takeWhile_imp hc⟩
    have hfront : input.take (count + 3) = List.replicate (count + 3) quote := by
      have htake : (input.takeWhile (· = quote) ++ input.dropWhile (· = quote)).take (count + 3) =
          (input.takeWhile (· = quote)).take (count + 3) :=
        List.take_append_of_le_length (by omega)
      rw [List.takeWhile_append_dropWhile] at htake
      rw [htake, hrun, List.take_replicate, Nat.min_eq_left (by omega)]
    have hquotes : List.replicate (count + 3) quote =
        List.replicate count quote ++ [quote, quote, quote] :=
      List.replicate_append_replicate.symm
    rw [← hcount, ← hquotes, ← hfront, List.take_append_drop]

/-- Quotes directly in front of the closing ones belong to the text. -/
theorem closing?_of_quotes (hall : text.all (· = quote) = true) (hlength : text.length ≤ 2)
    (hrest : rest.head? ≠ some quote) :
    closing? quote (text ++ ([quote, quote, quote] ++ rest)) = some (text, rest) := by
  rw [List.all_eq_true] at hall
  have hquotes : ∀ c ∈ text ++ [quote, quote, quote], decide (c = quote) = true := by
    intro c hc
    rcases List.mem_append.mp hc with htext | hend
    · exact hall c htext
    · simpa using hend
  have hstop : rest.takeWhile (· = quote) = [] := by
    cases rest with
    | nil => rfl
    | cons c rest => exact List.takeWhile_cons_of_neg (by simpa using hrest)
  have hleading : (text ++ ([quote, quote, quote] ++ rest)).takeWhile (· = quote) =
      text ++ [quote, quote, quote] := by
    rw [← List.append_assoc, List.takeWhile_append_of_pos hquotes, hstop, List.append_nil]
  have htext : text = List.replicate text.length quote :=
    List.eq_replicate_iff.mpr ⟨rfl, fun c hc => by simpa using hall c hc⟩
  have hown : min (text.length + (0 + 1 + 1 + 1) - 3) 2 = text.length := by omega
  simp only [closing?, hleading, List.length_append, List.length_cons, List.length_nil]
  rw [if_neg (by omega), hown, ← htext, ← List.append_assoc, List.drop_left' (by simp)]

/-- Where something else stands in front of the closing quotes, they do not close yet. -/
theorem closing?_of_other (rest : List Char) (hall : ¬ text.all (· = quote) = true)
    (hlead : quotesInFront quote text ≤ 2) :
    closing? quote (text ++ ([quote, quote, quote] ++ rest)) = none := by
  have hleading : (text ++ ([quote, quote, quote] ++ rest)).takeWhile (· = quote) =
      text.takeWhile (· = quote) := by
    rw [List.takeWhile_append, if_neg]
    intro hlength
    exact hall (List.all_eq_true.mpr (List.takeWhile_eq_self_iff.mp
      ((List.takeWhile_prefix _).eq_of_length hlength)))
  rw [closing?_eq_none_iff, quotesInFront, hleading]
  exact Nat.lt_succ_of_le hlead

/-- Few quotes with those in front of them do not close. -/
theorem eq_zero_of_closing? {seen : Nat} {found : List Char × List Char}
    (hclose : closing? quote input = some found)
    (hseen : seen = 0 ∨ quotesInFront quote input + seen < 3) : seen = 0 := by
  refine hseen.resolve_right fun hrun => ?_
  rw [closing?_eq_none_iff.mpr (by omega)] at hclose
  cases hclose

theorem length_le_of_quotes {seen : Nat} (hall : text.all (· = quote) = true)
    (hrun : quotesInFront quote text + seen ≤ 2) : text.length ≤ 2 := by
  rw [quotesInFront, List.takeWhile_eq_self_iff.mpr (List.all_eq_true.mp hall)] at hrun
  omega

end Closing

section Block

variable {seen : Nat} {quote : Char} {input rest body text : List Char}

/-- Where quotes go on in front of a position, they go on behind it. -/
theorem quotesInFront_next {c : Char} (hclose : closing? quote (c :: input) = none)
    (hquote : c = quote) (hseen : seen = 0 ∨ quotesInFront quote (c :: input) + seen < 3) :
    seen < 2 ∧ quotesInFront quote input + (seen + 1) < 3 := by
  subst hquote
  have hrun := closing?_eq_none_iff.mp hclose
  rw [quotesInFront_cons_self] at hrun hseen
  omega

theorem Grammar.BasicBlock.replicate {count : Nat} (hcount : count + seen ≤ 2) :
    BasicBlock seen (List.replicate count '"') (List.replicate count '"') := by
  induction count generalizing seen with
  | zero => exact .nil
  | succ count ih => exact .quote (by omega) (ih (by omega))

theorem not_isPlain_of_lineEnd : ¬ IsPlain '\n' ∧ ¬ IsPlain '\r' := by
  simp [IsPlain]

/-- A carriage return in a string is one half of a line end. -/
theorem Grammar.BasicBlock.newline_of_return {more : List Char}
    (hbody : BasicBlock seen ('\r' :: more) text) : ∃ later, more = '\n' :: later := by
  generalize hspelled : '\r' :: more = spelled at hbody
  cases hbody with
  | nil => cases hspelled
  | quote => cases hspelled
  | plain hplain =>
      cases hspelled
      exact absurd hplain not_isPlain_of_lineEnd.2
  | newline hnewline =>
      cases hnewline with
      | feed => cases hspelled
      | returnFeed =>
          cases hspelled
          exact ⟨_, rfl⟩
  | escape hpiece =>
      obtain ⟨letter, tail, rfl, -⟩ := hpiece.exists_letter
      cases hspelled
  | fold => cases hspelled

theorem Grammar.LiteralBlock.newline_of_return {more : List Char}
    (hbody : LiteralBlock seen ('\r' :: more) text) : ∃ later, more = '\n' :: later := by
  generalize hspelled : '\r' :: more = spelled at hbody
  cases hbody with
  | nil => cases hspelled
  | quote => cases hspelled
  | plain hplain =>
      cases hspelled
      exact absurd hplain not_isPlain_of_lineEnd.2
  | newline hnewline =>
      cases hnewline with
      | feed => cases hspelled
      | returnFeed =>
          cases hspelled
          exact ⟨_, rfl⟩

/-- Up to its closing quotes a string is read as the grammar has it. -/
theorem blockBasicText_sound (h : blockBasicText input = some (text, rest))
    (hseen : seen = 0 ∨ quotesInFront '"' input + seen < 3) :
    ∃ body, input = body ++ ['"', '"', '"'] ++ rest ∧ BasicBlock seen body text := by
  fun_induction blockBasicText input generalizing text seen with
  | case1 => cases h
  | case2 c more found hclose =>
      cases h
      obtain ⟨count, hcount, rfl, hinput⟩ := closing?_sound hclose
      obtain rfl := eq_zero_of_closing? hclose hseen
      exact ⟨_, hinput, .replicate hcount⟩
  | case3 input more hfold hclose ih =>
      obtain ⟨body, rfl, hbody⟩ := ih h (Or.inl rfl)
      obtain ⟨blanks, newline, skipped, hblanks, hnewline, hskipped, rfl, hhead, hnone⟩ :=
        foldedLine?_sound hfold
      refine ⟨'\\' :: blanks ++ newline ++ skipped ++ body, by simp, ?_⟩
      refine .fold hblanks hnewline hskipped (fun c hc => ?_) hbody
      cases body with
      | nil => cases hc
      | cons first later =>
          cases hc
          have hother := hhead c (by simp)
          simp only [List.mem_cons, List.not_mem_nil, or_false, not_or] at hother ⊢
          refine ⟨hother.1, hother.2.1, hother.2.2, ?_⟩
          rintro rfl
          obtain ⟨_, rfl⟩ := hbody.newline_of_return
          cases hnone
  | case4 => cases h
  | case5 input hfold c more hescape hclose ih =>
      obtain ⟨⟨later, last⟩, hlater, heq⟩ := Option.map_eq_some_iff.mp h
      cases heq
      obtain ⟨body, rfl, hbody⟩ := ih hlater (Or.inl rfl)
      obtain ⟨piece, hpiece, hspells⟩ := escape?_eq_some_iff.mp hescape
      exact ⟨piece ++ body, by rw [hpiece]; simp, .escape hspells hbody⟩
  | case6 c input hclose hbackslash more hline ih =>
      obtain ⟨⟨later, last⟩, hlater, heq⟩ := Option.map_eq_some_iff.mp h
      cases heq
      obtain ⟨body, rfl, hbody⟩ := ih hlater (Or.inl rfl)
      obtain ⟨newline, hnewline, hinput⟩ := afterNewline?_eq_some_iff.mp hline
      exact ⟨newline ++ body, by rw [hinput]; simp, .newline hnewline hbody⟩
  | case7 c input hclose hbackslash hline hc ih =>
      obtain ⟨⟨later, last⟩, hlater, heq⟩ := Option.map_eq_some_iff.mp h
      cases heq
      by_cases hquote : c = '"'
      · obtain ⟨hfew, hrun⟩ := quotesInFront_next hclose hquote hseen
        obtain ⟨body, rfl, hbody⟩ := ih hlater (Or.inr hrun)
        subst hquote
        exact ⟨'"' :: body, rfl, .quote hfew hbody⟩
      · obtain ⟨body, rfl, hbody⟩ := ih hlater (Or.inl rfl)
        have hbasic : isBasicChar c = true := by simpa [hquote] using hc
        exact ⟨c :: body, rfl, .plain (isBasicChar_iff.mp hbasic).1 hquote hbackslash hbody⟩
  | case8 => cases h

theorem quotesInFront_newline {newline : List Char} (hnewline : Newline newline)
    (hquote : quote ≠ '\n' ∧ quote ≠ '\r') (rest : List Char) :
    quotesInFront quote (newline ++ rest) = 0 := by
  cases hnewline with
  | feed => exact quotesInFront_cons hquote.1.symm rest
  | returnFeed => exact quotesInFront_cons hquote.2.symm _

/-- A string has no more than two quotes in a row. -/
theorem Grammar.BasicBlock.quotesInFront_le (hbody : BasicBlock seen body text) (hseen : seen ≤ 2) :
    quotesInFront '"' body + seen ≤ 2 := by
  induction hbody with
  | nil => simpa [quotesInFront] using hseen
  | quote hfew _ ih =>
      rw [quotesInFront_cons_self]
      have := ih hfew
      omega
  | plain _ hquote => rwa [quotesInFront_cons hquote, Nat.zero_add]
  | newline hnewline => rwa [quotesInFront_newline hnewline (by decide), Nat.zero_add]
  | escape hpiece =>
      obtain ⟨letter, tail, rfl, -⟩ := hpiece.exists_letter
      rw [List.cons_append, quotesInFront_cons (by decide), Nat.zero_add]
      exact hseen
  | fold =>
      simp only [List.cons_append]
      rw [quotesInFront_cons (by decide), Nat.zero_add]
      exact hseen

/-- A string of quotes only stands for these. -/
theorem Grammar.BasicBlock.eq_of_quotes (hbody : BasicBlock seen body text)
    (hall : body.all (· = '"') = true) : text = body := by
  induction hbody with
  | nil => rfl
  | quote _ _ ih =>
      rw [List.all_cons, Bool.and_eq_true] at hall
      rw [ih hall.2]
  | plain _ hquote =>
      rw [List.all_cons, Bool.and_eq_true] at hall
      exact absurd (of_decide_eq_true hall.1) hquote
  | newline hnewline => cases hnewline <;> simp at hall
  | escape hpiece =>
      obtain ⟨letter, tail, rfl, -⟩ := hpiece.exists_letter
      simp at hall
  | fold => simp at hall

theorem blockBasicText_of_closing {c : Char}
    (hclose : closing? '"' (c :: input) = some (text, rest)) :
    blockBasicText (c :: input) = some (text, rest) := by
  rw [blockBasicText, hclose]

theorem blockBasicText_escape {c : Char} (hclose : closing? '"' ('\\' :: input) = none)
    (hfold : foldedLine? input = none) (hescape : escape? input = some (c, rest)) :
    blockBasicText ('\\' :: input) = (blockBasicText rest).map fun (text, after) =>
      (c :: text, after) := by
  rw [blockBasicText, hclose]
  simp only [if_true]
  rw [hfold]
  simp only
  rw [hescape]

theorem blockBasicText_fold (hclose : closing? '"' ('\\' :: input) = none)
    (hfold : foldedLine? input = some rest) :
    blockBasicText ('\\' :: input) = blockBasicText rest := by
  rw [blockBasicText, hclose]
  simp only [if_true]
  rw [hfold]

theorem blockBasicText_newline {c : Char} (hclose : closing? '"' (c :: input) = none)
    (hbackslash : c ≠ '\\') (hline : afterNewline? (c :: input) = some rest) :
    blockBasicText (c :: input) = (blockBasicText rest).map fun (text, after) =>
      ('\n' :: text, after) := by
  rw [blockBasicText, hclose]
  simp only [hbackslash, if_false]
  rw [hline]

theorem blockBasicText_raw {c : Char} (hclose : closing? '"' (c :: input) = none)
    (hc : c = '"' ∨ isBasicChar c = true) :
    blockBasicText (c :: input) = (blockBasicText input).map fun (text, after) =>
      (c :: text, after) := by
  have hbackslash : c ≠ '\\' := by
    rintro rfl
    exact absurd hc (by decide)
  have hnewline : c ≠ '\n' := by
    rintro rfl
    exact absurd hc (by decide)
  have hreturn : c ≠ '\r' := by
    rintro rfl
    exact absurd hc (by decide)
  rw [blockBasicText, hclose]
  simp only [hbackslash, if_false]
  rw [afterNewline?_eq_none hnewline hreturn]
  simp only
  rw [if_pos (by simpa using hc)]

/-- Quotes in front of the closing ones are read with these. -/
theorem blockBasicText_of_quotes (hbody : BasicBlock seen body text) (hseen : seen ≤ 2)
    (hall : body.all (· = '"') = true) (hrest : rest.head? ≠ some '"') :
    blockBasicText (body ++ (['"', '"', '"'] ++ rest)) = some (text, rest) := by
  have hlength := length_le_of_quotes hall (hbody.quotesInFront_le hseen)
  have hclose := closing?_of_quotes hall hlength hrest
  rw [hbody.eq_of_quotes hall]
  cases body with
  | nil => exact blockBasicText_of_closing hclose
  | cons c body => exact blockBasicText_of_closing hclose

theorem closing?_cons_of_ne {c : Char} (hc : c ≠ quote) (rest : List Char) :
    closing? quote (c :: rest) = none := by
  rw [closing?_eq_none_iff, quotesInFront_cons hc]
  decide

/-- What the grammar has between three quotes is read up to the last three of the quotes that come
next. -/
theorem blockBasicText_complete (hbody : BasicBlock seen body text) (hseen : seen ≤ 2)
    (hrest : rest.head? ≠ some '"') :
    blockBasicText (body ++ (['"', '"', '"'] ++ rest)) = some (text, rest) := by
  induction hbody with
  | nil => exact blockBasicText_of_quotes .nil hseen rfl hrest
  | @quote seen body text hfew hbody ih =>
      have hquote := BasicBlock.quote hfew hbody
      by_cases hall : ('"' :: body).all (· = '"') = true
      · exact blockBasicText_of_quotes hquote hseen hall hrest
      · have hrun := hquote.quotesInFront_le hseen
        have hclose := closing?_of_other rest hall (by omega)
        rw [List.cons_append] at hclose ⊢
        rw [blockBasicText_raw hclose (Or.inl rfl), ih hfew]
        rfl
  | @plain seen c body text hplain hquote hbackslash _ ih =>
      have hbasic := isBasicChar_iff.mpr ⟨hplain, hquote, hbackslash⟩
      rw [List.cons_append, blockBasicText_raw (closing?_cons_of_ne hquote _) (Or.inr hbasic),
        ih (Nat.zero_le 2)]
      rfl
  | @newline seen newline body text hnewline _ ih =>
      have hline := afterNewline?_append hnewline (body ++ (['"', '"', '"'] ++ rest))
      obtain ⟨c, more, hcons, hquote, hbackslash⟩ :
          ∃ c more, newline = c :: more ∧ c ≠ '"' ∧ c ≠ '\\' := by
        cases hnewline <;> exact ⟨_, _, rfl, by decide, by decide⟩
      rw [hcons, List.cons_append] at hline
      rw [hcons, List.append_assoc, List.cons_append,
        blockBasicText_newline (closing?_cons_of_ne hquote _) hbackslash hline, ih (Nat.zero_le 2)]
      rfl
  | @escape seen piece body text c hpiece _ ih =>
      obtain ⟨letter, tail, rfl, hletter⟩ := hpiece.exists_letter
      have hescape : escape? (letter :: tail ++ (body ++ (['"', '"', '"'] ++ rest))) =
          some (c, body ++ (['"', '"', '"'] ++ rest)) :=
        escape?_eq_some_iff.mpr ⟨_, rfl, hpiece⟩
      have hfold : foldedLine? (letter :: tail ++ (body ++ (['"', '"', '"'] ++ rest))) = none :=
        foldedLine?_eq_none hletter _
      rw [List.append_assoc, List.cons_append,
        blockBasicText_escape (closing?_cons_of_ne (by decide) _) hfold hescape, ih (Nat.zero_le 2)]
      rfl
  | @fold seen blanks newline skipped body text hblanks hnewline hskipped hnext _ ih =>
      have hstop : ∀ c ∈ (body ++ (['"', '"', '"'] ++ rest)).head?,
          c ∉ [' ', '\t', '\n', '\r'] := by
        intro c hc
        cases body with
        | nil =>
            cases hc
            decide
        | cons first body => exact hnext c hc
      have hfold := foldedLine?_append hblanks hnewline hskipped hstop
      have hinput : '\\' :: blanks ++ newline ++ skipped ++ body ++ (['"', '"', '"'] ++ rest) =
          '\\' :: (blanks ++ newline ++ skipped ++ (body ++ (['"', '"', '"'] ++ rest))) := by simp
      rw [hinput, blockBasicText_fold (closing?_cons_of_ne (by decide) _) hfold,
        ih (Nat.zero_le 2)]

end Block

section LiteralBlock

variable {seen : Nat} {quote : Char} {input rest body text : List Char}

theorem Grammar.LiteralBlock.replicate {count : Nat} (hcount : count + seen ≤ 2) :
    LiteralBlock seen (List.replicate count '\'') (List.replicate count '\'') := by
  induction count generalizing seen with
  | zero => exact .nil
  | succ count ih => exact .quote (by omega) (ih (by omega))

theorem blockLiteralText_sound (h : blockLiteralText input = some (text, rest))
    (hseen : seen = 0 ∨ quotesInFront '\'' input + seen < 3) :
    ∃ body, input = body ++ ['\'', '\'', '\''] ++ rest ∧ LiteralBlock seen body text := by
  fun_induction blockLiteralText input generalizing text seen with
  | case1 => cases h
  | case2 c more found hclose =>
      cases h
      obtain ⟨count, hcount, rfl, hinput⟩ := closing?_sound hclose
      obtain rfl := eq_zero_of_closing? hclose hseen
      exact ⟨_, hinput, .replicate hcount⟩
  | case3 c input hclose more hline ih =>
      obtain ⟨⟨later, last⟩, hlater, heq⟩ := Option.map_eq_some_iff.mp h
      cases heq
      obtain ⟨body, rfl, hbody⟩ := ih hlater (Or.inl rfl)
      obtain ⟨newline, hnewline, hinput⟩ := afterNewline?_eq_some_iff.mp hline
      exact ⟨newline ++ body, by rw [hinput]; simp, .newline hnewline hbody⟩
  | case4 c input hclose hline hc ih =>
      obtain ⟨⟨later, last⟩, hlater, heq⟩ := Option.map_eq_some_iff.mp h
      cases heq
      by_cases hquote : c = '\''
      · obtain ⟨hfew, hrun⟩ := quotesInFront_next hclose hquote hseen
        obtain ⟨body, rfl, hbody⟩ := ih hlater (Or.inr hrun)
        subst hquote
        exact ⟨'\'' :: body, rfl, .quote hfew hbody⟩
      · obtain ⟨body, rfl, hbody⟩ := ih hlater (Or.inl rfl)
        exact ⟨c :: body, rfl, .plain (isCommentChar_iff.mp hc) hquote hbody⟩
  | case5 => cases h

theorem Grammar.LiteralBlock.quotesInFront_le (hbody : LiteralBlock seen body text)
    (hseen : seen ≤ 2) : quotesInFront '\'' body + seen ≤ 2 := by
  induction hbody with
  | nil => simpa [quotesInFront] using hseen
  | quote hfew _ ih =>
      rw [quotesInFront_cons_self]
      have := ih hfew
      omega
  | plain _ hquote => rwa [quotesInFront_cons hquote, Nat.zero_add]
  | newline hnewline => rwa [quotesInFront_newline hnewline (by decide), Nat.zero_add]

theorem Grammar.LiteralBlock.eq_of_quotes (hbody : LiteralBlock seen body text)
    (hall : body.all (· = '\'') = true) : text = body := by
  induction hbody with
  | nil => rfl
  | quote _ _ ih =>
      rw [List.all_cons, Bool.and_eq_true] at hall
      rw [ih hall.2]
  | plain _ hquote =>
      rw [List.all_cons, Bool.and_eq_true] at hall
      exact absurd (of_decide_eq_true hall.1) hquote
  | newline hnewline => cases hnewline <;> simp at hall

theorem blockLiteralText_of_closing {c : Char}
    (hclose : closing? '\'' (c :: input) = some (text, rest)) :
    blockLiteralText (c :: input) = some (text, rest) := by
  rw [blockLiteralText, hclose]

theorem blockLiteralText_newline {c : Char} (hclose : closing? '\'' (c :: input) = none)
    (hline : afterNewline? (c :: input) = some rest) :
    blockLiteralText (c :: input) = (blockLiteralText rest).map fun (text, after) =>
      ('\n' :: text, after) := by
  rw [blockLiteralText, hclose]
  simp only
  rw [hline]

theorem blockLiteralText_raw {c : Char} (hclose : closing? '\'' (c :: input) = none)
    (hc : isCommentChar c = true) :
    blockLiteralText (c :: input) = (blockLiteralText input).map fun (text, after) =>
      (c :: text, after) := by
  have hnewline : c ≠ '\n' := by
    rintro rfl
    exact absurd hc (by decide)
  have hreturn : c ≠ '\r' := by
    rintro rfl
    exact absurd hc (by decide)
  rw [blockLiteralText, hclose]
  simp only
  rw [afterNewline?_eq_none hnewline hreturn]
  simp only
  rw [if_pos hc]

theorem blockLiteralText_of_quotes (hbody : LiteralBlock seen body text) (hseen : seen ≤ 2)
    (hall : body.all (· = '\'') = true) (hrest : rest.head? ≠ some '\'') :
    blockLiteralText (body ++ (['\'', '\'', '\''] ++ rest)) = some (text, rest) := by
  have hlength := length_le_of_quotes hall (hbody.quotesInFront_le hseen)
  have hclose := closing?_of_quotes hall hlength hrest
  rw [hbody.eq_of_quotes hall]
  cases body with
  | nil => exact blockLiteralText_of_closing hclose
  | cons c body => exact blockLiteralText_of_closing hclose

theorem blockLiteralText_complete (hbody : LiteralBlock seen body text) (hseen : seen ≤ 2)
    (hrest : rest.head? ≠ some '\'') :
    blockLiteralText (body ++ (['\'', '\'', '\''] ++ rest)) = some (text, rest) := by
  induction hbody with
  | nil => exact blockLiteralText_of_quotes .nil hseen rfl hrest
  | @quote seen body text hfew hbody ih =>
      have hquote := LiteralBlock.quote hfew hbody
      by_cases hall : ('\'' :: body).all (· = '\'') = true
      · exact blockLiteralText_of_quotes hquote hseen hall hrest
      · have hrun := hquote.quotesInFront_le hseen
        have hclose := closing?_of_other rest hall (by omega)
        rw [List.cons_append] at hclose ⊢
        rw [blockLiteralText_raw hclose (by decide), ih hfew]
        rfl
  | @plain seen c body text hplain hquote _ ih =>
      rw [List.cons_append, blockLiteralText_raw (closing?_cons_of_ne hquote _)
        (isCommentChar_iff.mpr hplain), ih (Nat.zero_le 2)]
      rfl
  | @newline seen newline body text hnewline _ ih =>
      have hline := afterNewline?_append hnewline (body ++ (['\'', '\'', '\''] ++ rest))
      obtain ⟨c, more, hcons, hquote⟩ : ∃ c more, newline = c :: more ∧ c ≠ '\'' := by
        cases hnewline <;> exact ⟨_, _, rfl, by decide⟩
      rw [hcons, List.cons_append] at hline
      rw [hcons, List.append_assoc, List.cons_append,
        blockLiteralText_newline (closing?_cons_of_ne hquote _) hline, ih (Nat.zero_le 2)]
      rfl

end LiteralBlock

end PadBridge.Toml
