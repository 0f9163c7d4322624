import PadBridge.Proofs.Toml.Nesting
import PadBridge.Proofs.Toml.TopLevel

/-!
Documents are read as the grammar has them: a text is read exactly if it is a document, and what is
read shows the top level of its lines.
-/

namespace PadBridge.Toml

open Grammar

variable {input rest spelled : List Char}

section Statement

theorem blanks_nil : Blanks [] :=
  fun _ h => nomatch h

theorem header_sound {said : Statement} (h : Reads header input said rest) :
    (∃ spelled, '[' :: input = spelled ++ rest ∧ LineText .reading spelled (some said.line))
      ∧ said.IsWritten := by
  obtain ⟨_, _, hbracket, hnext⟩ := Reads.bind_iff.mp h
  rcases Reads.accept_iff.mp hbracket with ⟨rfl, rfl⟩ | ⟨rfl, -, rfl⟩
  · simp only [if_true, Reads.bind_iff, Reads.exact_iff, Reads.pure_iff] at hnext
    obtain ⟨key, _, hkey, _, _, rfl, rfl, rfl⟩ := hnext
    obtain ⟨before, spelled, after, rfl, hbefore, hspelled, hafter, hparts⟩ := key_sound hkey
    exact ⟨⟨'[' :: '[' :: (before ++ spelled ++ after) ++ [']', ']'], by simp,
      .nextHeader (.mk hbefore hspelled hparts hafter)⟩, trivial⟩
  · simp only [Bool.false_eq_true, if_false, Reads.bind_iff, Reads.exact_iff, Reads.pure_iff]
      at hnext
    obtain ⟨key, _, hkey, _, _, rfl, rfl, rfl⟩ := hnext
    obtain ⟨before, spelled, after, rfl, hbefore, hspelled, hafter, hparts⟩ := key_sound hkey
    exact ⟨⟨'[' :: (before ++ spelled ++ after) ++ [']'], by simp,
      .header (.mk hbefore hspelled hparts hafter)⟩, trivial⟩

theorem statement_sound {said : Option Statement} (h : Reads statement input said rest) :
    (∃ before spelled, input = before ++ spelled ++ rest ∧ Blanks before
        ∧ LineText .reading spelled (said.map Statement.line))
      ∧ ∀ found ∈ said, found.IsWritten := by
  obtain ⟨_, _, hblank, hnext⟩ := Reads.bind_iff.mp h
  obtain ⟨blanks, rfl, hblanks, -⟩ := Reads.blanks_sound hblank
  obtain ⟨_, _, hfront, hsaid⟩ := Reads.bind_iff.mp hnext
  obtain ⟨rfl, rfl⟩ := Reads.front_iff.mp hfront
  have silent : ∀ {input}, Reads (pure none) input said rest →
      (∃ before spelled, blanks ++ input = before ++ spelled ++ rest ∧ Blanks before
          ∧ LineText .reading spelled (said.map Statement.line))
        ∧ ∀ found ∈ said, found.IsWritten := by
    intro input hread
    obtain ⟨rfl, rfl⟩ := Reads.pure_iff.mp hread
    exact ⟨⟨blanks, [], by simp, hblanks, .empty⟩, nofun⟩
  split at hsaid
  · exact silent hsaid
  · exact silent hsaid
  · exact silent hsaid
  · exact silent hsaid
  · simp only [Reads.bind_iff, Reads.exact_iff, Reads.pure_iff] at hsaid
    obtain ⟨_, _, rfl, found, _, hheader, rfl, rfl⟩ := hsaid
    obtain ⟨⟨spelled, hinput, hspelled⟩, hwritten⟩ := header_sound hheader
    refine ⟨⟨blanks, spelled, ?_, hblanks, hspelled⟩, by simpa using hwritten⟩
    rw [List.append_assoc, ← hinput]
    rfl
  · obtain ⟨⟨key, value⟩, _, hpair, hdone⟩ := Reads.bind_iff.mp hsaid
    obtain ⟨rfl, rfl⟩ := Reads.pure_iff.mp hdone
    obtain ⟨before, spelled, rfl, hbefore, hspelled, hrole⟩ :=
      (scans_value (depthLimit - 1)).pair_sound hpair
    have hboth : Blanks (blanks ++ before) := List.forall_mem_append.mpr ⟨hblanks, hbefore⟩
    refine ⟨⟨blanks ++ before, spelled, by simp, hboth, .entry hspelled⟩, ?_⟩
    rintro _ ⟨⟩
    exact hrole

/-- No line begins with a byte order mark. -/
theorem not_reads_mark {said : Option Statement} :
    ¬ Reads statement ('\uFEFF' :: input) said rest := by
  intro h
  obtain ⟨_, middle, hblank, hnext⟩ := Reads.bind_iff.mp h
  obtain rfl : middle = '\uFEFF' :: input := Reads.pass_iff.mp hblank
  obtain ⟨_, _, hfront, hsaid⟩ := Reads.bind_iff.mp hnext
  obtain ⟨rfl, rfl⟩ := Reads.front_iff.mp hfront
  obtain ⟨_, _, hpair, -⟩ := Reads.bind_iff.mp hsaid
  obtain ⟨key, _, hkey, -⟩ := Reads.bind_iff.mp hpair
  obtain ⟨before, spelled, after, hinput, hbefore, hspelled, -, -⟩ := key_sound hkey
  obtain ⟨c, more, rfl, hc⟩ := hspelled.exists_cons
  cases before with
  | nil =>
      cases hinput
      cases hc
  | cons first before =>
      cases hinput
      rcases hbefore _ List.mem_cons_self with hfirst | hfirst <;> cases hfirst

theorem header_complete {inner : List Char} {key : Key} (hinner : HeaderText .reading inner key)
    (rest : List Char) : Reads header (inner ++ ']' :: rest) (.header key) rest := by
  obtain ⟨hbefore, hkey, hparts, hafter⟩ := hinner
  rename_i before spelled after
  have hbracket : ¬ "[".toList <+: before ++ spelled ++ after ++ ']' :: rest := by
    obtain ⟨c, more, rfl, hc⟩ := hkey.exists_cons
    cases before with
    | nil =>
        refine not_prefix_of_ne ?_ _
        rintro rfl
        cases hc
    | cons first before =>
        refine not_prefix_of_ne ?_ _
        rintro rfl
        rcases hbefore _ List.mem_cons_self with hfirst | hfirst <;> cases hfirst
  exact .bind (.accept_false hbracket)
    (.bind (key_complete hkey hparts hbefore hafter (Or.inr rfl) rest)
      (.bind (.exact "]" rest) (.pure _ _)))

theorem nextHeader_complete {inner : List Char} {key : Key}
    (hinner : HeaderText .reading inner key) (rest : List Char) :
    Reads header ('[' :: (inner ++ ']' :: ']' :: rest)) (.nextHeader key) rest := by
  obtain ⟨hbefore, hkey, hparts, hafter⟩ := hinner
  exact .bind (.accept_true "[" _)
    (.bind (key_complete hkey hparts hbefore hafter (Or.inr rfl) (']' :: rest))
      (.bind (.exact "]]" rest) (.pure _ _)))

/-- An entry begins with its key. -/
theorem entry_complete {before pair : List Char} {key : Key} {item : Item}
    (hpair : PairText .reading (IsValue .reading Limits.reading.nesting) pair key item)
    (hbefore : Blanks before) (hrest : Ends rest) :
    ∃ value, Reads statement (before ++ (pair ++ rest)) (some (.entry key value)) rest
      ∧ value.shown = item := by
  obtain ⟨found, hfound, hshown⟩ :=
    (scans_value (depthLimit - 1)).pair_complete hpair blanks_nil hrest
  obtain ⟨hkey, -, -, -, -⟩ := hpair
  obtain ⟨c, more, rfl, hc⟩ := hkey.exists_cons
  refine ⟨found, .bind (.blanks hbefore (stops_cons (not_isBlank_of_opensKey hc) _))
    (.bind (.front _) ?_), hshown⟩
  split
  · rename_i hnone
    cases hnone
  · rename_i hfront
    cases hfront
    cases hc
  · rename_i hfront
    cases hfront
    cases hc
  · rename_i hfront
    cases hfront
    cases hc
  · rename_i hfront
    cases hfront
    cases hc
  · exact .bind hfound (.pure _ _)

theorem statement_complete {before : List Char} {line : Line}
    (hspelled : LineText .reading spelled (some line)) (hbefore : Blanks before)
    (hrest : Ends rest) :
    ∃ found, Reads statement (before ++ (spelled ++ rest)) (some found) rest
      ∧ found.line = line := by
  cases hspelled with
  | entry hpair =>
      obtain ⟨value, hvalue, rfl⟩ := entry_complete hpair hbefore hrest
      exact ⟨.entry _ value, hvalue, rfl⟩
  | @header inner key hinner =>
      have hinput : '[' :: inner ++ [']'] ++ rest = '[' :: (inner ++ ']' :: rest) := by simp
      rw [hinput]
      exact ⟨.header key, .bind (.blanks hbefore (stops_cons rfl _)) (.bind (.front _)
        (.bind (.exact "[" _) (.bind (header_complete hinner rest) (.pure _ _)))), rfl⟩
  | @nextHeader inner key hinner =>
      have hinput : '[' :: '[' :: inner ++ [']', ']'] ++ rest =
          '[' :: '[' :: (inner ++ ']' :: ']' :: rest) := by simp
      rw [hinput]
      exact ⟨.nextHeader key, .bind (.blanks hbefore (stops_cons rfl _)) (.bind (.front _)
        (.bind (.exact "[" _) (.bind (nextHeader_complete hinner rest) (.pure _ _)))), rfl⟩

end Statement

section Line

/-- What stands at the end of a line: a line end, or nothing at the end of the text. -/
inductive LineEnd : List Char → List Char → Prop where
  | text : LineEnd [] []
  | newline {newline rest : List Char} (hnewline : Newline newline) : LineEnd (newline ++ rest) rest

theorem lineEnd_iff {done : Unit} : Reads lineEnd input done rest ↔ LineEnd input rest := by
  constructor
  · intro h
    obtain ⟨_, _, hfront, hnext⟩ := Reads.bind_iff.mp h
    obtain ⟨rfl, rfl⟩ := Reads.front_iff.mp hfront
    split at hnext
    · rename_i hnone
      obtain ⟨-, rfl⟩ := Reads.pure_iff.mp hnext
      rw [List.head?_eq_none_iff.mp hnone]
      exact .text
    · obtain ⟨newline, hnewline, rfl⟩ := Reads.newline_iff.mp hnext
      exact .newline hnewline
  · rintro (_ | hnewline)
    · exact .bind (.front _) (.pure _ _)
    · have hline := Reads.newline hnewline rest
      obtain ⟨c, more, rfl, -⟩ := hnewline.exists_cons
      exact .bind (.front _) hline

theorem endOfLine_sound {done : Unit} (h : Reads endOfLine input done rest) :
    ∃ blanks comment tail, input = blanks ++ comment ++ tail ∧ Blanks blanks ∧ Comment comment
      ∧ LineEnd tail rest := by
  obtain ⟨_, _, hblank, hnext⟩ := Reads.bind_iff.mp h
  obtain ⟨blanks, rfl, hblanks, -⟩ := Reads.blanks_sound hblank
  obtain ⟨_, _, hfront, hcomment⟩ := Reads.bind_iff.mp hnext
  obtain ⟨rfl, rfl⟩ := Reads.front_iff.mp hfront
  split at hcomment
  · rename_i hhash
    obtain ⟨comment, _, hrun, hend⟩ := Reads.bind_iff.mp hcomment
    obtain ⟨rfl, hsaid⟩ := comment_sound hhash hrun
    exact ⟨blanks, comment, _, by simp, hblanks, hsaid, lineEnd_iff.mp hend⟩
  · exact ⟨blanks, [], _, by simp, hblanks, .none, lineEnd_iff.mp hcomment⟩

theorem LineEnd.stops {tail : List Char} (htail : LineEnd tail rest) {accepts : Char → Bool}
    (hfeed : accepts '\n' = false) (hreturn : accepts '\r' = false) : Stops accepts tail := by
  cases htail with
  | text => rintro _ ⟨⟩
  | newline hnewline => exact hnewline.stops hfeed hreturn rest

theorem LineEnd.ends {tail : List Char} (htail : LineEnd tail rest) : Ends tail := by
  cases htail with
  | text => rintro _ ⟨⟩
  | newline hnewline => exact ends_newline hnewline rest

theorem endOfLine_complete {blanks comment tail : List Char} (hblanks : Blanks blanks)
    (hcomment : Comment comment) (htail : LineEnd tail rest) :
    Reads endOfLine (blanks ++ (comment ++ tail)) () rest := by
  have hrun := Reads.run_iff.mpr ⟨rfl, hcomment.isCommentChar, htail.stops rfl rfl⟩
  have hend : Reads lineEnd tail () rest := lineEnd_iff.mpr htail
  cases hcomment with
  | none =>
      refine .bind (.blanks hblanks (htail.stops rfl rfl)) (.bind (.front _) ?_)
      have hstop : Stops (fun c => c = '#') tail := htail.stops rfl rfl
      split
      · rename_i hhash
        cases hstop '#' hhash
      · exact hend
  | some hsaid =>
      exact .bind (.blanks hblanks (stops_cons rfl _)) (.bind (.front _) (.bind hrun hend))

theorem line_sound {said : Option Statement} {more : Bool}
    (h : Reads line input (said, more) rest) :
    (∃ spelled tail, input = spelled ++ tail ∧ LineEnd tail rest
        ∧ WholeLine .reading spelled (said.map Statement.line))
      ∧ more = rest.head?.isSome ∧ ∀ found ∈ said, found.IsWritten := by
  obtain ⟨found, _, hstatement, hnext⟩ := Reads.bind_iff.mp h
  obtain ⟨⟨before, spelled, rfl, hbefore, hspelled⟩, hwritten⟩ := statement_sound hstatement
  have ended : ∀ {input}, Reads endOfLine input () rest →
      ∃ after tail, before ++ spelled ++ input = after ++ tail ∧ LineEnd tail rest
        ∧ WholeLine .reading after (found.map Statement.line) := by
    intro input hend
    obtain ⟨blanks, comment, tail, rfl, hblanks, hcomment, htail⟩ := endOfLine_sound hend
    exact ⟨before ++ spelled ++ blanks ++ comment, tail, by simp, htail,
      .mk hbefore hspelled hblanks hcomment⟩
  cases found with
  | some found =>
      simp only [Reads.bind_iff, Reads.front_iff, Reads.pure_iff, Prod.mk.injEq] at hnext
      obtain ⟨_, _, hend, _, _, ⟨rfl, rfl⟩, ⟨rfl, rfl⟩, rfl⟩ := hnext
      exact ⟨ended hend, rfl, hwritten⟩
  | none =>
      simp only [Reads.bind_iff, Reads.blaming_iff, Reads.front_iff, Reads.pure_iff,
        Prod.mk.injEq] at hnext
      obtain ⟨_, _, hend, _, _, ⟨rfl, rfl⟩, ⟨rfl, rfl⟩, rfl⟩ := hnext
      exact ⟨ended hend, rfl, hwritten⟩

theorem line_complete {tail : List Char} {said : Option Line}
    (hspelled : WholeLine .reading spelled said) (htail : LineEnd tail rest) :
    ∃ found, Reads line (spelled ++ tail) (found, rest.head?.isSome) rest
      ∧ found.map Statement.line = said := by
  obtain ⟨hbefore, hsaid, hafter, hcomment⟩ := hspelled
  rename_i before spelled after comment
  have hends : Ends (after ++ (comment ++ tail)) :=
    ends_blanks hafter (ends_comment hcomment htail.ends)
  cases said with
  | some said =>
      obtain ⟨found, hfound, rfl⟩ := statement_complete hsaid hbefore hends
      have hinput : before ++ spelled ++ after ++ comment ++ tail =
          before ++ (spelled ++ (after ++ (comment ++ tail))) := by simp
      rw [hinput]
      exact ⟨some found, .bind hfound (.bind (endOfLine_complete hafter hcomment htail)
        (.bind (.front _) (.pure _ _))), rfl⟩
  | none =>
      cases hsaid
      have hblanks : Blanks (before ++ after) := List.forall_mem_append.mpr ⟨hbefore, hafter⟩
      have hinput : before ++ [] ++ after ++ comment ++ tail =
          before ++ after ++ (comment ++ tail) := by simp
      have hfound : Reads statement (before ++ after ++ (comment ++ tail)) none
          (comment ++ tail) := by
        cases hcomment with
        | none =>
            refine .bind (.blanks hblanks (htail.stops rfl rfl)) (.bind (.front _) ?_)
            cases htail with
            | text => exact .pure _ _
            | newline hnewline =>
                obtain ⟨c, more, rfl, rfl | rfl⟩ := hnewline.exists_cons
                · exact .pure _ _
                · exact .pure _ _
        | some _ => exact .bind (.blanks hblanks (stops_cons rfl _)) (.bind (.front _) (.pure _ _))
      rw [hinput]
      exact ⟨none, .bind hfound (.bind
        (Reads.blaming_iff.mpr (endOfLine_complete blanks_nil hcomment htail))
        (.bind (.front _) (.pure _ _))), rfl⟩

end Line

section Text

variable {statements : List Statement} {lines : List Line}

theorem linesFrom_nil : linesFrom [] = ([], none) := by
  rw [linesFrom]
  rfl

/-- A line, and the lines behind it if there is more text. -/
theorem linesFrom_eq {said : Option Statement} {more : Bool}
    (h : Reads line input (said, more) rest) :
    linesFrom input =
      if more then
        if rest.length < input.length then
          (said.toList ++ (linesFrom rest).1, (linesFrom rest).2)
        else ([], some .malformed)
      else (said.toList, none) := by
  rw [Reads] at h
  rw [linesFrom]
  split
  · rename_i herror
    rw [h] at herror
    cases herror
  · rename_i hread
    rw [h] at hread
    cases hread
    rfl

/-- A text may end with a line end. -/
theorem lines_nil : Lines .reading [] [] :=
  .last (.mk blanks_nil .empty blanks_nil .none)

theorem toList_map_line (said : Option Statement) :
    (said.map Statement.line).toList = said.toList.map Statement.line := by
  cases said <;> rfl

theorem linesFrom_sound (h : linesFrom input = (statements, none)) :
    Lines .reading input (statements.map Statement.line)
      ∧ ∀ statement ∈ statements, statement.IsWritten := by
  fun_induction linesFrom input generalizing statements with
  | case1 | case3 => cases h
  | case2 _ said rest _ later fault hlater hread ih =>
      cases h
      obtain ⟨hlines, hlaterWritten⟩ := ih hlater
      obtain ⟨⟨spelled, tail, rfl, htail, hspelled⟩, hmore, hwritten⟩ := line_sound hread
      refine ⟨?_, List.forall_mem_append.mpr ⟨by simpa using hwritten, hlaterWritten⟩⟩
      cases htail with
      | text => cases hmore
      | newline hnewline =>
          rw [List.map_append, ← toList_map_line, ← List.append_assoc]
          exact .more hspelled hnewline hlines
  | case4 _ said more rest hread hdone =>
      cases h
      obtain ⟨⟨spelled, tail, rfl, htail, hspelled⟩, hmore, hwritten⟩ := line_sound hread
      have hrest : rest = [] := by
        rw [hmore, Option.isSome_iff_ne_none, not_not, List.head?_eq_none_iff] at hdone
        exact hdone
      subst hrest
      refine ⟨?_, by simpa using hwritten⟩
      rw [← toList_map_line]
      cases htail with
      | text =>
          rw [List.append_nil]
          exact .last hspelled
      | newline hnewline =>
          rw [← List.append_assoc, ← List.append_nil (Option.toList _)]
          exact .more hspelled hnewline lines_nil

theorem linesFrom_complete (hlines : Lines .reading input lines) :
    ∃ statements, linesFrom input = (statements, none) ∧ statements.map Statement.line = lines := by
  induction hlines with
  | @last spelled said hspelled =>
      obtain ⟨found, hread, rfl⟩ := line_complete hspelled .text
      rw [List.append_nil] at hread
      exact ⟨found.toList, linesFrom_eq hread, (toList_map_line found).symm⟩
  | @more spelled newline rest said lines hspelled hnewline _ ih =>
      obtain ⟨later, hlater, rfl⟩ := ih
      obtain ⟨found, hread, rfl⟩ :=
        line_complete hspelled (.newline hnewline : LineEnd (newline ++ rest) rest)
      rw [← List.append_assoc] at hread
      refine ⟨found.toList ++ later, ?_, by rw [List.map_append, toList_map_line]⟩
      rw [linesFrom_eq hread, hlater]
      cases rest with
      | nil =>
          rw [linesFrom_nil] at hlater
          cases hlater
          rw [List.append_nil found.toList]
          rfl
      | cons c rest =>
          have hshorter : (c :: rest).length < (spelled ++ newline ++ c :: rest).length := by
            obtain ⟨first, more, rfl, -⟩ := hnewline.exists_cons
            simp only [List.length_append, List.length_cons]
            omega
          simp only [List.head?_cons, Option.isSome_some, if_true, if_pos hshorter]

theorem not_lines_mark : ¬ Lines .reading ('\uFEFF' :: input) lines := by
  intro hlines
  obtain ⟨statements, hread, -⟩ := linesFrom_complete hlines
  cases hline : line ('\uFEFF' :: input) with
  | error fault =>
      rw [linesFrom, hline] at hread
      cases hread
  | ok found =>
      obtain ⟨_, _, hstatement, -⟩ := Reads.bind_iff.mp (hline : Reads line _ found.1 found.2)
      exact not_reads_mark hstatement

/-- A text without its byte order mark consists of the lines that are read. -/
theorem written_iff_lines {text : List Char} :
    Written .reading text lines ↔ Lines .reading (skipByteOrderMark text) lines := by
  constructor
  · rintro (hlines | hlines)
    · unfold skipByteOrderMark
      split
      · exact absurd hlines not_lines_mark
      · exact hlines
    · exact hlines
  · intro hlines
    unfold skipByteOrderMark at hlines
    split at hlines
    · exact .marked hlines
    · exact .plain hlines


theorem parse_eq (input : List Char) :
    parse input = match Entries.ofStatements? (linesFrom (skipByteOrderMark input)).1,
        (linesFrom (skipByteOrderMark input)).2 with
      | none, _ => .error .malformed
      | some _, some fault => .error fault
      | some entries, none => .ok entries :=
  rfl

/-- Whatever is read is a document, and shows the top level of its lines. -/
theorem isDocument_of_parse {text : List Char} {entries : Entries} (h : parse text = .ok entries) :
    ∃ lines, IsDocument .reading text lines ∧ entries.shown = topLevel lines := by
  rw [parse_eq] at h
  cases hread : linesFrom (skipByteOrderMark text) with
  | mk statements fault =>
      rw [hread] at h
      split at h
      · cases h
      · cases h
      · rename_i found hfound hfault
        cases h
        cases hfault
        obtain ⟨hlines, hwritten⟩ := linesFrom_sound hread
        have hsome : (Entries.ofStatements? statements).isSome := by
          rw [hfound]
          rfl
        exact ⟨statements.map Statement.line, ⟨written_iff_lines.mpr hlines,
          (ofStatements?_isSome_iff hwritten).mp hsome⟩, (shown_ofStatements? hfound).1⟩

/-- A text that is read to some top level is a document with that top level. -/
theorem exists_isDocument {text : List Char} {items : List (String × Item)}
    (h : (parse text).toOption.map Entries.shown = some items) :
    ∃ lines, IsDocument .reading text lines ∧ topLevel lines = items := by
  cases hparse : parse text with
  | error fault =>
      rw [hparse] at h
      cases h
  | ok entries =>
      rw [hparse] at h
      cases h
      obtain ⟨lines, hdocument, hshown⟩ := isDocument_of_parse hparse
      exact ⟨lines, hdocument, hshown.symm⟩

/-- Every document is read, to what shows the top level of its lines. -/
theorem parse_of_isDocument {text : List Char} (hdocument : IsDocument .reading text lines) :
    (∃ entries, parse text = .ok entries ∧ entries.shown = topLevel lines)
      ∧ ((topLevel lines).map Prod.fst).Nodup := by
  obtain ⟨statements, hread, rfl⟩ := linesFrom_complete (written_iff_lines.mp hdocument.written)
  obtain ⟨-, hwritten⟩ := linesFrom_sound hread
  obtain ⟨entries, hentries⟩ := Option.isSome_iff_exists.mp
    ((ofStatements?_isSome_iff hwritten).mpr hdocument.consistent)
  obtain ⟨hshown, hnodup⟩ := shown_ofStatements? hentries
  refine ⟨⟨entries, ?_, hshown⟩, hnodup⟩
  rw [parse_eq, hread, hentries]

/-- A text whose lines do not go together is malformed. -/
theorem parse_of_written {text : List Char} (hwritten : Written .reading text lines)
    (hnot : ¬ Consistent lines) : parse text = .error .malformed := by
  obtain ⟨statements, hread, rfl⟩ := linesFrom_complete (written_iff_lines.mp hwritten)
  obtain ⟨-, hplain⟩ := linesFrom_sound hread
  have hnone : Entries.ofStatements? statements = none := by
    rw [← Option.not_isSome_iff_eq_none, ofStatements?_isSome_iff hplain]
    exact hnot
  rw [parse_eq, hread, hnone]

end Text
end PadBridge.Toml
