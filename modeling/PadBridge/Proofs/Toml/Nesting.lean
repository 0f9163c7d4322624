import PadBridge.Proofs.Toml.Consistency
import PadBridge.Proofs.Toml.Scalars

/-!
Values are read as the grammar has them, by induction on how deep they nest.
-/

namespace PadBridge.Toml

open Grammar

variable {input rest spelled : List Char}

section Gap

theorem Reads.newline_iff {done : Unit} :
    Reads newline input done rest ↔ ∃ spelled, Newline spelled ∧ input = spelled ++ rest := by
  rw [newline, Reads.ofFunction_iff, Option.map_eq_some_iff]
  simp only [Prod.mk.injEq]
  constructor
  · rintro ⟨other, hline, -, rfl⟩
    exact afterNewline?_eq_some_iff.mp hline
  · intro h
    exact ⟨rest, afterNewline?_eq_some_iff.mpr h, trivial, rfl⟩

theorem Reads.newline (hspelled : Newline spelled) (rest : List Char) :
    Reads newline (spelled ++ rest) () rest :=
  newline_iff.mpr ⟨spelled, hspelled, rfl⟩

theorem Grammar.Newline.exists_cons (hspelled : Newline spelled) :
    ∃ c more, spelled = c :: more ∧ (c = '\n' ∨ c = '\r') := by
  cases hspelled with
  | feed => exact ⟨'\n', [], rfl, Or.inl rfl⟩
  | returnFeed => exact ⟨'\r', ['\n'], rfl, Or.inr rfl⟩

theorem Grammar.Newline.stops (hspelled : Newline spelled) {accepts : Char → Bool}
    (hfeed : accepts '\n' = false) (hreturn : accepts '\r' = false) (rest : List Char) :
    Stops accepts (spelled ++ rest) := by
  obtain ⟨c, more, rfl, rfl | rfl⟩ := hspelled.exists_cons
  · exact stops_cons hfeed _
  · exact stops_cons hreturn _

/-- A comment is read up to where no more of it can stand. -/
theorem comment_sound {taken : List Char} (hinput : input.head? = some '#')
    (h : Reads (Scanner.run isCommentChar) input taken rest) :
    input = taken ++ rest ∧ Comment taken := by
  obtain ⟨rfl, hclass, hstop⟩ := Reads.run_iff.mp h
  cases taken with
  | nil => cases hstop '#' hinput
  | cons c said =>
      cases hinput
      exact ⟨rfl, .some fun other hother =>
        isCommentChar_iff.mp (hclass other (List.mem_cons_of_mem '#' hother))⟩

theorem skippedLine_sound {done : Unit} {more : Bool}
    (h : Reads skippedLine input (done, more) rest) :
    (more = true ∧ ∃ blanks comment newline, input = blanks ++ comment ++ newline ++ rest
        ∧ Blanks blanks ∧ Comment comment ∧ Newline newline)
      ∨ (more = false ∧ ∃ blanks, input = blanks ++ rest ∧ Blanks blanks) := by
  obtain ⟨_, middle, hblank, hnext⟩ := Reads.bind_iff.mp h
  obtain ⟨blanks, rfl, hblanks, -⟩ := Reads.blanks_sound hblank
  obtain ⟨_, _, hfront, hline⟩ := Reads.bind_iff.mp hnext
  obtain ⟨rfl, rfl⟩ := Reads.front_iff.mp hfront
  have ended : ∀ {comment input}, Comment comment →
      Reads (do newline; return ((), true)) input (done, more) rest →
      more = true ∧ ∃ newline, comment ++ input = comment ++ newline ++ rest
        ∧ Newline newline := by
    intro comment input hcomment hread
    simp only [Reads.bind_iff, Reads.newline_iff, Reads.pure_iff] at hread
    obtain ⟨_, _, ⟨newline, hnewline, rfl⟩, hdone, rfl⟩ := hread
    cases hdone
    exact ⟨rfl, newline, by simp, hnewline⟩
  split at hline
  · rename_i hhash
    obtain ⟨comment, _, hrun, hread⟩ := Reads.bind_iff.mp hline
    obtain ⟨rfl, hcomment⟩ := comment_sound hhash hrun
    obtain ⟨hmore, newline, hinput, hnewline⟩ := ended hcomment hread
    exact Or.inl ⟨hmore, blanks, comment, newline, by rw [hinput]; simp, hblanks, hcomment,
      hnewline⟩
  · obtain ⟨hmore, newline, hinput, hnewline⟩ := ended .none hline
    exact Or.inl ⟨hmore, blanks, [], newline, by simpa using hinput, hblanks, .none, hnewline⟩
  · obtain ⟨hmore, newline, hinput, hnewline⟩ := ended .none hline
    exact Or.inl ⟨hmore, blanks, [], newline, by simpa using hinput, hblanks, .none, hnewline⟩
  · obtain ⟨hdone, rfl⟩ := Reads.pure_iff.mp hline
    cases hdone
    exact Or.inr ⟨rfl, blanks, rfl, hblanks⟩

theorem skipLines_sound {done : Unit} (h : Reads skipLines input done rest) :
    ∃ gap, input = gap ++ rest ∧ Gap gap := by
  obtain ⟨values, _, hchain, hdone⟩ := Reads.bind_iff.mp h
  obtain ⟨-, rfl⟩ := Reads.pure_iff.mp hdone
  refine Reads.chain_induction (motive := fun input _ => ∃ gap, input = gap ++ rest ∧ Gap gap)
    ?_ ?_ hchain
  · intro input value hitem
    rcases skippedLine_sound hitem with ⟨hmore, -⟩ | ⟨-, blanks, hinput, hblanks⟩
    · cases hmore
    · exact ⟨blanks, hinput, .last hblanks⟩
  · rintro input middle value later hitem - ⟨gap, rfl, hgap⟩
    rcases skippedLine_sound hitem with
      ⟨-, blanks, comment, newline, rfl, hblanks, hcomment, hnewline⟩ | ⟨hmore, -⟩
    · exact ⟨blanks ++ comment ++ newline ++ gap, by simp, .line hblanks hcomment hnewline hgap⟩
    · cases hmore

def isGapStart (c : Char) : Bool :=
  isBlank c || c = '#' || c = '\n' || c = '\r'

theorem not_isBlank_of_not_isGapStart {c : Char} (hc : isGapStart c = false) :
    isBlank c = false := by
  simp only [isGapStart, Bool.or_eq_false_iff] at hc
  exact hc.1.1.1

theorem Grammar.Comment.isCommentChar {comment : List Char} (hcomment : Comment comment) :
    ∀ c ∈ comment, isCommentChar c = true := by
  cases hcomment with
  | none => simp
  | some hsaid =>
      exact List.forall_mem_cons.mpr ⟨rfl, fun c hc => isCommentChar_iff.mpr (hsaid c hc)⟩

theorem skippedLine_complete {blanks comment newline : List Char} (hblanks : Blanks blanks)
    (hcomment : Comment comment) (hnewline : Newline newline) (rest : List Char) :
    Reads skippedLine (blanks ++ (comment ++ (newline ++ rest))) ((), true) rest := by
  have hline := Reads.newline hnewline rest
  have hrun := Reads.run_iff.mpr ⟨rfl, hcomment.isCommentChar, hnewline.stops rfl rfl rest⟩
  cases hcomment with
  | none =>
      refine .bind (.blanks hblanks (hnewline.stops rfl rfl rest)) (.bind (.front _) ?_)
      obtain ⟨c, more, rfl, rfl | rfl⟩ := hnewline.exists_cons
      · exact .bind hline (.pure _ _)
      · exact .bind hline (.pure _ _)
  | some hsaid =>
      refine .bind (.blanks hblanks (stops_cons rfl _)) (.bind (.front _) ?_)
      exact .bind hrun (.bind hline (.pure _ _))

theorem skipLines_complete {gap : List Char} (hgap : Gap gap) (hrest : Stops isGapStart rest) :
    Reads skipLines (gap ++ rest) () rest := by
  have hchain : ∃ values, Reads (Scanner.chain skippedLine) (gap ++ rest) values rest := by
    induction hgap with
    | last hblanks =>
        have hblank : Stops isBlank rest := fun c hc =>
          not_isBlank_of_not_isGapStart (hrest c hc)
        refine ⟨[()], .chain_last (.bind (.blanks hblanks hblank) (.bind (.front _) ?_))⟩
        split
        · rename_i hc
          cases hrest '#' hc
        · rename_i hc
          cases hrest '\n' hc
        · rename_i hc
          cases hrest '\r' hc
        · exact .pure _ _
    | @line blanks comment newline gap hblanks hcomment hnewline _ ih =>
        obtain ⟨values, hvalues⟩ := ih
        have hinput : blanks ++ comment ++ newline ++ gap ++ rest =
            blanks ++ (comment ++ (newline ++ (gap ++ rest))) := by simp
        have hlength : 0 < newline.length := by
          obtain ⟨c, more, rfl, -⟩ := hnewline.exists_cons
          exact Nat.succ_pos _
        rw [hinput]
        refine ⟨_, .chain_more (skippedLine_complete hblanks hcomment hnewline _) ?_ hvalues⟩
        simp only [List.length_append]
        omega
  obtain ⟨values, hvalues⟩ := hchain
  exact .bind hvalues (.pure _ _)

end Gap

section Ending

theorem ends_cons {c : Char} (hc : c ∈ ['\n', '\r', '#', ',', ']', '\x7d']) (rest : List Char) :
    Ends (c :: rest) := by
  have hblank : isBlank c = false := by
    have hblanks : ['\n', '\r', '#', ',', ']', '\x7d'].all (!isBlank ·) = true := by decide
    simpa using List.all_eq_true.mp hblanks c hc
  rw [Ends, List.dropWhile_cons_of_neg (by simp [hblank])]
  rintro _ ⟨⟩
  exact hc

theorem ends_blanks {blanks : List Char} (hblanks : Blanks blanks) (hrest : Ends rest) :
    Ends (blanks ++ rest) := by
  rw [Ends, List.dropWhile_append_of_pos fun c hc => isBlank_iff.mpr (hblanks c hc)]
  exact hrest

theorem ends_newline (hspelled : Newline spelled) (rest : List Char) : Ends (spelled ++ rest) := by
  obtain ⟨c, more, rfl, rfl | rfl⟩ := hspelled.exists_cons
  · exact ends_cons (by decide) _
  · exact ends_cons (by decide) _

theorem ends_comment {comment : List Char} (hcomment : Comment comment) (hrest : Ends rest) :
    Ends (comment ++ rest) := by
  cases hcomment with
  | none => exact hrest
  | some _ => exact ends_cons (by decide) _

theorem ends_gap {gap : List Char} (hgap : Gap gap) (hrest : Ends rest) : Ends (gap ++ rest) := by
  cases hgap with
  | last hblanks => exact ends_blanks hblanks hrest
  | line hblanks hcomment hnewline _ =>
      simp only [List.append_assoc]
      exact ends_blanks hblanks (ends_comment hcomment (ends_newline hnewline _))

end Ending

/-- A scanner takes the values of a grammar.  They show what the grammar says, are no tables with
headers, and can be told from what may stand around them. -/
structure Scans (item : Scanner Value) (Inner : List Char → Item → Prop) : Prop where
  sound : ∀ {input found rest}, Reads item input found rest →
    ∃ spelled, input = spelled ++ rest ∧ Inner spelled found.shown
  complete : ∀ {spelled shown rest}, Inner spelled shown → Ends rest →
    ∃ found, Reads item (spelled ++ rest) found rest ∧ found.shown = shown
  opens : ∀ {spelled shown}, Inner spelled shown →
    ∃ c more, spelled = c :: more ∧ opensValue c = true
  whole : ∀ {spelled shown}, Inner spelled shown → shown ≠ .table ∧ shown ≠ .tables

def shownPairs (pairs : List (Key × Value)) : List (Key × Item) :=
  pairs.map fun pair => (pair.1, pair.2.shown)

namespace Scans

variable {item : Scanner Value} {Inner : List Char → Item → Prop}

theorem role (hitem : Scans item Inner) {found : Value} (h : Reads item input found rest) :
    found.role = .value := by
  obtain ⟨_, _, hinner⟩ := hitem.sound h
  obtain ⟨htable, htables⟩ := hitem.whole hinner
  cases found with
  | text | integer | number | boolean | moment | array => rfl
  | tables _ _ => exact absurd rfl htables
  | table origin inner =>
      cases origin with
      | inline => rfl
      | header | implied | dotted => exact absurd rfl htable

theorem not_isGapStart {c : Char} (hc : opensValue c = true) : isGapStart c = false := by
  refine Bool.eq_false_iff.mpr fun hgap => ?_
  have hne := ne_of_opensValue hc
  simp only [isGapStart, Bool.or_eq_true, decide_eq_true_eq, isBlank_iff] at hgap
  rcases hgap with (((rfl | rfl) | rfl) | rfl) | rfl <;> exact hne (by decide)

section Array

theorem arrayItem_sound (hitem : Scans item Inner) {found : Value} {more : Bool}
    (h : Reads (arrayItem item) input (found, more) rest) :
    ∃ value gap, Inner value found.shown ∧ Gap gap
      ∧ (more = true ∧ (∃ after, Gap after ∧ input = value ++ gap ++ ',' :: after ++ rest)
        ∨ more = false ∧ input = value ++ gap ++ ']' :: rest
        ∨ more = false ∧ ∃ after, Gap after
          ∧ input = value ++ gap ++ ',' :: after ++ ']' :: rest) := by
  simp only [arrayItem, Reads.bind_iff] at h
  obtain ⟨value, _, hvalue, _, _, hgap, _, _, hcomma, hnext⟩ := h
  obtain ⟨spelled, rfl, hspelled⟩ := hitem.sound hvalue
  obtain ⟨gap, rfl, hskipped⟩ := skipLines_sound hgap
  rcases Reads.accept_iff.mp hcomma with ⟨rfl, rfl⟩ | ⟨rfl, -, rfl⟩
  · simp only [if_true, Reads.bind_iff, Reads.blaming_iff, Reads.pure_iff, Prod.mk.injEq] at hnext
    obtain ⟨_, _, hafter, _, _, hbracket, ⟨rfl, rfl⟩, rfl⟩ := hnext
    obtain ⟨after, rfl, hlater⟩ := skipLines_sound hafter
    refine ⟨spelled, gap, hspelled, hskipped, ?_⟩
    rcases Reads.accept_iff.mp hbracket with ⟨rfl, rfl⟩ | ⟨rfl, -, rfl⟩
    · exact Or.inr (Or.inr ⟨rfl, after, hlater, by simp⟩)
    · exact Or.inl ⟨rfl, after, hlater, by simp⟩
  · simp only [Bool.false_eq_true, if_false, Reads.bind_iff, Reads.exact_iff, Reads.pure_iff,
      Prod.mk.injEq] at hnext
    obtain ⟨_, _, rfl, ⟨rfl, rfl⟩, rfl⟩ := hnext
    exact ⟨spelled, gap, hspelled, hskipped, Or.inr (Or.inl ⟨rfl, by simp⟩)⟩

theorem items_sound (hitem : Scans item Inner) {values : List Value}
    (h : Reads (Scanner.chain (arrayItem item)) input values rest) :
    ∃ spelled, input = spelled ++ rest ∧ Items Inner spelled := by
  refine Reads.chain_induction
    (motive := fun input _ => ∃ spelled, input = spelled ++ rest ∧ Items Inner spelled) ?_ ?_ h
  · intro input found hread
    obtain ⟨value, gap, hvalue, hgap, ⟨hmore, -⟩ | ⟨-, rfl⟩ | ⟨-, after, hafter, rfl⟩⟩ :=
      hitem.arrayItem_sound hread
    · cases hmore
    · exact ⟨value ++ gap ++ [']'], by simp, .last hvalue hgap⟩
    · exact ⟨value ++ gap ++ ',' :: after ++ [']'], by simp, .lastComma hvalue hgap hafter⟩
  · rintro input middle found later hread - ⟨spelled, rfl, hspelled⟩
    obtain ⟨value, gap, hvalue, hgap, ⟨-, after, hafter, rfl⟩ | ⟨hmore, -⟩ | ⟨hmore, -⟩⟩ :=
      hitem.arrayItem_sound hread
    · exact ⟨value ++ gap ++ ',' :: after ++ spelled, by simp, .more hvalue hgap hafter hspelled⟩
    · cases hmore
    · cases hmore

theorem arrayItems_sound (hitem : Scans item Inner) {values : List Value}
    (h : Reads (arrayItems item) input values rest) :
    ∃ body, input = body ++ rest ∧ ArrayText Inner ('[' :: body) := by
  simp only [arrayItems, Reads.bind_iff, Reads.blaming_iff] at h
  obtain ⟨_, _, hskip, _, _, hbracket, hnext⟩ := h
  obtain ⟨gap, rfl, hgap⟩ := skipLines_sound hskip
  rcases Reads.accept_iff.mp hbracket with ⟨rfl, rfl⟩ | ⟨rfl, -, rfl⟩
  · obtain ⟨-, rfl⟩ := Reads.pure_iff.mp hnext
    exact ⟨gap ++ [']'], by simp, .empty hgap⟩
  · obtain ⟨spelled, rfl, hspelled⟩ := hitem.items_sound hnext
    exact ⟨gap ++ spelled, by simp, .filled hgap hspelled⟩

theorem Items.opens (hitem : Scans item Inner) (hspelled : Items Inner spelled) :
    ∃ c more, spelled = c :: more ∧ opensValue c = true := by
  cases hspelled with
  | last hvalue _ | lastComma hvalue _ _ | more hvalue _ _ _ =>
      obtain ⟨c, more, rfl, hc⟩ := hitem.opens hvalue
      exact ⟨c, _, rfl, hc⟩

theorem items_complete (hitem : Scans item Inner) (hspelled : Items Inner spelled)
    (rest : List Char) :
    ∃ values, Reads (Scanner.chain (arrayItem item)) (spelled ++ rest) values rest := by
  have hcomma : ∀ {rest}, ¬ ",".toList <+: ']' :: rest := not_prefix_of_ne (by decide) _
  induction hspelled with
  | @last value gap shown hvalue hgap =>
      obtain ⟨found, hfound, -⟩ := hitem.complete hvalue
        (ends_gap hgap (ends_cons (c := ']') (by decide) rest))
      have hinput : value ++ gap ++ [']'] ++ rest = value ++ (gap ++ ']' :: rest) := by simp
      rw [hinput]
      exact ⟨[found], .chain_last (.bind hfound
        (.bind (skipLines_complete hgap (stops_cons rfl rest))
          (.bind (.accept_false hcomma) (.bind (.exact "]" rest) (.pure _ _)))))⟩
  | @lastComma value gap after shown hvalue hgap hafter =>
      obtain ⟨found, hfound, -⟩ := hitem.complete hvalue
        (ends_gap hgap (ends_cons (c := ',') (by decide) (after ++ ']' :: rest)))
      have hinput : value ++ gap ++ ',' :: after ++ [']'] ++ rest =
          value ++ (gap ++ ',' :: (after ++ ']' :: rest)) := by simp
      rw [hinput]
      exact ⟨[found], .chain_last (.bind hfound (.bind (skipLines_complete hgap (stops_cons rfl _))
        (.bind (.accept_true "," _) (.bind
          (Reads.blaming_iff.mpr (skipLines_complete hafter (stops_cons rfl rest)))
          (.bind (.accept_true "]" rest) (.pure _ _))))))⟩
  | @more value gap after later shown hvalue hgap hafter hlater ih =>
      obtain ⟨values, hvalues⟩ := ih
      obtain ⟨found, hfound, -⟩ := hitem.complete hvalue
        (ends_gap hgap (ends_cons (c := ',') (by decide) (after ++ (later ++ rest))))
      obtain ⟨c, more, rfl, hc⟩ := Items.opens hitem hlater
      have hbracket : ¬ "]".toList <+: c :: (more ++ rest) := by
        refine not_prefix_of_ne ?_ _
        rintro rfl
        cases hc
      have hinput : value ++ gap ++ ',' :: after ++ (c :: more) ++ rest =
          value ++ (gap ++ ',' :: (after ++ (c :: more ++ rest))) := by simp
      rw [hinput]
      refine ⟨found :: values, .chain_more (.bind hfound
        (.bind (skipLines_complete hgap (stops_cons rfl _)) (.bind (.accept_true "," _) (.bind
          (Reads.blaming_iff.mpr (skipLines_complete hafter (stops_cons (not_isGapStart hc) _)))
          (.bind (.accept_false hbracket) (.pure _ _)))))) ?_ hvalues⟩
      simp only [List.length_append, List.length_cons]
      omega

theorem arrayItems_complete (hitem : Scans item Inner) (hspelled : ArrayText Inner spelled)
    (rest : List Char) :
    ∃ body values, spelled = '[' :: body ∧ Reads (arrayItems item) (body ++ rest) values rest := by
  cases hspelled with
  | @empty gap hgap =>
      have hinput : gap ++ [']'] ++ rest = gap ++ ']' :: rest := by simp
      refine ⟨gap ++ [']'], [], rfl, ?_⟩
      rw [hinput]
      exact .bind (Reads.blaming_iff.mpr (skipLines_complete hgap (stops_cons rfl rest)))
        (.bind (.accept_true "]" rest) (.pure _ _))
  | @filled gap items hgap hitems =>
      obtain ⟨values, hvalues⟩ := hitem.items_complete hitems rest
      obtain ⟨c, more, rfl, hc⟩ := Items.opens hitem hitems
      have hbracket : ¬ "]".toList <+: c :: (more ++ rest) := by
        refine not_prefix_of_ne ?_ _
        rintro rfl
        cases hc
      refine ⟨gap ++ c :: more, values, rfl, ?_⟩
      rw [List.append_assoc]
      exact .bind (Reads.blaming_iff.mpr
        (skipLines_complete hgap (stops_cons (not_isGapStart hc) _)))
        (.bind (.accept_false hbracket) hvalues)

end Array

section Inline

theorem pair_sound (hitem : Scans item Inner) {key : Key} {found : Value}
    (h : Reads (pair item) input (key, found) rest) :
    ∃ before spelled, input = before ++ spelled ++ rest ∧ Blanks before
      ∧ PairText .reading Inner spelled key found.shown ∧ found.role = .value := by
  simp only [pair, Reads.bind_iff, Reads.exact_iff] at h
  obtain ⟨other, _, hkey, _, _, rfl, _, _, hblank, _, _, hfront, hnext⟩ := h
  obtain ⟨before, spelled, after, rfl, hbefore, hspelled, hafter, hparts⟩ := key_sound hkey
  obtain ⟨between, rfl, hbetween, -⟩ := Reads.blanks_sound hblank
  obtain ⟨rfl, rfl⟩ := Reads.front_iff.mp hfront
  split at hnext
  · obtain ⟨_, _, hrefuse, -⟩ := Reads.bind_iff.mp hnext
    exact absurd hrefuse Reads.not_refuse
  · simp only [Reads.bind_iff, Reads.pure_iff, Prod.mk.injEq] at hnext
    obtain ⟨_, _, hvalue, ⟨rfl, rfl⟩, rfl⟩ := hnext
    obtain ⟨value, rfl, hinner⟩ := hitem.sound hvalue
    exact ⟨before, spelled ++ after ++ '=' :: between ++ value, by simp, hbefore,
      .mk hspelled hparts hafter hbetween hinner, hitem.role hvalue⟩

theorem pair_complete (hitem : Scans item Inner) {key : Key} {shown : Item}
    (hspelled : PairText .reading Inner spelled key shown) {before : List Char}
    (hbefore : Blanks before) (hrest : Ends rest) :
    ∃ found, Reads (pair item) (before ++ spelled ++ rest) (key, found) rest
      ∧ found.shown = shown := by
  obtain ⟨hkey, hparts, hfirst, hsecond, hvalue⟩ := hspelled
  rename_i spelled first second value
  obtain ⟨found, hfound, hshown⟩ := hitem.complete hvalue hrest
  obtain ⟨c, more, rfl, hc⟩ := hitem.opens hvalue
  have hblank := not_isBlank_of_not_isGapStart (not_isGapStart hc)
  have hinput : before ++ (spelled ++ first ++ '=' :: second ++ c :: more) ++ rest =
      before ++ spelled ++ first ++ '=' :: (second ++ (c :: more ++ rest)) := by simp
  rw [hinput]
  refine ⟨found, .bind (key_complete hkey hparts hbefore hfirst (Or.inl rfl) _)
    (.bind (.exact "=" _) (.bind (.blanks hsecond (stops_cons hblank _)) (.bind (.front _) ?_))),
    hshown⟩
  exact .bind hfound (.pure _ _)

theorem inlinePair_sound (hitem : Scans item Inner) {found : Key × Value} {more : Bool}
    (h : Reads (inlinePair item) input (found, more) rest) :
    ∃ before pair blanks, Blanks before ∧ PairText .reading Inner pair found.1 found.2.shown
      ∧ Blanks blanks ∧ found.2.role = .value
      ∧ (more = true ∧ input = before ++ pair ++ blanks ++ ',' :: rest
        ∨ more = false ∧ input = before ++ pair ++ blanks ++ '\x7d' :: rest) := by
  simp only [inlinePair, Reads.bind_iff] at h
  obtain ⟨⟨key, value⟩, _, hpair, _, _, hblank, _, _, hcomma, hnext⟩ := h
  obtain ⟨before, spelled, rfl, hbefore, hspelled, hrole⟩ := hitem.pair_sound hpair
  obtain ⟨blanks, rfl, hblanks, -⟩ := Reads.blanks_sound hblank
  rcases Reads.accept_iff.mp hcomma with ⟨rfl, rfl⟩ | ⟨rfl, -, rfl⟩
  · simp only [if_true, Reads.pure_iff, Prod.mk.injEq] at hnext
    obtain ⟨⟨rfl, rfl⟩, rfl⟩ := hnext
    exact ⟨before, spelled, blanks, hbefore, hspelled, hblanks, hrole, Or.inl ⟨rfl, by simp⟩⟩
  · simp only [Bool.false_eq_true, if_false, Reads.bind_iff, Reads.exact_iff, Reads.pure_iff,
      Prod.mk.injEq] at hnext
    obtain ⟨_, _, rfl, ⟨rfl, rfl⟩, rfl⟩ := hnext
    exact ⟨before, spelled, blanks, hbefore, hspelled, hblanks, hrole, Or.inr ⟨rfl, by simp⟩⟩

theorem pairs_sound (hitem : Scans item Inner) {found : List (Key × Value)}
    (h : Reads (Scanner.chain (inlinePair item)) input found rest) :
    (∃ before spelled, input = before ++ spelled ++ rest ∧ Blanks before
        ∧ Pairs .reading Inner spelled (shownPairs found))
      ∧ ∀ pair ∈ found, pair.2.role = .value := by
  refine Reads.chain_induction (motive := fun input found =>
    (∃ before spelled, input = before ++ spelled ++ rest ∧ Blanks before
        ∧ Pairs .reading Inner spelled (shownPairs found))
      ∧ ∀ pair ∈ found, pair.2.role = .value) ?_ ?_ h
  · intro input found hread
    obtain ⟨before, pair, blanks, hbefore, hpair, hblanks, hrole, ⟨hmore, -⟩ | ⟨-, rfl⟩⟩ :=
      hitem.inlinePair_sound hread
    · cases hmore
    · exact ⟨⟨before, pair ++ blanks ++ ['\x7d'], by simp, hbefore, .last hpair hblanks⟩,
        by simpa using hrole⟩
  · rintro input middle found later hread - ⟨⟨after, spelled, rfl, hafter, hspelled⟩, hroles⟩
    obtain ⟨before, pair, blanks, hbefore, hpair, hblanks, hrole, ⟨-, rfl⟩ | ⟨hmore, -⟩⟩ :=
      hitem.inlinePair_sound hread
    · exact ⟨⟨before, pair ++ blanks ++ ',' :: after ++ spelled, by simp, hbefore,
        .more hpair hblanks hafter hspelled⟩, List.forall_mem_cons.mpr ⟨hrole, hroles⟩⟩
    · cases hmore

theorem inlinePairs_sound (hitem : Scans item Inner) {found : List (Key × Value)}
    (h : Reads (inlinePairs item) input found rest) :
    (∃ body, input = body ++ rest
        ∧ (Consistent ((shownPairs found).map fun pair => .entry pair.1 pair.2) →
          InlineText .reading Inner ('\x7b' :: body)))
      ∧ ∀ pair ∈ found, pair.2.role = .value := by
  simp only [inlinePairs, Reads.bind_iff] at h
  obtain ⟨_, _, hblank, _, _, hbrace, hnext⟩ := h
  obtain ⟨blanks, rfl, hblanks, -⟩ := Reads.blanks_sound hblank
  rcases Reads.accept_iff.mp hbrace with ⟨rfl, rfl⟩ | ⟨rfl, -, rfl⟩
  · obtain ⟨rfl, rfl⟩ := Reads.pure_iff.mp hnext
    exact ⟨⟨blanks ++ ['\x7d'], by simp, fun _ => .empty hblanks⟩, by simp⟩
  · obtain ⟨⟨before, spelled, rfl, hbefore, hspelled⟩, hroles⟩ := hitem.pairs_sound hnext
    have hboth : Blanks (blanks ++ before) := List.forall_mem_append.mpr ⟨hblanks, hbefore⟩
    refine ⟨⟨blanks ++ before ++ spelled, by simp, fun hpairs => ?_⟩, hroles⟩
    exact .filled hboth hspelled hpairs

theorem Pairs.exists_cons {pairs : List (Key × Item)}
    (hspelled : Pairs .reading Inner spelled pairs) :
    ∃ c more, spelled = c :: more ∧ opensKey c = true := by
  cases hspelled with
  | last hpair _ | more hpair _ _ _ =>
      obtain ⟨hkey, -, -, -, -⟩ := hpair
      obtain ⟨c, more, rfl, hc⟩ := hkey.exists_cons
      exact ⟨c, _, rfl, hc⟩

theorem pairs_complete (hitem : Scans item Inner) {pairs : List (Key × Item)}
    (hspelled : Pairs .reading Inner spelled pairs) {front : List Char} (hfront : Blanks front)
    (rest : List Char) :
    ∃ found, Reads (Scanner.chain (inlinePair item)) (front ++ spelled ++ rest) found rest
      ∧ shownPairs found = pairs := by
  induction hspelled generalizing front with
  | @last pair blanks key shown hpair hblanks =>
      obtain ⟨found, hfound, rfl⟩ := hitem.pair_complete hpair hfront
        (ends_blanks hblanks (ends_cons (c := '\x7d') (by decide) rest))
      have hcomma : ¬ ",".toList <+: '\x7d' :: rest := not_prefix_of_ne (by decide) rest
      have hinput : front ++ (pair ++ blanks ++ ['\x7d']) ++ rest =
          front ++ pair ++ (blanks ++ '\x7d' :: rest) := by simp
      rw [hinput]
      exact ⟨[(key, found)], .chain_last (.bind hfound
        (.bind (.blanks hblanks (stops_cons rfl rest))
          (.bind (.accept_false hcomma) (.bind (.exact "\x7d" rest) (.pure _ _))))), rfl⟩
  | @more pair before after later key shown pairs hpair hbefore hafter hlater ih =>
      obtain ⟨values, hvalues, rfl⟩ := ih hafter
      obtain ⟨found, hfound, rfl⟩ := hitem.pair_complete hpair hfront
        (ends_blanks hbefore (ends_cons (c := ',') (by decide) (after ++ later ++ rest)))
      have hinput : front ++ (pair ++ before ++ ',' :: after ++ later) ++ rest =
          front ++ pair ++ (before ++ ',' :: (after ++ later ++ rest)) := by simp
      rw [hinput]
      refine ⟨(key, found) :: values, .chain_more (.bind hfound
        (.bind (.blanks hbefore (stops_cons rfl _)) (.bind (.accept_true "," _) (.pure _ _)))) ?_
        hvalues, rfl⟩
      simp only [List.append_eq, List.length_append, List.length_cons]
      omega

theorem inlinePairs_complete (hitem : Scans item Inner)
    (hspelled : InlineText .reading Inner spelled) (rest : List Char) :
    ∃ body found, spelled = '\x7b' :: body ∧ Reads (inlinePairs item) (body ++ rest) found rest
      ∧ Consistent ((shownPairs found).map fun pair => .entry pair.1 pair.2) := by
  cases hspelled with
  | @empty blanks hblanks =>
      have hinput : blanks ++ ['\x7d'] ++ rest = blanks ++ '\x7d' :: rest := by simp
      refine ⟨blanks ++ ['\x7d'], [], rfl, ?_, trivial⟩
      rw [hinput]
      exact .bind (.blanks hblanks (stops_cons rfl rest))
        (.bind (.accept_true "\x7d" rest) (.pure _ _))
  | @filled blanks inner pairs hblanks hpairs hconsistent =>
      have hnone : Blanks [] := by simp [Blanks]
      obtain ⟨found, hfound, rfl⟩ := hitem.pairs_complete hpairs hnone rest
      obtain ⟨c, more, rfl, hc⟩ := Pairs.exists_cons hpairs
      have hbrace : ¬ "\x7d".toList <+: c :: (more ++ rest) := by
        refine not_prefix_of_ne ?_ _
        rintro rfl
        cases hc
      refine ⟨blanks ++ c :: more, found, rfl, ?_, hconsistent⟩
      rw [List.append_assoc]
      exact .bind (.blanks hblanks (stops_cons (not_isBlank_of_opensKey hc) _))
        (.bind (.accept_false hbrace) hfound)

end Inline

end Scans

theorem Grammar.IsValue.ne_table {limits : Limits} {depth : Nat} {item : Item}
    (hspelled : IsValue limits depth spelled item) : item ≠ .table ∧ item ≠ .tables := by
  have hscalar : Scalar limits spelled item → item ≠ .table ∧ item ≠ .tables := by
    rintro (_ | _ | _ | _ | _ | _) <;> exact ⟨nofun, nofun⟩
  cases depth with
  | zero => exact hscalar hspelled
  | succ depth =>
      cases hspelled with
      | scalar h => exact hscalar h
      | array _ | inline _ => exact ⟨nofun, nofun⟩

section Value

variable {depth : Nat} {found : Value}

/-- The table that pairs between braces make, or nothing if they do not go together. -/
theorem inlineTable?_eq {pairs : List (Key × Value)}
    (hroles : ∀ pair ∈ pairs, pair.2.role = .value) :
    (Consistent ((shownPairs pairs).map fun pair => .entry pair.1 pair.2)
        ∧ ∃ entries, inlineTable? pairs = some (.table .inline entries))
      ∨ (¬ Consistent ((shownPairs pairs).map fun pair => .entry pair.1 pair.2)
        ∧ inlineTable? pairs = none) := by
  have hiff := inlineTable?_isSome_iff hroles
  have hlines : (shownPairs pairs).map (fun pair => Line.entry pair.1 pair.2) =
      pairs.map fun pair => .entry pair.1 pair.2.shown := by
    rw [shownPairs, List.map_map]
    rfl
  rw [hlines, ← hiff]
  cases htable : inlineTable? pairs with
  | none => exact Or.inr ⟨nofun, rfl⟩
  | some table =>
      obtain ⟨entries, -, heq⟩ := Option.bind_eq_some_iff.mp htable
      cases heq
      exact Or.inl ⟨rfl, entries, rfl⟩

theorem value_succ_sound (hitem : Scans (value depth) (IsValue .reading depth))
    (h : Reads (value (depth + 1)) input found rest) :
    ∃ spelled, input = spelled ++ rest ∧ IsValue .reading (depth + 1) spelled found.shown := by
  obtain ⟨_, _, hbracket, hnext⟩ := Reads.bind_iff.mp h
  rcases Reads.accept_iff.mp hbracket with ⟨rfl, rfl⟩ | ⟨rfl, -, rfl⟩
  · obtain ⟨items, _, hitems, hdone⟩ := Reads.bind_iff.mp hnext
    obtain ⟨rfl, rfl⟩ := Reads.pure_iff.mp hdone
    obtain ⟨body, rfl, hbody⟩ := hitem.arrayItems_sound hitems
    exact ⟨'[' :: body, rfl, .array hbody⟩
  obtain ⟨_, _, hbrace, hlast⟩ := Reads.bind_iff.mp hnext
  rcases Reads.accept_iff.mp hbrace with ⟨rfl, rfl⟩ | ⟨rfl, -, rfl⟩
  · obtain ⟨pairs, _, hpairs, htable⟩ := Reads.bind_iff.mp hlast
    obtain ⟨⟨body, rfl, hbody⟩, hroles⟩ := hitem.inlinePairs_sound hpairs
    rcases inlineTable?_eq hroles with ⟨hconsistent, entries, hsome⟩ | ⟨-, hnone⟩
    · rw [hsome] at htable
      obtain ⟨rfl, rfl⟩ := Reads.pure_iff.mp htable
      exact ⟨'\x7b' :: body, rfl, .inline (hbody hconsistent)⟩
    · rw [hnone] at htable
      exact absurd htable Reads.not_refuse
  · obtain ⟨spelled, rfl, hspelled⟩ := scalar_sound hlast
    exact ⟨spelled, rfl, .scalar hspelled⟩

theorem value_succ_complete (hitem : Scans (value depth) (IsValue .reading depth)) {shown : Item}
    (hspelled : IsValue .reading (depth + 1) spelled shown) (hrest : Ends rest) :
    ∃ found, Reads (value (depth + 1)) (spelled ++ rest) found rest ∧ found.shown = shown := by
  cases hspelled with
  | scalar hscalar =>
      obtain ⟨found, hfound, hshown⟩ := scalar_complete hscalar hrest
      obtain ⟨c, more, rfl, hc⟩ := hscalar.exists_cons
      have hopens : ∀ opening, opensScalar opening = false →
          ¬ [opening] <+: c :: (more ++ rest) := by
        intro opening hopening
        refine not_prefix_of_ne ?_ _
        rintro rfl
        rw [hc] at hopening
        cases hopening
      exact ⟨found, .bind (.accept_false (hopens '[' rfl))
        (.bind (.accept_false (hopens '\x7b' rfl)) hfound), hshown⟩
  | array harray =>
      obtain ⟨body, values, rfl, hvalues⟩ := hitem.arrayItems_complete harray rest
      exact ⟨.array values, .bind (.accept_true "[" _) (.bind hvalues (.pure _ _)), rfl⟩
  | inline hinline =>
      obtain ⟨body, pairs, rfl, hpairs, hconsistent⟩ := hitem.inlinePairs_complete hinline rest
      obtain ⟨-, hroles⟩ := hitem.inlinePairs_sound hpairs
      rcases inlineTable?_eq hroles with ⟨-, entries, hsome⟩ | ⟨hnot, -⟩
      · have hbracket : ¬ "[".toList <+: '\x7b' :: (body ++ rest) :=
          not_prefix_of_ne (by decide) _
        refine ⟨.table .inline entries, .bind (.accept_false hbracket)
          (.bind (.accept_true "\x7b" _) (.bind hpairs ?_)), rfl⟩
        rw [hsome]
        exact .pure _ _
      · exact absurd hconsistent hnot

/-- Values are read as the grammar has them, however deep they may nest. -/
theorem scans_value (depth : Nat) : Scans (value depth) (IsValue .reading depth) := by
  induction depth with
  | zero =>
      exact ⟨scalar_sound, scalar_complete, fun (h : IsValue .reading 0 _ _) => h.exists_cons,
        fun (h : IsValue .reading 0 _ _) => h.ne_table⟩
  | succ depth ih =>
      exact ⟨value_succ_sound ih, value_succ_complete ih, IsValue.exists_cons, IsValue.ne_table⟩

end Value
end PadBridge.Toml
