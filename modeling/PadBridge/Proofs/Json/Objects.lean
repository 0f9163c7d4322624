import Mathlib.Data.List.TakeWhile
import PadBridge.Json.Object
import PadBridge.Proofs.Json.Strings

/-!
Reading objects of strings.  What is read member by member is exactly what the grammar describes,
so a text is read, with the members it stands for, if and only if it is an object of strings.
-/

namespace PadBridge.Json

theorem isBlank_iff (byte : UInt8) :
    isBlank byte = true ↔ byte = 0x20 ∨ byte = 0x09 ∨ byte = 0x0A ∨ byte = 0x0D := by
  simp [isBlank, or_assoc]

theorem blanks_iff {bytes : List UInt8} : Blanks bytes ↔ ∀ byte ∈ bytes, isBlank byte = true := by
  simp only [Blanks, isBlank_iff]

/-- Blanks are skipped, and nothing else is. -/
theorem skipBlank_eq_cons_iff {input rest : List UInt8} {byte : UInt8} :
    skipBlank input = byte :: rest ↔
      ∃ blanks, Blanks blanks ∧ input = blanks ++ byte :: rest ∧ isBlank byte = false := by
  constructor
  · intro h
    refine ⟨input.takeWhile isBlank, blanks_iff.mpr fun _ => List.mem_takeWhile_imp, ?_, ?_⟩
    · rw [← h, skipBlank, List.takeWhile_append_dropWhile]
    · have hhead := List.head?_dropWhile_not isBlank input
      rw [show input.dropWhile isBlank = byte :: rest from h] at hhead
      simpa using hhead
  · intro h
    rcases h with ⟨blanks, hblanks, rfl, hbyte⟩
    rw [skipBlank, List.dropWhile_append_of_pos (blanks_iff.mp hblanks),
      List.dropWhile_cons_of_neg (by simp [hbyte])]

theorem skipBlank_eq_nil_iff {input : List UInt8} : skipBlank input = [] ↔ Blanks input := by
  rw [skipBlank, List.dropWhile_eq_nil_iff, blanks_iff]

theorem memberValue_eq_ok_iff {input rest : List UInt8} {value : String} :
    memberValue input = .ok (value, rest) ↔
      ∃ blanks piece, Blanks blanks ∧ Quoted piece value ∧ input = blanks ++ piece ++ rest := by
  constructor
  · intro h
    unfold memberValue at h
    split at h
    · cases h
    · rename_i lead more hskip
      split at h
      · rename_i hlead
        obtain ⟨blanks, hblanks, rfl, _⟩ := skipBlank_eq_cons_iff.mp hskip
        obtain ⟨piece, hpiece, heq⟩ := text_eq_ok_iff.mp h
        exact ⟨blanks, piece, hblanks, hpiece, by rw [hlead, heq, List.append_assoc]⟩
      · cases h
  · intro h
    rcases h with ⟨blanks, _, hblanks, ⟨hbody⟩, rfl⟩
    rename_i body
    have hskip : skipBlank (blanks ++ (0x22 :: body ++ [0x22]) ++ rest) =
        quote :: (body ++ [0x22] ++ rest) :=
      skipBlank_eq_cons_iff.mpr ⟨blanks, hblanks, by simp [quote], by decide⟩
    rw [memberValue, hskip]
    simp only [if_true]
    exact text_eq_ok_iff.mpr ⟨_, .mk hbody, rfl⟩

theorem memberAfterKey_eq_ok_iff {input rest : List UInt8} {key : String}
    {entry : String × String} :
    memberAfterKey key input = .ok (entry, rest) ↔
      ∃ before after piece value, Blanks before ∧ Blanks after ∧ Quoted piece value
        ∧ entry = (key, value) ∧ input = before ++ 0x3A :: after ++ piece ++ rest := by
  constructor
  · intro h
    unfold memberAfterKey at h
    split at h
    · cases h
    · rename_i byte more hskip
      split at h
      · rename_i hbyte
        obtain ⟨before, hbefore, rfl, _⟩ := skipBlank_eq_cons_iff.mp hskip
        cases hvalue : memberValue more with
        | error fault => rw [hvalue] at h; cases h
        | ok pair =>
            rw [hvalue] at h
            cases h
            obtain ⟨after, piece, hafter, hpiece, rfl⟩ := memberValue_eq_ok_iff.mp hvalue
            exact ⟨before, after, piece, pair.1, hbefore, hafter, hpiece, rfl, by
              rw [hbyte]; simp [colon]⟩
      · cases h
  · intro h
    rcases h with ⟨before, after, piece, value, hbefore, hafter, hpiece, rfl, rfl⟩
    have hskip : skipBlank (before ++ 0x3A :: after ++ piece ++ rest) =
        colon :: (after ++ piece ++ rest) :=
      skipBlank_eq_cons_iff.mpr ⟨before, hbefore, by simp [colon], by decide⟩
    rw [memberAfterKey, hskip]
    simp only [if_true, memberValue_eq_ok_iff.mpr ⟨after, piece, hafter, hpiece, rfl⟩]
    rfl

/-- A member is read from behind the quote that opens its key. -/
theorem member_eq_ok_iff {input rest : List UInt8} {entry : String × String} :
    member input = .ok (entry, rest) ↔
      ∃ piece, Member piece entry ∧ quote :: input = piece ++ rest := by
  constructor
  · intro h
    unfold member at h
    split at h
    · cases h
    · rename_i key more hkey
      obtain ⟨piece, hpiece, heq⟩ := text_eq_ok_iff.mp hkey
      obtain ⟨before, after, literal, value, hbefore, hafter, hvalue, rfl, rfl⟩ :=
        memberAfterKey_eq_ok_iff.mp h
      exact ⟨_, .mk hpiece hbefore hafter hvalue, by rw [heq]; simp⟩
  · intro h
    rcases h with ⟨_, ⟨hkey, hbefore, hafter, hvalue⟩, heq⟩
    rename_i key before after literal name value
    have hread : text input = .ok (name, before ++ 0x3A :: after ++ literal ++ rest) :=
      text_eq_ok_iff.mpr ⟨key, hkey, by rw [heq]; simp⟩
    rw [member, hread]
    exact memberAfterKey_eq_ok_iff.mpr
      ⟨before, after, literal, value, hbefore, hafter, hvalue, rfl, rfl⟩

/-- A member begins with the quote of its key. -/
theorem Member.exists_quote {piece : List UInt8} {entry : String × String}
    (hpiece : Member piece entry) : ∃ tail, piece = quote :: tail := by
  rcases hpiece with ⟨⟨_⟩, _, _, _⟩
  exact ⟨_, rfl⟩

theorem laterMembers_eq_ok_nil_iff {input rest : List UInt8} :
    laterMembers input = .ok ([], rest) ↔
      ∃ blanks, Blanks blanks ∧ input = blanks ++ closeBrace :: rest := by
  rw [laterMembers]
  constructor
  · intro h
    split at h
    · cases h
    · rename_i byte more hskip
      obtain ⟨blanks, hblanks, rfl, _⟩ := skipBlank_eq_cons_iff.mp hskip
      split at h
      · rename_i hbyte
        cases h
        exact ⟨blanks, hblanks, by rw [hbyte]⟩
      · split at h
        · cases h
        · split at h
          · cases h
          · split at h
            · split at h
              · cases h
              · rename_i entry after _
                cases hlater : laterMembers after with
                | error fault => rw [hlater] at h; cases h
                | ok pair => rw [hlater] at h; cases h
            · split at h <;> cases h
  · intro h
    rcases h with ⟨blanks, hblanks, rfl⟩
    have hskip : skipBlank (blanks ++ closeBrace :: rest) = closeBrace :: rest :=
      skipBlank_eq_cons_iff.mpr ⟨blanks, hblanks, rfl, by decide⟩
    split
    · rename_i hnil
      rw [hskip] at hnil
      cases hnil
    · rename_i byte more hcons
      rw [hskip] at hcons
      cases hcons
      rw [if_pos rfl]

theorem laterMembers_eq_ok_cons_iff {input rest : List UInt8} {entry : String × String}
    {entries : List (String × String)} :
    laterMembers input = .ok (entry :: entries, rest) ↔
      ∃ before after piece more, Blanks before ∧ Blanks after ∧ Member piece entry
        ∧ input = before ++ 0x2C :: after ++ (piece ++ more)
        ∧ laterMembers more = .ok (entries, rest) := by
  constructor
  · intro h
    rw [laterMembers] at h
    split at h
    · cases h
    · rename_i byte tail hskip
      obtain ⟨before, hbefore, rfl, _⟩ := skipBlank_eq_cons_iff.mp hskip
      split at h
      · cases h
      · split at h
        · cases h
        · rename_i hcomma
          split at h
          · cases h
          · rename_i lead key hkey
            obtain ⟨after, hafter, rfl, _⟩ := skipBlank_eq_cons_iff.mp hkey
            split at h
            · rename_i hquote
              split at h
              · cases h
              · rename_i other more hmember
                obtain ⟨piece, hpiece, heq⟩ := member_eq_ok_iff.mp hmember
                cases hlater : laterMembers more with
                | error fault => rw [hlater] at h; cases h
                | ok pair =>
                    rw [hlater] at h
                    cases h
                    refine ⟨before, after, piece, more, hbefore, hafter, hpiece, ?_, hlater⟩
                    rw [hquote, heq, Decidable.not_not.mp hcomma]
                    simp [comma]
            · split at h <;> cases h
  · intro h
    rcases h with ⟨before, after, piece, more, hbefore, hafter, hpiece, rfl, hmore⟩
    obtain ⟨tail, rfl⟩ := hpiece.exists_quote
    have hskip : skipBlank (before ++ 0x2C :: after ++ (quote :: tail ++ more)) =
        comma :: (after ++ (quote :: tail ++ more)) :=
      skipBlank_eq_cons_iff.mpr ⟨before, hbefore, by simp [comma], by decide⟩
    have hkey : skipBlank (after ++ (quote :: tail ++ more)) = quote :: (tail ++ more) :=
      skipBlank_eq_cons_iff.mpr ⟨after, hafter, rfl, by decide⟩
    have hmember : member (tail ++ more) = .ok (entry, more) :=
      member_eq_ok_iff.mpr ⟨_, hpiece, rfl⟩
    rw [laterMembers]
    split
    · rename_i hnil
      rw [hskip] at hnil
      cases hnil
    · rename_i byte rest hcons
      rw [hskip] at hcons
      cases hcons
      rw [if_neg (by decide), if_neg (by simp)]
      split
      · rename_i hnil
        rw [hkey] at hnil
        cases hnil
      · rename_i lead rest hcons
        rw [hkey] at hcons
        cases hcons
        rw [if_pos rfl]
        split
        · rename_i hother
          rw [hmember] at hother
          cases hother
        · rename_i hother
          rw [hmember] at hother
          cases hother
          rw [hmore]
          rfl

/-- A member and what is read behind it are members with commas between them. -/
theorem exists_member_laterMembers_iff {input rest : List UInt8} {entry : String × String}
    {entries : List (String × String)} :
    (∃ piece more, Member piece entry ∧ input = piece ++ more
        ∧ laterMembers more = .ok (entries, rest)) ↔
      ∃ pieces blanks, Members pieces (entry :: entries) ∧ Blanks blanks
        ∧ input = pieces ++ (blanks ++ closeBrace :: rest) := by
  induction entries generalizing input entry with
  | nil =>
      constructor
      · intro h
        rcases h with ⟨piece, more, hpiece, rfl, hmore⟩
        obtain ⟨blanks, hblanks, rfl⟩ := laterMembers_eq_ok_nil_iff.mp hmore
        exact ⟨piece, blanks, .one hpiece, hblanks, rfl⟩
      · intro h
        rcases h with ⟨pieces, blanks, hpieces, hblanks, rfl⟩
        refine ⟨pieces, _, ?_, rfl, laterMembers_eq_ok_nil_iff.mpr ⟨blanks, hblanks, rfl⟩⟩
        cases hpieces with
        | one hpiece => exact hpiece
        | more _ _ _ hrest => cases hrest
  | cons next entries ih =>
      constructor
      · intro h
        rcases h with ⟨piece, more, hpiece, rfl, hmore⟩
        obtain ⟨before, after, piece', more', hbefore, hafter, hpiece', rfl, hmore'⟩ :=
          laterMembers_eq_ok_cons_iff.mp hmore
        obtain ⟨pieces, blanks, hpieces, hblanks, heq⟩ :=
          ih.mp ⟨piece', more', hpiece', rfl, hmore'⟩
        exact ⟨_, blanks, .more hpiece hbefore hafter hpieces, hblanks, by rw [heq]; simp⟩
      · intro h
        rcases h with ⟨pieces, blanks, hpieces, hblanks, rfl⟩
        cases hpieces with
        | @more piece before after others _ _ hpiece hbefore hafter hrest =>
            obtain ⟨piece', more', hpiece', heq, hmore'⟩ :=
              ih.mpr ⟨others, blanks, hrest, hblanks, rfl⟩
            refine ⟨piece, before ++ 0x2C :: after ++ (piece' ++ more'), hpiece, ?_, ?_⟩
            · rw [← heq]
              simp
            · exact laterMembers_eq_ok_cons_iff.mpr
                ⟨before, after, piece', more', hbefore, hafter, hpiece', rfl, hmore'⟩

/-- An object is read from behind its opening brace. -/
theorem members_eq_ok_iff {input rest : List UInt8} {entries : List (String × String)} :
    members input = .ok (entries, rest) ↔
      ∃ object, ObjectOf object entries ∧ openBrace :: input = object ++ rest := by
  constructor
  · intro h
    unfold members at h
    split at h
    · cases h
    · rename_i lead more hskip
      obtain ⟨blanks, hblanks, rfl, _⟩ := skipBlank_eq_cons_iff.mp hskip
      split at h
      · rename_i hclose
        cases h
        exact ⟨_, .empty hblanks, by rw [hclose]; simp [openBrace, closeBrace]⟩
      · split at h
        · rename_i hquote
          split at h
          · cases h
          · rename_i entry after hmember
            cases hlater : laterMembers after with
            | error fault => rw [hlater] at h; cases h
            | ok pair =>
                rw [hlater] at h
                cases h
                obtain ⟨piece, hpiece, heq⟩ := member_eq_ok_iff.mp hmember
                obtain ⟨pieces, last, hpieces, hlast, hinput⟩ :=
                  exists_member_laterMembers_iff.mp ⟨piece, after, hpiece, heq, hlater⟩
                refine ⟨_, .filled hblanks hpieces hlast, ?_⟩
                rw [hquote, hinput]
                simp [openBrace, closeBrace]
        · cases h
  · intro h
    rcases h with ⟨object, hobject, heq⟩
    cases hobject with
    | @empty blanks hblanks =>
        have hinput : input = blanks ++ closeBrace :: rest := by
          simpa [openBrace, closeBrace] using heq
        have hskip : skipBlank input = closeBrace :: rest :=
          skipBlank_eq_cons_iff.mpr ⟨blanks, hblanks, hinput, by decide⟩
        rw [members, hskip]
        simp
    | @filled before pieces after _ hbefore hpieces hafter =>
        have hinput : input = before ++ (pieces ++ (after ++ closeBrace :: rest)) := by
          simpa [openBrace, closeBrace] using heq
        obtain ⟨entry, others, rfl⟩ : ∃ entry others, entries = entry :: others := by
          cases hpieces <;> exact ⟨_, _, rfl⟩
        obtain ⟨piece, more, hpiece, hsplit, hmore⟩ :=
          exists_member_laterMembers_iff.mpr ⟨pieces, after, hpieces, hafter, rfl⟩
        obtain ⟨tail, rfl⟩ := hpiece.exists_quote
        have hskip : skipBlank input = quote :: (tail ++ more) :=
          skipBlank_eq_cons_iff.mpr ⟨before, hbefore, by rw [hinput, hsplit]; rfl, by decide⟩
        have hmember : member (tail ++ more) = .ok (entry, more) :=
          member_eq_ok_iff.mpr ⟨_, hpiece, rfl⟩
        rw [members, hskip]
        simp only [if_neg (show ¬ quote = closeBrace by decide), if_true, hmember, hmore]
        rfl

theorem checkEnd_eq_ok_iff {input : List UInt8} : checkEnd input = .ok () ↔ Blanks input := by
  rw [checkEnd, ← skipBlank_eq_nil_iff]
  split
  · rename_i hskip
    simp [hskip]
  · rename_i hskip
    simp [hskip]

theorem wholeObject_eq_ok_iff {input : List UInt8} {entries : List (String × String)} :
    wholeObject input = .ok entries ↔ IsObjectText input entries := by
  constructor
  · intro h
    unfold wholeObject at h
    split at h
    · cases h
    · rename_i lead rest hskip
      obtain ⟨before, hbefore, rfl, _⟩ := skipBlank_eq_cons_iff.mp hskip
      split at h
      · rename_i hopen
        split at h
        · cases h
        · rename_i found after hmembers
          obtain ⟨object, hobject, heq⟩ := members_eq_ok_iff.mp hmembers
          cases hend : checkEnd after with
          | error fault => rw [hend] at h; cases h
          | ok done =>
              rw [hend] at h
              cases h
              have htext := IsObjectText.mk hbefore hobject (checkEnd_eq_ok_iff.mp hend)
              rwa [List.append_assoc, ← heq, ← hopen] at htext
      · cases h
  · intro h
    rcases h with ⟨hbefore, hobject, hafter⟩
    rename_i before object after
    obtain ⟨tail, rfl⟩ : ∃ tail, object = openBrace :: tail := by
      cases hobject <;> exact ⟨_, rfl⟩
    have hskip : skipBlank (before ++ openBrace :: tail ++ after) = openBrace :: (tail ++ after) :=
      skipBlank_eq_cons_iff.mpr ⟨before, hbefore, by simp, by decide⟩
    have hmembers : members (tail ++ after) = .ok (entries, after) :=
      members_eq_ok_iff.mpr ⟨_, hobject, rfl⟩
    rw [wholeObject, hskip]
    simp only [if_true, hmembers, checkEnd_eq_ok_iff.mpr hafter]
    rfl

/-- A text is read, with the members it stands for, exactly if it is an object of strings. -/
theorem readObject_eq_ok_iff {input : List UInt8} {entries : List (String × String)} :
    readObject input = .ok entries ↔ IsObjectText input entries := by
  rw [← wholeObject_eq_ok_iff, readObject]
  cases wholeObject input with
  | error fault => simp [Except.mapError]
  | ok members => simp [Except.mapError]

/-- A text is an object of strings in at most one way. -/
theorem IsObjectText.unique {input : List UInt8} {left right : List (String × String)}
    (hleft : IsObjectText input left) (hright : IsObjectText input right) : left = right := by
  have hread := readObject_eq_ok_iff.mpr hleft
  rw [readObject_eq_ok_iff.mpr hright] at hread
  cases hread
  rfl

end PadBridge.Json
