import PadBridge.Log.Filter
import PadBridge.Proofs.Faults
import PadBridge.Proofs.Utf8

/-!
Where a log filter is cut.  The parts of a directive are found in its text without the blanks around
it, but they are cut from the whole text, at the same byte positions.  A filter can be taken apart
where these positions lie between characters of the whole text as well: where a directive has no
blank in front, and where all its characters take one byte.
-/

namespace PadBridge.Log

namespace Directive

open Text (isBlank trim)

def byteLength : List Char → Nat
  | [] => 0
  | c :: text => c.utf8Size + byteLength text


@[simp] theorem byteLength_nil : byteLength [] = 0 :=
  rfl

@[simp] theorem byteLength_cons (c : Char) (text : List Char) :
    byteLength (c :: text) = c.utf8Size + byteLength text :=
  rfl

@[simp] theorem byteLength_append (left right : List Char) :
    byteLength (left ++ right) = byteLength left + byteLength right := by
  induction left with
  | nil => simp
  | cons c left ih => rw [List.cons_append, byteLength_cons, byteLength_cons, ih, Nat.add_assoc]

theorem byteLength_eq_zero_iff {text : List Char} : byteLength text = 0 ↔ text = [] := by
  cases text with
  | nil => simp
  | cons c text =>
      have hpos := c.utf8Size_pos
      simp only [byteLength_cons, reduceCtorEq, iff_false]
      omega

/-- Whether a byte position of a text lies between its characters. -/
def Between (text : List Char) (position : Nat) : Prop :=
  ∃ front, front <+: text ∧ byteLength front = position

theorem splitBytes_append (front back : List Char) :
    splitBytes (byteLength front) (front ++ back) = .ok (front, back) := by
  induction front with
  | nil =>
      cases back <;> rfl
  | cons c front ih =>
      have hpos := c.utf8Size_pos
      obtain ⟨count, hcount⟩ : ∃ count, byteLength (c :: front) = count + 1 :=
        ⟨byteLength (c :: front) - 1, by rw [byteLength_cons]; omega⟩
      have hrest : count + 1 - c.utf8Size = byteLength front := by
        rw [← hcount, byteLength_cons]
        omega
      have hle : c.utf8Size ≤ count + 1 := by
        rw [← hcount, byteLength_cons]
        omega
      rw [hcount, List.cons_append, splitBytes, if_pos hle, hrest, ih]
      rfl

/-- Of two fronts of a text the longer one starts with the shorter one. -/
theorem prefix_of_byteLength_le {text front other : List Char} (hfront : front <+: text)
    (hother : other <+: text) (hle : byteLength front ≤ byteLength other) : front <+: other := by
  rcases List.prefix_or_prefix_of_prefix hfront hother with hprefix | ⟨more, rfl⟩
  · exact hprefix
  · have hmore : more = [] := by
      rw [← byteLength_eq_zero_iff]
      rw [byteLength_append] at hle
      omega
    simp [hmore]

theorem exists_cutFrom {text : List Char} {first : Nat} (hfirst : Between text first) :
    ∃ piece, cutFrom text first = .ok piece := by
  obtain ⟨front, ⟨back, rfl⟩, rfl⟩ := hfirst
  rw [cutFrom, splitBytes_append]
  exact ⟨back, rfl⟩

theorem exists_cut {text : List Char} {first last : Nat} (hfirst : Between text first)
    (hlast : Between text last) (hle : first ≤ last) :
    ∃ piece, cut text first last = .ok piece := by
  obtain ⟨front, hfront, rfl⟩ := hfirst
  obtain ⟨other, hother, rfl⟩ := hlast
  have hinner : Between other (byteLength front) :=
    ⟨front, prefix_of_byteLength_le hfront hother hle, rfl⟩
  obtain ⟨back, rfl⟩ := hother
  rw [cut, splitBytes_append]
  exact exists_cutFrom hinner

/-- The positions that are found in a text without its blanks lie between characters of the whole
text. -/
def Aligned (text : List Char) : Prop :=
  ∀ front, front <+: trim text → Between text (byteLength front)

def Part.first? : Part → Option Nat
  | .word first | .span first | .field first | .level first => some first
  | .start | .fieldEnd | .bracketEnd => none

/-- Some characters have been taken; a part that has begun began at one of them. -/
structure Progress.Has (progress : Progress) (taken : List Char) : Prop where
  position : progress.position = byteLength taken
  first : ∀ first, progress.part.first? = some first → Between taken first

variable {text taken : List Char} {progress : Progress} {c : Char} {first : Nat}

theorem Between.append (hfirst : Between taken first) (more : List Char) :
    Between (taken ++ more) first := by
  obtain ⟨front, hfront, hlength⟩ := hfirst
  exact ⟨front, hfront.trans (List.prefix_append taken more), hlength⟩

theorem between_self (text : List Char) : Between text (byteLength text) :=
  ⟨text, List.prefix_refl text, rfl⟩

/-- A part that is over can be cut from the whole text. -/
theorem faultOr_cut (haligned : Aligned text) (htaken : taken <+: trim text)
    (hfirst : Between taken first) :
    FaultOr (· = .malformed) (fun _ => True) (cut text first (byteLength taken)) := by
  obtain ⟨front, hfront, rfl⟩ := hfirst
  have hle : byteLength front ≤ byteLength taken := by
    obtain ⟨back, rfl⟩ := hfront
    rw [byteLength_append]
    omega
  obtain ⟨piece, hpiece⟩ :=
    exists_cut (haligned front (hfront.trans htaken)) (haligned taken htaken) hle
  rw [hpiece]
  exact .done trivial

theorem faultOr_cutFrom (haligned : Aligned text) (htaken : taken <+: trim text)
    (hfirst : Between taken first) :
    FaultOr (· = .malformed) (fun _ => True) (cutFrom text first) := by
  obtain ⟨front, hfront, rfl⟩ := hfirst
  obtain ⟨piece, hpiece⟩ := exists_cutFrom (haligned front (hfront.trans htaken))
  rw [hpiece]
  exact .done trivial

theorem faultOr_readField (text : List Char) :
    FaultOr (· = .malformed) (fun _ => True) (readField text) := by
  unfold readField
  dsimp only
  split
  · split
    · exact .fault rfl
    · exact .done trivial
  · split
    · exact .done trivial
    · exact .fault rfl

/-- A part that goes on after a character, or begins with it or behind it. -/
theorem has_next (directive : Directive) {part : Part}
    (hpart : ∀ first, part.first? = some first →
      Between taken first ∨ first = byteLength taken ∨ first = byteLength taken + c.utf8Size) :
    Progress.Has ⟨directive, part, byteLength taken + c.utf8Size⟩ (taken ++ [c]) where
  position := by simp
  first first hfirst := by
    rcases hpart first hfirst with htaken | rfl | rfl
    · exact htaken.append [c]
    · exact (between_self taken).append [c]
    · have hself := between_self (taken ++ [c])
      simpa using hself

/-- Taking a character keeps to the places between characters. -/
theorem faultOr_take (haligned : Aligned text) (htaken : taken <+: trim text)
    (hprogress : progress.Has taken) (c : Char) :
    FaultOr (· = .malformed) (fun next => next.Has (taken ++ [c])) (take text progress c) := by
  obtain ⟨directive, part, position⟩ := progress
  obtain ⟨rfl, hfirst⟩ := hprogress
  have hbehind : ∀ directive {part : Part},
      part.first? = none ∨ part.first? = some (byteLength taken + c.utf8Size) →
      Progress.Has ⟨directive, part, byteLength taken + c.utf8Size⟩ (taken ++ [c]) := by
    intro directive part hpart
    refine has_next directive fun first hsome => Or.inr (Or.inr ?_)
    rcases hpart with hnone | hbegins
    · rw [hnone] at hsome
      cases hsome
    · rw [hbegins] at hsome
      cases hsome
      rfl
  have hstay : Progress.Has ⟨directive, part, byteLength taken + c.utf8Size⟩ (taken ++ [c]) :=
    has_next directive fun first hsome => Or.inl (hfirst first hsome)
  unfold take
  cases part with
  | start =>
      dsimp only
      split
      · exact .done (hbehind _ (Or.inr rfl))
      · split
        · refine .done (has_next _ fun first hsome => Or.inr (Or.inl ?_))
          cases hsome
          rfl
        · exact .fault rfl
  | word first =>
      have hcut := faultOr_cut haligned htaken (hfirst first rfl)
      dsimp only
      split
      · exact hcut.bind fun _ _ => .done (hbehind _ (Or.inr rfl))
      · split
        · exact hcut.bind fun _ _ => .done (hbehind _ (Or.inr rfl))
        · exact .done hstay
  | span first =>
      have hcut := faultOr_cut haligned htaken (hfirst first rfl)
      dsimp only
      split
      · exact hcut.bind fun _ _ => .done (hbehind _ (Or.inl rfl))
      · split
        · exact hcut.bind fun _ _ => .done (hbehind _ (Or.inr rfl))
        · exact .done hstay
  | field first =>
      have hcut := faultOr_cut haligned htaken (hfirst first rfl)
      dsimp only
      split
      · refine hcut.bind fun text _ => (faultOr_readField text).bind fun _ _ => ?_
        exact .done (hbehind _ (Or.inl rfl))
      · exact .done hstay
  | fieldEnd =>
      dsimp only
      split
      · exact .done (hbehind _ (Or.inl rfl))
      · exact .fault rfl
  | bracketEnd =>
      dsimp only
      split
      · exact .done (hbehind _ (Or.inr rfl))
      · exact .fault rfl
  | level first => exact .done hstay

theorem faultOr_takeAll (haligned : Aligned text) {rest : List Char}
    (hrest : taken ++ rest <+: trim text) (hprogress : progress.Has taken) :
    FaultOr (· = .malformed) (fun last => last.Has (taken ++ rest))
      (rest.foldlM (take text) progress) := by
  induction rest generalizing taken progress with
  | nil =>
      rw [List.append_nil]
      exact .done hprogress
  | cons c rest ih =>
      rw [List.foldlM_cons]
      have htaken := (List.prefix_append taken (c :: rest)).trans hrest
      refine (faultOr_take haligned htaken hprogress c).bind fun next hnext => ?_
      have hmore : taken ++ [c] ++ rest <+: trim text := by simpa using hrest
      have hlast := ih hmore hnext
      simpa using hlast

theorem faultOr_finish (haligned : Aligned text) (htaken : taken <+: trim text)
    (hprogress : progress.Has taken) :
    FaultOr (· = .malformed) (fun _ => True) (finish text progress) := by
  obtain ⟨directive, part, position⟩ := progress
  have hcut : ∀ first, part.first? = some first →
      FaultOr (· = .malformed) (fun _ => True) (cutFrom text first) :=
    fun first hfirst => faultOr_cutFrom haligned htaken (hprogress.first first hfirst)
  unfold finish
  cases part with
  | word first =>
      refine (hcut first rfl).bind fun word _ => ?_
      split <;> exact .done trivial
  | level first =>
      refine (hcut first rfl).bind fun word _ => ?_
      split
      · exact .done trivial
      · split
        · exact .done trivial
        · exact .fault rfl
  | bracketEnd => exact .done trivial
  | start | span first | field first | fieldEnd => exact .fault rfl

theorem faultOr_read (haligned : Aligned text) :
    FaultOr (· = .malformed) (fun _ => True) (read text) := by
  have hstart : Progress.start.Has [] := ⟨rfl, fun first hfirst => by cases hfirst⟩
  have hwhole : [] ++ trim text <+: trim text := List.prefix_refl _
  have hall := faultOr_takeAll haligned hwhole hstart
  exact hall.bind fun last hlast => faultOr_finish haligned (List.prefix_refl _) hlast

/-- A directive that has no blank in front, or all of whose characters take one byte. -/
def IsPlain (text : List Char) : Prop :=
  text.head?.any isBlank = false ∨ text.all (fun c => c.utf8Size = 1) = true

instance : DecidablePred IsPlain :=
  fun text => inferInstanceAs (Decidable (_ = false ∨ text.all _ = true))

theorem byteLength_of_ascii (hascii : ∀ c ∈ text, c.utf8Size = 1) :
    byteLength text = text.length := by
  induction text with
  | nil => rfl
  | cons c text ih =>
      rw [byteLength_cons, hascii c List.mem_cons_self,
        ih fun other hother => hascii other (List.mem_cons_of_mem c hother), List.length_cons]
      omega

theorem trim_prefix_dropWhile (text : List Char) : trim text <+: text.dropWhile isBlank := by
  have hsuffix := List.dropWhile_suffix isBlank (l := (text.dropWhile isBlank).reverse)
  have hprefix := List.reverse_prefix.mpr hsuffix
  rwa [List.reverse_reverse] at hprefix

theorem aligned_of_isPlain (hplain : IsPlain text) : Aligned text := by
  intro front hfront
  have hdropped := hfront.trans (trim_prefix_dropWhile text)
  rcases hplain with hhead | hascii
  · have hkept : text.dropWhile isBlank = text := by
      cases text with
      | nil => rfl
      | cons c rest =>
          have hfirst : isBlank c = false := hhead
          exact List.dropWhile_cons_of_neg (by rw [hfirst]; exact Bool.false_ne_true)
    rw [hkept] at hdropped
    exact ⟨front, hdropped, rfl⟩
  · have hbytes : ∀ c ∈ text, c.utf8Size = 1 := fun c hc =>
      of_decide_eq_true (List.all_eq_true.mp hascii c hc)
    have hwhole : front <:+: text :=
      hdropped.isInfix.trans (List.dropWhile_suffix isBlank).isInfix
    have hlength : byteLength front = front.length :=
      byteLength_of_ascii fun c hc => hbytes c (hwhole.subset hc)
    refine ⟨text.take front.length, List.take_prefix _ text, ?_⟩
    rw [byteLength_of_ascii fun c hc => hbytes c (List.mem_of_mem_take hc), hlength,
      List.length_take]
    exact Nat.min_eq_left hwhole.length_le

end Directive

namespace Filter

/-- Whether a chosen filter cannot be taken apart because a cut goes through a character. -/
def IsMiscut (chosen : Option (List UInt8)) : Prop :=
  (chosen.bind Utf8.decode?).map read = some (.error .miscut)

/-- A run is without a filter only where the chosen one cannot be taken apart, whatever the user
asks for besides. -/
theorem choose_eq_none_iff {chosen : Option (List UInt8)} {verbose : Bool} :
    choose chosen verbose = none ↔ IsMiscut chosen := by
  unfold choose IsMiscut
  cases (chosen.bind Utf8.decode?).map read with
  | none => simp
  | some reading =>
      cases reading with
      | ok filter => simp
      | error misreading => cases misreading <;> simp

/-- Plain directives are read, or they are ignored. -/
theorem faultOr_read {text : List Char}
    (hplain : ∀ piece ∈ pieces text, Directive.IsPlain piece) :
    FaultOr (· = .malformed) (fun _ => True) (read text) := by
  unfold read
  split
  · exact .done trivial
  · have hread : ∀ piece ∈ pieces text, FaultOr (· = .malformed) (fun _ => True)
        (Directive.read piece) := fun piece hpiece =>
      Directive.faultOr_read (Directive.aligned_of_isPlain (hplain piece hpiece))
    exact (FaultOr.mapM hread).bind fun _ _ => .done trivial

theorem not_isMiscut {text : String}
    (hplain : ∀ piece ∈ pieces text.toList, Directive.IsPlain piece) :
    ¬ IsMiscut (some (Utf8.bytesOf text)) := by
  have hdecode : Utf8.decode? (Utf8.bytesOf text) = some text.toList :=
    Utf8.decode?_eq_some_iff.mpr rfl
  rw [IsMiscut, Option.bind_some, hdecode, Option.map_some, Option.some.injEq]
  intro hmiscut
  have hread := faultOr_read hplain
  rw [hmiscut] at hread
  cases hread with
  | fault hmalformed => cases hmalformed

end Filter

end PadBridge.Log
