import PadBridge.Path

/-!
Paths taken apart.  The parent of a path leads where the pieces in front of the path's last step
lead: it leaves out only pieces that are no steps.
-/

namespace PadBridge.Path

theorem pieces_eq_splitOn (bytes : List UInt8) : pieces bytes = bytes.splitOn slash := by
  induction bytes with
  | nil => rfl
  | cons byte rest ih =>
      rw [pieces, ih, List.splitOn_cons_eq_if_modifyHead]
      by_cases hbyte : byte = slash
      · simp [hbyte]
      · rw [if_neg hbyte, if_neg (by simpa using hbyte)]
        cases hrest : rest.splitOn slash with
        | nil => exact absurd hrest (List.splitOn_ne_nil slash rest)
        | cons piece more => rfl

theorem pieces_ne_nil (bytes : List UInt8) : pieces bytes ≠ [] := by
  rw [pieces_eq_splitOn]
  exact List.splitOn_ne_nil slash bytes

theorem intercalate_pieces (bytes : List UInt8) : [slash].intercalate (pieces bytes) = bytes := by
  rw [pieces_eq_splitOn, List.intercalate_splitOn]

theorem pieces_intercalate {parts : List (List UInt8)} (hparts : parts ≠ [])
    (hslash : ∀ part ∈ parts, slash ∉ part) : pieces ([slash].intercalate parts) = parts := by
  rw [pieces_eq_splitOn, List.splitOn_intercalate slash hslash hparts]

theorem pieces_slash_cons (rest : List UInt8) : pieces (slash :: rest) = [] :: pieces rest := by
  simp [pieces]

theorem slash_notMem_of_mem_pieces {bytes piece : List UInt8} (hpiece : piece ∈ pieces bytes) :
    slash ∉ piece := by
  induction bytes generalizing piece with
  | nil =>
      rw [pieces, List.mem_singleton] at hpiece
      simp [hpiece]
  | cons byte rest ih =>
      rw [pieces] at hpiece
      split at hpiece
      · rcases List.mem_cons.mp hpiece with rfl | hrest
        · simp
        · exact ih hrest
      · rename_i hbyte
        split at hpiece
        · rename_i hnil
          rw [List.mem_singleton] at hpiece
          simpa [hpiece] using fun h : slash = byte => hbyte h.symm
        · rename_i first more hrest
          rcases List.mem_cons.mp hpiece with rfl | hmore
          · intro hmem
            rcases List.mem_cons.mp hmem with h | h
            · exact hbyte h.symm
            · exact ih (hrest ▸ List.mem_cons_self) h
          · exact ih (hrest ▸ List.mem_cons_of_mem first hmore)

theorem mem_of_mem_pieces {bytes piece : List UInt8} (hpiece : piece ∈ pieces bytes) {byte : UInt8}
    (hbyte : byte ∈ piece) : byte ∈ bytes := by
  rw [← intercalate_pieces bytes]
  generalize pieces bytes = parts at hpiece
  induction parts with
  | nil => cases hpiece
  | cons part rest ih =>
      cases rest with
      | nil =>
          rw [List.mem_singleton] at hpiece
          rwa [List.intercalate_singleton, ← hpiece]
      | cons next rest =>
          rw [List.intercalate_cons_cons, List.mem_append, List.mem_append]
          rcases List.mem_cons.mp hpiece with rfl | hrest
          · exact Or.inl (Or.inl hbyte)
          · exact Or.inr (ih hrest)

/-- Joined parts begin with the parts in front, joined. -/
theorem intercalate_front (front rest : List (List UInt8)) :
    [slash].intercalate front <+: [slash].intercalate (front ++ rest) := by
  induction front with
  | nil => exact List.nil_prefix
  | cons part front ih =>
      cases front with
      | nil =>
          cases rest with
          | nil => exact List.prefix_rfl
          | cons next rest =>
              rw [List.intercalate_singleton, List.cons_append, List.nil_append,
                List.intercalate_cons_cons, List.append_assoc]
              exact List.prefix_append part _
      | cons next front =>
          rw [List.cons_append, List.cons_append, List.intercalate_cons_cons,
            List.intercalate_cons_cons, List.append_assoc, List.append_assoc]
          exact (List.prefix_append_right_inj _).mpr ((List.prefix_append_right_inj _).mpr ih)

/-- Pieces that are no steps are left out at the end and nowhere else. -/
theorem exists_toStep_reverse (parts : List (List UInt8)) :
    ∃ kept dropped, parts = kept ++ dropped ∧ toStep parts.reverse = kept.reverse
      ∧ ∀ part ∈ dropped, component? part = none := by
  refine ⟨(toStep parts.reverse).reverse,
    (parts.reverse.takeWhile fun part => (component? part).isNone).reverse, ?_, ?_, ?_⟩
  · rw [← List.reverse_append, toStep, List.takeWhile_append_dropWhile, List.reverse_reverse]
  · rw [List.reverse_reverse]
  · intro part hpart
    have hall := List.all_takeWhile (p := fun part => (component? part).isNone)
      (l := parts.reverse)
    rw [List.all_eq_true] at hall
    exact Option.isNone_iff_eq_none.mp (hall part (List.mem_reverse.mp hpart))

theorem components_getLast? {path : Path} {front : List (List UInt8)} {name : List UInt8}
    (hpieces : pieces path.bytes = front ++ [name]) (hname : component? name = some (.name name)) :
    path.components.getLast? = some (.name name) := by
  rw [components, hpieces, List.filterMap_append, ← List.append_assoc]
  simp [hname]

theorem fileName?_eq {path : Path} {front : List (List UInt8)} {name : List UInt8}
    (hpieces : pieces path.bytes = front ++ [name]) (hname : component? name = some (.name name)) :
    path.fileName? = some name := by
  rw [fileName?, components_getLast? hpieces hname]

/-- The same pieces up to pieces at the end that are no steps. -/
def SameSteps (left right : List (List UInt8)) : Prop :=
  ∃ steps leftEnd rightEnd, left = steps ++ leftEnd ∧ right = steps ++ rightEnd
    ∧ (∀ part ∈ leftEnd, component? part = none) ∧ ∀ part ∈ rightEnd, component? part = none

/-- The directory that a path's last step is taken in: its parent, and for a bare name the directory
one starts from. -/
def directory (path : Path) : Path :=
  match path.parent? with
  | some parent => if parent.bytes = [] then ⟨[dot]⟩ else parent
  | none => ⟨[dot]⟩

/-- The paths of the directories on the way to a path's last step, the longest one first. -/
def ancestors (path : Path) : List Path :=
  match path.parent? with
  | some parent => parent.waypoints
  | none => []

example : (ofString "a/b/m.json").ancestors = [ofString "a/b", ofString "a"] := by
  decide

theorem component?_nil : component? [] = none :=
  rfl

theorem component?_dot : component? [dot] = none :=
  rfl

theorem pieces_dot : pieces [dot] = [[dot]] := by
  decide

/-- The spelling of a parent, from the opening of the path and the pieces in front of the name. -/
theorem parent?_eq {path : Path} {front inner : List (List UInt8)} {name : List UInt8}
    (hpieces : pieces path.bytes = front ++ [name]) (hname : component? name = some (.name name))
    (hbody : pieces (path.bytes.drop path.opening.length) = inner ++ [name]) :
    path.parent? = some (spelled path.opening (toStep inner.reverse)) := by
  have hstep : toStep (name :: inner.reverse) = name :: inner.reverse := by
    rw [toStep, List.dropWhile_cons_of_neg (by simp [hname])]
  rw [parent?, components_getLast? hpieces hname, body, hbody, List.reverse_append,
    List.reverse_singleton, List.singleton_append, hstep, List.tail_cons]

/-- What a path is about: its parent is a front part of it and leads where its pieces in front of
the name lead. -/
structure Parent (path : Path) (front : List (List UInt8)) (parent : Path) : Prop where
  parent? : path.parent? = some parent
  bytes : parent.bytes <+: path.bytes
  isAbsolute : path.directory.isAbsolute = path.isAbsolute
  steps : SameSteps (pieces path.directory.bytes) front

theorem directory_eq {path parent : Path} (hparent : path.parent? = some parent) :
    path.directory = if parent.bytes = [] then ⟨[dot]⟩ else parent := by
  rw [directory, hparent]

theorem exists_parent_of_absolute {path : Path} {front : List (List UInt8)} {name : List UInt8}
    (hpieces : pieces path.bytes = front ++ [name]) (hname : component? name = some (.name name))
    (habsolute : path.isAbsolute = true) : ∃ parent, Parent path front parent := by
  obtain ⟨rest, hbytes⟩ : ∃ rest, path.bytes = slash :: rest := by
    rw [isAbsolute, decide_eq_true_iff] at habsolute
    cases hpath : path.bytes with
    | nil => simp [hpath] at habsolute
    | cons byte rest =>
        rw [hpath, List.head?_cons, Option.some.injEq] at habsolute
        exact ⟨rest, by rw [habsolute]⟩
  have hopening : path.opening = [slash] := by
    rw [opening, if_pos (Or.inl habsolute), hbytes]
    rfl
  obtain ⟨inner, rfl, hrest⟩ : ∃ inner, front = [] :: inner ∧ pieces rest = inner ++ [name] := by
    rw [hbytes, pieces_slash_cons] at hpieces
    cases front with
    | nil =>
        obtain ⟨rfl, _⟩ := List.cons.inj hpieces
        cases hname
    | cons part inner =>
        obtain ⟨rfl, hrest⟩ := List.cons.inj hpieces
        exact ⟨inner, rfl, hrest⟩
  obtain ⟨kept, dropped, rfl, hkept, hdropped⟩ := exists_toStep_reverse inner
  have hbody : pieces (path.bytes.drop path.opening.length) = (kept ++ dropped) ++ [name] := by
    rw [hopening, hbytes]
    exact hrest
  have hparent := parent?_eq hpieces hname hbody
  rw [hopening, hkept, spelled, List.reverse_reverse] at hparent
  have hdirectory := directory_eq hparent
  rw [if_neg (by simp)] at hdirectory
  refine ⟨_, hparent, ?_, ?_, ?_⟩
  · rw [hbytes, ← intercalate_pieces rest, hrest, List.append_assoc]
    exact (List.prefix_append_right_inj [slash]).mpr (intercalate_front kept _)
  · rw [hdirectory, habsolute]
    rfl
  · rw [hdirectory]
    change SameSteps (pieces (slash :: [slash].intercalate kept)) _
    rw [pieces_slash_cons]
    cases hcases : kept with
    | nil =>
        refine ⟨[], [[], []], [] :: dropped, rfl, by simp, by simp [component?_nil], ?_⟩
        intro part hpart
        rcases List.mem_cons.mp hpart with rfl | hpart
        · exact component?_nil
        · exact hdropped part hpart
    | cons first more =>
        rw [← hcases, pieces_intercalate (by simp [hcases])]
        · exact ⟨[] :: kept, [], dropped, by simp, by simp, by simp, hdropped⟩
        · intro part hpart
          have hpieceRest : part ∈ pieces rest := by simp [hrest, hpart]
          exact slash_notMem_of_mem_pieces hpieceRest

theorem exists_parent_of_current {path : Path} {front : List (List UInt8)} {name : List UInt8}
    (hpieces : pieces path.bytes = front ++ [name]) (hname : component? name = some (.name name))
    (habsolute : path.isAbsolute = false) (hcurrent : path.startsAtCurrent = true) :
    ∃ parent, Parent path front parent := by
  obtain ⟨inner, rfl⟩ : ∃ inner, front = [dot] :: inner := by
    rw [startsAtCurrent, hpieces, decide_eq_true_iff] at hcurrent
    cases front with
    | nil =>
        cases hcurrent
        cases hname
    | cons part inner =>
        cases hcurrent
        exact ⟨inner, rfl⟩
  have hbytes : path.bytes = [dot] ++ [slash].intercalate ([] :: (inner ++ [name])) := by
    rw [← intercalate_pieces path.bytes, hpieces, List.cons_append,
      List.intercalate_cons_cons_left]
    rfl
  have hopening : path.opening = [dot] := by
    rw [opening, if_pos (Or.inr hcurrent), hbytes]
    rfl
  have hslash : ∀ part ∈ inner ++ [name], slash ∉ part := by
    intro part hpart
    have hpiece : part ∈ pieces path.bytes := by
      rw [hpieces]
      exact List.mem_cons_of_mem _ hpart
    exact slash_notMem_of_mem_pieces hpiece
  have hinner : pieces (path.bytes.drop path.opening.length) = [] :: inner ++ [name] := by
    rw [hopening, hbytes, List.drop_left, pieces_intercalate (by simp)]
    · rfl
    · intro part hpart
      rcases List.mem_cons.mp hpart with rfl | hpart
      · simp
      · exact hslash part hpart
  obtain ⟨kept, dropped, hsplit, hkept, hdropped⟩ := exists_toStep_reverse ([] :: inner)
  have hparent := parent?_eq hpieces hname hinner
  rw [hopening, hkept, spelled, List.reverse_reverse] at hparent
  have hdirectory := directory_eq hparent
  rw [if_neg (by simp)] at hdirectory
  refine ⟨_, hparent, ?_, ?_, ?_⟩
  · rw [hbytes, ← List.cons_append, hsplit, List.append_assoc]
    exact (List.prefix_append_right_inj [dot]).mpr (intercalate_front kept _)
  · rw [hdirectory, habsolute]
    rfl
  · rw [hdirectory]
    cases kept with
    | nil =>
        refine ⟨[[dot]], [], inner, pieces_dot, rfl, by simp, ?_⟩
        intro part hpart
        apply hdropped part
        rw [List.nil_append] at hsplit
        exact hsplit ▸ List.mem_cons_of_mem _ hpart
    | cons first more =>
        obtain ⟨rfl, rfl⟩ := List.cons.inj hsplit
        change SameSteps (pieces (dot :: [slash].intercalate ([] :: more))) _
        rw [← List.intercalate_cons_cons_left, pieces_intercalate (by simp)]
        · exact ⟨[dot] :: more, [], dropped, by simp, rfl, by simp, hdropped⟩
        · intro part hpart
          rcases List.mem_cons.mp hpart with rfl | hpart
          · decide
          · exact hslash part (by simp [hpart])

theorem exists_parent_of_bare {path : Path} {front : List (List UInt8)} {name : List UInt8}
    (hpieces : pieces path.bytes = front ++ [name]) (hname : component? name = some (.name name))
    (habsolute : path.isAbsolute = false) (hcurrent : path.startsAtCurrent = false) :
    ∃ parent, Parent path front parent := by
  have hopening : path.opening = [] := by
    rw [opening, if_neg (by simp [habsolute, hcurrent])]
  obtain ⟨kept, dropped, rfl, hkept, hdropped⟩ := exists_toStep_reverse front
  have hbody : pieces (path.bytes.drop path.opening.length) = (kept ++ dropped) ++ [name] := by
    rw [hopening]
    exact hpieces
  have hparent := parent?_eq hpieces hname hbody
  rw [hopening, hkept, spelled, List.reverse_reverse, List.nil_append] at hparent
  have hdirectory := directory_eq hparent
  have hbytes : [slash].intercalate kept <+: path.bytes := by
    rw [← intercalate_pieces path.bytes, hpieces, List.append_assoc]
    exact intercalate_front kept _
  have hslash : ∀ part ∈ kept, slash ∉ part := by
    intro part hpart
    have hpiece : part ∈ pieces path.bytes := by simp [hpieces, hpart]
    exact slash_notMem_of_mem_pieces hpiece
  by_cases hempty : [slash].intercalate kept = []
  · rw [if_pos hempty] at hdirectory
    refine ⟨_, hparent, hbytes, by rw [hdirectory, habsolute]; rfl, ?_⟩
    rw [hdirectory]
    refine ⟨[], [[dot]], kept ++ dropped, pieces_dot, rfl, by simp [component?_dot], ?_⟩
    intro part hpart
    rcases List.mem_append.mp hpart with hpart | hpart
    · have hsingle := pieces_intercalate (List.ne_nil_of_mem hpart) hslash
      rw [hempty] at hsingle
      rw [← hsingle, pieces, List.mem_singleton] at hpart
      rw [hpart, component?_nil]
    · exact hdropped part hpart
  · rw [if_neg hempty] at hdirectory
    refine ⟨_, hparent, hbytes, ?_, ?_⟩
    · obtain ⟨rest, hrest⟩ := hbytes
      rw [hdirectory, isAbsolute, isAbsolute, ← hrest]
      cases hjoined : [slash].intercalate kept with
      | nil => exact absurd hjoined hempty
      | cons byte more => rfl
    · rw [hdirectory]
      change SameSteps (pieces ([slash].intercalate kept)) _
      rw [pieces_intercalate (by rintro rfl; exact hempty rfl) hslash]
      exact ⟨kept, [], dropped, by simp, rfl, by simp, hdropped⟩

/-- A path whose last piece is a name has a parent. -/
theorem exists_parent {path : Path} {front : List (List UInt8)} {name : List UInt8}
    (hpieces : pieces path.bytes = front ++ [name]) (hname : component? name = some (.name name)) :
    ∃ parent, Parent path front parent := by
  cases habsolute : path.isAbsolute with
  | true => exact exists_parent_of_absolute hpieces hname habsolute
  | false =>
      cases hcurrent : path.startsAtCurrent with
      | true => exact exists_parent_of_current hpieces hname habsolute hcurrent
      | false => exact exists_parent_of_bare hpieces hname habsolute hcurrent

end PadBridge.Path
