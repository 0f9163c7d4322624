import PadBridge.FileTree.Basic
import PadBridge.Proofs.Faults
import PadBridge.Proofs.Path

/-!
Writing and reading at one path.  A path that a file can be written at leads to an entry of a
directory, and writing it, replacing it and reading it all concern that one entry; the way to it
only depends on which locations are directories.
-/

namespace PadBridge.FileTree

variable {tree : FileTree} {workDirectory here : Location} {path : Path}

theorem check_eq_ok_iff :
    check path = .ok () ↔ 0 ∉ path.bytes ∧ path.bytes ≠ [] ∧ path.bytes.length < pathLimit := by
  unfold check
  by_cases hzero : path.bytes.contains 0 = true
  · have hmem : 0 ∈ path.bytes := List.contains_iff_mem.mp hzero
    simp [hmem]
  · have hmem : 0 ∉ path.bytes := fun h => hzero (List.contains_iff_mem.mpr h)
    rw [if_neg hzero]
    by_cases hempty : path.bytes = []
    · simp [hempty]
    · rw [if_neg hempty]
      by_cases hlength : pathLimit ≤ path.bytes.length
      · simp [hlength]
      · simp [hlength, hmem, hempty, Nat.not_le.mp hlength]

/-- The directory of a path is no worse a path. -/
theorem check_directory (hcheck : check path = .ok ()) {parent : Path}
    (hparent : path.parent? = some parent) (hbytes : parent.bytes <+: path.bytes) :
    check path.directory = .ok () := by
  rw [Path.directory_eq hparent]
  split
  · rfl
  · rename_i hne
    rw [check_eq_ok_iff] at hcheck ⊢
    obtain ⟨hzero, _, hlength⟩ := hcheck
    exact ⟨fun h => hzero (hbytes.subset h), hne, Nat.lt_of_le_of_lt hbytes.length_le hlength⟩

theorem enter_eq_ok_iff {location : Location} :
    tree.enter location = .ok here ↔ location = here ∧ tree.get? location = some .directory := by
  unfold enter
  split <;> simp_all

def walk (tree : FileTree) (location : Location) (parts : List (List UInt8)) :
    Except FileError Location :=
  parts.foldlM tree.follow location >>= tree.enter

theorem walk_eq_ok_iff {location : Location} {parts : List (List UInt8)} :
    tree.walk location parts = .ok here ↔
      parts.foldlM tree.follow location = .ok here ∧ tree.get? here = some .directory := by
  rw [walk, bind_eq_ok_iff]
  constructor
  · intro h
    rcases h with ⟨last, hlast, henter⟩
    obtain ⟨rfl, hdirectory⟩ := enter_eq_ok_iff.mp henter
    exact ⟨hlast, hdirectory⟩
  · intro h
    exact ⟨here, h.1, enter_eq_ok_iff.mpr ⟨rfl, h.2⟩⟩

theorem follow_of_not_step {part : List UInt8} (hpart : Path.component? part = none)
    (location : Location) : tree.follow location part = tree.enter location := by
  have hdot : part = [] ∨ part = [Path.dot] := by
    unfold Path.component? at hpart
    split at hpart
    · assumption
    · split at hpart <;> cases hpart
  rw [follow]
  cases tree.enter location with
  | error error => rfl
  | ok here => simp [hdot, bind, Except.bind, pure, Except.pure]

theorem follow_of_name {name : List UInt8} (hname : Path.component? name = some (.name name))
    (location : Location) :
    tree.follow location name =
      tree.enter location >>= fun here =>
        if longestName < name.length then .error .nameTooLong else .ok (here ++ [name]) := by
  have hsteps : ¬ (name = [] ∨ name = [Path.dot]) ∧ name ≠ [Path.dot, Path.dot] := by
    unfold Path.component? at hname
    split at hname
    · cases hname
    · split at hname
      · cases hname
      · exact ⟨‹_›, ‹_›⟩
  rw [follow]
  simp only [if_neg hsteps.1, if_neg hsteps.2]
  rfl

/-- Pieces at the end that are no steps lead nowhere else. -/
theorem walk_append_of_not_steps (location : Location) (parts : List (List UInt8))
    {rest : List (List UInt8)} (hrest : ∀ part ∈ rest, Path.component? part = none) :
    tree.walk location (parts ++ rest) = tree.walk location parts := by
  induction rest generalizing parts with
  | nil => rw [List.append_nil]
  | cons part rest ih =>
      have hpart := hrest part List.mem_cons_self
      rw [List.append_cons, ih (parts ++ [part]) fun other hother =>
        hrest other (List.mem_cons_of_mem part hother)]
      rw [walk, walk, List.foldlM_append]
      cases parts.foldlM tree.follow location with
      | error error => rfl
      | ok last =>
          simp only [List.foldlM_cons, List.foldlM_nil, follow_of_not_step hpart]
          change (tree.enter last >>= pure) >>= tree.enter = tree.enter last
          cases henter : tree.enter last with
          | error error => rfl
          | ok here =>
              obtain ⟨rfl, _⟩ := enter_eq_ok_iff.mp henter
              exact henter

theorem walk_of_sameSteps (location : Location) {left right : List (List UInt8)}
    (hsame : Path.SameSteps left right) : tree.walk location left = tree.walk location right := by
  obtain ⟨steps, leftEnd, rightEnd, rfl, rfl, hleft, hright⟩ := hsame
  rw [walk_append_of_not_steps location steps hleft, walk_append_of_not_steps location steps hright]

/-- A path leads to the entry `name` of the directory `here`, and a file can lie there. -/
structure Slot (tree : FileTree) (workDirectory : Location) (path : Path) (here : Location)
    (name : List UInt8) : Prop where
  check : FileTree.check path = .ok ()
  name_eq : Path.component? name = some (.name name)
  walk : ∃ front, Path.pieces path.bytes = front ++ [name]
    ∧ tree.walk (start workDirectory path) front = .ok here
  length : name.length ≤ longestName
  free : tree.get? (here ++ [name]) ≠ some .directory

theorem component?_eq_name_iff {name : List UInt8} :
    Path.component? name = some (.name name) ↔
      name ≠ [] ∧ ¬ (name = [Path.dot] ∨ name = [Path.dot, Path.dot]) := by
  unfold Path.component?
  by_cases hempty : name = [] <;> by_cases hdot : name = [Path.dot] <;>
    by_cases hup : name = [Path.dot, Path.dot] <;> simp_all

/-- Only empty pieces are left out at the end. -/
theorem exists_named_append (pieces : List (List UInt8)) :
    ∃ rest, pieces = (pieces.reverse.dropWhile List.isEmpty).reverse ++ rest
      ∧ ∀ part ∈ rest, part = [] := by
  refine ⟨(pieces.reverse.takeWhile List.isEmpty).reverse, ?_, ?_⟩
  · rw [← List.reverse_append, List.takeWhile_append_dropWhile, List.reverse_reverse]
  · intro part hpart
    have hall := List.all_takeWhile (p := List.isEmpty) (l := pieces.reverse)
    rw [List.all_eq_true] at hall
    exact List.isEmpty_iff.mp (hall part (List.mem_reverse.mp hpart))

/-- Behind the name of an entry there are only slashes. -/
theorem exists_pieces_of_splitEntry {front : List (List UInt8)} {name : List UInt8}
    {slashed : Bool} (h : splitEntry path = (front, .name name slashed)) :
    Path.component? name = some (.name name)
      ∧ ∃ rest, Path.pieces path.bytes = front ++ [name] ++ rest ∧ (∀ part ∈ rest, part = [])
        ∧ (slashed = false → rest = []) := by
  rw [splitEntry] at h
  generalize Path.pieces path.bytes = pieces at h
  obtain ⟨rest, hpieces, hrest⟩ := exists_named_append pieces
  have hhead := List.head?_dropWhile_not List.isEmpty pieces.reverse
  rw [← List.getLast?_reverse] at hhead
  generalize (pieces.reverse.dropWhile List.isEmpty).reverse = named at h hpieces hhead
  cases hlast : named.getLast? with
  | none => simp [hlast] at h
  | some last =>
      simp only [hlast] at h hhead
      split at h
      · cases h
      · rename_i hdots
        simp only [Prod.mk.injEq, Entry.name.injEq] at h
        obtain ⟨rfl, rfl, hslashed⟩ := h
        obtain ⟨front, rfl⟩ := List.getLast?_eq_some_iff.mp hlast
        rw [List.dropLast_concat]
        refine ⟨component?_eq_name_iff.mpr ⟨by simpa using hhead, hdots⟩, rest, hpieces, hrest, ?_⟩
        rintro rfl
        have hlength := congrArg List.length hpieces
        rw [List.length_append] at hlength
        rw [decide_eq_false_iff_not] at hslashed
        exact List.eq_nil_of_length_eq_zero (by omega)

theorem splitEntry_eq_name_iff {front : List (List UInt8)} {name : List UInt8} :
    splitEntry path = (front, .name name false) ↔
      Path.pieces path.bytes = front ++ [name] ∧ Path.component? name = some (.name name) := by
  constructor
  · intro h
    obtain ⟨hname, rest, hpieces, _, hslashed⟩ := exists_pieces_of_splitEntry h
    rw [hslashed rfl, List.append_nil] at hpieces
    exact ⟨hpieces, hname⟩
  · intro h
    rcases h with ⟨hpieces, hname⟩
    obtain ⟨hname, hdots⟩ := component?_eq_name_iff.mp hname
    have hkept : (front ++ [name]).reverse.dropWhile List.isEmpty = (front ++ [name]).reverse := by
      rw [List.reverse_append, List.reverse_singleton, List.singleton_append,
        List.dropWhile_cons_of_neg (by simpa using hname)]
    rw [splitEntry, hpieces]
    simp only [hkept, List.reverse_reverse, List.getLast?_concat, if_neg hdots,
      List.dropLast_concat]
    simp

theorem putFile_eq_ok_iff {name bytes : List UInt8} {after : FileTree} :
    tree.putFile here name bytes = .ok after ↔
      name.length ≤ longestName ∧ tree.get? (here ++ [name]) ≠ some .directory
        ∧ after = tree.put (here ++ [name]) (.file bytes) := by
  unfold putFile
  by_cases hlength : longestName < name.length
  · rw [if_pos hlength]
    simp [Nat.not_le.mpr hlength]
  · rw [if_neg hlength]
    split
    · rename_i hdirectory
      simp [hdirectory]
    · rename_i hother
      constructor
      · intro h
        cases h
        exact ⟨Nat.not_lt.mp hlength, hother, rfl⟩
      · intro h
        rcases h with ⟨_, _, rfl⟩
        rfl

theorem locateEntry_eq (tree : FileTree) (workDirectory : Location) (path : Path) :
    tree.locateEntry workDirectory path =
      check path >>= fun _ =>
        (tree.walk (start workDirectory path) (splitEntry path).1).map
          (·, (splitEntry path).2) := by
  rw [locateEntry]
  generalize splitEntry path = entry
  obtain ⟨front, entry⟩ := entry
  cases check path with
  | error error => rfl
  | ok value =>
      rw [walk]
      change (front.foldlM tree.follow (start workDirectory path) >>= fun last => _) =
        Except.map _ (front.foldlM tree.follow (start workDirectory path) >>= _)
      cases front.foldlM tree.follow (start workDirectory path) with
      | error error => rfl
      | ok last =>
          change (tree.enter last >>= fun here => _) = Except.map _ (tree.enter last)
          cases tree.enter last <;> rfl

theorem locateEntry_eq_ok_iff {entry : Entry} :
    tree.locateEntry workDirectory path = .ok (here, entry) ↔
      check path = .ok ()
        ∧ tree.walk (start workDirectory path) (splitEntry path).1 = .ok here
        ∧ (splitEntry path).2 = entry := by
  rw [locateEntry_eq]
  cases check path with
  | error error => simp [bind, Except.bind]
  | ok value =>
      cases tree.walk (start workDirectory path) (splitEntry path).1 <;>
        simp [bind, Except.bind, Except.map]

/-- The way to an entry with a name, and the slashes behind it. -/
theorem exists_pieces_of_locateEntry {name : List UInt8} {slashed : Bool}
    (h : tree.locateEntry workDirectory path = .ok (here, .name name slashed)) :
    check path = .ok () ∧ Path.component? name = some (.name name)
      ∧ ∃ front rest, Path.pieces path.bytes = front ++ [name] ++ rest
        ∧ (∀ part ∈ rest, part = []) ∧ (slashed = false → rest = [])
        ∧ tree.walk (start workDirectory path) front = .ok here := by
  obtain ⟨hcheck, hwalk, hentry⟩ := locateEntry_eq_ok_iff.mp h
  obtain ⟨hname, rest, hpieces, hrest, hslashed⟩ :=
    exists_pieces_of_splitEntry (Prod.ext rfl hentry)
  exact ⟨hcheck, hname, _, rest, hpieces, hrest, hslashed, hwalk⟩

theorem locateEntry_eq_ok_name_iff {name : List UInt8} :
    tree.locateEntry workDirectory path = .ok (here, .name name false) ↔
      check path = .ok () ∧ Path.component? name = some (.name name)
        ∧ ∃ front, Path.pieces path.bytes = front ++ [name]
          ∧ tree.walk (start workDirectory path) front = .ok here := by
  constructor
  · intro h
    obtain ⟨hcheck, hname, front, rest, hpieces, _, hslashed, hwalk⟩ :=
      exists_pieces_of_locateEntry h
    rw [hslashed rfl, List.append_nil] at hpieces
    exact ⟨hcheck, hname, front, hpieces, hwalk⟩
  · intro h
    rcases h with ⟨hcheck, hname, front, hpieces, hwalk⟩
    have hsplit := splitEntry_eq_name_iff.mpr ⟨hpieces, hname⟩
    exact locateEntry_eq_ok_iff.mpr ⟨hcheck, by rw [hsplit]; exact hwalk, by rw [hsplit]⟩

/-- A name behind the way to a directory leads to the entry of that name. -/
theorem foldlM_follow_concat {location : Location} {front : List (List UInt8)} {name : List UInt8}
    (hname : Path.component? name = some (.name name)) (hlength : name.length ≤ longestName)
    (hwalk : tree.walk location front = .ok here) :
    (front ++ [name]).foldlM tree.follow location = .ok (here ++ [name]) := by
  obtain ⟨hfront, hdirectory⟩ := walk_eq_ok_iff.mp hwalk
  rw [List.foldlM_append, bind_eq_ok_iff]
  refine ⟨here, hfront, ?_⟩
  rw [List.foldlM_cons, follow_of_name hname, enter_eq_ok_iff.mpr ⟨rfl, hdirectory⟩]
  simp [bind, Except.bind, pure, Except.pure, Nat.not_lt.mpr hlength]

/-- A path leads to the directory its entry is, whatever slashes follow the name. -/
theorem locate_of_locateEntry {name : List UInt8} {slashed : Bool}
    (h : tree.locateEntry workDirectory path = .ok (here, .name name slashed))
    (hlength : name.length ≤ longestName)
    (hdirectory : tree.get? (here ++ [name]) = some .directory) :
    tree.locate workDirectory path = .ok (here ++ [name]) := by
  obtain ⟨hcheck, hname, front, rest, hpieces, hrest, _, hwalk⟩ := exists_pieces_of_locateEntry h
  have hstep : tree.walk (start workDirectory path) (front ++ [name]) = .ok (here ++ [name]) :=
    walk_eq_ok_iff.mpr ⟨foldlM_follow_concat hname hlength hwalk, hdirectory⟩
  have hslashes : ∀ part ∈ rest, Path.component? part = none := by
    intro part hpart
    rw [hrest part hpart]
    rfl
  rw [← walk_append_of_not_steps _ _ hslashes, ← hpieces] at hstep
  rw [locate, bind_eq_ok_iff]
  exact ⟨(), hcheck, (walk_eq_ok_iff.mp hstep).1⟩

theorem write_eq_ok_iff {bytes : List UInt8} {after : FileTree} :
    tree.write workDirectory path bytes = .ok after ↔
      ∃ here name, Slot tree workDirectory path here name
        ∧ after = tree.put (here ++ [name]) (.file bytes) := by
  rw [write, bind_eq_ok_iff]
  constructor
  · intro h
    rcases h with ⟨⟨here, entry⟩, hentry, h⟩
    cases entry with
    | directory => cases h
    | name name slashed =>
        cases slashed with
        | true => cases h
        | false =>
            obtain ⟨hcheck, hname, hwalk⟩ := locateEntry_eq_ok_name_iff.mp hentry
            obtain ⟨hlength, hfree, rfl⟩ := putFile_eq_ok_iff.mp h
            exact ⟨here, name, ⟨hcheck, hname, hwalk, hlength, hfree⟩, rfl⟩
  · intro h
    rcases h with ⟨here, name, hslot, rfl⟩
    exact ⟨(here, .name name false),
      locateEntry_eq_ok_name_iff.mpr ⟨hslot.check, hslot.name_eq, hslot.walk⟩,
      putFile_eq_ok_iff.mpr ⟨hslot.length, hslot.free, rfl⟩⟩

theorem location_ne_nil (here : Location) (name : List UInt8) : here ++ [name] ≠ [] := by
  simp

/-- Every directory of one tree is a directory of the other. -/
def DirectoriesIn (left right : FileTree) : Prop :=
  ∀ location, left.get? location = some .directory → right.get? location = some .directory

section DirectoriesIn

variable {left right : FileTree} (hin : DirectoriesIn left right)
include hin

theorem DirectoriesIn.enter {location : Location} (h : left.enter location = .ok here) :
    right.enter location = .ok here := by
  rw [enter_eq_ok_iff] at h ⊢
  exact ⟨h.1, hin location h.2⟩

theorem DirectoriesIn.follow {location : Location} {part : List UInt8}
    (h : left.follow location part = .ok here) : right.follow location part = .ok here := by
  unfold FileTree.follow at h ⊢
  rw [bind_eq_ok_iff] at h ⊢
  obtain ⟨between, henter, hnext⟩ := h
  exact ⟨between, hin.enter henter, hnext⟩

theorem DirectoriesIn.foldlM_follow {location : Location} {parts : List (List UInt8)}
    (h : parts.foldlM left.follow location = .ok here) :
    parts.foldlM right.follow location = .ok here := by
  induction parts generalizing location with
  | nil => exact h
  | cons part rest ih =>
      rw [List.foldlM_cons, bind_eq_ok_iff] at h ⊢
      obtain ⟨between, hfollow, hrest⟩ := h
      exact ⟨between, hin.follow hfollow, ih hrest⟩

theorem DirectoriesIn.walk {location : Location} {parts : List (List UInt8)}
    (h : left.walk location parts = .ok here) : right.walk location parts = .ok here := by
  rw [FileTree.walk, bind_eq_ok_iff] at h ⊢
  obtain ⟨last, hlast, henter⟩ := h
  exact ⟨last, hin.foldlM_follow hlast, hin.enter henter⟩

theorem DirectoriesIn.locate (h : left.locate workDirectory path = .ok here) :
    right.locate workDirectory path = .ok here := by
  rw [FileTree.locate, bind_eq_ok_iff] at h ⊢
  obtain ⟨_, hcheck, hlocate⟩ := h
  exact ⟨_, hcheck, hin.foldlM_follow hlocate⟩

end DirectoriesIn

/-- Two trees have the same directories; the files in them may differ. -/
structure SameDirectories (left right : FileTree) : Prop where
  mp : DirectoriesIn left right
  mpr : DirectoriesIn right left

/-- One tree is the other with one file more, at a place where the other has no directory. -/
structure Beside (place : Location) (tree other : FileTree) : Prop where
  same : ∀ location, location ≠ place → other.get? location = tree.get? location
  file : ∃ bytes, other.get? place = some (.file bytes)
  free : tree.get? place ≠ some .directory

theorem beside_put {place : Location} (hplace : place ≠ [])
    (hfree : tree.get? place ≠ some .directory) (bytes : List UInt8) :
    Beside place tree (tree.put place (.file bytes)) where
  same location hlocation := by rw [get?_put tree hplace, if_neg hlocation]
  file := ⟨bytes, by rw [get?_put tree hplace, if_pos rfl]⟩
  free := hfree

theorem Beside.sameDirectories {place : Location} {other : FileTree}
    (hbeside : Beside place tree other) : SameDirectories other tree := by
  have hiff : ∀ location, other.get? location = some .directory ↔
      tree.get? location = some .directory := by
    intro location
    by_cases hlocation : location = place
    · subst hlocation
      obtain ⟨bytes, hfile⟩ := hbeside.file
      simp [hfile, hbeside.free]
    · rw [hbeside.same location hlocation]
  exact ⟨fun location => (hiff location).mp, fun location => (hiff location).mpr⟩

theorem SameDirectories.locate_iff {left right : FileTree} (hsame : SameDirectories left right) :
    left.locate workDirectory path = .ok here ↔ right.locate workDirectory path = .ok here :=
  ⟨hsame.mp.locate, hsame.mpr.locate⟩

namespace Slot

variable {name : List UInt8}

theorem locate (hslot : Slot tree workDirectory path here name) :
    tree.locate workDirectory path = .ok (here ++ [name]) := by
  obtain ⟨front, hpieces, hwalk⟩ := hslot.walk
  rw [FileTree.locate, bind_eq_ok_iff, hpieces]
  exact ⟨(), hslot.check, foldlM_follow_concat hslot.name_eq hslot.length hwalk⟩

/-- Where the directories are the same, the path leads to the same entry. -/
theorem of_sameDirectories (hslot : Slot tree workDirectory path here name) {after : FileTree}
    (hsame : SameDirectories after tree) : Slot after workDirectory path here name where
  check := hslot.check
  name_eq := hslot.name_eq
  walk := by
    obtain ⟨front, hpieces, hwalk⟩ := hslot.walk
    exact ⟨front, hpieces, hsame.mpr.walk hwalk⟩
  length := hslot.length
  free := fun h => hslot.free (hsame.mp _ h)

/-- Writing an entry changes no directory. -/
theorem sameDirectories (hslot : Slot tree workDirectory path here name) (bytes : List UInt8) :
    SameDirectories (tree.put (here ++ [name]) (.file bytes)) tree :=
  (beside_put (location_ne_nil here name) hslot.free bytes).sameDirectories

theorem put (hslot : Slot tree workDirectory path here name) (bytes : List UInt8) :
    Slot (tree.put (here ++ [name]) (.file bytes)) workDirectory path here name :=
  hslot.of_sameDirectories (hslot.sameDirectories bytes)

/-- What was written is found. -/
theorem find_put (hslot : Slot tree workDirectory path here name) (bytes : List UInt8) :
    (tree.put (here ++ [name]) (.file bytes)).find workDirectory path = .ok (.file bytes) := by
  rw [find, bind_eq_ok_iff]
  refine ⟨_, (hslot.put bytes).locate, ?_⟩
  rw [get?_put tree (location_ne_nil here name), if_pos rfl]
  rfl

/-- The directory that a path names for its last step is the one its entry lies in. -/
theorem directory (hslot : Slot tree workDirectory path here name) :
    ∃ parent, path.parent? = some parent ∧ path.fileName? = some name ∧
      tree.locate workDirectory path.directory >>= tree.enter = .ok here := by
  obtain ⟨front, hpieces, hwalk⟩ := hslot.walk
  obtain ⟨parent, hparent⟩ := Path.exists_parent hpieces hslot.name_eq
  refine ⟨parent, hparent.parent?, Path.fileName?_eq hpieces hslot.name_eq, ?_⟩
  have hcheck := check_directory hslot.check hparent.parent? hparent.bytes
  rw [FileTree.locate, hcheck]
  change tree.walk (start workDirectory path.directory) (Path.pieces path.directory.bytes) = _
  rw [walk_of_sameSteps _ hparent.steps, start, hparent.isAbsolute]
  exact hwalk

/-- Replacing a file as a whole sets the entry that its path leads to. -/
theorem replace (hslot : Slot tree workDirectory path here name)
    (hshort : fullLength workDirectory path.directory + draftLength < pathLimit)
    (bytes : List UInt8) :
    tree.replace workDirectory path bytes =
      .replaced (tree.put (here ++ [name]) (.file bytes)) := by
  obtain ⟨parent, hparent, hname, hhere⟩ := hslot.directory
  have hzero : ¬ name.contains 0 = true := by
    obtain ⟨front, hpieces, _⟩ := hslot.walk
    have hname : name ∈ Path.pieces path.bytes := by
      rw [hpieces]
      simp
    intro hmem
    exact (check_eq_ok_iff.mp hslot.check).1
      (Path.mem_of_mem_pieces hname (List.contains_iff_mem.mp hmem))
  have hput : tree.putFile here name bytes = .ok (tree.put (here ++ [name]) (.file bytes)) :=
    putFile_eq_ok_iff.mpr ⟨hslot.length, hslot.free, rfl⟩
  rw [Path.directory_eq hparent] at hhere hshort
  simp only [FileTree.replace, hparent, hhere, if_neg (Nat.not_le.mpr hshort), hname,
    if_neg hzero, hput]

/-- Where an entry can be written there are no directories left to make. -/
theorem makeParent (hslot : Slot tree workDirectory path here name) :
    tree.makeParent workDirectory path = (tree, .ok ()) := by
  obtain ⟨parent, hparent, _, hhere⟩ := hslot.directory
  rw [Path.directory_eq hparent] at hhere
  unfold FileTree.makeParent
  simp only [hparent]
  rw [if_pos]
  by_cases hempty : parent.bytes = []
  · exact Or.inl hempty
  · rw [if_neg hempty] at hhere
    obtain ⟨location, hlocation, hdirectory⟩ := bind_eq_ok_iff.mp hhere
    have hnode := (enter_eq_ok_iff.mp hdirectory).2
    apply Or.inr
    rw [contains, find, hlocation]
    simp only [bind, Except.bind, hnode]
    rfl

end Slot

/-- A mapping document can be kept at a path: the missing directories on the way to it can be made,
after that a file can be written there, and a draft beside it does not get too long a name. -/
structure Writable (tree : FileTree) (workDirectory : Location) (path : Path) : Prop where
  parent : (tree.makeParent workDirectory path).2 = .ok ()
  write : ∃ after, (tree.makeParent workDirectory path).1.write workDirectory path [] = .ok after
  short : fullLength workDirectory path.directory + draftLength < pathLimit

theorem Writable.bytes_ne_nil (hwritable : Writable tree workDirectory path) : path.bytes ≠ [] := by
  obtain ⟨_, hwrite⟩ := hwritable.write
  obtain ⟨_, _, hslot, _⟩ := write_eq_ok_iff.mp hwrite
  exact (check_eq_ok_iff.mp hslot.check).2.1

theorem Slot.writable {name : List UInt8} (hslot : Slot tree workDirectory path here name)
    (hshort : fullLength workDirectory path.directory + draftLength < pathLimit) :
    Writable tree workDirectory path := by
  refine ⟨by rw [hslot.makeParent], ?_, hshort⟩
  rw [hslot.makeParent]
  exact ⟨_, write_eq_ok_iff.mpr ⟨here, name, hslot, rfl⟩⟩

/-- At a writable path replacing succeeds, what was written is found afterwards, and the path stays
writable. -/
theorem Writable.replace (hwritable : Writable tree workDirectory path) (bytes : List UInt8) :
    ∃ after, (tree.makeParent workDirectory path).1.replace workDirectory path bytes =
        .replaced after
      ∧ after.find workDirectory path = .ok (.file bytes)
      ∧ Writable after workDirectory path := by
  obtain ⟨_, hwrite⟩ := hwritable.write
  obtain ⟨here, name, hslot, _⟩ := write_eq_ok_iff.mp hwrite
  exact ⟨_, hslot.replace hwritable.short bytes, hslot.find_put bytes,
    (hslot.put bytes).writable hwritable.short⟩

theorem find_of_write_self {bytes : List UInt8} {after : FileTree}
    (hwrite : tree.write workDirectory path bytes = .ok after) :
    after.find workDirectory path = .ok (.file bytes) := by
  obtain ⟨here, name, hslot, rfl⟩ := write_eq_ok_iff.mp hwrite
  exact hslot.find_put bytes

/-- Whether a file can be written does not depend on what is written. -/
theorem exists_write {bytes : List UInt8} {after : FileTree}
    (hwrite : tree.write workDirectory path bytes = .ok after) (other : List UInt8) :
    ∃ next, tree.write workDirectory path other = .ok next := by
  obtain ⟨here, name, hslot, _⟩ := write_eq_ok_iff.mp hwrite
  exact ⟨_, write_eq_ok_iff.mpr ⟨here, name, hslot, rfl⟩⟩

/-- Writing a file elsewhere does not change what is found at a path. -/
theorem find_of_write {out : Path} {bytes : List UInt8} {after : FileTree}
    (hwrite : tree.write workDirectory out bytes = .ok after)
    (hapart : ∀ location, tree.locate workDirectory out = .ok location →
      tree.locate workDirectory path ≠ .ok location) (node : Node) :
    after.find workDirectory path = .ok node ↔ tree.find workDirectory path = .ok node := by
  obtain ⟨here, name, hslot, rfl⟩ := write_eq_ok_iff.mp hwrite
  rw [find, find, bind_eq_ok_iff, bind_eq_ok_iff]
  simp only [(hslot.sameDirectories bytes).locate_iff]
  refine exists_congr fun location => and_congr_right fun hlocation => ?_
  have hother : location ≠ here ++ [name] := by
    rintro rfl
    exact hapart _ hslot.locate hlocation
  rw [get?_put tree (location_ne_nil here name), if_neg hother]

theorem contains_eq_true_iff :
    tree.contains workDirectory path = true ↔
      ∃ node, tree.find workDirectory path = .ok node := by
  rw [contains]
  cases tree.find workDirectory path <;> simp [Except.isOk, Except.toBool]

theorem read_eq_ok_iff {bytes : List UInt8} :
    tree.read workDirectory path = .ok bytes ↔
      tree.find workDirectory path = .ok (.file bytes) := by
  rw [read, bind_eq_ok_iff]
  constructor
  · intro h
    rcases h with ⟨node, hnode, h⟩
    cases node with
    | directory => cases h
    | file content =>
        cases h
        exact hnode
  · intro h
    exact ⟨_, h, rfl⟩

end PadBridge.FileTree
