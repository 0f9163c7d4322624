import PadBridge.Proofs.Directories

/-!
Two trees that differ in one file.  Where the file takes the place of no directory, it does not get
in the way of the directories that are made for a document.
-/

namespace PadBridge.FileTree

variable {tree : FileTree} {workDirectory : Location} {path : Path}

namespace Beside

variable {place : Location} {other : FileTree} (hbeside : Beside place tree other)
include hbeside

theorem put {location : Location} (hlocation : location ≠ []) (hplace : location ≠ place)
    (node : Node) : Beside place (tree.put location node) (other.put location node) where
  same there hthere := by
    rw [get?_put other hlocation, get?_put tree hlocation, hbeside.same there hthere]
  file := by
    obtain ⟨bytes, hfile⟩ := hbeside.file
    exact ⟨bytes, by rw [get?_put other hlocation, if_neg hplace.symm, hfile]⟩
  free := by
    rw [get?_put tree hlocation, if_neg hplace.symm]
    exact hbeside.free

theorem makeDirectory {after : FileTree}
    (h : tree.makeDirectory workDirectory path = .ok after)
    (hfree : after.get? place ≠ some .directory) :
    ∃ otherAfter, other.makeDirectory workDirectory path = .ok otherAfter
      ∧ Beside place after otherAfter := by
  obtain ⟨here, name, slashed, hentry, hlength, hnone, rfl⟩ := makeDirectory_eq_ok_iff.mp h
  have hplace : here ++ [name] ≠ place := by
    rintro rfl
    rw [get?_put tree (location_ne_nil here name), if_pos rfl] at hfree
    exact hfree rfl
  refine ⟨_, makeDirectory_eq_ok_iff.mpr ⟨here, name, slashed,
    hbeside.sameDirectories.mpr.locateEntry hentry, hlength, ?_, rfl⟩,
    hbeside.put (location_ne_nil here name) hplace .directory⟩
  rw [hbeside.same _ hplace, hnone]

/-- Where the file does not get in the way now, it did not before. -/
theorem exists_makeDirectory {otherAfter : FileTree}
    (h : other.makeDirectory workDirectory path = .ok otherAfter) :
    ∃ after, tree.makeDirectory workDirectory path = .ok after := by
  obtain ⟨here, name, slashed, hentry, hlength, hnone, rfl⟩ := makeDirectory_eq_ok_iff.mp h
  have hplace : here ++ [name] ≠ place := by
    rintro rfl
    obtain ⟨bytes, hfile⟩ := hbeside.file
    rw [hfile] at hnone
    cases hnone
  refine ⟨_, makeDirectory_eq_ok_iff.mpr ⟨here, name, slashed,
    hbeside.sameDirectories.mp.locateEntry hentry, hlength, ?_, rfl⟩⟩
  rw [← hbeside.same _ hplace, hnone]

theorem ensureDirectory {after : FileTree}
    (h : tree.ensureDirectory workDirectory path = .ok after)
    (hfree : after.get? place ≠ some .directory) :
    ∃ otherAfter, other.ensureDirectory workDirectory path = .ok otherAfter
      ∧ Beside place after otherAfter := by
  rcases ensureDirectory_eq_ok_iff.mp h with hmade | ⟨⟨error, hmade⟩, hdirectory, rfl⟩
  · obtain ⟨otherAfter, hother, hafter⟩ := hbeside.makeDirectory hmade hfree
    exact ⟨otherAfter, ensureDirectory_eq_ok_iff.mpr (Or.inl hother), hafter⟩
  · refine ⟨other, ensureDirectory_eq_ok_iff.mpr (Or.inr ⟨?_, ?_, rfl⟩), hbeside⟩
    · cases hother : other.makeDirectory workDirectory path with
      | error error => exact ⟨error, rfl⟩
      | ok otherAfter =>
          obtain ⟨_, htree⟩ := hbeside.exists_makeDirectory hother
          cases htree.symm.trans hmade
    · exact hbeside.sameDirectories.mpr.isDirectory hdirectory

section NotFound

variable {later : FileTree} (hin : DirectoriesIn tree later)
  (hplace : later.get? place ≠ some .directory)
include hin hplace

omit hin in
theorem enter_notFound {location here : Location}
    (h : tree.enter location = .error .notFound) (hlater : later.enter location = .ok here) :
    other.enter location = .error .notFound := by
  have hlocation : location ≠ place := by
    rintro rfl
    exact hplace (enter_eq_ok_iff.mp hlater).2
  unfold enter at h ⊢
  rw [hbeside.same location hlocation]
  exact h

/-- What is missing on a way is missing beside the file too, if the way is there later on without
going through the place of the file. -/
theorem walk_notFound {location here : Location} {parts : List (List UInt8)}
    (h : tree.walk location parts = .error .notFound)
    (hlater : later.walk location parts = .ok here) :
    other.walk location parts = .error .notFound := by
  induction parts generalizing location with
  | nil => exact hbeside.enter_notFound hplace h hlater
  | cons part rest ih =>
      rw [walk_cons] at h hlater ⊢
      obtain ⟨next, hfollow, hrest⟩ := bind_eq_ok_iff.mp hlater
      cases htree : tree.follow location part with
      | ok before =>
          obtain rfl : before = next := by
            cases (hin.follow htree).symm.trans hfollow
            rfl
          rw [htree] at h
          rw [hbeside.sameDirectories.mpr.follow htree]
          exact ih h hrest
      | error error =>
          rw [htree] at h
          cases h
          obtain ⟨last, henter, _⟩ := bind_eq_ok_iff.mp hfollow
          have hother := hbeside.enter_notFound hplace (enter_of_follow_notFound htree) henter
          rw [follow, hother]
          rfl

theorem ensureDirectory_notFound {after : FileTree}
    (h : tree.ensureDirectory workDirectory path = .error .notFound)
    (hlater : later.ensureDirectory workDirectory path = .ok after) :
    other.ensureDirectory workDirectory path = .error .notFound := by
  obtain ⟨hcheck, here, hwalk⟩ := walk_of_ensureDirectory hlater
  have hmissing : tree.makeDirectory workDirectory path = .error .notFound
      ∧ tree.isDirectory workDirectory path ≠ true := by
    unfold FileTree.ensureDirectory at h
    split at h
    · cases h
    · rename_i error hmade
      split at h
      · cases h
      · cases h
        exact ⟨hmade, ‹_›⟩
  have hother : other.makeDirectory workDirectory path = .error .notFound := by
    rw [makeDirectory_eq_notFound_iff hcheck]
    apply hbeside.walk_notFound hin hplace _ hwalk
    exact (makeDirectory_eq_notFound_iff hcheck).mp hmissing.1
  have hdirectory : ¬ other.isDirectory workDirectory path = true :=
    fun hdirectory => hmissing.2 (hbeside.sameDirectories.mp.isDirectory hdirectory)
  unfold FileTree.ensureDirectory
  simp only [hother, if_neg hdirectory]

end NotFound

/-- Directories are made beside the file as they are made without it. -/
theorem makeSteps {paths : List Path} {after : FileTree}
    (h : tree.makeSteps workDirectory paths = (after, .ok ()))
    (hfree : after.get? place ≠ some .directory) :
    ∃ otherAfter, other.makeSteps workDirectory paths = (otherAfter, .ok ())
      ∧ Beside place after otherAfter := by
  induction paths generalizing after with
  | nil =>
      cases h
      exact ⟨other, rfl, hbeside⟩
  | cons path before ih =>
      rcases makeSteps_cons_eq_ok_iff.mp h with hensure | ⟨hmissing, between, hsteps, hagain⟩
      · obtain ⟨otherAfter, hother, hafter⟩ := hbeside.ensureDirectory hensure hfree
        exact ⟨otherAfter, makeSteps_cons_eq_ok_iff.mpr (Or.inl hother), hafter⟩
      · have hgrown := grown_makeSteps tree workDirectory before
        rw [hsteps] at hgrown
        have hbetween : between.get? place ≠ some .directory :=
          fun hplace => hfree ((grown_ensureDirectory hagain).kept place _ hplace)
        obtain ⟨otherBetween, hother, hbeside'⟩ := ih hsteps hbetween
        obtain ⟨otherAfter, hotherAgain, hafter⟩ := hbeside'.ensureDirectory hagain hfree
        have hotherMissing :=
          hbeside.ensureDirectory_notFound hgrown.directoriesIn hbetween hmissing hagain
        exact ⟨otherAfter, makeSteps_cons_eq_ok_iff.mpr
          (Or.inr ⟨hotherMissing, otherBetween, hother, hotherAgain⟩), hafter⟩

theorem contains (h : tree.contains workDirectory path = true) :
    other.contains workDirectory path = true := by
  obtain ⟨node, hnode⟩ := contains_eq_true_iff.mp h
  obtain ⟨location, hlocate, hfound⟩ := find_eq_ok_iff.mp hnode
  have hother := hbeside.sameDirectories.mpr.locate hlocate
  by_cases hlocation : location = place
  · subst hlocation
    obtain ⟨bytes, hfile⟩ := hbeside.file
    exact contains_eq_true_iff.mpr ⟨_, find_eq_ok_iff.mpr ⟨location, hother, hfile⟩⟩
  · rw [← hbeside.same location hlocation] at hfound
    exact contains_eq_true_iff.mpr ⟨_, find_eq_ok_iff.mpr ⟨location, hother, hfound⟩⟩

/-- What is there only beside the file is the file. -/
theorem locate_of_contains (h : ¬ tree.contains workDirectory path = true)
    (hother : other.contains workDirectory path = true) :
    tree.locate workDirectory path = .ok place := by
  obtain ⟨node, hnode⟩ := contains_eq_true_iff.mp hother
  obtain ⟨location, hlocate, hfound⟩ := find_eq_ok_iff.mp hnode
  have htree := hbeside.sameDirectories.mp.locate hlocate
  by_cases hlocation : location = place
  · rw [← hlocation]
    exact htree
  · rw [hbeside.same location hlocation] at hfound
    exact absurd (contains_eq_true_iff.mpr ⟨_, find_eq_ok_iff.mpr ⟨location, htree, hfound⟩⟩) h

/-- The directories for a document are made beside the file too, unless one of them has to be where
the file is. -/
theorem makeParent (hwritable : Writable tree workDirectory path)
    (hfree : (tree.makeParent workDirectory path).1.get? place ≠ some .directory) :
    ∃ otherAfter, other.makeParent workDirectory path = (otherAfter, .ok ())
      ∧ SameDirectories otherAfter (tree.makeParent workDirectory path).1 := by
  obtain ⟨_, hwrite⟩ := hwritable.write
  obtain ⟨here, name, hslot, _⟩ := write_eq_ok_iff.mp hwrite
  obtain ⟨parent, hparent, _, hhere⟩ := hslot.directory
  have hmade := hwritable.parent
  unfold FileTree.makeParent at hmade hfree hhere ⊢
  simp only [hparent] at hmade hfree hhere ⊢
  by_cases hthere : parent.bytes = [] ∨ tree.contains workDirectory parent = true
  · have hother : parent.bytes = [] ∨ other.contains workDirectory parent = true :=
      hthere.imp_right hbeside.contains
    rw [if_pos hthere, if_pos hother]
    exact ⟨other, rfl, hbeside.sameDirectories⟩
  · rw [if_neg hthere] at hmade hfree hhere ⊢
    obtain ⟨hbytes, hmissing⟩ := not_or.mp hthere
    have hother : ¬ (parent.bytes = [] ∨ other.contains workDirectory parent = true) := by
      intro hother
      have hplace := hbeside.locate_of_contains hmissing (hother.resolve_left hbytes)
      have hin := (grown_makeSteps tree workDirectory parent.waypoints).directoriesIn
      rw [Path.directory_eq hparent, if_neg hbytes, bind_eq_ok_iff] at hhere
      obtain ⟨location, hlocation, henter⟩ := hhere
      cases (hin.locate hplace).symm.trans hlocation
      exact hfree (enter_eq_ok_iff.mp henter).2
    rw [if_neg hother]
    obtain ⟨otherAfter, hsteps, hafter⟩ := hbeside.makeSteps (Prod.ext rfl hmade) hfree
    exact ⟨otherAfter, hsteps, hafter.sameDirectories⟩

end Beside

/-- Writing a file leaves the path of a document writable, unless it puts the file where a directory
for the document is still to be made. -/
theorem Writable.of_write (hwritable : Writable tree workDirectory path) {out : Path}
    {bytes : List UInt8} {after : FileTree} (hout : tree.write workDirectory out bytes = .ok after)
    (hfree : ∀ location, tree.locate workDirectory out = .ok location →
      (tree.makeParent workDirectory path).1.get? location = some .directory →
      tree.get? location = some .directory) :
    Writable after workDirectory path := by
  obtain ⟨outHere, outName, houtSlot, rfl⟩ := write_eq_ok_iff.mp hout
  have hbeside := beside_put (location_ne_nil outHere outName) houtSlot.free bytes
  obtain ⟨otherAfter, hmade, hsame⟩ := hbeside.makeParent hwritable
    fun hdirectory => houtSlot.free (hfree _ houtSlot.locate hdirectory)
  obtain ⟨_, hwrite⟩ := hwritable.write
  obtain ⟨here, name, hslot, _⟩ := write_eq_ok_iff.mp hwrite
  refine ⟨by rw [hmade], ?_, hwritable.short⟩
  rw [hmade]
  exact ⟨_, write_eq_ok_iff.mpr ⟨here, name, hslot.of_sameDirectories hsame, rfl⟩⟩

end PadBridge.FileTree
