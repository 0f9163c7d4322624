import Mathlib.Data.List.Induction
import PadBridge.Proofs.Directories

/-!
The file a path leads to.  Directories that are made and files that are written elsewhere do not
change it, as long as the path goes up only from directories that are there: otherwise a directory
that is made on the way could lead to a file that was there all along.
-/

namespace PadBridge.FileTree

variable {tree after : FileTree} {workDirectory here : Location} {path : Path}

/-- Everything lies in a directory. -/
def Nested (tree : FileTree) : Prop :=
  ∀ (here : Location) (name : List UInt8) (node : Node),
    tree.get? (here ++ [name]) = some node → tree.get? here = some .directory

/-- The directories that a path goes up from are there. -/
def Grounded (tree : FileTree) (workDirectory : Location) (path : Path) : Prop :=
  ∀ front rest, Path.pieces path.bytes = front ++ [Path.dot, Path.dot] :: rest →
    ∃ here, tree.walk (start workDirectory path) front = .ok here

theorem nested_empty : empty.Nested := by
  intro here name node hnode
  rw [get?, if_neg (location_ne_nil here name)] at hnode
  cases hnode

/-- A path that never goes up is grounded in any tree. -/
theorem grounded_of_no_up (hpath : [Path.dot, Path.dot] ∉ Path.pieces path.bytes) :
    tree.Grounded workDirectory path := by
  intro front rest hpieces
  refine absurd ?_ hpath
  rw [hpieces]
  simp

theorem Nested.get?_of_prefix (hnested : tree.Nested) {front place : Location} {node : Node}
    (hnode : tree.get? place = some node) (hfront : front <+: place) (hne : front ≠ place) :
    tree.get? front = some .directory := by
  obtain ⟨rest, rfl⟩ := hfront
  induction rest using List.reverseRecOn generalizing node with
  | nil => exact absurd (List.append_nil front).symm hne
  | append_singleton rest name ih =>
      rw [← List.append_assoc] at hnode
      have hdirectory := hnested _ _ _ hnode
      by_cases hempty : rest = []
      · rw [hempty, List.append_nil] at hdirectory
        exact hdirectory
      · exact ih hdirectory fun h => hempty (List.append_right_eq_self.mp h.symm)

theorem Nested.put (hnested : tree.Nested) (hhere : tree.get? here = some .directory)
    {name : List UInt8} (hfree : tree.get? (here ++ [name]) ≠ some .directory) (node : Node) :
    (tree.put (here ++ [name]) node).Nested := by
  have hkept : ∀ location, tree.get? location = some .directory →
      (tree.put (here ++ [name]) node).get? location = some .directory := by
    intro location hdirectory
    rw [get?_put tree (location_ne_nil here name), if_neg, hdirectory]
    rintro rfl
    exact hfree hdirectory
  intro there other found hfound
  rw [get?_put tree (location_ne_nil here name)] at hfound
  split at hfound
  · rename_i hplace
    rw [(List.append_inj' hplace rfl).1]
    exact hkept here hhere
  · exact hkept there (hnested there other found hfound)

theorem Nested.makeDirectory (hnested : tree.Nested)
    (hmade : tree.makeDirectory workDirectory path = .ok after) : after.Nested := by
  obtain ⟨here, name, slashed, hentry, _, hnone, rfl⟩ := makeDirectory_eq_ok_iff.mp hmade
  obtain ⟨_, hwalk, _⟩ := locateEntry_eq_ok_iff.mp hentry
  exact hnested.put (walk_eq_ok_iff.mp hwalk).2 (by simp [hnone]) .directory

theorem Nested.ensureDirectory (hnested : tree.Nested)
    (hensured : tree.ensureDirectory workDirectory path = .ok after) : after.Nested := by
  rcases ensureDirectory_eq_ok_iff.mp hensured with hmade | ⟨_, _, rfl⟩
  · exact hnested.makeDirectory hmade
  · exact hnested

theorem Nested.makeSteps (hnested : tree.Nested) (workDirectory : Location) (paths : List Path) :
    (tree.makeSteps workDirectory paths).1.Nested := by
  induction paths with
  | nil => exact hnested
  | cons path before ih =>
      unfold FileTree.makeSteps
      cases hensured : tree.ensureDirectory workDirectory path with
      | ok after => exact hnested.ensureDirectory hensured
      | error error =>
          cases error with
          | notFound =>
              simp only
              generalize tree.makeSteps workDirectory before = steps at ih
              obtain ⟨between, outcome⟩ := steps
              cases outcome with
              | error error => exact ih
              | ok value =>
                  cases hagain : between.ensureDirectory workDirectory path with
                  | error error => simpa [hagain] using ih
                  | ok after => simpa [hagain] using ih.ensureDirectory hagain
          | _ => exact hnested

theorem Nested.makeParent (hnested : tree.Nested) (workDirectory : Location) (path : Path) :
    (tree.makeParent workDirectory path).1.Nested := by
  unfold FileTree.makeParent
  split
  · exact hnested
  · split
    · exact hnested
    · exact hnested.makeSteps workDirectory _

theorem DirectoriesIn.grounded (hin : DirectoriesIn tree after)
    (hgrounded : tree.Grounded workDirectory path) : after.Grounded workDirectory path := by
  intro front rest hpieces
  obtain ⟨here, hwalk⟩ := hgrounded front rest hpieces
  exact ⟨here, hin.walk hwalk⟩

/-- Where a piece leads depends on one directory only. -/
theorem follow_of_follow (tree : FileTree) {location next : Location} {part : List UInt8}
    (hafter : after.follow location part = .ok next) :
    after.get? location = some .directory
      ∧ (tree.get? location = some .directory → tree.follow location part = .ok next) := by
  unfold follow at hafter ⊢
  obtain ⟨here, henter, hnext⟩ := bind_eq_ok_iff.mp hafter
  obtain ⟨rfl, hdirectory⟩ := enter_eq_ok_iff.mp henter
  exact ⟨hdirectory, fun htree =>
    bind_eq_ok_iff.mpr ⟨location, enter_eq_ok_iff.mpr ⟨rfl, htree⟩, hnext⟩⟩

theorem prefix_of_follow {location next : Location} {part : List UInt8}
    (hpart : part ≠ [Path.dot, Path.dot]) (hfollow : tree.follow location part = .ok next) :
    location <+: next := by
  rw [follow, bind_eq_ok_iff] at hfollow
  obtain ⟨here, henter, hnext⟩ := hfollow
  obtain ⟨rfl, _⟩ := enter_eq_ok_iff.mp henter
  split at hnext
  · cases hnext
    exact List.prefix_rfl
  · split at hnext
    · cases hnext
    · cases hnext
      exact List.prefix_append location [part]

theorem prefix_of_foldlM_follow {location place : Location} {parts : List (List UInt8)}
    (hparts : [Path.dot, Path.dot] ∉ parts)
    (hfollow : parts.foldlM tree.follow location = .ok place) : location <+: place := by
  induction parts generalizing location with
  | nil =>
      cases hfollow
      exact List.prefix_rfl
  | cons part rest ih =>
      rw [List.foldlM_cons, bind_eq_ok_iff] at hfollow
      obtain ⟨next, hnext, hrest⟩ := hfollow
      rw [List.mem_cons, not_or] at hparts
      exact (prefix_of_follow (Ne.symm hparts.1) hnext).trans (ih hparts.2 hrest)

/-- Pieces that do not go up and lead to a place in a later tree lead there already if everything
on the way to the place is a directory, and the place itself is none later on. -/
theorem foldlM_follow_of_way {place location : Location}
    (hway : ∀ front, front <+: place → front ≠ place → tree.get? front = some .directory)
    (hplace : after.get? place ≠ some .directory) {parts : List (List UInt8)}
    (hparts : [Path.dot, Path.dot] ∉ parts)
    (hafter : parts.foldlM after.follow location = .ok place) :
    parts.foldlM tree.follow location = .ok place := by
  induction parts generalizing location with
  | nil => exact hafter
  | cons part rest ih =>
      have hprefix := prefix_of_foldlM_follow hparts hafter
      rw [List.foldlM_cons, bind_eq_ok_iff] at hafter ⊢
      obtain ⟨next, hnext, hrest⟩ := hafter
      obtain ⟨hdirectory, htree⟩ := follow_of_follow tree hnext
      rw [List.mem_cons, not_or] at hparts
      refine ⟨next, htree (hway location hprefix ?_), ih hparts.2 hrest⟩
      rintro rfl
      exact hplace hdirectory

/-- Pieces up to the last one that goes up, and the pieces behind it. -/
theorem exists_last_up (parts : List (List UInt8)) :
    ∃ front rest, parts = front ++ rest ∧ [Path.dot, Path.dot] ∉ rest
      ∧ (front = [] ∨ ∃ before, front = before ++ [[Path.dot, Path.dot]]) := by
  induction parts using List.reverseRecOn with
  | nil => exact ⟨[], [], rfl, List.not_mem_nil, Or.inl rfl⟩
  | append_singleton parts part ih =>
      obtain ⟨front, rest, rfl, hrest, hfront⟩ := ih
      by_cases hpart : part = [Path.dot, Path.dot]
      · exact ⟨front ++ rest ++ [part], [], by simp, List.not_mem_nil,
          Or.inr ⟨front ++ rest, by rw [hpart]⟩⟩
      · refine ⟨front, rest ++ [part], by simp, ?_, hfront⟩
        rw [List.mem_append, List.mem_singleton, not_or]
        exact ⟨hrest, Ne.symm hpart⟩

/-- A grounded path that leads to a file later on leads there already, if the file is there. -/
theorem Grounded.locate (hgrounded : tree.Grounded workDirectory path) (hnested : tree.Nested)
    (hin : DirectoriesIn tree after) {place : Location} {bytes : List UInt8}
    (hafter : after.locate workDirectory path = .ok place)
    (hfile : tree.get? place = some (.file bytes)) (hplace : after.get? place ≠ some .directory) :
    tree.locate workDirectory path = .ok place := by
  rw [FileTree.locate, bind_eq_ok_iff] at hafter ⊢
  obtain ⟨_, hcheck, hafter⟩ := hafter
  refine ⟨_, hcheck, ?_⟩
  obtain ⟨front, rest, hpieces, hrest, hfront⟩ := exists_last_up (Path.pieces path.bytes)
  have hway : ∀ front, front <+: place → front ≠ place → tree.get? front = some .directory :=
    fun front => hnested.get?_of_prefix hfile
  have hstart : ∃ here, front.foldlM tree.follow (start workDirectory path) = .ok here := by
    rcases hfront with rfl | ⟨before, rfl⟩
    · exact ⟨_, rfl⟩
    · rw [List.append_assoc] at hpieces
      obtain ⟨here, hwalk⟩ := hgrounded before rest hpieces
      obtain ⟨hfollow, hdirectory⟩ := walk_eq_ok_iff.mp hwalk
      refine ⟨here.dropLast, ?_⟩
      rw [List.foldlM_append, bind_eq_ok_iff]
      refine ⟨here, hfollow, ?_⟩
      rw [List.foldlM_cons, bind_eq_ok_iff]
      refine ⟨here.dropLast, ?_, rfl⟩
      rw [FileTree.follow, enter_eq_ok_iff.mpr ⟨rfl, hdirectory⟩]
      rfl
  obtain ⟨here, hhere⟩ := hstart
  rw [hpieces, List.foldlM_append, bind_eq_ok_iff] at hafter ⊢
  obtain ⟨there, hthere, hafter⟩ := hafter
  obtain rfl : here = there := by
    cases (hin.foldlM_follow hhere).symm.trans hthere
    rfl
  exact ⟨here, hhere, foldlM_follow_of_way hway hplace hrest hafter⟩

/-- A tree in which everything lies in a directory, and a path that goes up only from directories
that are there. -/
structure Settled (tree : FileTree) (workDirectory : Location) (path : Path) : Prop where
  nested : tree.Nested
  grounded : tree.Grounded workDirectory path

/-- The same file is found at a path in two trees, or none in either. -/
def SameFile (workDirectory : Location) (path : Path) (tree after : FileTree) : Prop :=
  ∀ bytes, after.find workDirectory path = .ok (.file bytes) ↔
    tree.find workDirectory path = .ok (.file bytes)

theorem SameFile.trans {between : FileTree}
    (hfirst : SameFile workDirectory path tree between)
    (hsecond : SameFile workDirectory path between after) :
    SameFile workDirectory path tree after :=
  fun bytes => (hsecond bytes).trans (hfirst bytes)

section Settled

variable (hsettled : tree.Settled workDirectory path)
include hsettled

theorem Settled.makeParent (other : Path) :
    (tree.makeParent workDirectory other).1.Settled workDirectory path where
  nested := hsettled.nested.makeParent workDirectory other
  grounded := (grown_makeParent tree workDirectory other).directoriesIn.grounded hsettled.grounded

/-- Directories that are made do not lead a settled path to another file. -/
theorem Settled.sameFile_makeParent (other : Path) :
    SameFile workDirectory path tree (tree.makeParent workDirectory other).1 := by
  have hgrown := grown_makeParent tree workDirectory other
  generalize (tree.makeParent workDirectory other).1 = after at hgrown
  intro bytes
  rw [find_eq_ok_iff, find_eq_ok_iff]
  constructor
  · rintro ⟨place, hlocate, hfile⟩
    have htree := (hgrown.file_iff place bytes).mp hfile
    exact ⟨place, hsettled.grounded.locate hsettled.nested hgrown.directoriesIn hlocate htree
      (by simp [hfile]), htree⟩
  · rintro ⟨place, hlocate, hfile⟩
    exact ⟨place, hgrown.directoriesIn.locate hlocate, hgrown.kept place _ hfile⟩

theorem Settled.put {name : List UInt8} (hhere : tree.get? here = some .directory)
    (hfree : tree.get? (here ++ [name]) ≠ some .directory) (bytes : List UInt8) :
    (tree.put (here ++ [name]) (.file bytes)).Settled workDirectory path := by
  have hsame := (beside_put (location_ne_nil here name) hfree bytes).sameDirectories
  exact ⟨hsettled.nested.put hhere hfree _, hsame.mpr.grounded hsettled.grounded⟩

theorem Settled.write {out : Path} {bytes : List UInt8}
    (hwrite : tree.write workDirectory out bytes = .ok after) :
    after.Settled workDirectory path := by
  obtain ⟨here, name, hslot, rfl⟩ := write_eq_ok_iff.mp hwrite
  obtain ⟨_, _, hwalk⟩ := hslot.walk
  exact hsettled.put (walk_eq_ok_iff.mp hwalk).2 hslot.free bytes

end Settled

/-- Where a file that is replaced at a path lies: what the last step of the path names in the
directory it is taken in.  Slashes at the end do not count. -/
def replacedAt? (tree : FileTree) (workDirectory : Location) (path : Path) : Option Location :=
  match tree.locate workDirectory path.directory, path.fileName? with
  | .ok here, some name => some (here ++ [name])
  | _, _ => none

theorem exists_put_of_replaced {bytes : List UInt8}
    (hreplaced : tree.replace workDirectory path bytes = .replaced after) :
    ∃ here name, tree.get? here = some .directory
      ∧ tree.get? (here ++ [name]) ≠ some .directory
      ∧ tree.replacedAt? workDirectory path = some (here ++ [name])
      ∧ after = tree.put (here ++ [name]) (.file bytes) := by
  cases hparent : path.parent? with
  | none =>
      simp only [FileTree.replace, hparent] at hreplaced
      split at hreplaced
      · cases hreplaced
      · split at hreplaced <;> cases hreplaced
  | some parent =>
      simp only [FileTree.replace, hparent] at hreplaced
      rw [← Path.directory_eq hparent] at hreplaced
      split at hreplaced
      · cases hreplaced
      · rename_i here hhere
        obtain ⟨last, hlocate, henter⟩ := bind_eq_ok_iff.mp hhere
        obtain ⟨rfl, hdirectory⟩ := enter_eq_ok_iff.mp henter
        split at hreplaced
        · cases hreplaced
        · cases hname : path.fileName? with
          | none =>
              rw [hname] at hreplaced
              cases hreplaced
          | some name =>
              simp only [hname] at hreplaced
              split at hreplaced
              · cases hreplaced
              · split at hreplaced
                · rename_i hput
                  cases hreplaced
                  obtain ⟨_, hfree, rfl⟩ := putFile_eq_ok_iff.mp hput
                  exact ⟨last, name, hdirectory, hfree,
                    by simp only [replacedAt?, hlocate, hname], rfl⟩
                · cases hreplaced

theorem Settled.replace (hsettled : tree.Settled workDirectory path) {other : Path}
    {bytes : List UInt8} (hreplaced : tree.replace workDirectory other bytes = .replaced after) :
    after.Settled workDirectory path := by
  obtain ⟨here, name, hhere, hfree, _, rfl⟩ := exists_put_of_replaced hreplaced
  exact hsettled.put hhere hfree bytes

/-- A file that is replaced elsewhere is not the one a path leads to. -/
theorem sameFile_of_replaced {other : Path} {bytes : List UInt8}
    (hreplaced : tree.replace workDirectory other bytes = .replaced after)
    (hapart : ∀ place, tree.replacedAt? workDirectory other = some place →
      tree.locate workDirectory path ≠ .ok place) : SameFile workDirectory path tree after := by
  obtain ⟨here, name, _, hfree, hat, rfl⟩ := exists_put_of_replaced hreplaced
  have hbeside := beside_put (location_ne_nil here name) hfree bytes
  intro found
  rw [find_eq_ok_iff, find_eq_ok_iff]
  refine exists_congr fun place => ?_
  rw [hbeside.sameDirectories.locate_iff]
  refine and_congr_right fun hlocate => ?_
  rw [hbeside.same place fun h => hapart _ hat (h ▸ hlocate)]

end PadBridge.FileTree
