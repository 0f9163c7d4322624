import PadBridge.Proofs.FileTree

/-!
Making the directories on the way to a file.  Whether all of them are made or not, the tree has only
grown: nothing that was there is gone or changed, and what is new are directories on that way.
-/

namespace PadBridge.FileTree

variable {tree : FileTree} {workDirectory : Location} {path : Path}

theorem find_eq_ok_iff {node : Node} :
    tree.find workDirectory path = .ok node ↔
      ∃ location, tree.locate workDirectory path = .ok location
        ∧ tree.get? location = some node := by
  rw [find, bind_eq_ok_iff]
  apply exists_congr
  intro location
  apply and_congr_right
  intro _
  cases tree.get? location <;> simp [pure, Except.pure]

theorem isDirectory_eq_true_iff :
    tree.isDirectory workDirectory path = true ↔
      tree.find workDirectory path = .ok .directory := by
  unfold isDirectory
  split
  · rename_i hfind
    simp [hfind]
  · rename_i hother
    simpa using hother

theorem walk_cons (location : Location) (part : List UInt8) (rest : List (List UInt8)) :
    tree.walk location (part :: rest) =
      tree.follow location part >>= fun next => tree.walk next rest := by
  rw [walk, List.foldlM_cons]
  cases tree.follow location part <;> rfl

/-- Following a piece finds nothing only if there is no place to start from. -/
theorem enter_of_follow_notFound {location : Location} {part : List UInt8}
    (h : tree.follow location part = .error .notFound) :
    tree.enter location = .error .notFound := by
  rw [follow] at h
  cases henter : tree.enter location with
  | error error =>
      rw [henter] at h
      exact h
  | ok here =>
      rw [henter] at h
      simp only [bind, Except.bind] at h
      split at h
      · cases h
      · split at h
        · cases h
        · split at h <;> cases h

theorem DirectoriesIn.locateEntry {left right : FileTree} (hin : DirectoriesIn left right)
    {place : Location × Entry} (h : left.locateEntry workDirectory path = .ok place) :
    right.locateEntry workDirectory path = .ok place := by
  obtain ⟨hcheck, hwalk, hentry⟩ := locateEntry_eq_ok_iff.mp h
  exact locateEntry_eq_ok_iff.mpr ⟨hcheck, hin.walk hwalk, hentry⟩

theorem DirectoriesIn.isDirectory {left right : FileTree} (hin : DirectoriesIn left right)
    (h : left.isDirectory workDirectory path = true) :
    right.isDirectory workDirectory path = true := by
  rw [isDirectory_eq_true_iff, find_eq_ok_iff] at h ⊢
  obtain ⟨location, hlocate, hdirectory⟩ := h
  exact ⟨location, hin.locate hlocate, hin location hdirectory⟩

theorem makeDirectory_eq_ok_iff {after : FileTree} :
    tree.makeDirectory workDirectory path = .ok after ↔
      ∃ here name slashed,
        tree.locateEntry workDirectory path = .ok (here, .name name slashed)
          ∧ name.length ≤ longestName ∧ tree.get? (here ++ [name]) = none
          ∧ after = tree.put (here ++ [name]) .directory := by
  rw [makeDirectory, bind_eq_ok_iff]
  constructor
  · intro h
    rcases h with ⟨⟨here, entry⟩, hentry, h⟩
    cases entry with
    | directory => cases h
    | name name slashed =>
        refine ⟨here, name, slashed, hentry, ?_⟩
        by_cases hlength : longestName < name.length
        · simp [hlength, bind, Except.bind, throw, throwThe, MonadExceptOf.throw] at h
        · cases hfound : tree.get? (here ++ [name]) with
          | some node =>
              simp [hlength, hfound, bind, Except.bind, throw, throwThe,
                MonadExceptOf.throw] at h
          | none =>
              simp [hlength, hfound, pure, Except.pure] at h
              exact ⟨Nat.not_lt.mp hlength, rfl, h.symm⟩
  · intro h
    rcases h with ⟨here, name, slashed, hentry, hlength, hnone, rfl⟩
    refine ⟨_, hentry, ?_⟩
    simp [Nat.not_lt.mpr hlength, hnone, pure, Except.pure]

theorem ensureDirectory_eq_ok_iff {after : FileTree} :
    tree.ensureDirectory workDirectory path = .ok after ↔
      tree.makeDirectory workDirectory path = .ok after
        ∨ (∃ error, tree.makeDirectory workDirectory path = .error error)
          ∧ tree.isDirectory workDirectory path = true ∧ after = tree := by
  unfold ensureDirectory
  cases tree.makeDirectory workDirectory path with
  | ok made => simp
  | error error =>
      by_cases hdirectory : tree.isDirectory workDirectory path = true
      · simp [hdirectory, eq_comm]
      · simp [hdirectory]

theorem walk_append {location here : Location} {front rest : List (List UInt8)}
    (h : tree.walk location (front ++ rest) = .ok here) :
    ∃ between, tree.walk location front = .ok between := by
  obtain ⟨hfollow, hdirectory⟩ := walk_eq_ok_iff.mp h
  rw [List.foldlM_append] at hfollow
  obtain ⟨between, hfront, hrest⟩ := bind_eq_ok_iff.mp hfollow
  refine ⟨between, walk_eq_ok_iff.mpr ⟨hfront, ?_⟩⟩
  cases rest with
  | nil =>
      cases hrest
      exact hdirectory
  | cons part more =>
      rw [List.foldlM_cons] at hrest
      obtain ⟨_, hstep, _⟩ := bind_eq_ok_iff.mp hrest
      obtain ⟨next, henter, _⟩ := bind_eq_ok_iff.mp hstep
      exact (enter_eq_ok_iff.mp henter).2

theorem splitEntry_front (path : Path) :
    ∃ rest, Path.pieces path.bytes = (splitEntry path).1 ++ rest := by
  obtain ⟨slashes, hslashes, _⟩ := exists_named_append (Path.pieces path.bytes)
  have hnamed : ((Path.pieces path.bytes).reverse.dropWhile List.isEmpty).reverse
      <+: Path.pieces path.bytes := ⟨slashes, hslashes.symm⟩
  obtain ⟨rest, hrest⟩ : (splitEntry path).1 <+: Path.pieces path.bytes := by
    unfold splitEntry
    simp only
    split
    · exact List.nil_prefix
    · split
      · exact (List.dropLast_prefix _).trans hnamed
      · exact (List.dropLast_prefix _).trans hnamed
  exact ⟨rest, hrest.symm⟩

/-- Where a directory is there or can be made, the way to it is open. -/
theorem walk_of_ensureDirectory {after : FileTree}
    (h : tree.ensureDirectory workDirectory path = .ok after) :
    check path = .ok ()
      ∧ ∃ here, tree.walk (start workDirectory path) (splitEntry path).1 = .ok here := by
  rcases ensureDirectory_eq_ok_iff.mp h with hmade | ⟨_, hdirectory, _⟩
  · obtain ⟨here, _, _, hentry, _⟩ := makeDirectory_eq_ok_iff.mp hmade
    obtain ⟨hcheck, hwalk, _⟩ := locateEntry_eq_ok_iff.mp hentry
    exact ⟨hcheck, here, hwalk⟩
  · rw [isDirectory_eq_true_iff, find_eq_ok_iff] at hdirectory
    obtain ⟨location, hlocate, hnode⟩ := hdirectory
    rw [locate, bind_eq_ok_iff] at hlocate
    obtain ⟨_, hcheck, hlocate⟩ := hlocate
    obtain ⟨rest, hpieces⟩ := splitEntry_front path
    rw [hpieces] at hlocate
    exact ⟨hcheck, walk_append (walk_eq_ok_iff.mpr ⟨hlocate, hnode⟩)⟩

/-- Making a directory finds nothing only if the way to it is not open. -/
theorem makeDirectory_eq_notFound_iff (hcheck : check path = .ok ()) :
    tree.makeDirectory workDirectory path = .error .notFound ↔
      tree.walk (start workDirectory path) (splitEntry path).1 = .error .notFound := by
  rw [makeDirectory, locateEntry_eq, hcheck]
  cases tree.walk (start workDirectory path) (splitEntry path).1 with
  | error error =>
      constructor
      · intro h
        cases h
        rfl
      · intro h
        cases h
        rfl
  | ok here =>
      cases (splitEntry path).2 with
      | directory =>
          constructor <;> intro h <;> cases h
      | name name slashed =>
          by_cases hlength : longestName < name.length
          · simp [Except.map, hlength, bind, Except.bind, throw, throwThe, MonadExceptOf.throw]
          · cases hfound : tree.get? (here ++ [name]) <;>
              simp [Except.map, hlength, hfound, bind, Except.bind, throw, throwThe,
                MonadExceptOf.throw, pure, Except.pure]

/-- The last of some directories is made at once, or after the ones on the way to it. -/
theorem makeSteps_cons_eq_ok_iff {before : List Path} {after : FileTree} :
    tree.makeSteps workDirectory (path :: before) = (after, .ok ()) ↔
      tree.ensureDirectory workDirectory path = .ok after
        ∨ tree.ensureDirectory workDirectory path = .error .notFound
          ∧ ∃ between, tree.makeSteps workDirectory before = (between, .ok ())
            ∧ between.ensureDirectory workDirectory path = .ok after := by
  rw [makeSteps]
  cases tree.ensureDirectory workDirectory path with
  | ok made => simp
  | error error =>
      cases error with
      | notFound =>
          rcases tree.makeSteps workDirectory before with ⟨between, error | ⟨⟨⟩⟩⟩
          · simp
          · cases hagain : between.ensureDirectory workDirectory path <;> simp [hagain]
      | _ => simp

/-- One tree is the other with some directories more, each where one of some paths leads. -/
structure Grown (workDirectory : Location) (paths : List Path) (tree after : FileTree) : Prop where
  kept : ∀ location node, tree.get? location = some node → after.get? location = some node
  made : ∀ location node, after.get? location = some node → tree.get? location = none →
    node = .directory ∧ ∃ path ∈ paths, after.locate workDirectory path = .ok location

section Grown

variable {between after : FileTree} {paths more : List Path}

theorem Grown.refl (workDirectory : Location) (paths : List Path) (tree : FileTree) :
    Grown workDirectory paths tree tree where
  kept _ _ hnode := hnode
  made location node hnode hnone := by
    rw [hnode] at hnone
    cases hnone

theorem Grown.directoriesIn (hgrown : Grown workDirectory paths tree after) :
    DirectoriesIn tree after :=
  fun location => hgrown.kept location .directory

theorem Grown.mono (hgrown : Grown workDirectory paths tree after) (hpaths : paths ⊆ more) :
    Grown workDirectory more tree after where
  kept := hgrown.kept
  made location node hnode hnone := by
    obtain ⟨hdirectory, path, hpath, hlocate⟩ := hgrown.made location node hnode hnone
    exact ⟨hdirectory, path, hpaths hpath, hlocate⟩

theorem Grown.trans (hfirst : Grown workDirectory paths tree between)
    (hsecond : Grown workDirectory paths between after) :
    Grown workDirectory paths tree after where
  kept location node hnode := hsecond.kept location node (hfirst.kept location node hnode)
  made location node hnode hnone := by
    cases hbetween : between.get? location with
    | none => exact hsecond.made location node hnode hbetween
    | some there =>
        obtain ⟨rfl, path, hpath, hlocate⟩ := hfirst.made location there hbetween hnone
        rw [hsecond.kept location _ hbetween] at hnode
        cases hnode
        exact ⟨rfl, path, hpath, hsecond.directoriesIn.locate hlocate⟩

/-- No file is changed, added or taken away. -/
theorem Grown.file_iff (hgrown : Grown workDirectory paths tree after) (location : Location)
    (bytes : List UInt8) :
    after.get? location = some (.file bytes) ↔ tree.get? location = some (.file bytes) := by
  constructor
  · intro hfile
    cases htree : tree.get? location with
    | none => cases (hgrown.made location _ hfile htree).1
    | some node => rw [← hgrown.kept location node htree, hfile]
  · exact hgrown.kept location _

/-- What is put where nothing was takes the place of nothing. -/
theorem get?_put_of_some {location other : Location} {node there : Node} (hlocation : location ≠ [])
    (hnone : tree.get? location = none) (hthere : tree.get? other = some there) :
    (tree.put location node).get? other = some there := by
  rw [get?_put tree hlocation, if_neg, hthere]
  rintro rfl
  rw [hnone] at hthere
  cases hthere

/-- A directory that is made lies where its path leads from then on. -/
theorem grown_makeDirectory (h : tree.makeDirectory workDirectory path = .ok after) :
    Grown workDirectory [path] tree after := by
  obtain ⟨here, name, slashed, hentry, hlength, hnone, rfl⟩ := makeDirectory_eq_ok_iff.mp h
  have hplace := location_ne_nil here name
  have hin : DirectoriesIn tree (tree.put (here ++ [name]) .directory) :=
    fun _ => get?_put_of_some hplace hnone
  refine ⟨fun _ _ => get?_put_of_some hplace hnone, ?_⟩
  intro location node hnode hmissing
  rw [get?_put tree hplace] at hnode
  split at hnode
  · rename_i hlocation
    cases hnode
    refine ⟨rfl, path, List.mem_singleton_self path, ?_⟩
    rw [hlocation]
    apply locate_of_locateEntry (hin.locateEntry hentry) hlength
    rw [get?_put tree hplace, if_pos rfl]
  · rw [hmissing] at hnode
    cases hnode

theorem grown_ensureDirectory (h : tree.ensureDirectory workDirectory path = .ok after) :
    Grown workDirectory [path] tree after := by
  rcases ensureDirectory_eq_ok_iff.mp h with hmade | ⟨_, _, rfl⟩
  · exact grown_makeDirectory hmade
  · exact Grown.refl workDirectory [path] after

/-- However far the making of directories gets, directories are all it leaves. -/
theorem grown_makeSteps (tree : FileTree) (workDirectory : Location) (paths : List Path) :
    Grown workDirectory paths tree (tree.makeSteps workDirectory paths).1 := by
  -- The tree stays fixed: a step back starts from the same tree, which lacks the way to the path.
  induction paths with
  | nil => exact Grown.refl workDirectory [] tree
  | cons path before ih =>
      have hlast : ∀ {tree after : FileTree}, tree.ensureDirectory workDirectory path = .ok after →
          Grown workDirectory (path :: before) tree after :=
        fun hensure => (grown_ensureDirectory hensure).mono (by simp)
      have hbefore := ih.mono (List.subset_cons_self path before)
      unfold makeSteps
      cases hensure : tree.ensureDirectory workDirectory path with
      | ok after => exact hlast hensure
      | error error =>
          cases error with
          | notFound =>
              simp only
              generalize tree.makeSteps workDirectory before = steps at hbefore
              obtain ⟨between, outcome⟩ := steps
              cases outcome with
              | error error => exact hbefore
              | ok value =>
                  cases hagain : between.ensureDirectory workDirectory path with
                  | error error => simpa [hagain] using hbefore
                  | ok after => simpa [hagain] using hbefore.trans (hlast hagain)
          | _ => exact Grown.refl workDirectory (path :: before) tree

theorem grown_makeParent (tree : FileTree) (workDirectory : Location) (path : Path) :
    Grown workDirectory path.ancestors tree (tree.makeParent workDirectory path).1 := by
  unfold makeParent Path.ancestors
  cases path.parent? with
  | none => exact Grown.refl workDirectory [] tree
  | some parent =>
      simp only
      split
      · exact Grown.refl workDirectory parent.waypoints tree
      · exact grown_makeSteps tree workDirectory parent.waypoints

end Grown

end PadBridge.FileTree
