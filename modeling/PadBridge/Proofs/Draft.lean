import Mathlib.Data.List.Infix
import PadBridge.Proofs.Grounded

/-!
Replacing a file step by step.  The new content is written to a draft, in a directory of its own
beside the file, and moved over the file; then the directory of the draft is taken away, wherever
the steps before it have stopped.  The file is replaced as in a single step, and nothing remains of
the draft.
-/

namespace PadBridge.FileTree

/-- Take away what is at a location and below it. -/
def remove (tree : FileTree) (place : Location) : FileTree :=
  ⟨tree.nodes.filter fun entry => ¬ place <+: entry.1⟩

/-- Move a file over an entry of a directory, unless that is a directory. -/
def move (tree : FileTree) (place directory : Location) (name : List UInt8) :
    Except FileError FileTree :=
  if name.contains 0 then .error .invalidArgument
  else
    match tree.get? place with
    | none => .error .notFound
    | some .directory => .error .isDirectory
    | some (.file bytes) => (tree.remove place).putFile directory name bytes

/-- The name of the directory of a draft; the letters are picked at random. -/
def draftName (letters : List UInt8) : List UInt8 :=
  Utf8.bytesOf ".atomicwrite" ++ letters

def withDraft (tree : FileTree) (directory : Location) (letters bytes : List UInt8) : FileTree :=
  (tree.put (directory ++ [draftName letters]) .directory).put
    (directory ++ [draftName letters, Utf8.bytesOf "tmpfile.tmp"]) (.file bytes)

/-- What is left when a file is replaced by way of a draft. -/
def replaceByDraft (tree : FileTree) (workDirectory : Location) (path : Path)
    (letters bytes : List UInt8) : FileTree :=
  match tree.locate workDirectory path.directory >>= tree.enter with
  | .error _ => tree
  | .ok directory =>
      if pathLimit ≤ fullLength workDirectory path.directory + draftLength then tree
      else
        let drafted := tree.withDraft directory letters bytes
        let moved :=
          match path.fileName? with
          | none => drafted
          | some name =>
              match drafted.move
                (directory ++ [draftName letters, Utf8.bytesOf "tmpfile.tmp"]) directory name with
              | .ok moved => moved
              | .error _ => drafted
        moved.remove (directory ++ [draftName letters])

def Replacement.left (replacement : Replacement) (tree : FileTree) : FileTree :=
  match replacement with
  | .replaced after => after
  | .failed _ | .nameless => tree

/-- Nothing in the directory of a file is called like the draft, nor is the file itself. -/
structure FreshDraft (tree : FileTree) (workDirectory : Location) (path : Path)
    (letters : List UInt8) : Prop where
  free : ∀ directory, tree.locate workDirectory path.directory = .ok directory →
    ∀ location, directory ++ [draftName letters] <+: location → tree.get? location = none
  name : path.fileName? ≠ some (draftName letters)

theorem get?_remove (tree : FileTree) {place : Location} (hplace : place ≠ [])
    (location : Location) :
    (tree.remove place).get? location =
      if place <+: location then none else tree.get? location := by
  unfold get?
  by_cases hroot : location = []
  · subst hroot
    rw [if_pos rfl, if_pos rfl, if_neg]
    exact fun h => hplace (List.prefix_nil.mp h)
  · rw [if_neg hroot, if_neg hroot, remove,
      lookup_filter tree.nodes (fun location => ¬ place <+: location)]
    by_cases hunder : place <+: location <;> simp [hunder]

/-- Two trees that differ at most in what is at a location and below it. -/
def SameOutside (place : Location) (left right : FileTree) : Prop :=
  ∀ location, ¬ place <+: location → left.get? location = right.get? location

section Outside

variable {tree between after : FileTree} {place : Location}

theorem SameOutside.trans (hfirst : SameOutside place tree between)
    (hsecond : SameOutside place between after) : SameOutside place tree after :=
  fun location hlocation => (hfirst location hlocation).trans (hsecond location hlocation)

theorem sameOutside_put {location : Location} (hlocation : location ≠ [])
    (hplace : place <+: location) (node : Node) :
    SameOutside place (tree.put location node) tree := by
  intro other hother
  rw [get?_put tree hlocation, if_neg]
  rintro rfl
  exact hother hplace

theorem sameOutside_remove {location : Location} (hlocation : location ≠ [])
    (hplace : place <+: location) : SameOutside place (tree.remove location) tree := by
  intro other hother
  rw [get?_remove tree hlocation, if_neg fun h => hother (hplace.trans h)]

/-- Where nothing was before nothing is left. -/
theorem SameOutside.get?_remove (hsame : SameOutside place after tree) (hplace : place ≠ [])
    (hfree : ∀ location, place <+: location → tree.get? location = none) (location : Location) :
    (after.remove place).get? location = tree.get? location := by
  rw [FileTree.get?_remove after hplace]
  by_cases hlocation : place <+: location
  · rw [if_pos hlocation, hfree location hlocation]
  · rw [if_neg hlocation, hsame location hlocation]

/-- Outside a file is put into both trees or into neither. -/
theorem SameOutside.putFile (hsame : SameOutside place tree between) {directory : Location}
    {name : List UInt8} (hname : ¬ place <+: directory ++ [name]) (bytes : List UInt8) :
    (∃ error, tree.putFile directory name bytes = .error error
        ∧ between.putFile directory name bytes = .error error)
      ∨ tree.putFile directory name bytes = .ok (tree.put (directory ++ [name]) (.file bytes))
        ∧ between.putFile directory name bytes =
          .ok (between.put (directory ++ [name]) (.file bytes)) := by
  unfold FileTree.putFile
  rw [hsame _ hname]
  split
  · exact Or.inl ⟨_, rfl, rfl⟩
  · cases between.get? (directory ++ [name]) with
    | none => exact Or.inr ⟨rfl, rfl⟩
    | some node =>
        cases node with
        | directory => exact Or.inl ⟨_, rfl, rfl⟩
        | file => exact Or.inr ⟨rfl, rfl⟩

end Outside

variable {tree : FileTree} {workDirectory : Location} {path : Path} {letters bytes : List UInt8}

theorem prefix_draft (directory : Location) (letters name : List UInt8) :
    directory ++ [draftName letters] <+: directory ++ [draftName letters, name] :=
  ⟨[name], by simp⟩

theorem sameOutside_withDraft (tree : FileTree) (directory : Location)
    (letters bytes : List UInt8) :
    SameOutside (directory ++ [draftName letters]) (tree.withDraft directory letters bytes) tree :=
  (sameOutside_put (by simp) (prefix_draft directory letters _) _).trans
    (sameOutside_put (by simp) (List.prefix_refl _) _)

theorem not_prefix_draft {directory : Location} {name : List UInt8}
    (hname : name ≠ draftName letters) :
    ¬ directory ++ [draftName letters] <+: directory ++ [name] := by
  intro hprefix
  have heq := List.IsPrefix.eq_of_length hprefix (by simp)
  exact hname (List.singleton_inj.mp (List.append_cancel_left heq)).symm

/-- Moving the draft puts its content where it is to be, or stops for the same reason. -/
theorem move_withDraft (tree : FileTree) (directory : Location) {name : List UInt8}
    (hname : name ≠ draftName letters) (hzero : name.contains 0 = false) :
    (∃ error, tree.putFile directory name bytes = .error error
        ∧ (tree.withDraft directory letters bytes).move
            (directory ++ [draftName letters, Utf8.bytesOf "tmpfile.tmp"]) directory name =
          .error error)
      ∨ ∃ moved, tree.putFile directory name bytes =
          .ok (tree.put (directory ++ [name]) (.file bytes))
        ∧ (tree.withDraft directory letters bytes).move
            (directory ++ [draftName letters, Utf8.bytesOf "tmpfile.tmp"]) directory name =
          .ok moved
        ∧ SameOutside (directory ++ [draftName letters]) moved
          (tree.put (directory ++ [name]) (.file bytes)) := by
  let file : Location := directory ++ [draftName letters, Utf8.bytesOf "tmpfile.tmp"]
  let removed := (tree.withDraft directory letters bytes).remove file
  have hfile : file ≠ [] := by simp [file]
  have hdraft : (tree.withDraft directory letters bytes).get? file = some (.file bytes) := by
    rw [withDraft, get?_put _ hfile, if_pos rfl]
  have hmove : (tree.withDraft directory letters bytes).move file directory name =
      removed.putFile directory name bytes := by
    simp only [move, hzero, hdraft, Bool.false_eq_true, if_false, removed]
  have hremoved : SameOutside (directory ++ [draftName letters]) removed tree :=
    (sameOutside_remove hfile (prefix_draft directory letters _)).trans
      (sameOutside_withDraft tree directory letters bytes)
  rw [hmove]
  rcases hremoved.putFile (not_prefix_draft hname) bytes with ⟨error, hput, hother⟩ | ⟨hput, hother⟩
  · exact Or.inl ⟨error, hother, hput⟩
  · refine Or.inr ⟨_, hother, hput, fun location hlocation => ?_⟩
    rw [get?_put removed (location_ne_nil directory name),
      get?_put tree (location_ne_nil directory name), hremoved location hlocation]

/-- The path of a file decides where its directory is and what it is called there. -/
theorem replace_eq (tree : FileTree) (workDirectory : Location) (path : Path)
    (bytes : List UInt8) :
    tree.replace workDirectory path bytes =
      match tree.locate workDirectory path.directory >>= tree.enter with
      | .error error => .failed error
      | .ok directory =>
          if pathLimit ≤ fullLength workDirectory path.directory + draftLength then
            .failed .nameTooLong
          else
            match path.fileName? with
            | none => .nameless
            | some name =>
                if name.contains 0 then .failed .invalidArgument
                else
                  match tree.putFile directory name bytes with
                  | .ok after => .replaced after
                  | .error error => .failed error := by
  have hparent : path.parent? = none → path.fileName? = none := by
    unfold Path.parent? Path.fileName?
    rcases path.components.getLast? with _ | _ | _ | _ | name <;> simp
  unfold replace Path.directory
  cases hpath : path.parent? with
  | none =>
      cases hname : path.fileName? with
      | none => rfl
      | some name => cases (hparent hpath).symm.trans hname
  | some parent => cases path.fileName? <;> rfl

/-- However a replacement by way of a draft ends, it leaves what the replacement in a single step
leaves. -/
theorem get?_replaceByDraft (hfresh : FreshDraft tree workDirectory path letters)
    (location : Location) :
    (tree.replaceByDraft workDirectory path letters bytes).get? location =
      ((tree.replace workDirectory path bytes).left tree).get? location := by
  rw [replace_eq, replaceByDraft]
  cases hhere : tree.locate workDirectory path.directory >>= tree.enter with
  | error error => rfl
  | ok directory =>
      obtain ⟨place, hlocate, henter⟩ := bind_eq_ok_iff.mp hhere
      obtain ⟨rfl, _⟩ := enter_eq_ok_iff.mp henter
      have hdraft := location_ne_nil place (draftName letters)
      have hfree := hfresh.free place hlocate
      have hnothing := (sameOutside_withDraft tree place letters bytes).get?_remove hdraft hfree
      simp only
      split
      · rfl
      · cases hname : path.fileName? with
        | none => exact hnothing location
        | some name =>
            have hother : name ≠ draftName letters :=
              fun h => hfresh.name (hname.trans (congrArg some h))
            by_cases hzero : name.contains 0 = true
            · simp only [move, if_pos hzero]
              exact hnothing location
            · simp only [if_neg hzero]
              rcases move_withDraft tree place hother (Bool.not_eq_true _ ▸ hzero) with
                ⟨error, hput, hmove⟩ | ⟨moved, hput, hmove, hmoved⟩
              · rw [hput, hmove]
                exact hnothing location
              · rw [hput, hmove]
                refine hmoved.get?_remove hdraft (fun other hunder => ?_) location
                rw [get?_put tree (location_ne_nil place name), if_neg, hfree other hunder]
                rintro rfl
                exact not_prefix_draft hother hunder

end PadBridge.FileTree
