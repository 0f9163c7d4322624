import PadBridge.Proofs.Grounded
import PadBridge.Proofs.Settings
import PadBridge.Settings.File

/-!
The settings that are in effect.  They depend on the file of the settings only, and whatever is in
the way of reading it counts as the default settings.
-/

namespace PadBridge.Settings

variable {surroundings : Surroundings} {tree after : FileTree}

def ofBytes (bytes : List UInt8) : Settings :=
  match Utf8.decode? bytes with
  | some text => (ofToml text).toOption.getD default
  | none => default

/-- The settings in effect: those of the file if it is there. -/
def effective (surroundings : Surroundings) (tree : FileTree) : Settings :=
  match (file? surroundings).map (tree.find surroundings.workDirectory) with
  | some (.ok (.file bytes)) => ofBytes bytes
  | _ => default

section Effective

variable {file : Path} (hfile : file? surroundings = some file)
include hfile

theorem effective_of_find {bytes : List UInt8}
    (hfind : tree.find surroundings.workDirectory file = .ok (.file bytes)) :
    effective surroundings tree = ofBytes bytes := by
  rw [effective, hfile, Option.map_some, hfind]

theorem effective_of_no_file
    (hfind : ∀ bytes, tree.find surroundings.workDirectory file ≠ .ok (.file bytes)) :
    effective surroundings tree = default := by
  rw [effective, hfile, Option.map_some]
  split
  · rename_i bytes h
    exact absurd (Option.some.inj h) (hfind bytes)
  · rfl

end Effective

theorem effective_of_file?_none (hfile : file? surroundings = none) :
    effective surroundings tree = default := by
  rw [effective, hfile]
  rfl

theorem effective_of_sameFile
    (hsame : ∀ file ∈ file? surroundings,
      FileTree.SameFile surroundings.workDirectory file tree after) :
    effective surroundings after = effective surroundings tree := by
  cases hfile : file? surroundings with
  | none => rw [effective_of_file?_none hfile, effective_of_file?_none hfile]
  | some file =>
      have hkept := hsame file hfile
      by_cases hthere : ∃ bytes, tree.find surroundings.workDirectory file = .ok (.file bytes)
      · obtain ⟨bytes, hfind⟩ := hthere
        rw [effective_of_find hfile hfind, effective_of_find hfile ((hkept bytes).mpr hfind)]
      · have hnone := not_exists.mp hthere
        rw [effective_of_no_file hfile hnone,
          effective_of_no_file hfile fun bytes h => hnone bytes ((hkept bytes).mp h)]

/-- Settings are in effect if they can be loaded, and else the default ones are. -/
theorem effective_eq_load (surroundings : Surroundings) (tree : FileTree) :
    effective surroundings tree = (load surroundings tree).toOption.getD default := by
  cases hfile : file? surroundings with
  | none =>
      rw [effective_of_file?_none hfile, load, hfile]
      rfl
  | some file =>
      rw [load, hfile]
      simp only
      by_cases hthere : ∃ bytes, tree.find surroundings.workDirectory file = .ok (.file bytes)
      · obtain ⟨bytes, hfind⟩ := hthere
        have hcontains := FileTree.contains_eq_true_iff.mpr ⟨_, hfind⟩
        simp only [effective_of_find hfile hfind, ofBytes, loadFrom, hcontains, if_true,
          FileTree.read_eq_ok_iff.mpr hfind]
        cases Utf8.decode? bytes with
        | none => rfl
        | some text =>
            simp only
            cases ofToml text <;> rfl
      · have hnone := not_exists.mp hthere
        rw [effective_of_no_file hfile hnone, loadFrom]
        split
        · split
          · rfl
          · rename_i bytes hread
            exact absurd (FileTree.read_eq_ok_iff.mp hread) (hnone bytes)
        · rfl

theorem ofBytes_encode {settings : Settings} {text : List Char}
    (htext : ofToml text = .ok settings) : ofBytes (Utf8.encode text) = settings := by
  rw [ofBytes, Utf8.decode?_eq_some_iff.mpr rfl]
  simp only [htext]
  rfl

/-- Settings that were written are in effect. -/
theorem effective_of_toToml {file : Path} (hfile : file? surroundings = some file)
    {settings : Settings} {text : List Char} (htext : settings.toToml = .ok text)
    (hfind : tree.find surroundings.workDirectory file = .ok (.file (Utf8.encode text))) :
    effective surroundings tree = settings := by
  rw [effective_of_find hfile hfind, ofBytes_encode (ofToml_of_toToml htext)]

/-- The same settings, up to the spelling of the path. -/
structure Agree (left right : Settings) : Prop where
  mappingFile : left.mappingFile.agrees right.mappingFile = true
  showInstructions : left.showInstructions = right.showInstructions

theorem Agree.refl (settings : Settings) : Agree settings settings :=
  ⟨(Path.agrees_iff _ _).mpr rfl, rfl⟩

theorem Agree.symm {left right : Settings} (hagree : Agree left right) : Agree right left where
  mappingFile := by
    have hcomponents := (Path.agrees_iff _ _).mp hagree.mappingFile
    exact (Path.agrees_iff _ _).mpr hcomponents.symm
  showInstructions := hagree.showInstructions.symm

theorem Agree.trans {left middle right : Settings} (hfirst : Agree left middle)
    (hsecond : Agree middle right) : Agree left right where
  mappingFile := by
    have hleft := (Path.agrees_iff _ _).mp hfirst.mappingFile
    have hright := (Path.agrees_iff _ _).mp hsecond.mappingFile
    exact (Path.agrees_iff _ _).mpr (hleft.trans hright)
  showInstructions := hfirst.showInstructions.trans hsecond.showInstructions

section Update

variable (mappingFile : Option Path) (showInstructions : Option Bool)

theorem Agree.update {left right : Settings} (hagree : Agree left right) :
    Agree (left.update mappingFile showInstructions).1
      (right.update mappingFile showInstructions).1 where
  mappingFile := by
    cases mappingFile with
    | none => exact hagree.mappingFile
    | some path => exact (Path.agrees_iff _ _).mpr rfl
  showInstructions := by
    cases showInstructions with
    | none => exact hagree.showInstructions
    | some flag => rfl

/-- An update that changes nothing leaves at most another spelling of the path. -/
theorem agree_of_update_same {settings next : Settings}
    (hupdate : settings.update mappingFile showInstructions = (next, false)) :
    Agree settings next := by
  simp only [Settings.update, Prod.mk.injEq] at hupdate
  obtain ⟨rfl, hsame⟩ := hupdate
  rw [Bool.not_eq_false', Bool.and_eq_true, beq_iff_eq] at hsame
  exact Agree.symm ⟨hsame.1, hsame.2⟩

end Update

end PadBridge.Settings
