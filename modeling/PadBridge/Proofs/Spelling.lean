import Mathlib.Logic.Relation
import PadBridge.Proofs.Path
import PadBridge.Proofs.SettingsFile

/-!
Spellings of a path.  Slashes and dots that are no steps can be left out one after the other, and
two paths agree exactly if this makes them the same bytes.  An update of the settings tells whether
it changes any: another spelling of the same path is taken over, but it is no change.
-/

namespace PadBridge

def Component.spelling : Component → List UInt8
  | .root => []
  | .current => [Path.dot]
  | .up => [Path.dot, Path.dot]
  | .name bytes => bytes

namespace Path

/-- Something that is no step is left out of a spelling. -/
inductive Tidies : List UInt8 → List UInt8 → Prop where
  | slashes (front back : List UInt8) :
      Tidies (front ++ slash :: slash :: back) (front ++ slash :: back)
  | innerDot (front back : List UInt8) :
      Tidies (front ++ slash :: dot :: slash :: back) (front ++ slash :: back)
  | lastDot (front : List UInt8) : Tidies (front ++ [slash, dot]) (front ++ [slash])
  /-- A slash at the end; the root keeps its own. -/
  | lastSlash {front : List UInt8} (hfront : front ≠ []) : Tidies (front ++ [slash]) front

/-- Things that are no steps are left out of a spelling one after the other. -/
def Tidied : List UInt8 → List UInt8 → Prop :=
  Relation.ReflTransGen Tidies

theorem pieces_append (front back : List UInt8) :
    pieces (front ++ slash :: back) = pieces front ++ pieces back := by
  induction front with
  | nil => rw [List.nil_append, pieces_slash_cons, pieces, List.singleton_append]
  | cons byte front ih =>
      obtain ⟨first, more, hfront⟩ := List.exists_cons_of_ne_nil (pieces_ne_nil front)
      rw [List.cons_append, pieces, pieces, ih, hfront]
      split <;> rfl

theorem head?_pieces_append (front back : List UInt8) :
    (pieces (front ++ slash :: back)).head? = (pieces front).head? := by
  obtain ⟨first, more, hfront⟩ := List.exists_cons_of_ne_nil (pieces_ne_nil front)
  rw [pieces_append, hfront]
  rfl

/-- What stands behind a slash adds its steps and changes nothing in front of it. -/
theorem components_append (front back : List UInt8) :
    components ⟨front ++ slash :: back⟩ =
      components ⟨front ++ [slash]⟩ ++ (pieces back).filterMap component? := by
  have habsolute : isAbsolute ⟨front ++ slash :: back⟩ = isAbsolute ⟨front ++ [slash]⟩ := by
    cases front <;> rfl
  rw [components, components, habsolute, startsAtCurrent, startsAtCurrent, head?_pieces_append,
    head?_pieces_append front [], pieces_append, pieces_append, List.filterMap_append,
    List.filterMap_append, pieces, List.filterMap_cons_none component?_nil, List.filterMap_nil,
    List.append_nil, List.append_assoc]

theorem components_append_slash {front : List UInt8} (hfront : front ≠ []) :
    components ⟨front ++ [slash]⟩ = components ⟨front⟩ := by
  have habsolute : isAbsolute ⟨front ++ [slash]⟩ = isAbsolute ⟨front⟩ := by
    cases front with
    | nil => exact absurd rfl hfront
    | cons byte front => rfl
  rw [components, components, habsolute, startsAtCurrent, startsAtCurrent, head?_pieces_append,
    pieces_append, List.filterMap_append, pieces, List.filterMap_cons_none component?_nil,
    List.filterMap_nil, List.append_nil]

/-- Leaving out what is no step leaves the steps. -/
theorem components_of_tidies {spelling tidier : List UInt8} (htidies : Tidies spelling tidier) :
    components ⟨spelling⟩ = components ⟨tidier⟩ := by
  cases htidies with
  | slashes front back =>
      rw [components_append, components_append front back, pieces_slash_cons,
        List.filterMap_cons_none component?_nil]
  | innerDot front back =>
      have hpieces : pieces (dot :: slash :: back) = [dot] :: pieces back :=
        pieces_append [dot] back
      rw [components_append, components_append front back, hpieces,
        List.filterMap_cons_none component?_dot]
  | lastDot front =>
      rw [components_append front [dot], pieces_dot, List.filterMap_cons_none component?_dot,
        List.filterMap_nil, List.append_nil]
  | lastSlash hfront => exact components_append_slash hfront

theorem components_of_tidied {spelling tidier : List UInt8} (htidied : Tidied spelling tidier) :
    components ⟨spelling⟩ = components ⟨tidier⟩ := by
  induction htidied with
  | refl => rfl
  | tail _ htidies ih => rw [ih, components_of_tidies htidies]

theorem spelling_of_component? {piece : List UInt8} {step : Component}
    (hstep : component? piece = some step) : step.spelling = piece := by
  unfold component? at hstep
  split at hstep
  · cases hstep
  · split at hstep
    · cases hstep
      exact Eq.symm ‹_›
    · cases hstep
      rfl

theorem component?_eq_none_iff {piece : List UInt8} :
    component? piece = none ↔ piece = [] ∨ piece = [dot] := by
  unfold component?
  split
  · simpa
  · split <;> simp_all

theorem intercalate_cons (part : List UInt8) {parts : List (List UInt8)} (hparts : parts ≠ []) :
    [slash].intercalate (part :: parts) = part ++ slash :: [slash].intercalate parts := by
  obtain ⟨next, rest, rfl⟩ := List.exists_cons_of_ne_nil hparts
  rw [List.intercalate_cons_cons, List.append_assoc, List.singleton_append]

/-- Behind a slash pieces are tidied to those that are steps. -/
theorem tidied_behind_slash (parts : List (List UInt8)) (front : List UInt8) :
    Tidied (front ++ slash :: [slash].intercalate parts)
      (front ++ slash ::
        [slash].intercalate ((parts.filterMap component?).map Component.spelling)) := by
  induction parts generalizing front with
  | nil => exact .refl
  | cons part parts ih =>
      cases hpart : component? part with
      | none =>
          rw [List.filterMap_cons_none hpart]
          by_cases hparts : parts = []
          · subst hparts
            rcases component?_eq_none_iff.mp hpart with rfl | rfl
            · exact .refl
            · exact .single (.lastDot front)
          · rw [intercalate_cons part hparts]
            refine .head ?_ (ih front)
            rcases component?_eq_none_iff.mp hpart with rfl | rfl
            · exact .slashes front _
            · exact .innerDot front _
      | some step =>
          rw [List.filterMap_cons_some hpart, List.map_cons, spelling_of_component? hpart]
          by_cases hparts : parts = []
          · subst hparts
            exact .refl
          · have hrest := ih (front ++ slash :: part)
            rw [intercalate_cons part hparts]
            rw [List.append_assoc, List.cons_append] at hrest
            by_cases hsteps : parts.filterMap component? = []
            · rw [hsteps] at hrest ⊢
              rw [List.map_nil, List.intercalate_singleton]
              refine .tail hrest ?_
              exact .lastSlash (List.append_ne_nil_of_right_ne_nil front (List.cons_ne_nil _ _))
            · rw [intercalate_cons part (by simpa using hsteps)]
              simpa using hrest

def written : List Component → List UInt8
  | [.root] => [slash]
  | steps => [slash].intercalate (steps.map Component.spelling)

theorem written_root_cons (steps : List Component) :
    written (.root :: steps) = slash :: [slash].intercalate (steps.map Component.spelling) := by
  cases steps with
  | nil => rfl
  | cons step steps => exact intercalate_cons [] (List.cons_ne_nil _ _)

theorem written_of_ne {steps : List Component} (hsteps : steps ≠ [.root]) :
    written steps = [slash].intercalate (steps.map Component.spelling) := by
  unfold written
  split
  · exact absurd rfl hsteps
  · rfl

/-- The root and a dot that counts stand in the first place only. -/
theorem component?_ne {piece : List UInt8} {step : Component}
    (hstep : component? piece = some step) : step ≠ .root ∧ step ≠ .current := by
  unfold component? at hstep
  split at hstep
  · cases hstep
  · split at hstep <;> cases hstep <;> exact ⟨nofun, nofun⟩

/-- A piece in front of all slashes is a step, also if it is a single dot. -/
theorem exists_components_of_piece {piece : List UInt8} (hpiece : piece ≠ [])
    (hslash : slash ∉ piece) :
    ∃ step, step ≠ .root ∧ step.spelling = piece ∧ components ⟨piece⟩ = [step] := by
  by_cases hdot : piece = [dot]
  · subst hdot
    exact ⟨.current, nofun, rfl, by decide⟩
  · obtain ⟨step, hstep⟩ := Option.ne_none_iff_exists'.mp
      (mt component?_eq_none_iff.mp (not_or.mpr ⟨hpiece, hdot⟩))
    have hpieces : pieces piece = [piece] := by
      have hsingle := pieces_intercalate (List.cons_ne_nil piece []) (by simpa using hslash)
      rwa [List.intercalate_singleton] at hsingle
    have habsolute : isAbsolute ⟨piece⟩ = false := by
      rw [isAbsolute, decide_eq_false_iff_not]
      exact fun hhead => hslash (List.mem_of_mem_head? hhead)
    have hcurrent : startsAtCurrent ⟨piece⟩ = false := by
      rw [startsAtCurrent, hpieces, decide_eq_false_iff_not]
      exact fun hhead => hdot (Option.some.inj hhead)
    refine ⟨step, (component?_ne hstep).1, spelling_of_component? hstep, ?_⟩
    rw [components, habsolute, hcurrent, hpieces, List.filterMap_cons_some hstep]
    rfl

/-- Every path can be tidied to the spelling that is made of its steps. -/
theorem tidied_written (path : Path) : Tidied path.bytes (written path.components) := by
  obtain ⟨bytes⟩ := path
  obtain ⟨first, rest, hpieces⟩ := List.exists_cons_of_ne_nil (pieces_ne_nil bytes)
  have hslash : ∀ piece ∈ first :: rest, slash ∉ piece := by
    rw [← hpieces]
    exact fun piece => slash_notMem_of_mem_pieces
  have hbytes : bytes = [slash].intercalate (first :: rest) := by
    rw [← hpieces, intercalate_pieces]
  by_cases hrest : rest = []
  · subst hrest
    rw [List.intercalate_singleton] at hbytes
    subst hbytes
    by_cases hfirst : bytes = []
    · subst hfirst
      exact .refl
    · obtain ⟨step, hroot, hstep, hsteps⟩ :=
        exists_components_of_piece hfirst (hslash bytes List.mem_cons_self)
      rw [hsteps, written_of_ne (by simpa using hroot), List.map_singleton, hstep,
        List.intercalate_singleton]
      exact .refl
  · have hbehind : pieces ([slash].intercalate rest) = rest :=
      pieces_intercalate hrest fun piece hpiece => hslash piece (List.mem_cons_of_mem first hpiece)
    rw [intercalate_cons first hrest] at hbytes
    subst hbytes
    have htidied := tidied_behind_slash rest first
    rw [components_append, hbehind]
    by_cases hfirst : first = []
    · subst hfirst
      have hroot : components ⟨[] ++ [slash]⟩ = [.root] := by decide
      rw [hroot, List.singleton_append, written_root_cons]
      exact htidied
    · obtain ⟨step, hroot, hstep, hsteps⟩ :=
        exists_components_of_piece hfirst (hslash first List.mem_cons_self)
      rw [components_append_slash hfirst, hsteps, List.singleton_append,
        written_of_ne fun h => hroot (List.cons.inj h).1, List.map_cons, hstep]
      by_cases hempty : rest.filterMap component? = []
      · rw [hempty] at htidied ⊢
        rw [List.map_nil, List.intercalate_singleton]
        exact .tail htidied (.lastSlash hfirst)
      · rw [intercalate_cons first (by simpa using hempty)]
        exact htidied

/-- Two paths have the same steps exactly if they can be tidied to the same bytes. -/
theorem components_eq_iff_tidied (left right : Path) :
    left.components = right.components ↔
      ∃ spelling, Tidied left.bytes spelling ∧ Tidied right.bytes spelling := by
  constructor
  · intro hsteps
    have hright := tidied_written right
    rw [← hsteps] at hright
    exact ⟨_, tidied_written left, hright⟩
  · intro h
    obtain ⟨spelling, hleft, hright⟩ := h
    exact (components_of_tidied hleft).trans (components_of_tidied hright).symm

theorem mem_components_cases {path : Path} {step : Component} (hstep : step ∈ path.components) :
    (step = .root ∧ path.isAbsolute = true) ∨ (step = .current ∧ path.startsAtCurrent = true)
      ∨ (step ≠ .root ∧ step ≠ .current) := by
  rw [components, List.mem_append] at hstep
  rcases hstep with hstart | hpiece
  · split at hstart
    · exact Or.inl ⟨List.mem_singleton.mp hstart, ‹_›⟩
    · split at hstart
      · exact Or.inr (Or.inl ⟨List.mem_singleton.mp hstart, ‹_›⟩)
      · cases hstart
  · obtain ⟨_, _, hpiece⟩ := List.mem_filterMap.mp hpiece
    exact Or.inr (Or.inr (component?_ne hpiece))

/-- A slash in front of a relative path counts. -/
theorem components_slash_ne {path : Path} (hpath : path.isAbsolute = false) :
    components ⟨slash :: path.bytes⟩ ≠ path.components := by
  intro h
  have hroot : Component.root ∈ components ⟨slash :: path.bytes⟩ := List.mem_cons_self
  rcases mem_components_cases (h ▸ hroot) with ⟨_, habsolute⟩ | ⟨hcurrent, _⟩ | ⟨hother, _⟩
  · exact Bool.false_ne_true (hpath.symm.trans habsolute)
  · cases hcurrent
  · exact hother rfl

/-- A dot in front of a path counts, unless the path starts with one already. -/
theorem components_dot_ne {path : Path} (hpath : path.startsAtCurrent = false) :
    components ⟨dot :: slash :: path.bytes⟩ ≠ path.components := by
  intro h
  have hdot : components ⟨[dot] ++ [slash]⟩ = [.current] := by decide
  have hcurrent : Component.current ∈ components ⟨[dot] ++ slash :: path.bytes⟩ := by
    rw [components_append, hdot]
    exact List.mem_cons_self
  rcases mem_components_cases (h ▸ hcurrent) with ⟨hroot, _⟩ | ⟨_, hstarts⟩ | ⟨_, hother⟩
  · cases hroot
  · exact Bool.false_ne_true (hpath.symm.trans hstarts)
  · exact hother rfl

/-- Going up is a step wherever it stands. -/
theorem components_up_ne (front back : List UInt8) :
    components ⟨front ++ slash :: dot :: dot :: slash :: back⟩ ≠
      components ⟨front ++ slash :: back⟩ := by
  have hpieces : pieces (dot :: dot :: slash :: back) = [dot, dot] :: pieces back :=
    pieces_append [dot, dot] back
  rw [components_append, components_append front back, hpieces]
  intro h
  have hup : component? [dot, dot] = some .up := by decide
  have hlength := congrArg List.length (List.append_cancel_left h)
  rw [List.filterMap_cons_some hup, List.length_cons] at hlength
  omega

end Path

namespace Settings

/-- Whether another path for the mapping document is told to be a change. -/
def Moves (settings : Settings) (left right : Path) : Prop :=
  ({ settings with mappingFile := left }.update (some right) none).2 = true

variable {settings : Settings} {mappingFile : Option Path} {showInstructions : Option Bool}

theorem update_snd_eq_false_iff :
    (settings.update mappingFile showInstructions).2 = false ↔
      (settings.update mappingFile showInstructions).1.mappingFile.components =
          settings.mappingFile.components
        ∧ (settings.update mappingFile showInstructions).1.showInstructions =
          settings.showInstructions := by
  simp only [update, Bool.not_eq_false', Bool.and_eq_true, Path.agrees_iff, beq_iff_eq]

theorem moves_iff {left right : Path} :
    settings.Moves left right ↔ right.components ≠ left.components := by
  rw [Moves, ← Bool.not_eq_false, update_snd_eq_false_iff]
  simp [update]

/-- An update takes over what is given, to the byte, and leaves the rest.  It tells of no change
exactly if the flag and the steps of the path are the same; that is, if the two paths can be tidied
to the same bytes by leaving out slashes and dots that are no steps.  So not to be a change is an
equivalence between paths; an update that is repeated is none; nor is a second slash, or a dot with
its slash, behind a slash or at the end of a path that is not empty.  A slash or a dot in front and
a step up do count. -/
theorem update_tells_changes (settings : Settings) (mappingFile : Option Path)
    (showInstructions : Option Bool) :
    let next := (settings.update mappingFile showInstructions).1
    let changed := (settings.update mappingFile showInstructions).2
    next = ⟨mappingFile.getD settings.mappingFile,
        showInstructions.getD settings.showInstructions⟩
      ∧ (changed = false ↔ next.mappingFile.components = settings.mappingFile.components
        ∧ next.showInstructions = settings.showInstructions)
      ∧ (changed = false ↔ (∃ spelling, Path.Tidied next.mappingFile.bytes spelling
          ∧ Path.Tidied settings.mappingFile.bytes spelling)
        ∧ next.showInstructions = settings.showInstructions)
      ∧ (next.update mappingFile showInstructions).2 = false
      ∧ Equivalence (fun left right => ¬ settings.Moves left right)
      ∧ (∀ front back, ¬ settings.Moves ⟨front ++ Path.slash :: back⟩
          ⟨front ++ Path.slash :: Path.slash :: back⟩
        ∧ ¬ settings.Moves ⟨front ++ Path.slash :: back⟩
          ⟨front ++ Path.slash :: Path.dot :: Path.slash :: back⟩
        ∧ settings.Moves ⟨front ++ Path.slash :: back⟩
          ⟨front ++ Path.slash :: Path.dot :: Path.dot :: Path.slash :: back⟩)
      ∧ (∀ path : Path, path.bytes ≠ [] →
        ¬ settings.Moves path ⟨path.bytes ++ [Path.slash]⟩
          ∧ ¬ settings.Moves path ⟨path.bytes ++ [Path.slash, Path.dot]⟩)
      ∧ (∀ path : Path, path.isAbsolute = false →
        settings.Moves path ⟨Path.slash :: path.bytes⟩)
      ∧ ∀ path : Path, path.startsAtCurrent = false →
        settings.Moves path ⟨Path.dot :: Path.slash :: path.bytes⟩ := by
  intro next changed
  refine ⟨rfl, update_snd_eq_false_iff, ?_, ?_, ?_, fun front back => ?_, fun path hpath => ?_,
    fun path hpath => moves_iff.mpr (Path.components_slash_ne hpath),
    fun path hpath => moves_iff.mpr (Path.components_dot_ne hpath)⟩
  · rw [← Path.components_eq_iff_tidied]
    exact update_snd_eq_false_iff
  · rw [update_snd_eq_false_iff]
    cases mappingFile <;> cases showInstructions <;> exact ⟨rfl, rfl⟩
  · simp only [moves_iff, not_not]
    exact ⟨fun _ => rfl, Eq.symm, fun hfirst hsecond => hsecond.trans hfirst⟩
  · simp only [moves_iff, not_not]
    exact ⟨Path.components_of_tidies (.slashes front back),
      Path.components_of_tidies (.innerDot front back), Path.components_up_ne front back⟩
  · simp only [moves_iff, not_not]
    have hslash := Path.components_of_tidies (.lastSlash hpath)
    exact ⟨hslash, (Path.components_of_tidies (.lastDot path.bytes)).trans hslash⟩

/-- Of five spellings of one path none is a change, and the one that is given last is kept.  Without
its dot the path is another one, and so is a single dot in place of the empty path. -/
theorem update_tells_changes_respelled :
    let settings : Settings := ⟨.ofString "./a/b", false⟩
    (settings.update (some (.ofString "./a/.//b/./")) (some false)).2 = false
      ∧ (settings.update (some (.ofString "./a/.//b/./")) (some false)).1 =
        ⟨.ofString "./a/.//b/./", false⟩
      ∧ ¬ settings.Moves (.ofString "./a/b") (.ofString "./a//b")
      ∧ ¬ settings.Moves (.ofString "./a/b") (.ofString "./a/./b")
      ∧ ¬ settings.Moves (.ofString "./a/b") (.ofString "./a/b/.")
      ∧ settings.Moves (.ofString "./a/b") (.ofString "./a/../b")
      ∧ settings.Moves (.ofString "a/b") (.ofString "./a/b")
      ∧ settings.Moves (.ofString "a/b") (.ofString "/a/b")
      ∧ settings.Moves (.ofString "") (.ofString ".") := by
  intro settings
  have hlaws := settings.update_tells_changes (some (.ofString "./a/.//b/./")) (some false)
  obtain ⟨hnext, hsteps, _, _, _, hinner, hlast, hroot, hdot⟩ := hlaws
  obtain ⟨hslashes, hinnerDot, hup⟩ := hinner (Utf8.bytesOf "./a") (Utf8.bytesOf "b")
  refine ⟨hsteps.mpr (by decide), hnext, hslashes, hinnerDot, (hlast _ (by decide)).2, hup,
    hdot (.ofString "a/b") (by decide), hroot (.ofString "a/b") (by decide), ?_⟩
  rw [moves_iff]
  decide

end Settings
end PadBridge
