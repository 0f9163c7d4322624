import PadBridge.Proofs.Toml.Tables

/-!
What stands at the paths of a tree, and how that changes when something is put into the tree.
-/

namespace PadBridge.Toml

namespace Entries

/-- What stands at the paths of a tree. -/
def places (entries : Entries) : List String → Option Role
  | [] => none
  | part :: path =>
      (entries.find? part).bind fun found =>
        if path = [] then some found.role
        else found.entered?.bind fun inside => inside.table.places path

variable {entries next inner : Entries} {part key : String} {path place : List String}
  {found value : Value} {inside : Inside}

@[simp] theorem places_nil_path (entries : Entries) : entries.places [] = none :=
  rfl

@[simp] theorem places_nil (path : List String) : places [] path = none := by
  cases path <;> rfl

theorem places_of_find?_none (hfind : entries.find? part = none) (path : List String) :
    entries.places (part :: path) = none := by
  rw [places, hfind]
  rfl

theorem places_single (hfind : entries.find? part = some found) :
    entries.places [part] = some found.role := by
  rw [places, hfind]
  rfl

theorem places_inside (hfind : entries.find? part = some found)
    (hentered : found.entered? = some inside) (hpath : path ≠ []) :
    entries.places (part :: path) = inside.table.places path := by
  rw [places, hfind, Option.bind_some, if_neg hpath, hentered, Option.bind_some]

theorem places_congr (hfind : next.find? part = entries.find? part) (path : List String) :
    next.places (part :: path) = entries.places (part :: path) := by
  rw [places, places, hfind]

end Entries

namespace Places

variable {start path place : List String} {part : String}

theorem onWay_cons_iff (hplace : place ≠ []) :
    OnWay [] (part :: path) (part :: place) ↔ OnWay [] path place := by
  have hlength : 0 < place.length := List.length_pos_iff.mpr hplace
  simp [OnWay, List.cons_prefix_cons, hlength]

/-- A place on the way from the top is its first part or lies behind it. -/
theorem eq_cons_of_onWay (hplace : OnWay [] (part :: path) place) :
    ∃ rest, place = part :: rest ∧ (rest = [] ∨ OnWay [] path rest) := by
  obtain ⟨hfront, hlength⟩ := hplace
  cases place with
  | nil => exact absurd hlength (Nat.lt_irrefl 0)
  | cons first rest =>
      obtain ⟨rfl, hrest⟩ := List.cons_prefix_cons.mp hfront
      refine ⟨rest, rfl, ?_⟩
      rcases rest.eq_nil_or_concat with hnil | ⟨_, _, hconcat⟩
      · exact Or.inl hnil
      · exact Or.inr ⟨hrest, by simp [hconcat]⟩

theorem onWay_single (part : String) (path : List String) : OnWay [] (part :: path) [part] :=
  ⟨List.cons_prefix_cons.mpr ⟨rfl, List.nil_prefix⟩, Nat.one_pos⟩

theorem ne_nil_of_onWay (hplace : OnWay [] path place) : place ≠ [] :=
  List.ne_nil_of_length_pos hplace.2

/-- Where nothing stands everything can be added. -/
theorem admits_of_none {places : Places} {table : List String} {key : Key}
    (hnone : ∀ place, OnWay table (table ++ key.parts) place → places place = none) :
    places.Admits table key where
  way place hplace := by
    have hkey : OnWay table (table ++ key.parts) place := by
      refine ⟨hplace.1.trans ?_, hplace.2⟩
      rw [Key.parts, ← List.append_assoc]
      exact List.prefix_append _ _
    rw [hnone place hkey]
    simp
  owner hpath := by
    refine Or.inl (hnone _ ⟨?_, ?_⟩)
    · rw [Key.parts, ← List.append_assoc]
      exact List.prefix_append _ _
    · rw [List.length_append]
      have := List.length_pos_iff.mpr hpath
      omega
  fresh := hnone _ ⟨List.prefix_refl _, by simp [Key.parts]⟩

end Places

namespace Entries

open Places (OnWay)

variable {entries next inner : Entries} {part key : String} {path place : List String}
  {found value : Value} {inside : Inside}

/-- Through a table that may be passed, an entry goes with the tree exactly if it goes with the
table. -/
theorem admits_inside_iff (hfind : entries.find? part = some found)
    (hentered : found.entered? = some inside) (hheader : found.role ≠ .header)
    (hdotted : path = [] → found.role = .dotted) :
    Places.Admits entries.places [] ⟨part :: path, key⟩ ↔
      Places.Admits inside.table.places [] ⟨path, key⟩ := by
  have hpart := places_single hfind
  have hinside := fun {path : List String} => @places_inside entries part path found inside hfind
    hentered
  have hne : path ++ [key] ≠ [] := by simp
  constructor
  · intro hadmits
    constructor
    · intro place hplace
      have hway := Places.ne_nil_of_onWay hplace
      rw [← hinside hway]
      exact hadmits.way (part :: place) ((Places.onWay_cons_iff hway).mpr hplace)
    · intro hpath
      rw [List.nil_append, ← hinside hpath]
      exact hadmits.owner (List.cons_ne_nil _ _)
    · exact (hinside hne).symm.trans hadmits.fresh
  · intro hadmits
    constructor
    · intro place hplace
      obtain ⟨rest, rfl, hrest | hrest⟩ := Places.eq_cons_of_onWay hplace
      · rw [hrest, hpart, ne_eq, ne_eq, Option.some.injEq, Option.some.injEq]
        refine ⟨fun hvalue => ?_, hheader⟩
        rw [Value.entered?_eq_none_iff.mpr hvalue] at hentered
        cases hentered
      · rw [hinside (Places.ne_nil_of_onWay hrest)]
        exact hadmits.way rest hrest
    · intro _
      by_cases hpath : path = []
      · subst hpath
        exact Or.inr (hpart.trans (congrArg some (hdotted rfl)))
      · rw [List.nil_append, hinside hpath]
        exact hadmits.owner hpath
    · exact (hinside hne).trans hadmits.fresh

/-- An entry under a dotted key goes through the table at the first part of the key. -/
theorem admits_cons_iff (hfind : entries.find? part = some found) :
    Places.Admits entries.places [] ⟨part :: path, key⟩ ↔
      ∃ inside, found.passed? path = some inside
        ∧ Places.Admits inside.table.places [] ⟨path, key⟩ := by
  have hpart := places_single hfind
  constructor
  · intro hadmits
    have hrole := hadmits.way [part] (Places.onWay_single part path)
    rw [hpart] at hrole
    obtain ⟨inside, hentered⟩ := Option.ne_none_iff_exists'.mp
      fun hnone => hrole.1 (congrArg some (Value.entered?_eq_none_iff.mp hnone))
    have hheader : found.role ≠ .header := fun h => hrole.2 (congrArg some h)
    have hdotted : path = [] → found.role = .dotted := by
      rintro rfl
      rcases hadmits.owner (List.cons_ne_nil _ _) with hnone | hdotted
      · cases hpart.symm.trans hnone
      · exact Option.some.inj (hpart.symm.trans hdotted)
    refine ⟨inside, by rw [Value.passed?, if_pos ⟨hheader, hdotted⟩, hentered], ?_⟩
    exact (admits_inside_iff hfind hentered hheader hdotted).mp hadmits
  · rintro ⟨inside, hpassed, hadmits⟩
    have hentered := Value.entered?_of_passed? hpassed
    have hguard : found.role ≠ .header ∧ (path = [] → found.role = .dotted) := by
      rw [Value.passed?] at hpassed
      split at hpassed
      · assumption
      · cases hpassed
    exact (admits_inside_iff hfind hentered hguard.1 hguard.2).mpr hadmits

/-- An entry can be added to a tree exactly if it goes with what stands there. -/
theorem insertDotted_isSome_iff :
    (entries.insertDotted path key value).isSome ↔
      Places.Admits entries.places [] ⟨path, key⟩ := by
  induction path generalizing entries with
  | nil =>
      rw [insertDotted, add?]
      cases hfind : entries.find? key with
      | none =>
          refine iff_of_true rfl (Places.admits_of_none fun place hplace => ?_)
          obtain ⟨rest, rfl, -⟩ := Places.eq_cons_of_onWay hplace
          exact places_of_find?_none hfind rest
      | some found =>
          refine iff_of_false Bool.false_ne_true fun hadmits => ?_
          cases (places_single hfind).symm.trans hadmits.fresh
  | cons part path ih =>
      rw [insertDotted_cons]
      cases hfind : entries.find? part with
      | none =>
          have hnew : (insertDotted [] path key value).isSome :=
            ih.mpr (Places.admits_of_none fun place _ => places_nil place)
          refine iff_of_true (by rwa [Option.isSome_map])
            (Places.admits_of_none fun place hplace => ?_)
          obtain ⟨rest, rfl, -⟩ := Places.eq_cons_of_onWay hplace
          exact places_of_find?_none hfind rest
      | some found =>
          rw [admits_cons_iff hfind, Option.isSome_bind]
          cases found.passed? path with
          | none => simp
          | some inside => simp [ih]

/-- A value comes to stand under a key, and every other key keeps its own. -/
def Puts (entries : Entries) (part : String) (value : Value) (next : Entries) : Prop :=
  ∀ other, next.find? other = if other = part then some value else entries.find? other

theorem puts_append (hfind : entries.find? part = none) (value : Value) :
    Puts entries part value (entries ++ [(part, value)]) := by
  intro other
  rw [find?_append]
  split
  · rename_i h
    rw [h, hfind, Option.none_or]
  · rw [Option.or_none]

theorem puts_replace (hfind : entries.find? part = some found) (value : Value) :
    Puts entries part value (entries.replace part value) := by
  intro other
  rw [find?_replace]
  split
  · rename_i h
    rw [h, hfind, Option.map_some]
  · exact Option.map_id'

theorem Puts.find? (hputs : Puts entries part value next) : next.find? part = some value :=
  (hputs part).trans (if_pos rfl)

theorem Puts.places_other (hputs : Puts entries part value next) {other : String}
    (hother : other ≠ part) (path : List String) :
    next.places (other :: path) = entries.places (other :: path) :=
  places_congr ((hputs other).trans (if_neg hother)) path

/-- The entries of the table at a path; none if there is no such table. -/
def below (entries : Entries) : List String → Entries
  | [] => entries
  | part :: path =>
      match (entries.find? part).bind Value.entered? with
      | none => []
      | some inside => inside.table.below path

theorem below_nil (path : List String) : below [] path = [] := by
  cases path <;> rfl

theorem below_cons (entries : Entries) (part : String) (path : List String) :
    entries.below (part :: path) = (entries.below [part]).below path := by
  rw [below, below]
  cases (entries.find? part).bind Value.entered? with
  | none => exact (below_nil path).symm
  | some inside => rfl

theorem places_below (path : List String) {place : List String} (hplace : place ≠ []) :
    (entries.below path).places place = entries.places (path ++ place) := by
  induction path generalizing entries with
  | nil => rfl
  | cons part path ih =>
      have hne : path ++ place ≠ [] := List.append_ne_nil_of_right_ne_nil path hplace
      rw [List.cons_append, places, below]
      cases hfind : entries.find? part with
      | none => exact places_nil place
      | some found =>
          simp only [Option.bind_some, if_neg hne]
          cases hentered : found.entered? with
          | none => exact places_nil place
          | some inside => exact ih

end Entries

namespace Places

def under (places : Places) (part : String) (own : Option Role) (below : Places) : Places
  | [] => none
  | first :: rest =>
      if first = part then if rest = [] then own else below rest else places (first :: rest)

variable {places before : Places} {part key : String} {path : List String}

theorem pass_cons (hnil : places [] = none)
    (hbefore : ∀ rest ≠ [], places (part :: rest) = before rest) (role : Role) :
    places.pass [] (part :: path) role =
      places.under part ((places [part]).or (some role)) (before.pass [] path role) := by
  funext place
  cases place with
  | nil => simp [pass, under, OnWay, hnil]
  | cons first rest =>
      rw [under]
      by_cases hfirst : first = part
      · subst hfirst
        by_cases hrest : rest = []
        · subst hrest
          simp [pass, onWay_single]
        · simp [pass, hrest, onWay_cons_iff hrest, hbefore rest hrest]
      · have hway : ¬ OnWay [] (part :: path) (first :: rest) :=
          fun h => hfirst (List.cons_prefix_cons.mp h.1).1
        simp [pass, hfirst, hway]

theorem withEntry_cons (hnil : places [] = none)
    (hbefore : ∀ rest ≠ [], places (part :: rest) = before rest) :
    places.withEntry [] ⟨part :: path, key⟩ =
      places.under part ((places [part]).or (some .dotted)) (before.withEntry [] ⟨path, key⟩) := by
  funext place
  rw [withEntry, set]
  simp only [Key.parts, List.nil_append, List.cons_append]
  rw [pass_cons hnil hbefore]
  cases place with
  | nil => simp [under]
  | cons first rest =>
      by_cases hfirst : first = part
      · subst hfirst
        by_cases hrest : rest = []
        · subst hrest
          simp [under]
        · by_cases hend : rest = path ++ [key] <;>
            simp [under, hrest, withEntry, set, Key.parts, hend]
      · simp [under, hfirst]

end Places

namespace Entries

variable {entries next : Entries} {part key : String} {path : List String} {value : Value}
  {origin : Origin} {change : Entries → Option Entries}

/-- What is passed makes place for a change below it. -/
theorem Passed.places (hpassed : Passed origin change entries part next)
    (horigin : origin ≠ .inline) :
    ∃ changed, change (entries.below [part]) = some changed
      ∧ next.places = Places.under entries.places part
        ((entries.places [part]).or (some (Value.table origin []).role)) changed.places := by
  have hunder : ∀ {value inside}, Puts entries part value next → value.entered? = some inside →
      next.places = Places.under entries.places part (some value.role) inside.table.places := by
    intro value inside hputs hentered
    funext place
    cases place with
    | nil => rfl
    | cons first rest =>
        rw [Places.under]
        by_cases hfirst : first = part
        · subst hfirst
          by_cases hrest : rest = []
          · rw [if_pos rfl, if_pos hrest, hrest, places_single hputs.find?]
          · rw [if_pos rfl, if_neg hrest, places_inside hputs.find? hentered hrest]
        · rw [if_neg hfirst, hputs.places_other hfirst]
  cases hpassed with
  | @added inner hfind hchange =>
      have hentered : (Value.table origin inner).entered? = some ⟨inner, .table origin⟩ := by
        cases origin with
        | inline => exact absurd rfl horigin
        | header | implied | dotted => rfl
      have hrole : (Value.table origin inner).role = (Value.table origin []).role := by
        cases origin <;> rfl
      have hbelow : entries.below [part] = [] := by
        rw [below, hfind]
        rfl
      refine ⟨inner, by rw [hbelow, hchange], ?_⟩
      rw [hunder (puts_append hfind _) hentered, places_of_find?_none hfind, Option.none_or, hrole]
  | @replaced found inside changed hfind hentered hchange =>
      have hbelow : entries.below [part] = inside.table := by
        rw [below, hfind, Option.bind_some, hentered]
        rfl
      refine ⟨changed, by rw [hbelow, hchange], ?_⟩
      rw [hunder (puts_replace hfind _) (Value.entered?_put hentered changed),
        Value.role_put hentered, places_single hfind, Option.some_or]

/-- The places of a tree follow from what is added to it. -/
theorem places_insertDotted (hvalue : value.role = .value)
    (hinsert : entries.insertDotted path key value = some next) :
    next.places = Places.withEntry entries.places [] ⟨path, key⟩ := by
  induction path generalizing entries next with
  | nil =>
      rw [insertDotted, add?] at hinsert
      split at hinsert
      · cases hinsert
      · rename_i hfind
        cases hinsert
        have hputs := puts_append hfind value
        funext place
        cases place with
        | nil => rfl
        | cons first rest =>
            have hentry : Places.withEntry entries.places [] ⟨[], key⟩ (first :: rest) =
                if first :: rest = [key] then some .value else entries.places (first :: rest) := by
              simp [Places.withEntry, Places.set, Places.pass, Places.OnWay, Key.parts]
            rw [hentry]
            by_cases hfirst : first = key
            · subst hfirst
              by_cases hrest : rest = []
              · rw [if_pos (by rw [hrest]), hrest, places_single hputs.find?, hvalue]
              · rw [if_neg (by simp [hrest]), places_of_find?_none hfind, places, hputs.find?,
                  Option.bind_some, if_neg hrest, Value.entered?_eq_none_iff.mpr hvalue]
                rfl
            · rw [if_neg (by simp [hfirst]), hputs.places_other hfirst]
  | cons part path ih =>
      obtain ⟨changed, hchange, hplaces⟩ := (passed_insertDotted hinsert).places (by simp)
      rw [hplaces, ih hchange, Places.withEntry_cons (places_nil_path entries) fun _ hrest =>
        (places_below [part] hrest).symm]
      rfl

/-- The way to a table leads through the table at the first part of its path. -/
theorem leads_cons_iff {found : Value} (hfind : entries.find? part = some found) :
    Places.Leads entries.places (part :: path) ↔
      ∃ inside, found.entered? = some inside ∧ Places.Leads inside.table.places path := by
  have hpart := places_single hfind
  constructor
  · intro hleads
    have hrole := hleads [part] (Places.onWay_single part path)
    rw [hpart] at hrole
    obtain ⟨inside, hentered⟩ := Option.ne_none_iff_exists'.mp
      fun hnone => hrole (congrArg some (Value.entered?_eq_none_iff.mp hnone))
    refine ⟨inside, hentered, fun place hplace => ?_⟩
    have hne := Places.ne_nil_of_onWay hplace
    rw [← places_inside hfind hentered hne]
    exact hleads (part :: place) ((Places.onWay_cons_iff hne).mpr hplace)
  · rintro ⟨inside, hentered, hleads⟩ place hplace
    obtain ⟨rest, rfl, rfl | hrest⟩ := Places.eq_cons_of_onWay hplace
    · rw [hpart, ne_eq, Option.some.injEq]
      intro hvalue
      rw [Value.entered?_eq_none_iff.mpr hvalue] at hentered
      cases hentered
    · rw [places_inside hfind hentered (Places.ne_nil_of_onWay hrest)]
      exact hleads rest hrest

/-- A table can be changed exactly if the way to it leads through tables. -/
theorem changeAt_isSome_iff :
    (entries.changeAt change path).isSome ↔
      Places.Leads entries.places path ∧ (change (entries.below path)).isSome := by
  induction path generalizing entries with
  | nil =>
      have hleads : Places.Leads entries.places [] := fun place hplace =>
        absurd (List.prefix_nil.mp hplace.1) (Places.ne_nil_of_onWay hplace)
      rw [changeAt, below, iff_and_self]
      exact fun _ => hleads
  | cons part path ih =>
      rw [changeAt_cons, below]
      cases hfind : entries.find? part with
      | none =>
          have hleads : Places.Leads entries.places (part :: path) := by
            intro place hplace
            obtain ⟨rest, rfl, _⟩ := Places.eq_cons_of_onWay hplace
            rw [places_of_find?_none hfind]
            exact (Option.some_ne_none _).symm
          have hnew : Places.Leads (places []) path := by
            intro place _
            rw [places_nil]
            exact (Option.some_ne_none _).symm
          simp only [Option.isSome_map, ih, below_nil, Option.bind_none, hleads, hnew]
      | some found =>
          rw [leads_cons_iff hfind]
          simp only [Option.bind_some]
          cases found.entered? with
          | none => simp
          | some inside => simp [ih]

end Entries

namespace Places

def graft (places : Places) (path : List String) (below : Places) : Places :=
  fun place =>
    if path <+: place ∧ place ≠ path then below (place.drop path.length) else places place

variable {places before : Places} {part : String} {path : List String}

theorem graft_append (places : Places) (path : List String) (below : Places) {rest : List String}
    (hrest : rest ≠ []) : places.graft path below (path ++ rest) = below rest := by
  have hbelow : path <+: path ++ rest ∧ path ++ rest ≠ path :=
    ⟨List.prefix_append path rest, by simp [hrest]⟩
  rw [graft, if_pos hbelow, List.drop_left]

theorem graft_cons (hnil : places [] = none)
    (hbefore : ∀ rest ≠ [], places (part :: rest) = before rest) (role : Role) (below : Places) :
    (places.pass [] (part :: path) role).graft (part :: path) below =
      places.under part ((places [part]).or (some role))
        ((before.pass [] path role).graft path below) := by
  funext place
  rw [graft, pass_cons hnil hbefore]
  cases place with
  | nil => simp [under]
  | cons first rest =>
      rw [under, under]
      by_cases hfirst : first = part
      · subst hfirst
        by_cases hrest : rest = []
        · subst hrest
          have hend : ¬ (first :: path <+: [first] ∧ [first] ≠ first :: path) := by
            rintro ⟨hfront, hne⟩
            have hpath : path = [] := List.prefix_nil.mp (List.cons_prefix_cons.mp hfront).2
            exact hne (by rw [hpath])
          rw [if_neg hend]
          simp
        · simp only [if_true, if_neg hrest, graft, List.cons_prefix_cons, true_and, ne_eq,
            List.cons.injEq, List.length_cons, List.drop_succ_cons]
      · have hend : ¬ (part :: path <+: first :: rest ∧ first :: rest ≠ part :: path) :=
          fun h => hfirst (List.cons_prefix_cons.mp h.1).1.symm
        rw [if_neg hend, if_neg hfirst, if_neg hfirst]

end Places

namespace Entries

variable {entries next : Entries} {path : List String} {change : Entries → Option Entries}

/-- A change of a table shows below its path, and tables are implied on the way there. -/
theorem places_changeAt (hchange : entries.changeAt change path = some next) :
    ∃ changed, change (entries.below path) = some changed
      ∧ next.places = (Places.pass entries.places [] path .implied).graft path changed.places := by
  induction path generalizing entries next with
  | nil =>
      refine ⟨next, hchange, ?_⟩
      funext place
      cases place with
      | nil => rfl
      | cons first rest => exact (Places.graft_append _ [] _ (List.cons_ne_nil first rest)).symm
  | cons part path ih =>
      obtain ⟨changed, hinner, hplaces⟩ := (passed_changeAt hchange).places nofun
      obtain ⟨last, hlast, hbelow⟩ := ih hinner
      refine ⟨last, by rw [below_cons, hlast], ?_⟩
      rw [hplaces, hbelow, Places.graft_cons (places_nil_path entries) fun _ hrest =>
        (places_below [part] hrest).symm]
      rfl

end Entries

end PadBridge.Toml
