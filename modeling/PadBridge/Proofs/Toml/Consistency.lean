import PadBridge.Proofs.Toml.Placement

/-!
The tree that lines build has a place for everything that stands in the document, and a line finds
its place in the tree exactly if it goes with the lines before it.
-/

namespace PadBridge.Toml

namespace Places

variable {places before target : Places} {table path place : List String} {key : Key}

/-- A place behind the start of a way is that start with more parts. -/
theorem onWay_iff : OnWay table (table ++ path) place ↔
    ∃ rest, place = table ++ rest ∧ OnWay [] path rest := by
  constructor
  · rintro ⟨hfront, hlength⟩
    obtain ⟨rest, rfl⟩ := List.prefix_of_prefix_length_le (List.prefix_append table path) hfront
      (Nat.le_of_lt hlength)
    rw [List.length_append] at hlength
    exact ⟨rest, rfl, (List.prefix_append_right_inj table).mp hfront, by
      rw [List.length_nil]
      omega⟩
  · rintro ⟨rest, rfl, hfront, hlength⟩
    refine ⟨(List.prefix_append_right_inj table).mpr hfront, ?_⟩
    rw [List.length_append]
    exact Nat.lt_add_of_pos_right hlength

theorem onWay_append_iff {rest : List String} :
    OnWay table (table ++ path) (table ++ rest) ↔ OnWay [] path rest := by
  rw [onWay_iff]
  constructor
  · rintro ⟨other, hother, hway⟩
    rwa [List.append_cancel_left hother]
  · exact fun hway => ⟨rest, rfl, hway⟩

theorem parts_ne_nil (key : Key) : key.parts ≠ [] := by
  simp [Key.parts]

/-- An entry goes with a table exactly if it goes with what stands below the table. -/
theorem admits_below_iff (hbefore : ∀ rest ≠ [], before rest = places (table ++ rest)) :
    before.Admits [] key ↔ places.Admits table key := by
  constructor
  · intro hadmits
    constructor
    · intro place hplace
      obtain ⟨rest, rfl, hrest⟩ := onWay_iff.mp hplace
      rw [← hbefore rest (ne_nil_of_onWay hrest)]
      exact hadmits.way rest hrest
    · intro hpath
      rw [← hbefore _ hpath]
      exact hadmits.owner hpath
    · rw [← hbefore _ (parts_ne_nil key)]
      exact hadmits.fresh
  · intro hadmits
    constructor
    · intro rest hrest
      rw [hbefore rest (ne_nil_of_onWay hrest)]
      exact hadmits.way _ (onWay_append_iff.mpr hrest)
    · intro hpath
      rw [List.nil_append, hbefore _ hpath]
      exact hadmits.owner hpath
    · rw [List.nil_append, hbefore _ (parts_ne_nil key)]
      exact hadmits.fresh

theorem graft_eq (hbelow : ∀ rest ≠ [], before rest = target (path ++ rest))
    (hother : ∀ place, (∀ rest ≠ [], place ≠ path ++ rest) → places place = target place) :
    places.graft path before = target := by
  funext place
  rw [graft]
  split
  · rename_i h
    obtain ⟨⟨rest, rfl⟩, hne⟩ := h
    have hrest : rest ≠ [] := by
      rintro rfl
      exact hne (List.append_nil path)
    rw [List.drop_left, hbelow rest hrest]
  · rename_i h
    refine hother place fun rest hrest hplace => h ?_
    rw [hplace]
    exact ⟨List.prefix_append path rest, by simp [hrest]⟩

/-- The way to the table that entries go to is there and leads through tables. -/
def Opened (places : Places) (table : List String) : Prop :=
  ∀ place, OnWay [] table place → places place ≠ none ∧ places place ≠ some .value

theorem Opened.pass (hopened : places.Opened table) (role : Role) :
    places.pass [] table role = places := by
  funext place
  rw [Places.pass]
  split
  · rename_i hplace
    obtain ⟨found, hfound⟩ := Option.ne_none_iff_exists'.mp (hopened place hplace).1
    rw [hfound, Option.some_or]
  · rfl

theorem graft_withEntry (hbefore : ∀ rest ≠ [], before rest = places (table ++ rest)) :
    places.graft table (before.withEntry [] key) = places.withEntry table key := by
  refine graft_eq (fun rest hrest => ?_) fun place hplace => ?_
  · simp only [withEntry, set, pass, List.nil_append, List.append_cancel_left_eq, onWay_append_iff,
      hbefore rest hrest]
  · have hkey : place ≠ table ++ key.parts := hplace key.parts (parts_ne_nil key)
    have hway : ¬ OnWay table (table ++ key.path) place := by
      intro h
      obtain ⟨rest, heq, hrest⟩ := onWay_iff.mp h
      exact hplace rest (ne_nil_of_onWay hrest) heq
    rw [withEntry, set, if_neg hkey, pass, if_neg hway]

theorem Opened.withEntry (hopened : places.Opened table) :
    (places.withEntry table key).Opened table := by
  intro place hplace
  have hlength := hplace.1.length_le
  have hkey : place ≠ table ++ key.parts := by
    rintro rfl
    have := List.length_pos_iff.mpr (parts_ne_nil key)
    rw [List.length_append] at hlength
    omega
  have hway : ¬ OnWay table (table ++ key.path) place :=
    fun h => absurd h.2 (Nat.not_lt.mpr hlength)
  rw [Places.withEntry, set, if_neg hkey, Places.pass, if_neg hway]
  exact hopened place hplace

/-- What is passed on the way to a path does not lie behind it. -/
theorem pass_append {rest : List String} (hrest : rest ≠ []) (role : Role) :
    places.pass [] path role (path ++ rest) = places (path ++ rest) := by
  have hway : ¬ OnWay [] path (path ++ rest) := by
    intro h
    have hlength := h.1.length_le
    have := List.length_pos_iff.mpr hrest
    rw [List.length_append] at hlength
    omega
  rw [pass, if_neg hway]

theorem graft_withHeader {path : List String} {last : String}
    (hbefore : ∀ rest ≠ [], before rest = places (path ++ rest)) :
    (places.pass [] path .implied).graft path (before.set [last] .header) =
      places.withHeader ⟨path, last⟩ := by
  refine graft_eq (fun rest hrest => ?_) fun place hplace => ?_
  · simp only [withHeader, set, Key.parts, List.append_cancel_left_eq, pass_append hrest,
      hbefore rest hrest]
  · have hkey : place ≠ path ++ [last] := hplace [last] (List.cons_ne_nil _ _)
    rw [withHeader, set, Key.parts, if_neg hkey]

theorem graft_withNext {path : List String} {last : String}
    (hbefore : ∀ rest ≠ [], before rest = places (path ++ rest)) :
    (places.pass [] path .implied).graft path ((before.clear [last]).set [last] .tables) =
      places.withNext ⟨path, last⟩ := by
  refine graft_eq (fun rest hrest => ?_) fun place hplace => ?_
  · simp only [withNext, set, clear, Key.parts, List.append_cancel_left_eq,
      List.prefix_append_right_inj, pass_append hrest, hbefore rest hrest]
  · have hkey : place ≠ path ++ [last] := hplace [last] (List.cons_ne_nil _ _)
    have hbelow : ¬ path ++ [last] <+: place := by
      rintro ⟨rest, heq⟩
      exact hplace (last :: rest) (List.cons_ne_nil _ _) (by rw [← heq, List.append_assoc]; rfl)
    rw [withNext, set, clear, Key.parts, if_neg hkey, if_neg hbelow]

/-- A header opens the table that it names. -/
theorem Leads.opened (hleads : places.Leads key.path) (hpass : ∀ place, place ≠ key.parts →
    place <+: key.path → target place = places.pass [] key.path .implied place)
    (hown : target key.parts ≠ none ∧ target key.parts ≠ some .value) :
    target.Opened key.parts := by
  intro place hplace
  by_cases hkey : place = key.parts
  · rw [hkey]
    exact hown
  · have hfront : place <+: key.path :=
      (List.prefix_concat_iff.mp hplace.1).resolve_left hkey
    have hway : OnWay [] key.path place := ⟨hfront, hplace.2⟩
    rw [hpass place hkey hfront, pass, if_pos hway]
    refine ⟨fun hnone => ?_, fun hvalue => ?_⟩
    · exact absurd (Option.or_eq_none_iff.mp hnone).2 (Option.some_ne_none _)
    · rcases Option.or_eq_some_iff.mp hvalue with hfound | ⟨_, himplied⟩
      · exact hleads place hway hfound
      · cases himplied

end Places

namespace Entries

variable {entries next : Entries} {key : String}

theorem openTable_isSome_iff : (openTable key entries).isSome ↔
    entries.places [key] = none ∨ entries.places [key] = some .implied := by
  rw [openTable]
  cases hfind : entries.find? key with
  | none => simp [places_of_find?_none hfind]
  | some found =>
      rw [places_single hfind]
      cases found with
      | table origin inner => cases origin <;> simp [Value.role]
      | tables | text | integer | number | boolean | moment | array => simp [Value.role]

theorem openNext_isSome_iff : (openNext key entries).isSome ↔
    entries.places [key] = none ∨ entries.places [key] = some .tables := by
  rw [openNext]
  cases hfind : entries.find? key with
  | none => simp [places_of_find?_none hfind]
  | some found =>
      rw [places_single hfind]
      cases found with
      | table origin inner => cases origin <;> simp [Value.role]
      | tables | text | integer | number | boolean | moment | array => simp [Value.role]

theorem find?_cons (key : String) (found : Value) (rest : Entries) (other : String) :
    find? ((key, found) :: rest) other = if other = key then some found else rest.find? other := by
  rw [find?, List.lookup_cons]
  by_cases hother : other = key
  · rw [if_pos hother, hother, beq_self_eq_true]
  · rw [if_neg hother, beq_false_of_ne hother]
    rfl

theorem find?_erase (entries : Entries) (key other : String) :
    (entries.erase key).find? other = if other = key then none else entries.find? other := by
  induction entries with
  | nil => exact (ite_self none).symm
  | cons entry rest ih =>
      obtain ⟨first, found⟩ := entry
      by_cases hfirst : first = key
      · have herase : erase ((first, found) :: rest) key = erase rest key :=
          List.filter_cons_of_neg (by simpa using hfirst)
        rw [herase, ih, find?_cons, hfirst]
        split <;> rfl
      · have herase : erase ((first, found) :: rest) key = (first, found) :: erase rest key :=
          List.filter_cons_of_pos (by simpa using hfirst)
        rw [herase, find?_cons, ih, find?_cons]
        by_cases hother : other = first
        · have hkey : other ≠ key := hother ▸ hfirst
          rw [if_pos hother, if_neg hkey, if_pos hother]
        · rw [if_neg hother, if_neg hother]

theorem puts_openTable (hopen : openTable key entries = some next) :
    ∃ inner : Entries, Puts entries key (.table .header inner) next
      ∧ ∀ rest ≠ [], inner.places rest = entries.places (key :: rest) := by
  rw [openTable] at hopen
  split at hopen
  · rename_i hfind
    cases hopen
    refine ⟨[], puts_append hfind _, fun rest _ => ?_⟩
    rw [places_nil, places_of_find?_none hfind]
  · rename_i inner hfind
    cases hopen
    refine ⟨inner, fun other => ?_, fun rest hrest => (places_inside hfind rfl hrest).symm⟩
    rw [find?_append, find?_erase]
    split
    · rw [Option.none_or]
    · rw [Option.or_none]
  · cases hopen

theorem places_openTable (hopen : openTable key entries = some next) :
    next.places = Places.set entries.places [key] .header := by
  obtain ⟨inner, hputs, hinner⟩ := puts_openTable hopen
  funext place
  rw [Places.set]
  cases place with
  | nil => rfl
  | cons first rest =>
      by_cases hfirst : first = key
      · subst hfirst
        by_cases hrest : rest = []
        · rw [if_pos (by rw [hrest]), hrest, places_single hputs.find?]
          rfl
        · rw [if_neg (by simp [hrest]), places_inside hputs.find? rfl hrest, hinner rest hrest]
      · rw [if_neg (by simp [hfirst]), hputs.places_other hfirst]

theorem puts_openNext (hopen : openNext key entries = some next) :
    ∃ earlier, Puts entries key (.tables earlier []) next := by
  rw [openNext] at hopen
  split at hopen
  · rename_i hfind
    cases hopen
    exact ⟨[], puts_append hfind _⟩
  · rename_i earlier last hfind
    cases hopen
    exact ⟨earlier ++ [last], puts_replace hfind _⟩
  · cases hopen

theorem places_openNext (hopen : openNext key entries = some next) :
    next.places = (Places.clear entries.places [key]).set [key] .tables := by
  obtain ⟨earlier, hputs⟩ := puts_openNext hopen
  funext place
  rw [Places.set, Places.clear]
  cases place with
  | nil => rfl
  | cons first rest =>
      by_cases hfirst : first = key
      · subst hfirst
        by_cases hrest : rest = []
        · rw [if_pos (by rw [hrest]), hrest, places_single hputs.find?]
          rfl
        · rw [if_neg (by simp [hrest]), if_pos (by simp), places_inside hputs.find? rfl hrest,
            places_nil]
      · rw [if_neg (by simp [hfirst]), if_neg (by simp [Ne.symm hfirst]), hputs.places_other hfirst]

end Entries

/-- Whether a statement is one that a line can make: its value is written out. -/
def Statement.IsWritten : Statement → Prop
  | .entry _ value => value.role = .value
  | .header _ | .nextHeader _ => True

namespace Outline

open Places (Opened)

variable {outline next : Outline} {key : Key} {value : Value}

def places (outline : Outline) : Places :=
  outline.entries.places

theorem places_below (outline : Outline) (path : List String) :
    ∀ rest ≠ [], (outline.entries.below path).places rest = outline.places (path ++ rest) :=
  fun _ hrest => Entries.places_below path hrest

/-- A statement is admitted, with these places and this table after it, or the tree refuses it. -/
def Takes (outline : Outline) (statement : Statement) (admits : Prop) (after : Places)
    (table : List String) : Prop :=
  (admits ∧ ∃ next, outline.extend statement = some next ∧ next.places = after
      ∧ next.current = table)
    ∨ (¬ admits ∧ outline.extend statement = none)

/-- What a statement changes in one table is all that it changes, but for the way there. -/
theorem takes_of_changeAt {statement : Statement} {change : Entries → Option Entries}
    {path table : List String} {admits : Prop} {after : Places}
    (hextend : outline.extend statement =
      (outline.entries.changeAt change path).map fun entries => ⟨entries, table⟩)
    (hadmits : Places.Leads outline.places path ∧ (change (outline.entries.below path)).isSome ↔
      admits)
    (hafter : ∀ changed, change (outline.entries.below path) = some changed →
      (outline.places.pass [] path .implied).graft path changed.places = after) :
    outline.Takes statement admits after table := by
  have hiff : (outline.entries.changeAt change path).isSome ↔ admits :=
    Entries.changeAt_isSome_iff.trans hadmits
  rw [Takes, ← hiff, hextend]
  cases hchange : outline.entries.changeAt change path with
  | none => exact Or.inr ⟨Bool.false_ne_true, rfl⟩
  | some entries =>
      obtain ⟨changed, hinner, hplaces⟩ := Entries.places_changeAt hchange
      exact Or.inl ⟨rfl, ⟨entries, table⟩, rfl, hplaces.trans (hafter changed hinner), rfl⟩

/-- An entry goes to the table of the last header. -/
theorem takes_entry (key : Key) (hopened : Opened outline.places outline.current)
    (hvalue : value.role = .value) :
    outline.Takes (.entry key value) (outline.places.Admits outline.current key)
      (outline.places.withEntry outline.current key) outline.current := by
  have hbelow := outline.places_below outline.current
  have hleads : Places.Leads outline.places outline.current := fun place hplace =>
    (hopened place hplace).2
  refine takes_of_changeAt (Option.map_eq_bind).symm ?_ fun changed hinsert => ?_
  · rw [Entries.insertDotted_isSome_iff, ← Places.admits_below_iff hbelow]
    exact and_iff_right hleads
  · rw [hopened.pass .implied, Entries.places_insertDotted hvalue hinsert]
    exact Places.graft_withEntry hbelow

theorem takes_header (outline : Outline) (key : Key) :
    outline.Takes (.header key) (outline.places.AdmitsHeader key) (outline.places.withHeader key)
      key.parts := by
  have hbelow := outline.places_below key.path
  refine takes_of_changeAt (Option.map_eq_bind).symm ?_ fun changed hopen => ?_
  · rw [Entries.openTable_isSome_iff, hbelow _ (List.cons_ne_nil _ _)]
    exact ⟨fun h => ⟨h.1, h.2⟩, fun h => ⟨h.way, h.own⟩⟩
  · rw [Entries.places_openTable hopen]
    exact Places.graft_withHeader hbelow

theorem takes_nextHeader (outline : Outline) (key : Key) :
    outline.Takes (.nextHeader key) (outline.places.AdmitsNext key) (outline.places.withNext key)
      key.parts := by
  have hbelow := outline.places_below key.path
  refine takes_of_changeAt (Option.map_eq_bind).symm ?_ fun changed hopen => ?_
  · rw [Entries.openNext_isSome_iff, hbelow _ (List.cons_ne_nil _ _)]
    exact ⟨fun h => ⟨h.1, h.2⟩, fun h => ⟨h.way, h.own⟩⟩
  · rw [Entries.places_openNext hopen]
    exact Places.graft_withNext hbelow

theorem opened_withHeader {places : Places} (hadmits : places.AdmitsHeader key) :
    Opened (places.withHeader key) key.parts := by
  refine hadmits.way.opened (fun place hkey _ => ?_) ?_
  · rw [Places.withHeader, Places.set, if_neg hkey]
  · rw [Places.withHeader, Places.set, if_pos rfl]
    simp

theorem opened_withNext {places : Places} (hadmits : places.AdmitsNext key) :
    Opened (places.withNext key) key.parts := by
  refine hadmits.way.opened (fun place hkey hfront => ?_) ?_
  · have hbelow : ¬ key.parts <+: place := by
      intro h
      have hlength := (h.trans hfront).length_le
      rw [Key.parts, List.length_append, List.length_singleton] at hlength
      exact absurd hlength (Nat.not_succ_le_self _)
    rw [Places.withNext, Places.set, if_neg hkey, Places.clear, if_neg hbelow]
  · rw [Places.withNext, Places.set, if_pos rfl]
    simp

/-- A document goes on behind a statement that the tree takes, and ends at one that it refuses. -/
theorem Takes.foldlM_isSome_iff {statement : Statement} {rest : List Statement} {admits : Prop}
    {after : Places} {table : List String} (htakes : outline.Takes statement admits after table)
    (hrest : admits → ∀ next : Outline, next.places = after → next.current = table →
      ((rest.foldlM extend next).isSome ↔
        next.places.Consistent next.current (rest.map Statement.line))) :
    ((statement :: rest).foldlM extend outline).isSome ↔
      admits ∧ after.Consistent table (rest.map Statement.line) := by
  rw [List.foldlM_cons]
  rcases htakes with ⟨hadmits, next, hextend, hplaces, hcurrent⟩ | ⟨hnot, hextend⟩
  · rw [hextend, and_iff_right hadmits, ← hplaces, ← hcurrent]
    exact hrest hadmits next hplaces hcurrent
  · rw [hextend]
    exact iff_of_false Bool.false_ne_true fun h => hnot h.1

/-- Statements build a tree exactly if they go together as lines. -/
theorem foldlM_isSome_iff {statements : List Statement}
    (hwritten : ∀ statement ∈ statements, statement.IsWritten)
    (hopened : Opened outline.places outline.current) :
    (statements.foldlM extend outline).isSome ↔
      outline.places.Consistent outline.current (statements.map Statement.line) := by
  induction statements generalizing outline with
  | nil => exact iff_of_true rfl trivial
  | cons statement rest ih =>
      have hrest := fun other hother => hwritten other (List.mem_cons_of_mem statement hother)
      cases statement with
      | entry key value =>
          have hvalue : value.role = .value := hwritten _ List.mem_cons_self
          refine (takes_entry key hopened hvalue).foldlM_isSome_iff fun _ next hplaces hcurrent =>
            ih hrest ?_
          rw [hplaces, hcurrent]
          exact hopened.withEntry
      | header key =>
          refine (takes_header outline key).foldlM_isSome_iff fun hadmits next hplaces hcurrent =>
            ih hrest ?_
          rw [hplaces, hcurrent]
          exact opened_withHeader hadmits
      | nextHeader key =>
          refine (takes_nextHeader outline key).foldlM_isSome_iff
            fun hadmits next hplaces hcurrent => ih hrest ?_
          rw [hplaces, hcurrent]
          exact opened_withNext hadmits

end Outline

/-- The lines of a document build a tree exactly if they go together. -/
theorem ofStatements?_isSome_iff {statements : List Statement}
    (hwritten : ∀ statement ∈ statements, statement.IsWritten) :
    (Entries.ofStatements? statements).isSome ↔ Consistent (statements.map Statement.line) := by
  have hplaces : Outline.empty.places = Places.empty := funext Entries.places_nil
  have hopened : Places.Opened Outline.empty.places Outline.empty.current := fun place hplace =>
    absurd (List.prefix_nil.mp hplace.1) (Places.ne_nil_of_onWay hplace)
  rw [Entries.ofStatements?, Option.isSome_map, Outline.foldlM_isSome_iff hwritten hopened, hplaces]
  rfl

theorem foldlM_entry (pairs : List (Key × Value)) (entries : Entries) :
    (pairs.map fun pair => Statement.entry pair.1 pair.2).foldlM Outline.extend ⟨entries, []⟩ =
      (pairs.foldlM (fun (entries : Entries) pair =>
        entries.insertDotted pair.1.path pair.1.last pair.2) entries).map fun all => ⟨all, []⟩ := by
  induction pairs generalizing entries with
  | nil => rfl
  | cons pair rest ih =>
      rw [List.map_cons, List.foldlM_cons, List.foldlM_cons, Outline.extend, Entries.changeAt]
      cases entries.insertDotted pair.1.path pair.1.last pair.2 with
      | none => rfl
      | some next => exact ih next

/-- The pairs between braces make a table exactly if they could be the lines of a document. -/
theorem inlineTable?_isSome_iff {pairs : List (Key × Value)}
    (hwritten : ∀ pair ∈ pairs, pair.2.role = .value) :
    (inlineTable? pairs).isSome ↔
      Consistent (pairs.map fun pair => .entry pair.1 pair.2.shown) := by
  have hstatements : ∀ statement ∈ pairs.map fun pair => Statement.entry pair.1 pair.2,
      statement.IsWritten := by
    intro statement hstatement
    obtain ⟨pair, hpair, rfl⟩ := List.mem_map.mp hstatement
    exact hwritten pair hpair
  have hlines := ofStatements?_isSome_iff hstatements
  have hline : (Statement.line ∘ fun pair : Key × Value => Statement.entry pair.1 pair.2) =
      fun pair => .entry pair.1 pair.2.shown := rfl
  rw [Entries.ofStatements?, Outline.empty, foldlM_entry, Option.isSome_map, Option.isSome_map,
    List.map_map, hline] at hlines
  rw [← hlines, inlineTable?]
  cases pairs.foldlM (fun (entries : Entries) pair =>
    entries.insertDotted pair.1.path pair.1.last pair.2) [] <;> rfl

end PadBridge.Toml
