import PadBridge.Toml.Value

/-!
When the lines of a document go together.  A document is looked at as a map from paths to what
stands there, without any tree: every line says which paths it needs to be free or passable, and
what stands at them from then on.
-/

namespace PadBridge.Toml

/-- What stands behind a key or under it. -/
inductive Item where
  | text (value : String)
  | integer (value : Int)
  | number
  | boolean (value : Bool)
  | moment
  | array
  /-- A table between braces. -/
  | inline
  /-- A table with a header, or one that is passed on the way to another. -/
  | table
  /-- The tables of equal headers in double brackets. -/
  | tables
deriving Repr, DecidableEq

inductive Line where
  | entry (key : Key) (item : Item)
  | header (key : Key)
  | nextHeader (key : Key)
deriving Repr, DecidableEq

inductive Role where
  | value
  /-- A table with a header of its own. -/
  | header
  /-- A table that headers of others pass. -/
  | implied
  /-- A table that dotted keys pass. -/
  | dotted
  /-- Tables with equal headers.  What stands below them stands in the last one. -/
  | tables
deriving Repr, DecidableEq

abbrev Places := List String → Option Role

namespace Places

def empty : Places :=
  fun _ => none

/-- The places behind `start` on the way to `path`, with its end. -/
def OnWay (start path place : List String) : Prop :=
  place <+: path ∧ start.length < place.length

instance (start path place : List String) : Decidable (OnWay start path place) :=
  inferInstanceAs (Decidable (_ ∧ _))

def set (places : Places) (path : List String) (role : Role) : Places :=
  fun place => if place = path then some role else places place

/-- Something comes to stand wherever nothing stands on a way. -/
def pass (places : Places) (start path : List String) (role : Role) : Places :=
  fun place => if OnWay start path place then (places place).or (some role) else places place

/-- What stands at a path and below it is forgotten. -/
def clear (places : Places) (path : List String) : Places :=
  fun place => if path <+: place then none else places place

/-- A table can take an entry: nothing stands under its key yet, and the way there leads through
tables that no header opened.  The last of them is made by dotted keys. -/
structure Admits (places : Places) (table : List String) (key : Key) : Prop where
  way : ∀ place, OnWay table (table ++ key.path) place →
    places place ≠ some .value ∧ places place ≠ some .header
  owner : key.path ≠ [] →
    places (table ++ key.path) = none ∨ places (table ++ key.path) = some .dotted
  fresh : places (table ++ key.parts) = none

def withEntry (places : Places) (table : List String) (key : Key) : Places :=
  (places.pass table (table ++ key.path) .dotted).set (table ++ key.parts) .value

/-- The way to a table leads through tables. -/
def Leads (places : Places) (path : List String) : Prop :=
  ∀ place, OnWay [] path place → places place ≠ some .value

/-- A header can open a table that is new or only implied so far. -/
structure AdmitsHeader (places : Places) (key : Key) : Prop where
  way : places.Leads key.path
  own : places key.parts = none ∨ places key.parts = some .implied

def withHeader (places : Places) (key : Key) : Places :=
  (places.pass [] key.path .implied).set key.parts .header

/-- A header in double brackets can open the first of some tables, or the next one. -/
structure AdmitsNext (places : Places) (key : Key) : Prop where
  way : places.Leads key.path
  own : places key.parts = none ∨ places key.parts = some .tables

def withNext (places : Places) (key : Key) : Places :=
  ((places.pass [] key.path .implied).clear key.parts).set key.parts .tables

/-- Each of some lines goes with what stands there when it comes.  Entries go to the table at
`table`. -/
def Consistent (places : Places) (table : List String) : List Line → Prop
  | [] => True
  | .entry key _ :: rest =>
      places.Admits table key ∧ (places.withEntry table key).Consistent table rest
  | .header key :: rest =>
      places.AdmitsHeader key ∧ (places.withHeader key).Consistent key.parts rest
  | .nextHeader key :: rest =>
      places.AdmitsNext key ∧ (places.withNext key).Consistent key.parts rest

end Places

/-- The lines of a document go together. -/
def Consistent (lines : List Line) : Prop :=
  Places.empty.Consistent [] lines

/-- The keys of the entries before the next header. -/
def keysOfTable : List Line → List Key
  | .entry key _ :: rest => key :: keysOfTable rest
  | _ => []

/-- Whether two entries under one header have the same key. -/
def repeatsKey : List Line → Bool
  | [] => false
  | .entry key _ :: rest => decide (key ∈ keysOfTable rest) || repeatsKey rest
  | .header _ :: rest | .nextHeader _ :: rest => repeatsKey rest

namespace Places

variable {places : Places} {table : List String} {key : Key} {lines : List Line}

theorem withEntry_ne_none {place : List String} (hplace : places place ≠ none) (table : List String)
    (key : Key) : places.withEntry table key place ≠ none := by
  rw [withEntry, set]
  split
  · exact Option.some_ne_none _
  · rw [pass]
    split
    · exact fun h => hplace (Option.or_eq_none_iff.mp h).1
    · exact hplace

/-- A key without dots needs nothing but its own place. -/
theorem admits_of_path_nil {key : String} (hfresh : places [key] = none) :
    places.Admits [] ⟨[], key⟩ where
  way := by
    rintro place ⟨hfront, hlength⟩
    rw [List.prefix_nil.mp hfront] at hlength
    cases hlength
  owner := fun hpath => absurd rfl hpath
  fresh := hfresh

/-- A key that is taken cannot come again in its table. -/
theorem notMem_keysOfTable (hconsistent : places.Consistent table lines)
    (htaken : places (table ++ key.parts) ≠ none) : key ∉ keysOfTable lines := by
  induction lines generalizing places with
  | nil => exact List.not_mem_nil
  | cons line rest ih =>
      cases line with
      | header | nextHeader => exact List.not_mem_nil
      | entry other item =>
          obtain ⟨hadmits, hrest⟩ := hconsistent
          rw [keysOfTable, List.mem_cons, not_or]
          refine ⟨?_, ih hrest (withEntry_ne_none htaken table other)⟩
          rintro rfl
          exact htaken hadmits.fresh

theorem repeatsKey_eq_false (hconsistent : places.Consistent table lines) :
    repeatsKey lines = false := by
  induction lines generalizing places table with
  | nil => rfl
  | cons line rest ih =>
      cases line with
      | header | nextHeader => exact ih hconsistent.2
      | entry key item =>
          have htaken : places.withEntry table key (table ++ key.parts) ≠ none := by
            rw [withEntry, set, if_pos rfl]
            exact Option.some_ne_none _
          rw [repeatsKey, ih hconsistent.2, Bool.or_false, decide_eq_false_iff_not]
          exact notMem_keysOfTable hconsistent.2 htaken

end Places

/-- Lines that give a key of one table twice do not go together. -/
theorem not_consistent_of_repeatsKey {lines : List Line} (hrepeats : repeatsKey lines = true) :
    ¬ Consistent lines := by
  intro hconsistent
  rw [Places.repeatsKey_eq_false hconsistent] at hrepeats
  cases hrepeats

end PadBridge.Toml
