import Mathlib.Data.List.Nodup
import PadBridge.Proofs.Toml.Places
import PadBridge.Toml.Document

/-!
Tables inside values.  A dotted key and a header change a table somewhere below the entries they
start from.  Both look into a value for the table in it, and put the changed table in its place.
-/

namespace PadBridge.Toml

section Lookup

variable {α : Type} {entries : List (String × α)} {key : String} {found : α}

theorem lookup_eq_none_iff : entries.lookup key = none ↔ key ∉ entries.map Prod.fst := by
  rw [List.lookup_eq_none_iff, List.mem_map, not_exists]
  refine forall_congr' fun entry => ?_
  rw [not_and, bne_iff_ne, ne_comm]

theorem mem_of_lookup (hfound : entries.lookup key = some found) : (key, found) ∈ entries := by
  obtain ⟨front, back, hentries, _⟩ := List.lookup_eq_some_iff.mp hfound
  rw [hentries]
  exact List.mem_append_right front List.mem_cons_self

/-- Under distinct keys look-up finds every entry. -/
theorem lookup_of_mem (hnodup : (entries.map Prod.fst).Nodup) (hentry : (key, found) ∈ entries) :
    entries.lookup key = some found := by
  cases hlookup : entries.lookup key with
  | none => exact absurd (List.mem_map_of_mem hentry) (lookup_eq_none_iff.mp hlookup)
  | some other =>
      cases List.inj_on_of_nodup_map hnodup (mem_of_lookup hlookup) hentry rfl
      rfl

end Lookup

/-- A table in a value, and the value with another table in its place. -/
structure Inside where
  table : Entries
  put : Entries → Value

namespace Value

def role : Value → Role
  | .table .header _ => .header
  | .table .implied _ => .implied
  | .table .dotted _ => .dotted
  | .tables _ _ => .tables
  | _ => .value

def shown : Value → Item
  | .text value => .text value
  | .integer value => .integer value
  | .number _ => .number
  | .boolean value => .boolean value
  | .moment => .moment
  | .array _ => .array
  | .table .inline _ => .inline
  | .table _ _ => .table
  | .tables _ _ => .tables

/-- The table that a header passes in a value. -/
def entered? : Value → Option Inside
  | .table .inline _ => none
  | .table origin inner => some ⟨inner, .table origin⟩
  | .tables earlier last => some ⟨last, .tables earlier⟩
  | _ => none

/-- The table that a dotted key passes in a value, with more parts of its path to follow. -/
def passed? (path : List String) (found : Value) : Option Inside :=
  if found.role ≠ .header ∧ (path = [] → found.role = .dotted) then found.entered? else none

variable {found : Value} {path : List String} {inside : Inside}

theorem entered?_eq_none_iff : found.entered? = none ↔ found.role = .value := by
  cases found with
  | table origin inner => cases origin <;> simp [entered?, role]
  | tables | text | integer | number | boolean | moment | array => simp [entered?, role]

/-- What a dotted key passes could be passed by a header. -/
theorem entered?_of_passed? (hpassed : found.passed? path = some inside) :
    found.entered? = some inside := by
  rw [passed?] at hpassed
  split at hpassed
  · exact hpassed
  · cases hpassed

/-- The table that was put in place is found there. -/
theorem entered?_put (hentered : found.entered? = some inside) (changed : Entries) :
    (inside.put changed).entered? = some ⟨changed, inside.put⟩ := by
  cases found with
  | table origin inner =>
      cases origin with
      | inline => cases hentered
      | header | implied | dotted =>
          cases hentered
          rfl
  | tables earlier last =>
      cases hentered
      rfl
  | text | integer | number | boolean | moment | array => cases hentered

/-- A table that is put in place is there for the same reason as the one before it. -/
theorem role_put (hentered : found.entered? = some inside) (changed : Entries) :
    (inside.put changed).role = found.role := by
  cases found with
  | table origin inner =>
      cases origin with
      | inline => cases hentered
      | header | implied | dotted =>
          cases hentered
          rfl
  | tables earlier last =>
      cases hentered
      rfl
  | text | integer | number | boolean | moment | array => cases hentered

/-- A table that is put in place of another makes a value that shows as the same. -/
theorem shown_put (hentered : found.entered? = some inside)
    (changed : Entries) : (inside.put changed).shown = found.shown := by
  cases found with
  | table origin inner =>
      cases origin with
      | inline => cases hentered
      | header | implied | dotted =>
          cases hentered
          rfl
  | tables earlier last =>
      cases hentered
      rfl
  | text | integer | number | boolean | moment | array => cases hentered

end Value

/-- What a line of a document says, without what its value is made of. -/
def Statement.line : Statement → Line
  | .entry key value => .entry key value.shown
  | .header key => .header key
  | .nextHeader key => .nextHeader key

namespace Entries

variable {entries : Entries} {key other part : String} {found value : Value} {path : List String}

theorem find?_append (entries : Entries) (key : String) (value : Value) (other : String) :
    find? (entries ++ [(key, value)]) other =
      (entries.find? other).or (if other = key then some value else none) := by
  rw [find?, List.lookup_append, find?, List.lookup_cons]
  by_cases hother : other = key
  · simp [hother]
  · rw [beq_false_of_ne hother, if_neg hother]
    rfl

theorem find?_replace (entries : Entries) (key : String) (value : Value) (other : String) :
    (entries.replace key value).find? other =
      (entries.find? other).map fun found => if other = key then value else found := by
  induction entries with
  | nil => rfl
  | cons entry rest ih =>
      obtain ⟨first, found⟩ := entry
      have hfirst : (if first = key then (key, value) else (first, found)) =
          (first, if first = key then value else found) := by
        split
        · rename_i hkey
          rw [hkey]
        · rfl
      rw [find?, replace, List.map_cons, hfirst, find?, List.lookup_cons, List.lookup_cons]
      by_cases hother : other = first
      · simp [hother]
      · rw [beq_false_of_ne hother]
        exact ih

/-- A dotted key makes a new table, or changes the one that it passes. -/
theorem insertDotted_cons (entries : Entries) (part : String) (path : List String) (key : String)
    (value : Value) :
    entries.insertDotted (part :: path) key value =
      match entries.find? part with
      | none => (insertDotted [] path key value).map fun inner =>
          entries ++ [(part, .table .dotted inner)]
      | some found => (found.passed? path).bind fun inside =>
          (inside.table.insertDotted path key value).map fun changed =>
            entries.replace part (inside.put changed) := by
  rw [insertDotted]
  cases entries.find? part with
  | none => exact Option.map_eq_bind.symm
  | some found =>
      cases found with
      | table origin inner =>
          have hpass : (passable origin = true ∧ (path = [] → origin = .dotted)) ↔
              origin ≠ .inline ∧ (Value.table origin inner).role ≠ .header
                ∧ (path = [] → (Value.table origin inner).role = .dotted) := by
            cases origin <;> simp [passable, Value.role]
          simp only [Value.passed?, hpass]
          cases origin with
          | inline => simp [Value.entered?]
          | header => simp [Value.role]
          | implied | dotted =>
              simp only [ne_eq, reduceCtorEq, not_false_eq_true, true_and, Value.entered?]
              split
              · exact Option.map_eq_bind.symm
              · rfl
      | tables earlier last =>
          simp only [Value.passed?, Value.role, ne_eq, reduceCtorEq, not_false_eq_true, true_and,
            imp_false]
          by_cases hpath : path = []
          · rw [if_pos hpath, if_neg (not_not.mpr hpath)]
            rfl
          · rw [if_neg hpath, if_pos hpath]
            exact Option.map_eq_bind.symm
      | text | integer | number | boolean | moment | array =>
          simp [Value.passed?, Value.entered?]

/-- A header makes a new table, or changes the one that it passes. -/
theorem changeAt_cons (change : Entries → Option Entries) (entries : Entries) (part : String)
    (path : List String) :
    entries.changeAt change (part :: path) =
      match entries.find? part with
      | none => (changeAt change [] path).map fun inner =>
          entries ++ [(part, .table .implied inner)]
      | some found => found.entered?.bind fun inside =>
          (inside.table.changeAt change path).map fun changed =>
            entries.replace part (inside.put changed) := by
  rw [changeAt]
  cases entries.find? part with
  | none => exact Option.map_eq_bind.symm
  | some found =>
      cases found with
      | table origin inner =>
          cases origin with
          | inline => rfl
          | header | implied | dotted => exact Option.map_eq_bind.symm
      | tables earlier last => exact Option.map_eq_bind.symm
      | text | integer | number | boolean | moment | array => rfl

/-- A key is passed on the way to a change below it: a new one gets a table, and in what is under an
old one the table changes. -/
inductive Passed (origin : Origin) (change : Entries → Option Entries) (entries : Entries)
    (part : String) : Entries → Prop where
  | added {inner : Entries} (hfind : entries.find? part = none) (hchange : change [] = some inner) :
      Passed origin change entries part (entries ++ [(part, .table origin inner)])
  | replaced {found : Value} {inside : Inside} {changed : Entries}
      (hfind : entries.find? part = some found) (hentered : found.entered? = some inside)
      (hchange : change inside.table = some changed) :
      Passed origin change entries part (entries.replace part (inside.put changed))

theorem passed_insertDotted {next : Entries}
    (hinsert : entries.insertDotted (part :: path) key value = some next) :
    Passed .dotted (fun inner => inner.insertDotted path key value) entries part next := by
  rw [insertDotted_cons] at hinsert
  cases hfind : entries.find? part with
  | none =>
      rw [hfind] at hinsert
      obtain ⟨inner, hinner, rfl⟩ := Option.map_eq_some_iff.mp hinsert
      exact .added hfind hinner
  | some found =>
      rw [hfind] at hinsert
      obtain ⟨inside, hpassed, hinside⟩ := Option.bind_eq_some_iff.mp hinsert
      obtain ⟨changed, hchanged, rfl⟩ := Option.map_eq_some_iff.mp hinside
      exact .replaced hfind (Value.entered?_of_passed? hpassed) hchanged

theorem passed_changeAt {change : Entries → Option Entries} {next : Entries}
    (hchange : entries.changeAt change (part :: path) = some next) :
    Passed .implied (fun inner => inner.changeAt change path) entries part next := by
  rw [changeAt_cons] at hchange
  cases hfind : entries.find? part with
  | none =>
      rw [hfind] at hchange
      obtain ⟨inner, hinner, rfl⟩ := Option.map_eq_some_iff.mp hchange
      exact .added hfind hinner
  | some found =>
      rw [hfind] at hchange
      obtain ⟨inside, hentered, hinside⟩ := Option.bind_eq_some_iff.mp hchange
      obtain ⟨changed, hchanged, rfl⟩ := Option.map_eq_some_iff.mp hinside
      exact .replaced hfind hentered hchanged

end Entries
end PadBridge.Toml
