/-!
A ledger keeps texts under keys in the order in which the keys first came.  Writing under a known
key replaces the value and leaves the key where it is, so no key ever stands twice.
-/

namespace PadBridge

/-- Write `value` under `key`: in place if the key is there, at the end if it is new. -/
def putEntry (key value : String) : List (String × String) → List (String × String)
  | [] => [(key, value)]
  | entry :: rest =>
      if entry.1 = key then (key, value) :: rest else entry :: putEntry key value rest

theorem map_fst_putEntry (key value : String) (entries : List (String × String)) :
    (putEntry key value entries).map Prod.fst =
      if key ∈ entries.map Prod.fst then entries.map Prod.fst
      else entries.map Prod.fst ++ [key] := by
  induction entries with
  | nil => simp [putEntry]
  | cons entry rest ih =>
      by_cases hkey : entry.1 = key
      · simp [putEntry, hkey]
      · have hkey' : ¬ key = entry.1 := fun h => hkey h.symm
        rw [putEntry, if_neg hkey, List.map_cons, ih]
        by_cases hmem : key ∈ rest.map Prod.fst
        · rw [if_pos hmem, if_pos (by simp [hmem])]
          rfl
        · rw [if_neg hmem, if_neg (by simp [hmem, hkey'])]
          rfl

theorem nodup_putEntry (key value : String) {entries : List (String × String)}
    (hnodup : (entries.map Prod.fst).Nodup) :
    ((putEntry key value entries).map Prod.fst).Nodup := by
  rw [map_fst_putEntry]
  by_cases hmem : key ∈ entries.map Prod.fst
  · rwa [if_pos hmem]
  · rw [if_neg hmem, List.nodup_append]
    refine ⟨hnodup, by simp, ?_⟩
    rintro old hold _ hnew rfl
    rw [List.mem_singleton] at hnew
    exact hmem (hnew ▸ hold)

/-- Texts under keys, in the order in which the keys first came. -/
structure Ledger where
  entries : List (String × String)
  keys_nodup : (entries.map Prod.fst).Nodup
deriving Repr, DecidableEq

namespace Ledger

def empty : Ledger :=
  ⟨[], by simp⟩

def clear (_ : Ledger) : Ledger :=
  empty

def keys (ledger : Ledger) : List String :=
  ledger.entries.map Prod.fst

/-- The text under a key. -/
def get? (ledger : Ledger) (key : String) : Option String :=
  ledger.entries.lookup key

/-- Write under a key.  A known key keeps its place. -/
def insert (ledger : Ledger) (key value : String) : Ledger :=
  ⟨putEntry key value ledger.entries, nodup_putEntry key value ledger.keys_nodup⟩

/-- Write a list of entries one after the other. -/
def insertAll (ledger : Ledger) (entries : List (String × String)) : Ledger :=
  entries.foldl (fun sofar entry => sofar.insert entry.1 entry.2) ledger

/-- Of a repeated key the first place and the last value count. -/
def ofList (entries : List (String × String)) : Ledger :=
  empty.insertAll entries

/-- The same texts under the same keys, in whatever order. -/
def sameTexts (left right : Ledger) : Bool :=
  left.entries.length == right.entries.length
    && left.entries.all fun entry => right.get? entry.1 == some entry.2

theorem keys_insert (ledger : Ledger) (key value : String) :
    (ledger.insert key value).keys =
      if key ∈ ledger.keys then ledger.keys else ledger.keys ++ [key] :=
  map_fst_putEntry key value ledger.entries

theorem get?_insert (ledger : Ledger) (key value other : String) :
    (ledger.insert key value).get? other =
      if other = key then some value else ledger.get? other := by
  rcases ledger with ⟨entries, hnodup⟩
  simp only [get?, insert]
  clear hnodup
  induction entries with
  | nil => by_cases h : other = key <;> simp [putEntry, h, beq_false_of_ne]
  | cons entry rest ih =>
      rcases entry with ⟨first, text⟩
      by_cases hkey : first = key
      · subst hkey
        by_cases hother : other = first
        · simp [putEntry, hother]
        · simp [putEntry, hother, List.lookup_cons, beq_false_of_ne hother]
      · rw [putEntry, if_neg hkey, List.lookup_cons, List.lookup_cons]
        by_cases hother : other = first
        · simp [hother, hkey]
        · simpa [beq_false_of_ne hother] using ih

end Ledger

end PadBridge
