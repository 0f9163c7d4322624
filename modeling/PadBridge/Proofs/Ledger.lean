import PadBridge.Ledger

/-!
What a list of entries leaves in a ledger: its keys in the order in which they first come, and
under each of them the value that comes last.
-/

namespace PadBridge

def lastValue? (entries : List (String × String)) (key : String) : Option String :=
  entries.reverse.lookup key


@[simp] theorem lastValue?_nil (key : String) : lastValue? [] key = none :=
  rfl

theorem lastValue?_cons (entry : String × String) (rest : List (String × String)) (key : String) :
    lastValue? (entry :: rest) key =
      (lastValue? rest key).or (if key = entry.1 then some entry.2 else none) := by
  have hone : [entry].lookup key = if key = entry.1 then some entry.2 else none := by
    rw [List.lookup_cons]
    by_cases hkey : key = entry.1
    · simp [hkey]
    · simp [hkey, beq_false_of_ne hkey]
  rw [lastValue?, List.reverse_cons, List.lookup_append, lastValue?, hone]

theorem lastValue?_eq_none_iff {entries : List (String × String)} {key : String} :
    lastValue? entries key = none ↔ key ∉ entries.map Prod.fst := by
  induction entries with
  | nil => simp
  | cons entry rest ih =>
      rw [lastValue?_cons, Option.or_eq_none_iff, ih, List.map_cons, List.mem_cons]
      by_cases hkey : key = entry.1 <;> simp [hkey]

/-- Without repetitions the last value of a key is its only one. -/
theorem lastValue?_eq_lookup {entries : List (String × String)}
    (hnodup : (entries.map Prod.fst).Nodup) (key : String) :
    lastValue? entries key = entries.lookup key := by
  induction entries with
  | nil => rfl
  | cons entry rest ih =>
      rw [List.map_cons, List.nodup_cons] at hnodup
      rw [lastValue?_cons, List.lookup_cons]
      by_cases hkey : key = entry.1
      · subst hkey
        rw [lastValue?_eq_none_iff.mpr hnodup.1]
        simp
      · rw [beq_false_of_ne hkey, if_neg hkey, Option.or_none, ih hnodup.2]

theorem lastValue?_filter (entries : List (String × String)) (keep : String → Bool)
    (key : String) :
    lastValue? (entries.filter fun entry => keep entry.1) key =
      if keep key then lastValue? entries key else none := by
  induction entries with
  | nil => simp
  | cons entry rest ih =>
      by_cases hkeep : keep entry.1
      · rw [List.filter_cons_of_pos (by exact hkeep), lastValue?_cons, lastValue?_cons, ih]
        by_cases hkey : key = entry.1
        · simp [hkey, hkeep]
        · simp [hkey]
      · rw [List.filter_cons_of_neg (by exact hkeep), lastValue?_cons, ih]
        by_cases hkey : key = entry.1
        · simp [hkey, hkeep]
        · simp [hkey]

/-- Leaving some values out does not change the order in which the others first come. -/
theorem eraseDups_filter {α : Type} [DecidableEq α] (keep : α → Bool) (values : List α) :
    (values.filter keep).eraseDups = values.eraseDups.filter keep := by
  cases values with
  | nil => rfl
  | cons value rest =>
      have hrest := eraseDups_filter keep (rest.filter fun other => !other == value)
      rw [List.filter_filter] at hrest
      by_cases hkeep : keep value
      · rw [List.filter_cons_of_pos hkeep, List.eraseDups_cons, List.eraseDups_cons,
          List.filter_cons_of_pos hkeep, ← hrest, List.filter_filter]
        simp only [Bool.and_comm]
      · have hsame : rest.filter keep =
            rest.filter fun other => keep other && !other == value := by
          apply List.filter_congr
          intro other _
          by_cases hother : other = value
          · simp [hother, hkeep]
          · simp [hother]
        rw [List.filter_cons_of_neg hkeep, List.eraseDups_cons, List.filter_cons_of_neg hkeep,
          ← hrest, hsame]
termination_by values.length
decreasing_by exact Nat.lt_succ_of_le (List.length_filter_le _ rest)

theorem eraseDups_of_nodup {α : Type} [DecidableEq α] {values : List α} (hnodup : values.Nodup) :
    values.eraseDups = values := by
  induction values with
  | nil => rfl
  | cons value rest ih =>
      obtain ⟨hvalue, hrest⟩ := List.nodup_cons.mp hnodup
      have hkeep : rest.filter (fun other => !other == value) = rest := by
        apply List.filter_eq_self.mpr
        intro other hother
        have hne : other ≠ value := by
          rintro rfl
          exact hvalue hother
        simp [hne]
      rw [List.eraseDups_cons, hkeep, ih hrest]

namespace Ledger

theorem get?_eq_lastValue? (ledger : Ledger) (key : String) :
    ledger.get? key = lastValue? ledger.entries key :=
  (lastValue?_eq_lookup ledger.keys_nodup key).symm

theorem get?_eq_none_iff {ledger : Ledger} {key : String} :
    ledger.get? key = none ↔ key ∉ ledger.keys := by
  rw [get?_eq_lastValue?, lastValue?_eq_none_iff, keys]

theorem get?_eq_some_iff {ledger : Ledger} {key value : String} :
    ledger.get? key = some value ↔ (key, value) ∈ ledger.entries := by
  rcases ledger with ⟨entries, hnodup⟩
  simp only [get?]
  induction entries with
  | nil => simp
  | cons entry rest ih =>
      rw [List.map_cons, List.nodup_cons] at hnodup
      rw [List.lookup_cons, List.mem_cons]
      by_cases hkey : key = entry.1
      · have habsent : (key, value) ∉ rest := by
          intro hmem
          exact hnodup.1 (hkey ▸ List.mem_map_of_mem hmem)
        simp [hkey, Prod.ext_iff, eq_comm, hkey ▸ habsent]
      · simp [beq_false_of_ne hkey, ih hnodup.2, Prod.ext_iff, hkey]

theorem eraseDups_keys (ledger : Ledger) : ledger.keys.eraseDups = ledger.keys :=
  eraseDups_of_nodup ledger.keys_nodup

theorem ext_entries {left right : Ledger} (h : left.entries = right.entries) : left = right := by
  cases left
  cases right
  cases h
  rfl

/-- A ledger is determined by its keys in their order and by what stands under them. -/
theorem ext_get? {left right : Ledger} (hkeys : left.keys = right.keys)
    (hget : ∀ key, left.get? key = right.get? key) : left = right := by
  rcases left with ⟨left, hleft⟩
  rcases right with ⟨right, hright⟩
  simp only [keys, get?, mk.injEq] at hkeys hget ⊢
  induction left generalizing right with
  | nil => exact (List.map_eq_nil_iff.mp hkeys.symm).symm
  | cons entry rest ih =>
      cases right with
      | nil => cases hkeys
      | cons other more =>
          obtain ⟨hkey, htail⟩ := List.cons.inj hkeys
          rw [List.map_cons, List.nodup_cons] at hleft hright
          have hvalue := hget entry.1
          rw [List.lookup_cons, List.lookup_cons, hkey] at hvalue
          have hrest : rest = more := by
            apply ih hleft.2 more hright.2 htail
            intro key
            by_cases hmem : key ∈ rest.map Prod.fst
            · have hne : key ≠ entry.1 := by
                rintro rfl
                exact hleft.1 hmem
              have hlookup := hget key
              rwa [List.lookup_cons, List.lookup_cons, ← hkey, beq_false_of_ne hne] at hlookup
            · rw [← lastValue?_eq_lookup hleft.2, ← lastValue?_eq_lookup hright.2,
                lastValue?_eq_none_iff.mpr hmem, lastValue?_eq_none_iff.mpr (htail ▸ hmem)]
          rw [hrest, Prod.ext hkey (by simpa using hvalue)]

/-- Keys and what stands under them are all there is to a ledger. -/
theorem entries_eq_of_get? {ledger : Ledger} {entries : List (String × String)}
    (hkeys : ledger.keys = entries.map Prod.fst)
    (hget : ∀ entry ∈ entries, ledger.get? entry.1 = some entry.2) :
    ledger.entries = entries := by
  have hnodup : (entries.map Prod.fst).Nodup := hkeys ▸ ledger.keys_nodup
  have hledger : ledger = ⟨entries, hnodup⟩ := by
    refine ext_get? hkeys fun key => ?_
    by_cases hkey : key ∈ entries.map Prod.fst
    · obtain ⟨entry, hentry, rfl⟩ := List.mem_map.mp hkey
      rw [hget entry hentry, eq_comm, get?_eq_some_iff]
      exact hentry
    · rw [get?_eq_none_iff.mpr (hkeys ▸ hkey), eq_comm, get?_eq_none_iff]
      exact hkey
  rw [hledger]

theorem get?_insertAll (ledger : Ledger) (entries : List (String × String)) (key : String) :
    (ledger.insertAll entries).get? key = (lastValue? entries key).or (ledger.get? key) := by
  induction entries generalizing ledger with
  | nil => rfl
  | cons entry rest ih =>
      rw [insertAll, List.foldl_cons, ← insertAll, ih, get?_insert, lastValue?_cons,
        Option.or_assoc]
      by_cases hkey : key = entry.1 <;> simp [hkey]

theorem keys_insertAll (ledger : Ledger) (entries : List (String × String)) :
    (ledger.insertAll entries).keys =
      ledger.keys ++ ((entries.map Prod.fst).filter (· ∉ ledger.keys)).eraseDups := by
  induction entries generalizing ledger with
  | nil => simp [insertAll]
  | cons entry rest ih =>
      rw [insertAll, List.foldl_cons, ← insertAll, ih, keys_insert, List.map_cons]
      by_cases hkey : entry.1 ∈ ledger.keys
      · rw [if_pos hkey, List.filter_cons_of_neg (by simpa using hkey)]
      · rw [if_neg hkey, List.filter_cons_of_pos (by simpa using hkey), List.eraseDups_cons,
          List.filter_filter, List.append_assoc, List.singleton_append]
        congr 3
        apply List.filter_congr
        intro other _
        by_cases hother : other = entry.1 <;> simp [hother]

theorem get?_ofList (entries : List (String × String)) (key : String) :
    (ofList entries).get? key = lastValue? entries key := by
  rw [ofList, get?_insertAll]
  exact Option.or_none

theorem keys_ofList (entries : List (String × String)) :
    (ofList entries).keys = (entries.map Prod.fst).eraseDups := by
  have hall : (entries.map Prod.fst).filter (· ∉ empty.keys) = entries.map Prod.fst :=
    List.filter_eq_self.mpr (by simp [empty, keys])
  rw [ofList, keys_insertAll, hall]
  rfl

/-- Writing the entries of a ledger gives the ledger back. -/
theorem ofList_entries (ledger : Ledger) : ofList ledger.entries = ledger := by
  refine ext_get? ?_ fun key => ?_
  · rw [keys_ofList]
    exact ledger.eraseDups_keys
  · rw [get?_ofList, get?_eq_lastValue?]

/-- Entries whose keys are all different are written as they come. -/
theorem entries_ofList {entries : List (String × String)}
    (hnodup : (entries.map Prod.fst).Nodup) : (ofList entries).entries = entries :=
  congrArg Ledger.entries (ofList_entries ⟨entries, hnodup⟩)

end Ledger

end PadBridge
