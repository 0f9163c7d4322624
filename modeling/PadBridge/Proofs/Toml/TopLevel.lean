import PadBridge.Proofs.Toml.Tables

/-!
The top level of a document, line by line.  Which keys it has, and what kind of thing stands under
them, can be told from the first part of each key and from where the headers are, without building
the tree.
-/

namespace PadBridge.Toml

/-- The top level as far as it has been read. -/
structure TopLevel where
  items : List (String × Item)
  /-- Whether a header came before.  What follows belongs to its table. -/
  inTable : Bool

namespace TopLevel

def keys (items : List (String × Item)) : List String :=
  items.map Prod.fst

/-- A key gets an item, unless it has one. -/
def mention (items : List (String × Item)) (key : String) (item : Item) : List (String × Item) :=
  if key ∈ keys items then items else items ++ [(key, item)]

/-- What one more line makes of the top level.  A table stands where its own header stands. -/
def see (top : TopLevel) : Line → TopLevel
  | .entry ⟨[], key⟩ item =>
      if top.inTable then top else ⟨top.items ++ [(key, item)], false⟩
  | .entry ⟨first :: _, _⟩ _ => if top.inTable then top else ⟨mention top.items first .table, false⟩
  | .header ⟨[], key⟩ => ⟨top.items.filter (fun entry => entry.1 ≠ key) ++ [(key, .table)], true⟩
  | .nextHeader ⟨[], key⟩ => ⟨mention top.items key .tables, true⟩
  | .header ⟨first :: _, _⟩ | .nextHeader ⟨first :: _, _⟩ => ⟨mention top.items first .table, true⟩

end TopLevel

/-- The keys of the top level in document order, each with what stands under it. -/
def topLevel (lines : List Line) : List (String × Item) :=
  (lines.foldl TopLevel.see ⟨[], false⟩).items

def Entries.shown (entries : Entries) : List (String × Item) :=
  entries.map fun entry => (entry.1, entry.2.shown)

open TopLevel (keys mention)

section Mention

variable {items : List (String × Item)} {key : String} {item : Item}

theorem mention_of_mem (hkey : key ∈ keys items) : mention items key item = items :=
  if_pos hkey

theorem mention_of_notMem (hkey : key ∉ keys items) :
    mention items key item = items ++ [(key, item)] :=
  if_neg hkey

theorem keys_append_singleton (items : List (String × Item)) (entry : String × Item) :
    keys (items ++ [entry]) = keys items ++ [entry.1] := by
  rw [keys, List.map_append, List.map_singleton, keys]

theorem mem_keys_mention : key ∈ keys (mention items key item) := by
  by_cases hkey : key ∈ keys items
  · rwa [mention_of_mem hkey]
  · rw [mention_of_notMem hkey, keys_append_singleton]
    exact List.mem_append_right _ List.mem_cons_self

theorem nodup_keys_append (hnodup : (keys items).Nodup) (hkey : key ∉ keys items) :
    (keys (items ++ [(key, item)])).Nodup := by
  rw [keys_append_singleton, List.nodup_append]
  refine ⟨hnodup, List.nodup_singleton key, fun first hfirst second hsecond => ?_⟩
  obtain rfl := List.mem_singleton.mp hsecond
  exact ne_of_mem_of_not_mem hfirst hkey

theorem nodup_keys_mention (hnodup : (keys items).Nodup) :
    (keys (mention items key item)).Nodup := by
  by_cases hkey : key ∈ keys items
  · rwa [mention_of_mem hkey]
  · rw [mention_of_notMem hkey]
    exact nodup_keys_append hnodup hkey

end Mention

namespace Entries

variable {entries next : Entries} {key part : String} {found value : Value} {path : List String}

theorem keys_shown (entries : Entries) : keys entries.shown = entries.map Prod.fst := by
  rw [shown, keys, List.map_map]
  rfl

theorem shown_append (entries : Entries) (key : String) (value : Value) :
    shown (entries ++ [(key, value)]) = shown entries ++ [(key, value.shown)] := by
  rw [shown, List.map_append, List.map_singleton, shown]

theorem find?_eq_none_iff : entries.find? key = none ↔ key ∉ keys entries.shown := by
  rw [keys_shown, find?, lookup_eq_none_iff]

theorem mention_of_find? (hfind : entries.find? key = some found) (item : Item) :
    mention entries.shown key item = entries.shown := by
  refine mention_of_mem (Decidable.not_not.mp fun hkey => ?_)
  rw [find?_eq_none_iff.mpr hkey] at hfind
  cases hfind

theorem mention_of_find?_none (hfind : entries.find? key = none) (value : Value) :
    mention entries.shown key value.shown = shown (entries ++ [(key, value)]) := by
  rw [mention_of_notMem (find?_eq_none_iff.mp hfind), shown_append]

/-- Another value of the same kind does not show. -/
theorem shown_replace (hnodup : (keys entries.shown).Nodup)
    (hfind : entries.find? key = some found) (hsame : value.shown = found.shown) :
    (entries.replace key value).shown = entries.shown := by
  rw [keys_shown] at hnodup
  rw [shown, replace, List.map_map]
  refine List.map_congr_left fun entry hentry => ?_
  by_cases hkey : entry.1 = key
  · subst hkey
    have hfound : entry.2 = found :=
      Option.some.inj ((lookup_of_mem hnodup hentry).symm.trans hfind)
    rw [Function.comp_apply, if_pos rfl, hsame, hfound]
  · rw [Function.comp_apply, if_neg hkey]

theorem Passed.shown {origin : Origin} {change : Entries → Option Entries}
    (hpassed : Passed origin change entries key next) (horigin : origin ≠ .inline)
    (hnodup : (keys entries.shown).Nodup) : next.shown = mention entries.shown key .table := by
  cases hpassed with
  | @added inner hnew hchange =>
      have hvalue : (Value.table origin inner).shown = .table := by
        cases origin with
        | inline => exact absurd rfl horigin
        | header | implied | dotted => rfl
      rw [← hvalue, mention_of_find?_none hnew]
  | replaced hfind hentered _ =>
      rw [shown_replace hnodup hfind (Value.shown_put hentered _), mention_of_find? hfind]

theorem shown_erase (entries : Entries) (key : String) :
    (entries.erase key).shown = entries.shown.filter fun entry => entry.1 ≠ key := by
  rw [shown, shown, erase, List.filter_map]
  rfl

/-- A table stands where its own header stands. -/
theorem shown_openTable (hopen : openTable key entries = some next) :
    next.shown = (entries.shown.filter fun entry => entry.1 ≠ key) ++ [(key, .table)] := by
  rw [openTable] at hopen
  split at hopen
  · rename_i hfind
    cases hopen
    have hother : ∀ entry ∈ entries.shown, entry.1 ≠ key := by
      rintro entry hentry rfl
      exact find?_eq_none_iff.mp hfind (List.mem_map_of_mem hentry)
    have hall := List.filter_eq_self.mpr fun entry hentry => decide_eq_true (hother entry hentry)
    rw [shown_append, hall]
    rfl
  · cases hopen
    rw [shown_append, shown_erase]
    rfl
  · cases hopen

theorem shown_openNext (hnodup : (keys entries.shown).Nodup)
    (hopen : openNext key entries = some next) :
    next.shown = mention entries.shown key .tables := by
  rw [openNext] at hopen
  split at hopen
  · rename_i hfind
    cases hopen
    exact (mention_of_find?_none hfind (.tables [] [])).symm
  · rename_i earlier last hfind
    cases hopen
    rw [mention_of_find? hfind]
    exact shown_replace hnodup hfind rfl
  · cases hopen

theorem shown_add? (hadd : entries.add? key value = some next) :
    key ∉ keys entries.shown ∧ next.shown = entries.shown ++ [(key, value.shown)] := by
  rw [add?] at hadd
  split at hadd
  · cases hadd
  · rename_i hfind
    cases hadd
    exact ⟨find?_eq_none_iff.mp hfind, shown_append entries key value⟩

end Entries

/-- What has been read of a document is shown by its lines. -/
structure Outline.Shows (outline : Outline) (top : TopLevel) : Prop where
  items : outline.entries.shown = top.items
  nodup : (keys top.items).Nodup
  /-- The table that entries go to is not the top level if there was a header, and lies under a key
  of the top level. -/
  current : match outline.current with
    | [] => top.inTable = false
    | first :: _ => top.inTable = true ∧ first ∈ keys top.items

variable {outline next : Outline} {top : TopLevel} {statement : Statement}

theorem nodup_keys_filter_append {items : List (String × Item)} (hnodup : (keys items).Nodup)
    (key : String) (item : Item) :
    (keys (items.filter (fun entry => entry.1 ≠ key) ++ [(key, item)])).Nodup := by
  have hsublist : (items.filter fun entry => entry.1 ≠ key).Sublist items := List.filter_sublist
  refine nodup_keys_append (hnodup.sublist (hsublist.map Prod.fst)) fun hkey => ?_
  obtain ⟨entry, hentry, hsame⟩ := List.mem_map.mp hkey
  exact of_decide_eq_true (List.mem_filter.mp hentry).2 hsame

/-- A header passes the first part of its key, and leads into a table below it. -/
theorem Outline.Shows.passed {first : String} {path : List String} {entries : Entries}
    {change : Entries → Option Entries} (hshows : outline.Shows top)
    (hpassed : Entries.Passed .implied change outline.entries first entries) :
    Shows ⟨entries, first :: path⟩ ⟨mention top.items first .table, true⟩ where
  items := by rw [hpassed.shown nofun (hshows.items ▸ hshows.nodup), hshows.items]
  nodup := nodup_keys_mention hshows.nodup
  current := ⟨rfl, mem_keys_mention⟩

/-- An entry of the top level is added under a new key, or its key is passed. -/
theorem Outline.Shows.entry {before entries : Entries} {key : Key} {value : Value}
    (hshows : Shows ⟨before, []⟩ top)
    (hinsert : before.insertDotted key.path key.last value = some entries) :
    Shows ⟨entries, []⟩ (top.see (.entry key value.shown)) := by
  have hitems : before.shown = top.items := hshows.items
  have hroot : ¬ top.inTable = true := Bool.not_eq_true _ ▸ hshows.current
  obtain ⟨path, last⟩ := key
  cases path with
  | nil =>
      obtain ⟨hfresh, hshown⟩ := Entries.shown_add? hinsert
      rw [hitems] at hfresh hshown
      rw [TopLevel.see, if_neg hroot]
      exact ⟨hshown, nodup_keys_append hshows.nodup hfresh, rfl⟩
  | cons first path =>
      have hpassed := Entries.passed_insertDotted hinsert
      rw [TopLevel.see, if_neg hroot]
      refine ⟨?_, nodup_keys_mention hshows.nodup, rfl⟩
      rw [hpassed.shown nofun (hitems ▸ hshows.nodup), hitems]

/-- An entry of a table below the top level does not show. -/
theorem Outline.Shows.entry_inTable {entries : Entries} {key : Key} {item : Item} {first : String}
    {path : List String} {change : Entries → Option Entries}
    (hshows : outline.Shows top) (hcurrent : outline.current = first :: path)
    (hchange : outline.entries.changeAt change outline.current = some entries) :
    Shows ⟨entries, outline.current⟩ (top.see (.entry key item)) := by
  have hopened := hshows.current
  rw [hcurrent] at hopened hchange
  have hsee : top.see (.entry key item) = top := by
    obtain ⟨path, last⟩ := key
    cases path <;> exact if_pos hopened.1
  have hshown := (Entries.passed_changeAt hchange).shown nofun (hshows.items ▸ hshows.nodup)
  rw [hsee]
  refine ⟨?_, hshows.nodup, hshows.current⟩
  rw [hshown, hshows.items, mention_of_mem hopened.2]

/-- One more line of a document. -/
theorem Outline.Shows.see (hshows : outline.Shows top)
    (hextend : outline.extend statement = some next) : next.Shows (top.see statement.line) := by
  have hitems := hshows.items
  have hnodup : (keys outline.entries.shown).Nodup := hitems ▸ hshows.nodup
  cases statement with
  | entry key value =>
      obtain ⟨entries, hentries, hnext⟩ := Option.bind_eq_some_iff.mp hextend
      cases hnext
      cases hcurrent : outline.current with
      | nil =>
          obtain ⟨before, current⟩ := outline
          cases hcurrent
          exact hshows.entry hentries
      | cons first path =>
          rw [← hcurrent]
          exact hshows.entry_inTable hcurrent hentries
  | header key =>
      obtain ⟨entries, hentries, hnext⟩ := Option.bind_eq_some_iff.mp hextend
      cases hnext
      obtain ⟨path, last⟩ := key
      cases path with
      | nil =>
          have hshown := Entries.shown_openTable hentries
          rw [hitems] at hshown
          have hlast : (last, Item.table) ∈ (top.see (.header ⟨[], last⟩)).items :=
            List.mem_append_right _ List.mem_cons_self
          exact ⟨hshown, nodup_keys_filter_append hshows.nodup last .table, rfl,
            List.mem_map_of_mem hlast⟩
      | cons first path => exact hshows.passed (Entries.passed_changeAt hentries)
  | nextHeader key =>
      obtain ⟨entries, hentries, hnext⟩ := Option.bind_eq_some_iff.mp hextend
      cases hnext
      obtain ⟨path, last⟩ := key
      cases path with
      | nil =>
          have hshown := Entries.shown_openNext hnodup hentries
          rw [hitems] at hshown
          exact ⟨hshown, nodup_keys_mention hshows.nodup, rfl, mem_keys_mention⟩
      | cons first path => exact hshows.passed (Entries.passed_changeAt hentries)

/-- Any lines of a document, one after the other. -/
theorem Outline.Shows.foldl {statements : List Statement} (hshows : outline.Shows top)
    (hextend : statements.foldlM Outline.extend outline = some next) :
    next.Shows ((statements.map Statement.line).foldl TopLevel.see top) := by
  induction statements generalizing outline top with
  | nil =>
      cases hextend
      exact hshows
  | cons statement rest ih =>
      rw [List.foldlM_cons] at hextend
      obtain ⟨middle, hmiddle, hrest⟩ := Option.bind_eq_some_iff.mp hextend
      exact ih (hshows.see hmiddle) hrest

theorem shows_empty : Outline.empty.Shows ⟨[], false⟩ :=
  ⟨rfl, List.nodup_nil, rfl⟩

/-- The entries of a document are its top level, and no key is repeated. -/
theorem shown_ofStatements? {statements : List Statement} {entries : Entries}
    (hentries : Entries.ofStatements? statements = some entries) :
    entries.shown = topLevel (statements.map Statement.line)
      ∧ (keys (topLevel (statements.map Statement.line))).Nodup := by
  obtain ⟨outline, houtline, hdone⟩ := Option.map_eq_some_iff.mp hentries
  have hshows := shows_empty.foldl houtline
  rw [← hdone]
  exact ⟨hshows.items, hshows.nodup⟩

end PadBridge.Toml
