import Trellis.Core.Table

/-!
# Records

A record maps names to values and keeps its members in the order in which they were added, as
an object of the source language does.  No name occurs twice.
-/

namespace Trellis.Core

open List

structure Record (α : Type) where
  entries : List (String × α)
  nodup : (entries.map (·.1)).Nodup

namespace Record

variable {α : Type}

instance [DecidableEq α] : DecidableEq (Record α) := fun r r' =>
  decidable_of_iff (r.entries = r'.entries) (by cases r; cases r'; simp)

def empty : Record α where
  entries := []
  nodup := List.nodup_nil

variable (r : Record α)

def keys : List String :=
  r.entries.map (·.1)

def values : List α :=
  r.entries.map (·.2)

variable (name : String)

def get : Option α :=
  (r.entries.find? (·.1 = name)).map (·.2)

theorem mem_entries_iff {r : Record α} {name : String} {value : α} :
    (name, value) ∈ r.entries ↔ r.get name = some value := by
  constructor
  · intro hmem
    have hfound : ∃ entry, r.entries.find? (·.1 = name) = some entry := by
      refine Option.isSome_iff_exists.mp (find?_isSome.mpr ⟨_, hmem, ?_⟩)
      exact decide_eq_true rfl
    obtain ⟨entry, hfind⟩ := hfound
    have hname : entry.1 = name := by simpa using find?_some hfind
    have hsame : entry = (name, value) :=
      inj_on_of_nodup_map r.nodup (mem_of_find?_eq_some hfind) hmem hname
    rw [get, hfind, hsame]
    rfl
  · intro hget
    obtain ⟨entry, hfind, hvalue⟩ := Option.map_eq_some_iff.mp hget
    have hname : entry.1 = name := by simpa using find?_some hfind
    have hmem := mem_of_find?_eq_some hfind
    rwa [show entry = (name, value) from Prod.ext hname hvalue] at hmem

theorem mem_keys_iff {r : Record α} {name : String} :
    name ∈ r.keys ↔ (r.get name).isSome = true := by
  rw [Option.isSome_iff_exists]
  constructor
  · intro hmem
    obtain ⟨⟨name', value⟩, hentry, rfl⟩ := mem_map.mp hmem
    exact ⟨value, mem_entries_iff.mp hentry⟩
  · rintro ⟨value, hget⟩
    exact mem_map.mpr ⟨(name, value), mem_entries_iff.mpr hget, rfl⟩

theorem get_eq_none_iff {r : Record α} {name : String} : r.get name = none ↔ name ∉ r.keys := by
  rw [mem_keys_iff]
  cases r.get name <;> simp

@[simp]
theorem get_empty : (empty : Record α).get name = none :=
  rfl

/-- Replace the value of a name, or add the name at the end. -/
def set (value : α) : Record α where
  entries := upsert (·.1) (name, value) r.entries
  nodup := nodup_upsert r.nodup

@[simp]
theorem get_set_self (value : α) : (r.set name value).get name = some value :=
  mem_entries_iff.mp (mem_upsert_self (name, value) r.entries)

theorem get_set_of_ne {name name' : String} (value : α) (hne : name' ≠ name) :
    (r.set name value).get name' = r.get name' := by
  refine Option.ext fun found => ?_
  rw [← mem_entries_iff, ← mem_entries_iff]
  constructor
  · intro hmem
    rcases mem_upsert r.nodup hmem with heq | hold
    · exact (hne (congrArg Prod.fst heq)).elim
    · exact hold.1
  · intro hmem
    exact mem_upsert_of_ne hmem hne

/-- `Object.fromEntries`. -/
def ofList (entries : List (String × α)) : Record α :=
  entries.foldl (fun r entry => r.set entry.1 entry.2) empty

theorem entries_ofList {entries : List (String × α)} (hnodup : (entries.map (·.1)).Nodup) :
    (ofList entries).entries = entries := by
  induction entries using reverseRecOn with
  | nil => rfl
  | append_singleton entries entry ih =>
    rw [map_append] at hnodup
    have hrows := ih hnodup.of_append_left
    have hnew : entry.1 ∉ (ofList entries).entries.map (·.1) := by
      rw [hrows]
      exact fun hmem => disjoint_of_nodup_append hnodup hmem mem_cons_self
    have hset : (ofList (entries ++ [entry])).entries =
        upsert (·.1) entry (ofList entries).entries := by
      rw [ofList, foldl_append]
      rfl
    rw [hset, upsert_of_not_mem hnew, hrows]

@[simp]
theorem ofList_entries : ofList r.entries = r := by
  have hentries := entries_ofList r.nodup
  cases hr : ofList r.entries
  rw [hr] at hentries
  cases r
  simpa using hentries

/-- `{ ...r, ...r' }`. -/
def spread (r r' : Record α) : Record α :=
  r'.entries.foldl (fun r entry => r.set entry.1 entry.2) r

theorem get_spread (r r' : Record α) (name : String) :
    (r.spread r').get name = (r'.get name).or (r.get name) := by
  have hfold : ∀ (entries : List (String × α)), (entries.map (·.1)).Nodup → ∀ r : Record α,
      (entries.foldl (fun r entry => r.set entry.1 entry.2) r).get name =
        ((entries.find? (·.1 = name)).map (·.2)).or (r.get name) := by
    intro entries
    induction entries with
    | nil => exact fun _ _ => rfl
    | cons entry entries ih =>
      intro hnodup r
      rw [map_cons, nodup_cons] at hnodup
      rw [foldl_cons, ih hnodup.2]
      by_cases hname : entry.1 = name
      · have hlater : entries.find? (·.1 = name) = none := by
          refine find?_eq_none.mpr fun later hmem => ?_
          rw [decide_eq_true_iff]
          intro hlater
          exact hnodup.1 (mem_map.mpr ⟨later, hmem, hlater.trans hname.symm⟩)
        rw [hlater, find?_cons_of_pos (by simpa using hname), ← hname, get_set_self]
        rfl
      · rw [find?_cons_of_neg (by simpa using hname), get_set_of_ne r entry.2 (Ne.symm hname)]
  exact hfold r'.entries r'.nodup r

/-- The values that `f` gives to the names of a list. -/
def collect (names : List String) (hnames : names.Nodup) (f : String → Option α) : Record α where
  entries := names.filterMap fun name => (f name).map (name, ·)
  nodup := by
    have hname : ∀ name entry, (f name).map (name, ·) = some entry → some name = some entry.1 := by
      intro name entry h
      obtain ⟨value, -, rfl⟩ := Option.map_eq_some_iff.mp h
      rfl
    have hsub := map_filterMap_sublist hname names
    rw [filterMap_some] at hsub
    exact hnames.sublist hsub

theorem get_collect {names : List String} (hnames : names.Nodup) (f : String → Option α)
    (name : String) :
    (collect names hnames f).get name = if name ∈ names then f name else none := by
  refine Option.ext fun value => mem_entries_iff.symm.trans ?_
  by_cases hname : name ∈ names
  · simp [collect, hname]
  · simp [collect, hname]

end Record

end Trellis.Core
