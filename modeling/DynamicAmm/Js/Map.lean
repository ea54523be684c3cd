import Mathlib

/-!
# Maps of JavaScript

A map keeps its entries in the order in which their keys were first set, and at most one for a key.
-/

namespace DynamicAmm.Js

structure JsMap (κ α : Type) where
  entries : List (κ × α)
  distinct : (entries.map Prod.fst).Nodup

namespace JsMap

variable {κ α : Type}

def empty : JsMap κ α := ⟨[], List.nodup_nil⟩

variable [DecidableEq κ]

def get (map : JsMap κ α) (key : κ) : Option α := map.entries.lookup key

/-- The entries with one of them replaced, or added at the end. -/
def setEntry (key : κ) (value : α) : List (κ × α) → List (κ × α)
  | [] => [(key, value)]
  | entry :: rest => if entry.1 = key then (key, value) :: rest else entry :: setEntry key value rest

theorem mem_keys_setEntry {key key' : κ} {value : α} {entries : List (κ × α)} :
    key' ∈ (setEntry key value entries).map Prod.fst ↔ key' = key ∨ key' ∈ entries.map Prod.fst := by
  induction entries with
  | nil => simp [setEntry]
  | cons entry rest ih =>
      rw [setEntry]
      split
      · rename_i heq
        rw [List.map_cons, List.map_cons, List.mem_cons, List.mem_cons, heq]
        tauto
      · rw [List.map_cons, List.map_cons, List.mem_cons, List.mem_cons, ih]
        tauto

theorem nodup_setEntry {key : κ} {value : α} {entries : List (κ × α)}
    (h : (entries.map Prod.fst).Nodup) : ((setEntry key value entries).map Prod.fst).Nodup := by
  induction entries with
  | nil => exact List.nodup_singleton key
  | cons entry rest ih =>
      rw [List.map_cons, List.nodup_cons] at h
      rw [setEntry]
      split
      · rename_i heq
        exact List.nodup_cons.mpr ⟨heq ▸ h.1, h.2⟩
      · rename_i hne
        rw [List.map_cons, List.nodup_cons, mem_keys_setEntry, not_or]
        exact ⟨⟨hne, h.1⟩, ih h.2⟩

def set (map : JsMap κ α) (key : κ) (value : α) : JsMap κ α :=
  ⟨setEntry key value map.entries, nodup_setEntry map.distinct⟩

theorem lookup_cons (key : κ) (entry : κ × α) (rest : List (κ × α)) :
    (entry :: rest).lookup key = if key = entry.1 then some entry.2 else rest.lookup key := by
  by_cases h : key = entry.1
  · rw [List.lookup, beq_iff_eq.mpr h, if_pos h]
  · rw [List.lookup, beq_eq_false_iff_ne.mpr h, if_neg h]

@[simp] theorem get_empty (key : κ) : (empty : JsMap κ α).get key = none := rfl

theorem get_set (map : JsMap κ α) (key key' : κ) (value : α) :
    (map.set key value).get key' = if key' = key then some value else map.get key' := by
  obtain ⟨entries, hdistinct⟩ := map
  change (setEntry key value entries).lookup key' = if key' = key then some value else entries.lookup key'
  clear hdistinct
  induction entries with
  | nil => rw [setEntry, lookup_cons]
  | cons entry rest ih =>
      rw [setEntry]
      by_cases hentry : entry.1 = key
      · rw [if_pos hentry, lookup_cons, lookup_cons, hentry]
        by_cases h : key' = key
        · rw [if_pos h, if_pos h]
        · rw [if_neg h, if_neg h, if_neg h]
      · rw [if_neg hentry, lookup_cons, lookup_cons, ih]
        by_cases h : key' = entry.1
        · rw [if_pos h, if_pos h, if_neg (h ▸ hentry)]
        · rw [if_neg h, if_neg h]

/-- An entry is found by its key, which no other entry has. -/
theorem get_eq_some_of_mem {map : JsMap κ α} {key : κ} {value : α} (h : (key, value) ∈ map.entries) :
    map.get key = some value := by
  obtain ⟨entries, hdistinct⟩ := map
  change entries.lookup key = some value
  induction entries with
  | nil => exact absurd h List.not_mem_nil
  | cons entry rest ih =>
      rw [List.map_cons, List.nodup_cons] at hdistinct
      rcases List.mem_cons.mp h with rfl | hrest
      · rw [lookup_cons, if_pos rfl]
      · have hne : key ≠ entry.1 := by
          rintro rfl
          exact hdistinct.1 (List.mem_map.mpr ⟨_, hrest, rfl⟩)
        rw [lookup_cons, if_neg hne]
        exact ih hdistinct.2 hrest

theorem mem_of_get_eq_some {map : JsMap κ α} {key : κ} {value : α} (h : map.get key = some value) :
    (key, value) ∈ map.entries := by
  obtain ⟨rest, rest', hentries, _⟩ := List.lookup_eq_some_iff.mp h
  rw [hentries]
  exact List.mem_append_right _ List.mem_cons_self

/-! ### Entries set one after the other -/

def setAll (map : JsMap κ α) (entries : List (κ × α)) : JsMap κ α :=
  entries.foldl (fun map entry => map.set entry.1 entry.2) map

/-- A key that was set has the value of one of its entries. -/
theorem exists_get_setAll {entries : List (κ × α)} {key : κ} (h : key ∈ entries.map Prod.fst)
    (map : JsMap κ α) : ∃ value, (key, value) ∈ entries ∧ (map.setAll entries).get key = some value := by
  induction entries using List.reverseRecOn with
  | nil => exact absurd h List.not_mem_nil
  | append_singleton init entry ih =>
      rw [setAll, List.foldl_append, List.foldl_cons, List.foldl_nil, get_set]
      by_cases hentry : key = entry.1
      · rw [if_pos hentry, hentry]
        exact ⟨entry.2, List.mem_append_right _ List.mem_cons_self, rfl⟩
      · rw [if_neg hentry]
        rw [List.map_append, List.mem_append, List.map_singleton, List.mem_singleton,
          or_iff_left hentry] at h
        obtain ⟨value, hmem, hget⟩ := ih h
        exact ⟨value, List.mem_append_left _ hmem, hget⟩

/-- A key that was not set has the value it had. -/
theorem get_setAll_of_not_mem {entries : List (κ × α)} {key : κ} (h : key ∉ entries.map Prod.fst)
    (map : JsMap κ α) : (map.setAll entries).get key = map.get key := by
  induction entries generalizing map with
  | nil => rfl
  | cons entry rest ih =>
      rw [List.map_cons, List.mem_cons, not_or] at h
      exact (ih h.2 _).trans ((get_set map entry.1 key entry.2).trans (if_neg h.1))

end JsMap

end DynamicAmm.Js
