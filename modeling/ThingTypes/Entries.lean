/-
  Ordered maps: lists of entries with distinct keys, in the order in which the keys first came.
  Inserting under a key that is present replaces its value and keeps its place. `Entries` holds
  the operations on plain entry lists, which JSON objects use; `OrderedMap` adds the invariant.
-/

namespace ThingTypes

universe u v
variable {κ : Type u} {α : Type v} [DecidableEq κ]

namespace Entries

/-- Replaces the value of `key` in its place, or appends a new entry. -/
def insert (key : κ) (value : α) : List (κ × α) → List (κ × α)
  | [] => [(key, value)]
  | (k, a) :: rest =>
    if k = key then (k, value) :: rest else (k, a) :: insert key value rest

def get? (key : κ) : List (κ × α) → Option α
  | [] => none
  | (k, a) :: rest => if k = key then some a else get? key rest

/-- Removes `key`; the last entry takes its place. -/
def swapRemove (key : κ) : List (κ × α) → List (κ × α)
  | [] => []
  | (k, a) :: rest =>
    if k = key then
      match rest.getLast? with
      | none => []
      | some last => last :: rest.dropLast
    else (k, a) :: swapRemove key rest

theorem keys_insert (key : κ) (value : α) (l : List (κ × α)) :
    (insert key value l).map Prod.fst =
      if key ∈ l.map Prod.fst then l.map Prod.fst else l.map Prod.fst ++ [key] := by
  induction l with
  | nil => simp [insert]
  | cons e l ih =>
    obtain ⟨k, a⟩ := e
    by_cases h : k = key
    · simp [insert, h]
    · have h' : ¬ key = k := fun e => h e.symm
      simp only [insert, h, if_false, List.map_cons, ih, List.mem_cons, h', false_or]
      split <;> simp

theorem nodup_keys_insert (key : κ) (value : α) {l : List (κ × α)}
    (h : (l.map Prod.fst).Nodup) : ((insert key value l).map Prod.fst).Nodup := by
  rw [keys_insert]
  split
  · exact h
  · rename_i hk
    rw [List.nodup_append]
    refine ⟨h, by simp, ?_⟩
    intro a ha b hb
    rw [List.mem_singleton] at hb
    subst hb
    exact fun e => hk (e ▸ ha)

end Entries

/-- A map that remembers the order in which its keys first came. -/
structure OrderedMap (κ : Type u) (α : Type v) where
  entries : List (κ × α) := []
  /-- No key occurs twice. -/
  nodup : (entries.map Prod.fst).Nodup := by exact List.nodup_nil

namespace OrderedMap

instance : EmptyCollection (OrderedMap κ α) where
  emptyCollection := {}

instance : Inhabited (OrderedMap κ α) where
  default := ∅

/-- Replaces the value of `key` in its place, or appends a new entry. -/
def insert (m : OrderedMap κ α) (key : κ) (value : α) : OrderedMap κ α where
  entries := Entries.insert key value m.entries
  nodup := Entries.nodup_keys_insert key value m.nodup

def get? (m : OrderedMap κ α) (key : κ) : Option α :=
  Entries.get? key m.entries

def contains (m : OrderedMap κ α) (key : κ) : Bool :=
  (m.get? key).isSome

/-- Changes the value of `key`, if it has one. -/
def modify (m : OrderedMap κ α) (key : κ) (f : α → α) : OrderedMap κ α where
  entries := m.entries.map fun (k, a) => (k, if k = key then f a else a)
  nodup := by
    have h : (m.entries.map fun (k, a) => (k, if k = key then f a else a)).map Prod.fst
        = m.entries.map Prod.fst := by
      rw [List.map_map]
      rfl
    rw [h]
    exact m.nodup

/-- Inserts the entries one after the other. -/
def insertAll (m : OrderedMap κ α) (l : List (κ × α)) : OrderedMap κ α :=
  l.foldl (fun m e => m.insert e.1 e.2) m

def ofList (l : List (κ × α)) : OrderedMap κ α :=
  insertAll ∅ l

def keys (m : OrderedMap κ α) : List κ :=
  m.entries.map Prod.fst

def values (m : OrderedMap κ α) : List α :=
  m.entries.map Prod.snd

def size (m : OrderedMap κ α) : Nat :=
  m.entries.length

def isEmpty (m : OrderedMap κ α) : Bool :=
  m.entries.isEmpty

end OrderedMap

end ThingTypes
