import ThingTypes.Proofs.Json.Text
import ThingTypes.Proofs.OrderedMap
import Mathlib.Data.List.Perm.Basic

/-
  Sorting the members of objects. Sorting moves members and loses none, it leaves what look-up finds
  as it is, and it does not depend on the order the members came in as long as no two of one key
  change places.
-/

namespace ThingTypes

universe u
variable {α : Type u}

theorem insertSorted_perm (le : α → α → Bool) (a : α) (l : List α) :
    (insertSorted le a l).Perm (a :: l) := by
  induction l with
  | nil => exact .refl _
  | cons b l ih =>
    rw [insertSorted]
    split
    · exact .refl _
    · exact (ih.cons b).trans (.swap a b l)

theorem sortBy_perm (le : α → α → Bool) (l : List α) : (sortBy le l).Perm l := by
  induction l with
  | nil => exact .refl _
  | cons a l ih => exact (insertSorted_perm le a _).trans (ih.cons a)

namespace Json

theorem sortedItems_eq (items : List Json) : sortedItems items = items.map sorted := by
  induction items with
  | nil => rw [sortedItems, List.map_nil]
  | cons j items ih => rw [sortedItems, ih, List.map_cons]

theorem sortedMembers_eq (members : List (String × Json)) :
    sortedMembers members = members.map fun m => (m.1, m.2.sorted) := by
  induction members with
  | nil => rw [sortedMembers, List.map_nil]
  | cons m members ih => rw [sortedMembers, ih, List.map_cons]

/-! ## Look-up -/

theorem get?_insertSorted (key : String) (m : String × Json) (l : List (String × Json)) :
    Entries.get? key (insertSorted memberLE m l) = Entries.get? key (m :: l) := by
  induction l with
  | nil => rfl
  | cons e l ih =>
    rw [insertSorted]
    split
    · rfl
    · rename_i hle
      have hne : m.1 ≠ e.1 := by
        intro heq
        rw [memberLE, textLE, heq] at hle
        simp at hle
      obtain ⟨k, j⟩ := m
      obtain ⟨k', j'⟩ := e
      simp only [Entries.get?] at ih ⊢
      rw [ih]
      by_cases hk : k = key
      · subst hk
        simp [Ne.symm hne]
      · simp [hk]

theorem get?_sortBy (key : String) (l : List (String × Json)) :
    Entries.get? key (sortBy memberLE l) = Entries.get? key l := by
  induction l with
  | nil => rfl
  | cons m l ih =>
    change Entries.get? key (insertSorted memberLE m (sortBy memberLE l)) = _
    obtain ⟨k, j⟩ := m
    rw [get?_insertSorted, Entries.get?, Entries.get?, ih]

theorem get?_sorted (j : Json) (key : String) : j.sorted.get? key = (j.get? key).map sorted := by
  cases j with
  | object members =>
    rw [sorted, sortedMembers_eq]
    simp only [get?, members?, Option.bind_some]
    rw [get?_sortBy, Entries.get?_map]
  | _ => simp only [sorted, get?, members?, Option.bind_none, Option.map_none]

theorem sorted_strings (l : List String) : (strings l).sorted = strings l := by
  rw [strings, sorted, sortedItems_eq, List.map_map]
  rfl

theorem eq_strings_of_sorted {values : List Json} {keys : List String}
    (h : values.map sorted = (keys.map string).map sorted) :
    values = keys.map string := by
  induction keys generalizing values with
  | nil => simpa using h
  | cons key keys ih =>
    cases values with
    | nil => simp at h
    | cons value values =>
      simp only [List.map_cons, List.cons.injEq] at h
      have hvalue : value = string key := by
        cases value <;> simp_all [sorted]
      rw [hvalue, ih h.2, List.map_cons]

/-- The members of objects that are equal once sorted are the same, up to order and the order
within. -/
theorem members_perm_of_sorted_eq {l m : List (String × Json)}
    (h : (object l).sorted = (object m).sorted) :
    (l.map fun e => (e.1, e.2.sorted)).Perm (m.map fun e => (e.1, e.2.sorted)) := by
  rw [sorted, sorted, object.injEq, sortedMembers_eq, sortedMembers_eq] at h
  exact (sortBy_perm memberLE _).symm.trans (h ▸ sortBy_perm memberLE _)

/-! ## Length -/

theorem length_render_le_of_mem_items {j : Json} {items : List Json} (h : j ∈ items) :
    j.render.length ≤ (renderItems items).length := by
  induction items with
  | nil => cases h
  | cons k rest ih =>
    have hrest : (renderItems rest).length ≤ (renderItems (k :: rest)).length := by
      cases rest with
      | nil => exact Nat.zero_le _
      | cons k' rest =>
        rw [renderItems, List.length_append, List.length_cons]
        omega
    rcases List.mem_cons.mp h with rfl | h
    · cases rest with
      | nil => rw [renderItems]
      | cons k' rest =>
        rw [renderItems, List.length_append]
        exact Nat.le_add_right _ _
    · exact (ih h).trans hrest

theorem length_render_le_of_mem_members {key : String} {j : Json} {members : List (String × Json)}
    (h : (key, j) ∈ members) : j.render.length ≤ (renderMembers members).length := by
  induction members with
  | nil => cases h
  | cons m rest ih =>
    obtain ⟨key', k⟩ := m
    have hboth : k.render.length ≤ (renderMembers ((key', k) :: rest)).length ∧
        (renderMembers rest).length ≤ (renderMembers ((key', k) :: rest)).length := by
      cases rest with
      | nil =>
        simp only [renderMembers, List.length_append, List.length_cons, List.length_nil]
        omega
      | cons m rest =>
        simp only [renderMembers, List.length_append, List.length_cons]
        omega
    rcases List.mem_cons.mp h with h | h
    · cases h
      exact hboth.1
    · exact (ih h).trans hboth.2

/-- The canonical text of a value is longer than that of any part. -/
def weight (j : Json) : ℕ := j.sorted.render.length

theorem weight_lt_of_item {j : Json} {items : List Json} (h : j ∈ items) :
    j.weight < (array items).weight := by
  have hmem : j.sorted ∈ items.map sorted := List.mem_map_of_mem h
  have hlength := length_render_le_of_mem_items hmem
  rw [weight, weight, sorted, sortedItems_eq, render, List.length_cons, List.length_append]
  omega

theorem weight_lt_of_member {key : String} {j : Json} {members : List (String × Json)}
    (h : (key, j) ∈ members) : j.weight < (object members).weight := by
  have hmem : (key, j.sorted) ∈ sortBy memberLE (members.map fun m => (m.1, m.2.sorted)) :=
    (sortBy_perm memberLE _).mem_iff.mpr (List.mem_map.mpr ⟨_, h, rfl⟩)
  have hlength := length_render_le_of_mem_members hmem
  rw [weight, weight, sorted, sortedMembers_eq, render, List.length_cons, List.length_append]
  omega

end Json

end ThingTypes
