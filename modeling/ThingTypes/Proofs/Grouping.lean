import Mathlib.Data.List.Induction
import ThingTypes.Grouping
import ThingTypes.Proofs.OrderedMap

/-
  Grouped entries. The group of a category holds the entries of the category in their order, and
  there is a group for each category that comes up, where it first does. No entry is lost, and none
  is in two groups.
-/

namespace ThingTypes.CategoryGroups

universe u

variable {α : Type u} (categoryOf : α → Option String)

theorem ofList_concat (l : List α) (a : α) :
    ofList categoryOf (l ++ [a]) = (ofList categoryOf l).add (categoryOf a) a := by
  rw [ofList, List.foldl_append]
  rfl

theorem ungrouped_ofList (l : List α) :
    (ofList categoryOf l).ungrouped = l.filter (categoryOf · = none) := by
  induction l using List.reverseRecOn with
  | nil => rfl
  | append_singleton l a ih =>
    rw [ofList_concat, List.filter_append, ← ih]
    unfold add
    split
    · rename_i category hcategory
      simp [hcategory]
    · rename_i hnone
      simp [hnone]

theorem get?_grouped_ofList (l : List α) (category : String) :
    (ofList categoryOf l).grouped.get? category =
      if l.filter (categoryOf · = some category) = [] then none
      else some (l.filter (categoryOf · = some category)) := by
  induction l using List.reverseRecOn with
  | nil => rfl
  | append_singleton l a ih =>
    rw [ofList_concat, List.filter_append]
    unfold add
    split
    · rename_i other hother
      rw [OrderedMap.get?_insert]
      by_cases hsame : category = other
      · subst hsame
        rw [ih]
        by_cases hnil : l.filter (categoryOf · = some category) = []
        · simp [hother, hnil]
        · simp [hother, hnil]
      · have hother' : ¬other = category := fun h => hsame h.symm
        simpa [hother, hsame, hother'] using ih
    · rename_i hnone
      simpa [hnone] using ih

theorem categories_ofList (l : List α) :
    (ofList categoryOf l).categories = (l.filterMap categoryOf).eraseDups := by
  induction l using List.reverseRecOn with
  | nil => rfl
  | append_singleton l a ih =>
    rw [ofList_concat, List.filterMap_append]
    unfold add
    split
    · rename_i category hcategory
      have hgroups : (ofList categoryOf l).grouped.keys = (l.filterMap categoryOf).eraseDups := ih
      have hlast : [a].filterMap categoryOf = [category] := by simp [hcategory]
      rw [categories, OrderedMap.keys_insert, hgroups, hlast, eraseDups_concat]
      by_cases hmem : category ∈ l.filterMap categoryOf
      · rw [if_pos (List.mem_eraseDups.mpr hmem), if_pos hmem, List.append_nil]
      · rw [if_neg (List.mem_eraseDups.not.mpr hmem), if_neg hmem]
    · rename_i hnone
      have hlast : [a].filterMap categoryOf = [] := by simp [hnone]
      rw [hlast, List.append_nil]
      exact ih

/-- The groups, spelled out. -/
theorem entries_grouped_ofList (l : List α) :
    (ofList categoryOf l).grouped.entries =
      (l.filterMap categoryOf).eraseDups.map fun category =>
        (category, l.filter (categoryOf · = some category)) := by
  rw [← categories_ofList, categories, OrderedMap.keys, List.map_map]
  conv_lhs => rw [← List.map_id (ofList categoryOf l).grouped.entries]
  apply List.map_congr_left
  intro e he
  have hfound := (OrderedMap.mem_entries_iff _ e.1 e.2).mp he
  rw [get?_grouped_ofList] at hfound
  split_ifs at hfound
  exact Prod.ext rfl (Option.some.inj hfound).symm

/-- The groups of different categories, one after the other, hold what has one of the categories. -/
theorem flatMap_filter_perm {categories : List String} (hn : categories.Nodup) (l : List α) :
    (categories.flatMap fun category => l.filter (categoryOf · = some category)).Perm
      (l.filter fun a => (categoryOf a).any (· ∈ categories)) := by
  induction categories with
  | nil =>
    have hnone : (l.filter fun a => (categoryOf a).any (· ∈ ([] : List String))) = [] := by simp
    rw [hnone, List.flatMap_nil]
  | cons category categories ih =>
    obtain ⟨hnew, hn⟩ := List.nodup_cons.mp hn
    let p : α → Bool := fun a => (categoryOf a).any (· ∈ category :: categories)
    have hfirst : (l.filter p).filter (categoryOf · = some category) =
        l.filter (categoryOf · = some category) := by
      rw [List.filter_filter]
      apply List.filter_congr
      intro a _
      by_cases ha : categoryOf a = some category <;> simp [p, ha]
    have hothers : (l.filter p).filter (fun a => !decide (categoryOf a = some category)) =
        l.filter fun a => (categoryOf a).any (· ∈ categories) := by
      rw [List.filter_filter]
      apply List.filter_congr
      intro a _
      cases ha : categoryOf a with
      | none => simp [p, ha]
      | some other =>
        by_cases hsame : other = category
        · simp [p, ha, hsame, hnew]
        · simp [p, ha, hsame]
    have hparts := List.filter_append_perm (categoryOf · = some category) (l.filter p)
    rw [hfirst, hothers] at hparts
    rw [List.flatMap_cons]
    exact ((ih hn).append_left _).trans hparts

/-- Grouping keeps every entry, and keeps it once. -/
theorem groups_perm (l : List α) :
    (((l.filterMap categoryOf).eraseDups.flatMap fun category =>
        l.filter (categoryOf · = some category)) ++ l.filter (categoryOf · = none)).Perm l := by
  have hgrouped : (l.filter fun a => (categoryOf a).any (· ∈ (l.filterMap categoryOf).eraseDups)) =
      l.filter fun a => !decide (categoryOf a = none) := by
    apply List.filter_congr
    intro a ha
    cases hcategory : categoryOf a with
    | none => simp
    | some category =>
      have hmem : category ∈ l.filterMap categoryOf := List.mem_filterMap.mpr ⟨a, ha, hcategory⟩
      simpa using hmem
  have hperm := flatMap_filter_perm categoryOf (nodup_eraseDups (l.filterMap categoryOf)) l
  rw [hgrouped] at hperm
  have hall := List.filter_append_perm (categoryOf · = none) l
  exact (hperm.append_right _).trans (List.perm_append_comm.trans hall)

end ThingTypes.CategoryGroups
