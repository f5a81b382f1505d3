import Mathlib.Data.List.Basic
import Mathlib.Data.List.Induction
import ThingTypes.Entries

/-
  What look-up sees of the operations on ordered maps: inserting sets one key, changing a value
  keeps the keys, and the entries are exactly what look-up finds. Keys stand where they first
  appear, so that the first appearances in a list are what the keys of a map often are.
-/

namespace ThingTypes

universe u v w
variable {κ : Type u} {α : Type v} [DecidableEq κ]

/-! ## First appearances -/

section FirstAppearances

variable {α : Type} [DecidableEq α]

theorem eraseDups_of_nodup {l : List α} (h : l.Nodup) : l.eraseDups = l := by
  induction l with
  | nil => rfl
  | cons a l ih =>
    obtain ⟨ha, hl⟩ := List.nodup_cons.mp h
    have hothers : l.filter (fun b => !b == a) = l := by
      refine List.filter_eq_self.mpr fun b hb => ?_
      have hne : b ≠ a := fun hba => ha (hba ▸ hb)
      simpa using hne
    rw [List.eraseDups_cons, hothers, ih hl]

theorem eraseDups_filter (p : α → Bool) (l : List α) :
    (l.filter p).eraseDups = l.eraseDups.filter p := by
  induction hn : l.length using Nat.strongRecOn generalizing l with
  | ind n ih =>
    cases l with
    | nil => rfl
    | cons a l =>
      subst hn
      have hshorter : (l.filter fun b => !b == a).length < (a :: l).length :=
        Nat.lt_succ_of_le (List.length_filter_le _ _)
      rw [List.eraseDups_cons]
      by_cases ha : p a
      · rw [List.filter_cons_of_pos ha, List.filter_cons_of_pos ha, List.eraseDups_cons,
          ← ih _ hshorter _ rfl, List.filter_filter, List.filter_filter]
        simp only [Bool.and_comm]
      · rw [List.filter_cons_of_neg ha, List.filter_cons_of_neg ha, ← ih _ hshorter _ rfl,
          List.filter_filter]
        refine congrArg List.eraseDups (List.filter_congr fun b _ => ?_)
        by_cases hb : b = a
        · subst hb
          simp [ha]
        · simp [hb]

/-- What is in front pushes later appearances out. -/
theorem eraseDups_append_of_nodup {l : List α} (h : l.Nodup) (l' : List α) :
    (l ++ l').eraseDups = l ++ l'.eraseDups.filter (· ∉ l) := by
  have hremove : l'.removeAll l = l'.filter (· ∉ l) :=
    List.filter_congr fun a _ => by simp
  rw [List.eraseDups_append, eraseDups_of_nodup h, hremove, eraseDups_filter]

theorem eraseDups_concat (l : List α) (a : α) :
    (l ++ [a]).eraseDups = l.eraseDups ++ if a ∈ l then [] else [a] := by
  rw [List.eraseDups_append]
  congr 1
  by_cases h : a ∈ l <;> simp [List.removeAll, List.eraseDups_cons, h]

theorem nodup_eraseDups (l : List α) : l.eraseDups.Nodup := by
  induction l using List.reverseRecOn with
  | nil => exact .nil
  | append_singleton l a ih =>
    rw [eraseDups_concat]
    split
    · rwa [List.append_nil]
    · rename_i h
      refine List.nodup_append.mpr ⟨ih, List.pairwise_singleton _ a, ?_⟩
      intro b hb c hc hbc
      obtain rfl := List.mem_singleton.mp hc
      exact h (List.mem_eraseDups.mp (hbc ▸ hb))

end FirstAppearances

namespace Entries

theorem get?_insert (k key : κ) (value : α) (l : List (κ × α)) :
    get? k (insert key value l) = if k = key then some value else get? k l := by
  induction l with
  | nil => simp [insert, get?, eq_comm]
  | cons e l ih =>
    obtain ⟨k', a⟩ := e
    by_cases h : k' = key
    · subst h
      by_cases hk : k = k'
      · simp [insert, get?, hk]
      · simp [insert, get?, hk, Ne.symm hk]
    · by_cases hk : k' = k
      · subst hk
        simp [insert, get?, h]
      · simp only [insert, h, if_false, get?, hk, ih]

theorem get?_eq_none_iff {k : κ} {l : List (κ × α)} :
    get? k l = none ↔ k ∉ l.map Prod.fst := by
  induction l with
  | nil => simp [get?]
  | cons e l ih =>
    obtain ⟨k', a⟩ := e
    by_cases h : k' = k
    · simp [get?, h]
    · simp [get?, h, ih, Ne.symm h]

theorem mem_of_get? {k : κ} {a : α} {l : List (κ × α)} (h : get? k l = some a) : (k, a) ∈ l := by
  induction l with
  | nil => simp [get?] at h
  | cons e l ih =>
    obtain ⟨k', b⟩ := e
    by_cases hk : k' = k
    · simp only [get?, hk, if_true, Option.some.injEq] at h
      simp [hk, h]
    · simp only [get?, hk, if_false] at h
      exact List.mem_cons_of_mem _ (ih h)

theorem get?_of_mem {k : κ} {a : α} {l : List (κ × α)} (hn : (l.map Prod.fst).Nodup)
    (h : (k, a) ∈ l) : get? k l = some a := by
  induction l with
  | nil => simp at h
  | cons e l ih =>
    obtain ⟨k', b⟩ := e
    rw [List.map_cons, List.nodup_cons] at hn
    rcases List.mem_cons.mp h with h | h
    · cases h
      simp [get?]
    · have hk : k' ≠ k := by
        rintro rfl
        exact hn.1 (List.mem_map.mpr ⟨_, h, rfl⟩)
      simp only [get?, hk, if_false]
      exact ih hn.2 h

theorem get?_mapKeyed {β : Type w} (f : κ → α → β) (k : κ) (l : List (κ × α)) :
    get? k (l.map fun e => (e.1, f e.1 e.2)) = (get? k l).map (f k) := by
  induction l with
  | nil => rfl
  | cons e l ih =>
    obtain ⟨k', a⟩ := e
    by_cases h : k' = k
    · subst h
      simp [get?]
    · simp [get?, h, ih]

theorem get?_map {β : Type w} (f : α → β) (k : κ) (l : List (κ × α)) :
    get? k (l.map fun e => (e.1, f e.2)) = (get? k l).map f :=
  get?_mapKeyed (fun _ => f) k l

theorem get?_modify (k key : κ) (f : α → α) (l : List (κ × α)) :
    get? k (l.map fun (k, a) => (k, if k = key then f a else a)) =
      (get? k l).map fun a => if k = key then f a else a :=
  get?_mapKeyed (fun k a => if k = key then f a else a) k l

theorem get?_append (k : κ) (l m : List (κ × α)) :
    get? k (l ++ m) = (get? k l).or (get? k m) := by
  induction l with
  | nil => rfl
  | cons e l ih =>
    obtain ⟨k', a⟩ := e
    by_cases h : k' = k
    · simp [get?, h]
    · simp [get?, h, ih]

theorem mem_of_mem_insert {key : κ} {value : α} {l : List (κ × α)} {e : κ × α}
    (h : e ∈ insert key value l) : e = (key, value) ∨ e ∈ l := by
  induction l with
  | nil => exact .inl (List.mem_singleton.mp h)
  | cons e' l ih =>
    obtain ⟨k, a⟩ := e'
    unfold insert at h
    split_ifs at h with hk
    · rcases List.mem_cons.mp h with rfl | h
      · exact .inl (by rw [hk])
      · exact .inr (List.mem_cons_of_mem _ h)
    · rcases List.mem_cons.mp h with rfl | h
      · exact .inr List.mem_cons_self
      · exact (ih h).imp_right (List.mem_cons_of_mem _)

/-- The value of a key that is present once is replaced in its place. -/
theorem insert_eq_map {key : κ} (value : α) {l : List (κ × α)} (hn : (l.map Prod.fst).Nodup)
    (hkey : key ∈ l.map Prod.fst) :
    insert key value l = l.map fun e => (e.1, if e.1 = key then value else e.2) := by
  induction l with
  | nil => simp at hkey
  | cons e l ih =>
    obtain ⟨k, a⟩ := e
    rw [List.map_cons, List.nodup_cons] at hn
    rw [insert, List.map_cons]
    split_ifs with hk
    · subst hk
      have hrest : l = l.map fun e => (e.1, if e.1 = k then value else e.2) := by
        refine (List.map_id l).symm.trans (List.map_congr_left fun e he => ?_)
        have hne : e.1 ≠ k := fun h => hn.1 (List.mem_map.mpr ⟨e, he, h⟩)
        simp [hne]
      rw [← hrest]
    · rw [List.map_cons, List.mem_cons] at hkey
      rw [ih hn.2 (hkey.resolve_left (Ne.symm hk))]

/-- Look-up does not depend on the order of entries with distinct keys. -/
theorem get?_eq_of_perm {l m : List (κ × α)} (hn : (l.map Prod.fst).Nodup) (h : l.Perm m) (k : κ) :
    get? k l = get? k m := by
  have hn' : (m.map Prod.fst).Nodup := (h.map Prod.fst).nodup_iff.mp hn
  exact Option.ext fun a => ⟨fun hl => get?_of_mem hn' (h.mem_iff.mp (mem_of_get? hl)),
    fun hm => get?_of_mem hn (h.mem_iff.mpr (mem_of_get? hm))⟩

theorem getLast?_append_dropLast_perm {β : Type w} (l : List β) :
    (l.getLast?.toList ++ l.dropLast).Perm l := by
  rcases List.eq_nil_or_concat' l with rfl | ⟨front, last, rfl⟩
  · exact .refl _
  · simpa using (List.perm_append_singleton last front).symm

theorem swapRemove_cons_self (key : κ) (value : α) (l : List (κ × α)) :
    swapRemove key ((key, value) :: l) = l.getLast?.toList ++ l.dropLast := by
  rw [swapRemove, if_pos rfl]
  rcases List.eq_nil_or_concat' l with rfl | ⟨front, last, rfl⟩ <;> simp

/-- Removing a key moves the last entry into its place. -/
theorem swapRemove_append_cons {key : κ} {before : List (κ × α)} (hkey : key ∉ before.map Prod.fst)
    (value : α) (after : List (κ × α)) :
    swapRemove key (before ++ (key, value) :: after) =
      before ++ (after.getLast?.toList ++ after.dropLast) := by
  induction before with
  | nil => exact swapRemove_cons_self key value after
  | cons e before ih =>
    rw [List.map_cons, List.mem_cons, not_or] at hkey
    rw [List.cons_append, List.cons_append, swapRemove, if_neg (Ne.symm hkey.1), ih hkey.2]

/-- Removing a key leaves the other entries, in some order. -/
theorem swapRemove_perm (key : κ) (l : List (κ × α)) :
    (swapRemove key l).Perm (l.eraseP fun e => e.1 = key) := by
  induction l with
  | nil => exact .refl _
  | cons e l ih =>
    obtain ⟨k, a⟩ := e
    by_cases hk : k = key
    · subst hk
      rw [swapRemove_cons_self, List.eraseP_cons_of_pos (by simp)]
      exact getLast?_append_dropLast_perm l
    · rw [swapRemove, if_neg hk, List.eraseP_cons_of_neg (by simpa using hk)]
      exact ih.cons _

theorem nodup_keys_swapRemove (key : κ) {l : List (κ × α)} (h : (l.map Prod.fst).Nodup) :
    ((swapRemove key l).map Prod.fst).Nodup :=
  ((swapRemove_perm key l).map Prod.fst).nodup_iff.mpr
    (h.sublist (List.eraseP_sublist.map Prod.fst))

theorem get?_swapRemove {l : List (κ × α)} (hn : (l.map Prod.fst).Nodup) (k key : κ) :
    get? k (swapRemove key l) = if k = key then none else get? k l := by
  rw [get?_eq_of_perm (nodup_keys_swapRemove key hn) (swapRemove_perm key l)]
  induction l with
  | nil => simp [get?]
  | cons e l ih =>
    obtain ⟨k', a⟩ := e
    rw [List.map_cons, List.nodup_cons] at hn
    by_cases hk' : k' = key
    · rw [List.eraseP_cons_of_pos (by simpa using hk')]
      split_ifs with hk
      · rw [hk, ← hk']
        exact get?_eq_none_iff.mpr hn.1
      · have hne : ¬k' = k := fun h => hk (h.symm.trans hk')
        simp [get?, hne]
    · rw [List.eraseP_cons_of_neg (by simpa using hk'), get?, get?, ih hn.2]
      split_ifs with h h'
      · exact absurd (h.trans h') hk'
      all_goals rfl

theorem mem_of_mem_swapRemove {key : κ} {l : List (κ × α)} {e : κ × α}
    (h : e ∈ swapRemove key l) : e ∈ l :=
  List.mem_of_mem_eraseP ((swapRemove_perm key l).mem_iff.mp h)

end Entries

namespace OrderedMap

@[simp]
theorem get?_empty (k : κ) : (∅ : OrderedMap κ α).get? k = none := rfl

theorem get?_insert (m : OrderedMap κ α) (k key : κ) (value : α) :
    (m.insert key value).get? k = if k = key then some value else m.get? k :=
  Entries.get?_insert k key value m.entries

@[simp]
theorem get?_insert_self (m : OrderedMap κ α) (key : κ) (value : α) :
    (m.insert key value).get? key = some value := by
  rw [get?_insert, if_pos rfl]

theorem get?_insert_of_ne (m : OrderedMap κ α) {k key : κ} (value : α) (h : k ≠ key) :
    (m.insert key value).get? k = m.get? k := by
  rw [get?_insert, if_neg h]

theorem get?_modify (m : OrderedMap κ α) (k key : κ) (f : α → α) :
    (m.modify key f).get? k = (m.get? k).map fun a => if k = key then f a else a :=
  Entries.get?_modify k key f m.entries

theorem mem_entries_iff (m : OrderedMap κ α) (k : κ) (a : α) :
    (k, a) ∈ m.entries ↔ m.get? k = some a :=
  ⟨Entries.get?_of_mem m.nodup, Entries.mem_of_get?⟩

theorem mem_keys_iff (m : OrderedMap κ α) (k : κ) : k ∈ m.keys ↔ m.get? k ≠ none := by
  rw [Ne, get?, Entries.get?_eq_none_iff, Decidable.not_not, keys]

theorem mem_values_iff (m : OrderedMap κ α) (a : α) : a ∈ m.values ↔ ∃ k, m.get? k = some a := by
  simp only [values, List.mem_map, Prod.exists, mem_entries_iff, exists_eq_right]

/-- The keys, where each value has its own. -/
theorem map_values_eq_keys {m : OrderedMap κ α} {key : α → κ}
    (h : ∀ k a, m.get? k = some a → key a = k) : m.values.map key = m.keys := by
  rw [values, keys, List.map_map]
  exact List.map_congr_left fun e he => h e.1 e.2 ((m.mem_entries_iff e.1 e.2).mp he)

/-- Entries with distinct keys come before what the map had. -/
theorem get?_insertAll (m : OrderedMap κ α) {l : List (κ × α)} (hn : (l.map Prod.fst).Nodup)
    (k : κ) : (m.insertAll l).get? k = (Entries.get? k l).or (m.get? k) := by
  induction l generalizing m with
  | nil => rfl
  | cons e l ih =>
    obtain ⟨key, value⟩ := e
    rw [List.map_cons, List.nodup_cons] at hn
    change ((m.insert key value).insertAll l).get? k = _
    rw [ih _ hn.2, get?_insert, Entries.get?]
    by_cases h : key = k
    · subst h
      have hnone : Entries.get? key l = none := Entries.get?_eq_none_iff.mpr hn.1
      simp [hnone]
    · rw [if_neg h, if_neg (Ne.symm h)]

theorem keys_insert (m : OrderedMap κ α) (key : κ) (value : α) :
    (m.insert key value).keys = if key ∈ m.keys then m.keys else m.keys ++ [key] :=
  Entries.keys_insert key value m.entries

/-- New keys go to the end, in their order. -/
theorem keys_insertAll (m : OrderedMap κ α) {l : List (κ × α)} (hn : (l.map Prod.fst).Nodup) :
    (m.insertAll l).keys = m.keys ++ (l.map Prod.fst).filter (· ∉ m.keys) := by
  induction l generalizing m with
  | nil => simp [insertAll]
  | cons e l ih =>
    obtain ⟨key, value⟩ := e
    rw [List.map_cons, List.nodup_cons] at hn
    change ((m.insert key value).insertAll l).keys = _
    rw [ih _ hn.2, keys_insert, List.map_cons]
    by_cases hmem : key ∈ m.keys
    · rw [if_pos hmem, List.filter_cons_of_neg (by simpa using hmem)]
    · have hrest : (l.map Prod.fst).filter (· ∉ m.keys ++ [key]) =
          (l.map Prod.fst).filter (· ∉ m.keys) := by
        refine List.filter_congr fun k hk => ?_
        have hne : k ≠ key := fun h => hn.1 (h ▸ hk)
        simp [hne]
      rw [if_neg hmem, hrest, List.filter_cons_of_pos (by simpa using hmem)]
      simp

end OrderedMap

end ThingTypes
