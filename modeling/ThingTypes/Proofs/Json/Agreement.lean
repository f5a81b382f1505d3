import ThingTypes.Proofs.Json.Parts
import ThingTypes.Proofs.Json.Sorted
import Mathlib.Data.List.Sort
import Mathlib.Data.String.Basic

/-
  Values that agree: they differ in the order of object members at most. Where no key comes twice,
  values agree exactly when they are equal once sorted, which is what canonical texts compare.
-/

namespace ThingTypes

/-! ## Sorted lists -/

theorem textLE_iff {a b : String} : textLE a b = true ↔ a ≤ b := by
  rw [textLE, Bool.not_eq_true', decide_eq_false_iff_not, not_lt]

section SortedByKey

variable {α β : Type*} [LinearOrder β] {le : α → α → Bool} (key : α → β)

theorem pairwise_insertSorted (hle : ∀ a b, le a b = true ↔ key a ≤ key b) (a : α) {l : List α}
    (h : l.Pairwise fun a b => key a ≤ key b) :
    (insertSorted le a l).Pairwise fun a b => key a ≤ key b := by
  induction l with
  | nil => simp [insertSorted]
  | cons b l ih =>
    have hl := List.pairwise_cons.mp h
    rw [insertSorted]
    split_ifs with hab
    · have hab : key a ≤ key b := (hle a b).mp hab
      refine List.pairwise_cons.mpr ⟨fun c hc => ?_, h⟩
      rcases List.mem_cons.mp hc with rfl | hc
      · exact hab
      · exact hab.trans (hl.1 c hc)
    · have hba : key b ≤ key a :=
        (le_total (key b) (key a)).resolve_right fun h => hab ((hle a b).mpr h)
      refine List.pairwise_cons.mpr ⟨fun c hc => ?_, ih hl.2⟩
      rcases List.mem_cons.mp ((insertSorted_perm le a l).mem_iff.mp hc) with rfl | hc
      · exact hba
      · exact hl.1 c hc

theorem pairwise_sortBy (hle : ∀ a b, le a b = true ↔ key a ≤ key b) (l : List α) :
    (sortBy le l).Pairwise fun a b => key a ≤ key b := by
  induction l with
  | nil => exact .nil
  | cons a l ih => exact pairwise_insertSorted key hle a ih

/-- Where keys are distinct there is one sorted order. -/
theorem sortBy_eq_of_perm (hle : ∀ a b, le a b = true ↔ key a ≤ key b) {l m : List α}
    (hkey : ∀ a ∈ l, ∀ b ∈ l, key a = key b → a = b) (h : l.Perm m) :
    sortBy le l = sortBy le m := by
  have hperm : (sortBy le l).Perm (sortBy le m) :=
    ((sortBy_perm le l).trans h).trans (sortBy_perm le m).symm
  refine hperm.eq_of_pairwise (fun a b ha hb hab hba => ?_) (pairwise_sortBy key hle l)
    (pairwise_sortBy key hle m)
  have ha' : a ∈ l := (sortBy_perm le l).mem_iff.mp ha
  have hb' : b ∈ l := h.mem_iff.mpr ((sortBy_perm le m).mem_iff.mp hb)
  exact hkey a ha' b hb' (le_antisymm hab hba)

end SortedByKey

/-- Texts in order are the same exactly if the texts are. -/
theorem sortBy_textLE_eq_iff {l m : List String} :
    sortBy textLE l = sortBy textLE m ↔ l.Perm m := by
  constructor
  · intro h
    exact ((sortBy_perm textLE l).symm.trans (h ▸ .refl _)).trans (sortBy_perm textLE m)
  · intro h
    exact sortBy_eq_of_perm id (fun _ _ => textLE_iff) (fun _ _ _ _ heq => heq) h

/-- Relations that agree on the elements of two lists relate the lists alike. -/
theorem forall₂_congr_mem {α β : Type*} {R S : α → β → Prop} {l : List α} {m : List β}
    (h : ∀ a ∈ l, ∀ b ∈ m, (R a b ↔ S a b)) : List.Forall₂ R l m ↔ List.Forall₂ S l m := by
  rw [List.forall₂_iff_zip, List.forall₂_iff_zip]
  refine and_congr_right fun _ => forall₂_congr fun a b => forall_congr' fun hab => ?_
  exact h a (List.of_mem_zip hab).1 b (List.of_mem_zip hab).2

theorem rel_congr_mem {α β : Type*} {R S : α → β → Prop} {a? : Option α} {b? : Option β}
    (h : ∀ a, a? = some a → ∀ b, b? = some b → (R a b ↔ S a b)) :
    Option.Rel R a? b? ↔ Option.Rel S a? b? := by
  cases a? <;> cases b? <;> simp_all

/-- Entries with distinct keys are the same under a map of values, up to order, exactly when they
are so key by key. -/
theorem map_perm_iff {κ α β : Type*} [DecidableEq κ] {f : α → β} {l m : List (κ × α)}
    (hl : (l.map Prod.fst).Nodup) (hm : (m.map Prod.fst).Nodup) :
    (l.map fun e => (e.1, f e.2)).Perm (m.map fun e => (e.1, f e.2)) ↔
      (l.map Prod.fst).Perm (m.map Prod.fst) ∧
        ∀ e ∈ l, ∃ a, Entries.get? e.1 m = some a ∧ f e.2 = f a := by
  constructor
  · intro h
    have hkeys := h.map Prod.fst
    rw [List.map_map, List.map_map] at hkeys
    refine ⟨hkeys, fun e he => ?_⟩
    obtain ⟨e', he', hsame⟩ := List.mem_map.mp (h.mem_iff.mp (List.mem_map_of_mem he))
    obtain ⟨hkey, hvalue⟩ := Prod.mk.inj hsame
    exact ⟨e'.2, hkey ▸ Entries.get?_of_mem hm he', hvalue.symm⟩
  · rintro ⟨hkeys, hvalues⟩
    have hnodup : (l.map fun e => (e.1, f e.2)).Nodup := by
      refine List.Nodup.of_map Prod.fst ?_
      simpa [Function.comp_def] using hl
    have hsub : (l.map fun e => (e.1, f e.2)) ⊆ m.map fun e => (e.1, f e.2) := by
      intro e' he'
      obtain ⟨e, he, rfl⟩ := List.mem_map.mp he'
      obtain ⟨a, ha, hsame⟩ := hvalues e he
      exact List.mem_map.mpr ⟨(e.1, a), Entries.mem_of_get? ha, by rw [hsame]⟩
    refine (List.subperm_of_subset hnodup hsub).perm_of_length_le ?_
    simpa using hkeys.length_eq.ge

namespace Json

theorem memberLE_iff (a b : String × Json) : memberLE a b = true ↔ a.1 ≤ b.1 :=
  textLE_iff

/-! ## Agreement -/

mutual

/-- Equal up to the order of object members. -/
def Agrees : Json → Json → Prop
  | array items, array items' => itemsAgree items items'
  | object members, object members' =>
    (members.map Prod.fst).Perm (members'.map Prod.fst) ∧ membersAgree members members'
  | j, k => j = k

def itemsAgree : List Json → List Json → Prop
  | [], [] => True
  | j :: rest, k :: rest' => Agrees j k ∧ itemsAgree rest rest'
  | _, _ => False

/-- Each member agrees with the one of its key. -/
def membersAgree : List (String × Json) → List (String × Json) → Prop
  | [], _ => True
  | (key, j) :: rest, members =>
    (∃ k, Entries.get? key members = some k ∧ Agrees j k) ∧ membersAgree rest members

end

theorem itemsAgree_iff {l m : List Json} : itemsAgree l m ↔ List.Forall₂ Agrees l m := by
  induction l generalizing m with
  | nil => cases m <;> simp [itemsAgree]
  | cons j l ih => cases m <;> simp [itemsAgree, ih]

theorem membersAgree_iff {l m : List (String × Json)} :
    membersAgree l m ↔ ∀ e ∈ l, ∃ k, Entries.get? e.1 m = some k ∧ e.2.Agrees k := by
  induction l with
  | nil => simp [membersAgree]
  | cons e l ih => simp [membersAgree, ih]

theorem sorted_array_eq_iff {l m : List Json} :
    (array l).sorted = (array m).sorted ↔ l.map sorted = m.map sorted := by
  rw [sorted, sorted, array.injEq, sortedItems_eq, sortedItems_eq]

theorem sorted_object_eq_iff {l m : List (String × Json)} (hl : (l.map Prod.fst).Nodup) :
    (object l).sorted = (object m).sorted ↔
      (l.map fun e => (e.1, e.2.sorted)).Perm (m.map fun e => (e.1, e.2.sorted)) := by
  refine ⟨members_perm_of_sorted_eq, fun h => ?_⟩
  have hkeys : ((l.map fun e => (e.1, e.2.sorted)).map Prod.fst).Nodup := by
    simpa [Function.comp_def] using hl
  rw [sorted, sorted, sortedMembers_eq, sortedMembers_eq,
    sortBy_eq_of_perm Prod.fst memberLE_iff
      (fun _ ha _ hb => List.inj_on_of_nodup_map hkeys ha hb) h]

/-- Values agree exactly when they are equal once sorted. -/
theorem sorted_eq_iff_agrees {j k : Json} (hj : j.hasDistinctKeys) (hk : k.hasDistinctKeys) :
    j.sorted = k.sorted ↔ j.Agrees k := by
  induction j using byParts generalizing k with
  | step j ih =>
    obtain ⟨hkeys, hparts⟩ := hasDistinctKeys_iff.mp hj
    obtain ⟨hkeys', hparts'⟩ := hasDistinctKeys_iff.mp hk
    cases j with
    | array items =>
      cases k with
      | array items' =>
        rw [sorted_array_eq_iff, Agrees, itemsAgree_iff, map_eq_map_iff_forall₂]
        exact forall₂_congr_mem fun item hitem item' hitem' =>
          ih item hitem (hparts item hitem) (hparts' item' hitem')
      | _ => simp [sorted, Agrees]
    | object members =>
      cases k with
      | object members' =>
        rw [sorted_object_eq_iff hkeys, map_perm_iff hkeys hkeys', Agrees, membersAgree_iff]
        refine and_congr_right fun _ => forall₂_congr fun e he => exists_congr fun value =>
          and_congr_right fun hvalue => ?_
        exact ih e.2 (List.mem_map_of_mem he) (hparts _ (List.mem_map_of_mem he))
          (hparts' _ (List.mem_map_of_mem (Entries.mem_of_get? hvalue)))
      | _ => simp [sorted, Agrees]
    | _ => cases k <;> simp [sorted, Agrees]

/-- Values have one canonical text exactly if they differ in the order of object members at
most. -/
theorem canonical_eq_iff_agrees {j k : Json} (hj : j.hasDistinctKeys) (hk : k.hasDistinctKeys) :
    j.canonical = k.canonical ↔ j.Agrees k :=
  canonical_eq_iff.trans (sorted_eq_iff_agrees hj hk)

/-- A key that looks like the end of a member and the start of another one. -/
theorem canonical_eq_iff_agrees_quoted :
    (object [("b", int 1), ("a\":1,\"b", object [("y", bool true), ("x", null)])]).canonical =
      (object [("a\":1,\"b", object [("x", null), ("y", bool true)]), ("b", int 1)]).canonical ∧
    (object [("a", int 1), ("b", int 2)]).canonical ≠
      (object [("a\":1,\"b", int 2)]).canonical := by
  constructor
  · refine (canonical_eq_iff_agrees (by decide) (by decide)).mpr ?_
    rw [Agrees, membersAgree, membersAgree, membersAgree]
    refine ⟨by decide, ⟨_, rfl, ?_⟩, ⟨_, rfl, ?_⟩, trivial⟩
    · simp [int, Agrees]
    · rw [Agrees, membersAgree, membersAgree, membersAgree]
      exact ⟨by decide, ⟨_, rfl, by simp [Agrees]⟩, ⟨_, rfl, by simp [Agrees]⟩, trivial⟩
  · intro h
    have hagrees := (canonical_eq_iff_agrees (by decide) (by decide)).mp h
    rw [Agrees] at hagrees
    exact absurd hagrees.1 (by decide)

end Json

end ThingTypes
