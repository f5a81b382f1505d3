import ThingTypes.Proofs.Json.Pointer

/-
  Parts put in several places of a value at once. A place is reached by its tokens, and the tokens of
  the parts stand in document order (`steps`). Putting one part after the other comes to the same as
  putting all of them at once, as long as no place lies in another: a part that is put in one place
  changes neither the way to another place nor what stands there (`follow?_substitute`,
  `putAt?_substitute`).
-/

namespace ThingTypes

/-- Neither way is the beginning of the other. -/
def Pointer.Apart (p q : List String) : Prop :=
  ¬p <+: q ∧ ¬q <+: p

theorem Pointer.apart_cons_iff {token : String} {p q : List String} :
    Apart (token :: p) (token :: q) ↔ Apart p q := by
  simp [Apart, List.cons_prefix_cons]

namespace Json

/-! ## Steps -/

/-- The parts of a value with the tokens that lead to them, in document order. -/
def steps : Json → List (String × Json)
  | object members => members
  | array items => items.zipIdx.map fun e => (toString e.2, e.1)
  | _ => []

variable {j : Json} {token : String} {part : Json}

theorem nodup_steps (hj : j.hasDistinctKeys) : (j.steps.map Prod.fst).Nodup := by
  cases j with
  | object members => exact (hasDistinctKeys_iff.mp hj).1
  | array items =>
    have htokens : (array items).steps.map Prod.fst = (List.range items.length).map toString := by
      rw [steps, List.map_map, List.range_eq_range', ← List.zipIdx_map_snd, List.map_map]
      rfl
    rw [htokens]
    exact List.nodup_range.map fun m n => Pointer.toString_inj.mp
  | _ => exact List.nodup_nil

theorem mem_steps_iff (hj : j.hasDistinctKeys) :
    (token, part) ∈ j.steps ↔ j.step? token = some part := by
  cases j with
  | object members => exact ⟨Entries.get?_of_mem (hasDistinctKeys_iff.mp hj).1, Entries.mem_of_get?⟩
  | array items =>
    simp only [steps, List.mem_map, Prod.exists, Prod.mk.injEq, List.mem_zipIdx_iff_getElem?, step?,
      Option.bind_eq_some_iff, Pointer.index?_eq_some_iff]
    constructor
    · rintro ⟨_, i, hi, rfl, rfl⟩
      exact ⟨i, rfl, hi⟩
    · rintro ⟨i, rfl, hi⟩
      exact ⟨part, i, hi, rfl, rfl⟩
  | _ => simp [steps, step?]

theorem map_snd_steps (j : Json) : j.steps.map Prod.snd = j.parts := by
  cases j with
  | object members => rfl
  | array items =>
    rw [steps, List.map_map, parts]
    exact List.zipIdx_map_fst 0 items
  | _ => rfl

theorem mem_parts_of_mem_steps (h : (token, part) ∈ j.steps) : part ∈ j.parts :=
  map_snd_steps j ▸ List.mem_map_of_mem h

/-- The value with each part changed, by a change that depends on the token. -/
def mapSteps (f : String → Json → Json) : Json → Json
  | object members => object (members.map fun m => (m.1, f m.1 m.2))
  | array items => array (items.mapIdx fun i j => f (toString i) j)
  | j => j

variable {f g : String → Json → Json}

theorem step?_mapSteps (f : String → Json → Json) (j : Json) (token : String) :
    (j.mapSteps f).step? token = (j.step? token).map (f token) := by
  cases j with
  | object members => exact Entries.get?_mapKeyed f token members
  | array items =>
    rw [mapSteps, step?, step?]
    cases hindex : Pointer.index? token with
    | none => rfl
    | some i =>
      obtain rfl := Pointer.index?_eq_some_iff.mp hindex
      exact List.getElem?_mapIdx
  | _ => rfl

theorem mapSteps_congr (h : ∀ token part, (token, part) ∈ j.steps → f token part = g token part) :
    j.mapSteps f = j.mapSteps g := by
  cases j with
  | object members =>
    refine congrArg object (List.map_congr_left fun m hm => ?_)
    rw [h m.1 m.2 hm]
  | array items =>
    refine congrArg array (List.mapIdx_eq_mapIdx_iff.mpr fun i hi => h _ _ ?_)
    exact List.mem_map.mpr ⟨(items[i], i), List.mem_zipIdx_iff_getElem?.mpr (by simp [hi]), rfl⟩
  | _ => rfl

theorem mapSteps_id (j : Json) : (j.mapSteps fun _ part => part) = j := by
  cases j with
  | object members => simp [mapSteps]
  | array items => exact congrArg array (List.ext_getElem? fun i => by simp)
  | _ => rfl

theorem putStep_mapSteps (hj : j.hasDistinctKeys) (hpart : j.step? token = some part)
    (changed : Json) :
    putStep token changed (j.mapSteps f) =
      j.mapSteps fun t part => if t = token then changed else f t part := by
  cases j with
  | object members =>
    have hkeys : (members.map fun m => (m.1, f m.1 m.2)).map Prod.fst = members.map Prod.fst := by
      rw [List.map_map]
      rfl
    have hmem : token ∈ members.map Prod.fst := by
      by_contra hnot
      rw [step?, Entries.get?_eq_none_iff.mpr hnot] at hpart
      cases hpart
    rw [mapSteps, putStep, Entries.insert_eq_map changed (by
      rw [hkeys]
      exact (hasDistinctKeys_iff.mp hj).1) (by rwa [hkeys]), List.map_map]
    rfl
  | array items =>
    obtain ⟨i, hi, -⟩ := Option.bind_eq_some_iff.mp hpart
    obtain rfl := Pointer.index?_eq_some_iff.mp hi
    rw [mapSteps, putStep, hi]
    refine congrArg array (List.ext_getElem? fun k => ?_)
    rw [List.getElem?_set, List.getElem?_mapIdx, List.getElem?_mapIdx]
    by_cases hk : i = k
    · subst hk
      by_cases hi : i < items.length <;> simp [hi]
    · simp only [hk, if_false, Pointer.toString_inj, Ne.symm hk]
  | _ => cases hpart

/-! ## Substitution -/

mutual

/-- The value with parts put at the ends of tokens. Inside a part that is put in, nothing is looked
at. -/
def substitute (parts : List String → Option Json) : Json → Json
  | object members => (parts []).getD (object (substituteInMembers parts members))
  | array items => (parts []).getD (array (substituteInItems parts 0 items))
  | j => (parts []).getD j

def substituteInMembers (parts : List String → Option Json) :
    List (String × Json) → List (String × Json)
  | [] => []
  | (key, j) :: rest =>
    (key, substitute (fun tokens => parts (key :: tokens)) j) :: substituteInMembers parts rest

def substituteInItems (parts : List String → Option Json) (index : Nat) : List Json → List Json
  | [] => []
  | j :: rest =>
    substitute (fun tokens => parts (toString index :: tokens)) j ::
      substituteInItems parts (index + 1) rest

end

variable {parts : List String → Option Json}

theorem substituteInMembers_eq (parts : List String → Option Json)
    (members : List (String × Json)) :
    substituteInMembers parts members =
      members.map fun m => (m.1, m.2.substitute fun tokens => parts (m.1 :: tokens)) := by
  induction members with
  | nil => rw [substituteInMembers, List.map_nil]
  | cons m members ih => rw [substituteInMembers, ih, List.map_cons]

theorem substituteInItems_eq (parts : List String → Option Json) (index : Nat) (items : List Json) :
    substituteInItems parts index items =
      items.mapIdx fun i j =>
        j.substitute fun tokens => parts (toString (index + i) :: tokens) := by
  induction items generalizing index with
  | nil => rw [substituteInItems, List.mapIdx_nil]
  | cons j items ih =>
    rw [substituteInItems, ih, List.mapIdx_cons]
    simp only [Nat.add_zero, Nat.add_assoc, Nat.add_comm 1]

theorem substitute_eq (parts : List String → Option Json) (j : Json) :
    j.substitute parts =
      (parts []).getD (j.mapSteps fun token part =>
        part.substitute fun tokens => parts (token :: tokens)) := by
  cases j with
  | object members => rw [substitute, substituteInMembers_eq, mapSteps]
  | array items =>
    rw [substitute, substituteInItems_eq, mapSteps]
    simp only [Nat.zero_add]
  | _ => rw [substitute, mapSteps] <;> simp

theorem substitute_none (j : Json) : (j.substitute fun _ => none) = j := by
  induction j using byParts with
  | step j ih =>
    rw [substitute_eq, Option.getD_none]
    exact (mapSteps_congr fun token part hpart => ih part (mem_parts_of_mem_steps hpart)).trans
      (mapSteps_id j)

/-- No part is put in on the way to the end of the tokens, nor below it. -/
def LeavesFree (parts : List String → Option Json) (tokens : List String) : Prop :=
  ∀ place, (parts place).isSome → Pointer.Apart place tokens

section LeavesFree

variable {tokens : List String}

theorem leavesFree_none (tokens : List String) : LeavesFree (fun _ => none) tokens :=
  fun _ h => by cases h

theorem LeavesFree.eq_none (h : LeavesFree parts tokens) {place : List String}
    (hplace : place <+: tokens ∨ tokens <+: place) : parts place = none := by
  rw [← Option.not_isSome_iff_eq_none]
  intro hpart
  exact hplace.elim (h place hpart).1 (h place hpart).2

theorem LeavesFree.below (h : LeavesFree parts (token :: tokens)) :
    LeavesFree (fun place => parts (token :: place)) tokens :=
  fun place hplace => Pointer.apart_cons_iff.mp (h (token :: place) hplace)

theorem LeavesFree.update (h : LeavesFree parts tokens) {place : List String}
    (hplace : Pointer.Apart place tokens) (part : Json) :
    LeavesFree (Function.update parts place (some part)) tokens := by
  intro place' hpart
  by_cases hsame : place' = place
  · rwa [hsame]
  · rw [Function.update_of_ne hsame] at hpart
    exact h place' hpart

end LeavesFree

/-- What neither lies in a part that is put in nor holds one is found unchanged. -/
theorem follow?_substitute {tokens : List String} (hfree : LeavesFree parts tokens) (j : Json) :
    (j.substitute parts).follow? tokens = j.follow? tokens := by
  induction tokens generalizing j parts with
  | nil =>
    have hnone : parts = fun _ => none := funext fun place => hfree.eq_none (.inr List.nil_prefix)
    rw [hnone, substitute_none]
  | cons token tokens ih =>
    rw [substitute_eq, hfree.eq_none (.inl List.nil_prefix), Option.getD_none, follow?, follow?,
      step?_mapSteps]
    cases j.step? token with
    | none => rfl
    | some part => exact ih hfree.below part

/-- One more part that is put in afterwards. -/
theorem putAt?_substitute {part changed : Json} (hj : j.hasDistinctKeys) {tokens : List String}
    (hpart : j.follow? tokens = some part) (hfree : LeavesFree parts tokens) :
    putAt? changed (j.substitute parts) tokens =
      some (j.substitute (Function.update parts tokens (some changed))) := by
  induction tokens generalizing j parts with
  | nil =>
    rw [putAt?, substitute_eq, Function.update_self, Option.getD_some]
  | cons token tokens ih =>
    have hhere := hfree.eq_none (.inl (List.nil_prefix (l := token :: tokens)))
    obtain ⟨inner, hinner, hpart⟩ := Option.bind_eq_some_iff.mp hpart
    have hbelow := ih ((hasDistinctKeys_iff.mp hj).2 inner (mem_parts_of_step? hinner)) hpart
      hfree.below
    rw [putAt?, substitute_eq parts, hhere, Option.getD_none, step?_mapSteps, hinner,
      Option.map_some, Option.bind_eq_bind, Option.bind_some, hbelow, Option.bind_some,
      putStep_mapSteps hj hinner, substitute_eq _ j,
      Function.update_of_ne (List.cons_ne_nil _ _).symm, hhere, Option.getD_none]
    refine congrArg some (mapSteps_congr fun t p hp => ?_)
    split_ifs with ht
    · subst ht
      obtain rfl : p = inner := Option.some.inj (((mem_steps_iff hj).mp hp).symm.trans hinner)
      exact congrArg (substitute · p) (Function.update_comp_eq_of_injective parts
        List.cons_injective tokens (some changed)).symm
    · have hother (place : List String) :
          Function.update parts (token :: tokens) (some changed) (t :: place) =
            parts (t :: place) := Function.update_of_ne (by simp [ht]) _ _
      simp only [hother]

end Json

end ThingTypes
