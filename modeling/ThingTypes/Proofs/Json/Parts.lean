import Mathlib.Data.List.Basic
import Mathlib.Data.List.Forall2
import Mathlib.Data.List.Perm.Basic
import ThingTypes.Json.Pointer
import ThingTypes.Proofs.OrderedMap

/-
  Values and their parts: the elements of an array and the values of the members of an object. A
  recursion over a value treats its parts alike, so it is stated here once for both: an induction
  over parts, and a change of all parts that may fail on some of them.
-/

namespace ThingTypes

section MapM

universe u v w
variable {α : Type u} {β : Type v} {γ : Type w} {f : α → Option β} {l : List α} {l' : List β}

theorem mapM_cons_eq_some_iff {a : α} :
    (a :: l).mapM f = some l' ↔ ∃ b bs, f a = some b ∧ l.mapM f = some bs ∧ l' = b :: bs := by
  simp only [List.mapM_cons, Option.bind_eq_bind, Option.pure_def, Option.bind_eq_some_iff,
    Option.some.injEq]
  exact ⟨fun ⟨b, hb, bs, hbs, h⟩ => ⟨b, bs, hb, hbs, h.symm⟩,
    fun ⟨b, bs, hb, hbs, h⟩ => ⟨b, hb, bs, hbs, h.symm⟩⟩

/-- A change that comes about whenever another one does, with the same outcome. -/
theorem mapM_mono {g : α → Option β} (hle : ∀ a ∈ l, ∀ b, f a = some b → g a = some b)
    (h : l.mapM f = some l') : l.mapM g = some l' := by
  induction l generalizing l' with
  | nil => exact h
  | cons a l ih =>
    obtain ⟨b, bs, hb, hbs, rfl⟩ := mapM_cons_eq_some_iff.mp h
    exact mapM_cons_eq_some_iff.mpr ⟨b, bs, hle a List.mem_cons_self b hb,
      ih (fun a ha => hle a (List.mem_cons_of_mem _ ha)) hbs, rfl⟩

theorem mapM_some_eq_map (g : α → β) (l : List α) :
    (l.mapM fun a => some (g a)) = some (l.map g) := by
  induction l with
  | nil => rfl
  | cons a l ih => simp [List.mapM_cons, ih]

/-- Two changes one after the other. -/
theorem mapM_bind (g : β → Option γ) :
    (l.mapM f).bind (·.mapM g) = l.mapM fun a => (f a).bind g := by
  induction l with
  | nil => rfl
  | cons a l ih =>
    rw [List.mapM_cons, List.mapM_cons, ← ih]
    cases f a with
    | none => rfl
    | some b =>
      cases l.mapM f with
      | none => cases h : g b <;> simp [h]
      | some bs => simp [List.mapM_cons]

theorem getElem?_of_mapM (h : l.mapM f = some l') (i : Nat) : l'[i]? = l[i]?.bind f := by
  induction l generalizing l' i with
  | nil =>
    cases h
    simp
  | cons a l ih =>
    obtain ⟨b, bs, hb, hbs, rfl⟩ := mapM_cons_eq_some_iff.mp h
    cases i with
    | zero => simp [hb]
    | succ i => simpa using ih hbs i

theorem mem_mapM_iff (h : l.mapM f = some l') {b : β} : b ∈ l' ↔ ∃ a ∈ l, f a = some b := by
  induction l generalizing l' with
  | nil =>
    cases h
    simp
  | cons a l ih =>
    obtain ⟨c, bs, hc, hbs, rfl⟩ := mapM_cons_eq_some_iff.mp h
    simp [ih hbs, hc, eq_comm]

theorem isSome_of_mapM (h : l.mapM f = some l') {a : α} (ha : a ∈ l) : (f a).isSome := by
  induction l generalizing l' with
  | nil => cases ha
  | cons c l ih =>
    obtain ⟨d, bs, hd, hbs, rfl⟩ := mapM_cons_eq_some_iff.mp h
    rcases List.mem_cons.mp ha with rfl | ha
    · rw [hd, Option.isSome_some]
    · exact ih hbs ha

theorem mapM_eq_some_iff_map : l.mapM f = some l' ↔ l.map f = l'.map some := by
  induction l generalizing l' with
  | nil => cases l' <;> simp
  | cons a l ih =>
    rw [mapM_cons_eq_some_iff]
    cases l' with
    | nil => simp
    | cons b bs => simp [ih]

/-- What is found one by one is found in a row. -/
theorem exists_mapM_of_isSome (h : ∀ a ∈ l, (f a).isSome) : ∃ l', l.mapM f = some l' := by
  induction l with
  | nil => exact ⟨[], rfl⟩
  | cons a l ih =>
    obtain ⟨b, hb⟩ := Option.isSome_iff_exists.mp (h a List.mem_cons_self)
    obtain ⟨bs, hbs⟩ := ih fun a hmem => h a (List.mem_cons_of_mem _ hmem)
    exact ⟨b :: bs, mapM_cons_eq_some_iff.mpr ⟨b, bs, hb, hbs, rfl⟩⟩

/-- In another order the same is found, in that order. -/
theorem exists_mapM_of_perm {m : List α} (hperm : l.Perm m) (h : l.mapM f = some l') :
    ∃ m', m.mapM f = some m' ∧ l'.Perm m' := by
  have hall : ∀ a ∈ m, (f a).isSome := fun a ha => isSome_of_mapM h (hperm.mem_iff.mpr ha)
  obtain ⟨m', hm⟩ := exists_mapM_of_isSome hall
  refine ⟨m', hm, (List.map_perm_map_iff (f := some) fun _ _ => Option.some.inj).mp ?_⟩
  rw [← mapM_eq_some_iff_map.mp h, ← mapM_eq_some_iff_map.mp hm]
  exact hperm.map f

end MapM

section Map

universe u v w
variable {α : Type u} {β : Type v} {γ : Type w} {f : α → γ} {g : β → γ}

theorem map_eq_map_iff_forall₂ {l : List α} {m : List β} :
    l.map f = m.map g ↔ List.Forall₂ (fun a b => f a = g b) l m := by
  rw [← List.forall₂_eq_eq_eq, List.forall₂_map_left_iff, List.forall₂_map_right_iff]

theorem map_eq_map_iff_rel {a? : Option α} {b? : Option β} :
    a?.map f = b?.map g ↔ Option.Rel (fun a b => f a = g b) a? b? := by
  cases a? <;> cases b? <;> simp

end Map

namespace Json

/-- The elements of an array or the values of the members of an object. -/
def parts : Json → List Json
  | array items => items
  | object members => members.map Prod.snd
  | _ => []

theorem sizeOf_lt_of_mem_parts {j part : Json} (h : part ∈ j.parts) : sizeOf part < sizeOf j := by
  cases j with
  | array items =>
    have := List.sizeOf_lt_of_mem (show part ∈ items from h)
    simp only [array.sizeOf_spec]
    omega
  | object members =>
    obtain ⟨⟨key, value⟩, hmem, rfl⟩ := List.mem_map.mp (show part ∈ members.map Prod.snd from h)
    have := List.sizeOf_lt_of_mem hmem
    simp only [object.sizeOf_spec, Prod.mk.sizeOf_spec] at this ⊢
    omega
  | _ => cases h

/-- What holds of a value whenever it holds of its parts holds of every value. -/
theorem byParts {P : Json → Prop} (step : ∀ j : Json, (∀ part ∈ j.parts, P part) → P j)
    (j : Json) : P j :=
  step j fun part _ => byParts step part
termination_by sizeOf j
decreasing_by exact sizeOf_lt_of_mem_parts ‹_›

theorem mem_parts_of_step? {j part : Json} {token : String} (h : j.step? token = some part) :
    part ∈ j.parts := by
  cases j with
  | object members => exact List.mem_map.mpr ⟨(token, part), Entries.mem_of_get? h, rfl⟩
  | array items =>
    obtain ⟨i, -, hi⟩ := Option.bind_eq_some_iff.mp h
    exact List.mem_of_getElem? hi
  | _ => cases h

/-! ## Changing the parts -/

/-- A member with its value changed. -/
def changeValue? (f : Json → Option Json) (member : String × Json) : Option (String × Json) :=
  (f member.2).map (Prod.mk member.1)

/-- Changes every part, if each can be changed. -/
def mapParts? (f : Json → Option Json) : Json → Option Json
  | array items => (items.mapM f).map array
  | object members => (members.mapM (changeValue? f)).map object
  | j => some j

variable {f g : Json → Option Json} {j k : Json}

theorem mapParts?_mono (hle : ∀ part ∈ j.parts, ∀ part', f part = some part' → g part = some part')
    (h : j.mapParts? f = some k) : j.mapParts? g = some k := by
  cases j with
  | array items =>
    obtain ⟨items', hitems, rfl⟩ := Option.map_eq_some_iff.mp h
    exact Option.map_eq_some_iff.mpr ⟨items', mapM_mono hle hitems, rfl⟩
  | object members =>
    obtain ⟨members', hmembers, rfl⟩ := Option.map_eq_some_iff.mp h
    refine Option.map_eq_some_iff.mpr ⟨members', mapM_mono (fun m hm m' hm' => ?_) hmembers, rfl⟩
    obtain ⟨value, hvalue, rfl⟩ := Option.map_eq_some_iff.mp hm'
    exact Option.map_eq_some_iff.mpr ⟨value, hle m.2 (List.mem_map_of_mem hm) value hvalue, rfl⟩
  | _ => exact h

theorem mapParts?_congr (h : ∀ part ∈ j.parts, f part = g part) :
    j.mapParts? f = j.mapParts? g :=
  Option.ext fun _ => ⟨mapParts?_mono fun part hpart _ => (h part hpart).symm.trans,
    mapParts?_mono fun part hpart _ => (h part hpart).trans⟩

/-- Two changes one after the other. -/
theorem mapParts?_bind (f g : Json → Option Json) (j : Json) :
    (j.mapParts? f).bind (mapParts? g) = j.mapParts? fun part => (f part).bind g := by
  cases j with
  | array items =>
    rw [mapParts?, mapParts?, ← mapM_bind g]
    cases items.mapM f <;> rfl
  | object members =>
    have hvalues : (fun m => (changeValue? f m).bind (changeValue? g)) =
        changeValue? fun part => (f part).bind g := by
      funext m
      simp only [changeValue?]
      cases f m.2 <;> rfl
    rw [mapParts?, mapParts?, ← hvalues, ← mapM_bind (changeValue? g)]
    cases members.mapM (changeValue? f) <;> rfl
  | _ => rfl

/-- A change of values keeps the keys, and look-up sees what it does to one value. -/
theorem get?_of_changeValue? {members members' : List (String × Json)}
    (h : members.mapM (changeValue? f) = some members') (key : String) :
    Entries.get? key members' = (Entries.get? key members).bind f := by
  induction members generalizing members' with
  | nil =>
    cases h
    rfl
  | cons m members ih =>
    obtain ⟨m', rest, hm, hrest, rfl⟩ := mapM_cons_eq_some_iff.mp h
    obtain ⟨value, hvalue, rfl⟩ := Option.map_eq_some_iff.mp hm
    obtain ⟨key', part⟩ := m
    simp only [Entries.get?, ih hrest]
    split_ifs
    · exact hvalue.symm
    · rfl

theorem keys_of_changeValue? {members members' : List (String × Json)}
    (h : members.mapM (changeValue? f) = some members') :
    members'.map Prod.fst = members.map Prod.fst := by
  induction members generalizing members' with
  | nil =>
    cases h
    rfl
  | cons m members ih =>
    obtain ⟨m', rest, hm, hrest, rfl⟩ := mapM_cons_eq_some_iff.mp h
    obtain ⟨value, -, rfl⟩ := Option.map_eq_some_iff.mp hm
    rw [List.map_cons, List.map_cons, ih hrest]

theorem step?_of_mapParts? (h : j.mapParts? f = some k) (token : String) :
    k.step? token = (j.step? token).bind f := by
  cases j with
  | array items =>
    obtain ⟨items', hitems, rfl⟩ := Option.map_eq_some_iff.mp h
    rw [step?, step?, Option.bind_assoc]
    exact congrArg _ (funext (getElem?_of_mapM hitems))
  | object members =>
    obtain ⟨members', hmembers, rfl⟩ := Option.map_eq_some_iff.mp h
    exact get?_of_changeValue? hmembers token
  | _ =>
    cases h
    rfl

theorem get?_of_mapParts? (h : j.mapParts? f = some k) (key : String) :
    k.get? key = (j.get? key).bind f := by
  cases j with
  | array items =>
    obtain ⟨items', -, rfl⟩ := Option.map_eq_some_iff.mp h
    rfl
  | object members =>
    obtain ⟨members', hmembers, rfl⟩ := Option.map_eq_some_iff.mp h
    exact get?_of_changeValue? hmembers key
  | _ =>
    cases h
    rfl

theorem isSome_of_mapParts? (h : j.mapParts? f = some k) {part : Json} (hpart : part ∈ j.parts) :
    (f part).isSome := by
  cases j with
  | array items =>
    obtain ⟨items', hitems, rfl⟩ := Option.map_eq_some_iff.mp h
    exact isSome_of_mapM hitems hpart
  | object members =>
    obtain ⟨members', hmembers, rfl⟩ := Option.map_eq_some_iff.mp h
    obtain ⟨m, hm, rfl⟩ := List.mem_map.mp (show part ∈ members.map Prod.snd from hpart)
    simpa [changeValue?] using isSome_of_mapM hmembers hm
  | _ => cases hpart

theorem mapParts?_some (j : Json) : j.mapParts? some = some j := by
  cases j with
  | array items =>
    have hitems := mapM_some_eq_map id items
    rw [List.map_id] at hitems
    exact congrArg (Option.map array) hitems
  | object members =>
    have hmembers := mapM_some_eq_map id members
    rw [List.map_id] at hmembers
    exact congrArg (Option.map object) hmembers
  | _ => rfl

theorem mem_parts_iff_of_mapParts? (h : j.mapParts? f = some k) {part' : Json} :
    part' ∈ k.parts ↔ ∃ part ∈ j.parts, f part = some part' := by
  cases j with
  | array items =>
    obtain ⟨items', hitems, rfl⟩ := Option.map_eq_some_iff.mp h
    exact mem_mapM_iff hitems
  | object members =>
    obtain ⟨members', hmembers, rfl⟩ := Option.map_eq_some_iff.mp h
    simp only [parts, List.mem_map, mem_mapM_iff hmembers, changeValue?, Option.map_eq_some_iff]
    grind
  | _ =>
    cases h
    simp [parts]

/-! ## Distinct keys -/

mutual

/-- Whether no object in the value has two members of one key. -/
def hasDistinctKeys : Json → Bool
  | array items => itemsHaveDistinctKeys items
  | object members => decide (members.map Prod.fst).Nodup && membersHaveDistinctKeys members
  | _ => true

def itemsHaveDistinctKeys : List Json → Bool
  | [] => true
  | j :: rest => hasDistinctKeys j && itemsHaveDistinctKeys rest

def membersHaveDistinctKeys : List (String × Json) → Bool
  | [] => true
  | (_, j) :: rest => hasDistinctKeys j && membersHaveDistinctKeys rest

end

theorem itemsHaveDistinctKeys_eq (items : List Json) :
    itemsHaveDistinctKeys items = items.all hasDistinctKeys := by
  induction items with
  | nil => rw [itemsHaveDistinctKeys, List.all_nil]
  | cons j items ih => rw [itemsHaveDistinctKeys, ih, List.all_cons]

theorem membersHaveDistinctKeys_eq (members : List (String × Json)) :
    membersHaveDistinctKeys members = (members.map Prod.snd).all hasDistinctKeys := by
  induction members with
  | nil => rw [membersHaveDistinctKeys, List.map_nil, List.all_nil]
  | cons m members ih => rw [membersHaveDistinctKeys, ih, List.map_cons, List.all_cons]

/-- The keys of the members of an object. -/
def keys : Json → List String
  | object members => members.map Prod.fst
  | _ => []

theorem hasDistinctKeys_iff :
    j.hasDistinctKeys ↔ j.keys.Nodup ∧ ∀ part ∈ j.parts, part.hasDistinctKeys := by
  cases j with
  | array items =>
    rw [hasDistinctKeys, itemsHaveDistinctKeys_eq, List.all_eq_true]
    simp [keys, parts]
  | object members =>
    rw [hasDistinctKeys, membersHaveDistinctKeys_eq, Bool.and_eq_true, decide_eq_true_eq,
      List.all_eq_true]
    rfl
  | _ => simp [hasDistinctKeys, keys, parts]

theorem hasDistinctKeys_strings (l : List String) : (strings l).hasDistinctKeys := by
  refine hasDistinctKeys_iff.mpr ⟨List.nodup_nil, fun part hpart => ?_⟩
  obtain ⟨s, -, rfl⟩ := List.mem_map.mp hpart
  rfl

theorem mem_parts_of_get? {key : String} {part : Json} (h : j.get? key = some part) :
    part ∈ j.parts := by
  obtain ⟨members, hmembers, hpart⟩ := Option.bind_eq_some_iff.mp h
  cases j <;> cases hmembers
  exact List.mem_map.mpr ⟨_, Entries.mem_of_get? hpart, rfl⟩

theorem hasDistinctKeys_of_get? {key : String} {part : Json} (hj : j.hasDistinctKeys)
    (h : j.get? key = some part) : part.hasDistinctKeys :=
  (hasDistinctKeys_iff.mp hj).2 part (mem_parts_of_get? h)

theorem keys_of_mapParts? (h : j.mapParts? f = some k) : k.keys = j.keys := by
  cases j with
  | array items =>
    obtain ⟨items', -, rfl⟩ := Option.map_eq_some_iff.mp h
    rfl
  | object members =>
    obtain ⟨members', hmembers, rfl⟩ := Option.map_eq_some_iff.mp h
    exact keys_of_changeValue? hmembers
  | _ =>
    cases h
    rfl

end Json

end ThingTypes
