import ThingTypes.Proofs.Json.Parts
import ThingTypes.Reference.Marker

/-
  The outermost marker objects of a value. Everything that happens to references happens at these:
  they are what is replaced, and around them a value stays as it is. Replacing them twice in a row
  is one replacement, and what a path finds afterwards is settled by the marker object it meets.
-/

namespace ThingTypes.Json

/-- The value of the reference marker. -/
def marker? (j : Json) : Option Json :=
  j.get? modelRefKey

/-- Whether this is an object that carries a reference. -/
def isMarker (j : Json) : Bool :=
  j.marker?.isSome

/-- The reference that an object carries, if its marker has the form of one. -/
def reference? (j : Json) : Option ModelReference :=
  j.marker?.bind fun value => (ModelReference.ofText value.asText).toOption

mutual

/-- The outermost marker objects, in document order. -/
def markers : Json → List Json
  | object members =>
    if (object members).isMarker then [object members] else markersInMembers members
  | array items => markersInItems items
  | _ => []

def markersInMembers : List (String × Json) → List Json
  | [] => []
  | (_, j) :: rest => markers j ++ markersInMembers rest

def markersInItems : List Json → List Json
  | [] => []
  | j :: rest => markers j ++ markersInItems rest

end

mutual

/-- The value with every outermost marker object replaced, if each has a replacement. -/
def replaceMarkers? (f : Json → Option Json) : Json → Option Json
  | object members =>
    if (object members).isMarker then f (object members)
    else (replaceInMembers? f members).map object
  | array items => (replaceInItems? f items).map array
  | j => some j

def replaceInMembers? (f : Json → Option Json) :
    List (String × Json) → Option (List (String × Json))
  | [] => some []
  | (key, j) :: rest => do
    let changed ← replaceMarkers? f j
    let others ← replaceInMembers? f rest
    return (key, changed) :: others

def replaceInItems? (f : Json → Option Json) : List Json → Option (List Json)
  | [] => some []
  | j :: rest => do
    let changed ← replaceMarkers? f j
    let others ← replaceInItems? f rest
    return changed :: others

end

theorem markersInMembers_eq (members : List (String × Json)) :
    markersInMembers members = (members.map Prod.snd).flatMap markers := by
  induction members with
  | nil => rw [markersInMembers, List.map_nil, List.flatMap_nil]
  | cons m members ih => rw [markersInMembers, ih, List.map_cons, List.flatMap_cons]

theorem markersInItems_eq (items : List Json) : markersInItems items = items.flatMap markers := by
  induction items with
  | nil => rw [markersInItems, List.flatMap_nil]
  | cons j items ih => rw [markersInItems, ih, List.flatMap_cons]

theorem markers_eq (j : Json) :
    j.markers = if j.isMarker then [j] else j.parts.flatMap markers := by
  cases j with
  | object members => rw [markers, markersInMembers_eq, parts]
  | array items =>
    rw [markers, markersInItems_eq]
    rfl
  | _ => simp [markers, parts, isMarker, marker?, get?, members?]

variable {f g : Json → Option Json} {j k : Json}

theorem replaceInMembers?_eq (f : Json → Option Json) (members : List (String × Json)) :
    replaceInMembers? f members = members.mapM (changeValue? (replaceMarkers? f)) := by
  induction members with
  | nil => rw [replaceInMembers?, List.mapM_nil, Option.pure_def]
  | cons m members ih =>
    rw [replaceInMembers?, ih, List.mapM_cons, changeValue?]
    cases replaceMarkers? f m.2 <;> rfl

theorem replaceInItems?_eq (f : Json → Option Json) (items : List Json) :
    replaceInItems? f items = items.mapM (replaceMarkers? f) := by
  induction items with
  | nil => rw [replaceInItems?, List.mapM_nil, Option.pure_def]
  | cons j items ih => rw [replaceInItems?, ih, List.mapM_cons]

theorem replaceMarkers?_of_isMarker (h : j.isMarker) : j.replaceMarkers? f = f j := by
  cases j with
  | object members => rw [replaceMarkers?, if_pos h]
  | _ => cases h

theorem replaceMarkers?_of_not_isMarker (h : ¬j.isMarker) :
    j.replaceMarkers? f = j.mapParts? (replaceMarkers? f) := by
  cases j with
  | object members => rw [replaceMarkers?, if_neg h, replaceInMembers?_eq, mapParts?]
  | array items => rw [replaceMarkers?, replaceInItems?_eq, mapParts?]
  | _ => rw [replaceMarkers?, mapParts?] <;> simp

theorem markers_of_isMarker (h : j.isMarker) : j.markers = [j] := by
  rw [markers_eq, if_pos h]

theorem markers_of_not_isMarker (h : ¬j.isMarker) : j.markers = j.parts.flatMap markers := by
  rw [markers_eq, if_neg h]

/-- Induction that stops at marker objects: what holds of these, and elsewhere of a value whenever it
holds of its parts, holds of every value. -/
theorem byMarkers {P : Json → Prop} (marker : ∀ j : Json, j.isMarker → P j)
    (other : ∀ j : Json, ¬j.isMarker → (∀ part ∈ j.parts, P part) → P j) (j : Json) : P j := by
  induction j using byParts with
  | step j ih =>
    by_cases hj : j.isMarker
    · exact marker j hj
    · exact other j hj ih

theorem isMarker_of_mem_markers {obj : Json} (h : obj ∈ j.markers) : obj.isMarker := by
  induction j using byMarkers with
  | marker j hj =>
    rw [markers_of_isMarker hj, List.mem_singleton] at h
    rwa [h]
  | other j hj ih =>
    rw [markers_of_not_isMarker hj] at h
    obtain ⟨part, hpart, h⟩ := List.mem_flatMap.mp h
    exact ih part hpart h

/-- A change of parts makes no object a marker object. -/
theorem not_isMarker_of_mapParts? (hj : ¬j.isMarker) (h : j.mapParts? f = some k) :
    ¬k.isMarker := by
  rw [isMarker, Bool.not_eq_true, Option.isSome_eq_false_iff, Option.isNone_iff_eq_none,
    marker?] at hj ⊢
  rw [get?_of_mapParts? h, hj, Option.bind_none]

/-! ## Replacing -/

theorem replaceMarkers?_mono
    (hle : ∀ obj ∈ j.markers, ∀ obj', f obj = some obj' → g obj = some obj')
    (h : j.replaceMarkers? f = some k) : j.replaceMarkers? g = some k := by
  induction j using byMarkers generalizing k with
  | marker j hj =>
    rw [replaceMarkers?_of_isMarker hj] at h ⊢
    exact hle j (by simp [markers_of_isMarker hj]) k h
  | other j hj ih =>
    rw [replaceMarkers?_of_not_isMarker hj] at h ⊢
    refine mapParts?_mono (fun part hpart part' => ih part hpart fun obj hobj => hle obj ?_) h
    rw [markers_of_not_isMarker hj]
    exact List.mem_flatMap.mpr ⟨part, hpart, hobj⟩

theorem replaceMarkers?_congr (h : ∀ obj ∈ j.markers, f obj = g obj) :
    j.replaceMarkers? f = j.replaceMarkers? g :=
  Option.ext fun _ => ⟨replaceMarkers?_mono fun obj hobj _ => (h obj hobj).symm.trans,
    replaceMarkers?_mono fun obj hobj _ => (h obj hobj).trans⟩

/-- To replace what replacements bring along is one replacement. -/
theorem replaceMarkers?_bind (f g : Json → Option Json) (j : Json) :
    (j.replaceMarkers? f).bind (replaceMarkers? g) =
      j.replaceMarkers? fun obj => (f obj).bind (replaceMarkers? g) := by
  induction j using byMarkers with
  | marker j hj =>
    rw [replaceMarkers?_of_isMarker hj, replaceMarkers?_of_isMarker hj]
  | other j hj ih =>
    rw [replaceMarkers?_of_not_isMarker hj, replaceMarkers?_of_not_isMarker hj,
      ← mapParts?_congr ih, ← mapParts?_bind]
    cases hk : j.mapParts? (replaceMarkers? f) with
    | none => rfl
    | some k => exact replaceMarkers?_of_not_isMarker (not_isMarker_of_mapParts? hj hk)

/-- What is left of marker objects is what the replacements bring along. -/
theorem mem_markers_iff_of_replaceMarkers? (h : j.replaceMarkers? f = some k) {obj : Json} :
    obj ∈ k.markers ↔
      ∃ replaced ∈ j.markers, ∃ part, f replaced = some part ∧ obj ∈ part.markers := by
  induction j using byMarkers generalizing k with
  | marker j hj =>
    rw [replaceMarkers?_of_isMarker hj] at h
    simp [markers_of_isMarker hj, h]
  | other j hj ih =>
    rw [replaceMarkers?_of_not_isMarker hj] at h
    rw [markers_of_not_isMarker hj, markers_of_not_isMarker (not_isMarker_of_mapParts? hj h)]
    simp only [List.mem_flatMap, mem_parts_iff_of_mapParts? h]
    constructor
    · rintro ⟨part', ⟨part, hpart, hpart'⟩, hobj⟩
      obtain ⟨replaced, hreplaced, hrest⟩ := (ih part hpart hpart').mp hobj
      exact ⟨replaced, ⟨part, hpart, hreplaced⟩, hrest⟩
    · rintro ⟨replaced, ⟨part, hpart, hreplaced⟩, hrest⟩
      obtain ⟨part', hpart'⟩ := Option.isSome_iff_exists.mp (isSome_of_mapParts? h hpart)
      exact ⟨part', ⟨part, hpart, hpart'⟩,
        (ih part hpart hpart').mpr ⟨replaced, hreplaced, hrest⟩⟩

theorem replaceMarkers?_some (j : Json) : j.replaceMarkers? some = some j := by
  induction j using byMarkers with
  | marker j hj =>
    rw [replaceMarkers?_of_isMarker hj]
  | other j hj ih =>
    rw [replaceMarkers?_of_not_isMarker hj, mapParts?_congr ih, mapParts?_some]

theorem replaceMarkers?_of_markers_eq_nil (h : j.markers = []) : j.replaceMarkers? f = some j := by
  rw [replaceMarkers?_congr (g := some) (by simp [h]), replaceMarkers?_some]

theorem isSome_of_replaceMarkers? (h : j.replaceMarkers? f = some k) {obj : Json}
    (hobj : obj ∈ j.markers) : (f obj).isSome := by
  induction j using byMarkers generalizing k with
  | marker j hj =>
    rw [replaceMarkers?_of_isMarker hj] at h
    rw [markers_of_isMarker hj, List.mem_singleton] at hobj
    rw [hobj, h, Option.isSome_some]
  | other j hj ih =>
    rw [replaceMarkers?_of_not_isMarker hj] at h
    rw [markers_of_not_isMarker hj] at hobj
    obtain ⟨part, hpart, hobj⟩ := List.mem_flatMap.mp hobj
    obtain ⟨part', hpart'⟩ := Option.isSome_iff_exists.mp (isSome_of_mapParts? h hpart)
    exact ih part hpart hpart' hobj

/-- Where no replacement is given, there is nothing to replace. -/
theorem replaceMarkers?_none_eq_some_iff :
    j.replaceMarkers? (fun _ => none) = some k ↔ j.markers = [] ∧ k = j := by
  refine ⟨fun h => ?_, fun h => by rw [replaceMarkers?_of_markers_eq_nil h.1, h.2]⟩
  have hnil : j.markers = [] := List.eq_nil_iff_forall_not_mem.mpr fun obj hobj => by
    simpa using isSome_of_replaceMarkers? h hobj
  rw [replaceMarkers?_of_markers_eq_nil hnil, Option.some.injEq] at h
  exact ⟨hnil, h.symm⟩

theorem exists_ofText_of_reference? {r : ModelReference} (h : j.reference? = some r) :
    ∃ value, ModelReference.ofText value = .ok r := by
  obtain ⟨value, -, hvalue⟩ := Option.bind_eq_some_iff.mp h
  refine ⟨value.asText, ?_⟩
  cases hr : ModelReference.ofText value.asText with
  | error e =>
    rw [hr] at hvalue
    cases hvalue
  | ok r' =>
    rw [hr] at hvalue
    exact congrArg _ (Option.some.inj hvalue)

/-! ## Keys -/

theorem hasDistinctKeys_of_mem_markers (hj : j.hasDistinctKeys) {obj : Json}
    (hobj : obj ∈ j.markers) : obj.hasDistinctKeys := by
  induction j using byMarkers with
  | marker j hmarker =>
    rw [markers_of_isMarker hmarker, List.mem_singleton] at hobj
    rwa [hobj]
  | other j hmarker ih =>
    rw [markers_of_not_isMarker hmarker] at hobj
    obtain ⟨part, hpart, hobj⟩ := List.mem_flatMap.mp hobj
    exact ih part hpart ((hasDistinctKeys_iff.mp hj).2 part hpart) hobj

theorem hasDistinctKeys_of_replaceMarkers? (hj : j.hasDistinctKeys)
    (hf : ∀ obj ∈ j.markers, ∀ part, f obj = some part → part.hasDistinctKeys)
    (h : j.replaceMarkers? f = some k) : k.hasDistinctKeys := by
  induction j using byMarkers generalizing k with
  | marker j hmarker =>
    rw [replaceMarkers?_of_isMarker hmarker] at h
    exact hf j (by simp [markers_of_isMarker hmarker]) k h
  | other j hmarker ih =>
    rw [replaceMarkers?_of_not_isMarker hmarker] at h
    rw [markers_of_not_isMarker hmarker] at hf
    obtain ⟨hkeys, hparts⟩ := hasDistinctKeys_iff.mp hj
    refine hasDistinctKeys_iff.mpr ⟨by rwa [keys_of_mapParts? h], fun part' hpart' => ?_⟩
    obtain ⟨part, hpart, hchanged⟩ := (mem_parts_iff_of_mapParts? h).mp hpart'
    exact ih part hpart (hparts part hpart)
      (fun obj hobj => hf obj (List.mem_flatMap.mpr ⟨part, hpart, hobj⟩)) hchanged

/-! ## Dropped markers -/

/-- Without its marker an object has the same members besides. -/
theorem step?_withoutMarker (hj : j.hasDistinctKeys) (hmarker : j.isMarker) (token : String) :
    j.withoutMarker.step? token = if token = modelRefKey then none else j.step? token := by
  cases j with
  | object members => exact Entries.get?_swapRemove (hasDistinctKeys_iff.mp hj).1 token modelRefKey
  | _ => cases hmarker

theorem not_isMarker_withoutMarker (hj : j.hasDistinctKeys) : ¬j.withoutMarker.isMarker := by
  cases j with
  | object members =>
    have hnone := Entries.get?_swapRemove (hasDistinctKeys_iff.mp hj).1 modelRefKey modelRefKey
    rw [if_pos rfl] at hnone
    simp only [withoutMarker, isMarker, marker?, get?, members?, Option.bind_some]
    simp [hnone]
  | _ => simp [withoutMarker, isMarker, marker?, get?, members?]

/-- A marker object without its marker: the last member stands in the place of the marker. -/
theorem exists_members_of_isMarker (hj : j.hasDistinctKeys) (hmarker : j.isMarker) :
    ∃ before value after, j = object (before ++ (modelRefKey, value) :: after) ∧
      j.withoutMarker = object (before ++ (after.getLast?.toList ++ after.dropLast)) := by
  cases j with
  | object members =>
    obtain ⟨value, hvalue⟩ := Option.isSome_iff_exists.mp hmarker
    obtain ⟨before, after, rfl⟩ := List.append_of_mem (Entries.mem_of_get? hvalue)
    have hkeys := (hasDistinctKeys_iff.mp hj).1
    rw [keys, List.map_append, List.map_cons, List.nodup_append] at hkeys
    refine ⟨before, value, after, rfl, congrArg object (Entries.swapRemove_append_cons ?_ _ _)⟩
    exact fun hmem => hkeys.2.2 _ hmem _ List.mem_cons_self rfl
  | _ => cases hmarker

/-! ## Paths -/

/-- The first marker object on the way to the end of the tokens, with the tokens that are left. -/
def firstMarker? (j : Json) : List String → Option (Json × List String)
  | [] => if j.isMarker then some (j, []) else none
  | token :: tokens =>
    if j.isMarker then some (j, token :: tokens)
    else (j.step? token).bind (firstMarker? · tokens)

/-- Whether the way to the end of the tokens leads through no marker object. It may end at one. -/
def PassesNoMarker (j : Json) (tokens : List String) : Prop :=
  ∀ found ∈ j.firstMarker? tokens, found.2 = []

instance (j : Json) (tokens : List String) : Decidable (j.PassesNoMarker tokens) :=
  inferInstanceAs (Decidable (∀ found ∈ j.firstMarker? tokens, found.2 = []))

theorem firstMarker?_of_isMarker (hj : j.isMarker) (tokens : List String) :
    j.firstMarker? tokens = some (j, tokens) := by
  cases tokens <;> rw [firstMarker?, if_pos hj]

theorem not_isMarker_of_firstMarker? {tokens : List String} (h : j.firstMarker? tokens = none) :
    ¬j.isMarker := fun hj => by
  rw [firstMarker?_of_isMarker hj] at h
  cases h

theorem firstMarker?_eq_some {tokens below : List String} {obj : Json}
    (h : j.firstMarker? tokens = some (obj, below)) :
    obj ∈ j.markers ∧ j.follow? tokens = obj.follow? below := by
  induction tokens generalizing j with
  | nil =>
    unfold firstMarker? at h
    split_ifs at h with hj
    cases h
    exact ⟨by simp [markers_of_isMarker hj], rfl⟩
  | cons token tokens ih =>
    unfold firstMarker? at h
    split_ifs at h with hj
    · cases h
      exact ⟨by simp [markers_of_isMarker hj], rfl⟩
    · obtain ⟨part, hstep, hpart⟩ := Option.bind_eq_some_iff.mp h
      obtain ⟨hmem, hfollow⟩ := ih hpart
      rw [markers_of_not_isMarker hj, follow?, hstep, Option.bind_some]
      exact ⟨List.mem_flatMap.mpr ⟨part, mem_parts_of_step? hstep, hmem⟩, hfollow⟩

/-- Along a way without marker objects, the marker objects below are outermost ones. -/
theorem markers_of_firstMarker?_eq_none {tokens : List String} {part : Json}
    (h : j.firstMarker? tokens = none) (hpart : j.follow? tokens = some part) :
    ¬part.isMarker ∧ ∀ obj ∈ part.markers, obj ∈ j.markers := by
  induction tokens generalizing j with
  | nil =>
    unfold firstMarker? at h
    split_ifs at h with hj
    cases hpart
    exact ⟨hj, fun obj hobj => hobj⟩
  | cons token tokens ih =>
    unfold firstMarker? at h
    split_ifs at h with hj
    obtain ⟨inner, hstep, hpart⟩ := Option.bind_eq_some_iff.mp hpart
    rw [hstep, Option.bind_some] at h
    obtain ⟨hmarker, hmem⟩ := ih h hpart
    refine ⟨hmarker, fun obj hobj => ?_⟩
    rw [markers_of_not_isMarker hj]
    exact List.mem_flatMap.mpr ⟨inner, mem_parts_of_step? hstep, hmem obj hobj⟩

/-- What a path finds after a replacement: below the first marker object it finds what the
replacement has there. -/
theorem follow?_of_replaceMarkers? (h : j.replaceMarkers? f = some k) (tokens : List String) :
    k.follow? tokens =
      match j.firstMarker? tokens with
      | some (obj, below) => (f obj).bind (follow? · below)
      | none => (j.follow? tokens).bind (replaceMarkers? f) := by
  induction tokens generalizing j k with
  | nil =>
    by_cases hj : j.isMarker
    · rw [firstMarker?_of_isMarker hj]
      rw [replaceMarkers?_of_isMarker hj] at h
      exact (congrArg (Option.bind · (follow? · [])) h).symm
    · rw [firstMarker?, if_neg hj]
      exact h.symm
  | cons token tokens ih =>
    by_cases hj : j.isMarker
    · rw [firstMarker?_of_isMarker hj]
      rw [replaceMarkers?_of_isMarker hj] at h
      exact (congrArg (Option.bind · (follow? · (token :: tokens))) h).symm
    · rw [replaceMarkers?_of_not_isMarker hj] at h
      rw [firstMarker?, if_neg hj, follow?, follow?, step?_of_mapParts? h]
      cases hstep : j.step? token with
      | none => rfl
      | some part =>
        obtain ⟨part', hpart'⟩ := Option.isSome_iff_exists.mp
          (isSome_of_mapParts? h (mem_parts_of_step? hstep))
        simp only [Option.bind_some, hpart']
        exact ih hpart'

/-- A path that leads through no marker object finds the replaced part. -/
theorem PassesNoMarker.follow? {tokens : List String} (hclear : j.PassesNoMarker tokens)
    (h : j.replaceMarkers? f = some k) :
    k.follow? tokens = (j.follow? tokens).bind (replaceMarkers? f) := by
  rw [follow?_of_replaceMarkers? h]
  cases hfirst : j.firstMarker? tokens with
  | none => rfl
  | some found =>
    obtain ⟨obj, below⟩ := found
    obtain rfl : below = [] := hclear _ hfirst
    obtain ⟨hmem, hfollow⟩ := firstMarker?_eq_some hfirst
    rw [hfollow, Json.follow?, Option.bind_some,
      replaceMarkers?_of_isMarker (isMarker_of_mem_markers hmem)]
    simp [Json.follow?]

theorem PassesNoMarker.markers_subset {tokens : List String} (hclear : j.PassesNoMarker tokens)
    {part : Json} (hpart : j.follow? tokens = some part) :
    ∀ obj ∈ part.markers, obj ∈ j.markers := by
  cases hfirst : j.firstMarker? tokens with
  | none => exact (markers_of_firstMarker?_eq_none hfirst hpart).2
  | some found =>
    obtain ⟨obj, below⟩ := found
    obtain rfl : below = [] := hclear _ hfirst
    obtain ⟨hmem, hfollow⟩ := firstMarker?_eq_some hfirst
    rw [hpart, Json.follow?, Option.some.injEq] at hfollow
    subst hfollow
    rw [markers_of_isMarker (isMarker_of_mem_markers hmem)]
    simpa using hmem

end ThingTypes.Json
