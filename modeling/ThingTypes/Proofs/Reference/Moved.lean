import ThingTypes.Proofs.Location
import ThingTypes.Proofs.Reference.Markers

/-
  Fragments that move to another document. The references of a fragment are rewritten at its
  outermost marker objects, and a rewritten reference names the same place when it is read in the
  new document. One target is out of reach: the href of the directory of the base is empty, and a
  reference without a document refers to the document it stands in.
-/

namespace ThingTypes

namespace ModelReference

theorem ofText_eq_ok {value : String} {r : ModelReference} (h : ofText value = .ok r) :
    '#' ∉ r.pointer.toList ∧ ∀ document ∈ r.document?, document ≠ "" ∧ '#' ∉ document.toList := by
  unfold ofText at h
  split at h
  · rename_i document pointer hsplit
    cases h
    have hclean (piece : List Char) (hpiece : piece ∈ [document, pointer]) : '#' ∉ piece := by
      rw [← hsplit] at hpiece
      exact fun hmark => by simpa [delimiter] using (Text.exists_piece_iff.mp ⟨_, hpiece, hmark⟩).2
    refine ⟨by simpa using hclean pointer (by simp), fun text htext => ?_⟩
    split_ifs at htext with hempty
    · cases htext
    · obtain rfl := Option.mem_some_iff.mp htext
      refine ⟨fun hnil => hempty ?_, by simpa using hclean document (by simp)⟩
      simpa using congrArg String.toList hnil
  · cases h

theorem ofText_text {document pointer : String} (hdocument : '#' ∉ document.toList)
    (hpointer : '#' ∉ pointer.toList) :
    ofText (text document pointer) =
      .ok ⟨if document = "" then none else some document, pointer⟩ := by
  have hsplit : Text.splitOn (· == delimiter) (text document pointer).toList =
      [document.toList, pointer.toList] := by
    have htext : (text document pointer).toList = document.toList ++ '#' :: pointer.toList := by
      simp [text]
    rw [Text.splitOn_beq, htext, delimiter, List.splitOn_append_cons_self,
      List.splitOn_eq_singleton hdocument, List.splitOn_eq_singleton hpointer]
    rfl
  unfold ofText
  rw [hsplit]
  simp

variable {origin base : String} {r : ModelReference}

/-- A file that a reference in the base names is reached from there. -/
theorem reached_of_isFile {value document pointer : String} (hbase : Location.IsFile base)
    (hr : ofText value = .ok ⟨some document, pointer⟩)
    (hfile : Location.IsFile (Location.resolve base document)) :
    Location.Reached base (Location.resolve base document) := by
  obtain ⟨-, hmark⟩ := (ofText_eq_ok hr).2 document rfl
  by_cases hrelative : Location.IsRelative document.toList
  · exact Location.reached_resolve hbase hrelative hmark
  · have htarget := hfile.relative
    rw [Location.resolve_of_not_isRelative hrelative] at htarget
    exact absurd htarget hrelative

/-- Except for the directory of the base, the place that a reference in a reached document names
has an href in the base. -/
theorem relativize_target {value : String} (hr : ofText value = .ok r)
    (hbase : Location.IsFile base) (horigin : Location.IsFile origin)
    (hreached : Location.Reached base origin) (hfolder : r.target origin ≠ Location.folder base) :
    Location.relativize base (r.target origin) ≠ "" ∧
      '#' ∉ (Location.relativize base (r.target origin)).toList ∧
      Location.resolve base (Location.relativize base (r.target origin)) = r.target origin := by
  obtain ⟨document?, pointer⟩ := r
  cases document? with
  | none => exact hreached.relativize_spec hbase hfolder
  | some document =>
    obtain ⟨hne, hmark⟩ := (ofText_eq_ok hr).2 document rfl
    by_cases hrelative : Location.IsRelative document.toList
    · exact (hreached.resolve horigin hrelative hmark).relativize_spec hbase hfolder
    · have htarget : target ⟨some document, pointer⟩ origin = document :=
        Location.resolve_of_not_isRelative hrelative
      rw [htarget, Location.relativize_of_not_isRelative hrelative,
        Location.resolve_of_not_isRelative hrelative]
      exact ⟨hne, hmark, rfl⟩

/-- A reference that moves from a reached document to the base names the same place there. -/
theorem exists_ofText_rebase {value : String} (hr : ofText value = .ok r)
    (hbase : Location.IsFile base) (horigin : Location.IsFile origin)
    (hreached : Location.Reached base origin) (hfolder : r.target origin ≠ Location.folder base) :
    ∃ document, ofText (rebase origin base value) = .ok ⟨some document, r.pointer⟩ ∧
      Location.resolve base document = r.target origin := by
  obtain ⟨hne, hmark, hresolve⟩ := relativize_target hr hbase horigin hreached hfolder
  refine ⟨_, ?_, hresolve⟩
  rw [rebase, hr]
  dsimp only
  rw [ofText_text hmark (ofText_eq_ok hr).1, if_neg hne]

end ModelReference

namespace Json

variable {origin base : String} {j k : Json}

theorem rebasedMembers_eq (origin base : String) (members : List (String × Json)) :
    rebasedMembers origin base members = members.map fun m => (m.1, m.2.rebased origin base) := by
  induction members with
  | nil => rw [rebasedMembers, List.map_nil]
  | cons m members ih => rw [rebasedMembers, ih, List.map_cons]

theorem rebasedItems_eq (origin base : String) (items : List Json) :
    rebasedItems origin base items = items.map (rebased origin base) := by
  induction items with
  | nil => rw [rebasedItems, List.map_nil]
  | cons j items ih => rw [rebasedItems, ih, List.map_cons]

/-- Where the marker is a text, it alone is rewritten. -/
theorem rebased_of_marker (origin base : String) {value : String}
    (h : j.marker? = some (string value)) :
    ∃ members, j = object members ∧ j.rebased origin base =
      object (Entries.insert modelRefKey (string (ModelReference.rebase origin base value))
        members) := by
  cases j with
  | object members =>
    have hmarker : Entries.get? modelRefKey members = some (string value) := h
    refine ⟨members, rfl, ?_⟩
    rw [rebased, hmarker]
  | _ => cases h

/-- Elsewhere the parts are rewritten. -/
theorem mapParts?_rebased (origin base : String)
    (h : ∀ value, j.marker? ≠ some (string value)) :
    j.mapParts? (fun part => some (part.rebased origin base)) = some (j.rebased origin base) := by
  cases j with
  | object members =>
    have hmarker (value : String) : Entries.get? modelRefKey members ≠ some (string value) :=
      h value
    have hmembers : members.mapM (changeValue? fun part => some (part.rebased origin base)) =
        some (rebasedMembers origin base members) := by
      rw [rebasedMembers_eq]
      exact mapM_some_eq_map _ _
    rw [mapParts?, hmembers, Option.map_some, rebased]
    split
    · rename_i value hvalue
      exact absurd hvalue (hmarker value)
    · rfl
  | array items =>
    rw [mapParts?, rebased, rebasedItems_eq]
    exact congrArg (Option.map array) (mapM_some_eq_map _ _)
  | _ =>
    rw [rebased]
    · rfl
    all_goals simp

/-- To rewrite a value is to rewrite its outermost marker objects. -/
theorem replaceMarkers?_rebased (origin base : String) (j : Json) :
    j.replaceMarkers? (fun obj => some (obj.rebased origin base)) =
      some (j.rebased origin base) := by
  induction j using byMarkers with
  | marker j hj =>
    rw [replaceMarkers?_of_isMarker hj]
  | other j hj ih =>
    rw [replaceMarkers?_of_not_isMarker hj, mapParts?_congr ih]
    refine mapParts?_rebased origin base fun value hvalue => hj ?_
    rw [isMarker, hvalue, Option.isSome_some]

theorem marker?_rebased {value : String} (h : j.marker? = some (string value)) :
    (j.rebased origin base).marker? = some (string (ModelReference.rebase origin base value)) := by
  obtain ⟨members, rfl, hrebased⟩ := rebased_of_marker origin base h
  rw [hrebased, marker?, get?, members?, Option.bind_some, Entries.get?_insert, if_pos rfl]

theorem reference?_of_marker {value : String} (h : j.marker? = some (string value)) :
    j.reference? = (ModelReference.ofText value).toOption := by
  rw [reference?, h, Option.bind_some]
  rfl

/-- A marker object that moves from a reached document to the base names the same place there. -/
theorem exists_marker?_rebased {value : String} {r : ModelReference}
    (hvalue : j.marker? = some (string value)) (hr : ModelReference.ofText value = .ok r)
    (hbase : Location.IsFile base) (horigin : Location.IsFile origin)
    (hreached : Location.Reached base origin) (hfolder : r.target origin ≠ Location.folder base) :
    ∃ value' document, (j.rebased origin base).marker? = some (string value') ∧
      ModelReference.ofText value' = .ok ⟨some document, r.pointer⟩ ∧
      Location.resolve base document = r.target origin := by
  obtain ⟨document, hread, hresolve⟩ :=
    ModelReference.exists_ofText_rebase hr hbase horigin hreached hfolder
  exact ⟨_, document, marker?_rebased hvalue, hread, hresolve⟩

/-! ## Keys -/

theorem hasDistinctKeys_rebased (hj : j.hasDistinctKeys) :
    (j.rebased origin base).hasDistinctKeys := by
  induction j using byParts with
  | step j ih =>
    obtain ⟨hkeys, hparts⟩ := hasDistinctKeys_iff.mp hj
    by_cases htext : ∃ value, j.marker? = some (string value)
    · obtain ⟨value, hvalue⟩ := htext
      obtain ⟨members, rfl, hrebased⟩ := rebased_of_marker origin base hvalue
      rw [hrebased]
      refine hasDistinctKeys_iff.mpr ⟨Entries.nodup_keys_insert _ _ hkeys, fun part hpart => ?_⟩
      obtain ⟨e, he, rfl⟩ := List.mem_map.mp hpart
      rcases Entries.mem_of_mem_insert he with rfl | he
      · rfl
      · exact hparts e.2 (List.mem_map_of_mem he)
    · have hrebased := mapParts?_rebased origin base (not_exists.mp htext)
      refine hasDistinctKeys_iff.mpr ⟨by rwa [keys_of_mapParts? hrebased], fun part' hpart' => ?_⟩
      obtain ⟨part, hpart, hsome⟩ := (mem_parts_iff_of_mapParts? hrebased).mp hpart'
      rw [← Option.some.inj hsome]
      exact ih part hpart (hparts part hpart)

theorem hasDistinctKeys_withoutMarker (hj : j.hasDistinctKeys) :
    j.withoutMarker.hasDistinctKeys := by
  cases j with
  | object members =>
    obtain ⟨hkeys, hparts⟩ := hasDistinctKeys_iff.mp hj
    refine hasDistinctKeys_iff.mpr ⟨Entries.nodup_keys_swapRemove _ hkeys, fun part hpart => ?_⟩
    obtain ⟨e, he, rfl⟩ := List.mem_map.mp hpart
    exact hparts e.2 (List.mem_map_of_mem (Entries.mem_of_mem_swapRemove he))
  | _ => exact hj

theorem hasDistinctKeys_of_follow? {tokens : List String} {part : Json} (hj : j.hasDistinctKeys)
    (h : j.follow? tokens = some part) : part.hasDistinctKeys := by
  induction tokens generalizing j with
  | nil =>
    cases h
    exact hj
  | cons token tokens ih =>
    obtain ⟨inner, hstep, h⟩ := Option.bind_eq_some_iff.mp h
    exact ih ((hasDistinctKeys_iff.mp hj).2 inner (mem_parts_of_step? hstep)) h

end Json

end ThingTypes
