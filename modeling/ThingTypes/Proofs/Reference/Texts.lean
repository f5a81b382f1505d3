import ThingTypes.Proofs.Identifier.Spelling
import ThingTypes.Proofs.Json.Texts
import ThingTypes.Proofs.Reference.Moved
import ThingTypes.Proofs.Reference.Sites

/-
  The texts of documents that references are inlined into. A location and a reference are taken
  apart and put together again, with slashes, dots and a `#` between. So nothing comes into the
  texts of a document that is not of ASCII already in the fragment, or in the location that the
  fragment is taken from.
-/

namespace ThingTypes

/-! ## Locations -/

namespace Location

variable {c : Char}

theorem mem_joinSegments {l : List Segment} (hc : c ∈ joinSegments l) :
    c = '/' ∨ ∃ s ∈ l, c ∈ s := by
  unfold joinSegments at hc
  induction l with
  | nil => cases hc
  | cons s l ih =>
    cases l with
    | nil =>
      rw [List.intercalate_singleton] at hc
      exact .inr ⟨s, List.mem_singleton_self s, hc⟩
    | cons t rest =>
      rw [List.intercalate_cons_cons, List.mem_append, List.mem_append, List.mem_singleton] at hc
      rcases hc with (hc | hc) | hc
      · exact .inr ⟨s, List.mem_cons_self, hc⟩
      · exact .inl hc
      · exact (ih hc).imp_right fun ⟨t, ht, hc⟩ => ⟨t, List.mem_cons_of_mem _ ht, hc⟩

theorem mem_normalize {path : List Char} (hc : c ∈ normalize path) : c = '/' ∨ c ∈ path := by
  have hjoined {absolute : Bool}
      (hc : c ∈ joinSegments (normalSegments absolute (segments path))) : c = '/' ∨ c ∈ path :=
    (mem_joinSegments hc).imp_right fun ⟨_, hs, hc⟩ =>
      mem_of_mem_segments (mem_of_mem_normalSegments hs) hc
  unfold normalize at hc
  dsimp only at hc
  split at hc
  · exact (List.mem_cons.mp hc).elim .inl hjoined
  · exact hjoined hc

theorem mem_directory {path : List Char} (hc : c ∈ directory path) : c ∈ path := by
  unfold directory at hc
  split at hc
  · rename_i hsplit
    rw [(Text.splitAtLast?_eq_some hsplit).1]
    exact List.mem_append_left _ hc
  · cases hc

theorem mem_of_mem_splitScheme {cs : List Char}
    (hc : c ∈ (splitScheme cs).1 ∨ c ∈ (splitScheme cs).2) : c ∈ cs := by
  have happend : (splitScheme cs).1 ++ (splitScheme cs).2 = cs := by
    unfold splitScheme
    split
    · rename_i hsplit
      exact (Text.splitAtFirst?_eq_some hsplit).symm
    · rfl
  rw [← happend]
  exact List.mem_append.mpr hc

theorem mem_resolve {base href : String} (hc : c ∈ (resolve base href).toList) :
    c = '/' ∨ c ∈ base.toList ∨ c ∈ href.toList := by
  rw [resolve, String.toList_ofList, resolveChars] at hc
  split at hc
  · exact .inr (.inr hc)
  · dsimp only at hc
    rcases List.mem_append.mp hc with hscheme | hpath
    · exact .inr (.inl (mem_of_mem_splitScheme (.inl hscheme)))
    · rcases mem_normalize hpath with hslash | hjoined
      · exact .inl hslash
      · split at hjoined
        · exact .inr (.inr hjoined)
        · rcases List.mem_append.mp hjoined with hdirectory | hhref
          · exact .inr (.inl (mem_of_mem_splitScheme (.inr (mem_directory hdirectory))))
          · exact (List.mem_cons.mp hhref).imp_right .inr

/-- Nothing of the base gets into an href but ways up. -/
theorem mem_relativize {base target : String} (hc : c ∈ (relativize base target).toList) :
    c = '/' ∨ c = '.' ∨ c ∈ target.toList := by
  have hnormal (hc : c ∈ normalize target.toList) : c = '/' ∨ c = '.' ∨ c ∈ target.toList :=
    (mem_normalize hc).imp_right .inr
  rw [relativize, String.toList_ofList, relativizeChars] at hc
  split at hc
  · exact .inr (.inr hc)
  · dsimp only at hc
    split at hc
    · exact hnormal hc
    · rcases mem_joinSegments hc with hslash | ⟨s, hs, hc⟩
      · exact .inl hslash
      · rcases List.mem_append.mp hs with hup | hdown
        · rw [List.eq_of_mem_replicate hup] at hc
          exact .inr (.inl (by simpa [up] using hc))
        · obtain ⟨common, -, hsegments⟩ := exists_dropCommon
            (directorySegments (normalize base.toList)) (segments (normalize target.toList))
          have hmem : s ∈ segments (normalize target.toList) := by
            rw [hsegments]
            exact List.mem_append_right _ hdown
          exact hnormal (mem_of_mem_segments hmem hc)

end Location

/-! ## Texts of ASCII -/

/-- The letters and numerals of the text are those of ASCII. -/
def IsAscii (text : String) : Prop :=
  Identifier.AsciiWords text.toList

instance : DecidablePred IsAscii := fun text =>
  inferInstanceAs (Decidable (Identifier.AsciiWords text.toList))

namespace IsAscii

variable {base href origin value document pointer : String}

theorem of_mem {text : String} (h : ∀ c ∈ text.toList, c.toNat < 0x80 ∨ c ∈ value.toList)
    (hvalue : IsAscii value) : IsAscii text := fun c hc halphanumeric =>
  (h c hc).elim id fun hc => hvalue c hc halphanumeric

theorem resolve (hbase : IsAscii base) (hhref : IsAscii href) :
    IsAscii (Location.resolve base href) := by
  intro c hc halphanumeric
  rcases Location.mem_resolve hc with rfl | hc | hc
  · decide
  · exact hbase c hc halphanumeric
  · exact hhref c hc halphanumeric

theorem relativize (htarget : IsAscii href) : IsAscii (Location.relativize base href) := by
  refine of_mem (fun c hc => ?_) htarget
  rcases Location.mem_relativize hc with rfl | rfl | hc
  · exact .inl (by decide)
  · exact .inl (by decide)
  · exact .inr hc

theorem text (hdocument : IsAscii document) (hpointer : IsAscii pointer) :
    IsAscii (ModelReference.text document pointer) := by
  intro c hc halphanumeric
  have hmark : "#".toList = ['#'] := rfl
  rw [ModelReference.text, String.toList_append, String.toList_append, hmark, List.mem_append,
    List.mem_append, List.mem_singleton] at hc
  rcases hc with (hc | rfl) | hc
  · exact hdocument c hc halphanumeric
  · decide
  · exact hpointer c hc halphanumeric

theorem ofText {r : ModelReference} (hvalue : IsAscii value)
    (h : ModelReference.ofText value = .ok r) :
    (∀ document ∈ r.document?, IsAscii document) ∧ IsAscii r.pointer := by
  unfold ModelReference.ofText at h
  split at h
  · rename_i document pointer hsplit
    cases h
    have hpiece {piece : List Char} (hmem : piece ∈ [document, pointer]) :
        IsAscii (String.ofList piece) := by
      refine of_mem (fun c hc => .inr ?_) hvalue
      rw [String.toList_ofList] at hc
      exact (Text.exists_piece_iff.mp ⟨piece, hsplit ▸ hmem, hc⟩).1
    refine ⟨fun text htext => ?_, hpiece (by simp)⟩
    dsimp only at htext
    split at htext
    · cases htext
    · rw [← Option.mem_some_iff.mp htext]
      exact hpiece (by simp)
  · cases h

theorem rebase (hvalue : IsAscii value) (horigin : IsAscii origin) :
    IsAscii (ModelReference.rebase origin base value) := by
  unfold ModelReference.rebase
  split
  · rename_i r hr
    obtain ⟨hdocument, hpointer⟩ := hvalue.ofText hr
    have htarget : IsAscii (r.target origin) := by
      unfold ModelReference.target
      split
      · exact horigin.resolve (hdocument _ ‹_›)
      · exact horigin
    exact htarget.relativize.text hpointer
  · exact hvalue

end IsAscii

/-! ## Values -/

namespace Json.AllTexts

variable {P : String → Prop} {j inner part : Json} {token origin base : String}

theorem asText (h : j.AllTexts IsAscii) : IsAscii j.asText := by
  intro c hc halphanumeric
  have hrendered (hc : c ∈ j.compact.toList) : c.toNat < 0x80 := by
    rw [compact, String.toList_ofList] at hc
    rcases mem_render j c hc with hlow | ⟨text, htext, hc⟩
    · exact hlow
    · exact h text htext c hc halphanumeric
  cases j with
  | string s => exact h.ofString c hc halphanumeric
  | _ => exact hrendered hc

theorem reference {site : ReferenceSite} (h : j.AllTexts IsAscii) {path : String}
    (hsite : site ∈ j.sitesAt path) : IsAscii site.reference := by
  induction j using byMarkers generalizing path with
  | marker j hmarker =>
    obtain ⟨value, hvalue⟩ := Option.isSome_iff_exists.mp hmarker
    rw [sitesAt_of_marker? hvalue, List.mem_singleton] at hsite
    subst hsite
    exact (h.ofPart (mem_parts_of_get? hvalue)).asText
  | other j hmarker ih =>
    rw [sitesAt_of_not_isMarker hmarker] at hsite
    obtain ⟨step, hstep, hsite⟩ := List.mem_flatMap.mp hsite
    have hpart := mem_parts_of_mem_steps hstep
    exact ih step.2 hpart (h.ofPart hpart) hsite

theorem putStep (h : j.AllTexts P) (hstep : j.step? token = some inner) (hpart : part.AllTexts P) :
    (Json.putStep token part j).AllTexts P := by
  cases j with
  | object members =>
    refine .object fun m hm => ?_
    rcases Entries.mem_of_mem_insert hm with rfl | hm
    · exact ⟨(h.ofMember (Entries.mem_of_get? hstep)).1, hpart⟩
    · exact h.ofMember hm
  | array items =>
    rw [Json.putStep]
    cases Pointer.index? token with
    | none => exact h
    | some i =>
      refine .array fun item hitem => ?_
      rcases List.mem_or_eq_of_mem_set hitem with hitem | rfl
      · exact h.ofPart hitem
      · exact hpart
  | _ => exact h

theorem withoutMarker (h : j.AllTexts P) : j.withoutMarker.AllTexts P := by
  cases j with
  | object members => exact .object fun m hm => h.ofMember (Entries.mem_of_mem_swapRemove hm)
  | _ => exact h

theorem rebased (h : j.AllTexts IsAscii) (horigin : IsAscii origin) :
    (j.rebased origin base).AllTexts IsAscii := by
  induction j using byParts with
  | step j ih =>
    by_cases htext : ∃ value, j.marker? = some (string value)
    · obtain ⟨value, hvalue⟩ := htext
      obtain ⟨members, rfl, hrebased⟩ := rebased_of_marker origin base hvalue
      rw [hrebased]
      refine .object fun m hm => ?_
      rcases Entries.mem_of_mem_insert hm with rfl | hm
      · obtain ⟨hkey, hmarker⟩ := h.ofMember (Entries.mem_of_get? hvalue)
        refine ⟨hkey, fun text hmem => ?_⟩
        obtain rfl := List.mem_singleton.mp hmem
        exact hmarker.ofString.rebase horigin
      · exact h.ofMember hm
    · refine h.mapParts (fun part hpart part' hpart' => ?_)
        (mapParts?_rebased origin base (not_exists.mp htext))
      rw [← Option.some.inj hpart']
      exact ih part hpart (h.ofPart hpart)

end Json.AllTexts

end ThingTypes
