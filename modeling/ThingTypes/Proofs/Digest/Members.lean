import ThingTypes.Digest.Fingerprint
import ThingTypes.Proofs.Json.Agreement
import ThingTypes.Proofs.Text.Split

/-
  What the fingerprint of a list of members tells. Each member is one entry of its description, with
  a colon between name and type, and the entries are sorted and joined with semicolons. So the
  order of the members does not matter. Neither mark is escaped, however: what can be read back
  from a description are the pieces between the semicolons. They tell the members where no name
  has either mark and no type a semicolon. Without that, members run together: every list that is
  not empty has the fingerprint of a list of one member.
-/

namespace ThingTypes.Fingerprint

variable {l m : List (String × String)} {e : String × String}

/-! ## Descriptions -/

/-- The entry of a member. -/
def memberEntry (e : String × String) : String :=
  e.1 ++ ":" ++ e.2

/-- The entries in the order of the description. -/
def sortedEntries (l : List (String × String)) : List String :=
  sortBy textLE (l.map memberEntry)

/-- The pieces of a description between its semicolons. -/
def pieces (l : List (String × String)) : List (List Char) :=
  (sortedEntries l).flatMap fun entry => entry.toList.splitOn ';'

theorem toList_memberText (l : List (String × String)) :
    (memberText l).toList = [';'].intercalate ((sortedEntries l).map String.toList) :=
  String.toList_intercalate

theorem memberText_singleton (e : String × String) : memberText [e] = memberEntry e := by
  refine String.toList_injective ?_
  rw [toList_memberText]
  exact List.intercalate_singleton

theorem memberEntry_ne_empty (e : String × String) : memberEntry e ≠ "" := by
  intro h
  have hcolon : ':' ∈ (memberEntry e).toList := by simp [memberEntry]
  rw [h] at hcolon
  cases hcolon

theorem sortedEntries_eq_nil_iff : sortedEntries l = [] ↔ l = [] := by
  rw [← List.length_eq_zero_iff, ← List.length_eq_zero_iff, sortedEntries,
    (sortBy_perm textLE _).length_eq, List.length_map]

/-- Members run together: what follows the first entry may as well belong to its type. -/
theorem exists_memberText_singleton (hne : l ≠ []) : ∃ e, memberText [e] = memberText l := by
  obtain ⟨first, rest, hsorted⟩ := List.exists_cons_of_ne_nil (sortedEntries_eq_nil_iff.not.mpr hne)
  obtain ⟨suffix, hsuffix⟩ :
      ∃ suffix, (memberText l).toList = first.toList ++ suffix := by
    rw [toList_memberText, hsorted, List.map_cons]
    cases rest with
    | nil => exact ⟨[], by rw [List.map_nil, List.intercalate_singleton, List.append_nil]⟩
    | cons next rest =>
      rw [List.map_cons, List.intercalate_cons_cons, List.append_assoc]
      exact ⟨_, rfl⟩
  have hmem : first ∈ l.map memberEntry := by
    refine (sortBy_perm textLE _).mem_iff.mp ?_
    rw [← sortedEntries, hsorted]
    exact List.mem_cons_self
  obtain ⟨⟨name, type⟩, -, rfl⟩ := List.mem_map.mp hmem
  refine ⟨(name, type ++ String.ofList suffix), String.toList_injective ?_⟩
  rw [memberText_singleton, hsuffix]
  simp [memberEntry]

theorem memberText_eq_empty_iff : memberText l = "" ↔ l = [] := by
  constructor
  · intro h
    by_contra hne
    obtain ⟨e, he⟩ := exists_memberText_singleton hne
    rw [memberText_singleton, h] at he
    exact memberEntry_ne_empty e he
  · intro h
    subst h
    rfl

theorem splitOn_memberText (hne : l ≠ []) : (memberText l).toList.splitOn ';' = pieces l := by
  rw [toList_memberText, Text.splitOn_intercalate, List.flatMap_map]
  · rfl
  · rw [Ne, List.map_eq_nil_iff]
    exact sortedEntries_eq_nil_iff.not.mpr hne

/-- A description tells the pieces between the semicolons and no more. -/
theorem memberText_eq_iff : memberText l = memberText m ↔ pieces l = pieces m := by
  constructor
  · intro h
    by_cases hl : l = []
    · subst hl
      have hm : m = [] := memberText_eq_empty_iff.mp (h ▸ memberText_eq_empty_iff.mpr rfl)
      rw [hm]
    · have hm : m ≠ [] := by
        intro hm
        exact hl (memberText_eq_empty_iff.mp (h.trans (memberText_eq_empty_iff.mpr hm)))
      rw [← splitOn_memberText hl, ← splitOn_memberText hm, h]
  · intro h
    have hjoin {l : List (String × String)} :
        [';'].intercalate (pieces l) = (memberText l).toList := by
      by_cases hl : l = []
      · subst hl
        rfl
      · rw [← splitOn_memberText hl, List.intercalate_splitOn]
    refine String.toList_injective ?_
    rw [← hjoin, h, hjoin]

theorem memberText_eq_of_perm (h : l.Perm m) : memberText l = memberText m :=
  congrArg (";".intercalate ·) (sortBy_textLE_eq_iff.mpr (h.map memberEntry))

/-! ## Members without marks -/

/-- Neither mark stands in the name, and no semicolon in the type. -/
structure IsPlainMember (e : String × String) : Prop where
  colon : ':' ∉ e.1.toList
  semicolon : ';' ∉ e.1.toList
  type : ';' ∉ e.2.toList

instance : DecidablePred IsPlainMember := fun e =>
  decidable_of_iff (':' ∉ e.1.toList ∧ ';' ∉ e.1.toList ∧ ';' ∉ e.2.toList)
    ⟨fun h => ⟨h.1, h.2.1, h.2.2⟩, fun h => ⟨h.colon, h.semicolon, h.type⟩⟩

/-- The member that an entry is read as: the name ends at the first colon. -/
def readEntry (entry : String) : String × String :=
  (String.ofList (entry.toList.takeWhile (· ≠ ':')),
    String.ofList ((entry.toList.dropWhile (· ≠ ':')).drop 1))

theorem IsPlainMember.readEntry_memberEntry (h : IsPlainMember e) :
    readEntry (memberEntry e) = e := by
  obtain ⟨name, type⟩ := e
  have hname : ∀ c ∈ name.toList, decide (c ≠ ':') = true := by
    intro c hc
    rw [decide_eq_true_eq]
    exact fun hcolon => h.colon (hcolon ▸ hc)
  have hentry : (memberEntry (name, type)).toList = name.toList ++ ':' :: type.toList := by
    simp [memberEntry]
  rw [readEntry, hentry, List.takeWhile_append_of_pos hname, List.dropWhile_append_of_pos hname]
  simp

theorem IsPlainMember.semicolon_not_mem (h : IsPlainMember e) :
    ';' ∉ (memberEntry e).toList := by
  simp [memberEntry, h.semicolon, h.type]

theorem pieces_of_plain (h : ∀ e ∈ l, IsPlainMember e) :
    pieces l = (sortedEntries l).map String.toList := by
  rw [pieces, List.map_eq_flatMap]
  refine List.flatMap_congr fun entry hentry => ?_
  obtain ⟨e, he, rfl⟩ := List.mem_map.mp ((sortBy_perm textLE _).mem_iff.mp hentry)
  exact List.splitOn_eq_singleton (h e he).semicolon_not_mem

theorem map_readEntry_of_plain (h : ∀ e ∈ l, IsPlainMember e) :
    (l.map memberEntry).map readEntry = l := by
  rw [List.map_map]
  exact (List.map_congr_left fun e he => (h e he).readEntry_memberEntry).trans (List.map_id l)

/-- The descriptions of members without marks tell the members. -/
theorem perm_of_memberText_eq (hl : ∀ e ∈ l, IsPlainMember e) (hm : ∀ e ∈ m, IsPlainMember e)
    (h : memberText l = memberText m) : l.Perm m := by
  have hsorted : (sortedEntries l).map String.toList = (sortedEntries m).map String.toList := by
    rw [← pieces_of_plain hl, ← pieces_of_plain hm, memberText_eq_iff.mp h]
  have hentries : (l.map memberEntry).Perm (m.map memberEntry) :=
    sortBy_textLE_eq_iff.mp
      (List.map_injective_iff.mpr (fun _ _ => String.toList_injective) hsorted)
  have hread := hentries.map readEntry
  rwa [map_readEntry_of_plain hl, map_readEntry_of_plain hm] at hread

/-! ## Fingerprints -/

/-- Fingerprints of members agree exactly if the sorted entries have the same pieces between
semicolons. They do not depend on the order of the members, and they tell members without marks
apart; but every list that is not empty shares its fingerprint with a list of one member. -/
theorem ofMembers_eq_iff {digest : Digest} (l m : List (String × String))
    (hdigest : Set.InjOn digest {memberText l, memberText m}) :
    (ofMembers digest l = ofMembers digest m ↔ pieces l = pieces m) ∧
      (l.Perm m → ofMembers digest l = ofMembers digest m) ∧
      ((∀ e ∈ l, IsPlainMember e) → (∀ e ∈ m, IsPlainMember e) →
        ofMembers digest l = ofMembers digest m → l.Perm m) ∧
      (l ≠ [] → ∃ e, ofMembers digest [e] = ofMembers digest l) := by
  have htext : ofMembers digest l = ofMembers digest m ↔ memberText l = memberText m :=
    ⟨fun h => hdigest (Set.mem_insert _ _) (Set.mem_insert_of_mem _ rfl) h, congrArg digest⟩
  refine ⟨htext.trans memberText_eq_iff, fun hperm => htext.mpr (memberText_eq_of_perm hperm),
    fun hl hm h => perm_of_memberText_eq hl hm (htext.mp h), fun hne => ?_⟩
  obtain ⟨e, he⟩ := exists_memberText_singleton hne
  exact ⟨e, congrArg digest he⟩

/-- Two members, the second under a name that reads like the first one and the start of another. -/
def overlappingMembers (first second : String) : List (String × String) :=
  [("a", first), ("a:unit->string;a", second)]

theorem ofMembers_eq_iff_overlapping :
    ofMembers .sha256 (overlappingMembers "unit->string" "unit->unit") =
        ofMembers .sha256 (overlappingMembers "unit->unit" "unit->string") ∧
      ¬(overlappingMembers "unit->string" "unit->unit").Perm
        (overlappingMembers "unit->unit" "unit->string") := by
  have hpieces : pieces (overlappingMembers "unit->string" "unit->unit") =
      pieces (overlappingMembers "unit->unit" "unit->string") := by decide
  have htext := memberText_eq_iff.mpr hpieces
  refine ⟨(ofMembers_eq_iff _ _ ?_).1.mpr hpieces, by decide⟩
  rw [htext, Set.pair_eq_singleton]
  exact Set.injOn_singleton _ _

end ThingTypes.Fingerprint
