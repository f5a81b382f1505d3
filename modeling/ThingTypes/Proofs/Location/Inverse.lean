import ThingTypes.Proofs.Location

/-
  Finding an href and reading it again. Whatever is read from a base starts with as many `..` as
  the directory of the base does, since nothing takes these back. A location in normal form
  with at least as many is reached by the href that is found for it, whatever it is called; for any
  other one there is no relative href at all.
-/

namespace ThingTypes.Location

variable {base target href : String} {l m kept left down : List Segment} {n : ℕ}

/-- How often a path goes up before it names anything. -/
def leadingUps (l : List Segment) : ℕ :=
  (l.takeWhile (· = up)).length

theorem le_leadingUps_iff : n ≤ leadingUps l ↔ List.replicate n up <+: l := by
  induction l generalizing n with
  | nil => cases n <;> simp [leadingUps, List.replicate_succ]
  | cons s l ih =>
    cases n with
    | zero => simp
    | succ n =>
      rw [List.replicate_succ, List.cons_prefix_cons, ← ih]
      by_cases hs : s = up
      · subst hs
        simp [leadingUps]
      · simp [leadingUps, hs, Ne.symm hs]

/-- What goes up at the start of a path does so before a part without `..`. -/
theorem leadingUps_append_le (hleft : up ∉ left) : leadingUps (kept ++ left) ≤ leadingUps kept := by
  rw [le_leadingUps_iff]
  have hups : List.replicate (leadingUps (kept ++ left)) up <+: kept ++ left :=
    le_leadingUps_iff.mp (le_refl _)
  rcases List.prefix_or_prefix_of_prefix hups (List.prefix_append kept left) with h | h
  · exact h
  · obtain ⟨rest, hrest⟩ := h
    rw [← hrest, List.prefix_append_right_inj] at hups
    have hnone : rest = [] := by
      refine List.eq_nil_iff_forall_not_mem.mpr fun s hs => ?_
      have hmem : s ∈ List.replicate (leadingUps (kept ++ left)) up := by
        rw [← hrest]
        exact List.mem_append_right _ hs
      exact hleft (List.eq_of_mem_replicate hmem ▸ hups.subset hs)
    rw [← hrest, hnone, List.append_nil]

theorem leadingUps_le_append (kept down : List Segment) :
    leadingUps kept ≤ leadingUps (kept ++ down) :=
  le_leadingUps_iff.mpr ((le_leadingUps_iff.mp (le_refl _)).trans (List.prefix_append kept down))

/-- Reading an href takes back no `..` of the directory. -/
theorem leadingUps_le_normalSegments (directory l : List Segment) :
    leadingUps (normalSegments false directory) ≤
      leadingUps (normalSegments false (directory ++ l)) := by
  obtain ⟨kept, left, down, hdirectory, hleft, hreached, -⟩ := exists_turn directory l
  rw [hdirectory, hreached]
  exact (leadingUps_append_le fun hmem => (hleft up hmem).2.2 rfl).trans
    (leadingUps_le_append kept down)

/-- The rest of a directory names directories only, if the other path goes up as often at least. -/
theorem up_not_mem_left_iff (hl : IsNormal l) (hdrop : dropCommon l m = (left, down)) :
    up ∉ left ↔ leadingUps l ≤ leadingUps m := by
  constructor
  · intro hleft
    obtain ⟨common, hlCommon, hmCommon⟩ := exists_dropCommon l m
    rw [hdrop] at hlCommon hmCommon
    rw [hlCommon, hmCommon]
    exact (leadingUps_append_le hleft).trans (leadingUps_le_append common down)
  · intro hups
    obtain ⟨n, names, rfl, hnames⟩ := hl
    have hn : n ≤ leadingUps (List.replicate n up ++ names) :=
      le_leadingUps_iff.mpr (List.prefix_append _ _)
    obtain ⟨rest, rfl⟩ := le_leadingUps_iff.mp (hn.trans hups)
    rw [dropCommon_append] at hdrop
    obtain ⟨common, hcommon, -⟩ := exists_dropCommon names rest
    rw [hdrop] at hcommon
    intro hmem
    have hname : up ∈ names := by
      rw [hcommon]
      exact List.mem_append_right _ hmem
    exact (hnames up hname).2.2 rfl

/-- A location in normal form is its normal segments. -/
theorem toList_of_normalized (htarget : IsRelative target.toList)
    (hnormal : normalized target = target) :
    target.toList = joinSegments (normalSegments false (segments target.toList)) := by
  rw [← normalize_of_isRelative htarget]
  exact (congrArg String.toList hnormal).symm.trans (String.toList_ofList)

/-- The segments of a location in normal form, up to the empty one of an empty location. -/
theorem leadingUps_segments_joinSegments (hslash : ∀ s ∈ l, '/' ∉ s) :
    leadingUps (segments (joinSegments l)) = leadingUps l := by
  by_cases hnil : l = []
  · subst hnil
    rfl
  · rw [segments_joinSegments hslash hnil]

/-- What a relative href leads to goes up at least as often as the directory of the base. -/
theorem leadingUps_le_resolve (hbase : IsFile base) (hhref : IsRelative href.toList) :
    leadingUps (folderSegments base) ≤ leadingUps (segments (resolve base href).toList) := by
  rw [resolve_of_isRelative hbase hhref, leadingUps_segments_joinSegments]
  · have h := leadingUps_le_normalSegments (folderSegments base) (segments href.toList)
    rwa [normalSegments_folderSegments] at h
  · intro s hs
    rcases List.mem_append.mp (mem_of_mem_normalSegments hs) with hs | hs
    · exact slash_not_mem_of_mem_folderSegments hs
    · exact slash_not_mem_of_mem_segments hs

/-- The href that is found for a location without `..` left to go up is read back. -/
theorem resolve_relativize_of_dropCommon (hbase : IsFile base) (htarget : IsRelative target.toList)
    (hnormal : normalized target = target)
    (hdrop : dropCommon (folderSegments base) (segments target.toList) = (left, down))
    (hleft : up ∉ left) : resolve base (relativize base target) = target := by
  have hself := toList_of_normalized htarget hnormal
  have hhref := toList_relativize hbase htarget hnormal hdrop
  rw [if_neg hleft] at hhref
  obtain ⟨common, hfolder, hsegments⟩ := exists_dropCommon (folderSegments base)
    (segments target.toList)
  rw [hdrop] at hfolder hsegments
  have hslash : ∀ s ∈ List.replicate left.length up ++ down, '/' ∉ s := by
    intro s hs
    rcases List.mem_append.mp hs with hs | hs
    · rw [List.eq_of_mem_replicate hs]
      decide
    · have hmem : s ∈ segments target.toList := by
        rw [hsegments]
        exact List.mem_append_right _ hs
      exact slash_not_mem_of_mem_segments hmem
  have hempty : [] ∉ (List.replicate left.length up ++ down).dropLast :=
    nil_not_mem_way (hsegments ▸ nil_not_mem_of_normal hself)
  have hnames : ∀ s ∈ left, IsName s := by
    intro s hs
    have hmem : s ∈ folderSegments base := by
      rw [hfolder]
      exact List.mem_append_right _ hs
    exact (isNormal_normalSegments _).isName hmem fun hup => hleft (hup ▸ hs)
  refine String.toList_injective ?_
  calc (resolve base (relativize base target)).toList
      = joinSegments (normalSegments false
          (folderSegments base ++ (List.replicate left.length up ++ down))) :=
        resolve_of_segments hbase hslash hempty hhref
    _ = joinSegments (normalSegments false
          (common ++ left ++ List.replicate left.length up ++ down)) := by
        rw [hfolder, List.append_assoc (common ++ left)]
    _ = joinSegments (normalSegments false (segments target.toList)) := by
        rw [normalSegments_back_all common down hnames, hsegments]
    _ = target.toList := hself.symm

/-- The href that is found for a location in normal form is read back exactly if the location goes
up at least as often as the directory of the base. -/
theorem resolve_relativize_iff (hbase : IsFile base) (htarget : IsRelative target.toList)
    (hnormal : normalized target = target) :
    resolve base (relativize base target) = target ↔
      leadingUps (folderSegments base) ≤ leadingUps (segments target.toList) := by
  obtain ⟨⟨left, down⟩, hdrop⟩ : ∃ rest, dropCommon (folderSegments base)
    (segments target.toList) = rest := ⟨_, rfl⟩
  have hups := up_not_mem_left_iff (isNormal_normalSegments _) hdrop
  constructor
  · intro hread
    by_cases hleft : up ∈ left
    · -- the location is its own href, and it is read from the directory of the base
      have hhref := toList_relativize hbase htarget hnormal hdrop
      rw [if_pos hleft] at hhref
      have hrelative : IsRelative (relativize base target).toList := by rwa [hhref]
      have hle := leadingUps_le_resolve hbase hrelative
      rwa [hread] at hle
    · exact hups.mp hleft
  · intro hle
    exact resolve_relativize_of_dropCommon hbase htarget hnormal hdrop (hups.mpr hle)

/-- From `../../rooms`, written with detours, to a location beside it. -/
theorem resolve_relativize_iff_units :
    IsFile "../../rooms/./hall//../lamp.json" ∧ IsRelative "../../shared/units.json".toList ∧
      normalized "../../shared/units.json" = "../../shared/units.json" ∧
      leadingUps (folderSegments "../../rooms/./hall//../lamp.json") = 2 ∧
      relativize "../../rooms/./hall//../lamp.json" "../../shared/units.json" =
        "../shared/units.json" ∧
      resolve "../../rooms/./hall//../lamp.json"
        (relativize "../../rooms/./hall//../lamp.json" "../../shared/units.json") =
          "../../shared/units.json" :=
  ⟨by decide, by decide, by decide, by decide, by decide,
    (resolve_relativize_iff (by decide) (by decide) (by decide)).mpr (by decide)⟩

end ThingTypes.Location
