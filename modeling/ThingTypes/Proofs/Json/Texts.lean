import ThingTypes.Proofs.Identifier.Plain
import ThingTypes.Proofs.Json.Parts
import ThingTypes.Proofs.Json.Text

/-
  The texts of a value: its strings and the keys of its objects, at any depth. What a value is
  written with besides is of ASCII.
-/

namespace ThingTypes.Json

mutual

/-- The strings in a value and the keys of its objects. -/
def texts : Json → List String
  | string s => [s]
  | array items => textsOfItems items
  | object members => textsOfMembers members
  | _ => []

def textsOfItems : List Json → List String
  | [] => []
  | j :: rest => texts j ++ textsOfItems rest

def textsOfMembers : List (String × Json) → List String
  | [] => []
  | (key, j) :: rest => key :: (texts j ++ textsOfMembers rest)

end

variable {j : Json} {text : String} {P : String → Prop}

theorem mem_textsOfItems_iff {items : List Json} :
    text ∈ textsOfItems items ↔ ∃ j ∈ items, text ∈ j.texts := by
  induction items with
  | nil => simp [textsOfItems]
  | cons j rest ih => simp [textsOfItems, ih]

theorem mem_textsOfMembers_iff {members : List (String × Json)} :
    text ∈ textsOfMembers members ↔
      text ∈ members.map Prod.fst ∨ ∃ j ∈ members.map Prod.snd, text ∈ j.texts := by
  induction members with
  | nil => simp [textsOfMembers]
  | cons m rest ih =>
    simp only [textsOfMembers, List.mem_cons, List.mem_append, ih, List.map_cons,
      exists_eq_or_imp]
    tauto

theorem mem_texts_iff :
    text ∈ j.texts ↔ j = string text ∨ text ∈ j.keys ∨ ∃ part ∈ j.parts, text ∈ part.texts := by
  cases j with
  | string s => simp [texts, keys, parts, eq_comm]
  | array items => simp [texts, keys, parts, mem_textsOfItems_iff]
  | object members => simp only [texts, keys, parts, mem_textsOfMembers_iff, reduceCtorEq, false_or]
  | _ => simp [texts, keys, parts]

/-- All texts of a value are of a kind. -/
def AllTexts (P : String → Prop) (j : Json) : Prop :=
  ∀ text ∈ j.texts, P text

instance [DecidablePred P] : DecidablePred (AllTexts P) := fun j =>
  inferInstanceAs (Decidable (∀ text ∈ j.texts, P text))

theorem allTexts_iff : j.AllTexts P ↔
    (∀ s, j = string s → P s) ∧ (∀ key ∈ j.keys, P key) ∧ ∀ part ∈ j.parts, part.AllTexts P := by
  constructor
  · intro h
    exact ⟨fun s hs => h s (mem_texts_iff.mpr (.inl hs)),
      fun key hkey => h key (mem_texts_iff.mpr (.inr (.inl hkey))),
      fun part hpart text htext => h text (mem_texts_iff.mpr (.inr (.inr ⟨part, hpart, htext⟩)))⟩
  · rintro ⟨hstring, hkeys, hparts⟩ text htext
    rcases mem_texts_iff.mp htext with hsame | hkey | ⟨part, hpart, htext⟩
    · exact hstring text hsame
    · exact hkeys text hkey
    · exact hparts part hpart text htext

namespace AllTexts

theorem ofString {s : String} (h : (string s).AllTexts P) : P s :=
  (allTexts_iff.mp h).1 s rfl

theorem ofKey (h : j.AllTexts P) {key : String} (hkey : key ∈ j.keys) : P key :=
  (allTexts_iff.mp h).2.1 key hkey

theorem ofPart (h : j.AllTexts P) {part : Json} (hpart : part ∈ j.parts) : part.AllTexts P :=
  (allTexts_iff.mp h).2.2 part hpart

theorem ofMember {members : List (String × Json)} (h : (object members).AllTexts P)
    {m : String × Json} (hm : m ∈ members) : P m.1 ∧ m.2.AllTexts P :=
  ⟨h.ofKey (List.mem_map_of_mem hm), h.ofPart (List.mem_map_of_mem hm)⟩

theorem object {members : List (String × Json)} (h : ∀ m ∈ members, P m.1 ∧ m.2.AllTexts P) :
    (Json.object members).AllTexts P :=
  allTexts_iff.mpr ⟨nofun, List.forall_mem_map.mpr fun m hm => (h m hm).1,
    List.forall_mem_map.mpr fun m hm => (h m hm).2⟩

theorem array {items : List Json} (h : ∀ item ∈ items, item.AllTexts P) :
    (Json.array items).AllTexts P :=
  allTexts_iff.mpr ⟨nofun, nofun, h⟩

theorem mapParts {f : Json → Option Json} {k : Json} (h : j.AllTexts P)
    (hf : ∀ part ∈ j.parts, ∀ part', f part = some part' → part'.AllTexts P)
    (hk : j.mapParts? f = some k) : k.AllTexts P := by
  have hparts : ∀ part' ∈ k.parts, part'.AllTexts P := by
    intro part' hpart'
    obtain ⟨part, hpart, hsome⟩ := (mem_parts_iff_of_mapParts? hk).mp hpart'
    exact hf part hpart part' hsome
  have hkeys : ∀ key ∈ k.keys, P key := by
    rw [keys_of_mapParts? hk]
    exact (allTexts_iff.mp h).2.1
  refine allTexts_iff.mpr ⟨?_, hkeys, hparts⟩
  rintro s rfl
  cases j <;> simp [mapParts?] at hk
  subst hk
  exact h.ofString

end AllTexts

/-! ## Written values -/

theorem mem_escape {c d : Char} (hd : d ∈ escape c) : d.toNat < 0x80 ∨ d = c := by
  have hdigits : ∀ n < 0x20,
      (Nat.digitChar (n / 16)).toNat < 0x80 ∧ (Nat.digitChar (n % 16)).toNat < 0x80 := by
    decide
  unfold escape at hd
  split_ifs at hd with hquote hbackslash hn hr ht hb hf hcontrol
  case neg => exact .inr (List.mem_singleton.mp hd)
  all_goals
    left
    simp only [List.mem_cons, List.not_mem_nil, or_false] at hd
  any_goals obtain rfl | rfl := hd <;> decide
  -- What is left is a control character by its number.
  obtain ⟨hhigh, hlow⟩ := hdigits c.toNat hcontrol
  obtain rfl | rfl | rfl | rfl | rfl | rfl := hd
  iterate 4 decide
  · exact hhigh
  · exact hlow

theorem mem_renderString {s : String} {c : Char} (hc : c ∈ renderString s) :
    c.toNat < 0x80 ∨ c ∈ s.toList := by
  rw [renderString, List.mem_cons, List.mem_append, List.mem_singleton, List.mem_flatMap] at hc
  obtain rfl | ⟨d, hd, hc⟩ | rfl := hc
  · exact .inl (by decide)
  · rcases mem_escape hc with hlow | rfl
    · exact .inl hlow
    · exact .inr hd
  · exact .inl (by decide)

theorem mem_renderItems {c : Char} {items : List Json} (hc : c ∈ renderItems items) :
    c = ',' ∨ ∃ j ∈ items, c ∈ j.render := by
  induction items with
  | nil => cases hc
  | cons j rest ih =>
    cases rest with
    | nil => exact .inr ⟨j, List.mem_singleton_self j, hc⟩
    | cons k rest =>
      rw [renderItems, List.mem_append, List.mem_cons] at hc
      rcases hc with hc | hc | hc
      · exact .inr ⟨j, List.mem_cons_self, hc⟩
      · exact .inl hc
      · obtain hcomma | ⟨item, hitem, hc⟩ := ih hc
        · exact .inl hcomma
        · exact .inr ⟨item, List.mem_cons_of_mem _ hitem, hc⟩

theorem mem_renderMembers {c : Char} {members : List (String × Json)}
    (hc : c ∈ renderMembers members) :
    c = ',' ∨ c = ':' ∨ ∃ m ∈ members, c ∈ renderString m.1 ∨ c ∈ m.2.render := by
  induction members with
  | nil => cases hc
  | cons m rest ih =>
    cases rest with
    | nil =>
      rw [renderMembers, List.mem_append, List.mem_cons] at hc
      rcases hc with hc | hc | hc
      · exact .inr (.inr ⟨m, List.mem_singleton_self m, .inl hc⟩)
      · exact .inr (.inl hc)
      · exact .inr (.inr ⟨m, List.mem_singleton_self m, .inr hc⟩)
    | cons n rest =>
      rw [renderMembers, List.mem_append, List.mem_cons, List.mem_append, List.mem_cons] at hc
      rcases hc with hc | hc | hc | hc | hc
      · exact .inr (.inr ⟨m, List.mem_cons_self, .inl hc⟩)
      · exact .inr (.inl hc)
      · exact .inr (.inr ⟨m, List.mem_cons_self, .inr hc⟩)
      · exact .inl hc
      · obtain hcomma | hcolon | ⟨member, hmember, hc⟩ := ih hc
        · exact .inl hcomma
        · exact .inr (.inl hcolon)
        · exact .inr (.inr ⟨member, List.mem_cons_of_mem _ hmember, hc⟩)

theorem lt_of_isMark {c : Char} (h : JsonNumber.isMark c = true) : c.toNat < 0x80 := by
  rw [JsonNumber.isMark, Bool.or_eq_true] at h
  rcases h with hdigit | hmark
  · exact lt_of_isAlphanum (by simp [Char.isAlphanum, hdigit])
  · have hmarks : ∀ mark ∈ ['.', 'e', '+', '-'], mark.toNat < 0x80 := by simp
    exact hmarks c (List.contains_iff_mem.mp hmark)

/-- A value is written with characters of ASCII and those of its texts. -/
theorem mem_render (j : Json) :
    ∀ c ∈ j.render, c.toNat < 0x80 ∨ ∃ text ∈ j.texts, c ∈ text.toList := by
  induction j using byParts with
  | step j ih =>
    intro c hc
    have hpart {part : Json} (hmem : part ∈ j.parts) (hc : c ∈ part.render) :
        c.toNat < 0x80 ∨ ∃ text ∈ j.texts, c ∈ text.toList :=
      (ih part hmem c hc).imp_right fun ⟨text, htext, hc⟩ =>
        ⟨text, mem_texts_iff.mpr (.inr (.inr ⟨part, hmem, htext⟩)), hc⟩
    have hword {word : List Char} (hascii : word.all (·.toNat < 0x80) = true) (hc : c ∈ word) :
        c.toNat < 0x80 := by
      simpa using List.all_eq_true.mp hascii c hc
    cases j with
    | null =>
      rw [render] at hc
      exact .inl (hword (by decide : ['n', 'u', 'l', 'l'].all _ = true) hc)
    | bool b =>
      cases b <;> rw [render] at hc
      · exact .inl (hword (by decide : ['f', 'a', 'l', 's', 'e'].all _ = true) hc)
      · exact .inl (hword (by decide : ['t', 'r', 'u', 'e'].all _ = true) hc)
    | number n => exact .inl (lt_of_isMark (JsonNumber.isMark_of_mem_render hc))
    | string s =>
      exact (mem_renderString hc).imp_right fun hc => ⟨s, List.mem_singleton_self s, hc⟩
    | array items =>
      rw [render, List.mem_cons, List.mem_append, List.mem_singleton] at hc
      obtain rfl | hc | rfl := hc
      · exact .inl (by decide)
      · obtain rfl | ⟨item, hitem, hc⟩ := mem_renderItems hc
        · exact .inl (by decide)
        · exact hpart hitem hc
      · exact .inl (by decide)
    | object members =>
      rw [render, List.mem_cons, List.mem_append, List.mem_singleton] at hc
      obtain rfl | hc | rfl := hc
      · exact .inl (by decide)
      · obtain rfl | rfl | ⟨m, hm, hc | hc⟩ := mem_renderMembers hc
        · exact .inl (by decide)
        · exact .inl (by decide)
        · exact (mem_renderString hc).imp_right fun hc =>
            ⟨m.1, mem_texts_iff.mpr (.inr (.inl (List.mem_map_of_mem hm))), hc⟩
        · exact hpart (List.mem_map_of_mem hm) hc
      · exact .inl (by decide)

end ThingTypes.Json
