import ThingTypes.Json.Text
import ThingTypes.Proofs.Decimal.Text
import ThingTypes.Text.Digits

/-
  The text of a JSON value can be read in one way only. A string ends at the first quote that is
  not escaped, a number at the first character that numbers do not have, and an array or object at
  its bracket. So different values have different texts.
-/

namespace ThingTypes

/-! ## Strings -/

namespace Json

/-- One character of a string, read back. A quote ends the string. -/
def readEscaped : List Char → Option (Char × List Char)
  | [] => none
  | '"' :: _ => none
  | '\\' :: 'n' :: rest => some ('\n', rest)
  | '\\' :: 'r' :: rest => some ('\r', rest)
  | '\\' :: 't' :: rest => some ('\t', rest)
  | '\\' :: 'b' :: rest => some ('\x08', rest)
  | '\\' :: 'f' :: rest => some ('\x0c', rest)
  | '\\' :: 'u' :: a :: b :: c :: d :: rest =>
    (Text.natural? 16 [a, b, c, d]).map fun n => (Char.ofNat n, rest)
  | '\\' :: c :: rest => some (c, rest)
  | c :: rest => some (c, rest)

theorem natural?_controlDigits : ∀ n < 32,
    Text.natural? 16 ['0', '0', Nat.digitChar (n / 16), Nat.digitChar (n % 16)] = some n := by
  decide

theorem readEscaped_of_plain {c : Char} (hquote : c ≠ '"') (hbackslash : c ≠ '\\')
    (rest : List Char) : readEscaped (c :: rest) = some (c, rest) := by
  rw [readEscaped.eq_def]
  split <;> simp_all

theorem readEscaped_escape_append (c : Char) (rest : List Char) :
    readEscaped (escape c ++ rest) = some (c, rest) := by
  unfold escape
  split_ifs with hquote hbackslash hn hr ht hb hf hcontrol
  · rw [hquote]
    rfl
  · rw [hbackslash]
    rfl
  · rw [hn]
    rfl
  · rw [hr]
    rfl
  · rw [ht]
    rfl
  · rw [hb]
    rfl
  · rw [hf]
    rfl
  · simp only [List.cons_append, List.nil_append, readEscaped]
    rw [natural?_controlDigits _ hcontrol, Option.map_some, Char.ofNat_toNat]
  · exact readEscaped_of_plain hquote hbackslash rest

theorem escaped_append_inj {cs ds : List Char} {x y : List Char}
    (h : cs.flatMap escape ++ '"' :: x = ds.flatMap escape ++ '"' :: y) : cs = ds ∧ x = y := by
  induction cs generalizing ds with
  | nil =>
    cases ds with
    | nil => exact ⟨rfl, List.tail_eq_of_cons_eq h⟩
    | cons d ds =>
      have hread := congrArg readEscaped h
      rw [List.flatMap_cons, List.append_assoc, readEscaped_escape_append] at hread
      cases hread
  | cons c cs ih =>
    rw [List.flatMap_cons, List.append_assoc] at h
    cases ds with
    | nil =>
      have hread := congrArg readEscaped h
      rw [readEscaped_escape_append] at hread
      cases hread
    | cons d ds =>
      rw [List.flatMap_cons, List.append_assoc] at h
      have hread := congrArg readEscaped h
      rw [readEscaped_escape_append, readEscaped_escape_append, Option.some.injEq,
        Prod.mk.injEq] at hread
      obtain ⟨rfl, hrest⟩ := hread
      obtain ⟨rfl, hxy⟩ := ih hrest
      exact ⟨rfl, hxy⟩

theorem renderString_append_inj {s t : String} {x y : List Char}
    (h : renderString s ++ x = renderString t ++ y) : s = t ∧ x = y := by
  simp only [renderString, List.cons_append, List.append_assoc, List.nil_append,
    List.cons.injEq, true_and] at h
  obtain ⟨hlist, hxy⟩ := escaped_append_inj h
  exact ⟨String.toList_injective hlist, hxy⟩

end Json

/-! ## Numbers -/

namespace JsonNumber

theorem layout_wholeFraction : layout.wholeFraction = true := rfl

theorem render_integer (n : ℤ) :
    render (.integer n) =
      if 0 ≤ n then Nat.toDigits 10 n.toNat else '-' :: Nat.toDigits 10 (-n).toNat := by
  rw [render, Int.toString_eq_repr, Int.repr_eq_if]
  split
  · exact Nat.toList_repr
  · rw [String.toList_append, Nat.toList_repr]
    rfl

/-- The text of an integer has neither a point nor an exponent. -/
theorem isDigit_of_mem_render_integer {n : ℤ} {c : Char} (hc : c ∈ render (.integer n)) :
    c.isDigit = true ∨ c = '-' := by
  rw [render_integer] at hc
  split at hc
  · exact .inl (Nat.isDigit_of_mem_toDigits (by decide) (by decide) hc)
  · rcases List.mem_cons.mp hc with rfl | hc
    · exact .inr rfl
    · exact .inl (Nat.isDigit_of_mem_toDigits (by decide) (by decide) hc)

theorem minus_not_mem_toDigits (n : ℕ) : '-' ∉ Nat.toDigits 10 n := fun hmem =>
  absurd (Nat.isDigit_of_mem_toDigits (by decide) (by decide) hmem) (by decide)

theorem render_integer_inj {m n : ℤ} (h : render (.integer m) = render (.integer n)) : m = n := by
  rw [render_integer, render_integer] at h
  split at h <;> split at h
  · have habs := DecimalLayout.toDigits_injective h
    omega
  · exact absurd (h ▸ List.mem_cons_self) (minus_not_mem_toDigits m.toNat)
  · exact absurd (h ▸ List.mem_cons_self) (minus_not_mem_toDigits n.toNat)
  · have habs := DecimalLayout.toDigits_injective (List.tail_eq_of_cons_eq h)
    omega

theorem render_integer_ne_real (n : ℤ) (x : Binary64) : render (.integer n) ≠ render (.real x) := by
  intro h
  have hmark : '.' ∈ render (.integer n) ∨ 'e' ∈ render (.integer n) := by
    rw [h]
    exact DecimalLayout.mark_mem_text layout_wholeFraction x
  rcases hmark with hmem | hmem
  · exact absurd (isDigit_of_mem_render_integer hmem) (by decide)
  · exact absurd (isDigit_of_mem_render_integer hmem) (by decide)

theorem render_injective : Function.Injective render := by
  intro m n h
  cases m with
  | integer m =>
    cases n with
    | integer n => rw [render_integer_inj h]
    | real y => exact absurd h (render_integer_ne_real m y)
  | real x =>
    cases n with
    | integer n => exact absurd h.symm (render_integer_ne_real n x)
    | real y => rw [DecimalLayout.text_injective layout_wholeFraction h]

/-- A character that occurs in numbers. -/
def isMark (c : Char) : Bool :=
  c.isDigit || ['.', 'e', '+', '-'].contains c

theorem isMark_of_mem_render {n : JsonNumber} {c : Char} (hc : c ∈ n.render) : isMark c = true := by
  have hc : c.isDigit = true ∨ c ∈ ['.', 'e', '+', '-'] := by
    cases n with
    | integer n =>
      refine (isDigit_of_mem_render_integer hc).imp_right fun h => ?_
      rw [h]
      decide
    | real x => exact DecimalLayout.mem_text layout_wholeFraction hc
  simpa [isMark] using hc

theorem render_ne_nil (n : JsonNumber) : n.render ≠ [] := by
  cases n with
  | integer n =>
    rw [render_integer]
    split
    · exact Nat.toDigits_ne_nil
    · exact List.cons_ne_nil _ _
  | real x =>
    intro h
    have hmark := DecimalLayout.mark_mem_text layout_wholeFraction x
    rw [render] at h
    simp [h] at hmark

/-- Nothing that could go on a number. -/
def Ends (x : List Char) : Prop :=
  ∀ c, x.head? = some c → isMark c = false

theorem ends_nil : Ends [] := by
  rintro _ ⟨⟩

theorem ends_cons {c : Char} (hc : isMark c = false) (x : List Char) : Ends (c :: x) := by
  rintro _ ⟨⟩
  exact hc

theorem render_append_inj {m n : JsonNumber} {x y : List Char} (hx : Ends x) (hy : Ends y)
    (h : m.render ++ x = n.render ++ y) : m = n ∧ x = y := by
  have htake {n : JsonNumber} {x : List Char} (hx : Ends x) :
      (n.render ++ x).takeWhile isMark = n.render := by
    rw [List.takeWhile_append_of_pos fun c hc => isMark_of_mem_render hc]
    cases x with
    | nil => simp
    | cons c x =>
      rw [List.takeWhile_cons_of_neg (by rw [hx c rfl]; decide), List.append_nil]
  have hrender : m.render = n.render := by
    rw [← htake hx, h, htake hy]
  refine ⟨render_injective hrender, ?_⟩
  rw [hrender] at h
  exact List.append_cancel_left h

end JsonNumber

/-! ## Values -/

namespace Json

/-- The character that a value starts with. Numbers have no one such. -/
def opener? : Json → Option Char
  | null => some 'n'
  | bool true => some 't'
  | bool false => some 'f'
  | number _ => none
  | string _ => some '"'
  | array _ => some '['
  | object _ => some '\x7b'

theorem exists_render_eq_cons (j : Json) :
    ∃ c rest, j.render = c :: rest ∧
      j.opener? = if JsonNumber.isMark c then none else some c := by
  rcases j with _ | (_ | _) | n | s | items | members
  case number =>
    obtain ⟨c, rest, hrender⟩ := List.exists_cons_of_ne_nil n.render_ne_nil
    refine ⟨c, rest, by rw [render, hrender], ?_⟩
    rw [JsonNumber.isMark_of_mem_render (hrender ▸ List.mem_cons_self)]
    rfl
  all_goals
    rw [render]
    exact ⟨_, _, rfl, rfl⟩

theorem opener?_eq_of_render_append_eq {j k : Json} {x y : List Char}
    (h : j.render ++ x = k.render ++ y) : j.opener? = k.opener? := by
  obtain ⟨c, rest, hj, hopener⟩ := j.exists_render_eq_cons
  obtain ⟨d, rest', hk, hopener'⟩ := k.exists_render_eq_cons
  rw [hj, hk, List.cons_append, List.cons_append, List.cons.injEq] at h
  rw [hopener, hopener', h.1]

/-- What follows an item of an array: a comma and the next one, or the bracket. -/
def itemsTail : List Json → List Char → List Char
  | [], x => ']' :: x
  | j :: rest, x => ',' :: (renderItems (j :: rest) ++ ']' :: x)

def membersTail : List (String × Json) → List Char → List Char
  | [], x => '\x7d' :: x
  | m :: rest, x => ',' :: (renderMembers (m :: rest) ++ '\x7d' :: x)

theorem renderItems_cons_append (j : Json) (rest : List Json) (x : List Char) :
    renderItems (j :: rest) ++ ']' :: x = j.render ++ itemsTail rest x := by
  cases rest with
  | nil => rw [renderItems, itemsTail]
  | cons k rest => rw [renderItems, itemsTail, List.append_assoc, List.cons_append]

theorem renderMembers_cons_append (key : String) (j : Json) (rest : List (String × Json))
    (x : List Char) :
    renderMembers ((key, j) :: rest) ++ '\x7d' :: x =
      renderString key ++ ':' :: (j.render ++ membersTail rest x) := by
  cases rest with
  | nil => rw [renderMembers, membersTail, List.append_assoc, List.cons_append]
  | cons m rest =>
    rw [renderMembers, membersTail]
    simp only [List.append_assoc, List.cons_append]

theorem ends_itemsTail (rest : List Json) (x : List Char) : JsonNumber.Ends (itemsTail rest x) := by
  cases rest with
  | nil => exact JsonNumber.ends_cons rfl _
  | cons j rest => exact JsonNumber.ends_cons rfl _

theorem ends_membersTail (rest : List (String × Json)) (x : List Char) :
    JsonNumber.Ends (membersTail rest x) := by
  cases rest with
  | nil => exact JsonNumber.ends_cons rfl _
  | cons m rest => exact JsonNumber.ends_cons rfl _

/-- No item starts with the bracket. -/
theorem renderItems_cons_append_ne (j : Json) (rest : List Json) (x y : List Char) :
    renderItems (j :: rest) ++ ']' :: x ≠ ']' :: y := by
  intro h
  obtain ⟨c, _, hrender, hopener⟩ := j.exists_render_eq_cons
  rw [renderItems_cons_append, hrender, List.cons_append, List.cons.injEq] at h
  rw [h.1] at hopener
  rcases j with _ | (_ | _) | _ | _ | _ | _ <;> cases hopener

theorem renderMembers_cons_append_ne (m : String × Json) (rest : List (String × Json))
    (x y : List Char) : renderMembers (m :: rest) ++ '\x7d' :: x ≠ '\x7d' :: y := by
  intro h
  rw [renderMembers_cons_append, renderString, List.cons_append, List.cons.injEq] at h
  cases h.1

mutual

/-- A value is read back from the start of a text, up to what cannot belong to it. -/
theorem render_append_inj : ∀ (j k : Json) {x y : List Char}, JsonNumber.Ends x →
    JsonNumber.Ends y → j.render ++ x = k.render ++ y → j = k ∧ x = y
  | null, k, x, y, _, _, h => by
    have hopener := opener?_eq_of_render_append_eq h
    rcases k with _ | (_ | _) | _ | _ | _ | _ <;> cases hopener
    exact ⟨rfl, List.append_cancel_left h⟩
  | bool true, k, x, y, _, _, h => by
    have hopener := opener?_eq_of_render_append_eq h
    rcases k with _ | (_ | _) | _ | _ | _ | _ <;> cases hopener
    exact ⟨rfl, List.append_cancel_left h⟩
  | bool false, k, x, y, _, _, h => by
    have hopener := opener?_eq_of_render_append_eq h
    rcases k with _ | (_ | _) | _ | _ | _ | _ <;> cases hopener
    exact ⟨rfl, List.append_cancel_left h⟩
  | number n, k, x, y, hx, hy, h => by
    have hopener := opener?_eq_of_render_append_eq h
    rcases k with _ | (_ | _) | _ | _ | _ | _ <;> cases hopener
    obtain ⟨rfl, hxy⟩ := JsonNumber.render_append_inj hx hy h
    exact ⟨rfl, hxy⟩
  | string s, k, x, y, _, _, h => by
    have hopener := opener?_eq_of_render_append_eq h
    rcases k with _ | (_ | _) | _ | _ | _ | _ <;> cases hopener
    obtain ⟨rfl, hxy⟩ := renderString_append_inj h
    exact ⟨rfl, hxy⟩
  | array items, k, x, y, _, _, h => by
    have hopener := opener?_eq_of_render_append_eq h
    rcases k with _ | (_ | _) | _ | _ | items' | _ <;> cases hopener
    simp only [render, List.cons_append, List.append_assoc, List.nil_append, List.cons.injEq,
      true_and] at h
    obtain ⟨rfl, hxy⟩ := renderItems_append_inj items items' h
    exact ⟨rfl, hxy⟩
  | object members, k, x, y, _, _, h => by
    have hopener := opener?_eq_of_render_append_eq h
    rcases k with _ | (_ | _) | _ | _ | _ | members' <;> cases hopener
    simp only [render, List.cons_append, List.append_assoc, List.nil_append, List.cons.injEq,
      true_and] at h
    obtain ⟨rfl, hxy⟩ := renderMembers_append_inj members members' h
    exact ⟨rfl, hxy⟩

theorem renderItems_append_inj : ∀ (l m : List Json) {x y : List Char},
    renderItems l ++ ']' :: x = renderItems m ++ ']' :: y → l = m ∧ x = y
  | [], [], _, _, h => ⟨rfl, List.tail_eq_of_cons_eq h⟩
  | [], k :: m, _, _, h => absurd h.symm (renderItems_cons_append_ne k m _ _)
  | j :: l, [], _, _, h => absurd h (renderItems_cons_append_ne j l _ _)
  | j :: l, k :: m, x, y, h => by
    rw [renderItems_cons_append, renderItems_cons_append] at h
    obtain ⟨rfl, htail⟩ := render_append_inj j k (ends_itemsTail l x) (ends_itemsTail m y) h
    rcases l with _ | ⟨j', l⟩ <;> rcases m with _ | ⟨k', m⟩
    · exact ⟨rfl, List.tail_eq_of_cons_eq htail⟩
    · cases htail
    · cases htail
    · obtain ⟨hrest, hxy⟩ :=
        renderItems_append_inj (j' :: l) (k' :: m) (List.tail_eq_of_cons_eq htail)
      exact ⟨congrArg _ hrest, hxy⟩

theorem renderMembers_append_inj : ∀ (l m : List (String × Json)) {x y : List Char},
    renderMembers l ++ '\x7d' :: x = renderMembers m ++ '\x7d' :: y → l = m ∧ x = y
  | [], [], _, _, h => ⟨rfl, List.tail_eq_of_cons_eq h⟩
  | [], k :: m, _, _, h => absurd h.symm (renderMembers_cons_append_ne k m _ _)
  | j :: l, [], _, _, h => absurd h (renderMembers_cons_append_ne j l _ _)
  | (key, j) :: l, (key', k) :: m, x, y, h => by
    rw [renderMembers_cons_append, renderMembers_cons_append] at h
    obtain ⟨rfl, hvalue⟩ := renderString_append_inj h
    obtain ⟨rfl, htail⟩ := render_append_inj j k (ends_membersTail l x) (ends_membersTail m y)
      (List.tail_eq_of_cons_eq hvalue)
    rcases l with _ | ⟨j', l⟩ <;> rcases m with _ | ⟨k', m⟩
    · exact ⟨rfl, List.tail_eq_of_cons_eq htail⟩
    · cases htail
    · cases htail
    · obtain ⟨hrest, hxy⟩ :=
        renderMembers_append_inj (j' :: l) (k' :: m) (List.tail_eq_of_cons_eq htail)
      exact ⟨congrArg _ hrest, hxy⟩

end

/-- Different values have different texts. -/
theorem compact_injective : Function.Injective compact := by
  intro j k h
  have hrender : j.render ++ [] = k.render ++ [] := by
    rw [List.append_nil, List.append_nil]
    exact String.ofList_injective h
  exact (render_append_inj j k JsonNumber.ends_nil JsonNumber.ends_nil hrender).1

/-- Values of one canonical text differ in the order of members at most. -/
theorem canonical_eq_iff {j k : Json} : j.canonical = k.canonical ↔ j.sorted = k.sorted :=
  ⟨fun h => compact_injective h, fun h => congrArg compact h⟩

end Json

end ThingTypes
