import ThingTypes.Proofs.Decimal.Text
import ThingTypes.Proofs.Json.Parts
import ThingTypes.Proofs.Text.Split

/-
  Pointers lead back to where they were made. A pointer one token deeper has one token more, and a
  part that is put at the end of the tokens is found there. A place in a value is a value with a
  hole, which has the tokens that lead to the hole.
-/

namespace ThingTypes

namespace Pointer

/-! ## Tokens -/

theorem unescape_cons {c : Char} (hc : c ≠ '~') (cs : List Char) :
    unescape (c :: cs) = c :: unescape cs := by
  conv_lhs => unfold unescape
  split <;> simp_all

theorem unescape_escape (cs : List Char) : unescape (escape cs) = cs := by
  induction cs with
  | nil => rfl
  | cons c cs ih =>
    unfold escape
    split_ifs with htilde hslash
    · rw [unescape, ih, htilde]
    · rw [unescape, ih, hslash]
    · rw [unescape_cons htilde, ih]

theorem slash_not_mem_escape (cs : List Char) : '/' ∉ escape cs := by
  induction cs with
  | nil => simp [escape]
  | cons c cs ih =>
    unfold escape
    split_ifs with htilde hslash
    · simp [ih]
    · simp [ih]
    · simp [ih, Ne.symm hslash]

theorem escape_of_plain {cs : List Char} (h : ∀ c ∈ cs, c ≠ '~' ∧ c ≠ '/') : escape cs = cs := by
  induction cs with
  | nil => rfl
  | cons c cs ih =>
    obtain ⟨hhead, hrest⟩ := List.forall_mem_cons.mp h
    rw [escape, if_neg hhead.1, if_neg hhead.2, ih hrest]

theorem tokens?_empty : tokens? "" = some [] := rfl

/-- A pointer with one more written token. -/
theorem tokens?_append {pointer : String} {tokens : List String} (h : tokens? pointer = some tokens)
    {written : List Char} (hwritten : '/' ∉ written) :
    tokens? (pointer ++ "/" ++ String.ofList written) =
      some (tokens ++ [String.ofList (unescape written)]) := by
  have htext : (pointer ++ "/" ++ String.ofList written).toList =
      pointer.toList ++ '/' :: written := by simp
  unfold tokens? at h ⊢
  rw [htext]
  cases hpointer : pointer.toList with
  | nil =>
    rw [hpointer] at h
    cases h
    simp [Text.splitOn_beq, List.splitOn_eq_singleton hwritten]
  | cons c cs =>
    rw [hpointer] at h
    by_cases hc : c = '/'
    · subst hc
      cases h
      simp [Text.splitOn_beq, List.splitOn_append_cons_self, List.splitOn_eq_singleton hwritten]
    · simp [hc] at h

theorem tokens?_child {pointer : String} {tokens : List String} (h : tokens? pointer = some tokens)
    (token : String) : tokens? (child pointer token) = some (tokens ++ [token]) := by
  rw [child, tokens?_append h (slash_not_mem_escape _), unescape_escape, String.ofList_toList]

theorem not_mem_toDigits {c : Char} (hc : c.isDigit = false) (n : Nat) : c ∉ Nat.toDigits 10 n :=
  fun hmem => by simp [Nat.isDigit_of_mem_toDigits (by decide) (by decide) hmem] at hc

/-- An index is written as it is. -/
theorem child_toString (pointer : String) (index : Nat) :
    child pointer (toString index) = item pointer index := by
  have hdigits : (toString index).toList = Nat.toDigits 10 index := Nat.toList_repr
  have hplain : ∀ c ∈ Nat.toDigits 10 index, c ≠ '~' ∧ c ≠ '/' := by
    intro c hc
    constructor <;>
    · rintro rfl
      exact not_mem_toDigits (by decide) index hc
  rw [child, item, hdigits, escape_of_plain hplain]
  rfl

theorem tokens?_item {pointer : String} {tokens : List String} (h : tokens? pointer = some tokens)
    (index : Nat) : tokens? (item pointer index) = some (tokens ++ [toString index]) := by
  rw [← child_toString, tokens?_child h]

theorem digit?_digitChar : ∀ n < 10, Text.digit? 10 n.digitChar = some n := by
  decide

theorem natural?_eq_foldlM {digits : List Char} (h : digits ≠ []) :
    Text.natural? 10 digits =
      digits.foldlM (fun n c => (Text.digit? 10 c).map (10 * n + ·)) 0 := by
  cases digits with
  | nil => exact absurd rfl h
  | cons c digits => rfl

theorem natural?_toDigits (n : Nat) : Text.natural? 10 (Nat.toDigits 10 n) = some n := by
  rw [natural?_eq_foldlM Nat.toDigits_ne_nil]
  induction n using Nat.strongRecOn with
  | ind n ih =>
    by_cases hsmall : n < 10
    · simp [Nat.toDigits_of_lt_base hsmall, digit?_digitChar n hsmall]
    · have hlast : n % 10 < 10 := Nat.mod_lt n (by decide)
      have hvalue : 10 * (n / 10) + n % 10 = n := Nat.div_add_mod n 10
      rw [Nat.toDigits_of_base_le (by decide) (by omega), List.foldlM_append,
        ih (n / 10) (by omega)]
      simp [digit?_digitChar _ hlast, hvalue]

/-- An index is read back from its text. -/
theorem index?_toString (n : Nat) : index? (toString n) = some n := by
  have hdigits : (toString n).toList = Nat.toDigits 10 n := Nat.toList_repr
  have hzero :
      ((Nat.toDigits 10 n).head? = some '0' && (Nat.toDigits 10 n).length != 1) = false := by
    by_cases hn : n = 0
    · subst hn
      decide
    · simp [head?_toDigits hn]
  simp only [index?, hdigits, hzero, Bool.false_eq_true, if_false, natural?_toDigits]

theorem digitChar_of_digit? {c : Char} {d : Nat} (h : Text.digit? 10 c = some d) :
    d < 10 ∧ d.digitChar = c := by
  obtain ⟨hvalue, hsmall⟩ := Option.filter_eq_some_iff.mp h
  have hd : d < 10 := by simpa using hsmall
  refine ⟨hd, ?_⟩
  split_ifs at hvalue with hdigit
  · have hlow : 48 ≤ c.toNat := by
      simpa [Char.isDigit, UInt32.le_iff_toNat_le] using (Bool.and_eq_true_iff.mp hdigit).1
    have hc : c.toNat = d + 48 := by
      have hsub : c.toNat - 48 = d := Option.some.inj hvalue
      omega
    rw [← Char.ofNat_toNat c, hc]
    exact (by decide : ∀ d < 10, Nat.digitChar d = Char.ofNat (d + 48)) d hd
  · have hadd : c.toNat - 97 + 10 = d := Option.some.inj hvalue
    omega
  · have hadd : c.toNat - 65 + 10 = d := Option.some.inj hvalue
    omega

/-- A number has no other text of digits, leading zeros aside. -/
theorem toDigits_of_natural? {digits : List Char} {n : Nat} (hhead : digits.head? ≠ some '0')
    (h : Text.natural? 10 digits = some n) : Nat.toDigits 10 n = digits ∧ 0 < n := by
  have hne : digits ≠ [] := by
    rintro rfl
    cases h
  induction digits using List.reverseRecOn generalizing n with
  | nil => exact absurd rfl hne
  | append_singleton front c ih =>
    rw [natural?_eq_foldlM hne, List.foldlM_append] at h
    obtain ⟨value, hvalue, hlast⟩ := Option.bind_eq_some_iff.mp h
    obtain ⟨d, hd, rfl⟩ : ∃ d, Text.digit? 10 c = some d ∧ 10 * value + d = n := by
      simpa using hlast
    obtain ⟨hsmall, rfl⟩ := digitChar_of_digit? hd
    cases front with
    | nil =>
      obtain rfl : value = 0 := (Option.some.inj hvalue).symm
      have hpos : d ≠ 0 := by
        rintro rfl
        exact hhead rfl
      rw [Nat.mul_zero, Nat.zero_add, Nat.toDigits_of_lt_base hsmall]
      exact ⟨rfl, Nat.pos_of_ne_zero hpos⟩
    | cons first front =>
      rw [← natural?_eq_foldlM (List.cons_ne_nil _ _)] at hvalue
      obtain ⟨hdigits, hpos⟩ := ih (by simpa using hhead) hvalue (List.cons_ne_nil _ _)
      have hfront : (10 * value + d) / 10 = value := by omega
      have hrest : (10 * value + d) % 10 = d := by omega
      rw [Nat.toDigits_of_base_le (by decide) (by omega), hfront, hrest, hdigits]
      exact ⟨rfl, by omega⟩

/-- An index has one text. -/
theorem index?_eq_some_iff {token : String} {n : Nat} :
    index? token = some n ↔ token = toString n := by
  refine ⟨fun h => ?_, fun h => h ▸ index?_toString n⟩
  have htext : token.toList = Nat.toDigits 10 n := by
    unfold index? at h
    dsimp only at h
    split_ifs at h with hzeros
    rw [Bool.and_eq_true, not_and, decide_eq_true_eq, bne_iff_ne, not_not] at hzeros
    by_cases hhead : token.toList.head? = some '0'
    · obtain ⟨c, hc⟩ := List.length_eq_one_iff.mp (hzeros hhead)
      rw [hc] at hhead h ⊢
      cases hhead
      cases h
      decide
    · exact (toDigits_of_natural? hhead h).1.symm
  rw [← String.ofList_toList (s := token), htext]
  rfl

theorem toString_inj {m n : Nat} : toString m = toString n ↔ m = n := by
  rw [← index?_eq_some_iff, index?_toString, Option.some.injEq]

end Pointer

namespace Json

/-! ## Following tokens -/

theorem follow?_append (j : Json) (above below : List String) :
    j.follow? (above ++ below) = (j.follow? above).bind (follow? · below) := by
  induction above generalizing j with
  | nil => rfl
  | cons token above ih =>
    rw [List.cons_append, follow?, follow?, Option.bind_assoc]
    exact congrArg _ (funext ih)

theorem putAt?_append (part j : Json) (above below : List String) :
    putAt? part j (above ++ below) =
      (j.follow? above).bind fun inner =>
        (putAt? part inner below).bind fun changed => putAt? changed j above := by
  induction above generalizing j with
  | nil => simp [follow?, putAt?]
  | cons token above ih =>
    rw [List.cons_append, putAt?, follow?]
    cases hstep : j.step? token with
    | none => rfl
    | some inner =>
      simp only [Option.bind_some, Option.bind_eq_bind, ih, putAt?, hstep, Option.bind_assoc]

/-- A value with a hole at the end of the tokens: what stands in the hole is found there, and
something else can be put in its place. -/
structure IsHole (tokens : List String) (context : Json → Json) : Prop where
  follow : ∀ part, (context part).follow? tokens = some part
  put : ∀ part part', putAt? part' (context part) tokens = some (context part')

theorem isHole_id : IsHole [] id := ⟨fun _ => rfl, fun _ _ => rfl⟩

variable {tokens : List String} {context : Json → Json}

/-- A hole one step deeper. -/
theorem IsHole.step (h : IsHole tokens context) {token : String} {around : Json → Json}
    (hstep : ∀ part, (around part).step? token = some part)
    (hput : ∀ part part', putStep token part' (around part) = around part') :
    IsHole (tokens ++ [token]) fun part => context (around part) := by
  constructor
  · intro part
    rw [follow?_append, h.follow, Option.bind_some, follow?, hstep]
    rfl
  · intro part part'
    rw [putAt?_append, h.follow, Option.bind_some]
    simp [putAt?, hstep, hput, h.put]

theorem IsHole.member (h : IsHole tokens context) {before : List (String × Json)} {key : String}
    (hkey : key ∉ before.map Prod.fst) (after : List (String × Json)) :
    IsHole (tokens ++ [key]) fun part => context (object (before ++ (key, part) :: after)) := by
  refine h.step (fun part => ?_) fun part part' => congrArg object ?_
  · rw [step?, Entries.get?_append, Entries.get?_eq_none_iff.mpr hkey, Option.none_or,
      Entries.get?, if_pos rfl]
  · induction before with
    | nil => rw [List.nil_append, Entries.insert, if_pos rfl, List.nil_append]
    | cons m before ih =>
      rw [List.map_cons, List.mem_cons, not_or] at hkey
      rw [List.cons_append, Entries.insert, if_neg (Ne.symm hkey.1), ih hkey.2, List.cons_append]

theorem IsHole.item (h : IsHole tokens context) (before after : List Json) :
    IsHole (tokens ++ [toString before.length]) fun part =>
      context (array (before ++ part :: after)) := by
  refine h.step (fun part => ?_) fun part part' => ?_
  · rw [step?, Pointer.index?_toString, Option.bind_some, List.getElem?_append_right le_rfl,
      Nat.sub_self, List.getElem?_cons_zero]
  · rw [putStep, Pointer.index?_toString]
    simp

end Json

end ThingTypes
