/-
What `parse_uuid` makes of the digits of a UUID.

The thirty-two digits stand around four separators, which are not looked at.  The first
sixteen are the nibbles of one word, the lowest first, and the others are those of
another.
-/
import Hyperion.Error.Uuid
import Mathlib.Data.Nat.Digits.Lemmas

namespace Hyperion

/-! ### Digits -/

/-- The hexadecimal digits in order. -/
def hex_digits : List Char :=
  ['0', '1', '2', '3', '4', '5', '6', '7', '8', '9', 'a', 'b', 'c', 'd', 'e', 'f']

/-- The value of a hexadecimal digit, in upper or lower case. -/
def hex_digit (c : Char) : Option Nat :=
  if c.toLower ∈ hex_digits then some (hex_digits.idxOf c.toLower) else none

theorem hex_digit_lt {c : Char} {d : Nat} (h : hex_digit c = some d) : d < 16 := by
  unfold hex_digit at h
  split at h
  · rename_i hmem
    rw [← Option.some.inj h]
    exact List.idxOf_lt_length_of_mem hmem
  · cases h

/-- What holds of every character of one byte and of all others holds of every character. -/
theorem char_cases {P : Char → Prop} (hsmall : ∀ n < 128, P (Char.ofNat n))
    (hlarge : ∀ c : Char, 128 ≤ c.toNat → P c) (c : Char) : P c := by
  by_cases hc : c.toNat < 128
  · rw [← Char.ofNat_toNat c]
    exact hsmall c.toNat hc
  · exact hlarge c (Nat.le_of_not_lt hc)

theorem not_between {a b c : Char} (hc : 128 ≤ c.toNat) (hb : b.toNat < 128) :
    ¬ (a ≤ c ∧ c ≤ b) := by
  intro h
  have hle : c.toNat ≤ b.toNat := h.2
  omega

theorem toLower_large {c : Char} (hc : 128 ≤ c.toNat) : c.toLower = c := by
  unfold Char.toLower
  refine dif_neg fun h => ?_
  exact not_between hc (show 'Z'.toNat < 128 by decide) ⟨h.1, h.2⟩

theorem hex_digit_large {c : Char} (hc : 128 ≤ c.toNat) : hex_digit c = none := by
  refine if_neg fun hmem => ?_
  rw [toLower_large hc] at hmem
  have hsmall : (hex_digits.all fun d => d.toNat < 128) = true := by decide
  exact absurd (of_decide_eq_true (List.all_eq_true.mp hsmall c hmem)) (Nat.not_lt.mpr hc)

/-- `parse_byte_from_char` gives the value of a digit, and throws at anything else. -/
theorem parse_byte_eq (c : Char) :
    parse_byte_from_char c = (hex_digit c).map (BitVec.ofNat 64) := by
  refine char_cases (P := fun c => parse_byte_from_char c = (hex_digit c).map (BitVec.ofNat 64))
    (by decide +kernel) (fun c hc => ?_) c
  rw [hex_digit_large hc, parse_byte_from_char, if_neg (not_between hc (by decide)),
    if_neg (not_between hc (by decide)), if_neg (not_between hc (by decide))]
  rfl

/-- The case of a letter makes no difference. -/
theorem hex_digit_toLower (c : Char) : hex_digit c.toLower = hex_digit c := by
  refine char_cases (P := fun c => hex_digit c.toLower = hex_digit c) (by decide +kernel)
    (fun c hc => ?_) c
  rw [toLower_large hc]

/-! ### Words -/

/-- The word of some digits, the first of them its lowest nibble. -/
def word (digits : List Nat) : BitVec 64 := BitVec.ofNat 64 (Nat.ofDigits 16 digits)

/-- A nibble of a word, counted from the lowest. -/
def nibble (w : BitVec 64) (i : Nat) : Nat := w.toNat / 16 ^ i % 16

theorem ofDigits_div_mod {b : Nat} {digits : List Nat} (h : ∀ d ∈ digits, d < b) (i : Nat) :
    Nat.ofDigits b digits / b ^ i % b = digits.getD i 0 := by
  induction digits generalizing i with
  | nil => simp
  | cons d rest ih =>
      have hd : d < b := h d List.mem_cons_self
      rw [Nat.ofDigits_cons]
      cases i with
      | zero => simp [Nat.mod_eq_of_lt hd]
      | succ i =>
          have hdiv : (d + b * Nat.ofDigits b rest) / b = Nat.ofDigits b rest := by
            rw [Nat.add_mul_div_left _ _ (Nat.lt_of_le_of_lt (Nat.zero_le d) hd),
              Nat.div_eq_of_lt hd, Nat.zero_add]
          rw [pow_succ', ← Nat.div_div_eq_div_mul, hdiv, List.getD_cons_succ]
          exact ih (fun e he => h e (List.mem_cons_of_mem d he)) i

/-- **No nibble overlaps another, and none is lost.** -/
theorem nibble_word {digits : List Nat} (hlt : ∀ d ∈ digits, d < 16)
    (hlength : digits.length = 16) (i : Nat) : nibble (word digits) i = digits.getD i 0 := by
  have hfits : Nat.ofDigits 16 digits < 2 ^ 64 := by
    have h := Nat.ofDigits_lt_base_pow_length (by decide) hlt
    rw [hlength] at h
    exact h
  rw [nibble, word, BitVec.toNat_ofNat, Nat.mod_eq_of_lt hfits]
  exact ofDigits_div_mod hlt i

theorem word_cons {d : Nat} (hd : d < 16) (digits : List Nat) :
    word (d :: digits) = BitVec.ofNat 64 d ||| word digits <<< 4 := by
  have hor : d + 16 * Nat.ofDigits 16 digits = d ||| Nat.ofDigits 16 digits <<< 4 := by
    rw [Nat.or_comm, Nat.shiftLeft_eq, Nat.mul_comm _ (2 ^ 4),
      ← Nat.two_pow_add_eq_or_of_lt (i := 4) hd, Nat.add_comm]
  have hshift : BitVec.ofNat 64 (Nat.ofDigits 16 digits <<< 4) = word digits <<< 4 := by
    apply BitVec.eq_of_toNat_eq
    rw [word, BitVec.toNat_shiftLeft, BitVec.toNat_ofNat, BitVec.toNat_ofNat, Nat.shiftLeft_eq,
      Nat.shiftLeft_eq, Nat.mod_mul_mod]
  rw [word, Nat.ofDigits_cons, hor, BitVec.ofNat_or, hshift]

/-! ### Parsing -/

/-- The value of the digit at a place, if there is one. -/
def digit_at (s : List Char) (i : Nat) : Option Nat := s[i]?.bind hex_digit

theorem byte_at (s : List Char) (i : Nat) :
    s[i]?.bind parse_byte_from_char = (digit_at s i).map (BitVec.ofNat 64) := by
  rw [digit_at]
  cases s[i]? with
  | none => rfl
  | some c => exact parse_byte_eq c

theorem digit_at_lt {s : List Char} {i d : Nat} (h : digit_at s i = some d) : d < 16 := by
  obtain ⟨c, -, hc⟩ := Option.bind_eq_some_iff.mp h
  exact hex_digit_lt hc

theorem parse_digits_some {s : List Char} {places digits : List Nat}
    (h : places.map (digit_at s) = digits.map some) (shift : Nat) :
    parse_digits s places shift = some (word digits <<< shift) := by
  induction places generalizing digits shift with
  | nil =>
      obtain rfl : digits = [] := List.map_eq_nil_iff.mp h.symm
      simp [parse_digits, word]
  | cons i rest ih =>
      cases digits with
      | nil => cases h
      | cons d others =>
          obtain ⟨hd, hrest⟩ := List.cons.inj h
          have hshift : word others <<< (shift + 4) = word others <<< 4 <<< shift := by
            rw [← BitVec.shiftLeft_add, Nat.add_comm]
          rw [parse_digits, byte_at, hd, Option.map_some, Option.bind_some, ih hrest,
            Option.map_some, word_cons (digit_at_lt hd), BitVec.shiftLeft_or_distrib, hshift]

theorem parse_digits_none {s : List Char} {places : List Nat} {i : Nat} (hi : i ∈ places)
    (h : digit_at s i = none) (shift : Nat) : parse_digits s places shift = none := by
  induction places generalizing shift with
  | nil => cases hi
  | cons j rest ih =>
      rw [parse_digits, byte_at]
      rcases List.mem_cons.mp hi with rfl | hrest
      · rw [h]
        rfl
      · simp only [ih hrest, Option.map_none, Option.bind_fun_none]

theorem parse_digits_congr {s t : List Char} {places : List Nat}
    (h : ∀ i ∈ places, digit_at s i = digit_at t i) (shift : Nat) :
    parse_digits s places shift = parse_digits t places shift := by
  induction places generalizing shift with
  | nil => rfl
  | cons i rest ih =>
      rw [parse_digits, parse_digits, byte_at, byte_at, h i List.mem_cons_self,
        ih fun j hj => h j (List.mem_cons_of_mem i hj)]

/-- The places of the digits, between those of the separators. -/
def digit_places : List Nat := (List.range 36).filter fun i => i ∉ [8, 13, 18, 23]

/-- The digits of a UUID, in their order. -/
def Digits (s : List Char) (digits : List Nat) : Prop :=
  digit_places.map (digit_at s) = digits.map some

/-- The two halves of the places are those that the code lists. -/
theorem parse_uuid_places {s uuid : List Char}
    (h : (if s.length = 38 then s.drop 1 else s) = uuid) : parse_uuid s =
    (parse_digits uuid (digit_places.take 16) 0).bind fun low =>
      (parse_digits uuid (digit_places.drop 16) 0).map fun high => low ^^^ high := by
  subst h
  rfl

/-- A UUID of 36 characters is read from its first. -/
theorem uuid_of_length {s : List Char} (hs : s.length = 36) :
    (if s.length = 38 then s.drop 1 else s) = s :=
  if_neg (by omega)

theorem parse_uuid_some {s : List Char} (hs : s.length = 36) {digits : List Nat}
    (h : Digits s digits) :
    parse_uuid s = some (word (digits.take 16) ^^^ word (digits.drop 16)) := by
  have hlow : (digit_places.take 16).map (digit_at s) = (digits.take 16).map some := by
    rw [List.map_take, h, List.map_take]
  have hhigh : (digit_places.drop 16).map (digit_at s) = (digits.drop 16).map some := by
    rw [List.map_drop, h, List.map_drop]
  rw [parse_uuid_places (uuid_of_length hs), parse_digits_some hlow, parse_digits_some hhigh]
  simp

theorem parse_uuid_none_iff {s : List Char} (hs : s.length = 36) :
    parse_uuid s = none ↔ ∃ i ∈ digit_places, digit_at s i = none := by
  constructor
  · intro h
    by_contra hall
    have hdigits : Digits s (digit_places.map fun i => (digit_at s i).getD 0) := by
      rw [Digits, List.map_map]
      refine List.map_congr_left fun i hi => ?_
      cases hat : digit_at s i with
      | none => exact absurd ⟨i, hi, hat⟩ hall
      | some d => simp [hat]
    rw [parse_uuid_some hs hdigits] at h
    cases h
  · rintro ⟨i, hi, hnone⟩
    rw [parse_uuid_places (uuid_of_length hs)]
    rw [← List.take_append_drop 16 digit_places, List.mem_append] at hi
    rcases hi with hlow | hhigh
    · rw [parse_digits_none hlow hnone]
      rfl
    · simp only [parse_digits_none hhigh hnone, Option.map_none, Option.bind_fun_none]

/-- The parse depends on the digits only. -/
theorem parse_uuid_congr {s t uuid : List Char}
    (ht : (if t.length = 38 then t.drop 1 else t) = uuid) (hs : s.length = 36)
    (h : ∀ i ∈ digit_places, digit_at uuid i = digit_at s i) : parse_uuid t = parse_uuid s := by
  rw [parse_uuid_places ht, parse_uuid_places (uuid_of_length hs),
    parse_digits_congr fun i hi => h i (List.mem_of_mem_take hi),
    parse_digits_congr fun i hi => h i (List.mem_of_mem_drop hi)]

theorem digit_places_lt : ∀ i ∈ digit_places, i < 36 := by decide

/-- Braces around a UUID are skipped. -/
theorem parse_uuid_braces {s : List Char} (hs : s.length = 36) (opening closing : Char) :
    parse_uuid (opening :: (s ++ [closing])) = parse_uuid s := by
  refine parse_uuid_congr (if_pos (by simp [hs])) hs fun i hi => ?_
  have hlt : i < s.length := by
    rw [hs]
    exact digit_places_lt i hi
  rw [digit_at, digit_at, List.drop_one, List.tail_cons, List.getElem?_append_left hlt]

theorem digit_at_toLower (s : List Char) (i : Nat) :
    digit_at (s.map Char.toLower) i = digit_at s i := by
  rw [digit_at, digit_at, List.getElem?_map]
  cases s[i]? with
  | none => rfl
  | some c => exact hex_digit_toLower c

/-- Upper and lower case digits give the same. -/
theorem parse_uuid_letters {s t : List Char} (hs : s.length = 36)
    (h : t.map Char.toLower = s.map Char.toLower) : parse_uuid t = parse_uuid s := by
  have ht : t.length = 36 := by
    have hlength := congrArg List.length h
    rw [List.length_map, List.length_map] at hlength
    omega
  refine parse_uuid_congr (uuid_of_length ht) hs fun i _ => ?_
  rw [← digit_at_toLower, h, digit_at_toLower]

/-- What the characters of a UUID determine. -/
structure OneValue (s : List Char) : Prop where
  value : ∀ digits, Digits s digits →
    parse_uuid s = some (word (digits.take 16) ^^^ word (digits.drop 16))
  nibbles : ∀ digits, Digits s digits → ∀ i < 16,
    nibble (word (digits.take 16)) i = digits.getD i 0 ∧
      nibble (word (digits.drop 16)) i = digits.getD (16 + i) 0
  rejected : parse_uuid s = none ↔ ∃ i ∈ digit_places, digit_at s i = none
  braces : ∀ opening closing, parse_uuid (opening :: (s ++ [closing])) = parse_uuid s
  letters : ∀ t, t.map Char.toLower = s.map Char.toLower → parse_uuid t = parse_uuid s

/--
**A UUID of 36 characters has one value**: the exclusive or of the words of its first and
its last sixteen digits, written with braces or without and in upper or lower case, and none
only if a digit is missing.
-/
theorem uuid_value (s : List Char) (hs : s.length = 36) : OneValue s := by
  refine ⟨fun digits => parse_uuid_some hs, fun digits h i hi => ?_, parse_uuid_none_iff hs,
    parse_uuid_braces hs, fun t => parse_uuid_letters hs⟩
  have hlength : digits.length = 32 := by
    have hmap := congrArg List.length h
    rw [List.length_map, List.length_map] at hmap
    exact hmap.symm
  have hlt : ∀ d ∈ digits, d < 16 := by
    intro d hd
    have hmem : some d ∈ digit_places.map (digit_at s) := h ▸ List.mem_map_of_mem hd
    obtain ⟨j, -, hj⟩ := List.mem_map.mp hmem
    exact digit_at_lt hj
  rw [nibble_word (fun d hd => hlt d (List.mem_of_mem_take hd)) (by simp [hlength]),
    nibble_word (fun d hd => hlt d (List.mem_of_mem_drop hd)) (by simp [hlength])]
  simp [List.getD_eq_getElem?_getD, hi]

/-- The identifier of the generic domain, from its digits. -/
theorem generic_uuid_value : parse_uuid "bb14ea47-2e32-4296-8ff8-1f9e2660ccc6".toList =
    some (word [11, 11, 1, 4, 14, 10, 4, 7, 2, 14, 3, 2, 4, 2, 9, 6] ^^^
      word [8, 15, 15, 8, 1, 15, 9, 14, 2, 6, 6, 0, 12, 12, 12, 6]) :=
  (uuid_value "bb14ea47-2e32-4296-8ff8-1f9e2660ccc6".toList (by decide +kernel)).value
    [11, 11, 1, 4, 14, 10, 4, 7, 2, 14, 3, 2, 4, 2, 9, 6,
      8, 15, 15, 8, 1, 15, 9, 14, 2, 6, 6, 0, 12, 12, 12, 6] (by
        rw [Digits]
        decide +kernel)

end Hyperion
