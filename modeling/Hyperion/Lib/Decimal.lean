/-
Decimal fields in a text.

A number is written with its digits, with zeros in front up to some width.  It is read again
from the front of a text where no digit follows it, and fields of one width are ordered as
their numbers are, so that a text of such fields is ordered by the first one that differs.
-/
import Mathlib.Algebra.Ring.Nat
import Mathlib.Data.List.Basic
import Mathlib.Order.Basic

namespace Decimal

/-- `n` with zeros in front, up to a width. -/
def padded (width n : Nat) : List Char :=
  List.replicate (width - (Nat.toDigits 10 n).length) '0' ++ Nat.toDigits 10 n

/-- The number at the front of a text, and what is behind it. -/
def number (s : List Char) : Nat × List Char :=
  (Nat.ofDigitChars 10 (s.takeWhile Char.isDigit) 0, s.dropWhile Char.isDigit)

/-- What is behind a text, where the text is there. -/
def behind (text s : List Char) : Option (List Char) :=
  if text <+: s then some (s.drop text.length) else none

/-! ### Reading back -/

theorem ofDigitChars_padded (width n : Nat) : Nat.ofDigitChars 10 (padded width n) 0 = n := by
  rw [padded, Nat.ofDigitChars_append, Nat.ofDigitChars_replicate_zero, Nat.mul_zero,
    Nat.ofDigitChars_ten_toDigits]

theorem isDigit_of_mem_padded {width n : Nat} {c : Char} (h : c ∈ padded width n) :
    c.isDigit = true := by
  rcases List.mem_append.mp h with hzero | hdigit
  · rw [List.eq_of_mem_replicate hzero]
    rfl
  · exact Nat.isDigit_of_mem_toDigits (by decide) (by decide) hdigit

theorem length_padded {width n : Nat} (hwidth : 0 < width) (h : n < 10 ^ width) :
    (padded width n).length = width := by
  have hle := (Nat.length_toDigits_le_iff (by decide) hwidth).mpr h
  rw [padded, List.length_append, List.length_replicate]
  omega

/-- **A number is read back where no digit follows it.** -/
theorem number_append {digits : List Char} (hdigits : ∀ c ∈ digits, c.isDigit = true)
    {c : Char} (hc : c.isDigit = false) (rest : List Char) :
    number (digits ++ c :: rest) = (Nat.ofDigitChars 10 digits 0, c :: rest) := by
  have hbehind : ¬ c.isDigit = true := by rw [hc]; exact Bool.false_ne_true
  unfold number
  rw [List.takeWhile_append_of_pos hdigits, List.dropWhile_append_of_pos hdigits,
    List.takeWhile_cons_of_neg hbehind, List.dropWhile_cons_of_neg hbehind, List.append_nil]

theorem number_padded (width n : Nat) {c : Char} (hc : c.isDigit = false) (rest : List Char) :
    number (padded width n ++ c :: rest) = (n, c :: rest) := by
  rw [number_append (fun _ => isDigit_of_mem_padded) hc, ofDigitChars_padded]

theorem number_toDigits (n : Nat) {c : Char} (hc : c.isDigit = false) (rest : List Char) :
    number (Nat.toDigits 10 n ++ c :: rest) = (n, c :: rest) := by
  rw [number_append (fun _ => Nat.isDigit_of_mem_toDigits (by decide) (by decide)) hc,
    Nat.ofDigitChars_ten_toDigits]

theorem behind_append (text s : List Char) : behind text (text ++ s) = some s := by
  unfold behind
  rw [if_pos (List.prefix_append text s), List.drop_left]

/-! ### The order -/

/-- The first of two parts of one length decides, where it differs. -/
theorem append_lt_append_iff {l m : List Char} (hlength : l.length = m.length)
    (s t : List Char) : l ++ s < m ++ t ↔ l < m ∨ l = m ∧ s < t := by
  induction l generalizing m with
  | nil =>
      rw [List.length_nil] at hlength
      rw [List.eq_nil_of_length_eq_zero hlength.symm]
      simp
  | cons c cs ih =>
      cases m with
      | nil => cases hlength
      | cons d ds =>
          rw [List.length_cons, List.length_cons, Nat.add_right_cancel_iff] at hlength
          rw [List.cons_append, List.cons_append, List.cons_lt_cons_iff, List.cons_lt_cons_iff,
            ih hlength, List.cons.injEq]
          constructor
          · rintro (hlt | ⟨rfl, hlt | ⟨rfl, hlt⟩⟩)
            · exact .inl (.inl hlt)
            · exact .inl (.inr ⟨rfl, hlt⟩)
            · exact .inr ⟨⟨rfl, rfl⟩, hlt⟩
          · rintro ((hlt | ⟨rfl, hlt⟩) | ⟨⟨rfl, rfl⟩, hlt⟩)
            · exact .inl hlt
            · exact .inr ⟨rfl, .inl hlt⟩
            · exact .inr ⟨rfl, .inr ⟨rfl, hlt⟩⟩

/-- A digit is as far from zero as it says. -/
theorem toNat_of_isDigit {c : Char} (h : c.isDigit = true) : 48 ≤ c.toNat ∧ c.toNat ≤ 57 := by
  simp only [Char.isDigit, Bool.and_eq_true, decide_eq_true_eq] at h
  exact h

theorem digit_lt_iff {c d : Char} (hc : c.isDigit = true) (hd : d.isDigit = true) :
    c < d ↔ c.toNat - 48 < d.toNat - 48 := by
  obtain ⟨hlow, -⟩ := toNat_of_isDigit hc
  obtain ⟨hlow', -⟩ := toNat_of_isDigit hd
  show c.toNat < d.toNat ↔ _
  omega

theorem ofDigitChars_cons_zero (c : Char) (cs : List Char) : Nat.ofDigitChars 10 (c :: cs) 0
    = 10 ^ cs.length * (c.toNat - 48) + Nat.ofDigitChars 10 cs 0 := by
  rw [Nat.ofDigitChars_cons, Nat.ofDigitChars_eq_ofDigitChars_zero]
  simp

theorem ofDigitChars_lt {l : List Char} (h : ∀ c ∈ l, c.isDigit = true) :
    Nat.ofDigitChars 10 l 0 < 10 ^ l.length := by
  induction l with
  | nil => simp
  | cons c cs ih =>
      obtain ⟨-, hhigh⟩ := toNat_of_isDigit (h c (by simp))
      have hrest := ih fun d hd => h d (List.mem_cons_of_mem c hd)
      have hfirst : 10 ^ cs.length * (c.toNat - 48) ≤ 10 ^ cs.length * 9 :=
        Nat.mul_le_mul_left _ (by omega)
      rw [ofDigitChars_cons_zero, List.length_cons, Nat.pow_succ]
      omega

theorem digit_eq_iff {c d : Char} (hc : c.isDigit = true) (hd : d.isDigit = true) :
    c = d ↔ c.toNat - 48 = d.toNat - 48 := by
  obtain ⟨hlow, -⟩ := toNat_of_isDigit hc
  obtain ⟨hlow', -⟩ := toNat_of_isDigit hd
  rw [← Char.toNat_inj]
  omega

/-- The leading part decides, where it differs. -/
theorem mul_add_lt_iff {p x y r t : Nat} (hr : r < p) (ht : t < p) :
    p * x + r < p * y + t ↔ x < y ∨ x = y ∧ r < t := by
  have hstep : ∀ {a b : Nat}, a < b → p * a + p ≤ p * b := by
    intro a b hab
    rw [← Nat.mul_succ]
    exact Nat.mul_le_mul_left p hab
  rcases Nat.lt_trichotomy x y with hlt | rfl | hlt
  · have hle := hstep hlt
    omega
  · omega
  · have hle := hstep hlt
    omega

/-- **Digits are ordered as the numbers are.** -/
theorem digits_lt_iff {l m : List Char} (hlength : l.length = m.length)
    (hl : ∀ c ∈ l, c.isDigit = true) (hm : ∀ c ∈ m, c.isDigit = true) :
    l < m ↔ Nat.ofDigitChars 10 l 0 < Nat.ofDigitChars 10 m 0 := by
  induction l generalizing m with
  | nil =>
      rw [List.length_nil] at hlength
      rw [List.eq_nil_of_length_eq_zero hlength.symm]
      simp
  | cons c cs ih =>
      cases m with
      | nil => cases hlength
      | cons d ds =>
          rw [List.length_cons, List.length_cons, Nat.add_right_cancel_iff] at hlength
          have hc := hl c (by simp)
          have hd := hm d (by simp)
          have hcs := fun e he => hl e (List.mem_cons_of_mem c he)
          have hds := fun e he => hm e (List.mem_cons_of_mem d he)
          have hlt := ofDigitChars_lt hcs
          have hlt' := ofDigitChars_lt hds
          rw [hlength] at hlt
          rw [List.cons_lt_cons_iff, digit_lt_iff hc hd, digit_eq_iff hc hd,
            ih hlength hcs hds, ofDigitChars_cons_zero, ofDigitChars_cons_zero, hlength,
            mul_add_lt_iff hlt hlt']

/-- Fields of one width, and what is behind them. -/
theorem padded_append_lt_iff {width a b : Nat} (hwidth : 0 < width) (ha : a < 10 ^ width)
    (hb : b < 10 ^ width) (s t : List Char) :
    padded width a ++ s < padded width b ++ t ↔ a < b ∨ a = b ∧ s < t := by
  have hlength : (padded width a).length = (padded width b).length := by
    rw [length_padded hwidth ha, length_padded hwidth hb]
  have heq : padded width a = padded width b ↔ a = b := by
    constructor
    · intro h
      rw [← ofDigitChars_padded width a, h, ofDigitChars_padded]
    · rintro rfl
      rfl
  rw [append_lt_append_iff hlength, digits_lt_iff hlength (fun _ => isDigit_of_mem_padded)
    (fun _ => isDigit_of_mem_padded), ofDigitChars_padded, ofDigitChars_padded, heq]

end Decimal
