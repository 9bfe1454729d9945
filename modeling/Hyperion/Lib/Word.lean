/-
Unsigned machine words.

A word of `w` bits is a natural number below `2 ^ w`, and its sum and difference
wrap around modulo `2 ^ w`.  Everything a proof wants from them is said twice:
the value when nothing wraps, and the residue when something does.  The first is
what index arithmetic inside a container rests on, the second is what counters
that are never reset rest on.
-/
import Mathlib.Data.Nat.ModEq

namespace Word

/-- The sum of two words. -/
def add (w a b : Nat) : Nat := (a + b) % 2 ^ w

/-- The difference of two words. -/
def sub (w a b : Nat) : Nat := (2 ^ w - b % 2 ^ w + a) % 2 ^ w

theorem add_lt (w a b : Nat) : add w a b < 2 ^ w :=
  Nat.mod_lt _ (Nat.two_pow_pos w)

theorem sub_lt (w a b : Nat) : sub w a b < 2 ^ w :=
  Nat.mod_lt _ (Nat.two_pow_pos w)

/-- A sum that fits is the sum. -/
theorem add_eq {w a b : Nat} (h : a + b < 2 ^ w) : add w a b = a + b :=
  Nat.mod_eq_of_lt h

/-- A difference that does not go below zero is the difference. -/
theorem sub_eq {w a b : Nat} (hab : b ≤ a) (ha : a < 2 ^ w) : sub w a b = a - b := by
  have hb : b % 2 ^ w = b := Nat.mod_eq_of_lt (Nat.lt_of_le_of_lt hab ha)
  have hsum : 2 ^ w - b % 2 ^ w + a = (a - b) + 2 ^ w := by omega
  rw [sub, hsum, Nat.add_mod_right]
  exact Nat.mod_eq_of_lt (by omega)

/-- Incrementing a residue is incrementing the number it is a residue of. -/
theorem add_mod_left (w a b : Nat) : add w (a % 2 ^ w) b = (a + b) % 2 ^ w :=
  Nat.mod_add_mod a (2 ^ w) b

/-- Decrementing a residue is decrementing the number it is a residue of. -/
theorem sub_mod_left {w a b : Nat} (hab : b ≤ a) : sub w (a % 2 ^ w) b = (a - b) % 2 ^ w := by
  have hb : b % 2 ^ w ≤ 2 ^ w := Nat.le_of_lt (Nat.mod_lt _ (Nat.two_pow_pos w))
  have hdiv := Nat.div_add_mod b (2 ^ w)
  have hsum : 2 ^ w - b % 2 ^ w + a = (a - b) + 2 ^ w * (b / 2 ^ w + 1) := by
    rw [Nat.mul_add, Nat.mul_one]
    omega
  rw [sub, Nat.add_mod_mod, hsum, Nat.add_mul_mod_self_left]

/-- Beside another number, a sum counts for its terms. -/
theorem add_add_mod (w a b d : Nat) : (add w a b + d) % 2 ^ w = (a + b + d) % 2 ^ w :=
  Nat.mod_add_mod (a + b) (2 ^ w) d

/-- Beside another number, a difference and what was taken count for the whole. -/
theorem sub_add_mod (w a b d : Nat) : (sub w a b + (b + d)) % 2 ^ w = (a + d) % 2 ^ w := by
  have hb : b % 2 ^ w ≤ 2 ^ w := Nat.le_of_lt (Nat.mod_lt _ (Nat.two_pow_pos w))
  have hdiv := Nat.div_add_mod b (2 ^ w)
  have hsum : 2 ^ w - b % 2 ^ w + a + (b + d) = (a + d) + 2 ^ w * (b / 2 ^ w + 1) := by
    rw [Nat.mul_add, Nat.mul_one]
    omega
  rw [sub, Nat.mod_add_mod, hsum, Nat.add_mul_mod_self_left]

/-- Taking one back undoes adding one, also where the sum wrapped. -/
theorem sub_add_one {w a : Nat} (ha : a < 2 ^ w) : sub w (add w a 1) 1 = a := by
  rw [add, sub_mod_left (by omega), Nat.add_sub_cancel]
  exact Nat.mod_eq_of_lt ha

/-- Adding one undoes taking one back, also where the difference wrapped. -/
theorem add_sub_one {w a : Nat} (ha : a < 2 ^ w) : add w (sub w a 1) 1 = a := by
  rw [add]
  exact (sub_add_mod w a 1 0).trans (Nat.mod_eq_of_lt ha)

end Word
