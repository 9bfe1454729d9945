/-
Positions on a circle of `c` places.

Place `a + i` is reached from `a` by going `i` places on, and since `i` is never
more than one whole turn, the remainder is either the sum or the sum less `c`.
Stated that way the facts below are linear arithmetic, which is how the proofs
about circular storage use them.
-/
import Mathlib.Data.Fintype.EquivFin
import Mathlib.Data.Nat.ModEq

namespace Circular

/-- At most one turn on from `a`. -/
theorem add_mod {a i c : Nat} (ha : a < c) (hi : i ≤ c) :
    (a + i) % c = if a + i < c then a + i else a + i - c := by
  split
  · rename_i h
    exact Nat.mod_eq_of_lt h
  · rename_i h
    rw [Nat.mod_eq_sub_mod (Nat.not_lt.mp h)]
    exact Nat.mod_eq_of_lt (by omega)

/-- The next place. -/
theorem succ_mod {a c : Nat} (ha : a < c) : (a + 1) % c = if a + 1 = c then 0 else a + 1 := by
  rw [add_mod ha (by omega)]
  split <;> split <;> omega

/-- Less than a whole turn apart, different distances lead to different places. -/
theorem add_mod_inj {a i j c : Nat} (ha : a < c) (hi : i < c) (hj : j < c)
    (h : (a + i) % c = (a + j) % c) : i = j := by
  rw [add_mod ha (Nat.le_of_lt hi), add_mod ha (Nat.le_of_lt hj)] at h
  split at h <;> split at h <;> omega

/-- As many different places as there are on the circle are all of them. -/
theorem exists_of_apart {c : Nat} {f : Nat → Nat} (hlt : ∀ i, i < c → f i < c)
    (hapart : ∀ i j, i < j → j < c → f i ≠ f j) {s : Nat} (hs : s < c) :
    ∃ i, i < c ∧ f i = s := by
  have hinj : Function.Injective fun i : Fin c => (⟨f i, hlt i i.isLt⟩ : Fin c) := by
    intro i j hij
    have hf : f i = f j := congrArg Fin.val hij
    rcases Nat.lt_trichotomy i j with hlt | heq | hgt
    · exact absurd hf (hapart i j hlt j.isLt)
    · exact Fin.ext heq
    · exact absurd hf.symm (hapart j i hgt i.isLt)
  obtain ⟨i, hi⟩ := Finite.surjective_of_injective hinj ⟨s, hs⟩
  exact ⟨i, i.isLt, congrArg Fin.val hi⟩

end Circular
