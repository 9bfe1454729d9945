/-
Counting threads by what they are doing.

A number of threads, each somewhere in its program.  What an invariant over all
interleavings says about counters that several threads touch is mostly of the form
"so many are between this step and that one".  One step moves one thread, so it
changes such a count by what that thread was before and is after.
-/
import Mathlib.Algebra.BigOperators.Group.Finset.Basic
import Mathlib.Algebra.Order.BigOperators.Group.Finset
import Mathlib.Data.Fintype.BigOperators

namespace Threads

variable {ι σ : Type} [Fintype ι]

/-- How many threads are where `p` says. -/
def count (p : σ → Bool) (place : ι → σ) : Nat := ∑ i, (p (place i)).toNat

/-- What the threads have left to do, or hold, taken together. -/
def total (f : σ → Nat) (place : ι → σ) : Nat := ∑ i, f (place i)

/-- No thread is there. -/
theorem count_eq_zero {p : σ → Bool} {place : ι → σ} (h : ∀ i, p (place i) = false) :
    count p place = 0 := by
  apply Finset.sum_eq_zero
  intro i _
  rw [h i]
  rfl

/-- A thread that is there. -/
theorem count_pos {p : σ → Bool} {place : ι → σ} {i : ι} (h : p (place i) = true) :
    0 < count p place := by
  have hle := Finset.single_le_sum (f := fun i => (p (place i)).toNat)
    (fun _ _ => Nat.zero_le _) (Finset.mem_univ i)
  rw [h] at hle
  exact hle

/-- Only one thread is there. -/
theorem eq_of_count_le_one {p : σ → Bool} {place : ι → σ} (hcount : count p place ≤ 1) {i j : ι}
    (hi : p (place i) = true) (hj : p (place j) = true) : i = j := by
  classical
  by_contra hne
  have hpair : ∑ k ∈ {i, j}, (p (place k)).toNat ≤ count p place :=
    Finset.sum_le_sum_of_subset (Finset.subset_univ _)
  rw [Finset.sum_pair hne, hi, hj] at hpair
  exact absurd (Nat.le_trans hpair hcount) (by decide)

/-- A thread that is elsewhere leaves room for one more. -/
theorem count_lt_card {p : σ → Bool} {place : ι → σ} {i : ι} (h : p (place i) = false) :
    count p place < Fintype.card ι := by
  rw [count, ← Finset.card_univ, Finset.card_eq_sum_ones]
  apply Finset.sum_lt_sum
  · intro j _
    exact Bool.toNat_le _
  · refine ⟨i, Finset.mem_univ i, ?_⟩
    rw [h]
    exact Nat.one_pos

/-- There are no more than there are threads. -/
theorem count_le_card (p : σ → Bool) (place : ι → σ) : count p place ≤ Fintype.card ι := by
  rw [count, ← Finset.card_univ, Finset.card_eq_sum_ones]
  exact Finset.sum_le_sum fun i _ => Bool.toNat_le _

/-- A thread that is alone. -/
theorem count_alone [Subsingleton ι] (p : σ → Bool) (place : ι → σ) (i : ι) :
    count p place = (p (place i)).toNat :=
  Fintype.sum_subsingleton (fun j => (p (place j)).toNat) i

variable [DecidableEq ι]

/-- **One thread moves.** -/
theorem total_update (f : σ → Nat) (place : ι → σ) (i : ι) (s : σ) :
    total f (Function.update place i s) + f (place i) = total f place + f s := by
  have hrest : ∑ j ∈ Finset.univ.erase i, f (Function.update place i s j)
      = ∑ j ∈ Finset.univ.erase i, f (place j) := by
    apply Finset.sum_congr rfl
    intro j hj
    rw [Function.update_of_ne (Finset.ne_of_mem_erase hj)]
  have hafter := Finset.sum_erase_add Finset.univ
    (fun j => f (Function.update place i s j)) (Finset.mem_univ i)
  have hbefore := Finset.sum_erase_add Finset.univ (fun j => f (place j)) (Finset.mem_univ i)
  rw [Function.update_self] at hafter
  unfold total
  omega

theorem count_update (p : σ → Bool) (place : ι → σ) (i : ι) (s : σ) :
    count p (Function.update place i s) + (p (place i)).toNat = count p place + (p s).toNat :=
  total_update (fun s => (p s).toNat) place i s

end Threads
