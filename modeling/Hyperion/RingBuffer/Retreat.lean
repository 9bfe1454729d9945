/-
Stepping the write index back, by one place and by several at once.

Back from the first slot lies the last.  `decrement_write` goes there; `decrement_write_n`
takes what is left of the distance from the last slot, where one step of it has already been
spent, and so ends one place too far back.

The array may be as large as a word can say.
-/
import Hyperion.RingBuffer.Basic
import Mathlib.Data.Int.ModEq

namespace Hyperion.RingBuffer

variable {α : Type} {s : RingBuffer α}

/-- The indices are those of slots. -/
structure Indexed (s : RingBuffer α) : Prop where
  cap_lt : s.m_capacity < 2 ^ 64
  start_lt : s.m_start_index < s.m_capacity
  write_lt : s.m_write_index < s.m_capacity

/-- Less than a turn back from a place. -/
theorem sub_emod {w n m : Nat} (hw : w < m) (hn : n ≤ m) :
    ((w : Int) - n) % m = if n ≤ w then (w : Int) - n else (w : Int) + m - n := by
  split
  · exact Int.emod_eq_of_lt (by omega) (by omega)
  · rw [← Int.add_emod_right, Int.emod_eq_of_lt (by omega) (by omega)]
    omega

namespace Indexed

theorem size_lt (h : Indexed s) : s.size < s.m_capacity := by
  have hcap := h.cap_lt
  have hs := h.start_lt
  have hw := h.write_lt
  unfold size
  split
  · rw [usize.sub_eq (by omega) (by omega)]
    omega
  · have hdistance : usize.sub s.m_start_index s.m_write_index =
        s.m_start_index - s.m_write_index := usize.sub_eq (by omega) (by omega)
    rw [hdistance, usize.sub_eq (by omega) hcap]
    omega

theorem decrement_write_index (h : Indexed s) : s.decrement_write.m_write_index
    = if s.m_write_index = 0 then s.m_capacity - 1 else s.m_write_index - 1 := by
  have hcap := h.cap_lt
  have hw := h.write_lt
  unfold RingBuffer.decrement_write
  split
  · exact usize.sub_eq (by omega) hcap
  · exact usize.sub_eq (by omega) (by omega)

theorem decrement_write_n_index (h : Indexed s) {n : Nat} (hn : n ≤ s.size) :
    (s.decrement_write_n n).m_write_index = if s.m_write_index < n
      then s.m_capacity - 1 - (n - s.m_write_index) else s.m_write_index - n := by
  have hcap := h.cap_lt
  have hw := h.write_lt
  have hsize := h.size_lt
  unfold decrement_write_n
  by_cases hgt : n > s.m_write_index
  · rw [if_pos hgt, if_pos hgt]
    have hlast : usize.sub s.m_capacity 1 = s.m_capacity - 1 := usize.sub_eq (by omega) hcap
    have hleft : usize.sub n s.m_write_index = n - s.m_write_index :=
      usize.sub_eq (by omega) (by omega)
    show usize.sub (usize.sub s.m_capacity 1) (usize.sub n s.m_write_index) = _
    rw [hlast, hleft, usize.sub_eq (by omega) (by omega)]
  · rw [if_neg hgt, if_neg hgt]
    exact usize.sub_eq (by omega) (by omega)

end Indexed

/-- Nothing but the write index is changed. -/
theorem decrement_write_eq (s : RingBuffer α) :
    s.decrement_write = { s with m_write_index := s.decrement_write.m_write_index } := by
  unfold decrement_write
  split <;> rfl

theorem decrement_write_n_eq (s : RingBuffer α) (n : Nat) : s.decrement_write_n n =
    { s with m_write_index := (s.decrement_write_n n).m_write_index } := by
  unfold decrement_write_n
  split <;> rfl

theorem iterate_decrement_write_eq (s : RingBuffer α) (n : Nat) : decrement_write^[n] s =
    { s with m_write_index := (decrement_write^[n] s).m_write_index } := by
  induction n generalizing s with
  | zero => rfl
  | succ n ih =>
      rw [Function.iterate_succ_apply, ih, decrement_write_eq s]

theorem Indexed.step_back (h : Indexed s) : Indexed s.decrement_write := by
  have hw := h.write_lt
  have hindex := h.decrement_write_index
  rw [decrement_write_eq]
  refine ⟨h.cap_lt, h.start_lt, ?_⟩
  show s.decrement_write.m_write_index < s.m_capacity
  rw [hindex]
  split <;> omega

/-- One step goes one place back. -/
theorem Indexed.decrement_write_emod (h : Indexed s) :
    (s.decrement_write.m_write_index : Int) = ((s.m_write_index : Int) - 1) % s.m_capacity := by
  have hw := h.write_lt
  have hmod := sub_emod (n := 1) hw (by omega)
  rw [Nat.cast_one] at hmod
  rw [hmod, h.decrement_write_index]
  split <;> split <;> omega

/-- Single steps go back as many places as there are steps. -/
theorem Indexed.iterate_decrement_write_index (h : Indexed s) (n : Nat) :
    ((decrement_write^[n] s).m_write_index : Int) =
      ((s.m_write_index : Int) - n) % s.m_capacity := by
  induction n generalizing s with
  | zero =>
      have hw := h.write_lt
      rw [Nat.cast_zero, Int.sub_zero, Int.emod_eq_of_lt (by omega) (by omega)]
      rfl
  | succ n ih =>
      have hcap : s.decrement_write.m_capacity = s.m_capacity := by rw [decrement_write_eq]
      rw [Function.iterate_succ_apply, ih h.step_back, hcap, h.decrement_write_emod,
        Int.emod_sub_emod, Int.sub_sub, Nat.cast_succ, Int.add_comm 1]

/-- The write index is `n` places back, as it is after `n` single steps, and is that of a slot. -/
structure Retreats (s : RingBuffer α) (n : Nat) : Prop where
  index : ((s.decrement_write_n n).m_write_index : Int) =
    ((s.m_write_index : Int) - n) % s.m_capacity
  steps : s.decrement_write_n n = decrement_write^[n] s
  in_bounds : (s.decrement_write_n n).m_write_index < s.m_capacity

/--
**Stepping back several places is right exactly if it does not go back over the first slot.**
-/
theorem retreats_iff (h : Indexed s) {n : Nat} (hn : n ≤ s.size) :
    Retreats s n ↔ n ≤ s.m_write_index := by
  have hw := h.write_lt
  have hsize := h.size_lt
  have hindex := h.decrement_write_n_index hn
  have hmod := sub_emod (n := n) hw (by omega)
  constructor
  · intro hright
    by_contra hgt
    have hplaces := hright.index
    rw [hindex, hmod, if_pos (Nat.lt_of_not_le hgt), if_neg hgt] at hplaces
    omega
  · intro hle
    rw [if_neg (Nat.not_lt.mpr hle)] at hindex
    rw [if_pos hle] at hmod
    refine ⟨by omega, ?_, by omega⟩
    have hsteps := h.iterate_decrement_write_index n
    have hsame : (s.decrement_write_n n).m_write_index = (decrement_write^[n] s).m_write_index := by
      omega
    rw [decrement_write_n_eq, hsame, ← iterate_decrement_write_eq]

/-- A buffer of three slots, of which those from `start` up to `write` are in use. -/
def three_slots (start write : Nat) : RingBuffer Nat :=
  ⟨⟨Arena.fresh 3, ⟨fun _ => false, 0⟩⟩, write, start, 3⟩

/-- Two places back from the last slot. -/
theorem retreats_to_start : Retreats (three_slots 0 2) 2 :=
  (retreats_iff ⟨by decide, by decide, by decide⟩ (by decide +kernel)).mpr (by decide)

/-- One place back from the first slot is the last, and the one before it is where this goes. -/
theorem retreats_too_far : ¬ ∀ (s : RingBuffer Nat), Indexed s → ∀ n ≤ s.size, Retreats s n := by
  intro hclaim
  have h := hclaim (three_slots 2 0) ⟨by decide, by decide, by decide⟩ 1 (by decide +kernel)
  have hindex := h.index
  revert hindex
  decide +kernel

end Hyperion.RingBuffer
