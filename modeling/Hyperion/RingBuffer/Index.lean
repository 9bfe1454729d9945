/-
Index arithmetic of the ring buffer.

`Shape` is what every reachable buffer satisfies about its three indices.  Under it
no index sum wraps around the machine word, so each of the small functions of
`Hyperion/RingBuffer/Basic.lean` has a value that is linear arithmetic, and every
later proof works with those values and never unfolds the functions again.

Position `i` of the buffer is the slot `get_adjusted_internal_index i`.  Positions
below the internal capacity are different slots, and position `size` is the spacer.
-/
import Hyperion.RingBuffer.Operations
import Hyperion.RingBuffer.Retreat
import Hyperion.Lib.Circular

namespace Hyperion.RingBuffer

variable {α : Type}

/-- The indices are places of the slot array, which spans at most half the address space. -/
structure Shape (s : RingBuffer α) : Prop where
  cap_le : s.m_capacity ≤ 2 ^ 63
  start_lt : s.m_start_index < s.m_capacity
  write_lt : s.m_write_index < s.m_capacity

namespace Shape

variable {s : RingBuffer α}

theorem cap_pos (h : Shape s) : 0 < s.m_capacity := Nat.lt_of_le_of_lt (Nat.zero_le _) h.start_lt

theorem one_le_cap (h : Shape s) : 1 ≤ s.m_capacity := h.cap_pos

theorem indexed (h : Shape s) : Indexed s := by
  have hcap := h.cap_le
  exact ⟨by omega, h.start_lt, h.write_lt⟩

/-! ### The word operations do not wrap -/

theorem add_eq (h : Shape s) {a b : Nat} (ha : a ≤ s.m_capacity) (hb : b < s.m_capacity) :
    usize.add a b = a + b := by
  have hcap := h.cap_le
  exact usize.add_eq (by omega)

theorem sub_eq (h : Shape s) {a b : Nat} (ha : a ≤ s.m_capacity) (hb : b ≤ a) :
    usize.sub a b = a - b := by
  have hcap := h.cap_le
  exact usize.sub_eq hb (by omega)

/-! ### The size -/

theorem size_eq (h : Shape s) :
    s.size = if s.m_start_index ≤ s.m_write_index then s.m_write_index - s.m_start_index
      else s.m_capacity - (s.m_start_index - s.m_write_index) := by
  have hs := h.start_lt
  have hw := h.write_lt
  unfold size
  by_cases hle : s.m_start_index ≤ s.m_write_index
  · rw [if_pos hle, if_pos hle, h.sub_eq (by omega) hle]
  · rw [if_neg hle, if_neg hle, h.sub_eq (a := s.m_start_index) (by omega) (by omega),
      h.sub_eq (Nat.le_refl _) (by omega)]

theorem size_lt (h : Shape s) : s.size < s.m_capacity := h.indexed.size_lt

theorem capacity_eq (h : Shape s) : s.capacity = s.m_capacity - 1 := by
  rw [capacity, h.sub_eq (Nat.le_refl _) h.one_le_cap]

theorem full_iff (h : Shape s) : s.full = true ↔ s.size + 1 = s.m_capacity := by
  have hcap := h.cap_pos
  rw [full, beq_iff_eq, h.sub_eq (Nat.le_refl _) h.one_le_cap]
  omega

theorem empty_iff (h : Shape s) : s.empty = true ↔ s.size = 0 := by
  have hs := h.start_lt
  have hw := h.write_lt
  rw [empty, beq_iff_eq, h.size_eq]
  split <;> omega

/-! ### From positions to slots -/

theorem internal_lt (h : Shape s) (i : Nat) : s.get_adjusted_internal_index i < s.m_capacity :=
  Nat.mod_lt _ h.cap_pos

theorem internal_mod (h : Shape s) {i : Nat} (hi : i ≤ s.m_capacity) :
    s.get_adjusted_internal_index i = (s.m_start_index + i) % s.m_capacity := by
  have hcap := h.cap_le
  have hs := h.start_lt
  rw [get_adjusted_internal_index, usize.add_eq (by omega)]

theorem internal_eq (h : Shape s) {i : Nat} (hi : i ≤ s.m_capacity) :
    s.get_adjusted_internal_index i
      = if s.m_start_index + i < s.m_capacity then s.m_start_index + i
        else s.m_start_index + i - s.m_capacity := by
  rw [h.internal_mod hi, Circular.add_mod h.start_lt hi]

theorem internal_inj (h : Shape s) {i j : Nat} (hi : i < s.m_capacity) (hj : j < s.m_capacity)
    (hij : s.get_adjusted_internal_index i = s.get_adjusted_internal_index j) : i = j := by
  rw [h.internal_mod (Nat.le_of_lt hi), h.internal_mod (Nat.le_of_lt hj)] at hij
  exact Circular.add_mod_inj h.start_lt hi hj hij

theorem internal_ne (h : Shape s) {i j : Nat} (hi : i < s.m_capacity) (hj : j < s.m_capacity)
    (hij : i ≠ j) : s.get_adjusted_internal_index i ≠ s.get_adjusted_internal_index j :=
  fun hc => hij (h.internal_inj hi hj hc)

theorem internal_zero (h : Shape s) : s.get_adjusted_internal_index 0 = s.m_start_index := by
  have hs := h.start_lt
  rw [h.internal_eq (Nat.zero_le _), Nat.add_zero, if_pos hs]

/-- From slot 0 on the positions are the slots. -/
theorem internal_of_start (h : Shape s) (hstart : s.m_start_index = 0) {j : Nat}
    (hj : j < s.m_capacity) : s.get_adjusted_internal_index j = j := by
  rw [h.internal_eq (Nat.le_of_lt hj), hstart, Nat.zero_add, if_pos hj]

/-- Position `size` is the spacer. -/
theorem internal_size (h : Shape s) : s.get_adjusted_internal_index s.size = s.m_write_index := by
  have hs := h.start_lt
  have hw := h.write_lt
  have hsize := h.size_lt
  rw [h.internal_eq (Nat.le_of_lt hsize), h.size_eq]
  split <;> split <;> omega

/-- Where a buffer starts and how long it is say where it is written next. -/
theorem write_congr (h : Shape s) {t : RingBuffer α} (ht : Shape t)
    (hstart : t.m_start_index = s.m_start_index) (hcap : t.m_capacity = s.m_capacity)
    (hsize : t.size = s.size) : t.m_write_index = s.m_write_index := by
  rw [← ht.internal_size, ← h.internal_size, hsize, get_adjusted_internal_index,
    get_adjusted_internal_index, hstart, hcap]

/-- An iterator of the buffer points at the spacer exactly when it is `end()`. -/
theorem internal_eq_write_iff (h : Shape s) {p : Nat} (hp : p ≤ s.size) :
    s.get_adjusted_internal_index p = s.m_write_index ↔ p = s.size := by
  have hsize := h.size_lt
  constructor
  · intro hc
    rw [← h.internal_size] at hc
    exact h.internal_inj (by omega) hsize hc
  · rintro rfl
    exact h.internal_size

/-! ### Moving the indices -/

theorem increment_indices (h : Shape s) : Shape s.increment_indices := by
  have hmod : ∀ n, n % s.m_capacity < s.m_capacity := fun n => Nat.mod_lt n h.cap_pos
  unfold RingBuffer.increment_indices
  simp only
  split
  · exact ⟨h.cap_le, hmod _, hmod _⟩
  · exact ⟨h.cap_le, h.start_lt, hmod _⟩

theorem increment_start (h : Shape s) : Shape s.increment_start := by
  unfold RingBuffer.increment_start
  split
  · exact ⟨h.cap_le, Nat.mod_lt _ h.cap_pos, h.write_lt⟩
  · exact h

theorem decrement_write (h : Shape s) : Shape s.decrement_write := by
  have hback := h.indexed.step_back
  refine ⟨?_, hback.start_lt, hback.write_lt⟩
  rw [decrement_write_eq]
  exact h.cap_le

theorem decrement_write_n (h : Shape s) {n : Nat} (hn : n ≤ s.size) :
    Shape (s.decrement_write_n n) := by
  have hw := h.write_lt
  have hsize := h.size_lt
  have hindex := h.indexed.decrement_write_n_index hn
  rw [decrement_write_n_eq]
  refine ⟨h.cap_le, h.start_lt, ?_⟩
  show (s.decrement_write_n n).m_write_index < s.m_capacity
  rw [hindex]
  split <;> omega

theorem retract_write (h : Shape s) {n : Nat} (hn : n ≤ s.size) :
    Shape (s.retract_write n) := by
  have hw := h.write_lt
  have hsize := h.size_lt
  unfold RingBuffer.retract_write
  split
  · exact h.decrement_write_n hn
  · split
    · by_cases hlt : s.m_write_index > n
      · have hsub : usize.sub s.m_write_index n = s.m_write_index - n :=
          h.sub_eq (Nat.le_of_lt hw) (Nat.le_of_lt hlt)
        simp only [if_pos hlt, hsub]
        rw [if_pos (by omega)]
        refine ⟨h.cap_le, h.start_lt, ?_⟩
        show usize.sub (usize.sub s.m_capacity 1) (usize.sub (s.m_write_index - n) 1)
          < s.m_capacity
        have hone : usize.sub (s.m_write_index - n) 1 = s.m_write_index - n - 1 :=
          h.sub_eq (by omega) (by omega)
        rw [hone, h.sub_eq (Nat.le_refl _) h.one_le_cap, h.sub_eq (by omega) (by omega)]
        omega
      · have hsub : usize.sub n 0 = n := h.sub_eq (by omega) (Nat.zero_le _)
        simp only [if_neg hlt, hsub]
        rw [if_neg (Nat.lt_irrefl 0)]
        exact h.decrement_write_n hn
    · exact h

end Shape

/-! ### What moving the indices changes -/

section Fields

variable (s : RingBuffer α)

@[simp] theorem increment_indices_storage : s.increment_indices.toStorage = s.toStorage := by
  unfold increment_indices; simp only; split <;> rfl

@[simp] theorem increment_indices_capacity : s.increment_indices.m_capacity = s.m_capacity := by
  unfold increment_indices; simp only; split <;> rfl

@[simp] theorem increment_start_storage : s.increment_start.toStorage = s.toStorage := by
  unfold increment_start; split <;> rfl

@[simp] theorem increment_start_capacity : s.increment_start.m_capacity = s.m_capacity := by
  unfold increment_start; split <;> rfl

@[simp] theorem decrement_write_storage : s.decrement_write.toStorage = s.toStorage := by
  unfold decrement_write; split <;> rfl

@[simp] theorem decrement_write_start : s.decrement_write.m_start_index = s.m_start_index := by
  unfold decrement_write; split <;> rfl

@[simp] theorem decrement_write_capacity : s.decrement_write.m_capacity = s.m_capacity := by
  unfold decrement_write; split <;> rfl

variable (n : Nat)

@[simp] theorem decrement_write_n_storage : (s.decrement_write_n n).toStorage = s.toStorage := by
  unfold decrement_write_n; split <;> rfl

@[simp] theorem decrement_write_n_start :
    (s.decrement_write_n n).m_start_index = s.m_start_index := by
  unfold decrement_write_n; split <;> rfl

@[simp] theorem decrement_write_n_capacity :
    (s.decrement_write_n n).m_capacity = s.m_capacity := by
  unfold decrement_write_n; split <;> rfl

@[simp] theorem retract_write_storage : (s.retract_write n).toStorage = s.toStorage := by
  unfold retract_write; simp only; repeat' split
  all_goals simp

@[simp] theorem retract_write_start : (s.retract_write n).m_start_index = s.m_start_index := by
  unfold retract_write; simp only; repeat' split
  all_goals simp

@[simp] theorem retract_write_capacity : (s.retract_write n).m_capacity = s.m_capacity := by
  unfold retract_write; simp only; repeat' split
  all_goals simp

theorem increment_indices_write : s.increment_indices.m_write_index
    = usize.add s.m_write_index 1 % s.m_capacity := by
  unfold increment_indices; simp only; split <;> rfl

theorem increment_indices_start : s.increment_indices.m_start_index
    = if usize.add s.m_write_index 1 % s.m_capacity = s.m_start_index
      then s.get_adjusted_internal_index 1 else s.m_start_index := by
  unfold increment_indices; simp only; split <;> rfl

end Fields

/-- The slots depend on where the buffer starts and on nothing else. -/
theorem internal_congr {s t : RingBuffer α} (hstart : t.m_start_index = s.m_start_index)
    (hcap : t.m_capacity = s.m_capacity) (i : Nat) :
    t.get_adjusted_internal_index i = s.get_adjusted_internal_index i := by
  rw [get_adjusted_internal_index, get_adjusted_internal_index, hstart, hcap]

namespace Shape

variable {s : RingBuffer α}

/-- Starting one place later moves every position one place on. -/
theorem internal_succ (h : Shape s) {t : RingBuffer α} (ht : Shape t)
    (hstart : t.m_start_index = s.get_adjusted_internal_index 1)
    (hcap : t.m_capacity = s.m_capacity) {i : Nat} (hi : i < s.m_capacity) :
    t.get_adjusted_internal_index i = s.get_adjusted_internal_index (i + 1) := by
  rw [ht.internal_mod (by omega), hstart, hcap, h.internal_mod h.one_le_cap, h.internal_mod hi,
    Nat.mod_add_mod, Nat.add_assoc, Nat.add_comm 1 i]

theorem internal_one (h : Shape s) : s.get_adjusted_internal_index 1
    = if s.m_start_index + 1 = s.m_capacity then 0 else s.m_start_index + 1 := by
  rw [h.internal_mod h.one_le_cap, Circular.succ_mod h.start_lt]

/-- The slot of the next position is the next slot. -/
theorem internal_next (h : Shape s) {i : Nat} (hi : i < s.m_capacity) :
    s.get_adjusted_internal_index (i + 1) = if s.get_adjusted_internal_index i + 1 = s.m_capacity
      then 0 else s.get_adjusted_internal_index i + 1 := by
  have hs := h.start_lt
  rw [h.internal_eq hi, h.internal_eq (Nat.le_of_lt hi)]
  repeat' split
  all_goals omega

theorem write_next (h : Shape s) : usize.add s.m_write_index 1 % s.m_capacity
    = if s.m_write_index + 1 = s.m_capacity then 0 else s.m_write_index + 1 := by
  have hw := h.write_lt
  have hcap := h.cap_le
  rw [usize.add_eq (by omega), Circular.succ_mod hw]

/-- The write index runs into the start exactly when the buffer is full. -/
theorem write_next_eq_start_iff (h : Shape s) :
    usize.add s.m_write_index 1 % s.m_capacity = s.m_start_index ↔ s.size + 1 = s.m_capacity := by
  have hs := h.start_lt
  have hw := h.write_lt
  rw [h.write_next, h.size_eq]
  split <;> split <;> omega

/-- Going on from a buffer with room makes it longer. -/
theorem increment_room (h : Shape s) (hroom : s.size + 1 ≠ s.m_capacity) :
    s.increment_indices.m_start_index = s.m_start_index ∧
    s.increment_indices.size = s.size + 1 := by
  have hs := h.start_lt
  have hw := h.write_lt
  have hstart : s.increment_indices.m_start_index = s.m_start_index := by
    rw [increment_indices_start, if_neg (fun hc => hroom (h.write_next_eq_start_iff.mp hc))]
  refine ⟨hstart, ?_⟩
  rw [h.size_eq] at hroom ⊢
  rw [h.increment_indices.size_eq, hstart, increment_indices_write, increment_indices_capacity,
    h.write_next]
  split at hroom <;> split <;> split <;> omega

/-- Going on from a full buffer takes the front off. -/
theorem increment_full (h : Shape s) (hfull : s.size + 1 = s.m_capacity) :
    s.increment_indices.m_start_index = s.get_adjusted_internal_index 1 ∧
    s.increment_indices.size = s.size := by
  have hs := h.start_lt
  have hw := h.write_lt
  have hnext := h.write_next_eq_start_iff.mpr hfull
  have hstart : s.increment_indices.m_start_index = s.get_adjusted_internal_index 1 := by
    rw [increment_indices_start, if_pos hnext]
  refine ⟨hstart, ?_⟩
  rw [h.size_eq] at hfull ⊢
  rw [h.increment_indices.size_eq, hstart, increment_indices_write, increment_indices_capacity,
    hnext, h.internal_one]
  split at hfull <;> split <;> split <;> omega

/-- Taking the front off. -/
theorem increment_start_nonempty (h : Shape s) (hpos : 0 < s.size) :
    s.increment_start.m_start_index = s.get_adjusted_internal_index 1 ∧
    s.increment_start.size + 1 = s.size := by
  have hs := h.start_lt
  have hw := h.write_lt
  have hne : s.m_start_index ≠ s.m_write_index := by
    intro hc
    rw [h.size_eq] at hpos
    split at hpos <;> omega
  have hstart : s.increment_start.m_start_index = s.get_adjusted_internal_index 1 := by
    rw [RingBuffer.increment_start, if_pos hne]
    rfl
  have hwrite : s.increment_start.m_write_index = s.m_write_index := by
    rw [RingBuffer.increment_start, if_pos hne]
  refine ⟨hstart, ?_⟩
  rw [h.size_eq] at hpos ⊢
  rw [h.increment_start.size_eq, hstart, hwrite, increment_start_capacity, h.internal_one]
  split at hpos <;> split <;> split <;> omega

theorem decrement_write_index (h : Shape s) : s.decrement_write.m_write_index
    = if s.m_write_index = 0 then s.m_capacity - 1 else s.m_write_index - 1 :=
  h.indexed.decrement_write_index

/-- Taking the back off. -/
theorem decrement_write_nonempty (h : Shape s) (hpos : 0 < s.size) :
    s.decrement_write.m_write_index = s.get_adjusted_internal_index (s.size - 1) ∧
    s.decrement_write.size + 1 = s.size := by
  have hs := h.start_lt
  have hw := h.write_lt
  have hsize := h.size_lt
  rw [h.internal_eq (by omega), h.decrement_write_index]
  rw [h.size_eq] at hpos ⊢
  rw [h.decrement_write.size_eq, h.decrement_write_index, decrement_write_start,
    decrement_write_capacity]
  refine ⟨?_, ?_⟩
  · split at hpos <;> split <;> split <;> omega
  · split at hpos <;> split <;> split <;> omega

/-! ### The write index after an erasure -/

theorem decrement_write_n_index (h : Shape s) {n : Nat} (hn : n ≤ s.size) :
    (s.decrement_write_n n).m_write_index = if s.m_write_index < n
      then s.m_capacity - 1 - (n - s.m_write_index) else s.m_write_index - n :=
  h.indexed.decrement_write_n_index hn

/-- Stepping back from behind the wrap; the distance is subtracted on the wrong side of it. -/
theorem retract_write_index (h : Shape s) {n : Nat} (hn : n ≤ s.size)
    (hlt : s.m_write_index < s.m_start_index) :
    (s.retract_write n).m_write_index = if n < s.m_write_index
      then s.m_capacity - (s.m_write_index - n)
      else (s.decrement_write_n n).m_write_index := by
  have hw := h.write_lt
  have hsize := h.size_lt
  unfold RingBuffer.retract_write
  rw [if_neg (by omega), if_pos hlt]
  by_cases hgt : s.m_write_index > n
  · have hsub : usize.sub s.m_write_index n = s.m_write_index - n :=
      h.sub_eq (Nat.le_of_lt hw) (Nat.le_of_lt hgt)
    simp only [if_pos hgt, hsub]
    rw [if_pos (by omega)]
    have hone : usize.sub (s.m_write_index - n) 1 = s.m_write_index - n - 1 :=
      h.sub_eq (by omega) (by omega)
    show usize.sub (usize.sub s.m_capacity 1) (usize.sub (s.m_write_index - n) 1) = _
    rw [hone, h.sub_eq (Nat.le_refl _) h.one_le_cap, h.sub_eq (by omega) (by omega)]
    omega
  · have hsub : usize.sub n 0 = n := h.sub_eq (by omega) (Nat.zero_le _)
    simp only [if_neg hgt, hsub]
    rw [if_neg (Nat.lt_irrefl 0)]

/-- Positions behind the spacer's slot exist only in a buffer that wraps around. -/
theorem wrapped_of_write_lt (h : Shape s) {p : Nat} (hp : p ≤ s.size)
    (hlt : s.m_write_index < s.get_adjusted_internal_index p) :
    s.m_write_index < s.m_start_index := by
  have hs := h.start_lt
  have hw := h.write_lt
  have hsize := h.size_lt
  rw [h.internal_eq (by omega)] at hlt
  rw [h.size_eq] at hp hsize
  split at hlt <;> split at hp <;> omega

end Shape

end Hyperion.RingBuffer
