/-
What the operations inside the buffer do, one lemma for each.

An insertion shifts the elements behind the gap up, from the last one down; into a
full buffer it shifts them two places instead of one, from the last but one, and
places the gap one slot further on than asked.  An erasure shifts the elements behind
it down, from the first one up.  Both are loops of `shift_slot`, written here over
positions, where nothing wraps around.
-/
import Hyperion.RingBuffer.Bounds

namespace Hyperion.RingBuffer

variable {α : Type} {E : ElementType α} {s : RingBuffer α}

/-- The first `n` rounds of moving elements `d` positions up, the last position first. -/
def shift_up (E : ElementType α) (s : RingBuffer α) (d n : Nat) : Storage α :=
  loop (fun i st => st.shift_slot E (s.get_adjusted_internal_index (s.size - i))
    (s.get_adjusted_internal_index (s.size - d - i))) n s.toStorage

/-- The first `n` rounds of moving elements from position `q` on down to position `p`. -/
def shift_down (E : ElementType α) (s : RingBuffer α) (p q n : Nat) : Storage α :=
  loop (fun i st => st.shift_slot E (s.get_adjusted_internal_index (p + i))
    (s.get_adjusted_internal_index (q + i))) n s.toStorage

/-- How far the elements behind a gap move up. -/
def stride (s : RingBuffer α) : Nat := if s.full then 2 else 1

theorem stride_pos (s : RingBuffer α) : 0 < s.stride := by
  unfold stride
  split <;> omega

/-- The element at position `j` moves away when a gap is opened at `p`, and none takes its place. -/
def Vacates (s : RingBuffer α) (p j : Nat) : Prop :=
  p ≤ j ∧ j < p + s.stride ∧ j + s.stride ≤ s.size

instance (s : RingBuffer α) (p j : Nat) : Decidable (s.Vacates p j) :=
  inferInstanceAs (Decidable (_ ∧ _ ∧ _))

namespace Shape

/-! ### The loops -/

theorem stride_room (h : Shape s) (hroom : s.size + 1 ≠ s.m_capacity) : s.stride = 1 :=
  if_neg fun hfull => hroom (h.full_iff.mp hfull)

theorem stride_full (h : Shape s) (hfull : s.size + 1 = s.m_capacity) : s.stride = 2 :=
  if_pos (h.full_iff.mpr hfull)

/-- In a buffer with room the elements behind the gap move up by one. -/
theorem open_gap_room (h : Shape s) (E : ElementType α) {p : Nat} (hp : p < s.size)
    (hroom : s.size + 1 ≠ s.m_capacity) :
    s.open_gap E p = (s.get_adjusted_internal_index p, s.shift_up E 1 (s.size - p)) := by
  have hsize := h.size_lt
  have hcap := h.sub_eq (Nat.le_refl _) h.one_le_cap
  have hmove : usize.sub s.size p = s.size - p := h.sub_eq (by omega) (by omega)
  have hsource : usize.sub (s.size - p) 1 = s.size - p - 1 := h.sub_eq (by omega) (by omega)
  have hnot : ¬s.size = s.m_capacity - 1 := by omega
  unfold open_gap
  simp only [hcap, hmove, hsource, if_neg hnot]
  refine congrArg _ (loop_congr fun i st hi => ?_)
  rw [h.sub_eq (a := s.size) (by omega) (by omega), h.sub_eq (by omega) (by omega),
    h.add_eq (by omega) (by omega)]
  congr 2
  omega

/-- In a full buffer they move up by two, all but the last, and the gap is one slot further on. -/
theorem open_gap_full (h : Shape s) (E : ElementType α) {p : Nat} (hp : p < s.size)
    (hfull : s.size + 1 = s.m_capacity) :
    s.open_gap E p
      = (s.get_adjusted_internal_index p + 1, s.shift_up E 2 (s.size - p - 1)) := by
  have hsize := h.size_lt
  have hinternal := h.internal_lt p
  have hcap := h.sub_eq (Nat.le_refl _) h.one_le_cap
  have hmove : usize.sub s.size p = s.size - p := h.sub_eq (by omega) (by omega)
  have hfewer : usize.sub (s.size - p) 1 = s.size - p - 1 := h.sub_eq (by omega) (by omega)
  have hindex : usize.add (s.get_adjusted_internal_index p) 1
      = s.get_adjusted_internal_index p + 1 := h.add_eq (Nat.le_of_lt hinternal) (by omega)
  have hyes : s.size = s.m_capacity - 1 := by omega
  unfold open_gap
  simp only [hcap, hmove, hfewer, hindex, if_pos hyes]
  refine congrArg _ (loop_congr fun i st hi => ?_)
  have hsource : usize.sub (s.size - p - 1) 1 = s.size - p - 1 - 1 :=
    h.sub_eq (by omega) (by omega)
  rw [hsource, h.sub_eq (a := s.size) (by omega) (by omega),
    h.sub_eq (a := s.size - p - 1 - 1) (by omega) (by omega), h.add_eq (by omega) (by omega)]
  congr 2
  omega

/-- Either way the elements from the gap on move up, as far as there is room for them. -/
theorem open_gap_storage (h : Shape s) (E : ElementType α) {p : Nat} (hp : p < s.size) :
    (s.open_gap E p).2 = s.shift_up E s.stride (s.size + 1 - (p + s.stride)) := by
  by_cases hfull : s.size + 1 = s.m_capacity
  · rw [h.open_gap_full E hp hfull, h.stride_full hfull,
      show s.size + 1 - (p + 2) = s.size - p - 1 by omega]
  · rw [h.open_gap_room E hp hfull, h.stride_room hfull,
      show s.size + 1 - (p + 1) = s.size - p by omega]

/-- The gap is where the last of them came from, or one behind it if the slots do not wrap. -/
theorem open_gap_index (h : Shape s) (E : ElementType α) {p : Nat} (hp : p < s.size)
    (hinside : s.size + 1 = s.m_capacity → s.get_adjusted_internal_index p + 1 ≠ s.m_capacity) :
    (s.open_gap E p).1 = s.get_adjusted_internal_index (p + s.stride - 1) := by
  by_cases hfull : s.size + 1 = s.m_capacity
  · rw [h.open_gap_full E hp hfull, h.stride_full hfull]
    show _ = s.get_adjusted_internal_index (p + 1)
    rw [h.internal_next (by omega), if_neg (hinside hfull)]
  · rw [h.open_gap_room E hp hfull, h.stride_room hfull, Nat.add_sub_cancel]

theorem close_gap_eq (h : Shape s) (E : ElementType α) {n p q : Nat} (hpq : p ≤ q)
    (hn : q + n ≤ s.size) : s.close_gap E n p q = s.shift_down E p q n := by
  have hsize := h.size_lt
  refine loop_congr fun i st hi => ?_
  rw [h.add_eq (a := p) (by omega) (by omega), h.add_eq (a := q) (by omega) (by omega)]

/-! ### The size after an erasure -/

/-- Stepping over the wrap goes one place too far, from the whole buffer to before its start. -/
theorem size_decrement_write_n (h : Shape s) {n : Nat} (hn : n ≤ s.size) :
    (s.decrement_write_n n).size = if n ≤ s.m_write_index then s.size - n
      else if n = s.size then s.m_capacity - 1 else s.size - n - 1 := by
  have hs := h.start_lt
  have hw := h.write_lt
  have hsize := h.size_eq
  rw [(h.decrement_write_n hn).size_eq, h.decrement_write_n_index hn, decrement_write_n_start,
    decrement_write_n_capacity]
  by_cases hle : n ≤ s.m_write_index
  · rw [if_pos hle, if_neg (Nat.not_lt_of_le hle)]
    split at hsize <;> split <;> omega
  · rw [if_neg hle, if_pos (Nat.lt_of_not_le hle)]
    split at hsize <;> split <;> split <;> omega

theorem size_erased_end_le (h : Shape s) {f : Nat} (hf : f < s.size)
    (hend : 0 < f ∨ s.size ≤ s.m_write_index ∨ s.full) :
    (s.decrement_write_n (s.size - f)).size ≤ s.size := by
  rw [h.full_iff] at hend
  rw [h.size_decrement_write_n (Nat.sub_le _ _)]
  split
  · exact Nat.sub_le _ _
  · split <;> omega

theorem size_retracted_le (h : Shape s) {n : Nat} (hn : n < s.size)
    (hwrapped : s.m_write_index < s.m_start_index)
    (hplace : ¬(n < s.m_write_index ∧ 2 * s.m_write_index < s.m_capacity + n ∧
      s.m_capacity + n < s.m_start_index + s.m_write_index)) :
    (s.retract_write n).size ≤ s.size := by
  have hs := h.start_lt
  have hw := h.write_lt
  have hsize := h.size_eq
  have hlt := h.size_lt
  rw [(h.retract_write (Nat.le_of_lt hn)).size_eq, h.retract_write_index (Nat.le_of_lt hn) hwrapped,
    retract_write_start, retract_write_capacity, h.decrement_write_n_index (Nat.le_of_lt hn)]
  split at hsize <;> split <;> split <;> (try split) <;> omega

end Shape

namespace Sound

/-! ### Insertion -/

/-- Before an element the insertion opens a gap and fills it. -/
theorem insert_internal_eq (h : Sound E s) {p : Nat} (hp : p < s.size) (elem : Argument α) :
    s.insert_internal E p elem = RingBuffer.increment_indices
      { s with toStorage := fill_gap E (s.open_gap E p).1 elem (s.open_gap E p).2 } := by
  have hne : s.get_adjusted_internal_index p ≠ s.m_write_index := by
    intro hc
    rw [h.internal_eq_write_iff (Nat.le_of_lt hp)] at hc
    omega
  rw [RingBuffer.insert_internal, if_neg hne]

theorem insert_emplace_internal_eq (h : Sound E s) {p : Nat} (hp : p < s.size)
    (args : Argument α) :
    s.insert_emplace_internal E p args = (RingBuffer.increment_indices
      { s with toStorage := emplace_gap E (s.open_gap E p).1 args (s.open_gap E p).2 }).slot
        (s.open_gap E p).1 := by
  have hne : s.get_adjusted_internal_index p ≠ s.m_write_index := by
    intro hc
    rw [h.internal_eq_write_iff (Nat.le_of_lt hp)] at hc
    omega
  rw [RingBuffer.insert_emplace_internal, if_neg hne]

/-- A reference to an element leads to a slot. -/
theorem reference_lt (h : Sound E s) (x : Argument α) :
    ∀ k ∈ (s.reference x).index, k < s.m_capacity := h.fitted.reference_lt x

/-- Inserting at the end is pushing, and moves from nothing. -/
theorem insert_internal_end (h : Sound E s) (x : Argument α) :
    s.insert_internal E s.size (s.reference x) = s.push_back E (s.reference x).lvalue := by
  have hpush : Sound E (s.push_back E (s.reference x).lvalue) :=
    h.push_back_of ((s.reference x).index_lvalue ▸ h.reference_lt x)
  have hcap : (s.push_back E (s.reference x).lvalue).m_capacity = s.m_capacity :=
    increment_indices_capacity _
  rw [RingBuffer.insert_internal, if_pos h.internal_size, RingBuffer.emplace_back]
  exact congrArg Prod.snd (hpush.slot_eq (hcap ▸ h.write_lt))

theorem insert_emplace_internal_end (h : Sound E s) (args : Argument α) :
    s.insert_emplace_internal E s.size args = s.emplace_back E args := by
  rw [RingBuffer.insert_emplace_internal, if_pos h.internal_size]

/-! ### Erasure -/

/-- The iterator an erasure returns. -/
theorem begin'_plus (h : Sound E s) {p : Nat} (hp : p < s.m_capacity) :
    (s.begin'.1.plus p s.begin'.2).1.m_current_index = p ∧ (s.begin'.1.plus p s.begin'.2).2 = s := by
  have hadd : usize.add 0 p = p := by
    rw [h.add_eq (Nat.zero_le _) hp, Nat.zero_add]
  have hcap := h.cap_pos
  rw [h.begin'_eq, Iterator.plus]
  simp only [hadd]
  rw [if_neg (by rw [h.capacity_eq]; omega), RingBuffer.subscript, h.slot_eq (h.internal_lt p)]
  exact ⟨rfl, rfl⟩

theorem erase_internal_end (h : Sound E s) :
    s.erase_internal E s.size = (⟨s.m_write_index, s.size⟩, s) := by
  rw [RingBuffer.erase_internal, if_pos h.internal_size, h.end'_eq]

/-- Erasing an element moves those behind it down by one. -/
theorem erase_internal_eq (h : Sound E s) {p : Nat} (hp : p < s.size) :
    (s.erase_internal E p).1.m_current_index = p ∧
    (s.erase_internal E p).2
      = RingBuffer.decrement_write { s with toStorage := s.shift_down E p (p + 1) (s.size - 1 - p) } := by
  have hsize := h.size_lt
  have hne : s.get_adjusted_internal_index p ≠ s.m_write_index := by
    intro hc
    rw [h.internal_eq_write_iff (Nat.le_of_lt hp)] at hc
    omega
  have hless : usize.sub s.size 1 = s.size - 1 := h.sub_eq (by omega) (by omega)
  have hmove : usize.sub (s.size - 1) p = s.size - 1 - p := h.sub_eq (by omega) (by omega)
  have hnext : usize.add p 1 = p + 1 := h.add_eq (by omega) (by omega)
  have hgap := h.close_gap (k := s.size - 1 - p) (Nat.le_succ p) (by omega)
  have hdec := (h.with_storage hgap).decrement_write (show 0 < s.size by omega)
  obtain ⟨hit, hstate⟩ := hdec.begin'_plus (p := p) (by
    rw [decrement_write_capacity]
    show p < s.m_capacity
    omega)
  rw [RingBuffer.erase_internal, if_neg hne]
  simp only [hless, hmove, hnext]
  rw [← h.close_gap_eq E (Nat.le_succ p) (by omega)]
  exact ⟨hit, hstate⟩

theorem erase_range_some {f l : Nat} (hfl : f < l) :
    s.erase_range E (s.iterator f) (s.iterator l) = s.erase_internal_range E f l := by
  have hnot : ¬(s.iterator f).m_current_index ≥ (s.iterator l).m_current_index := by
    show ¬f ≥ l
    omega
  rw [RingBuffer.erase_range, if_neg hnot]
  rfl

/-- Erasing a range whose end is not behind the spacer moves the elements behind it down. -/
theorem erase_range_eq (h : Sound E s) {f l : Nat} (hfl : f < l) (hl : l ≤ s.size)
    (hbehind : s.get_adjusted_internal_index l ≤ s.m_write_index) :
    (s.erase_range E (s.iterator f) (s.iterator l)).1.m_current_index = f ∧
    (s.erase_range E (s.iterator f) (s.iterator l)).2
      = RingBuffer.decrement_write_n { s with toStorage := s.shift_down E f l (s.size - l) } (l - f) := by
  have hsize := h.size_lt
  have hremove : usize.sub l f = l - f := h.sub_eq (by omega) (by omega)
  have hmove : usize.sub s.size l = s.size - l := h.sub_eq (by omega) (by omega)
  have hgap := h.close_gap (k := s.size - l) (Nat.le_of_lt hfl) (by omega)
  have hdec := (h.with_storage hgap).decrement_write_n (n := l - f) (show l - f ≤ s.size by omega)
  obtain ⟨hit, hstate⟩ := hdec.begin'_plus (p := f) (by
    rw [decrement_write_n_capacity]
    show f < s.m_capacity
    omega)
  rw [erase_range_some hfl, erase_internal_range]
  simp only [hremove, hmove]
  rw [if_neg (by omega), ← h.close_gap_eq E (Nat.le_of_lt hfl) (by omega)]
  exact ⟨hit, hstate⟩

/-- Erasing a range whose end is behind the spacer moves nothing. -/
theorem erase_range_retract (h : Sound E s) {f l : Nat} (hfl : f < l) (hl : l ≤ s.size)
    (hbehind : s.m_write_index < s.get_adjusted_internal_index l) :
    (s.erase_range E (s.iterator f) (s.iterator l)).1.m_current_index
      = (s.retract_write (l - f)).size ∧
    (s.erase_range E (s.iterator f) (s.iterator l)).2 = s.retract_write (l - f) := by
  have hsize := h.size_lt
  have hremove : usize.sub l f = l - f := h.sub_eq (by omega) (by omega)
  have hret := h.retract_write (show l - f ≤ s.size by omega)
  rw [erase_range_some hfl, erase_internal_range]
  simp only [hremove]
  rw [if_pos hbehind, hret.end'_eq]
  exact ⟨rfl, rfl⟩

theorem erase_range_none {f l : Nat} (hfl : l ≤ f) :
    s.erase_range E (s.iterator f) (s.iterator l) = (s.iterator l, s) := by
  rw [RingBuffer.erase_range]
  exact if_pos hfl

end Sound

end Hyperion.RingBuffer
