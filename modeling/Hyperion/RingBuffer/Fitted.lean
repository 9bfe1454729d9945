/-
Which slots have a flag.

A buffer that has grown has one flag less than it has slots: the last slot has none.  What
keeps the operations off it is where the indices are.  The slots in use before the write
index stop short of the last one unless the buffer wraps around, so a buffer that does not
is in no danger, and one comes to wrap around only by writing to the last slot, which is
where it would have noticed.  `Fitted` says so of `n` slots and `m` flags, and each
operation keeps it that writes to no slot without a flag.

A buffer that never grew has a flag for each slot, and everything here holds of it
without a condition.
-/
import Hyperion.RingBuffer.Ends

namespace Hyperion

variable {α : Type} {E : ElementType α}

namespace Storage

/-- `n` slots and `m` flags, and no access was past the end of either. -/
structure Fits (E : ElementType α) (n m : Nat) (st : Storage α) : Prop where
  buffer : st.m_buffer.InBounds n
  flags : E.trivially_destructible = false → st.m_constructed.size = m

/-- A slot that has a flag, if the element type needs one. -/
def Place (E : ElementType α) (n m i : Nat) : Prop :=
  i < n ∧ (E.trivially_destructible = false → i < m)

theorem Place.of_lt {n i : Nat} (h : i < n) : Place E n n i := ⟨h, fun _ => h⟩

namespace Fits

variable {n m i j : Nat} {st : Storage α}

/-- Looking at a flag changes nothing. -/
theorem is_constructed_eq (h : Fits E n m st) (hi : Place E n m i) :
    (st.is_constructed E i).2 = st := by
  unfold Storage.is_constructed
  split
  · rfl
  · rename_i hE
    rw [Bool.not_eq_true] at hE
    rw [Arena.touch_of_lt (h.flags hE ▸ hi.2 hE)]

theorem set_constructed (h : Fits E n m st) (hi : Place E n m i) (b : Bool) :
    Fits E n m (st.set_constructed E i b) := by
  unfold Storage.set_constructed
  split
  · exact h
  · rename_i hE
    rw [Bool.not_eq_true] at hE
    exact ⟨h.buffer.touch (h.flags hE ▸ hi.2 hE), h.flags⟩

theorem construct (h : Fits E n m st) (hi : i < n) (v : Option α) :
    Fits E n m (st.construct i v) := ⟨h.buffer.construct hi v, h.flags⟩

theorem destroy (h : Fits E n m st) (hi : i < n) : Fits E n m (st.destroy i) :=
  ⟨h.buffer.destroy hi, h.flags⟩

theorem assign (h : Fits E n m st) (hi : i < n) (v : Option α) : Fits E n m (st.assign i v) :=
  ⟨h.buffer.assign hi v, h.flags⟩

theorem move (h : Fits E n m st) (hi : i < n) : Fits E n m (st.move E i).2 :=
  ⟨h.buffer.moveFrom hi _, h.flags⟩

theorem move_or_copy (h : Fits E n m st) (hi : i < n) : Fits E n m (st.move_or_copy E i).2 := by
  unfold Storage.move_or_copy
  split
  · exact h.move hi
  · exact ⟨h.buffer.copyFrom hi, h.flags⟩

theorem destroy_if_needed (h : Fits E n m st) (hi : Place E n m i) :
    Fits E n m (st.destroy_if_needed E i) := by
  unfold Storage.destroy_if_needed
  split
  · exact h
  · exact (h.destroy hi.1).set_constructed hi false

theorem shift_slot (h : Fits E n m st) (hi : Place E n m i) (hj : Place E n m j) :
    Fits E n m (st.shift_slot E i j) := by
  unfold Storage.shift_slot
  simp only [h.is_constructed_eq hi, h.is_constructed_eq hj]
  split
  · split
    · exact (((h.move_or_copy hj.1).construct hi.1 _).set_constructed hi _).destroy_if_needed hj
    · exact h
  · split
    · exact ((h.move_or_copy hj.1).assign hi.1 _).destroy_if_needed hj
    · exact h

/-- An argument that leads to a slot. -/
theorem use (h : Fits E n m st) {arg : RingBuffer.Argument α} (harg : ∀ k ∈ arg.index, k < n) :
    Fits E n m (arg.use E st) := by
  cases arg with
  | value v => exact h
  | element k make => exact ⟨h.buffer.copyFrom (harg k rfl), h.flags⟩
  | rvalue k => exact h.move (harg k rfl)

theorem fill_gap (h : Fits E n m st) (hi : Place E n m i) {elem : RingBuffer.Argument α}
    (helem : ∀ k ∈ elem.index, k < n) : Fits E n m (RingBuffer.fill_gap E i elem st) := by
  unfold RingBuffer.fill_gap
  simp only [h.is_constructed_eq hi]
  split
  · exact (h.assign hi.1 _).use helem
  · exact ((h.use helem).construct hi.1 _).set_constructed hi _

theorem emplace_gap (h : Fits E n m st) (hi : Place E n m i) {args : RingBuffer.Argument α}
    (hargs : ∀ k ∈ args.index, k < n) : Fits E n m (RingBuffer.emplace_gap E i args st) := by
  unfold RingBuffer.emplace_gap
  simp only [h.is_constructed_eq hi]
  refine Storage.Fits.construct (Storage.Fits.use ?_ hargs) hi.1 _
  split
  · exact h.destroy hi.1
  · exact h.set_constructed hi true

end Fits

end Storage

namespace RingBuffer

open Storage (Place)

variable {n m : Nat} {s : RingBuffer α}

/-- A buffer of `n` slots, of which the last may lack a flag, but not if it wraps around. -/
structure Fitted (E : ElementType α) (n m : Nat) (s : RingBuffer α) : Prop extends Shape s where
  slots : s.m_capacity = n
  fits : s.toStorage.Fits E n m
  flags_le : E.trivially_destructible = false → n ≤ m + 1
  wrapped : E.trivially_destructible = false → s.m_write_index < s.m_start_index → n ≤ m

namespace Fitted

/-! ### Places -/

theorem position_lt (h : Fitted E n m s) (i : Nat) : s.get_adjusted_internal_index i < n :=
  h.slots ▸ h.internal_lt i

theorem write_lt' (h : Fitted E n m s) : s.m_write_index < n := h.slots ▸ h.write_lt

/-- Each element has a flag. -/
theorem place (h : Fitted E n m s) {i : Nat} (hi : i < s.size) :
    Place E n m (s.get_adjusted_internal_index i) := by
  have hlt := h.position_lt i
  refine ⟨hlt, fun hE => ?_⟩
  have hs := h.start_lt
  have hw := h.write_lt
  have hcap := h.slots
  have hflags := h.flags_le hE
  have hwrapped := h.wrapped hE
  have hsize := h.size_lt
  rw [h.internal_eq (by omega)]
  rw [h.size_eq] at hi
  split at hi <;> split <;> omega

/-- A flag for the spacer is a flag for each position up to it. -/
theorem place_le (h : Fitted E n m s) (hw : Place E n m s.m_write_index) {i : Nat}
    (hi : i ≤ s.size) : Place E n m (s.get_adjusted_internal_index i) := by
  rcases Nat.lt_or_eq_of_le hi with hlt | rfl
  · exact h.place hlt
  · rw [h.internal_size]
    exact hw

/-! ### The indices -/

/-- New storage for the same indices. -/
theorem with_storage (h : Fitted E n m s) {st : Storage α} (hst : st.Fits E n m) :
    Fitted E n m { s with toStorage := st } :=
  ⟨h.toShape.with_storage st, h.slots, hst, h.flags_le, h.wrapped⟩

/-- The buffer comes to wrap around only behind the last slot. -/
theorem increment_indices (h : Fitted E n m s) (hw : Place E n m s.m_write_index) :
    Fitted E n m s.increment_indices := by
  refine ⟨h.toShape.increment_indices, (increment_indices_capacity s).trans h.slots,
    (increment_indices_storage s).symm ▸ h.fits, h.flags_le, fun hE => ?_⟩
  have hs := h.start_lt
  have hcap := h.slots
  have hflag := hw.2 hE
  have hwrapped := h.wrapped hE
  rw [increment_indices_write, increment_indices_start, h.write_next, h.internal_one]
  split <;> split <;> (try split) <;> omega

theorem increment_start (h : Fitted E n m s) : Fitted E n m s.increment_start := by
  refine ⟨h.toShape.increment_start, (increment_start_capacity s).trans h.slots,
    (increment_start_storage s).symm ▸ h.fits, h.flags_le, fun hE => ?_⟩
  have hwrapped := h.wrapped hE
  unfold RingBuffer.increment_start
  split
  · rename_i hne
    show s.m_write_index < s.get_adjusted_internal_index 1 → n ≤ m
    rw [h.internal_one]
    split <;> omega
  · exact hwrapped

theorem decrement_write (h : Fitted E n m s) (hpos : 0 < s.size) :
    Fitted E n m s.decrement_write := by
  refine ⟨h.toShape.decrement_write, (decrement_write_capacity s).trans h.slots,
    (decrement_write_storage s).symm ▸ h.fits, h.flags_le, fun hE => ?_⟩
  have hs := h.start_lt
  have hwrapped := h.wrapped hE
  rw [h.size_eq] at hpos
  rw [decrement_write_start, h.decrement_write_index]
  split at hpos <;> split <;> omega

theorem decrement_write_n (h : Fitted E n m s) {k : Nat} (hk : k ≤ s.size) :
    Fitted E n m (s.decrement_write_n k) := by
  refine ⟨h.toShape.decrement_write_n hk, (decrement_write_n_capacity s k).trans h.slots,
    (decrement_write_n_storage s k).symm ▸ h.fits, h.flags_le, fun hE => ?_⟩
  have hwrapped := h.wrapped hE
  have hindex := h.decrement_write_n_index hk
  rw [h.size_eq] at hk
  rw [decrement_write_n_start, hindex]
  split at hk <;> split <;> omega

theorem retract_write (h : Fitted E n m s) {k : Nat} (hk : k ≤ s.size) :
    Fitted E n m (s.retract_write k) := by
  refine ⟨h.toShape.retract_write hk, (retract_write_capacity s k).trans h.slots,
    (retract_write_storage s k).symm ▸ h.fits, h.flags_le, fun hE => ?_⟩
  rcases Nat.lt_trichotomy s.m_write_index s.m_start_index with hlt | heq | hgt
  · exact fun _ => h.wrapped hE hlt
  · rw [RingBuffer.retract_write, if_neg (by omega), if_neg (by omega)]
    exact h.wrapped hE
  · rw [RingBuffer.retract_write, if_pos hgt]
    exact (h.decrement_write_n hk).wrapped hE

/-! ### Accesses -/

/-- Naming a slot of the buffer reads it and changes nothing. -/
theorem slot_eq (h : Fitted E n m s) {i : Nat} (hi : i < n) :
    s.slot i = ((s.m_buffer.cell i).value, s) := by
  rw [RingBuffer.slot, h.fits.buffer.read hi, Arena.touch_of_lt (h.fits.buffer.slots ▸ hi)]

theorem slot (h : Fitted E n m s) {i : Nat} (hi : i < n) : Fitted E n m (s.slot i).2 := by
  rw [h.slot_eq hi]
  exact h

theorem begin'_eq (h : Fitted E n m s) : s.begin' = (⟨s.m_start_index, 0⟩, s) := by
  rw [RingBuffer.begin', h.slot_eq (h.slots ▸ h.start_lt)]

theorem end'_eq (h : Fitted E n m s) : s.end' = (⟨s.m_write_index, s.size⟩, s) := by
  rw [RingBuffer.end', h.slot_eq h.write_lt']

theorem subscript_eq (h : Fitted E n m s) (i : Nat) : (s.subscript i).2 = s := by
  rw [RingBuffer.subscript, h.slot_eq (h.position_lt i)]

theorem plus_eq (h : Fitted E n m s) (it : Iterator) (k : Nat) : (it.plus k s).2 = s := by
  unfold Iterator.plus
  simp only
  split
  · rw [h.end'_eq]
  · rw [h.subscript_eq]

/-- The next iterator points at a slot. -/
theorem increment_eq (h : Fitted E n m s) (it : Iterator) :
    (it.increment s).2 = s ∧ (it.increment s).1.m_ptr < n := by
  unfold Iterator.increment
  simp only
  split
  · rw [h.end'_eq]
    exact ⟨rfl, h.write_lt'⟩
  · exact ⟨h.subscript_eq _, h.position_lt _⟩

/-- Going over the buffer changes nothing. -/
theorem traverse_eq (last : Iterator) (h : Fitted E n m s) : ∀ (fuel : Nat) (it : Iterator),
    it.m_ptr < n → (RingBuffer.traverse last fuel it s).2 = s := by
  intro fuel
  induction fuel with
  | zero => intro it _; rfl
  | succ fuel ih =>
      intro it hit
      unfold RingBuffer.traverse
      by_cases hlast : it.m_current_index = last.m_current_index
      · rw [if_pos hlast]
      · obtain ⟨hnext, hptr⟩ := h.increment_eq it
        rw [if_neg hlast, h.slot_eq hit]
        simp only [hnext]
        exact ih _ hptr

theorem iterate_eq (h : Fitted E n m s) : s.iterate.2 = s := by
  unfold RingBuffer.iterate
  rw [h.begin'_eq]
  simp only [h.end'_eq]
  exact traverse_eq _ h _ _ (h.slots ▸ h.start_lt)

/-! ### At the ends -/

theorem construct_back (h : Fitted E n m s) (hw : Place E n m s.m_write_index)
    {args : Argument α} (hargs : ∀ k ∈ args.index, k < n) :
    (s.construct_back E args).Fits E n m := by
  unfold RingBuffer.construct_back
  simp only [h.fits.is_constructed_eq hw]
  split
  · exact (((h.fits.destroy hw.1).use hargs).construct hw.1 _).set_constructed hw _
  · exact ((h.fits.use hargs).construct hw.1 _).set_constructed hw _

theorem push_back (h : Fitted E n m s) (hw : Place E n m s.m_write_index)
    {args : Argument α} (hargs : ∀ k ∈ args.index, k < n) :
    Fitted E n m (s.push_back E args) :=
  (h.with_storage (h.construct_back hw hargs)).increment_indices hw

theorem emplace_back (h : Fitted E n m s) (hw : Place E n m s.m_write_index)
    {args : Argument α} (hargs : ∀ k ∈ args.index, k < n) :
    Fitted E n m (s.emplace_back E args).2 := (h.push_back hw hargs).slot hw.1

theorem pop_back (h : Fitted E n m s) : Fitted E n m (s.pop_back E).2 := by
  rcases Nat.eq_zero_or_pos s.size with hnil | hpos
  · rw [pop_back_empty E hnil]
    exact h
  · have hsub : usize.sub s.size 1 = s.size - 1 := h.sub_eq (Nat.le_of_lt h.size_lt) hpos
    have hplace := h.place (Nat.sub_lt hpos Nat.one_pos)
    have hdec := (h.with_storage (h.fits.move hplace.1)).decrement_write hpos
    obtain ⟨hwrite, -⟩ := (h.with_storage (h.fits.move hplace.1)).decrement_write_nonempty hpos
    rw [RingBuffer.pop_back, if_pos hpos, hsub]
    refine hdec.with_storage (hdec.fits.destroy_if_needed ?_)
    rw [hwrite]
    exact hplace

theorem pop_front (h : Fitted E n m s) : Fitted E n m (s.pop_front E).2 := by
  rcases Nat.eq_zero_or_pos s.size with hnil | hpos
  · rw [pop_front_empty E hnil]
    exact h
  · have hplace : Place E n m s.m_start_index := h.internal_zero ▸ h.place hpos
    rw [RingBuffer.pop_front, if_pos hpos]
    exact (h.with_storage
      ((h.fits.move hplace.1).destroy_if_needed hplace)).increment_start

theorem clear (h : Fitted E n m s) : Fitted E n m (s.clear E) := by
  have hsize := h.size_lt
  have hcap := h.slots
  refine ⟨⟨h.cap_le, h.cap_pos, h.cap_pos⟩, h.slots, ?_, h.flags_le,
    fun _ hlt => absurd hlt (Nat.lt_irrefl 0)⟩
  unfold RingBuffer.clear
  simp only
  split
  · exact h.fits
  · refine loop_keeps (Storage.Fits E n m) h.fits fun i st hi hst => ?_
    refine (hst.destroy (h.position_lt i)).set_constructed ⟨by omega, fun hE => ?_⟩ false
    have hflags := h.flags_le hE
    omega

/-! ### Inside -/

theorem emplace (h : Fitted E n m s) {p : Nat}
    (hp : Place E n m (s.get_adjusted_internal_index p)) (v : α) :
    Fitted E n m (s.emplace E p v).2 := by
  have hst : ((if (s.is_constructed E (s.get_adjusted_internal_index p)).1
      then s.destroy s.m_write_index else s.toStorage).construct
        (s.get_adjusted_internal_index p) (some v)).Fits E n m := by
    split
    · exact (h.fits.destroy h.write_lt').construct hp.1 _
    · exact h.fits.construct hp.1 _
  unfold RingBuffer.emplace
  simp only [h.fits.is_constructed_eq hp]
  exact (h.with_storage (hst.set_constructed hp true)).slot hp.1

theorem open_gap (h : Fitted E n m s) (hw : Place E n m s.m_write_index) {p : Nat}
    (hp : p < s.size) : (s.open_gap E p).2.Fits E n m := by
  have hsize := h.size_lt
  have hcap := h.sub_eq (Nat.le_refl _) h.one_le_cap
  have hmove : usize.sub s.size p = s.size - p := h.sub_eq (by omega) (by omega)
  have hless : usize.sub (s.size - p) 1 = s.size - p - 1 := h.sub_eq (by omega) (by omega)
  unfold RingBuffer.open_gap
  simp only [hcap, hmove, hless]
  refine loop_keeps (Storage.Fits E n m) h.fits fun i st hi hst => ?_
  have hrounds : i < s.size - p := by
    split at hi <;> omega
  refine hst.shift_slot (h.place_le hw ?_) (h.place_le hw ?_)
  · rw [h.sub_eq (by omega) (by omega)]
    omega
  · split at hi
    · rw [if_pos ‹_›, h.sub_eq (a := s.size - p - 1) (by omega) (by omega),
        h.sub_eq (by omega) (by omega), h.add_eq (by omega) (by omega)]
      omega
    · rw [if_neg ‹_›, h.sub_eq (by omega) (by omega), h.add_eq (by omega) (by omega)]
      omega

/-- The gap is a slot unless it is asked for behind the last slot of a full buffer. -/
theorem open_gap_place (h : Fitted E n m s) (hw : Place E n m s.m_write_index) {p : Nat}
    (hp : p < s.size)
    (hgap : ¬(s.size + 1 = s.m_capacity ∧ s.get_adjusted_internal_index p + 1 = s.m_capacity)) :
    Place E n m (s.open_gap E p).1 := by
  have hcap := h.sub_eq (Nat.le_refl _) h.one_le_cap
  have hsize := h.size_lt
  have hplace := h.place_le hw (Nat.succ_le_of_lt hp)
  rw [h.internal_next (by omega)] at hplace
  unfold RingBuffer.open_gap
  simp only [hcap]
  split
  · rw [h.add_eq (Nat.le_of_lt (h.internal_lt p)) (by omega)]
    rwa [if_neg (by omega)] at hplace
  · exact h.place hp

/-- An argument that leads to an element leads to a slot. -/
theorem reference_lt (h : Fitted E n m s) (x : Argument α) :
    ∀ k ∈ (s.reference x).index, k < n :=
  Argument.index_map_index.mpr fun j _ => h.position_lt j

theorem insert_internal (h : Fitted E n m s) (hw : Place E n m s.m_write_index) {p : Nat}
    (hp : p ≤ s.size) {elem : Argument α} (helem : ∀ k ∈ elem.index, k < n)
    (hgap : p < s.size →
      ¬(s.size + 1 = s.m_capacity ∧ s.get_adjusted_internal_index p + 1 = s.m_capacity)) :
    Fitted E n m (s.insert_internal E p elem) := by
  unfold RingBuffer.insert_internal
  split
  · exact h.emplace_back hw (elem.index_lvalue ▸ helem)
  · rename_i hne
    have hlt : p < s.size :=
      Nat.lt_of_le_of_ne hp fun heq => hne ((h.internal_eq_write_iff hp).mpr heq)
    exact (h.with_storage ((h.open_gap hw hlt).fill_gap
      (h.open_gap_place hw hlt (hgap hlt)) helem)).increment_indices hw

theorem insert_emplace_internal (h : Fitted E n m s) (hw : Place E n m s.m_write_index) {p : Nat}
    (hp : p ≤ s.size) {args : Argument α} (hargs : ∀ k ∈ args.index, k < n)
    (hgap : p < s.size →
      ¬(s.size + 1 = s.m_capacity ∧ s.get_adjusted_internal_index p + 1 = s.m_capacity)) :
    Fitted E n m (s.insert_emplace_internal E p args).2 := by
  unfold RingBuffer.insert_emplace_internal
  split
  · exact h.emplace_back hw hargs
  · rename_i hne
    have hlt : p < s.size :=
      Nat.lt_of_le_of_ne hp fun heq => hne ((h.internal_eq_write_iff hp).mpr heq)
    have hplace := h.open_gap_place hw hlt (hgap hlt)
    have hnew :=
      (h.with_storage ((h.open_gap hw hlt).emplace_gap hplace hargs)).increment_indices hw
    exact hnew.slot hplace.1

theorem close_gap (h : Fitted E n m s) {k p q : Nat} (hpq : p ≤ q) (hk : q + k ≤ s.size) :
    (s.close_gap E k p q).Fits E n m := by
  have hsize := h.size_lt
  unfold RingBuffer.close_gap
  refine loop_keeps (Storage.Fits E n m) h.fits fun i st hi hst => ?_
  rw [h.add_eq (a := p) (by omega) (by omega), h.add_eq (a := q) (by omega) (by omega)]
  exact hst.shift_slot (h.place (by omega)) (h.place (by omega))

theorem erase_internal (h : Fitted E n m s) {p : Nat} (hp : p ≤ s.size) :
    Fitted E n m (s.erase_internal E p).2 := by
  have hsize := h.size_lt
  unfold RingBuffer.erase_internal
  split
  · rw [h.end'_eq]
    exact h
  · rename_i hne
    have hlt : p < s.size :=
      Nat.lt_of_le_of_ne hp fun heq => hne ((h.internal_eq_write_iff hp).mpr heq)
    have hless : usize.sub s.size 1 = s.size - 1 := h.sub_eq (by omega) (by omega)
    have hmove : usize.sub (s.size - 1) p = s.size - 1 - p := h.sub_eq (by omega) (by omega)
    have hnext : usize.add p 1 = p + 1 := h.add_eq (by omega) (by omega)
    simp only [hless, hmove, hnext]
    have hnew := (h.with_storage (h.close_gap (k := s.size - 1 - p) (Nat.le_succ p)
      (by omega))).decrement_write (show 0 < s.size by omega)
    rw [hnew.begin'_eq, hnew.plus_eq]
    exact hnew

theorem erase_range (h : Fitted E n m s) {f l : Nat} (hl : l ≤ s.size) :
    Fitted E n m (s.erase_range E (s.iterator f) (s.iterator l)).2 := by
  have hsize := h.size_lt
  unfold RingBuffer.erase_range iterator
  simp only
  split
  · exact h
  · rename_i hlt
    have hsub : usize.sub l f = l - f := h.sub_eq (by omega) (by omega)
    have hmove : usize.sub s.size l = s.size - l := h.sub_eq (by omega) hl
    unfold RingBuffer.erase_internal_range
    simp only [hsub, hmove]
    split
    · have hnew := h.retract_write (show l - f ≤ s.size by omega)
      rw [hnew.end'_eq]
      exact hnew
    · have hst := h.with_storage (h.close_gap (k := s.size - l) (p := f) (q := l) (by omega)
        (by omega))
      have hnew := hst.decrement_write_n (show l - f ≤ s.size by omega)
      rw [hnew.begin'_eq, hnew.plus_eq]
      exact hnew

end Fitted

/-! ### Growing -/

/-- The flags of a new buffer. -/
theorem checker_size {A : Allocator} {n : Nat} {c : ConstructedChecker}
    (h : ConstructedChecker.new A E n = some c) :
    E.trivially_destructible = false → c.size = n := by
  intro hE
  simp only [ConstructedChecker.new, hE, Bool.false_eq_true, if_false] at h
  split at h
  · simp only [Option.some.injEq] at h
    rw [← h]
  · simp at h

/-- The elements in the new allocation, of which the old one was given back. -/
def grown (E : ElementType α) (s : RingBuffer α) (slots : Nat) : Storage α :=
  let buffers := loop (s.reserve_move E) s.size (s.m_buffer, s.m_buffer.beside slots)
  { m_buffer := buffers.2.retire buffers.1, m_constructed := s.m_constructed }

/-- What `reserve` returns where it grows the buffer. -/
theorem reserve_some {A : Allocator} {k : Nat} {s' : RingBuffer α} (hk : s.m_capacity < k)
    (hres : s.reserve A E k = some s') :
    usize.add k 1 ≤ A.max_size ∧ s.size ≤ usize.add k 1 ∧ s'.m_start_index = 0 ∧
    s'.m_write_index = usize.sub s.m_capacity 1 ∧ s'.m_capacity = usize.add k 1 ∧
    (E.trivially_destructible = true → s'.toStorage = s.grown E (usize.add k 1)) ∧
    (E.trivially_destructible = false → ∃ checker, ConstructedChecker.new A E k = some checker ∧
      s'.toStorage = { (loop (s.reserve_flag E) s.size
          (s.grown E (usize.add k 1), checker)).1 with
        m_constructed := (loop (s.reserve_flag E) s.size
          (s.grown E (usize.add k 1), checker)).2 }) := by
  unfold RingBuffer.reserve at hres
  rw [if_pos hk] at hres
  by_cases hfail : usize.add k 1 > A.max_size ∨ s.size > usize.add k 1
  · simp only [if_pos hfail, Option.bind_eq_bind, Option.bind_none, reduceCtorEq] at hres
  · have hfit : usize.add k 1 ≤ A.max_size ∧ s.size ≤ usize.add k 1 := by omega
    cases hE : E.trivially_destructible with
    | true =>
        simp only [hfail, hE, if_false, if_true, Option.bind_eq_bind, Option.bind_some,
          Option.some.injEq] at hres
        subst hres
        exact ⟨hfit.1, hfit.2, rfl, rfl, rfl, fun _ => rfl, fun h => by cases h⟩
    | false =>
        simp only [hfail, hE, if_false, Bool.false_eq_true, Option.bind_eq_bind,
          Option.bind_some, Option.bind_eq_some_iff, Option.some.injEq] at hres
        obtain ⟨checker, hchecker, rfl⟩ := hres
        exact ⟨hfit.1, hfit.2, rfl, rfl, rfl, (fun h => by cases h),
          fun _ => ⟨checker, hchecker, rfl⟩⟩

/-- The first `i` elements are in the new allocation, the others still in the old one. -/
structure MovedOver (s : RingBuffer α) (slots i : Nat) (buffers : Arena α × Arena α) : Prop where
  old : buffers.1.InBounds s.m_capacity
  new : buffers.2.InBounds slots
  rest : ∀ j, i ≤ j → j < s.size → buffers.1.cell (s.get_adjusted_internal_index j)
    = s.m_buffer.cell (s.get_adjusted_internal_index j)
  moved : ∀ j, j < i → ∃ id, buffers.2.cell j
    = ⟨(s.m_buffer.cell (s.get_adjusted_internal_index j)).value, some id⟩

namespace Fitted

/-- One round of the loop that moves the elements over. -/
theorem reserve_move (h : Fitted E n m s) {slots i : Nat} {buffers : Arena α × Arena α}
    (hi : i < s.size) (hslots : s.size ≤ slots) (hb : s.MovedOver slots i buffers) :
    s.MovedOver slots (i + 1) (s.reserve_move E i buffers) := by
  have hsize := h.size_lt
  have hread : buffers.1.read (s.get_adjusted_internal_index i)
      = (s.m_buffer.cell (s.get_adjusted_internal_index i)).value := by
    rw [hb.old.read (h.internal_lt i), hb.rest i (Nat.le_refl i) hi]
  refine ⟨hb.old.moveFrom (h.internal_lt i) _, hb.new.construct (by omega) _, ?_, ?_⟩
  · intro j hij hj
    show (buffers.1.moveFrom E.moved (s.get_adjusted_internal_index i)).cell _ = _
    rw [Arena.moveFrom_cell,
      Function.update_of_ne (h.internal_ne (by omega) (by omega) (by omega))]
    exact hb.rest j (by omega) hj
  · intro j hj
    obtain ⟨id, hcell⟩ := buffers.2.construct_cell i
      (buffers.1.read (s.get_adjusted_internal_index i))
    show ∃ id, (buffers.2.construct i _).cell j = _
    rw [hcell, hread]
    by_cases hji : j = i
    · exact ⟨id, by rw [hji, Function.update_self]⟩
    · rw [Function.update_of_ne hji]
      exact hb.moved j (by omega)

/-- The new allocation has the elements in the slots from 0 on. -/
theorem grown_cells (h : Fitted E n m s) {slots : Nat} (hslots : s.size ≤ slots) :
    (s.grown E slots).m_buffer.InBounds slots ∧
    ∀ j, j < s.size → ∃ id, (s.grown E slots).m_buffer.cell j
      = ⟨(s.m_buffer.cell (s.get_adjusted_internal_index j)).value, some id⟩ := by
  have hinit : s.MovedOver slots 0 (s.m_buffer, s.m_buffer.beside slots) :=
    ⟨h.slots.symm ▸ h.fits.buffer, Arena.InBounds.beside _ _, fun _ _ _ => rfl,
      fun j hj => absurd hj (Nat.not_lt_zero j)⟩
  have hdone := loop_induction (s.MovedOver slots) hinit
    fun i buffers hi hb => h.reserve_move (E := E) hi hslots hb
  exact ⟨hdone.new.retire hdone.old, hdone.moved⟩

/-- The loop that copies the flags over reads flags that are there, and touches no slot. -/
theorem reserve_flag (h : Fitted E n m s) (hE : E.trivially_destructible = false)
    (slots : Nat) {k : Nat} (hk : s.size ≤ k) {checker : ConstructedChecker}
    (hchecker : checker.size = k) :
    (loop (s.reserve_flag E) s.size (s.grown E slots, checker)).1 = s.grown E slots ∧
    (loop (s.reserve_flag E) s.size (s.grown E slots, checker)).2.size = k := by
  refine loop_keeps (fun st : Storage α × ConstructedChecker =>
    st.1 = s.grown E slots ∧ st.2.size = k) ⟨rfl, hchecker⟩ ?_
  rintro i ⟨st, flags⟩ hi ⟨hst, hflags⟩
  replace hst : st = s.grown E slots := hst
  replace hflags : flags.size = k := hflags
  have hread : st.is_constructed E (s.get_adjusted_internal_index i)
      = (st.m_constructed.m_flags (s.get_adjusted_internal_index i), st) := by
    have hlt : s.get_adjusted_internal_index i < st.m_constructed.size := by
      rw [hst]
      exact h.fits.flags hE ▸ (h.place hi).2 hE
    rw [Storage.is_constructed, hE, if_neg Bool.false_ne_true, Arena.touch_of_lt hlt]
  have hindex : i < flags.size := by omega
  unfold RingBuffer.reserve_flag
  simp only [hread, Arena.touch_of_lt hindex]
  exact ⟨hst, hflags⟩

/--
**Where the buffer grows, its elements are in the slots from 0 on**, the write index is
where that of the full buffer would be, and one flag is missing.
-/
theorem reserve (h : Fitted E n m s) {A : Allocator} {k : Nat} {s' : RingBuffer α}
    (hk : s.m_capacity < k) (hfit : k + 1 < 2 ^ 64) (hres : s.reserve A E k = some s') :
    Fitted E (k + 1) k s' ∧ s'.m_start_index = 0 ∧ s'.m_write_index = s.m_capacity - 1 ∧
    ∀ j, j < s.size → ∃ id, s'.m_buffer.cell j
      = ⟨(s.m_buffer.cell (s.get_adjusted_internal_index j)).value, some id⟩ := by
  have hsize := h.size_lt
  have hmax := A.max_size_lt
  have hadd : usize.add k 1 = k + 1 := usize.add_eq hfit
  obtain ⟨hroom, hslots, hstart, hwrite, hcap, htrivial, hflags⟩ := reserve_some hk hres
  rw [hadd] at hroom hslots hcap htrivial hflags
  rw [h.sub_eq (Nat.le_refl _) h.one_le_cap] at hwrite
  obtain ⟨hin, hcells⟩ := h.grown_cells hslots
  have hstorage : s'.m_buffer = (s.grown E (k + 1)).m_buffer ∧
      (E.trivially_destructible = false → s'.m_constructed.size = k) := by
    cases hE : E.trivially_destructible with
    | true => exact ⟨congrArg Storage.m_buffer (htrivial hE), fun hfalse => by cases hfalse⟩
    | false =>
        obtain ⟨checker, hchecker, hst⟩ := hflags hE
        obtain ⟨hsame, hnew⟩ := h.reserve_flag hE (k + 1) (show s.size ≤ k by omega)
          (checker_size hchecker hE)
        refine ⟨?_, fun _ => ?_⟩
        · rw [congrArg Storage.m_buffer hst, hsame]
        · rw [congrArg Storage.m_constructed hst]
          exact hnew
  refine ⟨⟨⟨by omega, by omega, by omega⟩, hcap, ⟨hstorage.1 ▸ hin, hstorage.2⟩,
    fun _ => Nat.le_refl _, fun _ hlt => ?_⟩, hstart, hwrite, fun j hj => ?_⟩
  · rw [hstart] at hlt
    exact absurd hlt (Nat.not_lt_zero _)
  · rw [hstorage.1]
    exact hcells j hj

end Fitted

/-! ### Steps -/

/-- There is a flag for the slot, or the type needs none. -/
def Flagged (E : ElementType α) (s : RingBuffer α) (i : Nat) : Prop :=
  E.trivially_destructible = false → i < s.m_constructed.size

instance (s : RingBuffer α) (i : Nat) : Decidable (s.Flagged E i) :=
  inferInstanceAs (Decidable (_ → _))

/-- The step writes to no slot that is not there or lacks a flag, and asks for no slots past
the machine word. -/
def WithinArrays (E : ElementType α) (s : RingBuffer α) : Op α → Prop
  | .push_back _ | .emplace_back _ => s.Flagged E s.m_write_index
  | .emplace p _ => s.Flagged E (s.get_adjusted_internal_index p)
  | .insert p _ | .insert_emplace p _ => s.Flagged E s.m_write_index ∧
      ¬(s.full ∧ p < s.size ∧ s.get_adjusted_internal_index p + 1 = s.m_capacity)
  | .reserve k => k ≤ s.m_capacity ∨ k + 1 < 2 ^ 64
  | _ => True

instance (s : RingBuffer α) : (op : Op α) → Decidable (s.WithinArrays E op)
  | .push_back _ | .emplace_back _ | .emplace _ _ => inferInstanceAs (Decidable (s.Flagged E _))
  | .insert _ _ | .insert_emplace _ _ => inferInstanceAs (Decidable (_ ∧ _))
  | .reserve _ => inferInstanceAs (Decidable (_ ∨ _))
  | .pop_front | .pop_back | .clear | .erase _ | .erase_range _ _ | .at' _ | .subscript _
  | .front | .back | .iterate => isTrue trivial

namespace Fitted

theorem place_iff (h : Fitted E n m s) {i : Nat} (hi : i < s.m_capacity) :
    Place E n m i ↔ s.Flagged E i := by
  refine ⟨fun hplace hE => ?_, fun hflag => ⟨h.slots ▸ hi, fun hE => ?_⟩⟩
  · rw [h.fits.flags hE]
    exact hplace.2 hE
  · rw [← h.fits.flags hE]
    exact hflag hE

/-- **One step.**  Only `reserve` changes how many slots and flags there are. -/
theorem step (h : Fitted E n m s) {A : Allocator} {s' : RingBuffer α} {op : Op α} {o : Output α}
    (hrange : s.InRange op) (hin : s.WithinArrays E op)
    (hstep : s.step A E op = some (o, s')) :
    Fitted E n m s' ∨ ∃ k, op = .reserve k ∧ s.m_capacity < k ∧ Fitted E (k + 1) k s' := by
  have hplace := h.place_iff h.write_lt
  cases op with
  | push_back v =>
      cases hstep
      exact .inl (h.push_back (hplace.mpr hin) (Argument.index_value v))
  | emplace_back v =>
      cases hstep
      exact .inl (h.emplace_back (hplace.mpr hin) (Argument.index_value v))
  | pop_front => cases hstep; exact .inl h.pop_front
  | pop_back => cases hstep; exact .inl h.pop_back
  | clear => cases hstep; exact .inl h.clear
  | emplace p v =>
      cases hstep
      exact .inl (h.emplace ((h.place_iff (h.internal_lt p)).mpr hin) v)
  | insert p x =>
      cases hstep
      exact .inl (h.insert_internal (hplace.mpr hin.1) hrange.1 (h.reference_lt x)
        fun hlt hgap => hin.2 ⟨h.full_iff.mpr hgap.1, hlt, hgap.2⟩)
  | insert_emplace p x =>
      cases hstep
      exact .inl (h.insert_emplace_internal (hplace.mpr hin.1) hrange.1 (h.reference_lt x)
        fun hlt hgap => hin.2 ⟨h.full_iff.mpr hgap.1, hlt, hgap.2⟩)
  | erase p => cases hstep; exact .inl (h.erase_internal hrange)
  | erase_range f l => cases hstep; exact .inl (h.erase_range hrange.2)
  | reserve k =>
      obtain ⟨t, ht, hpair⟩ := Option.map_eq_some_iff.mp hstep
      cases hpair
      by_cases hgrow : s.m_capacity < k
      · obtain ⟨hnew, -⟩ := h.reserve hgrow (hin.resolve_left (Nat.not_le.mpr hgrow)) ht
        exact .inr ⟨k, rfl, hgrow, hnew⟩
      · rw [RingBuffer.reserve, if_neg hgrow, Option.some.injEq] at ht
        exact .inl (ht ▸ h)
  | at' i | subscript i => cases hstep; exact .inl (h.slot (h.position_lt i))
  | front => cases hstep; exact .inl (h.slot (h.slots ▸ h.start_lt))
  | back => cases hstep; exact .inl (h.slot (h.position_lt _))
  | iterate => cases hstep; exact .inl (h.iterate_eq.symm ▸ h)

end Fitted

end RingBuffer

end Hyperion
