/-
Which results do not depend on the element type.

For a trivially destructible element type the bookkeeping is a stub: it answers that
no slot is constructed, so the loops of `insert` and `erase` never move an element
and only the indices change.  Two buffers of different element types therefore stay
alike, which means the same indices and the same values at every position, exactly as
long as no loop has anything to move and no erasure steps the write index forward
over places that hold no element.  What is inserted may be a reference to an element, but
not one the caller moves: what is left of it would be the element type's own.
-/
import Hyperion.RingBuffer.Edits
import Hyperion.RingBuffer.Ends

namespace Hyperion.RingBuffer

variable {α : Type} {E E' : ElementType α}

/-- Two buffers with the same indices and the same values at every position. -/
structure Alike (E E' : ElementType α) (s t : RingBuffer α) : Prop where
  left : Sound E s
  right : Sound E' t
  write : t.m_write_index = s.m_write_index
  start : t.m_start_index = s.m_start_index
  capacity : t.m_capacity = s.m_capacity
  values : ∀ j, j < s.size → (t.m_buffer.cell (s.get_adjusted_internal_index j)).value
    = (s.m_buffer.cell (s.get_adjusted_internal_index j)).value

/--
Erasing from `f` to `l` moves no element, and the write index only steps back: the
range is empty, or ends at the end, or ends behind the spacer's slot.  In the last two
cases a step over the wrap can be off, so that the index lands among the free places
between the spacer and the start, and the buffer grows.
-/
def OnlyBack (s : RingBuffer α) (f l : Nat) : Prop :=
  l ≤ f ∨
  (l = s.size ∧ (0 < f ∨ l ≤ s.m_write_index ∨ s.full)) ∨
  (s.m_write_index < s.get_adjusted_internal_index l ∧
    ¬(l - f < s.m_write_index ∧ 2 * s.m_write_index < s.m_capacity + (l - f) ∧
      s.m_capacity + (l - f) < s.m_start_index + s.m_write_index))

/-! ### The values an operation leaves -/

theorem construct_back_value (E : ElementType α) (s : RingBuffer α) {args : Argument α}
    (hargs : args.Copies) (i : Nat) : ((s.construct_back E args).m_buffer.cell i).value
      = if i = s.m_write_index then args.read s.m_buffer.read
        else (s.m_buffer.cell i).value := by
  unfold construct_back
  simp only
  split
  · obtain ⟨id, hid⟩ := Storage.construct_cell
      (args.use E ((s.is_constructed E s.m_write_index).2.destroy s.m_write_index))
      s.m_write_index
      (args.read ((s.is_constructed E s.m_write_index).2.destroy s.m_write_index).m_buffer.read)
    rw [Storage.set_constructed_cell, hid, hargs.use_cell, Storage.destroy_cell,
      Function.update_idem, Function.update_apply, Storage.is_constructed_cell,
      Storage.destroy_read, Storage.is_constructed_read]
    split <;> rfl
  · obtain ⟨id, hid⟩ := Storage.construct_cell
      (args.use E (s.is_constructed E s.m_write_index).2) s.m_write_index
      (args.read (s.is_constructed E s.m_write_index).2.m_buffer.read)
    rw [Storage.set_constructed_cell, hid, hargs.use_cell, Function.update_apply,
      Storage.is_constructed_cell, Storage.is_constructed_read]
    split <;> rfl

theorem fill_gap_value (E : ElementType α) (g : Nat) {elem : Argument α} (helem : elem.Copies)
    (st : Storage α) (i : Nat) : ((fill_gap E g elem st).m_buffer.cell i).value
      = if i = g then elem.read st.m_buffer.read else (st.m_buffer.cell i).value := by
  unfold fill_gap
  simp only
  split
  · rw [helem.use_cell, Storage.assign, Arena.assign_cell, Function.update_apply,
      Storage.is_constructed_cell, Storage.is_constructed_read]
    split <;> rfl
  · obtain ⟨id, hid⟩ := Storage.construct_cell (elem.use E (st.is_constructed E g).2) g
      (elem.read (st.is_constructed E g).2.m_buffer.read)
    rw [Storage.set_constructed_cell, hid, helem.use_cell, Function.update_apply,
      Storage.is_constructed_cell, Storage.is_constructed_read]
    split <;> rfl

theorem emplace_gap_value (E : ElementType α) (g : Nat) {args : Argument α}
    (hargs : args.Copies) (st : Storage α) (i : Nat) :
    ((emplace_gap E g args st).m_buffer.cell i).value
      = if i = g then args.read st.m_buffer.read else (st.m_buffer.cell i).value := by
  unfold emplace_gap
  simp only
  split
  · obtain ⟨id, hid⟩ := Storage.construct_cell
      (args.use E ((st.is_constructed E g).2.destroy g)) g
      (args.read ((st.is_constructed E g).2.destroy g).m_buffer.read)
    rw [hid, hargs.use_cell, Storage.destroy_cell, Function.update_idem, Function.update_apply,
      Storage.is_constructed_cell, Storage.destroy_read, Storage.is_constructed_read]
    split <;> rfl
  · obtain ⟨id, hid⟩ := Storage.construct_cell
      (args.use E ((st.is_constructed E g).2.set_constructed E g true)) g
      (args.read ((st.is_constructed E g).2.set_constructed E g true).m_buffer.read)
    rw [hid, hargs.use_cell, Storage.set_constructed_cell, Function.update_apply,
      Storage.is_constructed_cell, Storage.set_constructed_read, Storage.is_constructed_read]
    split <;> rfl

namespace Alike

variable {s t : RingBuffer α}

theorem size_eq (h : Alike E E' s t) : t.size = s.size := by
  rw [size, size, h.write, h.start, h.capacity]

theorem internal_eq (h : Alike E E' s t) (i : Nat) :
    t.get_adjusted_internal_index i = s.get_adjusted_internal_index i :=
  internal_congr h.start h.capacity i

/-- What is read at a position is the same. -/
theorem read (h : Alike E E' s t) {j : Nat} (hj : j < s.size) :
    t.m_buffer.read (t.get_adjusted_internal_index j)
      = s.m_buffer.read (s.get_adjusted_internal_index j) := by
  rw [h.right.inside.buffer.read (h.right.internal_lt j),
    h.left.inside.buffer.read (h.left.internal_lt j), h.internal_eq]
  exact h.values j hj

/-- Buffers that start where two alike ones do are alike when their values are. -/
theorem same_start (h : Alike E E' s t) {s' t' : RingBuffer α} (hs : Sound E s')
    (ht : Sound E' t') (hwrite : t'.m_write_index = s'.m_write_index)
    (hstart : s'.m_start_index = s.m_start_index) (hstart' : t'.m_start_index = t.m_start_index)
    (hcap : s'.m_capacity = s.m_capacity) (hcap' : t'.m_capacity = t.m_capacity)
    (hvalues : ∀ j, j < s'.size → (t'.m_buffer.cell (s.get_adjusted_internal_index j)).value
      = (s'.m_buffer.cell (s.get_adjusted_internal_index j)).value) : Alike E E' s' t' := by
  refine ⟨hs, ht, hwrite, ?_, ?_, ?_⟩
  · rw [hstart, hstart', h.start]
  · rw [hcap, hcap', h.capacity]
  · intro j hj
    rw [internal_congr hstart hcap]
    exact hvalues j hj

/-- Going on by one place, with the same value in the slot that was the spacer. -/
theorem advance (h : Alike E E' s t) {st st' : Storage α} (hst : st.Inside E s.m_capacity)
    (hst' : st'.Inside E' t.m_capacity)
    (hvalues : ∀ j, j ≤ s.size → (st'.m_buffer.cell (s.get_adjusted_internal_index j)).value
      = (st.m_buffer.cell (s.get_adjusted_internal_index j)).value) :
    Alike E E' (increment_indices { s with toStorage := st })
      (increment_indices { t with toStorage := st' }) := by
  have hs := h.left.with_storage hst
  have ht := h.right.with_storage hst'
  have hsize := h.left.size_lt
  refine ⟨hs.increment_indices, ht.increment_indices, ?_, ?_, ?_, ?_⟩
  · rw [increment_indices_write, increment_indices_write]
    show usize.add t.m_write_index 1 % t.m_capacity = usize.add s.m_write_index 1 % s.m_capacity
    rw [h.write, h.capacity]
  · rw [increment_indices_start, increment_indices_start]
    show (if usize.add t.m_write_index 1 % t.m_capacity = t.m_start_index
        then t.get_adjusted_internal_index 1 else t.m_start_index)
      = if usize.add s.m_write_index 1 % s.m_capacity = s.m_start_index
        then s.get_adjusted_internal_index 1 else s.m_start_index
    rw [h.write, h.capacity, h.start, h.internal_eq]
  · rw [increment_indices_capacity, increment_indices_capacity]
    exact h.capacity
  · intro j hj
    rw [increment_indices_storage, increment_indices_storage]
    by_cases hfull : s.size + 1 = s.m_capacity
    · obtain ⟨hstart, hsize'⟩ := hs.toShape.increment_full hfull
      have hj' : j < s.size := hsize' ▸ hj
      rw [h.left.internal_succ hs.toShape.increment_indices hstart
        (increment_indices_capacity _) (by omega)]
      exact hvalues (j + 1) hj'
    · obtain ⟨hstart, hsize'⟩ := hs.toShape.increment_room hfull
      have hj' : j < s.size + 1 := hsize' ▸ hj
      rw [internal_congr (s := s) hstart (increment_indices_capacity _)]
      exact hvalues j (Nat.le_of_lt_succ hj')

/-- What is made from an argument is the same. -/
theorem read_argument (h : Alike E E' s t) {x : Argument α} (hx : ∀ j ∈ x.index, j < s.size) :
    (t.reference x).read t.m_buffer.read = (s.reference x).read s.m_buffer.read := by
  rw [reference, reference, Argument.read_map_index, Argument.read_map_index]
  exact Argument.read_congr fun j hj => h.read (hx j hj)

/-- Writing the same value to the spacer. -/
theorem values_at_spacer (h : Alike E E' s t) (v : Option α) {j : Nat} (hj : j ≤ s.size) :
    (if s.get_adjusted_internal_index j = s.m_write_index then v
      else (t.m_buffer.cell (s.get_adjusted_internal_index j)).value)
    = if s.get_adjusted_internal_index j = s.m_write_index then v
      else (s.m_buffer.cell (s.get_adjusted_internal_index j)).value := by
  by_cases hlast : s.get_adjusted_internal_index j = s.m_write_index
  · rw [if_pos hlast, if_pos hlast]
  · have hne : j ≠ s.size := fun hc => hlast ((h.left.internal_eq_write_iff hj).mpr hc)
    rw [if_neg hlast, if_neg hlast]
    exact h.values j (by omega)

/-! ### At the ends -/

theorem push_back_of (h : Alike E E' s t) {x : Argument α} (hcopies : x.Copies)
    (hx : ∀ j ∈ x.index, j < s.size) :
    Alike E E' (s.push_back E (s.reference x)) (t.push_back E' (t.reference x)) := by
  have hs : (s.reference x).Copies := Argument.copies_map_index.mpr hcopies
  have ht : (t.reference x).Copies := Argument.copies_map_index.mpr hcopies
  refine h.advance (h.left.construct_back (h.left.reference_lt x))
    (h.right.construct_back (h.right.reference_lt x)) fun j hj => ?_
  rw [construct_back_value E s hs, construct_back_value E' t ht, h.write, h.read_argument hx]
  exact h.values_at_spacer _ hj

theorem push_back (h : Alike E E' s t) (v : α) :
    Alike E E' (s.push_back E v) (t.push_back E' v) :=
  h.push_back_of (x := .value v) trivial (Argument.index_value v)

theorem emplace_back_of (h : Alike E E' s t) {x : Argument α} (hcopies : x.Copies)
    (hx : ∀ j ∈ x.index, j < s.size) :
    (s.emplace_back E (s.reference x)).1 = (t.emplace_back E' (t.reference x)).1 ∧
    Alike E E' (s.emplace_back E (s.reference x)).2 (t.emplace_back E' (t.reference x)).2 := by
  have hs : (s.reference x).Copies := Argument.copies_map_index.mpr hcopies
  have ht : (t.reference x).Copies := Argument.copies_map_index.mpr hcopies
  have hpush := h.push_back_of hcopies hx
  obtain ⟨hstorage, hcap, -⟩ := h.left.toShape.push_back E (s.reference x)
  obtain ⟨hstorage', hcap', -⟩ := h.right.toShape.push_back E' (t.reference x)
  rw [emplace_back_eq, emplace_back_eq, hpush.left.slot_eq (hcap ▸ h.left.write_lt),
    hpush.right.slot_eq (hcap' ▸ h.right.write_lt)]
  refine ⟨?_, hpush⟩
  show ((s.push_back E (s.reference x)).m_buffer.cell _).value
    = ((t.push_back E' (t.reference x)).m_buffer.cell _).value
  rw [hstorage, hstorage', construct_back_value E s hs, construct_back_value E' t ht, if_pos rfl,
    if_pos rfl, h.read_argument hx]

theorem emplace_back (h : Alike E E' s t) (v : α) :
    (s.emplace_back E v).1 = (t.emplace_back E' v).1 ∧
    Alike E E' (s.emplace_back E v).2 (t.emplace_back E' v).2 :=
  h.emplace_back_of (x := .value v) trivial (Argument.index_value v)

/-- Taking the element out of one slot leaves the values in the others alike. -/
theorem values_taken (h : Alike E E' s t) {i j : Nat} (hi : i < s.size) (hj : j < s.size)
    (hne : j ≠ i) :
    (((t.move E' (t.get_adjusted_internal_index i)).2.destroy_if_needed E'
      (t.get_adjusted_internal_index i)).m_buffer.cell (s.get_adjusted_internal_index j)).value
    = (((s.move E (s.get_adjusted_internal_index i)).2.destroy_if_needed E
      (s.get_adjusted_internal_index i)).m_buffer.cell (s.get_adjusted_internal_index j)).value := by
  have hsize := h.left.size_lt
  have hslot : s.get_adjusted_internal_index j ≠ s.get_adjusted_internal_index i :=
    h.left.internal_ne (by omega) (by omega) hne
  rw [h.internal_eq, Storage.destroy_if_needed_cell_ne _ _ hslot, Storage.move_cell_ne _ _ hslot,
    Storage.destroy_if_needed_cell_ne _ _ hslot, Storage.move_cell_ne _ _ hslot]
  exact h.values j hj

theorem pop_back (h : Alike E E' s t) :
    (s.pop_back E).1 = (t.pop_back E').1 ∧ Alike E E' (s.pop_back E).2 (t.pop_back E').2 := by
  have hsize_eq := h.size_eq
  rcases Nat.eq_zero_or_pos s.size with hnil | hpos
  · rw [pop_back_empty E hnil, pop_back_empty E' (hsize_eq.trans hnil)]
    exact ⟨rfl, h⟩
  · obtain ⟨hvalue, hstorage, hstart, hcap, hsize⟩ := h.left.toShape.pop_back_nonempty E hpos
    obtain ⟨hvalue', hstorage', hstart', hcap', hsize'⟩ :=
      h.right.toShape.pop_back_nonempty E' (hsize_eq ▸ hpos)
    have hwrite : (t.pop_back E').2.m_write_index = (s.pop_back E).2.m_write_index :=
      h.left.pop_back.write_congr h.right.pop_back.toShape (by rw [hstart, hstart', h.start])
        (by rw [hcap, hcap', h.capacity]) (by omega)
    refine ⟨?_, h.same_start h.left.pop_back h.right.pop_back hwrite hstart hstart' hcap hcap' ?_⟩
    · rw [hvalue, hvalue', hsize_eq, h.read (by omega)]
    · intro j hj
      rw [hstorage, hstorage', hsize_eq]
      exact h.values_taken (by omega) (by omega) (by omega)

theorem pop_front (h : Alike E E' s t) :
    (s.pop_front E).1 = (t.pop_front E').1 ∧ Alike E E' (s.pop_front E).2 (t.pop_front E').2 := by
  have hsize_eq := h.size_eq
  rcases Nat.eq_zero_or_pos s.size with hnil | hpos
  · rw [pop_front_empty E hnil, pop_front_empty E' (hsize_eq.trans hnil)]
    exact ⟨rfl, h⟩
  · obtain ⟨hvalue, hstorage, hstart, hcap, hsize⟩ := h.left.toShape.pop_front_nonempty E hpos
    obtain ⟨hvalue', hstorage', hstart', hcap', hsize'⟩ :=
      h.right.toShape.pop_front_nonempty E' (hsize_eq ▸ hpos)
    have hlt := h.left.size_lt
    have hstart_eq : (t.pop_front E').2.m_start_index = (s.pop_front E).2.m_start_index := by
      rw [hstart, hstart', h.internal_eq]
    have hcap_eq : (t.pop_front E').2.m_capacity = (s.pop_front E).2.m_capacity := by
      rw [hcap, hcap', h.capacity]
    have hwrite : (t.pop_front E').2.m_write_index = (s.pop_front E).2.m_write_index :=
      h.left.pop_front.write_congr h.right.pop_front.toShape hstart_eq hcap_eq (by omega)
    refine ⟨?_, h.left.pop_front, h.right.pop_front, hwrite, hstart_eq, hcap_eq, ?_⟩
    · rw [hvalue, hvalue', h.read hpos]
    · intro j hj
      rw [hstorage, hstorage', h.left.internal_succ h.left.pop_front.toShape hstart hcap (by omega)]
      exact h.values_taken hpos (by omega) (by omega)

/-! ### Inside -/

/-- Inserting before the last element of a full buffer moves nothing. -/
theorem gap_before_last (h : Sound E s) {p : Nat} (hp : p + 1 = s.size)
    (hfull : s.size + 1 = s.m_capacity)
    (hgap : s.get_adjusted_internal_index p + 1 ≠ s.m_capacity) :
    s.open_gap E p = (s.m_write_index, s.toStorage) := by
  have hnone : s.size - p - 1 = 0 := by omega
  have hwrite : s.get_adjusted_internal_index p + 1 = s.m_write_index := by
    rw [← h.internal_size, ← hp, h.internal_next (by omega), if_neg hgap]
  rw [h.open_gap_full E (by omega) hfull, hnone, hwrite]
  rfl

theorem insert (h : Alike E E' s t) {p : Nat} {x : Argument α} (hcopies : x.Copies)
    (hx : ∀ j ∈ x.index, j < s.size)
    (hp : p = s.size ∨ (s.full ∧ p + 1 = s.size ∧
      s.get_adjusted_internal_index p + 1 ≠ s.m_capacity)) :
    Alike E E' (s.insert_internal E p (s.reference x))
      (t.insert_internal E' p (t.reference x)) := by
  have hs : (s.reference x).Copies := Argument.copies_map_index.mpr hcopies
  have ht : (t.reference x).Copies := Argument.copies_map_index.mpr hcopies
  have hsize_eq := h.size_eq
  rcases hp with rfl | ⟨hfull, hlast, hgap⟩
  · rw [h.left.insert_internal_end, ← hsize_eq, h.right.insert_internal_end, hs.lvalue_eq,
      ht.lvalue_eq]
    exact h.push_back_of hcopies hx
  · have hfull := h.left.full_iff.mp hfull
    have hst := gap_before_last h.left hlast hfull hgap
    have hst' := gap_before_last h.right (p := p) (by omega) (by rw [hsize_eq, h.capacity, hfull])
      (by rw [h.internal_eq, h.capacity]; exact hgap)
    rw [h.left.insert_internal_eq (by omega), h.right.insert_internal_eq (by omega), hst, hst']
    refine h.advance (h.left.inside.fill_gap h.left.write_lt (h.left.reference_lt x))
      (h.right.inside.fill_gap h.right.write_lt (h.right.reference_lt x)) fun j hj => ?_
    rw [fill_gap_value E _ hs, fill_gap_value E' _ ht, h.write, h.read_argument hx]
    exact h.values_at_spacer _ hj

theorem insert_emplace (h : Alike E E' s t) {p : Nat} {x : Argument α} (hcopies : x.Copies)
    (hx : ∀ j ∈ x.index, j < s.size)
    (hp : p = s.size ∨ (s.full ∧ p + 1 = s.size ∧
      s.get_adjusted_internal_index p + 1 ≠ s.m_capacity)) :
    (s.insert_emplace_internal E p (s.reference x)).1
      = (t.insert_emplace_internal E' p (t.reference x)).1 ∧
    Alike E E' (s.insert_emplace_internal E p (s.reference x)).2
      (t.insert_emplace_internal E' p (t.reference x)).2 := by
  have hs : (s.reference x).Copies := Argument.copies_map_index.mpr hcopies
  have ht : (t.reference x).Copies := Argument.copies_map_index.mpr hcopies
  have hsize_eq := h.size_eq
  rcases hp with rfl | ⟨hfull, hlast, hgap⟩
  · rw [h.left.insert_emplace_internal_end, ← hsize_eq, h.right.insert_emplace_internal_end]
    exact h.emplace_back_of hcopies hx
  · have hfull := h.left.full_iff.mp hfull
    have hst := gap_before_last h.left hlast hfull hgap
    have hst' := gap_before_last h.right (p := p) (by omega) (by rw [hsize_eq, h.capacity, hfull])
      (by rw [h.internal_eq, h.capacity]; exact hgap)
    have halike := h.advance
      (h.left.inside.emplace_gap h.left.write_lt (h.left.reference_lt x))
      (h.right.inside.emplace_gap h.right.write_lt (h.right.reference_lt x)) fun j hj => by
        rw [emplace_gap_value E _ hs, emplace_gap_value E' _ ht, h.write, h.read_argument hx]
        exact h.values_at_spacer _ hj
    have hleft := halike.left.slot_eq (i := s.m_write_index)
      (by rw [increment_indices_capacity]; exact h.left.write_lt)
    have hright := halike.right.slot_eq (i := t.m_write_index)
      (by rw [increment_indices_capacity]; exact h.right.write_lt)
    rw [h.left.insert_emplace_internal_eq (by omega),
      h.right.insert_emplace_internal_eq (by omega), hst, hst', hleft, hright]
    refine ⟨?_, halike⟩
    simp only [increment_indices_storage]
    rw [emplace_gap_value E _ hs, emplace_gap_value E' _ ht, if_pos rfl, if_pos rfl,
      h.read_argument hx]

/-- Fewer elements from the same start, and nothing moved. -/
theorem shorter (h : Alike E E' s t) {s' t' : RingBuffer α} (hs : Sound E s') (ht : Sound E' t')
    (hwrite : t'.m_write_index = s'.m_write_index)
    (hstart : s'.m_start_index = s.m_start_index) (hstart' : t'.m_start_index = t.m_start_index)
    (hcap : s'.m_capacity = s.m_capacity) (hcap' : t'.m_capacity = t.m_capacity)
    (hst : s'.toStorage = s.toStorage) (hst' : t'.toStorage = t.toStorage)
    (hsize : s'.size ≤ s.size) : Alike E E' s' t' := by
  refine h.same_start hs ht hwrite hstart hstart' hcap hcap' fun j hj => ?_
  rw [hst, hst']
  exact h.values j (Nat.lt_of_lt_of_le hj hsize)

theorem erase (h : Alike E E' s t) {p : Nat} (hp : p ≤ s.size) (hlast : s.size ≤ p + 1) :
    (s.erase_internal E p).1.m_current_index = (t.erase_internal E' p).1.m_current_index ∧
    Alike E E' (s.erase_internal E p).2 (t.erase_internal E' p).2 := by
  have hsize_eq := h.size_eq
  rcases Nat.lt_or_eq_of_le hp with hlt | rfl
  · obtain ⟨hit, hstate⟩ := h.left.erase_internal_eq hlt
    obtain ⟨hit', hstate'⟩ := h.right.erase_internal_eq (p := p) (by omega)
    have hnone : s.size - 1 - p = 0 := by omega
    have hnone' : t.size - 1 - p = 0 := by omega
    have hstep : (s.erase_internal E p).2 = s.decrement_write := by
      rw [hstate, hnone]
      rfl
    have hstep' : (t.erase_internal E' p).2 = t.decrement_write := by
      rw [hstate', hnone']
      rfl
    rw [hit, hit', hstep, hstep']
    refine ⟨rfl, h.shorter (h.left.decrement_write (by omega))
      (h.right.decrement_write (by omega)) ?_
      (decrement_write_start s) (decrement_write_start t) (decrement_write_capacity s)
      (decrement_write_capacity t) (decrement_write_storage s) (decrement_write_storage t) ?_⟩
    · rw [h.left.decrement_write_index, h.right.decrement_write_index, h.write, h.capacity]
    · have hless := (h.left.decrement_write_nonempty (by omega)).2
      omega
  · rw [h.left.erase_internal_end, ← hsize_eq, h.right.erase_internal_end]
    exact ⟨rfl, h⟩

/-- An erasure that moves nothing only moves the write index, and not over free places. -/
theorem erase_range (h : Alike E E' s t) {f l : Nat} (hl : l ≤ s.size)
    (hback : s.OnlyBack f l) :
    (s.erase_range E (s.iterator f) (s.iterator l)).1.m_current_index
      = (t.erase_range E' (t.iterator f) (t.iterator l)).1.m_current_index ∧
    Alike E E' (s.erase_range E (s.iterator f) (s.iterator l)).2
      (t.erase_range E' (t.iterator f) (t.iterator l)).2 := by
  have hsize_eq := h.size_eq
  have hs := h.left.start_lt
  have hw := h.left.write_lt
  have hsize := h.left.size_lt
  rcases Nat.lt_or_ge f l with hfl | hnone
  · have hn : l - f ≤ s.size := by omega
    have hn' : l - f ≤ t.size := by omega
    rcases hback with hle | ⟨rfl, hend⟩ | ⟨hbehind, hplace⟩
    · omega
    · obtain ⟨hit, hstate⟩ := h.left.erase_range_eq hfl hl (Nat.le_of_eq h.left.internal_size)
      obtain ⟨hit', hstate'⟩ := h.right.erase_range_eq (l := s.size) hfl (by omega) (by
        rw [← hsize_eq, h.right.internal_size])
      have hstep : (s.erase_range E (s.iterator f) (s.iterator s.size)).2
          = s.decrement_write_n (s.size - f) := by
        rw [hstate, Nat.sub_self]
        rfl
      have hstep' : (t.erase_range E' (t.iterator f) (t.iterator s.size)).2
          = t.decrement_write_n (s.size - f) := by
        rw [hstate', hsize_eq, Nat.sub_self]
        rfl
      rw [hit, hit', hstep, hstep']
      refine ⟨rfl, h.shorter (h.left.decrement_write_n hn) (h.right.decrement_write_n hn') ?_
        (decrement_write_n_start s _) (decrement_write_n_start t _)
        (decrement_write_n_capacity s _) (decrement_write_n_capacity t _)
        (decrement_write_n_storage s _) (decrement_write_n_storage t _) ?_⟩
      · rw [h.left.decrement_write_n_index hn, h.right.decrement_write_n_index hn', h.write,
          h.capacity]
      · exact h.left.toShape.size_erased_end_le hfl hend
    · obtain ⟨hit, hstate⟩ := h.left.erase_range_retract hfl hl hbehind
      obtain ⟨hit', hstate'⟩ := h.right.erase_range_retract (l := l) hfl (by omega) (by
        rw [h.internal_eq, h.write]
        exact hbehind)
      have hwrapped := h.left.wrapped_of_write_lt hl hbehind
      have hwrapped' : t.m_write_index < t.m_start_index := by
        rw [h.write, h.start]
        exact hwrapped
      have halike : Alike E E' (s.retract_write (l - f)) (t.retract_write (l - f)) := by
        refine h.shorter (h.left.retract_write hn) (h.right.retract_write hn') ?_
          (retract_write_start s _) (retract_write_start t _) (retract_write_capacity s _)
          (retract_write_capacity t _) (retract_write_storage s _) (retract_write_storage t _) ?_
        · rw [h.left.retract_write_index hn hwrapped, h.right.retract_write_index hn' hwrapped',
            h.left.decrement_write_n_index hn, h.right.decrement_write_n_index hn', h.write,
            h.capacity]
        · have hne : l ≠ s.size := by
            rintro rfl
            rw [h.left.internal_size] at hbehind
            omega
          exact h.left.toShape.size_retracted_le (by omega) hwrapped hplace
      rw [hit, hit', hstate, hstate', halike.size_eq]
      exact ⟨rfl, halike⟩
  · rw [Sound.erase_range_none hnone, Sound.erase_range_none hnone]
    exact ⟨rfl, h⟩

end Alike

/-! ### Programs -/

/-- The elements in order, as `at` returns them. -/
def elements (s : RingBuffer α) : List (Option α) :=
  (List.range s.size).map fun i => (s.at' i).1

theorem Alike.elements {s t : RingBuffer α} (h : Alike E E' s t) : s.elements = t.elements := by
  rw [RingBuffer.elements, RingBuffer.elements, h.size_eq]
  refine List.map_congr_left fun i hi => ?_
  exact (h.read (List.mem_range.mp hi)).symm

/-- The calls that put elements in and take elements out. -/
def Op.Edits : Op α → Prop
  | .push_back _ | .emplace_back _ | .pop_front | .pop_back | .insert _ _ | .insert_emplace _ _
  | .erase _ | .erase_range _ _ => True
  | _ => False

instance : (op : Op α) → Decidable op.Edits
  | .push_back _ | .emplace_back _ | .pop_front | .pop_back | .insert _ _ | .insert_emplace _ _
  | .erase _ | .erase_range _ _ => isTrue trivial
  | .clear | .emplace _ _ | .reserve _ | .at' _ | .subscript _ | .front | .back | .iterate =>
      isFalse id

/--
The call has no element to move, is given none that the caller moves, and does not grow the
buffer while erasing.
-/
def MovesNothing (s : RingBuffer α) : Op α → Prop
  | .insert p x | .insert_emplace p x => x.Copies ∧ (p = s.size ∨
      (s.full ∧ p + 1 = s.size ∧ s.get_adjusted_internal_index p + 1 ≠ s.m_capacity))
  | .erase p => s.size ≤ p + 1
  | .erase_range f l => s.OnlyBack f l
  | _ => True

instance (s : RingBuffer α) : (op : Op α) → Decidable (s.MovesNothing op)
  | .insert _ x | .insert_emplace _ x => inferInstanceAs (Decidable (x.Copies ∧ _))
  | .erase_range _ _ => inferInstanceAs (Decidable (_ ∨ _))
  | .erase _ => inferInstanceAs (Decidable (_ ≤ _))
  | .push_back _ | .emplace_back _ | .pop_front | .pop_back | .clear | .emplace _ _
  | .reserve _ | .at' _ | .subscript _ | .front | .back | .iterate => isTrue trivial

/-- **One call does the same to both buffers.** -/
theorem Alike.step {A : Allocator} {s t s' t' : RingBuffer α} {op : Op α} {o o' : Output α}
    (h : Alike E E' s t) (hrange : s.InRange op) (hop : op.Edits) (hnone : s.MovesNothing op)
    (hs : s.step A E op = some (o, s')) (ht : t.step A E' op = some (o', t')) :
    o = o' ∧ Alike E E' s' t' := by
  cases op with
  | push_back v => cases hs; cases ht; exact ⟨rfl, h.push_back v⟩
  | emplace_back v =>
      cases hs; cases ht
      obtain ⟨hvalue, halike⟩ := h.emplace_back v
      exact ⟨congrArg Output.element hvalue, halike⟩
  | pop_front =>
      cases hs; cases ht
      obtain ⟨hvalue, halike⟩ := h.pop_front
      exact ⟨congrArg Output.popped hvalue, halike⟩
  | pop_back =>
      cases hs; cases ht
      obtain ⟨hvalue, halike⟩ := h.pop_back
      exact ⟨congrArg Output.popped hvalue, halike⟩
  | insert p x => cases hs; cases ht; exact ⟨rfl, h.insert hnone.1 hrange.2 hnone.2⟩
  | insert_emplace p x =>
      cases hs; cases ht
      obtain ⟨hvalue, halike⟩ := h.insert_emplace hnone.1 hrange.2 hnone.2
      exact ⟨congrArg Output.element hvalue, halike⟩
  | erase p =>
      cases hs; cases ht
      obtain ⟨hit, halike⟩ := h.erase hrange hnone
      exact ⟨congrArg Output.position hit, halike⟩
  | erase_range f l =>
      cases hs; cases ht
      obtain ⟨hit, halike⟩ := h.erase_range hrange.2 hnone
      exact ⟨congrArg Output.position hit, halike⟩
  | _ => exact absurd hop id

/-- Two new buffers of one capacity are alike. -/
theorem alike_with_capacity {A : Allocator} {n : Nat} {s t : RingBuffer α} (hn : n + 1 < 2 ^ 64)
    (hs : with_capacity A E n = some s) (ht : with_capacity A E' n = some t) :
    Alike E E' s t := by
  have hsound := sound_with_capacity hn hs
  obtain ⟨-, -, -, -, hw, hstart, hcap⟩ := with_capacity_some hn hs
  obtain ⟨-, -, -, -, hw', hstart', hcap'⟩ := with_capacity_some hn ht
  refine ⟨hsound, sound_with_capacity hn ht, ?_, ?_, ?_, ?_⟩
  · rw [hw, hw']
  · rw [hstart, hstart']
  · rw [hcap, hcap']
  · intro j hj
    rw [hsound.size_eq, hw, hstart] at hj
    simp at hj

/--
**The element type makes no difference** to any run in which no insertion and no
erasure has an element to move: every call returns the same, and the buffers have
the same size and the same elements.
-/
theorem same_for_element_types {A : Allocator} {n : Nat} {s₀ t₀ s t : RingBuffer α}
    {ops : List (Op α)} {outs outs' : List (Output α)} (hn : n + 1 < 2 ^ 64)
    (hs₀ : with_capacity A E n = some s₀) (ht₀ : with_capacity A E' n = some t₀)
    (hs : Machine.Run (step A E) (fun s op => s.InRange op ∧ op.Edits ∧ s.MovesNothing op)
      s₀ ops outs s)
    (ht : Machine.Run (step A E') (fun _ _ => True) t₀ ops outs' t) :
    outs = outs' ∧ s.size = t.size ∧ s.elements = t.elements := by
  have hkeep : ∀ (s t : RingBuffer α) (op : Op α) (o o' : Output α) (s' t' : RingBuffer α),
      Alike E E' s t → (s.InRange op ∧ op.Edits ∧ s.MovesNothing op) → True →
      s.step A E op = some (o, s') → t.step A E' op = some (o', t') →
      o = o' ∧ Alike E E' s' t' := by
    intro s t op o o' s' t' h hguard _ hs ht
    exact h.step hguard.1 hguard.2.1 hguard.2.2 hs ht
  obtain ⟨houts, halike⟩ := hs.lockstep hkeep ht (alike_with_capacity hn hs₀ ht₀)
  exact ⟨houts, halike.size_eq.symm, halike.elements⟩

/-- Pushing, wrapping around, inserting a copy of the front and erasing the last element, with and
without a destructor. -/
theorem same_for_element_types_wrapped : ∃ s t : RingBuffer Nat,
    s.size = 2 ∧ t.size = 2 ∧ s.elements = t.elements := by
  obtain ⟨s₀, outs, s, hs₀, hs, hsize⟩ := Machine.exists_run
    (step Allocator.large ElementType.plain)
    (fun s op => s.InRange op ∧ op.Edits ∧ s.MovesNothing op)
    (with_capacity Allocator.large ElementType.plain 3)
    [.push_back 1, .push_back 2, .pop_front, .push_back 3, .insert 2 (.element 0 id), .erase 2]
    (fun r => r.2.size == 2) (by decide +kernel)
  obtain ⟨t₀, outs', t, ht₀, ht, hsize'⟩ := Machine.exists_run
    (step Allocator.large ElementType.owning) (fun _ _ => True)
    (with_capacity Allocator.large ElementType.owning 3)
    [.push_back 1, .push_back 2, .pop_front, .push_back 3, .insert 2 (.element 0 id), .erase 2]
    (fun r => r.2.size == 2) (by decide +kernel)
  exact ⟨s, t, eq_of_beq hsize, eq_of_beq hsize',
    (same_for_element_types (by decide) hs₀ ht₀ hs ht).2.2⟩

/-- An insertion before two elements overwrites the first of them in a buffer of plain data. -/
theorem insert_depends_on_element_type : ¬ ∀ (A : Allocator) (E E' : ElementType Nat) (n : Nat)
    (s₀ t₀ s t : RingBuffer Nat) (ops : List (Op Nat)) (outs outs' : List (Output Nat)),
    E.trivially_destructible = true → E'.trivially_destructible = false →
    with_capacity A E n = some s₀ → with_capacity A E' n = some t₀ →
    Machine.Run (step A E) (fun s op => s.InRange op ∧ op.Edits) s₀ ops outs s →
    Machine.Run (step A E') (fun t op => t.InRange op ∧ op.Edits) t₀ ops outs' t →
    s.size = t.size ∧ s.elements = t.elements := by
  intro hclaim
  obtain ⟨s₀, outs, s, hs₀, hs, hleft⟩ := Machine.exists_run
    (step Allocator.large ElementType.plain) (fun s op => s.InRange op ∧ op.Edits)
    (with_capacity Allocator.large ElementType.plain 3)
    [.push_back 1, .push_back 2, .insert 0 (.value 9)]
    (fun r => r.2.elements == [some 9, some 2, none]) (by decide +kernel)
  obtain ⟨t₀, outs', t, ht₀, ht, hright⟩ := Machine.exists_run
    (step Allocator.large ElementType.owning) (fun s op => s.InRange op ∧ op.Edits)
    (with_capacity Allocator.large ElementType.owning 3)
    [.push_back 1, .push_back 2, .insert 0 (.value 9)]
    (fun r => r.2.elements == [some 9, some 1, some 2]) (by decide +kernel)
  have hsame := (hclaim _ _ _ _ _ _ _ _ _ _ _ rfl rfl hs₀ ht₀ hs ht).2
  rw [eq_of_beq hleft, eq_of_beq hright] at hsame
  simp at hsame

end Hyperion.RingBuffer
