/-
What the operations at the two ends do, one lemma for each.

Each lemma gives the storage the operation leaves, where the buffer starts
afterwards and how many elements it has, in terms of positions.  The refinement, the
comparison of element types and the lifetimes all start from these and unfold none of
the operations.
-/
import Hyperion.RingBuffer.Index

namespace Hyperion.RingBuffer

variable {α : Type} {E : ElementType α} {s : RingBuffer α}

namespace Argument

@[simp] theorem use_value (E : ElementType α) (st : Storage α) (v : α) :
    (value v).use E st = st := rfl

@[simp] theorem read_value (look : Nat → Option α) (v : α) :
    (value v).read look = some v := rfl

/-- Using an argument that is not moved from writes to no slot. -/
theorem Copies.use_cell {arg : Argument α} (h : arg.Copies) (E : ElementType α)
    (st : Storage α) : (arg.use E st).m_buffer.cell = st.m_buffer.cell := by
  cases arg with
  | value v => rfl
  | element i make => exact Arena.copyFrom_cell _ _
  | rvalue i => exact absurd h id

theorem Copies.lvalue_eq {arg : Argument α} (h : arg.Copies) : arg.lvalue = arg := by
  cases arg with
  | rvalue i => exact absurd h id
  | _ => rfl

theorem copies_map_index {f : Nat → Nat} {arg : Argument α} :
    (arg.map_index f).Copies ↔ arg.Copies := by
  cases arg <;> rfl

@[simp] theorem use_constructed (E : ElementType α) (st : Storage α) (arg : Argument α) :
    (arg.use E st).m_constructed = st.m_constructed := by
  cases arg <;> rfl

@[simp] theorem use_slots (E : ElementType α) (st : Storage α) (arg : Argument α) :
    (arg.use E st).m_buffer.slots = st.m_buffer.slots := by
  cases arg with
  | value v => rfl
  | element i make => exact st.m_buffer.copyFrom_slots i
  | rvalue i => exact st.m_buffer.moveFrom_slots _ i

/-- What was used past the end stays on record. -/
theorem use_oob_ne (E : ElementType α) {st : Storage α} (h : st.m_buffer.oob ≠ [])
    (arg : Argument α) : (arg.use E st).m_buffer.oob ≠ [] := by
  cases arg with
  | value v => exact h
  | element i make =>
      show ((st.m_buffer.touch i _).note _ _).oob ≠ []
      rw [Arena.note_oob]
      exact Arena.touch_oob_ne (.inl h)
  | rvalue i =>
      show ((st.m_buffer.touch i _).note _ _).oob ≠ []
      rw [Arena.note_oob]
      exact Arena.touch_oob_ne (.inl h)

/-- What is read depends on nothing but what the element it leads to reads as. -/
theorem read_congr {look look' : Nat → Option α} {arg : Argument α}
    (h : ∀ i ∈ arg.index, look i = look' i) : arg.read look = arg.read look' := by
  cases arg with
  | value v => rfl
  | element i make => exact congrArg (Option.map make) (h i rfl)
  | rvalue i => exact h i rfl

theorem read_map_index (f : Nat → Nat) (look : Nat → Option α) (arg : Argument α) :
    (arg.map_index f).read look = arg.read fun i => look (f i) := by
  cases arg <;> rfl

/-- A value leads to no element. -/
theorem index_value {P : Nat → Prop} (v : α) : ∀ i ∈ (value v).index, P i :=
  fun _ hi => nomatch hi

theorem index_map_index {f : Nat → Nat} {P : Nat → Prop} {arg : Argument α} :
    (∀ i ∈ (arg.map_index f).index, P i) ↔ ∀ i ∈ arg.index, P (f i) := by
  cases arg <;> simp [map_index, index]

@[simp] theorem index_lvalue (arg : Argument α) : arg.lvalue.index = arg.index := by
  cases arg <;> rfl

end Argument

/-- Whatever was in the spacer, afterwards there is the new element. -/
theorem construct_back_cell (s : RingBuffer α) (v : α) :
    ∃ id, (s.construct_back E v).m_buffer.cell
      = Function.update s.m_buffer.cell s.m_write_index ⟨some v, some id⟩ := by
  unfold construct_back
  simp only [Argument.use_value, Argument.read_value]
  split
  · obtain ⟨id, hid⟩ := Storage.construct_cell
      ((s.is_constructed E s.m_write_index).2.destroy s.m_write_index) s.m_write_index (some v)
    refine ⟨id, ?_⟩
    rw [Storage.set_constructed_cell, hid, Storage.destroy_cell, Function.update_idem,
      Storage.is_constructed_cell]
  · obtain ⟨id, hid⟩ := Storage.construct_cell (s.is_constructed E s.m_write_index).2
      s.m_write_index (some v)
    refine ⟨id, ?_⟩
    rw [Storage.set_constructed_cell, hid, Storage.is_constructed_cell]

/-- `emplace_back` is `push_back` and a reference to the slot written. -/
theorem emplace_back_eq (s : RingBuffer α) (E : ElementType α) (args : Argument α) :
    s.emplace_back E args = (s.push_back E args).slot s.m_write_index := rfl

theorem pop_front_empty (E : ElementType α) (hnil : s.size = 0) : s.pop_front E = (none, s) := by
  rw [pop_front, if_neg (by omega)]

theorem pop_back_empty (E : ElementType α) (hnil : s.size = 0) : s.pop_back E = (none, s) := by
  rw [pop_back, if_neg (by omega)]

namespace Shape

/-- New storage for the same indices. -/
theorem with_storage (h : Shape s) (st : Storage α) : Shape { s with toStorage := st } :=
  ⟨h.cap_le, h.start_lt, h.write_lt⟩

/-- A push writes the spacer and makes the buffer longer, or takes the front off a full one. -/
theorem push_back (h : Shape s) (E : ElementType α) (x : Argument α) :
    (s.push_back E x).toStorage = s.construct_back E x ∧
    (s.push_back E x).m_capacity = s.m_capacity ∧
    (s.size + 1 ≠ s.m_capacity → (s.push_back E x).m_start_index = s.m_start_index ∧
      (s.push_back E x).size = s.size + 1) ∧
    (s.size + 1 = s.m_capacity →
      (s.push_back E x).m_start_index = s.get_adjusted_internal_index 1 ∧
      (s.push_back E x).size = s.size) :=
  ⟨increment_indices_storage _, increment_indices_capacity _,
    (h.with_storage (s.construct_back E x)).increment_room,
    (h.with_storage (s.construct_back E x)).increment_full⟩

/-- `pop_front` empties the slot of position 0. -/
theorem pop_front_nonempty (h : Shape s) (E : ElementType α) (hpos : 0 < s.size) :
    (s.pop_front E).1 = some (s.m_buffer.read (s.get_adjusted_internal_index 0)) ∧
    (s.pop_front E).2.toStorage = ((s.move E (s.get_adjusted_internal_index 0)).2).destroy_if_needed
      E (s.get_adjusted_internal_index 0) ∧
    (s.pop_front E).2.m_start_index = s.get_adjusted_internal_index 1 ∧
    (s.pop_front E).2.m_capacity = s.m_capacity ∧ (s.pop_front E).2.size + 1 = s.size := by
  rw [h.internal_zero, pop_front, if_pos hpos]
  obtain ⟨hstart, hsize⟩ := (h.with_storage ((s.move E s.m_start_index).2.destroy_if_needed E
    s.m_start_index)).increment_start_nonempty hpos
  exact ⟨rfl, increment_start_storage _, hstart, increment_start_capacity _, hsize⟩

/-- `pop_back` empties the slot of the last position. -/
theorem pop_back_nonempty (h : Shape s) (E : ElementType α) (hpos : 0 < s.size) :
    (s.pop_back E).1 = some (s.m_buffer.read (s.get_adjusted_internal_index (s.size - 1))) ∧
    (s.pop_back E).2.toStorage =
      ((s.move E (s.get_adjusted_internal_index (s.size - 1))).2).destroy_if_needed
        E (s.get_adjusted_internal_index (s.size - 1)) ∧
    (s.pop_back E).2.m_start_index = s.m_start_index ∧
    (s.pop_back E).2.m_capacity = s.m_capacity ∧ (s.pop_back E).2.size + 1 = s.size := by
  have hsub : usize.sub s.size 1 = s.size - 1 := h.sub_eq (Nat.le_of_lt h.size_lt) hpos
  obtain ⟨hwrite, hsize⟩ := (h.with_storage
    (s.move E (s.get_adjusted_internal_index (s.size - 1))).2).decrement_write_nonempty hpos
  rw [pop_back, if_pos hpos, hsub]
  refine ⟨rfl, ?_, decrement_write_start _, decrement_write_capacity _, hsize⟩
  show Storage.destroy_if_needed E _ _ = _
  rw [hwrite, decrement_write_storage]
  rfl

end Shape

end Hyperion.RingBuffer
