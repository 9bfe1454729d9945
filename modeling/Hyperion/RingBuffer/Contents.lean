/-
The ring buffer is a bounded list.

Position `j` of the list is the slot `get_adjusted_internal_index j`, and that slot
holds an object with the value of the `j`-th element.  The spacer holds whatever was
left in it, which the list does not see.  A push writes the spacer and moves the
write index on; when that runs into the start, the front becomes the new spacer and
every position moves one place on, which is the list dropping its front.
-/
import Hyperion.RingBuffer.Bounds
import Hyperion.RingBuffer.Ends
import Hyperion.Lib.BoundedList

namespace Hyperion.RingBuffer

variable {α : Type} {E : ElementType α}

/-- The buffer holds the elements of a list, in order, in as many slots as the list may use. -/
structure Contains (E : ElementType α) (s : RingBuffer α) (b : BoundedList α) : Prop
    extends Sound E s where
  size_eq : s.size = b.items.length
  bound_eq : s.m_capacity = b.bound + 1
  holds : ∀ j x, b.items[j]? = some x →
    ∃ id, s.m_buffer.cell (s.get_adjusted_internal_index j) = ⟨some x, some id⟩

/-! ### The indices afterwards -/

namespace Shape

variable {s : RingBuffer α}

theorem pushed (h : Shape s) (E : ElementType α) (v : α) : Shape (s.push_back E v) :=
  (h.with_storage _).increment_indices

theorem popped_front (h : Shape s) (E : ElementType α) : Shape (s.pop_front E).2 := by
  unfold RingBuffer.pop_front
  split
  · exact (h.with_storage _).increment_start
  · exact h

theorem popped_back (h : Shape s) (E : ElementType α) : Shape (s.pop_back E).2 := by
  unfold RingBuffer.pop_back
  split
  · exact (h.with_storage _).decrement_write.with_storage _
  · exact h

end Shape

/-! ### Where the elements are -/

/-- The elements of the list are in the slots of the positions, whatever the flags say. -/
structure Held (s : RingBuffer α) (b : BoundedList α) : Prop extends Shape s where
  size_eq : s.size = b.items.length
  bound_eq : s.m_capacity = b.bound + 1
  holds : ∀ j x, b.items[j]? = some x →
    ∃ id, s.m_buffer.cell (s.get_adjusted_internal_index j) = ⟨some x, some id⟩

namespace Held

variable {s : RingBuffer α} {b : BoundedList α}

/-- The new element is in the slot that was the spacer, the old ones are where they were. -/
theorem written (h : Held s b) (E : ElementType α) (v : α) :
    (∃ id, (s.construct_back E v).m_buffer.cell (s.get_adjusted_internal_index b.items.length)
      = ⟨some v, some id⟩) ∧
    ∀ j x, b.items[j]? = some x →
      ∃ id, (s.construct_back E v).m_buffer.cell (s.get_adjusted_internal_index j)
        = ⟨some x, some id⟩ := by
  have hsize := h.size_lt
  obtain ⟨id, hid⟩ := construct_back_cell (E := E) s v
  rw [hid, ← h.size_eq, h.internal_size]
  refine ⟨⟨id, Function.update_self _ _ _⟩, fun j x hx => ?_⟩
  have hj : j < b.items.length := (List.getElem?_eq_some_iff.mp hx).1
  have hne : s.get_adjusted_internal_index j ≠ s.m_write_index := by
    intro hc
    rw [h.internal_eq_write_iff (by rw [h.size_eq]; omega), h.size_eq] at hc
    omega
  rw [Function.update_of_ne hne]
  exact h.holds j x hx

/-- **A push appends, and drops the front of a full buffer.** -/
theorem push_back (h : Held s b) (E : ElementType α) (v : α) :
    Held (s.push_back E v) (b.push v) := by
  have hshape := h.toShape.pushed E v
  obtain ⟨hstorage, hcap, hroom, hfull⟩ := h.toShape.push_back E v
  obtain ⟨⟨id, hnew⟩, hold⟩ := h.written E v
  have hsize := h.size_lt
  have hlen := h.size_eq
  have hbound := h.bound_eq
  have hbound' : (s.push_back E v).m_capacity = (b.push v).bound + 1 := by
    rw [hcap, hbound, BoundedList.push_bound]
  by_cases hcase : s.size + 1 = s.m_capacity
  · obtain ⟨hstart, hsize'⟩ := hfull hcase
    have hbfull : b.items.length = b.bound := by omega
    have hsize_eq : (s.push_back E v).size = (b.push v).items.length := by
      rw [BoundedList.length_push_of_full hbfull, hsize', hlen]
    refine ⟨hshape, hsize_eq, hbound', ?_⟩
    intro j x hx
    have hj : j < (b.push v).items.length := (List.getElem?_eq_some_iff.mp hx).1
    rw [hstorage, h.internal_succ hshape hstart hcap (by omega)]
    rcases BoundedList.getElem?_push_of_full hbfull hx with hx | ⟨hlast, rfl⟩
    · exact hold (j + 1) x hx
    · rw [hlast]
      exact ⟨id, hnew⟩
  · obtain ⟨hstart, hsize'⟩ := hroom hcase
    have hbroom : b.items.length < b.bound := by omega
    have hsize_eq : (s.push_back E v).size = (b.push v).items.length := by
      rw [BoundedList.length_push_of_lt hbroom, hsize', hlen]
    refine ⟨hshape, hsize_eq, hbound', ?_⟩
    intro j x hx
    rw [hstorage, internal_congr hstart hcap]
    rcases BoundedList.getElem?_push_of_lt hbroom hx with hx | ⟨rfl, rfl⟩
    · exact hold j x hx
    · exact ⟨id, hnew⟩

theorem nil_of_size (h : Held s b) (hsize : s.size = 0) : b.items = [] :=
  List.length_eq_zero_iff.mp (h.size_eq ▸ hsize)

/-- Taking the element out of one slot leaves the elements in the others. -/
theorem holds_taken (h : Held s b) (E : ElementType α) {i j : Nat} {x : α}
    (hi : i < s.m_capacity) (hx : b.items[j]? = some x) (hne : j ≠ i) :
    ∃ id, ((s.move E (s.get_adjusted_internal_index i)).2.destroy_if_needed E
      (s.get_adjusted_internal_index i)).m_buffer.cell (s.get_adjusted_internal_index j)
        = ⟨some x, some id⟩ := by
  have hj : j < b.items.length := (List.getElem?_eq_some_iff.mp hx).1
  have hsize := h.size_lt
  have hlen := h.size_eq
  have hslot : s.get_adjusted_internal_index j ≠ s.get_adjusted_internal_index i :=
    h.internal_ne (by omega) hi hne
  rw [Storage.destroy_if_needed_cell_ne _ _ hslot, Storage.move_cell_ne _ _ hslot]
  exact h.holds j x hx

/-- **`pop_front` removes the first element.** -/
theorem pop_front (h : Held s b) (E : ElementType α) :
    Held (s.pop_front E).2 b.popFront.2 := by
  have hshape := h.toShape.popped_front E
  rcases Nat.eq_zero_or_pos s.size with hnil | hpos
  · rw [pop_front_empty E hnil, BoundedList.popFront_nil (h.nil_of_size hnil)]
    exact h
  · obtain ⟨-, hstorage, hstart, hcap, hsize'⟩ := h.toShape.pop_front_nonempty E hpos
    have hsize := h.size_lt
    have hlen := h.size_eq
    refine ⟨hshape, ?_, hcap.trans h.bound_eq, ?_⟩
    · rw [BoundedList.popFront, List.length_tail]
      omega
    · intro j x hx
      rw [BoundedList.popFront, List.getElem?_tail] at hx
      have hj : j + 1 < b.items.length := (List.getElem?_eq_some_iff.mp hx).1
      rw [hstorage, h.internal_succ hshape hstart hcap (by omega)]
      exact h.holds_taken E h.cap_pos hx (Nat.succ_ne_zero j)

/-- **`pop_back` removes the last element.** -/
theorem pop_back (h : Held s b) (E : ElementType α) : Held (s.pop_back E).2 b.popBack.2 := by
  have hshape := h.toShape.popped_back E
  rcases Nat.eq_zero_or_pos s.size with hnil | hpos
  · rw [pop_back_empty E hnil, BoundedList.popBack_nil (h.nil_of_size hnil)]
    exact h
  · obtain ⟨-, hstorage, hstart, hcap, hsize'⟩ := h.toShape.pop_back_nonempty E hpos
    have hsize := h.size_lt
    have hlen := h.size_eq
    refine ⟨hshape, ?_, hcap.trans h.bound_eq, ?_⟩
    · rw [BoundedList.popBack, List.length_dropLast]
      omega
    · intro j x hx
      rw [BoundedList.popBack] at hx
      have hj : j < b.items.length - 1 := by
        rw [← List.length_dropLast]
        exact (List.getElem?_eq_some_iff.mp hx).1
      rw [List.getElem?_dropLast, if_pos hj] at hx
      rw [hstorage, internal_congr hstart hcap]
      exact h.holds_taken E (by omega) hx (by omega)

/-- `clear` leaves an empty buffer that may hold as much as before. -/
theorem clear (h : Held s b) (E : ElementType α) : Held (s.clear E) b.clear := by
  have hshape : Shape (s.clear E) := ⟨h.cap_le, h.cap_pos, h.cap_pos⟩
  refine ⟨hshape, ?_, h.bound_eq, ?_⟩
  · rw [hshape.size_eq]
    rfl
  · intro j x hx
    simp [BoundedList.clear, BoundedList.empty] at hx

end Held

namespace Contains

variable {s : RingBuffer α} {b : BoundedList α}

theorem held (h : Contains E s b) : Held s b := ⟨h.toShape, h.size_eq, h.bound_eq, h.holds⟩

theorem of_held (hs : Sound E s) (h : Held s b) : Contains E s b :=
  ⟨hs, h.size_eq, h.bound_eq, h.holds⟩

/-! ### Pushing -/

theorem push_back (h : Contains E s b) (v : α) : Contains E (s.push_back E v) (b.push v) :=
  of_held (h.toSound.push_back v) (h.held.push_back E v)

/-- The reference `emplace_back` returns is to the new element. -/
theorem emplace_back (h : Contains E s b) (v : α) :
    (s.emplace_back E v).1 = some v ∧ Contains E (s.emplace_back E v).2 (b.push v) := by
  have hpush := h.push_back v
  obtain ⟨hstorage, hcap, -⟩ := h.toShape.push_back E v
  obtain ⟨⟨id, hnew⟩, -⟩ := h.held.written E v
  rw [← h.size_eq, h.internal_size] at hnew
  rw [emplace_back_eq, hpush.slot_eq (hcap ▸ h.write_lt), hstorage, hnew]
  exact ⟨rfl, hpush⟩

/-! ### Popping -/

/-- What is read at a position is the element there. -/
theorem read (h : Contains E s b) {j : Nat} {x : α} (hx : b.items[j]? = some x) :
    s.m_buffer.read (s.get_adjusted_internal_index j) = some x := by
  obtain ⟨id, hcell⟩ := h.holds j x hx
  rw [h.inside.buffer.read (h.internal_lt j), hcell]

/-- **`pop_front` returns the first element and removes it.** -/
theorem pop_front (h : Contains E s b) :
    (s.pop_front E).1 = b.popFront.1.map some ∧
    Contains E (s.pop_front E).2 b.popFront.2 := by
  refine ⟨?_, of_held h.toSound.pop_front (h.held.pop_front E)⟩
  rcases Nat.eq_zero_or_pos s.size with hnil | hpos
  · rw [pop_front_empty E hnil, BoundedList.popFront_nil (h.held.nil_of_size hnil)]
    rfl
  · have hlt : 0 < b.items.length := h.size_eq ▸ hpos
    rw [(h.toShape.pop_front_nonempty E hpos).1, h.read (List.getElem?_eq_getElem hlt),
      BoundedList.popFront, List.head?_eq_getElem?, List.getElem?_eq_getElem hlt]
    rfl

/-- **`pop_back` returns the last element and removes it.** -/
theorem pop_back (h : Contains E s b) :
    (s.pop_back E).1 = b.popBack.1.map some ∧ Contains E (s.pop_back E).2 b.popBack.2 := by
  refine ⟨?_, of_held h.toSound.pop_back (h.held.pop_back E)⟩
  rcases Nat.eq_zero_or_pos s.size with hnil | hpos
  · rw [pop_back_empty E hnil, BoundedList.popBack_nil (h.held.nil_of_size hnil)]
    rfl
  · have hlen := h.size_eq
    have hlt : s.size - 1 < b.items.length := by omega
    rw [(h.toShape.pop_back_nonempty E hpos).1, h.read (List.getElem?_eq_getElem hlt),
      BoundedList.popBack, List.getLast?_eq_getElem?, ← hlen, List.getElem?_eq_getElem hlt]
    rfl

theorem clear (h : Contains E s b) : Contains E (s.clear E) b.clear :=
  of_held h.toSound.clear (h.held.clear E)

end Contains

/-! ### What a program can ask the buffer -/

/-- Every query is answered as the list answers it. -/
structure Agrees (s : RingBuffer α) (b : BoundedList α) : Prop where
  size : s.size = b.items.length
  empty : s.empty = true ↔ b.items = []
  full : s.full = true ↔ b.items.length = b.bound
  capacity : s.capacity = b.bound
  at' : ∀ i, i < s.size → (s.at' i).1 = b.items[i]?
  subscript : ∀ i, i < s.size → (s.subscript i).1 = b.items[i]?
  front : s.empty = false → s.front.1 = b.items.head?
  back : s.empty = false → s.back.1 = b.items.getLast?

theorem Contains.agrees {s : RingBuffer α} {b : BoundedList α} (h : Contains E s b) :
    Agrees s b := by
  have hsize := h.size_lt
  have hlen := h.size_eq
  have hbound := h.bound_eq
  have hread : ∀ i, i < s.size →
      s.m_buffer.read (s.get_adjusted_internal_index i) = b.items[i]? := by
    intro i hi
    have hlt : i < b.items.length := hlen ▸ hi
    rw [h.read (List.getElem?_eq_getElem hlt), List.getElem?_eq_getElem hlt]
  have hpos : s.empty = false → 0 < s.size := by
    intro hne
    rcases Nat.eq_zero_or_pos s.size with hnil | hpos
    · rw [h.empty_iff.mpr hnil] at hne
      simp at hne
    · exact hpos
  refine ⟨hlen, ?_, ?_, ?_, hread, hread, ?_, ?_⟩
  · rw [h.empty_iff, hlen, List.length_eq_zero_iff]
  · rw [h.full_iff, hlen, hbound]
    omega
  · rw [h.capacity_eq, hbound, Nat.add_sub_cancel]
  · intro hne
    rw [List.head?_eq_getElem?, ← hread 0 (hpos hne), h.internal_zero]
    rfl
  · intro hne
    have hsub : usize.sub s.size 1 = s.size - 1 := h.sub_eq (Nat.le_of_lt hsize) (hpos hne)
    have hlast : s.size - 1 < s.size := Nat.sub_lt (hpos hne) Nat.one_pos
    rw [List.getLast?_eq_getElem?, ← hlen, ← hread (s.size - 1) hlast, ← hsub]
    rfl

/-! ### Construction -/

/-- A buffer constructed with a capacity is empty. -/
theorem contains_with_capacity {A : Allocator} {n : Nat} {s : RingBuffer α} (hn : n + 1 < 2 ^ 64)
    (h : with_capacity A E n = some s) : Contains E s (BoundedList.empty n) := by
  have hsound := sound_with_capacity hn h
  obtain ⟨-, -, -, -, hw, hs, hcap⟩ := with_capacity_some hn h
  refine ⟨hsound, ?_, hcap, ?_⟩
  · rw [hsound.size_eq, hw, hs]
    rfl
  · intro j x hx
    simp [BoundedList.empty] at hx

/-- The loop of the constructor that takes values. -/
theorem fill_spec (E : ElementType α) (values : List α) {st : Storage α} {m : Nat}
    (hm : values.length < m) (hst : st.Inside E m) :
    ∀ n, n ≤ values.length →
      (loop (fun index (st : Storage α) =>
        (st.construct index values[index]?).set_constructed E index true) n st).Inside E m ∧
      ∀ j, j < n → ∃ id, (loop (fun index (st : Storage α) =>
        (st.construct index values[index]?).set_constructed E index true) n st).m_buffer.cell j
          = ⟨values[j]?, some id⟩ := by
  intro n
  induction n with
  | zero =>
      intro _
      exact ⟨hst, fun j hj => absurd hj (Nat.not_lt_zero j)⟩
  | succ n ih =>
      intro hn
      obtain ⟨hin, hcells⟩ := ih (by omega)
      refine ⟨(hin.construct (by omega) _).set_constructed (by omega) true, fun j hj => ?_⟩
      obtain ⟨id, hid⟩ := Storage.construct_cell (loop (fun index (st : Storage α) =>
        (st.construct index values[index]?).set_constructed E index true) n st) n values[n]?
      rw [loop, Storage.set_constructed_cell, hid]
      rcases Nat.lt_or_eq_of_le (Nat.le_of_lt_succ hj) with hlt | rfl
      · rw [Function.update_of_ne (Nat.ne_of_lt hlt)]
        exact hcells j hlt
      · exact ⟨id, Function.update_self _ _ _⟩

/-- A buffer constructed from values holds them. -/
theorem contains_of_values {A : Allocator} {values : List α} {s : RingBuffer α}
    (hn : values.length + 1 < 2 ^ 64) (h : of_values A E values = some s) :
    Contains E s (BoundedList.ofList values) := by
  obtain ⟨c, hc, hstorage, hshape, hstart, hcap, hsize⟩ := of_values_some hn h
  have hinside : Storage.Inside E (values.length + 1)
      (⟨Arena.fresh (values.length + 1), c⟩ : Storage α) := ⟨⟨rfl, rfl⟩, checker_size hc⟩
  obtain ⟨hin, hcells⟩ := fill_spec E values (Nat.lt_succ_self _) hinside values.length
    (Nat.le_refl _)
  rw [← hstorage] at hin hcells
  refine ⟨⟨hshape, hcap ▸ hin⟩, hsize, hcap, ?_⟩
  intro j x hx
  have hj : j < values.length := (List.getElem?_eq_some_iff.mp hx).1
  rw [hshape.internal_of_start hstart (by omega), ← (show values[j]? = some x from hx)]
  exact hcells j hj

/-! ### Programs -/

/-- The calls that work at the two ends. -/
def Op.AtEnds : Op α → Prop
  | .push_back _ | .emplace_back _ | .pop_front | .pop_back | .clear => True
  | _ => False

instance : (op : Op α) → Decidable op.AtEnds
  | .push_back _ | .emplace_back _ | .pop_front | .pop_back | .clear => isTrue trivial
  | .emplace _ _ | .insert _ _ | .insert_emplace _ _ | .erase _ | .erase_range _ _ | .reserve _
  | .at' _ | .subscript _ | .front | .back | .iterate => isFalse id

/-- What a call does to the list, and what it returns. -/
def list_step (b : BoundedList α) : Op α → Output α × BoundedList α
  | .push_back v => (.done, b.push v)
  | .emplace_back v => (.element (some v), b.push v)
  | .pop_front => (.popped (b.popFront.1.map some), b.popFront.2)
  | .pop_back => (.popped (b.popBack.1.map some), b.popBack.2)
  | .clear => (.done, b.clear)
  | _ => (.done, b)

/-- Whatever is called, the calls return what the list gives, and so do the queries afterwards. -/
def RefinesList (A : Allocator) (E : ElementType α) (s₀ : RingBuffer α) (b₀ : BoundedList α) :
    Prop :=
  ∀ (ops : List (Op α)) (outs : List (Output α)) (s : RingBuffer α),
    Machine.Run (step A E) (fun _ op => op.AtEnds) s₀ ops outs s →
    outs = (Machine.trace list_step b₀ ops).1 ∧ Agrees s (Machine.trace list_step b₀ ops).2

/-- **One call does to the buffer what it does to the list.** -/
theorem Contains.step {A : Allocator} {s s' : RingBuffer α} {b : BoundedList α} {op : Op α}
    {o : Output α} (h : Contains E s b) (hop : op.AtEnds) (hstep : s.step A E op = some (o, s')) :
    o = (list_step b op).1 ∧ Contains E s' (list_step b op).2 := by
  cases op with
  | push_back v => cases hstep; exact ⟨rfl, h.push_back v⟩
  | emplace_back v =>
      cases hstep
      obtain ⟨hvalue, hpush⟩ := h.emplace_back v
      exact ⟨congrArg Output.element hvalue, hpush⟩
  | pop_front =>
      cases hstep
      obtain ⟨hvalue, hpop⟩ := h.pop_front
      exact ⟨congrArg Output.popped hvalue, hpop⟩
  | pop_back =>
      cases hstep
      obtain ⟨hvalue, hpop⟩ := h.pop_back
      exact ⟨congrArg Output.popped hvalue, hpop⟩
  | clear => cases hstep; exact ⟨rfl, h.clear⟩
  | _ => exact absurd hop id

theorem Contains.refines (A : Allocator) {s₀ : RingBuffer α} {b₀ : BoundedList α}
    (h : Contains E s₀ b₀) : RefinesList A E s₀ b₀ := by
  intro ops outs s hrun
  have hkeep : ∀ (s : RingBuffer α) (b : BoundedList α) (op : Op α) (o : Output α)
      (s' : RingBuffer α), Contains E s b → op.AtEnds → s.step A E op = some (o, s') →
      o = (list_step b op).1 ∧ Contains E s' (list_step b op).2 := by
    intro s b op o s' hR hop hstep
    exact hR.step hop hstep
  obtain ⟨houts, hfinal⟩ := hrun.refines hkeep h
  exact ⟨houts, hfinal.agrees⟩

end Hyperion.RingBuffer
