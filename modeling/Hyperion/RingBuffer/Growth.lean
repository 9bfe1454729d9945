/-
What `reserve` leaves in the buffer.

The elements go to the slots from 0 on of a new allocation, and the write index to where it
would be if the old one had been full: what was not full has elements afterwards that were
never there.  It grows only for more than the internal capacity, which is one more than
the buffer can hold, and a buffer asked for just that one more stays as it is.  The new
flags are one less than the slots, which the pushes up to the capacity asked for do not
notice; the one after them is out of bounds.

All this is said of every buffer that a program can come to have, whatever it did before:
positions are compared by the bytes in their slots, also where an earlier insertion or
erasure left no object in one.
-/
import Hyperion.RingBuffer.Insertion

namespace Hyperion.RingBuffer

variable {α : Type} {A : Allocator} {E : ElementType α} {n m : Nat} {s t : RingBuffer α}

/-! ### Appending -/

/-- What is in the slot of a position. -/
def element (s : RingBuffer α) (i : Nat) : Cell α :=
  s.m_buffer.cell (s.get_adjusted_internal_index i)

/-- The elements of `s` and behind them `vs`, and nothing was out of bounds. -/
structure Appends (s : RingBuffer α) (vs : List α) (t : RingBuffer α) : Prop where
  size : t.size = s.size + vs.length
  value : ∀ i, i < s.size → (t.element i).value = (s.element i).value
  object : ∀ i, i < s.size → (s.element i).object.isSome = true →
    (t.element i).object.isSome = true
  added : ∀ i v, vs[i]? = some v → ∃ id, t.element (s.size + i) = ⟨some v, some id⟩
  oob : t.m_buffer.oob = []

namespace Appends

/-- Nothing behind the elements. -/
theorem nil (hsize : t.size = s.size)
    (helements : ∀ i, i < s.size → (t.element i).value = (s.element i).value ∧
      ((s.element i).object.isSome = true → (t.element i).object.isSome = true))
    (hoob : t.m_buffer.oob = []) : Appends s [] t :=
  ⟨hsize, fun i hi => (helements i hi).1, fun i hi => (helements i hi).2,
    fun i v hv => by simp at hv, hoob⟩

theorem append {u : RingBuffer α} {vs ws : List α} (h : Appends s vs t) (h' : Appends t ws u) :
    Appends s (vs ++ ws) u := by
  have hsize := h.size
  refine ⟨by rw [h'.size, h.size, List.length_append, Nat.add_assoc], fun i hi => ?_,
    fun i hi hobject => ?_, fun i v hv => ?_, h'.oob⟩
  · rw [h'.value i (by omega), h.value i hi]
  · exact h'.object i (by omega) (h.object i hi hobject)
  · rcases Nat.lt_or_ge i vs.length with hlt | hge
    · rw [List.getElem?_append_left hlt] at hv
      obtain ⟨id, hcell⟩ := h.added i v hv
      have hvalue := h'.value (s.size + i) (by omega)
      have hobject := h'.object (s.size + i) (by omega) (by rw [hcell]; rfl)
      obtain ⟨id', hid⟩ := Option.isSome_iff_exists.mp hobject
      rw [hcell] at hvalue
      refine ⟨id', ?_⟩
      calc u.element (s.size + i)
          = ⟨(u.element (s.size + i)).value, (u.element (s.size + i)).object⟩ := rfl
        _ = ⟨some v, some id'⟩ := by rw [hvalue, hid]
    · rw [List.getElem?_append_right hge] at hv
      obtain ⟨id, hcell⟩ := h'.added (i - vs.length) v hv
      rw [show s.size + i = t.size + (i - vs.length) by omega]
      exact ⟨id, hcell⟩

end Appends

/-- Pushing one after the other. -/
def pushes (E : ElementType α) (vs : List α) (s : RingBuffer α) : RingBuffer α :=
  vs.foldl (fun s v => s.push_back E v) s

@[simp] theorem is_constructed_flags (E : ElementType α) (st : Storage α) (i : Nat) :
    (st.is_constructed E i).2.m_constructed = st.m_constructed := by
  unfold Storage.is_constructed
  split <;> rfl

theorem set_constructed_oob_ne {st : Storage α} (h : st.m_buffer.oob ≠ []) (i : Nat) (b : Bool) :
    (st.set_constructed E i b).m_buffer.oob ≠ [] := by
  unfold Storage.set_constructed
  split
  · exact h
  · exact Arena.touch_oob_ne (.inl h)

namespace Fitted

end Fitted

/-- The capacity of a buffer without slots has wrapped around. -/
theorem capacity_no_slots (hnone : s.m_capacity = 0) : s.capacity = 2 ^ 64 - 1 := by
  rw [capacity, hnone, usize.sub]
  rfl

/-- A step of a buffer that has slots, with valid iterators, and within the two arrays. -/
def Proper (E : ElementType α) (s : RingBuffer α) (op : Op α) : Prop :=
  0 < s.m_capacity ∧ s.InRange op ∧ s.WithinArrays E op

instance (s : RingBuffer α) (op : Op α) : Decidable (s.Proper E op) :=
  inferInstanceAs (Decidable (_ ∧ _))

/-- A constructor allocates as many slots as it says. -/
theorem built_slots (h : Built A E s) : s.m_buffer.slots = s.m_capacity := by
  rcases h with ⟨n, -, h⟩ | ⟨values, -, h⟩
  · simp only [with_capacity, Option.bind_eq_bind, Option.bind_eq_some_iff, Option.some.injEq] at h
    obtain ⟨a, ha, c, -, rfl⟩ := h
    rw [(allocate_unique_some ha).2]
    rfl
  · simp only [of_values, Option.bind_eq_bind, Option.bind_eq_some_iff, Option.some.injEq] at h
    obtain ⟨a, ha, c, -, rfl⟩ := h
    refine loop_keeps (fun st : Storage α => st.m_buffer.slots = usize.add values.length 1) ?_ ?_
    · rw [(allocate_unique_some ha).2]
      rfl
    · intro i st _ hst
      rw [Storage.set_constructed_slots, Storage.construct_slots, hst]

/-- A buffer without slots was made so, and nothing proper can be done to it. -/
theorem fitted_run {s₀ : RingBuffer α} {ops : List (Op α)} {outs : List (Output α)}
    (h₀ : Built A E s₀) (hrun : Machine.Run (step A E) (Proper E) s₀ ops outs s) :
    (∃ n m, Fitted E n m s) ∨ (s.m_capacity = 0 ∧ s.m_buffer.slots = 0) := by
  refine hrun.invariant
    (P := fun s => (∃ n m, Fitted E n m s) ∨ (s.m_capacity = 0 ∧ s.m_buffer.slots = 0)) ?_ ?_
  · rintro s op o s' (⟨n, m, h⟩ | ⟨hnone, -⟩) ⟨hslots, hrange, hin⟩ hstep
    · rcases h.step hrange hin hstep with hsame | ⟨k, -, -, hgrown⟩
      · exact .inl ⟨n, m, hsame⟩
      · exact .inl ⟨k + 1, k, hgrown⟩
    · exact absurd hnone (Nat.ne_of_gt hslots)
  · rcases built_cases h₀ with hmade | hnone
    · obtain ⟨b, hb⟩ := hmade.contains
      exact .inl ⟨_, _, hb.fitted⟩
    · exact .inr ⟨hnone, (built_slots h₀).trans hnone⟩

end Hyperion.RingBuffer
