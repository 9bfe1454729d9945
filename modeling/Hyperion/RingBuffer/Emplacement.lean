/-
What `emplace` replaces.

It constructs the new element in the slot of the position, and if that slot holds an object
already, destroys one first: the one in the slot of the write index.  That slot is the
spacer, which is no element's, so the element at the position is never destroyed and its
object is overwritten while it is alive.
-/
import Hyperion.RingBuffer.Growth

namespace Hyperion

variable {α : Type} {E : ElementType α}

namespace Storage

@[simp] theorem is_constructed_dead (E : ElementType α) (st : Storage α) (i : Nat) :
    (st.is_constructed E i).2.m_buffer.dead = st.m_buffer.dead := by
  unfold is_constructed; split <;> simp

@[simp] theorem set_constructed_dead (E : ElementType α) (st : Storage α) (i : Nat) (b : Bool) :
    (st.set_constructed E i b).m_buffer.dead = st.m_buffer.dead := by
  unfold set_constructed; split <;> simp

@[simp] theorem construct_dead (st : Storage α) (i : Nat) (v : Option α) :
    (st.construct i v).m_buffer.dead = st.m_buffer.dead := st.m_buffer.construct_dead i v

@[simp] theorem destroy_dead (st : Storage α) (i : Nat) : (st.destroy i).m_buffer.dead
    = st.m_buffer.dead ++ (st.m_buffer.cell i).object.toList := st.m_buffer.destroy_dead i

end Storage

namespace RingBuffer

variable {A : Allocator} {s : RingBuffer α} {p : Nat}

/-- The element at `p` was destroyed once, the new one is in its slot, and every other slot is
as it was, with the object that is alive in it. -/
structure Replaced (s : RingBuffer α) (p : Nat) (v : α) (s' : RingBuffer α) : Prop where
  old : ∃ id, (s.m_buffer.cell (s.get_adjusted_internal_index p)).object = some id ∧
    s'.m_buffer.dead = s.m_buffer.dead ++ [id]
  new : ∃ id, s'.m_buffer.cell (s.get_adjusted_internal_index p) = ⟨some v, some id⟩
  others : ∀ i, i ≠ s.get_adjusted_internal_index p → s'.m_buffer.cell i = s.m_buffer.cell i
  size : s'.size = s.size
  inside : s'.m_buffer.oob = []
  misuse : s'.m_buffer.misuse = s.m_buffer.misuse

/-! ### What is destroyed -/

/-- The object that goes is the spacer's. -/
theorem emplace_dead (hE : E.trivially_destructible = false) (s : RingBuffer α) (p : Nat) (v : α) :
    (s.emplace E p v).2.m_buffer.dead = s.m_buffer.dead ++
      if s.m_constructed.m_flags (s.get_adjusted_internal_index p)
        then (s.m_buffer.cell s.m_write_index).object.toList else [] := by
  have hflag : (s.is_constructed E (s.get_adjusted_internal_index p)).1
      = s.m_constructed.m_flags (s.get_adjusted_internal_index p) := by
    rw [Storage.is_constructed, hE, if_neg Bool.false_ne_true]
  unfold RingBuffer.emplace RingBuffer.slot
  simp only [hflag]
  by_cases hp : s.m_constructed.m_flags (s.get_adjusted_internal_index p) = true
  · simp [hp]
  · simp [hp]

/-- An object destroyed in the spacer is gone from there. -/
theorem emplace_spacer (hE : E.trivially_destructible = false)
    (hflag : s.m_constructed.m_flags (s.get_adjusted_internal_index p) = true)
    (hne : s.m_write_index ≠ s.get_adjusted_internal_index p) (v : α) :
    ((s.emplace E p v).2.m_buffer.cell s.m_write_index).object = none := by
  have hoccupied : (s.is_constructed E (s.get_adjusted_internal_index p)).1 = true := by
    rw [Storage.is_constructed, hE, if_neg Bool.false_ne_true]
    exact hflag
  unfold RingBuffer.emplace RingBuffer.slot
  simp only [hoccupied, if_pos, Arena.touch_cell, Storage.set_constructed_cell]
  obtain ⟨id, hid⟩ := Storage.construct_cell
    ((s.is_constructed E (s.get_adjusted_internal_index p)).2.destroy s.m_write_index)
    (s.get_adjusted_internal_index p) (some v)
  rw [hid, Function.update_of_ne hne, Storage.destroy_cell, Function.update_self]

/-- Without slots the new element is constructed outside them. -/
theorem emplace_no_slots (hslots : s.m_buffer.slots = 0) (v : α) :
    (s.emplace E p v).2.m_buffer.oob ≠ [] := by
  unfold RingBuffer.emplace RingBuffer.slot
  refine Arena.touch_oob_ne (.inl (set_constructed_oob_ne ?_ _ _))
  refine Arena.construct_oob_ne (.inr (Nat.le_trans (Nat.le_of_eq ?_) (Nat.zero_le _))) _
  split
  · rw [Storage.destroy_slots, Storage.is_constructed_slots, hslots]
  · rw [Storage.is_constructed_slots, hslots]

/-- Where the position is not the spacer's, the element is not the one destroyed. -/
theorem Shape.not_replaced (h : Shape s) (hE : E.trivially_destructible = false)
    (hp : p < s.size) (v : α) : ¬Replaced s p v (s.emplace E p v).2 := by
  rintro ⟨⟨id, -, hdead⟩, -, hothers, -, -, -⟩
  have hne : s.m_write_index ≠ s.get_adjusted_internal_index p := by
    intro hc
    have hend := (h.internal_eq_write_iff (Nat.le_of_lt hp)).mp hc.symm
    omega
  rw [emplace_dead hE] at hdead
  have hone := List.append_cancel_left hdead
  by_cases hflag : s.m_constructed.m_flags (s.get_adjusted_internal_index p) = true
  · -- what was destroyed was alive in the spacer, and the spacer should be as it was
    rw [if_pos hflag] at hone
    have halive : (s.m_buffer.cell s.m_write_index).object ≠ none := by
      intro hnone
      rw [hnone] at hone
      cases hone
    rw [← hothers _ hne] at halive
    exact halive (emplace_spacer hE hflag hne v)
  · rw [if_neg hflag] at hone
    cases hone

/--
**`emplace` replaces no element,** of no type with a destructor, in no state that a program
reaches within the arrays, and at no position.
-/
theorem never_replaced {s₀ : RingBuffer α} {ops : List (Op α)} {outs : List (Output α)}
    (hE : E.trivially_destructible = false) (h₀ : Built A E s₀)
    (hrun : Machine.Run (step A E) (Proper E) s₀ ops outs s) (hp : p < s.size) (v : α) :
    ¬Replaced s p v (s.emplace E p v).2 := by
  rcases fitted_run h₀ hrun with ⟨n, m, h⟩ | ⟨-, hslots⟩
  · exact h.toShape.not_replaced hE hp v
  · exact fun hreplaced => emplace_no_slots hslots v hreplaced.inside

/-- In front of a buffer of two that is full. -/
theorem never_replaced_front : ∃ s₀ outs s,
    Machine.Run (step Allocator.large ElementType.owning) (Proper ElementType.owning) s₀
      [.push_back 1, .push_back 2] outs s ∧ s.size = 2 ∧
    ¬Replaced s 0 3 (s.emplace ElementType.owning 0 3).2 := by
  obtain ⟨s₀, outs, s, h₀, hrun, hsize⟩ := Machine.exists_run
    (step Allocator.large ElementType.owning) (Proper ElementType.owning)
    (with_capacity Allocator.large ElementType.owning 2) [.push_back 1, .push_back 2]
    (fun r => decide (r.2.size = 2)) (by decide +kernel)
  have hsize : s.size = 2 := of_decide_eq_true hsize
  exact ⟨s₀, outs, s, hrun, hsize, never_replaced rfl (.inl ⟨2, by decide, h₀⟩) hrun
    (by omega) 3⟩

/-- Emplacing over the only element of a buffer destroys nothing. -/
theorem emplaced_over_front : ¬ ∀ (A : Allocator) (E : ElementType Nat) (s₀ s : RingBuffer Nat)
    (ops : List (Op Nat)) (outs : List (Output Nat)) (p v : Nat),
    E.trivially_destructible = false → Built A E s₀ →
    Machine.Run (step A E) (Proper E) s₀ ops outs s → p < s.size →
    Replaced s p v (s.emplace E p v).2 := by
  intro hclaim
  obtain ⟨s₀, outs, s, h₀, hrun, hnone⟩ := Machine.exists_run
    (step Allocator.large ElementType.owning) (Proper ElementType.owning)
    (with_capacity Allocator.large ElementType.owning 2) [.push_back 1]
    (fun r => decide (0 < r.2.size ∧
      (r.2.emplace ElementType.owning 0 2).2.m_buffer.dead = [])) (by decide +kernel)
  obtain ⟨hsize, hnone⟩ : 0 < s.size ∧ _ := of_decide_eq_true hnone
  obtain ⟨id, -, hdead⟩ := (hclaim _ _ _ _ _ _ 0 2 rfl (.inl ⟨2, by decide, h₀⟩) hrun
    hsize).old
  rw [hnone] at hdead
  exact List.append_ne_nil_of_right_ne_nil _ (List.cons_ne_nil id []) hdead.symm

end RingBuffer

end Hyperion
