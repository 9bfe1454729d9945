/-
Moving the queue.

A move hands over `m_read`, `m_write` and `m_size`, and `set_all` takes the size for
`m_max_read` as well.  The size is where the elements end only if `m_read` is zero: once
something was popped, the queue that comes out ends too early.
-/
import Hyperion.LockFreeQueue.AsNew

namespace Hyperion.LockFreeQueue

variable {α : Type} {T : QueueElement α} {q q' : LockFreeQueue α} {b : BoundedList α} {R : Nat}

/-- What a move hands over. -/
structure MovedFrom (q q' : LockFreeQueue α) : Prop where
  buffer : q'.m_buffer = q.m_buffer
  read : q'.m_read = q.m_read
  write : q'.m_write = q.m_write
  max_read : q'.m_max_read = q.m_size
  size : q'.m_size = q.m_size
  capacity : q'.m_capacity = q.m_capacity

theorem moved_constructed (q : LockFreeQueue α) : MovedFrom q q.move_construct.1 :=
  ⟨rfl, rfl, rfl, rfl, rfl, rfl⟩

theorem moved_assigned (target q : LockFreeQueue α) : MovedFrom q (target.move_assign q).1 :=
  ⟨rfl, rfl, rfl, rfl, rfl, rfl⟩

/-- With nothing popped, the size is where the elements end. -/
theorem MovedFrom.represents (h : Represents q b R) (hmoved : MovedFrom q q')
    (hread : q.m_read = 0) : Represents q' b R := by
  have hlen : b.items.length < 2 ^ 32 := Nat.lt_of_le_of_lt b.fits h.bound_lt
  refine ⟨hmoved.capacity.trans h.capacity, h.bound_lt, hmoved.read.trans h.read,
    hmoved.write.trans h.write, ?_, hmoved.size.trans h.size, ?_, ?_, h.distinct⟩
  · have hstart : R % 2 ^ 32 = 0 := h.read.symm.trans hread
    rw [hmoved.max_read, h.size]
    omega
  · rw [hmoved.buffer]
    exact h.slots
  · rw [hmoved.buffer]
    exact h.held

/-- Otherwise the elements end elsewhere. -/
theorem MovedFrom.read_of_as_new (h : Represents q b R) (hmoved : MovedFrom q q')
    (hpos : 0 < q.m_capacity) (hnew : AsNew T q' b.items) : q.m_read = 0 := by
  have hlen : b.items.length < 2 ^ 32 := Nat.lt_of_le_of_lt b.fits h.bound_lt
  have hfits : b.items.length ≤ q'.m_capacity := by
    rw [hmoved.capacity, h.capacity]
    exact b.fits
  have hc : q'.m_capacity < 2 ^ 32 := by
    rw [hmoved.capacity, h.capacity]
    exact h.bound_lt
  have hread := hmoved.read.trans h.read
  have hsize := hmoved.size.trans h.size
  have hmax := hmoved.max_read.trans h.size
  rw [← hmoved.capacity] at hpos
  rw [h.read]
  by_cases hturn : b.items.length < 2 ^ 32 - 1
  · have hend := hnew.max_read hfits hc hread hsize hpos hturn
    rw [hmax] at hend
    omega
  · -- the counter of what can be read is the last number, and a push counts it up to zero
    have hgo := hnew.goes_on hfits hc hread hsize hpos
    rw [hmax, ← Nat.mod_eq_of_lt hlen, u32.add_mod_left] at hgo
    omega

/-- A queue without slots stays as it is. -/
theorem stays_new {ops : List (Op α)} {outs : List (Output α)}
    (hrun : Machine.Run (step T) (fun _ _ => True) (with_capacity T 0) ops outs q) :
    q = with_capacity T 0 := by
  have hsize : (with_capacity T 0).increment_size = (false, with_capacity T 0) :=
    (represents_new (T := T) (by decide)).increment_size
  have hnone : (with_capacity T 0).nothing_to_read = true := by
    rw [nothing_to_read, decide_eq_true_iff]
    show 0 < u32.add 0 1
    rw [u32.add_eq (by decide)]
    decide
  refine hrun.invariant (P := fun q => q = with_capacity T 0) ?_ rfl
  rintro q op out q' rfl _ hstep
  cases op with
  | try_push_back v | try_emplace_back v =>
      cases hstep
      show ((with_capacity T 0).try_push_back v).2 = _
      unfold try_push_back
      rw [hsize]
      rfl
  | pop_front =>
      cases hstep
      show ((with_capacity T 0).pop_front T).2 = _
      unfold LockFreeQueue.pop_front
      rw [if_pos hnone]
  | empty | full | size => cases hstep; rfl

/-- What a move promises of a queue that holds `l`. -/
structure Moves (T : QueueElement α) (q q' : LockFreeQueue α) (l : List α) : Prop where
  capacity : q'.m_capacity = q.m_capacity
  goes_on : AsNew T q' l

/-- **A move keeps what the queue holds exactly if nothing was popped.** -/
theorem MovedFrom.keeps_iff (h : Represents q b R) (hmoved : MovedFrom q q')
    (hpos : q.m_capacity = 0 → q.m_read = 0) : Moves T q q' b.items ↔ q.m_read = 0 := by
  constructor
  · intro hmoves
    rcases Nat.eq_zero_or_pos q.m_capacity with hzero | hpos
    · exact hpos hzero
    · exact hmoved.read_of_as_new h hpos hmoves.goes_on
  · intro hread
    exact ⟨hmoved.capacity,
      as_new_of_represents (hmoved.represents h hread) (hmoved.read.trans hread)⟩

/--
**Move construction and move assignment give a queue that holds the same elements and goes on
with them,** after every run of one thread that is not affected by the wrap, exactly if its read
counter is zero.
-/
theorem moves_iff {c : Nat} (hc : c < 2 ^ 32) {ops : List (Op α)} {outs : List (Output α)}
    (hrun : Machine.Run (step T) NotAcrossWrap (with_capacity T c) ops outs q)
    (target : LockFreeQueue α) :
    (Moves T q q.move_construct.1 (Machine.trace list_step (BoundedList.empty c) ops).2.items ∧
      Moves T q (target.move_assign q).1
        (Machine.trace list_step (BoundedList.empty c) ops).2.items) ↔ q.m_read = 0 := by
  obtain ⟨-, R, hrep⟩ := refines_list_of hc hrun
  have hslots : q.m_capacity = 0 → q.m_read = 0 := by
    intro hzero
    rw [hrep.capacity, list_bound] at hzero
    cases hzero
    rw [stays_new hrun.any]
    rfl
  rw [(moved_constructed q).keeps_iff hrep hslots, (moved_assigned target q).keeps_iff hrep hslots,
    and_self]

/-- Two elements from which nothing was popped. -/
theorem moves_two : ∃ outs q, Machine.Run (step QueueElement.owning) NotAcrossWrap
    (with_capacity QueueElement.owning 3) [.try_push_back 5, .try_push_back 6] outs q ∧
    Moves QueueElement.owning q q.move_construct.1 [5, 6] ∧
    Moves QueueElement.owning q ((with_capacity QueueElement.owning 1).move_assign q).1 [5, 6] := by
  obtain ⟨q₀, outs, q, hq, hrun, hready⟩ := Machine.exists_run (step QueueElement.owning)
    NotAcrossWrap (some (with_capacity QueueElement.owning 3))
    [.try_push_back 5, .try_push_back 6] (fun r => decide (r.2.m_read = 0)) (by decide +kernel)
  cases hq
  have hread : q.m_read = 0 := of_decide_eq_true hready
  exact ⟨outs, q, hrun, (moves_iff (by decide) hrun _).mpr hread⟩

/-- What was pushed after a pop is not found after the move. -/
theorem move_loses_element : ¬ ∀ (T : QueueElement Nat) (c : Nat) (ops : List (Op Nat))
    (outs : List (Output Nat)) (q target : LockFreeQueue Nat), c < 2 ^ 32 →
    Machine.Run (step T) NotAcrossWrap (with_capacity T c) ops outs q →
    Moves T q q.move_construct.1 (Machine.trace list_step (BoundedList.empty c) ops).2.items ∧
      Moves T q (target.move_assign q).1
        (Machine.trace list_step (BoundedList.empty c) ops).2.items := by
  intro hclaim
  obtain ⟨q₀, outs, q, hq, hrun, hpopped⟩ := Machine.exists_run (step QueueElement.owning)
    NotAcrossWrap (some (with_capacity QueueElement.owning 2))
    [.try_push_back 1, .pop_front, .try_push_back 2]
    (fun r => decide (r.2.m_capacity = 2 ∧ r.2.m_read = 1)) (by decide +kernel)
  cases hq
  obtain ⟨hcapacity, hread⟩ : q.m_capacity = 2 ∧ q.m_read = 1 := of_decide_eq_true hpopped
  obtain ⟨-, R, hrep⟩ := refines_list_of (by decide) hrun
  have hmoves := (hclaim _ 2 _ _ _ q (by decide) hrun).1
  have hstart := (moved_constructed q).read_of_as_new hrep (by omega) hmoves.goes_on
  omega

end Hyperion.LockFreeQueue
