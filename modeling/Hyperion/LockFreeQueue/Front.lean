/-
Looking at the front.

`pop_front` reduces the read counter by the capacity to find the slot, `front` does not.
They agree until as many elements were popped as the queue has slots; from then on `front`
reads behind the buffer wherever there is something to read.
-/
import Hyperion.LockFreeQueue.Sequential
import Hyperion.LockFreeQueue.Lifetimes

namespace Hyperion.LockFreeQueue

variable {α : Type} {T : QueueElement α} {q : LockFreeQueue α}

/-- `front` reads inside the buffer, returns what `pop_front` would, and changes nothing. -/
structure Peeks (T : QueueElement α) (q : LockFreeQueue α) : Prop where
  inside : q.front.2.m_buffer.oob = []
  answer : q.front.1 = (q.pop_front T).1
  unchanged : q.front.2 = q

/-- The objects are there in every run. -/
theorem sound_run {q q' : LockFreeQueue α} {ops : List (Op α)} {outs : List (Output α)}
    (hrun : Machine.Run (step T) (fun _ _ => True) q ops outs q') (h : Sound q) : Sound q' := by
  refine hrun.invariant (P := Sound) ?_ h
  intro q op out q' hq _ hstep
  cases op with
  | try_push_back v | try_emplace_back v => cases hstep; exact hq.try_push_back v
  | pop_front => cases hstep; exact hq.pop_front
  | empty | full | size => cases hstep; exact hq

/-! ### One look -/

/-- Where nothing is seen, nothing is read. -/
theorem peeks_nothing (h : Sound q) (hnone : q.nothing_to_read = true) : Peeks T q := by
  have hfront : q.front = (none, q) := by rw [front, if_pos hnone]
  refine ⟨?_, ?_, ?_⟩
  · rw [hfront]
    exact h.buffer.bounds.oob
  · rw [hfront, LockFreeQueue.pop_front, if_pos hnone]
  · rw [hfront]

/-- Below the capacity the counter is the slot. -/
theorem peeks_below (h : Sound q) (hbelow : q.m_read < q.m_capacity) : Peeks T q := by
  by_cases hnone : q.nothing_to_read = true
  · exact peeks_nothing h hnone
  have hslot : q.m_read < q.m_buffer.slots := h.buffer.bounds.slots.symm ▸ hbelow
  have hholds : q.m_buffer.holds q.m_read = true :=
    (h.buffer.holds q.m_read).trans (decide_eq_true hbelow)
  have hcopy : q.m_buffer.copyFrom q.m_read = q.m_buffer := by
    rw [Arena.copyFrom, Arena.touch_of_lt hslot, hholds]
    rfl
  have hfront : q.front = (some (q.m_buffer.read q.m_read), q) := by
    rw [front, if_neg hnone, hcopy]
  refine ⟨?_, ?_, ?_⟩
  · rw [hfront]
    exact h.buffer.bounds.oob
  · rw [hfront, LockFreeQueue.pop_front, if_neg hnone]
    show some (q.m_buffer.read q.m_read) = some (q.m_buffer.read (q.m_read % q.m_capacity))
    rw [Nat.mod_eq_of_lt hbelow]
  · rw [hfront]

/-- From the capacity on it is a slot that is not there. -/
theorem not_peeks_above (h : Sound q) (hsome : ¬q.nothing_to_read = true)
    (habove : q.m_capacity ≤ q.m_read) : ¬Peeks T q := by
  intro hpeeks
  have hslot : q.m_buffer.slots ≤ q.m_read := h.buffer.bounds.slots.symm ▸ habove
  have hinside := hpeeks.inside
  rw [front, if_neg hsome] at hinside
  refine Arena.touch_oob_ne (.inr hslot) (?_ : (q.m_buffer.touch q.m_read _).oob = [])
  rw [← hinside]
  exact (Arena.note_oob _ _ _).symm

/--
**`front` is what the next `pop_front` returns, read inside the buffer and without changing the
queue,** in every run of one thread with fewer than 2^32 - 1 pushes, exactly if the queue is
empty or the read counter is below the capacity.
-/
theorem peeks_iff {c : Nat} (hc : c < 2 ^ 32) {ops : List (Op α)} {outs : List (Output α)}
    (hrun : Machine.Run (step T) (fun _ _ => True) (with_capacity T c) ops outs q)
    (hfew : (outs.map Output.pushes).sum < 2 ^ 32 - 1) :
    Peeks T q ↔ q.m_size = 0 ∨ q.m_read < q.m_capacity := by
  have hsound := sound_run hrun (sound_with_capacity T c)
  have hnew : (BoundedList.empty c : BoundedList α).items.length = 0 := rfl
  have hrun' := few_pushes hrun (represents_new hc) (by omega)
  obtain ⟨-, R, hrep, hcount⟩ := Represents.refines hrun' (represents_new hc)
  have hwrap : NotAcrossWrap q .pop_front := hrep.not_across_wrap (by omega) _
  have hempty : q.nothing_to_read = true ↔ q.m_size = 0 := by
    rw [hrep.nothing_to_read_iff hwrap, hrep.size, List.length_eq_zero_iff]
  by_cases hbelow : q.m_read < q.m_capacity
  · exact iff_of_true (peeks_below hsound hbelow) (.inr hbelow)
  · rw [or_iff_left hbelow, ← hempty]
    constructor
    · intro hpeeks
      by_contra hsome
      exact not_peeks_above hsound hsome (Nat.not_lt.mp hbelow) hpeeks
    · exact peeks_nothing hsound

/-- The second element of a queue of two, when the first was popped. -/
theorem peeks_second : ∃ outs q, Machine.Run (step QueueElement.owning) (fun _ _ => True)
    (with_capacity QueueElement.owning 2) [.try_push_back 5, .try_push_back 6, .pop_front] outs q ∧
    q.m_size = 1 ∧ Peeks QueueElement.owning q := by
  obtain ⟨q₀, outs, q, hq, hrun, hready⟩ := Machine.exists_run (step QueueElement.owning)
    (fun _ _ => True) (some (with_capacity QueueElement.owning 2))
    [.try_push_back 5, .try_push_back 6, .pop_front]
    (fun r => decide ((r.1.map Output.pushes).sum < 2 ^ 32 - 1 ∧ r.2.m_size = 1 ∧
      r.2.m_read < r.2.m_capacity)) (by decide +kernel)
  cases hq
  obtain ⟨hfew, hsize, hbelow⟩ := of_decide_eq_true hready
  exact ⟨outs, q, hrun, hsize, (peeks_iff (by decide) hrun hfew).mpr (.inr hbelow)⟩

/-- Once one element went through a queue of one slot, the next one is not found. -/
theorem peeks_behind : ¬ ∀ (T : QueueElement Nat) (c : Nat) (ops : List (Op Nat))
    (outs : List (Output Nat)) (q : LockFreeQueue Nat), c < 2 ^ 32 →
    Machine.Run (step T) (fun _ _ => True) (with_capacity T c) ops outs q →
    (outs.map Output.pushes).sum < 2 ^ 32 - 1 → Peeks T q := by
  intro hclaim
  obtain ⟨q₀, outs, q, hq, hrun, hbad⟩ := Machine.exists_run (step QueueElement.owning)
    (fun _ _ => True) (some (with_capacity QueueElement.owning 1))
    [.try_push_back 5, .pop_front, .try_push_back 6]
    (fun r => decide ((r.1.map Output.pushes).sum < 2 ^ 32 - 1 ∧
      r.2.front.2.m_buffer.oob = [(1, 1)])) (by decide +kernel)
  cases hq
  obtain ⟨hfew, hout⟩ := of_decide_eq_true hbad
  have hinside := (hclaim _ 1 _ _ _ (by decide) hrun hfew).inside
  rw [hout] at hinside
  cases hinside

end Hyperion.LockFreeQueue
