/-
The objects in the slots, under several threads.

Every access to a slot goes through a position's remainder by `m_capacity`, and assigns to
the object there or moves from it.  So whatever the order of the accesses, and however
wrong the counters may be, none is out of bounds and none finds a slot without an object:
what may go wrong is which element is read, not that one is.  A queue with no slots is
the exception, where a forced push divides by zero.
-/
import Hyperion.LockFreeQueue.Concurrent
import Hyperion.LockFreeQueue.Lifetimes

namespace Hyperion.LockFreeQueue.System

variable {ι α : Type} {T : QueueElement α}

/-- Every slot holds an object with a value, and so does what the consumer has. -/
structure Filled (s : System ι α) : Prop where
  sound : Sound s.queue
  positive : 0 < s.queue.m_capacity
  value : ∀ k, k < s.queue.m_capacity → (s.queue.m_buffer.cell k).value.isSome = true
  reading : ∀ k, s.consumer = .advanced k → ∃ r, k = r % s.queue.m_capacity
  took : ∀ ret, s.consumer = .took ret → ret.isSome = true
  returned : ∀ ret ∈ s.returned, ret.isSome = true

/-- The constructor's loop gives every slot a value. -/
theorem construct_slots_value (T : QueueElement α) {n k : Nat} (hk : k < n) :
    ((construct_slots T n (Arena.fresh n)).cell k).value.isSome = true := by
  unfold construct_slots
  refine loop_induction (fun m (a : Arena α) => ∀ k, k < m → (a.cell k).value.isSome = true)
    (fun k h => absurd h (Nat.not_lt_zero k)) ?_ k hk
  intro m a _ ha k hk
  obtain ⟨id, hcell⟩ := a.construct_cell m (some T.default)
  rw [hcell, Function.update_apply]
  by_cases hkm : k = m
  · rw [if_pos hkm]
    rfl
  · rw [if_neg hkm]
    exact ha k (by omega)

theorem filled_start (T : QueueElement α) {c : Nat} (hpos : 0 < c) :
    Filled (start T c : System ι α) where
  sound := sound_with_capacity T c
  positive := hpos
  value _ hk := construct_slots_value T hk
  reading _ h := by cases h
  took _ h := by cases h
  returned _ h := by cases h

/-- The queue's words changed, and the slots did not. -/
theorem Filled.counters {s s' : System ι α} (h : Filled s)
    (hbuffer : s'.queue.m_buffer = s.queue.m_buffer)
    (hcap : s'.queue.m_capacity = s.queue.m_capacity) (hfreed : s'.queue.freed = s.queue.freed)
    (hreading : ∀ k, s'.consumer = .advanced k → ∃ r, k = r % s'.queue.m_capacity)
    (htook : ∀ ret, s'.consumer = .took ret → ret.isSome = true)
    (hreturned : ∀ ret ∈ s'.returned, ret.isSome = true) : Filled s' where
  sound := h.sound.counters hbuffer hcap hfreed fun hzero =>
    absurd (hcap.symm.trans hzero) (Nat.ne_of_gt h.positive)
  positive := hcap ▸ h.positive
  value := by
    rw [hbuffer, hcap]
    exact h.value
  reading := hreading
  took := htook
  returned := hreturned

/-- A producer writes a position. -/
theorem Filled.assign {s s' : System ι α} (h : Filled s) {k : Nat} {v : α}
    (hqueue : s'.queue = s.queue.assign_slot k v) (hconsumer : s'.consumer = s.consumer)
    (hreturned : s'.returned = s.returned) : Filled s' := by
  refine ⟨?_, ?_, ?_, ?_, ?_, ?_⟩
  · rw [hqueue]
    exact h.sound.assign_slot h.positive k v
  · rw [hqueue]
    exact h.positive
  · intro j hj
    rw [hqueue] at hj ⊢
    show ((s.queue.m_buffer.assign (k % s.queue.m_capacity) (some v)).cell j).value.isSome = true
    rw [Arena.assign_cell, Function.update_apply]
    split
    · rfl
    · exact h.value j hj
  · rw [hqueue, hconsumer]
    exact h.reading
  · rw [hconsumer]
    exact h.took
  · rw [hreturned]
    exact h.returned

/-- The consumer moves from the slot it is at. -/
theorem Filled.move {s : System ι α} (h : Filled s) {k : Nat} (hc : s.consumer = .advanced k) :
    Filled { s with
      queue := (s.queue.move_slot T k).2, consumer := .took (s.queue.move_slot T k).1 } := by
  obtain ⟨r, rfl⟩ := h.reading k hc
  have hlt := Nat.mod_lt r h.positive
  refine ⟨h.sound.move_slot h.positive r, h.positive, ?_, nofun, ?_, h.returned⟩
  · intro j hj
    show ((s.queue.m_buffer.moveFrom T.moved (r % s.queue.m_capacity)).cell j).value.isSome = true
    rw [Arena.moveFrom_cell, Function.update_apply]
    split
    · rw [Option.isSome_map]
      exact h.value _ hlt
    · exact h.value j hj
  · intro ret hret
    cases hret
    show (s.queue.m_buffer.read (r % s.queue.m_capacity)).isSome = true
    rw [h.sound.buffer.bounds.read hlt]
    exact h.value _ hlt

variable [DecidableEq ι]

/-- **Every access finds an object in the slot it is to.** -/
theorem Filled.step {s s' : System ι α} (h : Filled s) {a : Action ι α} {e : Event α}
    (hstep : step T s a = some (e, s')) : Filled s' := by
  cases step_cases hstep with
  | call | enter | refuse | wait | give_up | overwrite | retract | claim | publish =>
      exact h.counters rfl rfl rfl h.reading h.took h.returned
  | write => exact h.assign rfl rfl rfl
  | nothing => exact h
  | check => exact h.counters rfl rfl rfl nofun nofun h.returned
  | take =>
      refine h.counters rfl rfl rfl ?_ nofun h.returned
      intro k hk
      cases hk
      exact ⟨s.queue.m_read, rfl⟩
  | move hc => exact h.move hc
  | release hc =>
      refine h.counters rfl rfl rfl nofun nofun ?_
      intro r hr
      rcases List.mem_append.mp hr with hr | hr
      · exact h.returned r hr
      · rw [List.mem_singleton.mp hr]
        exact h.took _ hc

end Hyperion.LockFreeQueue.System
