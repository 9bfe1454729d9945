/-
The objects in the slots of a queue.

A queue relies on every slot of its buffer holding an object, always: pushes assign to
the slots, pops move from them, and the destructor destroys all of them.  Its
constructors see to that, and pushing and popping keep it.  `reserve` and `clear` put
new, empty storage in place of the old, whose objects nobody destroys; the move
constructor leaves its source with a capacity and no buffer; and a move assignment
forgets the objects of its target.  Only where there are no slots is all of this
harmless.
-/
import Hyperion.LockFreeQueue.Basic

namespace Hyperion.LockFreeQueue

variable {α : Type} {T : QueueElement α}

/-- A call of a member function. -/
inductive Call (α : Type)
  | push_back (value : α)
  | try_push_back (value : α)
  | force_push_back (value : α)
  | emplace_back (value : α)
  | try_emplace_back (value : α)
  | force_emplace_back (value : α)
  | pop_front
  | reserve (new_capacity : Nat)
  | clear

/-- One call; a push that would wait forever does not return. -/
def call (T : QueueElement α) (q : LockFreeQueue α) :
    Call α → Option (Unit × LockFreeQueue α)
  | .push_back v => (q.push_back v).map fun q => ((), q)
  | .try_push_back v => some ((), (q.try_push_back v).2)
  | .force_push_back v => some ((), q.force_push_back v)
  | .emplace_back v => (q.emplace_back v).map fun q => ((), q)
  | .try_emplace_back v => some ((), (q.try_emplace_back v).2)
  | .force_emplace_back v => some ((), q.force_emplace_back v)
  | .pop_front => some ((), (q.pop_front T).2)
  | .reserve k => some ((), q.reserve k)
  | .clear => some ((), q.clear)

/-- `LockFreeQueue<T>` as a class, constructed with a capacity or without one. -/
def object_type (T : QueueElement α) :
    ObjectType (LockFreeQueue α) (Option Nat) Unit (Call α) Unit where
  construct
    | none => some (default T)
    | some initial_capacity => some (with_capacity T initial_capacity)
  construct_from _ buffer := some buffer.move_construct
  assign_from _ q buffer := some (q.move_assign buffer)
  assign_self _ q := some q.move_assign_self
  call u q := q.call T u
  destroy q := some q.destructor

/-- An allocation that was used properly and whose objects are gone. -/
def Freed (a : Arena α) : Prop := a.misuse = [] ∧ a.oob = [] ∧ a.DestroyedOnce

/-- Every slot holds an object, and a queue without slots has nothing to pop. -/
structure Sound (q : LockFreeQueue α) : Prop where
  buffer : q.m_buffer.Kept q.m_capacity fun i => decide (i < q.m_capacity)
  freed : ∀ a ∈ q.freed, Freed a
  idle : q.m_capacity = 0 → q.m_read = 0 ∧ q.m_max_read = 0 ∧ q.m_size = 0

/-- What is left when a queue is gone. -/
def Gone (q : LockFreeQueue α) : Prop := Freed q.m_buffer ∧ ∀ a ∈ q.freed, Freed a

theorem construct_slots_kept (T : QueueElement α) (n : Nat) :
    (construct_slots T n (Arena.fresh n)).Kept n fun i => decide (i < n) := by
  unfold construct_slots
  refine loop_induction (fun k (a : Arena α) => a.Kept n fun i => decide (i < k)) ?_ ?_
  · exact (Arena.Kept.fresh n).congr fun i => (decide_eq_false (Nat.not_lt_zero i)).symm
  · intro k a hk ha
    refine (ha.construct hk (decide_eq_false (Nat.lt_irrefl k)) _).congr fun i => ?_
    rw [Function.update_apply]
    by_cases hi : i = k
    · rw [if_pos hi, decide_eq_true (by omega)]
    · rw [if_neg hi]
      exact decide_eq_decide.mpr (by omega)

theorem sound_with_capacity (T : QueueElement α) (n : Nat) : Sound (with_capacity T n) :=
  ⟨construct_slots_kept T n, fun _ ha => (by cases ha), fun _ => ⟨rfl, rfl, rfl⟩⟩

/-- Storage without slots, freed. -/
theorem Sound.freed_empty {q : LockFreeQueue α} (h : Sound q) (hzero : q.m_capacity = 0) :
    Freed q.m_buffer := by
  refine ⟨h.buffer.misuse, h.buffer.bounds.oob, h.buffer.destroyed_once fun i => ?_⟩
  rw [hzero]
  rfl

/-- A queue with the same slots and no fewer obligations to `idle`. -/
theorem Sound.counters {q q' : LockFreeQueue α} (h : Sound q) (hbuffer : q'.m_buffer = q.m_buffer)
    (hcapacity : q'.m_capacity = q.m_capacity) (hfreed : q'.freed = q.freed)
    (hidle : q'.m_capacity = 0 → q'.m_read = 0 ∧ q'.m_max_read = 0 ∧ q'.m_size = 0) :
    Sound q' := by
  refine ⟨?_, ?_, hidle⟩
  · rw [hbuffer, hcapacity]; exact h.buffer
  · rw [hfreed]; exact h.freed

/-- Any slot there is can be assigned to. -/
theorem Sound.assign_slot {q : LockFreeQueue α} (h : Sound q) (hpos : 0 < q.m_capacity)
    (write : Nat) (v : α) : Sound (q.assign_slot write v) :=
  ⟨h.buffer.assign (Nat.mod_lt _ hpos) (decide_eq_true (Nat.mod_lt _ hpos)) _, h.freed, h.idle⟩

/-- Any slot there is can be moved from. -/
theorem Sound.move_slot {q : LockFreeQueue α} (h : Sound q) (hpos : 0 < q.m_capacity)
    (read : Nat) : Sound (q.move_slot T (read % q.m_capacity)).2 :=
  ⟨h.buffer.moveFrom (Nat.mod_lt _ hpos) (decide_eq_true (Nat.mod_lt _ hpos)) _, h.freed, h.idle⟩

/-- Only a queue with slots admits a push, and one without stays as it is. -/
theorem Sound.increment_size {q : LockFreeQueue α} (h : Sound q) :
    Sound q.increment_size.2 ∧ q.increment_size.2.m_capacity = q.m_capacity ∧
      (q.increment_size.1 = true → 0 < q.m_capacity) := by
  unfold LockFreeQueue.increment_size size_fetch_add size_fetch_sub
  simp only
  split
  · refine ⟨h.counters rfl rfl rfl ?_, rfl, fun hf => (by cases hf)⟩
    intro hzero
    obtain ⟨hread, hmax, hsize⟩ := h.idle hzero
    refine ⟨hread, hmax, ?_⟩
    show u32.sub (u32.add q.m_size 1) 1 = 0
    rw [hsize, u32.sub_add_one (by decide)]
  · rename_i hroom
    have hpos : 0 < q.m_capacity := by omega
    refine ⟨h.counters rfl rfl rfl ?_, rfl, fun _ => hpos⟩
    intro hzero
    exact absurd hzero (Nat.ne_of_gt hpos)

theorem Sound.push_admitted {q : LockFreeQueue α} (h : Sound q) (hpos : 0 < q.m_capacity)
    (v : α) : Sound (q.push_admitted v) := by
  have hclaimed : Sound (q.write_fetch_add).2 := h.counters rfl rfl rfl h.idle
  have hwritten := hclaimed.assign_slot hpos q.m_write v
  refine hwritten.counters rfl rfl rfl ?_
  intro hzero
  exact absurd hzero (Nat.ne_of_gt hpos)

theorem Sound.try_push_back {q : LockFreeQueue α} (h : Sound q) (v : α) :
    Sound (q.try_push_back v).2 := by
  obtain ⟨hkept, hcapacity, hadmitted⟩ := h.increment_size
  unfold LockFreeQueue.try_push_back
  rcases hinc : q.increment_size with ⟨admitted, q'⟩
  rw [hinc] at hkept hcapacity hadmitted
  cases admitted with
  | false => exact hkept
  | true => exact hkept.push_admitted (hcapacity ▸ hadmitted rfl) v

theorem Sound.push_back {q q' : LockFreeQueue α} (h : Sound q) {v : α}
    (hpush : q.push_back v = some q') : Sound q' := by
  obtain ⟨hkept, hcapacity, hadmitted⟩ := h.increment_size
  unfold LockFreeQueue.push_back at hpush
  rcases hinc : q.increment_size with ⟨admitted, q₁⟩
  rw [hinc] at hkept hcapacity hadmitted hpush
  cases admitted with
  | false => cases hpush
  | true =>
      cases hpush
      exact hkept.push_admitted (hcapacity ▸ hadmitted rfl) v

theorem Sound.force_push_back {q : LockFreeQueue α} (h : Sound q) (hpos : 0 < q.m_capacity)
    (v : α) : Sound (q.force_push_back v) := by
  obtain ⟨hkept, hcapacity, hadmitted⟩ := h.increment_size
  unfold LockFreeQueue.force_push_back
  rcases hinc : q.increment_size with ⟨admitted, q'⟩
  rw [hinc] at hkept hcapacity hadmitted
  have hpos' : 0 < q'.m_capacity := hcapacity ▸ hpos
  cases admitted with
  | false =>
      have hretracted : Sound (q'.max_read_fetch_sub).2 :=
        hkept.counters rfl rfl rfl fun hzero => absurd hzero (Nat.ne_of_gt hpos')
      have hwritten := hretracted.assign_slot hpos' q'.m_max_read v
      exact hwritten.counters rfl rfl rfl fun hzero => absurd hzero (Nat.ne_of_gt hpos')
  | true => exact hkept.push_admitted hpos' v

theorem Sound.pop_front {q : LockFreeQueue α} (h : Sound q) : Sound (q.pop_front T).2 := by
  unfold LockFreeQueue.pop_front
  split
  · exact h
  · rename_i hsees
    have hpos : 0 < q.m_capacity := by
      by_contra hnot
      have hzero : q.m_capacity = 0 := by omega
      obtain ⟨hread, hmax, -⟩ := h.idle hzero
      rw [nothing_to_read, decide_eq_true_iff, hread, hmax, u32.add_eq (by decide)] at hsees
      exact hsees Nat.one_pos
    have hadvanced : Sound (q.read_increment).2 :=
      h.counters rfl rfl rfl fun hzero => absurd hzero (Nat.ne_of_gt hpos)
    have hmoved := hadvanced.move_slot (T := T) hpos q.m_read
    exact hmoved.counters rfl rfl rfl fun hzero => absurd hzero (Nat.ne_of_gt hpos)

/-- The destructor destroys the object in every slot. -/
theorem Sound.destructor {q : LockFreeQueue α} (h : Sound q) : Gone q.destructor := by
  have hdestroyed : (loop (fun index (a : Arena α) => a.destroy index) q.m_capacity
      q.m_buffer).Kept q.m_capacity fun i => decide (q.m_capacity ≤ i ∧ i < q.m_capacity) := by
    refine loop_induction (fun k (a : Arena α) => a.Kept q.m_capacity
      fun i => decide (k ≤ i ∧ i < q.m_capacity)) ?_ ?_
    · refine h.buffer.congr fun i => decide_eq_decide.mpr (by omega)
    · intro k a hk ha
      refine (ha.destroy hk (decide_eq_true (by omega))).congr fun i => ?_
      rw [Function.update_apply]
      by_cases hi : i = k
      · rw [if_pos hi, decide_eq_false (by omega)]
      · rw [if_neg hi]
        exact decide_eq_decide.mpr (by omega)
  exact ⟨⟨hdestroyed.misuse, hdestroyed.bounds.oob,
    hdestroyed.destroyed_once fun i => decide_eq_false (by omega)⟩, h.freed⟩

/--
No storage is replaced or given away while there are slots, and no push is forced on a
queue that has none.
-/
def keeps_slots : Objects.Guard (LockFreeQueue α) (Option Nat) Unit (Call α) where
  construct_from _ buffer := buffer.m_capacity = 0
  assign_from _ q _ := q.m_capacity = 0
  assign_self _ q := q.m_capacity = 0
  call
    | .reserve k, q => k ≤ q.m_capacity
    | .clear, q => q.m_capacity = 0
    | .force_push_back _, q | .force_emplace_back _, q => 0 < q.m_capacity
    | _, _ => True

/-- A queue without slots, and nothing to pop. -/
theorem sound_no_slots {q : LockFreeQueue α} (hbuffer : q.m_buffer = Arena.fresh 0)
    (hcapacity : q.m_capacity = 0) (hfreed : ∀ a ∈ q.freed, Freed a)
    (hidle : q.m_read = 0 ∧ q.m_max_read = 0 ∧ q.m_size = 0) : Sound q := by
  refine ⟨?_, hfreed, fun _ => hidle⟩
  rw [hbuffer, hcapacity]
  exact (Arena.Kept.fresh 0).congr fun i => (decide_eq_false (Nat.not_lt_zero i)).symm

theorem freed_append {freed : List (Arena α)} {a : Arena α} (h : ∀ x ∈ freed, Freed x)
    (ha : Freed a) : ∀ x ∈ freed ++ [a], Freed x := by
  intro x hx
  rcases List.mem_append.mp hx with hx | hx
  · exact h x hx
  · rw [List.mem_singleton.mp hx]; exact ha

/-- **Every operation keeps an object in every slot.** -/
theorem keeps_sound (T : QueueElement α) :
    Objects.Keeps (object_type T) keeps_slots Sound Gone where
  construct k q _ hq := by
    cases k with
    | none => cases hq; exact sound_with_capacity T DEFAULT_CAPACITY
    | some n => cases hq; exact sound_with_capacity T n
  construct_from _ q p h hzero hp := by
    cases hp
    obtain ⟨hread, hmax, hsize⟩ := h.idle hzero
    refine ⟨⟨h.buffer, fun _ ha => (by cases ha), fun _ => ⟨hread, hsize, hsize⟩⟩, ?_⟩
    exact sound_no_slots rfl hzero h.freed ⟨rfl, rfl, rfl⟩
  assign_from _ q buffer p h hbuffer hzero hp := by
    cases hp
    refine ⟨⟨hbuffer.buffer, freed_append h.freed (h.freed_empty hzero), ?_⟩, ?_⟩
    · intro hnone
      obtain ⟨hread, -, hsize⟩ := hbuffer.idle hnone
      exact ⟨hread, hsize, hsize⟩
    · exact sound_no_slots rfl rfl hbuffer.freed ⟨rfl, rfl, rfl⟩
  assign_self _ q q' h hzero hq := by
    cases hq
    obtain ⟨hread, -, hsize⟩ := h.idle hzero
    exact sound_no_slots rfl rfl (freed_append h.freed (h.freed_empty hzero))
      ⟨hread, hsize, hsize⟩
  call u q p h hguard hp := by
    cases u with
    | push_back v | emplace_back v =>
        obtain ⟨q', hpush, heq⟩ := Option.map_eq_some_iff.mp hp
        cases heq
        exact h.push_back hpush
    | try_push_back v | try_emplace_back v => cases hp; exact h.try_push_back v
    | force_push_back v | force_emplace_back v => cases hp; exact h.force_push_back hguard v
    | pop_front => cases hp; exact h.pop_front
    | reserve k =>
        have hsame : q.reserve k = q := if_neg (Nat.not_lt.mpr hguard)
        cases hp
        rw [hsame]
        exact h
    | clear =>
        cases hp
        have hzero : q.m_capacity = 0 := hguard
        refine sound_no_slots ?_ hzero (freed_append h.freed (h.freed_empty hzero))
          ⟨rfl, rfl, rfl⟩
        show Arena.fresh q.m_capacity = _
        rw [hzero]
  destroy q q' h _ hq := by cases hq; exact h.destructor

/--
**Every object in a slot is destroyed exactly once**, and no slot is used that holds none
or is not the queue's, in every program over queues that replaces or gives away no
storage with slots in it.
-/
theorem slots_destroyed_once {ops : List (Objects.Op (Option Nat) Unit (Call α))}
    {outs : List (Option Unit)} {w : Nat → Life (LockFreeQueue α)}
    (hrun : Machine.Run (Objects.step (object_type T)) keeps_slots.admits Objects.start
      ops outs w) : Objects.Each Sound Gone w :=
  (keeps_sound T).run (fun _ _ h => h) hrun

/-- A queue that was pushed to, and is gone. -/
theorem slots_destroyed_once_pushed : Gone
    ((with_capacity QueueElement.owning 1).try_push_back 5).2.destructor := by
  have hconstruct : Objects.step (object_type QueueElement.owning) Objects.start
      (.construct 0 (some 1)) = some (none,
        Objects.put Objects.start 0 (with_capacity QueueElement.owning 1)) := rfl
  have hpush : Objects.step (object_type QueueElement.owning)
      (Objects.put Objects.start 0 (with_capacity QueueElement.owning 1))
      (.call 0 (.try_push_back 5)) = some (some (),
        Objects.put (Objects.put Objects.start 0 (with_capacity QueueElement.owning 1)) 0
          ((with_capacity QueueElement.owning 1).try_push_back 5).2) := rfl
  have hrun : Machine.Run (Objects.step (object_type QueueElement.owning)) keeps_slots.admits
      Objects.start [.construct 0 (some 1), .call 0 (.try_push_back 5), .destroy 0] _ _ :=
    .cons trivial hconstruct (.cons (fun _ _ => trivial) hpush
      (.single (fun _ _ => trivial) rfl))
  exact (slots_destroyed_once hrun).ended 0 _ rfl

/-- After `clear` a push assigns to a slot that holds no object. -/
theorem cleared_slots_misused : ¬ ∀ (ops : List (Objects.Op (Option Nat) Unit (Call Nat)))
    (outs : List (Option Unit)) (w : Nat → Life (LockFreeQueue Nat)),
    Machine.Run (Objects.step (object_type QueueElement.owning)) (fun _ _ => True)
      Objects.start ops outs w → Objects.Each Sound Gone w := by
  intro hclaim
  have hconstruct : Objects.step (object_type QueueElement.owning) Objects.start
      (.construct 0 (some 1)) = some (none,
        Objects.put Objects.start 0 (with_capacity QueueElement.owning 1)) := rfl
  have hclear : Objects.step (object_type QueueElement.owning)
      (Objects.put Objects.start 0 (with_capacity QueueElement.owning 1))
      (.call 0 .clear) = some (some (),
        Objects.put (Objects.put Objects.start 0 (with_capacity QueueElement.owning 1)) 0
          (with_capacity QueueElement.owning 1).clear) := rfl
  have heach := hclaim [.construct 0 (some 1), .call 0 .clear, .call 0 (.try_push_back 5)] _ _
    (.cons trivial hconstruct (.cons trivial hclear (.single trivial rfl)))
  have hmisuse := (heach.alive 0 _ rfl).buffer.misuse
  revert hmisuse
  decide

end Hyperion.LockFreeQueue
