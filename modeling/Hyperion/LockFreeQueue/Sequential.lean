/-
One thread on the queue.

A queue that has been popped `R` times and holds `k` elements has its counters at `R`
and `R + k`, taken modulo 2^32.  That is all there is to it as long as the counters
have not gone round.  After that two things go wrong.  `m_read + 1` wraps to 0, so
that a pop no longer sees that the queue is empty, and sees an empty queue where it
is not.  And where the capacity does not divide 2^32, slots are skipped at the turn,
so that a push may land on an element that is still there.  The conditions under
which neither happens are exact for each step.
-/
import Hyperion.LockFreeQueue.Basic
import Hyperion.Lib.BoundedList
import Hyperion.Lib.Machine

namespace Hyperion.LockFreeQueue

variable {α : Type} {T : QueueElement α}

/-- The calls of one thread. -/
inductive Op (α : Type)
  | try_push_back (value : α)
  | try_emplace_back (value : α)
  | pop_front
  | empty
  | full
  | size

/-- What a call returns. -/
inductive Output (α : Type)
  | pushed (ok : Bool)
  | popped (ret : Option (Option α))
  | flag (b : Bool)
  | count (n : Nat)
deriving DecidableEq

/-- How many elements a call added, by what it returned. -/
def Output.pushes : Output α → Nat
  | .pushed true => 1
  | _ => 0

/-- One call. -/
def step (T : QueueElement α) (q : LockFreeQueue α) :
    Op α → Option (Output α × LockFreeQueue α)
  | .try_push_back v => let (ok, q) := q.try_push_back v; some (.pushed ok, q)
  | .try_emplace_back v => let (ok, q) := q.try_emplace_back v; some (.pushed ok, q)
  | .pop_front => let (ret, q) := q.pop_front T; some (.popped ret, q)
  | .empty => some (.flag q.empty, q)
  | .full => some (.flag q.full, q)
  | .size => some (.count q.size, q)

/-- What each call means for the list of elements held. -/
def list_step (b : BoundedList α) : Op α → Output α × BoundedList α
  | .try_push_back v | .try_emplace_back v =>
      (.pushed (b.tryPush v).1, (b.tryPush v).2)
  | .pop_front => (.popped (b.popFront.1.map some), b.popFront.2)
  | .empty => (.flag (b.items.length = 0), b)
  | .full => (.flag (b.items.length = b.bound), b)
  | .size => (.count b.items.length, b)

/-- No call changes the bound of the list. -/
theorem list_step_bound (b : BoundedList α) (op : Op α) : (list_step b op).2.bound = b.bound := by
  cases op with
  | try_push_back v | try_emplace_back v => exact b.tryPush_bound v
  | pop_front | empty | full | size => rfl

theorem list_bound (c : Nat) (ops : List (Op α)) :
    (Machine.trace list_step (BoundedList.empty c) ops).2.bound = c :=
  Machine.trace_keeps (P := fun b => b.bound = c)
    (fun b op h => (list_step_bound b op).trans h) ops rfl

/-- A push that is accepted makes the list longer by one. -/
theorem length_tryPush (b : BoundedList α) (v : α) (R : Nat) :
    R + (b.tryPush v).2.items.length
      = R + b.items.length + (Output.pushed (b.tryPush v).1 : Output α).pushes := by
  by_cases hroom : b.items.length < b.bound
  · obtain ⟨hok, hitems⟩ := BoundedList.tryPush_of_lt hroom v
    rw [hok, hitems, List.length_append, List.length_singleton, ← Nat.add_assoc]
    rfl
  · rw [BoundedList.tryPush_of_full hroom]
    rfl

/-- The slot of the element at position `p`. -/
def slot_of (c p : Nat) : Nat := p % 2 ^ 32 % c

/-- Positions less than a turn of the buffer apart share a slot only across the wrap. -/
theorem slot_of_ne {c R i k : Nat} (hkc : k < c) (hc : c < 2 ^ 32) (hi : i < k)
    (hroom : ¬ ((R + k) % 2 ^ 32 < 2 ^ 32 % c ∧ 2 ^ 32 % c ≤ k)) :
    slot_of c (R + i) ≠ slot_of c (R + k) := by
  unfold slot_of
  intro heq
  by_cases hwrap : k - i ≤ (R + k) % 2 ^ 32
  · -- the same turn of the counter
    have hpos : (R + i) % 2 ^ 32 = (R + k) % 2 ^ 32 - (k - i) := by omega
    rw [hpos] at heq
    have hdvd : c ∣ (R + k) % 2 ^ 32 - ((R + k) % 2 ^ 32 - (k - i)) :=
      (Nat.modEq_iff_dvd' (Nat.sub_le _ _)).mp heq
    have hle := Nat.le_of_dvd (by omega) hdvd
    omega
  · -- the earlier position is before the wrap
    have hpos : (R + i) % 2 ^ 32 = 2 ^ 32 + (R + k) % 2 ^ 32 - (k - i) := by omega
    rw [hpos] at heq
    have hdvd : c ∣ 2 ^ 32 + (R + k) % 2 ^ 32 - (k - i) - (R + k) % 2 ^ 32 :=
      (Nat.modEq_iff_dvd' (by omega)).mp heq.symm
    have hrest : 2 ^ 32 + (R + k) % 2 ^ 32 - (k - i) - (R + k) % 2 ^ 32 = 2 ^ 32 - (k - i) := by
      omega
    rw [hrest] at hdvd
    have hmod : (k - i) % c = 2 ^ 32 % c := (Nat.modEq_iff_dvd' (by omega)).mpr hdvd
    rw [Nat.mod_eq_of_lt (by omega)] at hmod
    exact hroom ⟨by omega, by omega⟩

/-- The queue holds the elements of `b`, after `R` elements were taken out. -/
structure Represents (q : LockFreeQueue α) (b : BoundedList α) (R : Nat) : Prop where
  capacity : q.m_capacity = b.bound
  bound_lt : b.bound < 2 ^ 32
  read : q.m_read = R % 2 ^ 32
  write : q.m_write = (R + b.items.length) % 2 ^ 32
  max_read : q.m_max_read = (R + b.items.length) % 2 ^ 32
  size : q.m_size = b.items.length
  slots : q.m_buffer.slots = b.bound
  held : ∀ j v, b.items[j]? = some v →
    (q.m_buffer.cell (slot_of b.bound (R + j))).value = some v
  distinct : ∀ i j, i < j → j < b.items.length →
    slot_of b.bound (R + i) ≠ slot_of b.bound (R + j)

/-- The call does what it should in spite of the counters going round. -/
def NotAcrossWrap (q : LockFreeQueue α) : Op α → Prop
  | .try_push_back _ | .try_emplace_back _ =>
      q.m_size < q.m_capacity →
        ¬ (q.m_write < 2 ^ 32 % q.m_capacity ∧ 2 ^ 32 % q.m_capacity ≤ q.m_size)
  | .pop_front =>
      q.m_read < q.m_max_read ∨ (q.m_read = q.m_max_read ∧ q.m_read ≠ 2 ^ 32 - 1) ∨
        (q.m_max_read < q.m_read ∧ q.m_read = 2 ^ 32 - 1)
  | _ => True

instance (q : LockFreeQueue α) : (op : Op α) → Decidable (NotAcrossWrap q op)
  | .try_push_back _ | .try_emplace_back _ => inferInstanceAs (Decidable (_ → _))
  | .pop_front => inferInstanceAs (Decidable (_ ∨ _))
  | .empty | .full | .size => isTrue trivial

namespace Represents

variable {q : LockFreeQueue α} {b : BoundedList α} {R : Nat}

/-- Being admitted is having room, and otherwise nothing changed. -/
theorem increment_size (h : Represents q b R) :
    q.increment_size = if b.items.length < b.bound then
      (true, { q with m_size := b.items.length + 1 }) else (false, q) := by
  have hlt : b.items.length < 2 ^ 32 := Nat.lt_of_le_of_lt b.fits h.bound_lt
  unfold LockFreeQueue.increment_size size_fetch_add size_fetch_sub
  by_cases hroom : b.items.length < b.bound
  · rw [if_pos hroom]
    simp only
    rw [if_neg (by rw [h.size, h.capacity]; omega), h.size,
      u32.add_eq (by have := h.bound_lt; omega)]
  · rw [if_neg hroom]
    simp only
    rw [if_pos (by rw [h.size, h.capacity]; omega), h.size, u32.sub_add_one hlt, ← h.size]

/-- What is read in the slot of an element is the element. -/
theorem read_slot (h : Represents q b R) {j : Nat} {v : α} (hv : b.items[j]? = some v) :
    q.m_buffer.read (slot_of b.bound (R + j)) = some v := by
  have hj := (List.getElem?_eq_some_iff.mp hv).1
  have hfits := b.fits
  have hslot : slot_of b.bound (R + j) < q.m_buffer.slots := by
    rw [h.slots]
    exact Nat.mod_lt _ (by omega)
  rw [Arena.read, if_pos hslot]
  exact h.held j v hv

/-- An admitted push appends. -/
theorem push (h : Represents q b R) (hroom : b.items.length < b.bound)
    (hwrap : ¬ (q.m_write < 2 ^ 32 % q.m_capacity ∧ 2 ^ 32 % q.m_capacity ≤ q.m_size)) (v : α) :
    Represents ({ q with m_size := b.items.length + 1 }.push_admitted v) (b.tryPush v).2 R := by
  have hitems := (BoundedList.tryPush_of_lt hroom v).2
  have hbound := b.tryPush_bound v
  have hlen : (b.tryPush v).2.items.length = b.items.length + 1 := by
    rw [hitems, List.length_append, List.length_singleton]
  rw [h.write, h.capacity, h.size] at hwrap
  have hslot : q.m_write % q.m_capacity = slot_of b.bound (R + b.items.length) := by
    rw [h.write, h.capacity, slot_of]
  have hne : ∀ i, i < b.items.length →
      slot_of b.bound (R + i) ≠ slot_of b.bound (R + b.items.length) :=
    fun i hi => slot_of_ne hroom h.bound_lt hi hwrap
  refine ⟨?_, ?_, ?_, ?_, ?_, ?_, ?_, ?_, ?_⟩
  · rw [hbound]; exact h.capacity
  · rw [hbound]; exact h.bound_lt
  · exact h.read
  · show u32.add q.m_write 1 = _
    rw [h.write, u32.add_mod_left, hlen, Nat.add_assoc]
  · show u32.add q.m_max_read 1 = _
    rw [h.max_read, u32.add_mod_left, hlen, Nat.add_assoc]
  · exact hlen.symm
  · rw [hbound]
    exact (Arena.assign_slots _ _ _).trans h.slots
  · intro j x hx
    rw [hitems] at hx
    rw [hbound]
    show ((q.m_buffer.assign (q.m_write % q.m_capacity) (some v)).cell _).value = _
    rw [Arena.assign_cell, hslot]
    by_cases hj : j < b.items.length
    · rw [List.getElem?_append_left hj] at hx
      rw [Function.update_of_ne (hne j hj)]
      exact h.held j x hx
    · rw [List.getElem?_append_right (by omega), List.getElem?_singleton] at hx
      split at hx
      · have hjlen : j = b.items.length := by omega
        rw [hjlen, Function.update_self, ← hx]
      · cases hx
  · intro i j hij hj
    rw [hlen] at hj
    rw [hbound]
    by_cases hjlast : j < b.items.length
    · exact h.distinct i j hij hjlast
    · have hjlen : j = b.items.length := by omega
      rw [hjlen]
      exact hne i (by omega)

/-- `try_push_back` -/
theorem try_push_back (h : Represents q b R) (v : α)
    (hwrap : NotAcrossWrap q (.try_push_back v)) :
    (q.try_push_back v).1 = (b.tryPush v).1 ∧
      Represents (q.try_push_back v).2 (b.tryPush v).2 R := by
  unfold LockFreeQueue.try_push_back
  rw [h.increment_size]
  by_cases hroom : b.items.length < b.bound
  · rw [if_pos hroom]
    have hpush := h.push hroom (hwrap (by rw [h.size, h.capacity]; exact hroom)) v
    rw [(BoundedList.tryPush_of_lt hroom v).1]
    exact ⟨rfl, hpush⟩
  · rw [if_neg hroom]
    rw [BoundedList.tryPush_of_full hroom]
    exact ⟨rfl, h⟩

/-- The comparison of `pop_front` sees an empty queue exactly when it is one. -/
theorem nothing_to_read_iff (h : Represents q b R) (hwrap : NotAcrossWrap q .pop_front) :
    q.nothing_to_read = true ↔ b.items = [] := by
  have hlen : b.items.length < 2 ^ 32 := Nat.lt_of_le_of_lt b.fits h.bound_lt
  have hadd : u32.add q.m_read 1 = (q.m_read + 1) % 2 ^ 32 := by
    rw [h.read, u32.add_mod_left, Nat.mod_add_mod]
  rw [nothing_to_read, decide_eq_true_iff, hadd, ← List.length_eq_zero_iff]
  have hread := h.read
  have hmax := h.max_read
  rcases hwrap with hlt | ⟨heq, hne⟩ | ⟨hgt, heq⟩
  · omega
  · omega
  · omega

/-- `pop_front` takes the oldest element, where it sees there is one. -/
theorem pop_front (h : Represents q b R) (hwrap : NotAcrossWrap q .pop_front) :
    (q.pop_front T).1 = b.popFront.1.map some ∧
      ∃ R', Represents (q.pop_front T).2 b.popFront.2 R' ∧
        R' + b.popFront.2.items.length = R + b.items.length := by
  unfold LockFreeQueue.pop_front
  rcases hitems : b.items with _ | ⟨v, rest⟩
  · rw [if_pos ((h.nothing_to_read_iff hwrap).mpr hitems), BoundedList.popFront_nil hitems]
    exact ⟨rfl, R, h, by rw [hitems]⟩
  · have hnot : ¬ q.nothing_to_read = true := by
      rw [h.nothing_to_read_iff hwrap, hitems]
      exact List.cons_ne_nil v rest
    rw [if_neg hnot]
    have hlen : b.items.length = rest.length + 1 := by rw [hitems, List.length_cons]
    have hpos : 0 < b.bound := by have := b.fits; omega
    have hslot : q.m_read % q.m_capacity = slot_of b.bound (R + 0) := by
      rw [h.read, h.capacity, slot_of, Nat.add_zero]
    have hin : slot_of b.bound (R + 0) < q.m_buffer.slots := by
      rw [h.slots]
      exact Nat.mod_lt _ hpos
    have htail : b.popFront.2.items = rest := by
      show b.items.tail = rest
      rw [hitems]
      rfl
    have hbound : b.popFront.2.bound = b.bound := rfl
    refine ⟨?_, R + 1, ?_, by rw [htail, List.length_cons]; omega⟩
    · show some (q.m_buffer.read (q.m_read % q.m_capacity)) = _
      rw [hslot, Arena.read, if_pos hin, h.held 0 v (by rw [hitems]; rfl)]
      show _ = b.items.head?.map some
      rw [hitems]
      rfl
    · refine ⟨?_, ?_, ?_, ?_, ?_, ?_, ?_, ?_, ?_⟩
      · exact h.capacity
      · exact h.bound_lt
      · show u32.add q.m_read 1 = _
        rw [h.read, u32.add_mod_left]
      · rw [htail]
        show q.m_write = _
        rw [h.write, hlen]
        congr 1
        omega
      · rw [htail]
        show q.m_max_read = _
        rw [h.max_read, hlen]
        congr 1
        omega
      · rw [htail]
        show u32.sub q.m_size 1 = _
        have hfits := b.fits
        have hlt := h.bound_lt
        rw [h.size, u32.sub_eq (by omega) (by omega), hlen]
        rfl
      · exact (Arena.moveFrom_slots _ _ _).trans h.slots
      · intro j x hx
        rw [htail] at hx
        rw [hbound]
        show ((q.m_buffer.moveFrom T.moved (q.m_read % q.m_capacity)).cell _).value = _
        have hj : j + 1 < b.items.length := by
          rw [hlen]
          have := (List.getElem?_eq_some_iff.mp hx).1
          omega
        have hposition : R + 1 + j = R + (j + 1) := by omega
        rw [Arena.moveFrom_cell, hslot, hposition,
          Function.update_of_ne (h.distinct 0 (j + 1) (by omega) hj).symm]
        exact h.held (j + 1) x (by rw [hitems]; exact hx)
      · intro i j hij hj
        rw [htail] at hj
        have hi' : R + 1 + i = R + (i + 1) := by omega
        have hj' : R + 1 + j = R + (j + 1) := by omega
        rw [hbound, hi', hj']
        exact h.distinct (i + 1) (j + 1) (by omega) (by omega)

/-- **One call** that is not affected by the wrap does what it means for the list. -/
theorem step (h : Represents q b R) {op : Op α} {out : Output α} {q' : LockFreeQueue α}
    (hwrap : NotAcrossWrap q op) (hstep : LockFreeQueue.step T q op = some (out, q')) :
    out = (list_step b op).1 ∧ ∃ R', Represents q' (list_step b op).2 R' ∧
      R' + (list_step b op).2.items.length = R + b.items.length + out.pushes := by
  cases op with
  | try_push_back v =>
      cases hstep
      obtain ⟨hok, hkept⟩ := h.try_push_back v hwrap
      exact ⟨congrArg Output.pushed hok, R, hkept, by
        show _ = _ + (Output.pushed (q.try_push_back v).1 : Output α).pushes
        rw [hok]; exact length_tryPush b v R⟩
  | try_emplace_back v =>
      cases hstep
      obtain ⟨hok, hkept⟩ := h.try_push_back v hwrap
      exact ⟨congrArg Output.pushed hok, R, hkept, by
        show _ = _ + (Output.pushed (q.try_push_back v).1 : Output α).pushes
        rw [hok]; exact length_tryPush b v R⟩
  | pop_front =>
      cases hstep
      obtain ⟨hret, hkept⟩ := h.pop_front (T := T) hwrap
      exact ⟨congrArg Output.popped hret, hkept⟩
  | empty =>
      cases hstep
      refine ⟨?_, R, h, rfl⟩
      rw [LockFreeQueue.empty, LockFreeQueue.size, h.size]
      rfl
  | full =>
      cases hstep
      refine ⟨?_, R, h, rfl⟩
      rw [LockFreeQueue.full, LockFreeQueue.size, h.size, h.capacity]
      rfl
  | size =>
      cases hstep
      exact ⟨congrArg Output.count h.size, R, h, rfl⟩

/-- With fewer than 2^32 - 1 pushes so far the counters have not gone round. -/
theorem not_across_wrap (h : Represents q b R) (hfew : R + b.items.length < 2 ^ 32 - 1)
    (op : Op α) : NotAcrossWrap q op := by
  have hread := h.read
  have hwrite := h.write
  have hmax := h.max_read
  have hsize := h.size
  cases op with
  | try_push_back v =>
      intro _ hbad
      omega
  | try_emplace_back v =>
      intro _ hbad
      omega
  | pop_front =>
      show _ ∨ _
      omega
  | empty => exact trivial
  | full => exact trivial
  | size => exact trivial

end Represents

/-! ### A new queue -/

theorem represents_new {c : Nat} (hc : c < 2 ^ 32) :
    Represents (with_capacity T c) (BoundedList.empty c) 0 := by
  refine ⟨rfl, hc, rfl, rfl, rfl, rfl, construct_slots_slots T c _, ?_, ?_⟩
  · intro j v hv
    cases hv
  · intro i j _ hj
    cases hj

/-- What a thread sees of a queue that represents a list. -/
structure Held (q : LockFreeQueue α) (b : BoundedList α) : Prop where
  size : q.m_size = b.items.length
  held : ∃ R, (∀ j v, b.items[j]? = some v →
      (q.m_buffer.cell (slot_of q.m_capacity (R + j))).value = some v) ∧
    ∀ i j, i < j → j < b.items.length →
      slot_of q.m_capacity (R + i) ≠ slot_of q.m_capacity (R + j)

theorem Represents.held_apart {q : LockFreeQueue α} {b : BoundedList α} {R : Nat}
    (h : Represents q b R) : Held q b := by
  refine ⟨h.size, R, ?_, ?_⟩
  · intro j v hv
    rw [h.capacity]
    exact h.held j v hv
  · intro i j hij hj
    rw [h.capacity]
    exact h.distinct i j hij hj

/-- A run of calls none of which is affected by the wrap; what was pushed was popped or is held. -/
theorem Represents.refines {q q' : LockFreeQueue α} {ops : List (Op α)} {outs : List (Output α)}
    (hrun : Machine.Run (LockFreeQueue.step T) NotAcrossWrap q ops outs q') :
    ∀ {b : BoundedList α} {R : Nat}, Represents q b R →
      outs = (Machine.trace list_step b ops).1 ∧
        ∃ R', Represents q' (Machine.trace list_step b ops).2 R' ∧
          R' + (Machine.trace list_step b ops).2.items.length
            = R + b.items.length + (outs.map Output.pushes).sum := by
  induction hrun with
  | nil q => exact fun h => ⟨rfl, _, h, rfl⟩
  | @cons q mid final op out ops outs hwrap hstep _ ih =>
      intro b R h
      obtain ⟨hout, R₁, hrep, hcount⟩ := h.step hwrap hstep
      obtain ⟨houts, R', hrep', hcount'⟩ := ih hrep
      refine ⟨?_, R', hrep', ?_⟩
      · simp only [Machine.trace]
        rw [hout, houts]
      · rw [List.map_cons, List.sum_cons, ← Nat.add_assoc, ← hcount]
        exact hcount'

theorem refines_list_of {c : Nat} (hc : c < 2 ^ 32) {ops : List (Op α)} {outs : List (Output α)}
    {q : LockFreeQueue α}
    (hrun : Machine.Run (step T) NotAcrossWrap (with_capacity T c) ops outs q) :
    outs = (Machine.trace list_step (BoundedList.empty c) ops).1 ∧
      ∃ R, Represents q (Machine.trace list_step (BoundedList.empty c) ops).2 R := by
  obtain ⟨houts, R, hrep, -⟩ := Represents.refines hrun (represents_new hc)
  exact ⟨houts, R, hrep⟩

/-- In a run of few pushes no call is affected by the wrap. -/
theorem few_pushes {q q' : LockFreeQueue α} {ops : List (Op α)} {outs : List (Output α)}
    (hrun : Machine.Run (step T) (fun _ _ => True) q ops outs q') :
    ∀ {b : BoundedList α} {R : Nat}, Represents q b R →
      R + b.items.length + (outs.map Output.pushes).sum < 2 ^ 32 - 1 →
      Machine.Run (step T) NotAcrossWrap q ops outs q' := by
  induction hrun with
  | nil q => intro b R _ _; exact .nil q
  | @cons q mid final op out ops outs _ hstep _ ih =>
      intro b R h hfew
      rw [List.map_cons, List.sum_cons] at hfew
      have hwrap := h.not_across_wrap (by omega) op
      obtain ⟨-, R', hrep, hcount⟩ := h.step hwrap hstep
      exact .cons hwrap hstep (ih hrep (by omega))

/--
**The queue is a list of at most `c` elements**, first in first out, in every run of one
thread with fewer than 2^32 - 1 pushes.
-/
theorem fifo {c : Nat} (hc : c < 2 ^ 32) {ops : List (Op α)} {outs : List (Output α)}
    {q : LockFreeQueue α}
    (hrun : Machine.Run (step T) (fun _ _ => True) (with_capacity T c) ops outs q)
    (hfew : (outs.map Output.pushes).sum < 2 ^ 32 - 1) :
    outs = (Machine.trace list_step (BoundedList.empty c) ops).1 ∧
      Held q (Machine.trace list_step (BoundedList.empty c) ops).2 := by
  have hrun' := few_pushes hrun (represents_new hc)
    (by simp only [BoundedList.empty, List.length_nil]; omega)
  obtain ⟨houts, R, hrep⟩ := refines_list_of hc hrun'
  exact ⟨houts, hrep.held_apart⟩

/-- A push that is refused, and the pops that follow. -/
theorem fifo_one : ∃ outs, outs = [.pushed true, .pushed false, .popped (some (some 5)),
    .popped none, .flag true] ∧
    outs = (Machine.trace list_step (BoundedList.empty 1)
      [.try_push_back 5, .try_emplace_back 6, .pop_front, .pop_front, .empty]).1 := by
  obtain ⟨q, outs, q', hq, hrun, houts⟩ := Machine.exists_run (step QueueElement.owning)
    (fun _ _ => True) (some (with_capacity QueueElement.owning 1))
    [.try_push_back 5, .try_emplace_back 6, .pop_front, .pop_front, .empty]
    (fun r => r.1 == [.pushed true, .pushed false, .popped (some (some 5)), .popped none,
      .flag true]) (by decide +kernel)
  cases hq
  have houts' : outs = [.pushed true, .pushed false, .popped (some (some 5)), .popped none,
      .flag true] := eq_of_beq houts
  exact ⟨outs, houts', (fifo (by decide) hrun (by rw [houts']; decide)).1⟩

/--
**The queue survives the wrap of its counters** in every run whose calls all meet the
condition: it gives what a list of at most `c` elements gives, `m_size` is the number of
elements, and the elements are in slots of their own.
-/
theorem survives_wrap {c : Nat} (hc : c < 2 ^ 32) {ops : List (Op α)} {outs : List (Output α)}
    {q : LockFreeQueue α}
    (hrun : Machine.Run (step T) NotAcrossWrap (with_capacity T c) ops outs q) :
    outs = (Machine.trace list_step (BoundedList.empty c) ops).1 ∧
      Held q (Machine.trace list_step (BoundedList.empty c) ops).2 := by
  obtain ⟨houts, R, hrep⟩ := refines_list_of hc hrun
  exact ⟨houts, hrep.held_apart⟩

/-- One element pushed into a queue of one slot and popped again. -/
theorem survives_wrap_one : ∃ q : LockFreeQueue Nat, q.m_read = 1 ∧
    Held q (Machine.trace list_step (BoundedList.empty 1) [.try_push_back 5, .pop_front]).2 := by
  have hpush : NotAcrossWrap (with_capacity QueueElement.owning 1) (.try_push_back 5) := by
    intro _ hbad
    exact absurd hbad.1 (Nat.not_lt_zero _)
  have hpop : NotAcrossWrap ((with_capacity QueueElement.owning 1).try_push_back 5).2
      .pop_front := .inl (by decide +kernel)
  have hrun : Machine.Run (step QueueElement.owning) NotAcrossWrap
      (with_capacity QueueElement.owning 1) [.try_push_back 5, .pop_front] _ _ :=
    .cons hpush rfl (.single hpop rfl)
  exact ⟨_, by decide +kernel, (survives_wrap (by decide) hrun).2⟩

/-! ### The turn of the counters -/

/-- `n` times a push and a pop. -/
def push_pop (v : α) : Nat → List (Op α)
  | 0 => []
  | n + 1 => push_pop v n ++ [.try_push_back v, .pop_front]

/-- Pushing and popping below the wrap leaves an empty queue with its counters higher. -/
theorem run_push_pop (v : α) {n : Nat} (hn : n ≤ 2 ^ 32 - 1) : ∃ outs q,
    Machine.Run (step T) NotAcrossWrap (with_capacity T 1) (push_pop v n) outs q ∧
      ∃ b : BoundedList α, Represents q b n ∧ b.items = [] ∧ b.bound = 1 := by
  induction n with
  | zero => exact ⟨[], _, .nil _, _, represents_new (by decide), rfl, rfl⟩
  | succ n ih =>
      obtain ⟨outs, q, hrun, b, hrep, hitems, hbound⟩ := ih (by omega)
      have hlen : b.items.length = 0 := by rw [hitems]; rfl
      have hwrap : NotAcrossWrap q (.try_push_back v) :=
        hrep.not_across_wrap (by omega) _
      obtain ⟨-, hpush⟩ := hrep.try_push_back v hwrap
      have htry : (b.tryPush v).2.items = [v] := by
        rw [(BoundedList.tryPush_of_lt (by omega) v).2, hitems]
        rfl
      have hwrap' : NotAcrossWrap (q.try_push_back v).2 .pop_front := by
        have hread := hpush.read
        have hmax := hpush.max_read
        rw [htry, List.length_singleton] at hmax
        show _ ∨ _
        omega
      obtain ⟨-, R', hpop, hcount⟩ := hpush.pop_front (T := T) hwrap'
      have hrest : (b.tryPush v).2.popFront.2.items = [] := by
        show (b.tryPush v).2.items.tail = []
        rw [htry]
        rfl
      have hR : R' = n + 1 := by
        rw [hrest, htry] at hcount
        simpa using hcount
      exact ⟨_, _, hrun.append (.cons hwrap rfl (.single hwrap' rfl)), _, hR ▸ hpop, hrest,
        (b.tryPush_bound v).trans hbound⟩

/-- After 2^32 - 1 elements went through a queue of one slot, it pops when it is empty. -/
theorem pops_when_empty : ¬ ∀ (c : Nat) (ops : List (Op Nat)) (outs : List (Output Nat))
    (q : LockFreeQueue Nat), 1 ≤ c → c < 2 ^ 32 →
    Machine.Run (step QueueElement.owning) (fun _ _ => True)
      (with_capacity QueueElement.owning c) ops outs q →
    outs = (Machine.trace list_step (BoundedList.empty c) ops).1 := by
  intro hclaim
  obtain ⟨n, hn⟩ : ∃ n, n = 2 ^ 32 - 1 := ⟨_, rfl⟩
  obtain ⟨outs, q, hrun, b, hrep, hitems, -⟩ :=
    run_push_pop (T := QueueElement.owning) 5 (Nat.le_of_eq hn)
  obtain ⟨-, R, hrep'⟩ := refines_list_of (by decide) hrun
  -- the list is empty as well, and a pop from it would return nothing
  have hempty : (Machine.trace list_step (BoundedList.empty 1) (push_pop 5 n)).2.items = [] := by
    apply List.length_eq_zero_iff.mp
    rw [← hrep'.size, hrep.size, hitems]
    rfl
  -- but `m_read + 1` is 0
  have hsees : ¬ q.nothing_to_read = true := by
    rw [nothing_to_read, decide_eq_true_iff, hrep.read, u32.add_mod_left, hn]
    exact Nat.not_lt_zero _
  have hpop : step QueueElement.owning q .pop_front
      = some (.popped (q.pop_front QueueElement.owning).1,
        (q.pop_front QueueElement.owning).2) := rfl
  have hfree : Machine.Run (step QueueElement.owning) (fun _ _ => True)
      (with_capacity QueueElement.owning 1) (push_pop 5 n) outs q :=
    hrun.any
  have houts := hclaim 1 _ _ _ (Nat.le_refl 1) (by decide) (hfree.snoc trivial hpop)
  rw [Machine.trace_snoc] at houts
  have hlast := List.append_inj_right' houts rfl
  rw [list_step, BoundedList.popFront_nil hempty, LockFreeQueue.pop_front, if_neg hsees] at hlast
  simp at hlast

end Hyperion.LockFreeQueue
