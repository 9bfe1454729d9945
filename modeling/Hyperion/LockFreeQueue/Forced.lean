/-
Pushing by force.

A forced push on a full queue is to take the place of the last element.  It takes the slot
`m_max_read` names, which is the slot behind the last element, and in a full queue that one
is the slot of another element: of the oldest, as long as the counters have not gone round.
The two are the same slot only if the queue has one, or at the turn of the counters.
-/
import Hyperion.Lib.Circular
import Hyperion.LockFreeQueue.Sequential

namespace Hyperion.LockFreeQueue

variable {α : Type} {T : QueueElement α}

/-- The calls of one thread, with those that push by force. -/
inductive ForcedOp (α : Type)
  | call (op : Op α)
  | force_push_back (value : α)
  | force_emplace_back (value : α)

/-- One call; a forced push returns nothing. -/
def forced_step (T : QueueElement α) (q : LockFreeQueue α) :
    ForcedOp α → Option (Option (Output α) × LockFreeQueue α)
  | .call op => (step T q op).map fun r => (some r.1, r.2)
  | .force_push_back v => some (none, q.force_push_back v)
  | .force_emplace_back v => some (none, q.force_emplace_back v)

/-- What each call means for the list of elements held. -/
def list_forced_step (b : BoundedList α) : ForcedOp α → Option (Output α) × BoundedList α
  | .call op => (some (list_step b op).1, (list_step b op).2)
  | .force_push_back v | .force_emplace_back v => (none, b.forcePush v)

/-- The slot a forced push assigns when the queue is full. -/
def forced_slot (q : LockFreeQueue α) : Nat := q.m_max_read % q.m_capacity

/-- The slot of the element pushed last. -/
def last_slot (q : LockFreeQueue α) : Nat := u32.sub q.m_max_read 1 % q.m_capacity

/-- A forced push on the full queue makes no difference where it should not. -/
def ForcesLast (q : LockFreeQueue α) (v : α) : Prop :=
  q.forced_slot = q.last_slot ∨
    (q.m_buffer.read q.forced_slot = some v ∧ q.m_buffer.read q.last_slot = some v)

/-- The call does what it should: where there is room, in spite of the counters going round, and
where there is none, in spite of the slot it takes. -/
def ForcedRight (q : LockFreeQueue α) : ForcedOp α → Prop
  | .call op => NotAcrossWrap q op
  | .force_push_back v | .force_emplace_back v =>
      NotAcrossWrap q (.try_push_back v) ∧ (q.m_size = q.m_capacity → ForcesLast q v)

instance [DecidableEq α] (q : LockFreeQueue α) (v : α) : Decidable (ForcesLast q v) :=
  inferInstanceAs (Decidable (_ ∨ _))

instance [DecidableEq α] (q : LockFreeQueue α) : (op : ForcedOp α) → Decidable (ForcedRight q op)
  | .call op => inferInstanceAs (Decidable (NotAcrossWrap q op))
  | .force_push_back _ | .force_emplace_back _ => inferInstanceAs (Decidable (_ ∧ _))

namespace Represents

variable {q : LockFreeQueue α} {b : BoundedList α} {R : Nat}

/-- With room, a forced push is a push. -/
theorem force_push_back_of_lt (h : Represents q b R) (hroom : b.items.length < b.bound) {v : α}
    (hwrap : NotAcrossWrap q (.try_push_back v)) :
    Represents (q.force_push_back v) (b.forcePush v) R := by
  have hpush := h.push hroom (hwrap (by rw [h.size, h.capacity]; exact hroom)) v
  rw [BoundedList.forcePush_of_lt hroom]
  unfold LockFreeQueue.force_push_back
  rw [h.increment_size, if_pos hroom]
  exact hpush

/-- Without, it assigns one slot and changes nothing else. -/
theorem force_push_back_of_full (h : Represents q b R) (hfull : b.items.length = b.bound)
    (v : α) : q.force_push_back v
      = { q with m_buffer := q.m_buffer.assign q.forced_slot (some v) } := by
  have hmax : u32.add (u32.sub q.m_max_read 1) 1 = q.m_max_read := by
    refine u32.add_sub_one ?_
    rw [h.max_read]
    exact Nat.mod_lt _ (by decide)
  unfold LockFreeQueue.force_push_back
  rw [h.increment_size, if_neg (by omega)]
  show { q with
    m_buffer := q.m_buffer.assign (q.m_max_read % q.m_capacity) (some v)
    m_max_read := u32.add (u32.sub q.m_max_read 1) 1 } = _
  rw [hmax]
  rfl

/-- In a full queue the slot taken is the slot of some element. -/
theorem forced_slot_held (h : Represents q b R) (hfull : b.items.length = b.bound)
    (hpos : 0 < b.bound) : ∃ j, j < b.bound ∧ slot_of b.bound (R + j) = q.forced_slot := by
  refine Circular.exists_of_apart (f := fun j => slot_of b.bound (R + j)) ?_ ?_ ?_
  · exact fun j _ => Nat.mod_lt _ hpos
  · intro i j hij hj
    exact h.distinct i j hij (by omega)
  · rw [forced_slot, h.capacity]
    exact Nat.mod_lt _ hpos

theorem last_slot_eq (h : Represents q b R) (hfull : b.items.length = b.bound)
    (hpos : 0 < b.bound) : q.last_slot = slot_of b.bound (R + (b.bound - 1)) := by
  rw [last_slot, h.max_read, h.capacity, hfull, u32.sub_mod_left (by omega), slot_of]
  congr 2
  omega

/-- A slot of another element than the last is not to change. -/
theorem forces_last_of_forced (h : Represents q b R) (hfull : b.items.length = b.bound)
    (hpos : 0 < b.bound) {v : α} {R' : Nat}
    (h' : Represents (q.force_push_back v) (b.forcePush v) R') : ForcesLast q v := by
  by_cases hsame : q.forced_slot = q.last_slot
  · exact .inl hsame
  refine .inr ?_
  have hstate := h.force_push_back_of_full hfull v
  have hslot : ∀ j, slot_of b.bound (R' + j) = slot_of b.bound (R + j) := by
    intro j
    have hread : R' % 2 ^ 32 = R % 2 ^ 32 := by
      rw [← h'.read, ← h.read, hstate]
    rw [slot_of, slot_of, ← Nat.mod_add_mod, hread, Nat.mod_add_mod]
  -- what the new list has in a slot, by its position
  have hafter : ∀ j x, (b.forcePush v).items[j]? = some x →
      ((q.m_buffer.assign q.forced_slot (some v)).cell (slot_of b.bound (R + j))).value
        = some x := by
    intro j x hx
    have hheld := h'.held j x hx
    rw [hstate] at hheld
    rw [← hslot j]
    exact hheld
  constructor
  · obtain ⟨j, hj, hjslot⟩ := h.forced_slot_held hfull hpos
    have hjlast : ¬j + 1 = b.bound := by
      intro hlast
      apply hsame
      rw [← hjslot, h.last_slot_eq hfull hpos, ← hlast, Nat.add_sub_cancel]
    obtain ⟨x, hx⟩ : ∃ x, b.items[j]? = some x := ⟨_, List.getElem?_eq_getElem (by omega)⟩
    have hnew := hafter j x (by
      rw [BoundedList.getElem?_forcePush_of_full hfull hpos, if_neg hjlast, hx])
    rw [Arena.assign_cell, hjslot, Function.update_self] at hnew
    rw [← hjslot, h.read_slot hx]
    exact hnew.symm
  · obtain ⟨x, hx⟩ : ∃ x, b.items[b.bound - 1]? = some x :=
      ⟨_, List.getElem?_eq_getElem (by omega)⟩
    have hnew := hafter (b.bound - 1) v (by
      rw [BoundedList.getElem?_forcePush_of_full hfull hpos, if_pos (by omega)])
    rw [Arena.assign_cell, ← h.last_slot_eq hfull hpos, Function.update_of_ne (Ne.symm hsame),
      h.last_slot_eq hfull hpos, h.held _ x hx] at hnew
    rw [h.last_slot_eq hfull hpos, h.read_slot hx]
    exact hnew

/-- Where the slot taken is the last one, or has nothing to change, the last element is
replaced. -/
theorem force_push_back_of_forces_last (h : Represents q b R) (hfull : b.items.length = b.bound)
    (hpos : 0 < b.bound) {v : α} (hlast : ForcesLast q v) :
    Represents (q.force_push_back v) (b.forcePush v) R := by
  have hlen := BoundedList.length_forcePush_of_full hfull hpos v
  have hbound : (b.forcePush v).bound = b.bound := rfl
  rw [h.force_push_back_of_full hfull v]
  refine ⟨h.capacity, h.bound_lt, h.read, ?_, ?_, ?_, ?_, ?_, ?_⟩
  · rw [hlen, ← hfull]
    exact h.write
  · rw [hlen, ← hfull]
    exact h.max_read
  · rw [hlen, ← hfull]
    exact h.size
  · exact (Arena.assign_slots _ _ _).trans h.slots
  · intro j x hx
    have hj : j < b.bound := by
      rw [← hlen]
      exact (List.getElem?_eq_some_iff.mp hx).1
    rw [BoundedList.getElem?_forcePush_of_full hfull hpos] at hx
    rw [hbound, Arena.assign_cell]
    by_cases htaken : slot_of b.bound (R + j) = q.forced_slot
    · rw [htaken, Function.update_self]
      rw [← hx]
      split
      · rfl
      · rename_i hjlast
        rw [if_neg hjlast] at hx
        -- the slot of an earlier element is taken only when it reads as the new one
        rcases hlast with hsame | ⟨hreads, -⟩
        · rw [hsame, h.last_slot_eq hfull hpos] at htaken
          exact absurd htaken (h.distinct j (b.bound - 1) (by omega) (by omega))
        · rw [← htaken, h.read_slot hx] at hreads
          rw [hx]
          exact hreads.symm
    · rw [Function.update_of_ne htaken]
      split at hx
      · rename_i hjlast
        have hslot : slot_of b.bound (R + j) = q.last_slot := by
          rw [h.last_slot_eq hfull hpos, ← hjlast, Nat.add_sub_cancel]
        rcases hlast with hsame | ⟨-, hreads⟩
        · exact absurd (hslot.trans hsame.symm) htaken
        · obtain ⟨y, hy⟩ : ∃ y, b.items[j]? = some y := ⟨_, List.getElem?_eq_getElem (by omega)⟩
          rw [← hslot, h.read_slot hy] at hreads
          rw [h.held j y hy, hreads, hx]
      · exact h.held j x hx
  · intro i j hij hj
    rw [hlen] at hj
    exact h.distinct i j hij (by omega)

/-- **A forced push on the full queue replaces the last element exactly if** the slot it takes
is the last one, or already reads as the new element as the last one does. -/
theorem force_push_back_full_iff (h : Represents q b R) (hfull : b.items.length = b.bound)
    (hpos : 0 < b.bound) (v : α) :
    (∃ R', Represents (q.force_push_back v) (b.forcePush v) R') ↔ ForcesLast q v := by
  constructor
  · rintro ⟨R', h'⟩
    exact h.forces_last_of_forced hfull hpos h'
  · exact fun hlast => ⟨R, h.force_push_back_of_forces_last hfull hpos hlast⟩

/-- A forced push does what it means for the list, where it does what it should. -/
theorem force_push_back (h : Represents q b R) (hpos : 0 < b.bound) {v : α}
    (hwrap : NotAcrossWrap q (.try_push_back v))
    (hlast : q.m_size = q.m_capacity → ForcesLast q v) :
    Represents (q.force_push_back v) (b.forcePush v) R := by
  have hfits := b.fits
  by_cases hroom : b.items.length < b.bound
  · exact h.force_push_back_of_lt hroom hwrap
  · have hfull : b.items.length = b.bound := by omega
    refine h.force_push_back_of_forces_last hfull hpos (hlast ?_)
    rw [h.size, h.capacity, hfull]

/-- **One call** that does what it should. -/
theorem forced_step (h : Represents q b R) (hpos : 0 < b.bound) {op : ForcedOp α}
    {out : Option (Output α)} {q' : LockFreeQueue α} (hright : ForcedRight q op)
    (hstep : LockFreeQueue.forced_step T q op = some (out, q')) :
    out = (list_forced_step b op).1 ∧ ∃ R', Represents q' (list_forced_step b op).2 R' := by
  cases op with
  | call op =>
      obtain ⟨⟨o, mid⟩, hcall, hpair⟩ := Option.map_eq_some_iff.mp hstep
      cases hpair
      obtain ⟨hout, R', hrep, -⟩ := h.step hright hcall
      exact ⟨congrArg some hout, R', hrep⟩
  | force_push_back v =>
      cases hstep
      exact ⟨rfl, R, h.force_push_back hpos hright.1 hright.2⟩
  | force_emplace_back v =>
      cases hstep
      exact ⟨rfl, R, h.force_push_back hpos hright.1 hright.2⟩

end Represents

/-! ### Every run -/

/-- No call changes the bound of the list. -/
theorem list_forced_step_bound (b : BoundedList α) (op : ForcedOp α) :
    (list_forced_step b op).2.bound = b.bound := by
  cases op with
  | call op => exact list_step_bound b op
  | force_push_back v | force_emplace_back v => rfl

theorem list_forced_bound (c : Nat) (ops : List (ForcedOp α)) :
    (Machine.trace list_forced_step (BoundedList.empty c) ops).2.bound = c :=
  Machine.trace_keeps (P := fun b => b.bound = c)
    (fun b op h => (list_forced_step_bound b op).trans h) ops rfl

/-- A run of calls that all do what they should. -/
theorem refines_forced_list {c : Nat} (hpos : 1 ≤ c) (hc : c < 2 ^ 32) {ops : List (ForcedOp α)}
    {outs : List (Option (Output α))} {q : LockFreeQueue α}
    (hrun : Machine.Run (forced_step T) ForcedRight (with_capacity T c) ops outs q) :
    outs = (Machine.trace list_forced_step (BoundedList.empty c) ops).1 ∧
      ∃ R, Represents q (Machine.trace list_forced_step (BoundedList.empty c) ops).2 R := by
  have h := hrun.refines (R := fun q b => 0 < b.bound ∧ ∃ R, Represents q b R) (by
    rintro q b op out q' ⟨hpos, R, hrep⟩ hright hstep
    obtain ⟨hout, hrep'⟩ := hrep.forced_step hpos hright hstep
    refine ⟨hout, ?_, hrep'⟩
    rw [list_forced_step_bound]
    exact hpos) ⟨hpos, 0, represents_new hc⟩
  exact ⟨h.1, h.2.2⟩

/--
**A forced push appends, or replaces the last element when the queue is full,** in every run
whose calls all do what they should: the calls return what they mean for the list, and the list
is what the queue holds in the end.  There a forced push on the full queue goes right exactly if
it meets the condition.
-/
theorem replaces_last {c : Nat} (hpos : 1 ≤ c) (hc : c < 2 ^ 32) {ops : List (ForcedOp α)}
    {outs : List (Option (Output α))} {q : LockFreeQueue α}
    (hrun : Machine.Run (forced_step T) ForcedRight (with_capacity T c) ops outs q) :
    outs = (Machine.trace list_forced_step (BoundedList.empty c) ops).1 ∧
      Held q (Machine.trace list_forced_step (BoundedList.empty c) ops).2 ∧
      ∀ v, q.m_size = q.m_capacity →
        ((∃ R, Represents (q.force_push_back v)
            ((Machine.trace list_forced_step (BoundedList.empty c) ops).2.forcePush v) R) ↔
          ForcesLast q v) := by
  obtain ⟨houts, R, hrep⟩ := refines_forced_list hpos hc hrun
  refine ⟨houts, hrep.held_apart, ?_⟩
  intro v hfull
  rw [hrep.size, hrep.capacity] at hfull
  exact hrep.force_push_back_full_iff hfull (by rw [list_forced_bound]; exact hpos) v

/-- In a queue of one slot the last element is the one that is there. -/
theorem replaces_last_one : ∃ outs, outs = [none, none, some (.popped (some (some 6)))] ∧
    outs = (Machine.trace list_forced_step (BoundedList.empty 1)
      [.force_push_back 5, .force_emplace_back 6, .call .pop_front]).1 := by
  obtain ⟨q₀, outs, q, hq, hrun, houts⟩ := Machine.exists_run (forced_step QueueElement.owning)
    ForcedRight (some (with_capacity QueueElement.owning 1))
    [.force_push_back 5, .force_emplace_back 6, .call .pop_front]
    (fun r => r.1 == [none, none, some (.popped (some (some 6)))]) (by decide +kernel)
  cases hq
  exact ⟨outs, eq_of_beq houts, (replaces_last (by decide) (by decide) hrun).1⟩

/-- In a queue of two it is the first element that is replaced. -/
theorem replaces_first : ¬ ∀ (T : QueueElement Nat) (c : Nat) (ops : List (ForcedOp Nat))
    (outs : List (Option (Output Nat))) (q : LockFreeQueue Nat), 1 ≤ c → c < 2 ^ 32 →
    Machine.Run (forced_step T) (fun _ _ => True) (with_capacity T c) ops outs q →
    outs = (Machine.trace list_forced_step (BoundedList.empty c) ops).1 := by
  intro hclaim
  obtain ⟨q₀, outs, q, hq, hrun, hfirst⟩ := Machine.exists_run (forced_step QueueElement.owning)
    (fun _ _ => True) (some (with_capacity QueueElement.owning 2))
    [.call (.try_push_back 1), .call (.try_push_back 2), .force_push_back 3, .call .pop_front]
    (fun r => r.1 == [some (.pushed true), some (.pushed true), none,
      some (.popped (some (some 3)))]) (by decide +kernel)
  cases hq
  have houts := hclaim _ 2 _ _ _ (by decide) (by decide) hrun
  have hseen : outs = [some (.pushed true), some (.pushed true), none,
      some (.popped (some (some 3)))] := eq_of_beq hfirst
  rw [hseen] at houts
  revert houts
  decide

end Hyperion.LockFreeQueue
