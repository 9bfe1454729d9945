/-
Growing the queue.

`reserve` copies a whole turn of the old buffer, from the read counter on, to the start of the
new one, and then sets `m_write` and `m_max_read` to the old capacity less one, whatever the
queue holds.  That is where the elements end in a queue that lacks one element to be full, and
nowhere else.

The new buffer is storage in which nothing was constructed, and the copy assigns to it.  That
is good enough for types like numbers, for which an assignment is all it takes to have an
object.  For all others the elements are assigned to objects that are not there, whatever the
counters.
-/
import Hyperion.LockFreeQueue.AsNew
import Hyperion.LockFreeQueue.Lifetimes
import Hyperion.LockFreeQueue.Sequential

namespace Hyperion.LockFreeQueue

variable {α : Type} {T : QueueElement α} {q : LockFreeQueue α} {b : BoundedList α} {R k : Nat}

/-- No slot was used that holds no object, and no later call uses one. -/
def UsesObjects (T : QueueElement α) (q : LockFreeQueue α) : Prop :=
  ∀ ops outs q', Machine.Run (step T) (fun _ _ => True) q ops outs q' → q'.m_buffer.misuse = []

/--
What `reserve` promises of a queue that holds `l`: room for `k`, the same elements, and unless
an assignment is all it takes to have an object of the type, objects in the slots it uses.
-/
structure Reserves (T : QueueElement α) (implicit_lifetime : Bool) (q : LockFreeQueue α)
    (k : Nat) (l : List α) : Prop where
  capacity : k ≤ (q.reserve k).m_capacity
  size : (q.reserve k).m_size = q.m_size
  goes_on : q.reserve k = q ∨ AsNew T (q.reserve k) l
  objects : implicit_lifetime = false → UsesObjects T (q.reserve k)

/-- The elements are where `reserve` looks for them: it does not take the sum on 32 bits. -/
def SlotsAgree (q : LockFreeQueue α) : Prop :=
  ∀ j, j < q.m_size → q.m_buffer.read ((q.m_read + j) % q.m_capacity)
    = q.m_buffer.read (u32.add q.m_read j % q.m_capacity)

instance [DecidableEq α] (q : LockFreeQueue α) : Decidable (SlotsAgree q) :=
  inferInstanceAs (Decidable (∀ j, j < q.m_size → _))

/-! ### The copy -/

/-- The buffers when `n` slots were copied. -/
structure Copied (read m_capacity : Nat) (new old : Arena α) (n : Nat)
    (buffers : Arena α × Arena α) : Prop where
  slots : buffers.1.slots = new.slots
  old_slots : buffers.2.slots = old.slots
  old_cell : buffers.2.cell = old.cell
  copied : ∀ j, j < n → (buffers.1.cell j).value = old.read ((read + j) % m_capacity)

/-- One round copies one more. -/
theorem Copied.round {read c n : Nat} {new old : Arena α} {buffers : Arena α × Arena α}
    (h : Copied read c new old n buffers) :
    Copied read c new old (n + 1) (reserve_slot read c n buffers) := by
  refine ⟨?_, ?_, ?_, ?_⟩
  · exact (Arena.assign_slots _ _ _).trans h.slots
  · exact (Arena.copyFrom_slots _ _).trans h.old_slots
  · exact (Arena.copyFrom_cell _ _).trans h.old_cell
  · intro j hj
    show ((buffers.1.assign n _).cell j).value = _
    rw [Arena.assign_cell]
    by_cases hlast : j = n
    · rw [hlast, Function.update_self]
      show buffers.2.read _ = _
      rw [Arena.read, Arena.read, h.old_slots, h.old_cell]
    · rw [Function.update_of_ne hlast]
      exact h.copied j (by omega)

theorem copied (read c n : Nat) (new old : Arena α) :
    Copied read c new old n (loop (reserve_slot read c) n (new, old)) := by
  refine loop_induction (Copied read c new old) ⟨rfl, rfl, rfl, ?_⟩ fun _ _ _ h => h.round
  exact fun j hj => absurd hj (Nat.not_lt_zero j)

/-- What `reserve` leaves when it grows the queue. -/
structure Grown (q : LockFreeQueue α) (k : Nat) (q' : LockFreeQueue α) : Prop where
  read : q'.m_read = 0
  write : q'.m_write = u32.sub q.m_capacity 1
  max_read : q'.m_max_read = u32.sub q.m_capacity 1
  size : q'.m_size = q.m_size
  capacity : q'.m_capacity = k
  slots : q'.m_buffer.slots = k
  copied : ∀ j, j < q.m_capacity →
    (q'.m_buffer.cell j).value = q.m_buffer.read ((q.m_read + j) % q.m_capacity)

theorem grown (hgrow : q.m_capacity < k) : Grown q k (q.reserve k) := by
  have hcopied := copied q.m_read q.m_capacity q.m_capacity (Arena.fresh k) q.m_buffer
  rw [reserve, if_pos hgrow]
  exact ⟨rfl, rfl, rfl, rfl, rfl, hcopied.slots, hcopied.copied⟩

/-! ### Where the elements are then -/

/-- In a new turn of the counters a position is its own slot. -/
theorem slot_of_first {c j : Nat} (hj : j < c) (hc : c < 2 ^ 32) : slot_of c (0 + j) = j := by
  rw [slot_of, Nat.zero_add, Nat.mod_eq_of_lt (Nat.lt_trans hj hc), Nat.mod_eq_of_lt hj]

/-- The slot where a position is, by the read counter. -/
theorem Represents.slot_of_read (h : Represents q b R) (j : Nat) :
    u32.add q.m_read j % q.m_capacity = slot_of b.bound (R + j) := by
  rw [h.read, u32.add_mod_left, h.capacity, slot_of]

/-- The copy holds the elements, where `reserve` found them. -/
theorem represents_reserve (h : Represents q b R) (hk : k < 2 ^ 32) (hgrow : q.m_capacity < k)
    (hsize : q.m_size + 1 = q.m_capacity) (hagree : SlotsAgree q) :
    Represents (q.reserve k) ⟨b.items, k, by rw [← h.size]; omega⟩ 0 := by
  have hgrown := grown hgrow
  have hlen := h.size
  have hend : u32.sub q.m_capacity 1 = (0 + b.items.length) % 2 ^ 32 := by
    rw [u32.sub_eq (by omega) (by omega)]
    omega
  refine ⟨hgrown.capacity, hk, hgrown.read, hgrown.write.trans hend, hgrown.max_read.trans hend,
    hgrown.size.trans h.size, hgrown.slots, ?_, ?_⟩
  · intro j v hv
    have hj : j < b.items.length := (List.getElem?_eq_some_iff.mp hv).1
    show ((q.reserve k).m_buffer.cell (slot_of k (0 + j))).value = some v
    rw [slot_of_first (by omega) hk, hgrown.copied j (by omega), hagree j (by omega),
      h.slot_of_read, h.read_slot hv]
  · intro i j hij hj
    show slot_of k (0 + i) ≠ slot_of k (0 + j)
    have hj' : j < b.items.length := hj
    rw [slot_of_first (by omega) hk, slot_of_first (by omega) hk]
    exact Nat.ne_of_lt hij

/-- The counters and the copy are right for no other queue. -/
theorem of_as_new_reserve (h : Represents q b R) (hk : k < 2 ^ 32) (hgrow : q.m_capacity < k)
    (hnew : AsNew T (q.reserve k) b.items) :
    q.m_size + 1 = q.m_capacity ∧ SlotsAgree q := by
  have hgrown := grown hgrow
  have hlen := h.size
  have hfits := b.fits
  have hcapacity := h.capacity
  have hmax := hnew.max_read (R := 0) (by rw [hgrown.capacity]; omega)
    (by rw [hgrown.capacity]; exact hk) hgrown.read (hgrown.size.trans h.size)
    (by rw [hgrown.capacity]; omega) (by omega)
  have hend : u32.sub q.m_capacity 1 = b.items.length := by
    rw [← hgrown.max_read, hmax]
    omega
  have hsize : q.m_size + 1 = q.m_capacity := by
    rw [hlen, ← u32.add_eq (by omega), ← hend, u32.add_sub_one (by omega)]
  refine ⟨hsize, ?_⟩
  intro j hj
  obtain ⟨v, hv⟩ : ∃ v, b.items[j]? = some v := ⟨_, List.getElem?_eq_getElem (by omega)⟩
  have hread := hnew.in_order (R := 0) (by rw [hgrown.capacity]; omega)
    (by rw [hgrown.capacity]; exact hk) hgrown.read (by
      rw [hgrown.capacity]
      intro i j hij hj
      rw [slot_of_first (by omega) hk, slot_of_first (by omega) hk]
      exact Nat.ne_of_lt hij) hv
  rw [hgrown.capacity, slot_of_first (by omega) hk, Arena.read,
    if_pos (by rw [hgrown.slots]; omega), hgrown.copied j (by omega)] at hread
  rw [hread, h.slot_of_read, h.read_slot hv]

/-! ### The objects -/

/-- Pushing and popping keep an object in every slot. -/
theorem Sound.step {op : Op α} {out : Output α} {q' : LockFreeQueue α} (h : Sound q)
    (hstep : step T q op = some (out, q')) : Sound q' := by
  cases op with
  | try_push_back v | try_emplace_back v => cases hstep; exact h.try_push_back v
  | pop_front => cases hstep; exact h.pop_front
  | empty | full | size => cases hstep; exact h

theorem Sound.uses_objects (h : Sound q) (T : QueueElement α) : UsesObjects T q := by
  intro ops outs q' hrun
  have hsound : Sound q' := hrun.invariant (P := Sound) (fun _ _ _ _ hs _ => hs.step) h
  exact hsound.buffer.misuse

/-- The first slot of the new buffer holds no object when it is assigned to. -/
theorem grown_misuse (hgrow : q.m_capacity < k) (hpos : 0 < q.m_capacity) :
    (q.reserve k).m_buffer.misuse ≠ [] := by
  let buffers := loop (reserve_slot q.m_read q.m_capacity) q.m_capacity (Arena.fresh k, q.m_buffer)
  have hloop : (q.m_capacity = 0 ∧ buffers.1.holds 0 = false) ∨ buffers.1.misuse ≠ [] := by
    refine loop_induction (fun i (buffers : Arena α × Arena α) =>
      (i = 0 ∧ buffers.1.holds 0 = false) ∨ buffers.1.misuse ≠ []) (.inl ⟨rfl, rfl⟩) ?_
    rintro i buffers _ (⟨rfl, hnone⟩ | hmisuse)
    · exact .inr (Arena.assign_misuse_ne (.inr hnone) _)
    · exact .inr (Arena.assign_misuse_ne (.inl hmisuse) _)
  rw [reserve, if_pos hgrow]
  exact hloop.resolve_left fun hnone => Nat.ne_of_gt hpos hnone.1

/--
**`reserve` keeps the elements, their order and their number, makes room for `k`, and the queue
goes on as before with an object in every slot it uses,** in every run of one thread that is
not affected by the wrap, exactly if there is room for `k` already, or the type needs no more
than an assignment, the queue lacks one element to be full and its elements are where
`reserve` looks for them.
-/
theorem reserves_iff {c : Nat} (hc : c < 2 ^ 32) (hk : k < 2 ^ 32) {implicit_lifetime : Bool}
    {ops : List (Op α)} {outs : List (Output α)}
    (hrun : Machine.Run (step T) NotAcrossWrap (with_capacity T c) ops outs q) :
    Reserves T implicit_lifetime q k
        (Machine.trace list_step (BoundedList.empty c) ops).2.items ↔
      k ≤ q.m_capacity ∨
        (implicit_lifetime = true ∧ q.m_size + 1 = q.m_capacity ∧ SlotsAgree q) := by
  obtain ⟨-, R, hrep⟩ := refines_list_of hc hrun
  by_cases hroom : k ≤ q.m_capacity
  · have hsame : q.reserve k = q := by rw [reserve, if_neg (Nat.not_lt.mpr hroom)]
    have hsound : Sound q :=
      hrun.invariant (P := Sound) (fun _ _ _ _ hs _ => hs.step) (sound_with_capacity T c)
    refine iff_of_true ⟨?_, ?_, .inl hsame, fun _ => ?_⟩ (.inl hroom)
    · rw [hsame]
      exact hroom
    · rw [hsame]
    · rw [hsame]
      exact hsound.uses_objects T
  · have hgrow : q.m_capacity < k := Nat.not_le.mp hroom
    have hgrown := grown hgrow
    rw [or_iff_right hroom]
    constructor
    · intro h
      rcases h.goes_on with hsame | hnew
      · exact absurd (hsame ▸ h.capacity) hroom
      · obtain ⟨hsize, hagree⟩ := of_as_new_reserve hrep hk hgrow hnew
        refine ⟨?_, hsize, hagree⟩
        by_contra hneeds
        rw [Bool.not_eq_true] at hneeds
        exact grown_misuse hgrow (by omega) (h.objects hneeds [] [] _ (.nil _))
    · rintro ⟨himplicit, hsize, hagree⟩
      have hnew := as_new_of_represents (T := T)
        (represents_reserve hrep hk hgrow hsize hagree) hgrown.read
      refine ⟨Nat.le_of_eq hgrown.capacity.symm, hgrown.size, .inr hnew, fun hneeds => ?_⟩
      rw [himplicit] at hneeds
      cases hneeds

/-- Two elements in a queue of three, from the second slot on: numbers may grow, and any type
has room for three. -/
theorem reserves_two : ∃ outs q, Machine.Run (step QueueElement.owning) NotAcrossWrap
    (with_capacity QueueElement.owning 3)
    [.try_push_back 5, .pop_front, .try_push_back 6, .try_push_back 7] outs q ∧
    q.m_capacity = 3 ∧ Reserves QueueElement.owning true q 8 [6, 7] ∧
    Reserves QueueElement.owning false q 3 [6, 7] := by
  obtain ⟨q₀, outs, q, hq, hrun, hready⟩ := Machine.exists_run (step QueueElement.owning)
    NotAcrossWrap (some (with_capacity QueueElement.owning 3))
    [.try_push_back 5, .pop_front, .try_push_back 6, .try_push_back 7]
    (fun r => decide (r.2.m_capacity = 3 ∧ r.2.m_size + 1 = r.2.m_capacity ∧ SlotsAgree r.2))
    (by decide +kernel)
  cases hq
  obtain ⟨hcapacity, hready⟩ := of_decide_eq_true hready
  exact ⟨outs, q, hrun, hcapacity,
    (reserves_iff (by decide) (by decide) hrun).mpr (.inr ⟨rfl, hready⟩),
    (reserves_iff (by decide) (by decide) hrun).mpr (.inl (Nat.le_of_eq hcapacity.symm))⟩

/-- The second element of a full queue of two is not found after it grew, whatever its type. -/
theorem reserve_loses_last : ¬ ∀ (T : QueueElement Nat) (c k : Nat) (ops : List (Op Nat))
    (outs : List (Output Nat)) (q : LockFreeQueue Nat), c < 2 ^ 32 → k < 2 ^ 32 →
    Machine.Run (step T) NotAcrossWrap (with_capacity T c) ops outs q →
    Reserves T true q k (Machine.trace list_step (BoundedList.empty c) ops).2.items := by
  intro hclaim
  obtain ⟨q₀, outs, q, hq, hrun, hfull⟩ := Machine.exists_run (step QueueElement.owning)
    NotAcrossWrap (some (with_capacity QueueElement.owning 2))
    [.try_push_back 1, .try_push_back 2]
    (fun r => decide (r.2.m_capacity = 2 ∧ r.2.m_size = 2)) (by decide +kernel)
  cases hq
  obtain ⟨hcapacity, hsize⟩ : q.m_capacity = 2 ∧ q.m_size = 2 := of_decide_eq_true hfull
  obtain ⟨-, R, hrep⟩ := refines_list_of (by decide) hrun
  have hreserves := hclaim _ 2 4 _ _ _ (by decide) (by decide) hrun
  rcases hreserves.goes_on with hsame | hnew
  · have hroom := hreserves.capacity
    rw [hsame, hcapacity] at hroom
    omega
  · have hlacks := (of_as_new_reserve hrep (by decide) (by omega) hnew).1
    omega

end Hyperion.LockFreeQueue
