/-
What a move leaves on either side.

The buffer that is moved from is left with an internal capacity of zero, as if it had been
made without slots: its capacity wraps around, every index is reduced modulo zero, and the
next push writes outside.  The buffer that is constructed is the one moved from, whole.  The
one that is assigned to gets everything but the flags, and keeps its own, which say nothing
about the slots it has now.

A null `m_buffer` is an allocation of no slots, and a vector of flags that was moved from is
empty.  An allocation that an assignment frees is a result of its own.
-/
import Hyperion.RingBuffer.Growth

namespace Hyperion.RingBuffer

variable {α : Type}

/-- What is left of a buffer once its slots are gone, with the flags `c`. -/
def without_buffer (c : ConstructedChecker) : RingBuffer α :=
  ⟨⟨Arena.fresh 0, c⟩, 0, 0, 0⟩

/-- `RingBuffer(RingBuffer&& buffer)`: the new buffer, and what is left of the other one. -/
def move_construct (buffer : RingBuffer α) : RingBuffer α × RingBuffer α :=
  (buffer, without_buffer ⟨fun _ => false, 0⟩)

/-- The loop of the assignments: every object that the flags tell of is destroyed. -/
def destroy_constructed (E : ElementType α) (s : RingBuffer α) : Storage α :=
  let body := fun index (st : Storage α) =>
    let (constructed, st) := st.is_constructed E index
    if constructed then st.destroy index else st
  if E.trivially_destructible then s.toStorage else loop body s.m_capacity s.toStorage

/-- What a move assignment leaves: both buffers, and the allocation that was freed. -/
structure Assigned (α : Type) where
  target : RingBuffer α
  source : RingBuffer α
  freed : Arena α

/-- `operator=(RingBuffer&& buffer)` from another buffer -/
def move_assign (E : ElementType α) (s buffer : RingBuffer α) : Assigned α :=
  let old := s.destroy_constructed E
  { target := { buffer with m_constructed := old.m_constructed }
    source := without_buffer buffer.m_constructed
    freed := old.m_buffer }

/-- `operator=(RingBuffer&& buffer)` from itself -/
def move_assign_self (E : ElementType α) (s : RingBuffer α) : RingBuffer α :=
  without_buffer (s.destroy_constructed E).m_constructed

/-- An empty buffer that can be asked what it holds, and iterated over: it has a slot for its
spacer, and its capacity is one less than it has slots. -/
structure LeftEmpty (s : RingBuffer α) : Prop where
  modulus : 0 < s.m_capacity
  capacity : s.capacity + 1 = s.m_capacity
  size : s.size = 0
  empty : s.empty = true

/-- As many elements, and the same to be read at each position. -/
def SameElements (s s' : RingBuffer α) : Prop :=
  s'.size = s.size ∧ ∀ i, i < s.size → (s'.at' i).1 = (s.at' i).1

/-- Moving `s` hands it over whole, to a new buffer or to `t`, and leaves it empty, and moving
it into itself leaves it as it is. -/
structure MovesWhole (E : ElementType α) (s t : RingBuffer α) : Prop where
  constructed : (move_construct s).1 = s
  construction_leaves : LeftEmpty (move_construct s).2
  assigned : (move_assign E t s).target = s
  assignment_leaves : LeftEmpty (move_assign E t s).source
  itself : SameElements s (move_assign_self E s)

/-! ### The side moved from -/

theorem not_left_empty (c : ConstructedChecker) : ¬LeftEmpty (without_buffer c : RingBuffer α) :=
  fun h => Nat.lt_irrefl 0 h.modulus

/-- It says it can hold as many elements as a word can count, and has no slot for the first. -/
def LeftWithoutSlots (E : ElementType α) (s : RingBuffer α) : Prop :=
  s.capacity = 2 ^ 64 - 1 ∧ ∀ v : α, (s.push_back E v).m_buffer.oob ≠ []

theorem left_without_slots (E : ElementType α) (c : ConstructedChecker) :
    LeftWithoutSlots E (without_buffer c) := by
  refine ⟨capacity_no_slots rfl, fun v => ?_⟩
  rw [RingBuffer.push_back, increment_indices_storage, construct_back]
  simp only [Argument.use_value, Argument.read_value]
  refine set_constructed_oob_ne ?_ _ _
  split
  · refine Arena.construct_oob_ne (.inr (Nat.le_of_eq ?_)) _
    rw [Storage.destroy_slots, Storage.is_constructed_slots]
    rfl
  · refine Arena.construct_oob_ne (.inr (Nat.le_of_eq ?_)) _
    rw [Storage.is_constructed_slots]
    rfl

/-! ### The side moved to -/

/-- Destroying the objects leaves the flags as they are. -/
theorem destroy_constructed_flags (E : ElementType α) (s : RingBuffer α) :
    (s.destroy_constructed E).m_constructed = s.m_constructed := by
  unfold destroy_constructed
  split
  · rfl
  · refine loop_keeps (fun st : Storage α => st.m_constructed = s.m_constructed) rfl ?_
    intro i st _ hst
    have hflag := (is_constructed_flags E st i).trans hst
    simp only
    split
    · exact hflag
    · exact hflag

/-- An assignment hands the buffer over whole where both have the same flags. -/
theorem move_assign_target_iff (E : ElementType α) (s t : RingBuffer α) :
    (move_assign E t s).target = s ↔ t.m_constructed = s.m_constructed := by
  have htarget : (move_assign E t s).target = { s with m_constructed := t.m_constructed } := by
    rw [move_assign, destroy_constructed_flags]
  rw [htarget]
  constructor
  · intro hsame
    rw [← hsame]
  · intro hflags
    rw [hflags]

/-- Moved into itself, a buffer loses what it held. -/
theorem move_assign_self_iff (E : ElementType α) (s : RingBuffer α) :
    SameElements s (move_assign_self E s) ↔ s.size = 0 := by
  have hnone : (move_assign_self E s).size = 0 := by
    show usize.sub 0 0 = 0
    rw [usize.sub_eq (Nat.le_refl 0) (Nat.two_pow_pos 64)]
  constructor
  · rintro ⟨hsize, -⟩
    exact hsize.symm.trans hnone
  · intro hempty
    exact ⟨hnone.trans hempty.symm, fun i hi => by omega⟩

/--
**No move leaves its source a buffer:** its capacity has wrapped around, and the next push writes
outside.  What is constructed is the source as it was; what is assigned to is the source as it
was exactly if the two had the same flags; and a buffer moved into itself keeps its elements
exactly if it has none.
-/
theorem never_moved_whole (E : ElementType α) (s t : RingBuffer α) :
    ¬MovesWhole E s t ∧
    (move_construct s).1 = s ∧ LeftWithoutSlots E (move_construct s).2 ∧
    ((move_assign E t s).target = s ↔ t.m_constructed = s.m_constructed) ∧
    LeftWithoutSlots E (move_assign E t s).source ∧
    (SameElements s (move_assign_self E s) ↔ s.size = 0) :=
  ⟨fun h => not_left_empty _ h.construction_leaves, rfl, left_without_slots E _,
    move_assign_target_iff E s t, left_without_slots E _, move_assign_self_iff E s⟩

/-- Moving a buffer of two that holds one element into a new one. -/
theorem moved_from_wraps : ¬ ∀ (A : Allocator) (E : ElementType Nat)
    (s₀ s t₀ t : RingBuffer Nat) (ops tops : List (Op Nat)) (outs touts : List (Output Nat)),
    Built A E s₀ → Machine.Run (step A E) (Proper E) s₀ ops outs s →
    Built A E t₀ → Machine.Run (step A E) (Proper E) t₀ tops touts t → MovesWhole E s t := by
  intro hclaim
  obtain ⟨s₀, outs, s, h₀, hrun, hcap⟩ := Machine.exists_run
    (step Allocator.large ElementType.owning) (Proper ElementType.owning)
    (with_capacity Allocator.large ElementType.owning 2) [.push_back 1]
    (fun r => decide ((move_construct r.2).2.m_capacity = 0)) (by decide +kernel)
  have hwhole := hclaim _ _ _ _ _ _ _ _ _ _ (.inl ⟨2, by decide, h₀⟩) hrun
    (.inl ⟨2, by decide, h₀⟩) hrun
  have hmodulus := hwhole.construction_leaves.modulus
  rw [of_decide_eq_true hcap] at hmodulus
  exact Nat.lt_irrefl 0 hmodulus

end Hyperion.RingBuffer
