/-
What an erasure leaves in the buffer.

The elements behind what is erased move down over it, and then the write index steps back.
Stepping back by one is right everywhere.  Stepping back by more is right as long as it
does not cross the start of the array: there one place is lost, so that an element too many
goes, or all of them stay.  And a range that ends behind the slot of the write index, as it
can where the buffer wraps around, is erased without moving anything: what the caller gets
back is the end.
-/
import Hyperion.RingBuffer.Insertion

namespace Hyperion.RingBuffer

variable {α : Type} {A : Allocator} {E : ElementType α} {s : RingBuffer α} {b : BoundedList α}

/-- The range is gone from the list, the rest is as it was, and the iterator is where it began. -/
structure Erased (E : ElementType α) (s : RingBuffer α) (b : BoundedList α) (f l : Nat)
    (r : Iterator × RingBuffer α) : Prop where
  contains : Contains E r.2 (b.eraseRange f l)
  size : r.2.size + (l - f) = s.size
  index : r.1.m_current_index = f
  at_end : l = s.size → r.1.m_current_index = r.2.end'.1.m_current_index
  misuse : r.2.m_buffer.misuse = []

/-- Erasing from `f` to `l` erases the range, or nothing where there is none. -/
def RangeErased (E : ElementType α) (s : RingBuffer α) (f l : Nat) : Prop :=
  (l ≤ f → s.erase_range E (s.iterator f) (s.iterator l) = (s.iterator l, s)) ∧
  (f < l → ∃ b, Contains E s b ∧
    Erased E s b f l (s.erase_range E (s.iterator f) (s.iterator l)))

/-- Erasing at `p` erases the element there, and nothing at the end. -/
def PositionErased (E : ElementType α) (s : RingBuffer α) (p : Nat) : Prop :=
  ∃ b, Contains E s b ∧ (p < s.size → Erased E s b p (p + 1) (s.erase_internal E p)) ∧
    (p = s.size → s.erase_internal E p = (s.end'.1, s))

/-! ### What is left -/

/-- Where the elements behind the range moved down over it, and the buffer is that much shorter,
it contains the rest of the list. -/
theorem Contains.moved_down {t : RingBuffer α} (h : Contains E s b) (ht : Owned t) {f l : Nat}
    (hfl : f < l) (hl : l ≤ s.size) {p : Nat → Bool}
    (hshifted : s.ShiftedDown f l (s.size - l) p t.toStorage)
    (hstart : t.m_start_index = s.m_start_index) (hcap : t.m_capacity = s.m_capacity)
    (hsize : t.size + (l - f) = s.size) : Contains E t (b.eraseRange f l) := by
  have hlen := h.size_eq
  have hlength := BoundedList.length_eraseRange (b := b) (Nat.le_of_lt hfl) (hlen ▸ hl)
  refine ht.contains (by omega) (hcap.trans h.bound_eq) fun j x hx => ?_
  have hj : j < (b.eraseRange f l).items.length := (List.getElem?_eq_some_iff.mp hx).1
  rw [BoundedList.getElem?_eraseRange (Nat.le_of_lt hfl) (hlen ▸ hl)] at hx
  obtain ⟨id, hcell⟩ := h.holds _ x hx
  rw [internal_congr hstart hcap, hshifted.value_before j (by omega), hcell]

/-- The buffer after an erasure, from its contents and the iterator. -/
theorem Erased.of_contains {f l : Nat} {r : Iterator × RingBuffer α}
    (hcontains : Contains E r.2 (b.eraseRange f l)) (ho : Owned r.2)
    (hsize : r.2.size + (l - f) = s.size) (hfl : f ≤ l) (hindex : r.1.m_current_index = f) :
    Erased E s b f l r := by
  refine ⟨hcontains, hsize, hindex, fun hend => ?_, ho.tracked.kept.misuse⟩
  show r.1.m_current_index = r.2.size
  omega

/-- **Erasing one element leaves the others in their order.** -/
theorem Contains.erase (h : Contains E s b) (ho : Owned s)
    (hE : E.trivially_destructible = false) {p : Nat} (hp : p < s.size) :
    Erased E s b p (p + 1) (s.erase_internal E p) := by
  have hpos : 0 < s.size := Nat.lt_of_le_of_lt (Nat.zero_le p) hp
  obtain ⟨hindex, hstate⟩ := h.toSound.erase_internal_eq hp
  have howned := ho.erase hE (Nat.le_of_lt hp)
  have hst := h.toShape.with_storage (s.shift_down E p (p + 1) (s.size - 1 - p))
  obtain ⟨-, hless⟩ := hst.decrement_write_nonempty hpos
  obtain ⟨p', hshifted⟩ := h.shifted_down ho.tracked hE ho.live
    (f := p) (l := p + 1) (n := s.size - 1 - p) (Nat.lt_succ_self p) (by omega)
  rw [show s.size - 1 - p = s.size - (p + 1) by omega] at hshifted hless hstate
  have hsize : (s.erase_internal E p).2.size + (p + 1 - p) = s.size := by
    rw [hstate, Nat.add_sub_cancel_left]
    exact hless
  refine .of_contains (h.moved_down howned (Nat.lt_succ_self p) hp (p := p') ?_ ?_ ?_ hsize)
    howned hsize (Nat.le_succ p) hindex
  · rw [hstate, decrement_write_storage]
    exact hshifted
  · rw [hstate, decrement_write_start]
  · rw [hstate, decrement_write_capacity]

/-- A range that ends at or before the spacer's slot, and is no longer than the way from the
start of the array to there. -/
theorem Contains.erase_range (h : Contains E s b) (ho : Owned s)
    (hE : E.trivially_destructible = false) {f l : Nat} (hfl : f < l) (hl : l ≤ s.size)
    (hbehind : s.get_adjusted_internal_index l ≤ s.m_write_index)
    (hfar : l - f ≤ s.m_write_index) :
    Erased E s b f l (s.erase_range E (s.iterator f) (s.iterator l)) := by
  have hn : l - f ≤ s.size := Nat.le_trans (Nat.sub_le l f) hl
  obtain ⟨hindex, hstate⟩ := h.toSound.erase_range_eq hfl hl hbehind
  have howned := ho.erase_range_down hE hfl hl hbehind fun hwhole => by omega
  have hst := h.toShape.with_storage (s.shift_down E f l (s.size - l))
  have hless := hst.size_decrement_write_n (n := l - f) hn
  rw [if_pos (show l - f ≤ s.m_write_index from hfar)] at hless
  obtain ⟨p', hshifted⟩ := h.shifted_down ho.tracked hE ho.live
    (f := f) (l := l) (n := s.size - l) hfl (by omega)
  have hsize : (s.erase_range E (s.iterator f) (s.iterator l)).2.size + (l - f) = s.size := by
    rw [hstate, hless]
    exact Nat.sub_add_cancel hn
  refine .of_contains (h.moved_down howned hfl hl (p := p') ?_ ?_ ?_ hsize) howned hsize
    (Nat.le_of_lt hfl) hindex
  · rw [hstate, decrement_write_n_storage]
    exact hshifted
  · rw [hstate, decrement_write_n_start]
  · rw [hstate, decrement_write_n_capacity]

/-! ### Where the range is -/

/-- The end that comes back from a range behind the spacer's slot is not where the range began. -/
theorem Erased.not_behind (h : Sound E s) {f l : Nat} (hfl : f < l) (hl : l ≤ s.size)
    (he : Erased E s b f l (s.erase_range E (s.iterator f) (s.iterator l))) :
    s.get_adjusted_internal_index l ≤ s.m_write_index := by
  by_contra hbehind
  obtain ⟨hindex, hstate⟩ := h.erase_range_retract hfl hl (Nat.not_le.mp hbehind)
  have hsize := he.size
  rw [he.index] at hindex
  rw [hstate] at hsize
  have hend : l = s.size := by omega
  rw [hend, h.internal_size] at hbehind
  exact hbehind (Nat.le_refl _)

/-- Stepping back over the start of the array loses a place. -/
theorem Erased.not_across (h : Sound E s) {f l : Nat} (hfl : f < l) (hl : l ≤ s.size)
    (he : Erased E s b f l (s.erase_range E (s.iterator f) (s.iterator l))) :
    l - f ≤ s.m_write_index := by
  by_contra hfar
  have hlt := h.size_lt
  obtain ⟨-, hstate⟩ := h.erase_range_eq hfl hl (he.not_behind h hfl hl)
  have hst := h.toShape.with_storage (s.shift_down E f l (s.size - l))
  have hless : _ = if l - f ≤ s.m_write_index then s.size - (l - f)
      else if l - f = s.size then s.m_capacity - 1 else s.size - (l - f) - 1 :=
    hst.size_decrement_write_n (n := l - f) (Nat.le_trans (Nat.sub_le l f) hl)
  have hsize := he.size
  rw [hstate, hless, if_neg hfar] at hsize
  split at hsize <;> omega

/--
**Erasing a range removes it and nothing else,** after any pushes and pops, exactly if it is
empty, or the buffer has slots, the range does not end behind the slot of the write index, and
is not longer than the write index says.
-/
theorem range_erased_iff {s₀ : RingBuffer α} {ops : List (Op α)} {outs : List (Output α)}
    (hE : E.trivially_destructible = false) (h₀ : Built A E s₀)
    (hrun : Machine.Run (step A E) (fun _ op => op.PushesOrPops) s₀ ops outs s) {f l : Nat}
    (hl : l ≤ s.size) :
    RangeErased E s f l ↔ l ≤ f ∨ (0 < s.m_capacity ∧
      s.get_adjusted_internal_index l ≤ s.m_write_index ∧ l - f ≤ s.m_write_index) := by
  by_cases hfl : l ≤ f
  · exact iff_of_true ⟨fun _ => Sound.erase_range_none hfl, fun hlt => by omega⟩ (.inl hfl)
  have hlt : f < l := Nat.lt_of_not_le hfl
  constructor
  · rintro ⟨-, herased⟩
    obtain ⟨b, hb, he⟩ := herased hlt
    exact .inr ⟨hb.cap_pos, he.not_behind hb.toSound hlt hl, he.not_across hb.toSound hlt hl⟩
  · intro hwhere
    obtain ⟨hslots, hbehind, hfar⟩ := hwhere.resolve_left hfl
    refine ⟨fun hle => absurd hle hfl, fun _ => ?_⟩
    rcases pushed_or_popped hE h₀ hrun with ⟨howned, b, hb⟩ | hnone
    · exact ⟨b, hb, hb.erase_range howned hE hlt hl hbehind hfar⟩
    · omega

/-- The last element of a full buffer of two that wraps around. -/
theorem range_erased_wrapped : ∃ s₀ outs s,
    Machine.Run (step Allocator.large ElementType.owning) (fun _ op => op.PushesOrPops) s₀
      [.push_back 1, .push_back 2, .pop_front, .push_back 3, .pop_front, .push_back 4] outs s ∧
    RangeErased ElementType.owning s 1 2 := by
  obtain ⟨s₀, outs, s, h₀, hrun, hwhere⟩ := Machine.exists_run
    (step Allocator.large ElementType.owning) (fun _ op => op.PushesOrPops)
    (with_capacity Allocator.large ElementType.owning 2)
    [.push_back 1, .push_back 2, .pop_front, .push_back 3, .pop_front, .push_back 4]
    (fun r => decide (2 ≤ r.2.size ∧ 0 < r.2.m_capacity ∧
      r.2.get_adjusted_internal_index 2 ≤ r.2.m_write_index ∧ 2 - 1 ≤ r.2.m_write_index))
    (by decide +kernel)
  obtain ⟨hl, hwhere⟩ := of_decide_eq_true hwhere
  exact ⟨s₀, outs, s, hrun,
    (range_erased_iff rfl (.inl ⟨2, by decide, h₀⟩) hrun hl).mpr (.inr hwhere)⟩

/-- Erasing the last element of a buffer that is written next at slot 0 takes the other one
with it. -/
theorem range_erased_two : ¬ ∀ (A : Allocator) (E : ElementType Nat) (s₀ s : RingBuffer Nat)
    (ops : List (Op Nat)) (outs : List (Output Nat)) (f l : Nat),
    E.trivially_destructible = false → Built A E s₀ →
    Machine.Run (step A E) (fun _ op => op.PushesOrPops) s₀ ops outs s → f ≤ s.size →
    l ≤ s.size → RangeErased E s f l := by
  intro hclaim
  obtain ⟨s₀, outs, s, h₀, hrun, hbad⟩ := Machine.exists_run
    (step Allocator.large ElementType.owning) (fun _ op => op.PushesOrPops)
    (with_capacity Allocator.large ElementType.owning 2)
    [.push_back 1, .push_back 2, .pop_front, .push_back 3]
    (fun r => decide (r.2.size = 2 ∧ (r.2.erase_range ElementType.owning (r.2.iterator 1)
      (r.2.iterator 2)).2.size = 0)) (by decide +kernel)
  obtain ⟨hsize, hnone⟩ : s.size = 2 ∧ _ := of_decide_eq_true hbad
  obtain ⟨-, herased⟩ := hclaim _ _ _ _ _ _ 1 2 rfl (.inl ⟨2, by decide, h₀⟩) hrun
    (by omega) (by omega)
  obtain ⟨b, -, he⟩ := herased (by decide)
  have hleft := he.size
  rw [hnone, hsize] at hleft
  omega

/-! ### One element -/

/--
**Erasing at a position removes the element there and keeps the others in order, and erasing
at the end does nothing,** after any pushes and pops, in every buffer that has slots.
-/
theorem position_erased_iff {s₀ : RingBuffer α} {ops : List (Op α)} {outs : List (Output α)}
    (hE : E.trivially_destructible = false) (h₀ : Built A E s₀)
    (hrun : Machine.Run (step A E) (fun _ op => op.PushesOrPops) s₀ ops outs s) (p : Nat) :
    PositionErased E s p ↔ 0 < s.m_capacity := by
  constructor
  · rintro ⟨b, hb, -⟩
    exact hb.cap_pos
  · intro hslots
    rcases pushed_or_popped hE h₀ hrun with ⟨howned, b, hb⟩ | hnone
    · refine ⟨b, hb, fun hlt => hb.erase howned hE hlt, fun hend => ?_⟩
      rw [hend, hb.toSound.erase_internal_end, hb.end'_eq]
    · omega

/-- The front of a full buffer of two that wraps around. -/
theorem position_erased_wrapped : ∃ s₀ outs s,
    Machine.Run (step Allocator.large ElementType.owning) (fun _ op => op.PushesOrPops) s₀
      [.push_back 1, .push_back 2, .pop_front, .push_back 3] outs s ∧ s.size = 2 ∧
    PositionErased ElementType.owning s 0 := by
  obtain ⟨s₀, outs, s, h₀, hrun, hsize⟩ := Machine.exists_run
    (step Allocator.large ElementType.owning) (fun _ op => op.PushesOrPops)
    (with_capacity Allocator.large ElementType.owning 2)
    [.push_back 1, .push_back 2, .pop_front, .push_back 3]
    (fun r => decide (0 < r.2.m_capacity ∧ r.2.size = 2)) (by decide +kernel)
  obtain ⟨hslots, hsize⟩ := of_decide_eq_true hsize
  exact ⟨s₀, outs, s, hrun, hsize,
    (position_erased_iff rfl (.inl ⟨2, by decide, h₀⟩) hrun 0).mpr hslots⟩

/-- Where the number of slots wraps around to none, the position is reduced modulo zero. -/
theorem position_erased_without_slots : ¬ ∀ (A : Allocator) (E : ElementType Nat)
    (s₀ s : RingBuffer Nat) (ops : List (Op Nat)) (outs : List (Output Nat)) (p : Nat),
    E.trivially_destructible = false → Built A E s₀ →
    Machine.Run (step A E) (fun _ op => op.PushesOrPops) s₀ ops outs s → p ≤ s.size →
    PositionErased E s p := by
  intro hclaim
  have hadd : usize.add (2 ^ 64 - 1) 1 = 0 := by
    rw [usize.add, Word.add]
    decide
  have h₀ : ∀ n, usize.add n 1 = 0 → with_capacity Allocator.large ElementType.owning n
      = some ⟨⟨Arena.fresh 0, ⟨fun _ => false, 0⟩⟩, 0, 0, 0⟩ := by
    intro n hn
    simp [with_capacity, hn, allocate_unique, ConstructedChecker.new, ElementType.owning]
  obtain ⟨b, hb, -⟩ := hclaim _ _ _ _ [] [] 0 rfl (.inl ⟨2 ^ 64 - 1, by decide, h₀ _ hadd⟩)
    (.nil _) (Nat.zero_le _)
  exact Nat.lt_irrefl 0 hb.cap_pos

end Hyperion.RingBuffer
