/-
Going over the buffer, and moving about in it.

An iterator is an index and the slot of that index.  Going forward it stops at the
capacity, not at the size.  A loop that compares with `end()` after each step does not
notice: it takes one step at a time, and so meets the end before the capacity, or with it
where the buffer is full.  A jump does: in a buffer with room it goes past the end.

`operator+` and `operator-` hand a negative number to each other with its sign changed,
which for the smallest number there is cannot be done.
-/
import Hyperion.RingBuffer.Growth

namespace Hyperion.RingBuffer

variable {α : Type} {A : Allocator} {E : ElementType α} {s : RingBuffer α}

/-! ### One step at a time -/

/-- The same indices, and the same to be read in every slot. -/
structure SameView (s t : RingBuffer α) : Prop where
  write : t.m_write_index = s.m_write_index
  start : t.m_start_index = s.m_start_index
  capacity : t.m_capacity = s.m_capacity
  read : ∀ i, t.m_buffer.read i = s.m_buffer.read i

namespace SameView

variable {t : RingBuffer α}

theorem refl (s : RingBuffer α) : SameView s s := ⟨rfl, rfl, rfl, fun _ => rfl⟩

/-- Naming a slot leaves the view as it is. -/
theorem slot (h : SameView s t) (i : Nat) : SameView s (t.slot i).2 := by
  refine ⟨h.write, h.start, h.capacity, fun j => ?_⟩
  rw [← h.read j, RingBuffer.slot, Arena.read, Arena.touch_slots, Arena.touch_cell]
  rfl

theorem internal (h : SameView s t) (i : Nat) :
    t.get_adjusted_internal_index i = s.get_adjusted_internal_index i :=
  internal_congr h.start h.capacity i

theorem size (h : SameView s t) : t.size = s.size := by
  unfold RingBuffer.size
  rw [h.write, h.start, h.capacity]

theorem capacity_eq (h : SameView s t) : t.capacity = s.capacity := by
  rw [RingBuffer.capacity, RingBuffer.capacity, h.capacity]

end SameView

/-- One step forward in a buffer that looks like `s`. -/
theorem SameView.increment {t : RingBuffer α} (h : SameView s t) {it : Iterator}
    (hit : it.m_current_index < s.size) (hcap : s.size ≤ s.capacity) (hword : s.size < 2 ^ 64) :
    (it.increment t).1.m_current_index = it.m_current_index + 1 ∧
    (it.m_current_index + 1 < s.size → (it.increment t).1.m_ptr
      = s.get_adjusted_internal_index (it.m_current_index + 1)) ∧
    SameView s (it.increment t).2 := by
  have hadd : usize.add it.m_current_index 1 = it.m_current_index + 1 :=
    usize.add_eq (by omega)
  unfold Iterator.increment
  simp only [hadd, h.capacity_eq, h.internal]
  by_cases hlast : it.m_current_index + 1 ≥ s.capacity
  · rw [if_pos hlast]
    exact ⟨by show s.capacity = _; omega, fun hlt => by omega, h.slot _⟩
  · rw [if_neg hlast]
    exact ⟨rfl, fun _ => rfl, h.slot _⟩

/-- From index `i` on, `d` elements before the end. -/
theorem SameView.traverse {last : Iterator} (hlast : last.m_current_index = s.size)
    (hcap : s.size ≤ s.capacity) (hword : s.size < 2 ^ 64) :
    ∀ (d fuel : Nat) (it : Iterator) (t : RingBuffer α), SameView s t → d ≤ fuel →
      it.m_current_index + d = s.size →
      (0 < d → it.m_ptr = s.get_adjusted_internal_index it.m_current_index) →
      (RingBuffer.traverse last fuel it t).1
        = (List.range' it.m_current_index d).map fun i => (s.at' i).1 := by
  intro d
  induction d with
  | zero =>
      intro fuel it t _ _ hend _
      cases fuel with
      | zero => rfl
      | succ fuel =>
          rw [RingBuffer.traverse, if_pos (by omega)]
          rfl
  | succ d ih =>
      intro fuel it t h hfuel hd hptr
      obtain ⟨fuel, rfl⟩ : ∃ k, fuel = k + 1 := ⟨fuel - 1, by omega⟩
      have hit : it.m_current_index < s.size := by omega
      obtain ⟨hindex, hnext, hsame⟩ := (h.slot it.m_ptr).increment hit hcap hword
      have hrest := ih fuel (it.increment (t.slot it.m_ptr).2).1 _ hsame (by omega) (by omega)
        fun hpos => by rw [hnext (by omega), hindex]
      rw [RingBuffer.traverse, if_neg (by omega), List.range'_succ, List.map_cons]
      refine congrArg₂ List.cons ?_ (by rw [hrest, hindex])
      show t.m_buffer.read it.m_ptr = s.m_buffer.read _
      rw [h.read, hptr (Nat.succ_pos d)]

theorem size_word (h : Shape s ∨ s.m_capacity = 0) : s.size < 2 ^ 64 ∧ s.size ≤ s.capacity := by
  rcases h with h | hnone
  · have hsize := h.size_lt
    have hcap := h.cap_le
    rw [h.capacity_eq]
    omega
  · have hword : s.size < 2 ^ 64 := by
      unfold size
      split
      · exact usize.sub_lt _ _
      · exact usize.sub_lt _ _
    rw [capacity_no_slots hnone]
    omega

/-- The start index is a word, also where it is reduced modulo zero. -/
theorem start_word_step {s' : RingBuffer α} {op : Op α} {o : Output α} (hop : op.AtEnds)
    (hstep : s.step A E op = some (o, s')) (h : s.m_start_index < 2 ^ 64) :
    s'.m_start_index < 2 ^ 64 := by
  have hinternal : ∀ (t : RingBuffer α) i, t.get_adjusted_internal_index i < 2 ^ 64 :=
    fun t i => Nat.lt_of_le_of_lt (Nat.mod_le _ _) (usize.add_lt _ _)
  have hincrement : ∀ t : RingBuffer α, t.m_start_index < 2 ^ 64 →
      t.increment_indices.m_start_index < 2 ^ 64 := by
    intro t ht
    rw [increment_indices_start]
    split
    · exact hinternal t 1
    · exact ht
  have hfront : ∀ t : RingBuffer α, t.m_start_index < 2 ^ 64 →
      t.increment_start.m_start_index < 2 ^ 64 := by
    intro t ht
    unfold increment_start
    split
    · exact hinternal t 1
    · exact ht
  cases op with
  | push_back v => cases hstep; exact hincrement _ h
  | emplace_back v => cases hstep; exact hincrement _ h
  | pop_front =>
      cases hstep
      show (s.pop_front E).2.m_start_index < 2 ^ 64
      unfold RingBuffer.pop_front
      split
      · exact hfront _ h
      · exact h
  | pop_back =>
      cases hstep
      show (s.pop_back E).2.m_start_index < 2 ^ 64
      unfold RingBuffer.pop_back
      split
      · show (decrement_write _).m_start_index < 2 ^ 64
        rw [decrement_write_start]
        exact h
      · exact h
  | clear => cases hstep; exact Nat.two_pow_pos 64
  | _ => exact absurd hop id

/-- A constructor makes a buffer that starts at slot 0. -/
theorem built_start (h : Built A E s) : s.m_start_index = 0 := by
  rcases h with ⟨n, -, h⟩ | ⟨values, -, h⟩
  · simp only [with_capacity, Option.bind_eq_bind, Option.bind_eq_some_iff, Option.some.injEq] at h
    obtain ⟨a, -, c, -, rfl⟩ := h
    rfl
  · simp only [of_values, Option.bind_eq_bind, Option.bind_eq_some_iff, Option.some.injEq] at h
    obtain ⟨a, -, c, -, rfl⟩ := h
    rfl

/-- After calls at the two ends the first element is where the buffer starts. -/
theorem starts_at_zero {s₀ : RingBuffer α} {ops : List (Op α)} {outs : List (Output α)}
    (h₀ : Built A E s₀)
    (hrun : Machine.Run (step A E) (fun _ op => op.AtEnds) s₀ ops outs s) :
    (Shape s ∨ s.m_capacity = 0) ∧ s.get_adjusted_internal_index 0 = s.m_start_index := by
  rcases built_cases h₀ with hmade | hnone
  · obtain ⟨b, hb⟩ : ∃ b, Contains E s b := by
      refine hrun.invariant (P := fun s => ∃ b, Contains E s b) ?_ hmade.contains
      rintro s op o s' ⟨b, hb⟩ hop hstep
      exact ⟨_, (hb.step hop hstep).2⟩
    exact ⟨.inl hb.toShape, hb.internal_zero⟩
  · obtain ⟨hnone, hstart⟩ : s.m_capacity = 0 ∧ s.m_start_index < 2 ^ 64 := by
      refine hrun.invariant (P := fun s => s.m_capacity = 0 ∧ s.m_start_index < 2 ^ 64) ?_
        ⟨hnone, by rw [built_start h₀]; exact Nat.two_pow_pos 64⟩
      rintro s op o s' ⟨hcap, hstart⟩ hop hstep
      exact ⟨(capacity_step hop hstep).trans hcap, start_word_step hop hstep hstart⟩
    refine ⟨.inr hnone, ?_⟩
    rw [get_adjusted_internal_index, hnone, Nat.mod_zero, usize.add_eq (by omega), Nat.add_zero]

/--
**The loop from `begin()` to `end()` visits every element once, in order, and stops,** after any
pushes, pops and clears: it takes as many rounds as there are elements, however many more it
were allowed to take.
-/
theorem visits_in_order {s₀ : RingBuffer α} {ops : List (Op α)} {outs : List (Output α)}
    (h₀ : Built A E s₀) (hrun : Machine.Run (step A E) (fun _ op => op.AtEnds) s₀ ops outs s)
    {fuel : Nat} (hfuel : s.size ≤ fuel) :
    (traverse s.end'.1 fuel s.begin'.1 s).1 = (List.range s.size).map fun i => (s.at' i).1 := by
  obtain ⟨hshape, hzero⟩ := starts_at_zero h₀ hrun
  obtain ⟨hword, hcap⟩ := size_word hshape
  rw [List.range_eq_range']
  have hlast : s.end'.1.m_current_index = s.size := rfl
  exact SameView.traverse hlast hcap hword s.size fuel s.begin'.1 s (.refl s) hfuel
    (Nat.zero_add _) fun _ => hzero.symm

/-- Over a full buffer of two that wraps around, with rounds to spare. -/
theorem visits_in_order_wrapped : ∃ s₀ outs s,
    Machine.Run (step Allocator.large ElementType.owning) (fun _ op => op.AtEnds) s₀
      [.push_back 1, .push_back 2, .pop_front, .push_back 3] outs s ∧
    (traverse s.end'.1 7 s.begin'.1 s).1 = (List.range s.size).map fun i => (s.at' i).1 := by
  obtain ⟨s₀, outs, s, h₀, hrun, hsize⟩ := Machine.exists_run
    (step Allocator.large ElementType.owning) (fun _ op => op.AtEnds)
    (with_capacity Allocator.large ElementType.owning 2)
    [.push_back 1, .push_back 2, .pop_front, .push_back 3]
    (fun r => decide (r.2.size ≤ 7)) (by decide +kernel)
  exact ⟨s₀, outs, s, hrun, visits_in_order (.inl ⟨2, by decide, h₀⟩) hrun
    (of_decide_eq_true hsize)⟩

/-! ### Jumps -/

/-- `static_cast<usize>(rhs)` of a signed number of 64 bits. -/
def usize.of_signed (rhs : Int) : Nat := (rhs % 2 ^ 64).toNat

/-- `static_cast<std::ptrdiff_t>(index)` -/
def signed (index : Nat) : Int := if index < 2 ^ 63 then index else (index : Int) - 2 ^ 64

/-- `-rhs`, which the smallest number does not have. -/
def negated (rhs : Int) : Option Int := if rhs = -2 ^ 63 then none else some (-rhs)

/-- `operator-(rhs)` for a `rhs` that is not negative -/
def Iterator.minus (it : Iterator) (diff : Nat) (s : RingBuffer α) : Iterator × RingBuffer α :=
  if diff > it.m_current_index then (⟨s.begin'.1.m_ptr, 0⟩, s.begin'.2)
  else
    let index := usize.sub it.m_current_index diff
    (⟨s.get_adjusted_internal_index index, index⟩, (s.subscript index).2)

/-- `operator+(rhs)`; `-rhs` of a negative number is not negative in its turn. -/
def Iterator.add (it : Iterator) (rhs : Int) (s : RingBuffer α) :
    Option (Iterator × RingBuffer α) :=
  if rhs < 0 then (negated rhs).map fun rhs => it.minus (usize.of_signed rhs) s
  else some (it.plus (usize.of_signed rhs) s)

/-- `operator-(rhs)` -/
def Iterator.sub (it : Iterator) (rhs : Int) (s : RingBuffer α) :
    Option (Iterator × RingBuffer α) :=
  if rhs < 0 then (negated rhs).map fun rhs => it.plus (usize.of_signed rhs) s
  else some (it.minus (usize.of_signed rhs) s)

/-- `operator-(rhs)` of another iterator -/
def Iterator.difference (it rhs : Iterator) : Int :=
  signed it.m_current_index - signed rhs.m_current_index

/-- In `[begin(), end()]`, at the slot of its index. -/
def Iterator.Within (it : Iterator) (s : RingBuffer α) : Prop :=
  it.m_current_index ≤ s.size ∧ it.m_ptr = s.get_adjusted_internal_index it.m_current_index ∧
    it.m_ptr < s.m_buffer.slots

/-- From index `i`, going forward and back by `n` ends within the buffer, and where nothing stops
it, ends where it should. -/
structure Navigates (s : RingBuffer α) (i : Nat) (n : Int) : Prop where
  plus : ∃ r, (s.iterator i).add n s = some r ∧ r.1.Within s
  minus : ∃ r, (s.iterator i).sub n s = some r ∧ r.1.Within s
  negation : ∃ m, negated n = some m ∧ (s.iterator i).add m s = (s.iterator i).sub n s
  exact_place : 0 ≤ i + n → i + n ≤ s.size →
    ∃ r, (s.iterator i).add n s = some r ∧ r.1.difference (s.iterator i) = n

theorem usize.of_signed_natCast {d : Nat} (h : d < 2 ^ 63) : usize.of_signed d = d := by
  unfold usize.of_signed
  omega

theorem signed_eq {index : Nat} (h : index < 2 ^ 63) : signed index = index := if_pos h

namespace Fitted

variable {n m i d : Nat}

/-- Forward, within what the buffer can hold. -/
theorem plus_inside (h : Fitted E n m s) (hd : i + d < s.m_capacity) :
    (s.iterator i).plus d s = (s.iterator (i + d), s) := by
  have hcap := h.capacity_eq
  have hle := h.cap_le
  have hadd : usize.add i d = i + d := usize.add_eq (by omega)
  unfold Iterator.plus iterator
  simp only [hadd]
  rw [if_neg (by omega), h.subscript_eq]

/-- Forward, past it. -/
theorem plus_outside (h : Fitted E n m s) (hi : i ≤ s.size) (hd : s.m_capacity ≤ i + d)
    (hword : d < 2 ^ 63) :
    (s.iterator i).plus d s = (⟨s.m_write_index, s.capacity⟩, s) := by
  have hcap := h.capacity_eq
  have hle := h.cap_le
  have hpos := h.cap_pos
  have hsize := h.size_lt
  have hadd : usize.add i d = i + d := usize.add_eq (by omega)
  unfold Iterator.plus iterator
  simp only [hadd]
  rw [if_pos (by omega), h.end'_eq]

/-- Back, and no further than to the beginning. -/
theorem minus_eq (h : Fitted E n m s) (hi : i ≤ s.size) :
    (s.iterator i).minus d s = (s.iterator (i - d), s) := by
  have hsize := h.size_lt
  unfold Iterator.minus iterator
  simp only
  by_cases hfar : d > i
  · rw [if_pos hfar, h.begin'_eq, show i - d = 0 by omega, h.internal_zero]
  · have hsub : usize.sub i d = i - d := h.sub_eq (by omega) (by omega)
    rw [if_neg hfar, hsub, h.subscript_eq]

theorem iterator_within (h : Fitted E n m s) (hi : i ≤ s.size) : (s.iterator i).Within s :=
  ⟨hi, rfl, h.fits.buffer.slots ▸ h.position_lt i⟩

/-- Forward, the end is passed exactly in a buffer with room. -/
theorem plus_within_iff (h : Fitted E n m s) (hi : i ≤ s.size) (hword : d < 2 ^ 63) :
    ((s.iterator i).plus d s).1.Within s ↔ s.full = true ∨ i + d ≤ s.size := by
  have hcap := h.capacity_eq
  have hsize := h.size_lt
  rw [h.full_iff]
  by_cases hd : i + d < s.m_capacity
  · rw [h.plus_inside hd]
    refine ⟨fun hwithin => .inr hwithin.1, fun hend => h.iterator_within ?_⟩
    omega
  · rw [h.plus_outside hi (Nat.not_lt.mp hd) hword]
    constructor
    · rintro ⟨hindex, -, -⟩
      have hindex : s.capacity ≤ s.size := hindex
      omega
    · intro hend
      have hfull : s.capacity = s.size := by omega
      refine ⟨Nat.le_of_eq hfull, ?_, h.fits.buffer.slots ▸ h.write_lt'⟩
      show s.m_write_index = s.get_adjusted_internal_index s.capacity
      rw [hfull, h.internal_size]

/-- A number that is not negative. -/
theorem navigates_forward (h : Fitted E n m s) (hi : i ≤ s.size) (hword : d < 2 ^ 63) :
    Navigates s i d ↔ s.full = true ∨ i + d ≤ s.size := by
  have hsize := h.size_lt
  have hcap := h.cap_le
  have hcast := usize.of_signed_natCast hword
  have hadd : (s.iterator i).add d s = some ((s.iterator i).plus d s) := by
    rw [Iterator.add, if_neg (by omega), hcast]
  have hsub : (s.iterator i).sub d s = some (s.iterator (i - d), s) := by
    rw [Iterator.sub, if_neg (by omega), hcast, h.minus_eq hi]
  rw [← h.plus_within_iff hi hword]
  constructor
  · rintro ⟨⟨r, hr, hwithin⟩, -, -, -⟩
    rw [hadd, Option.some.injEq] at hr
    exact hr ▸ hwithin
  · intro hwithin
    refine ⟨⟨_, hadd, hwithin⟩, ⟨_, hsub, h.iterator_within (by omega)⟩,
      ⟨-d, if_neg (by omega), ?_⟩, fun _ hend => ⟨_, hadd, ?_⟩⟩
    · rw [hsub]
      rcases Nat.eq_zero_or_pos d with rfl | hpos
      · -- the opposite of zero is not negative either
        rw [Int.natCast_zero, Int.neg_zero, Iterator.add, if_neg (by omega)]
        show some ((s.iterator i).plus 0 s) = _
        rw [h.plus_inside (by omega)]
        rfl
      · rw [Iterator.add, if_pos (by omega), negated, if_neg (by omega), Option.map_some,
          Int.neg_neg, hcast, h.minus_eq hi]
    · rw [h.plus_inside (by omega)]
      show signed (i + d) - signed i = d
      rw [signed_eq (by omega), signed_eq (by omega)]
      omega

/-- A negative number that has an opposite. -/
theorem navigates_backward (h : Fitted E n m s) (hi : i ≤ s.size) (hpos : 0 < d)
    (hword : d < 2 ^ 63) : Navigates s i (-d) ↔ s.full = true ∨ i + d ≤ s.size := by
  have hsize := h.size_lt
  have hcap := h.cap_le
  have hcast := usize.of_signed_natCast hword
  have hopposite : negated (-d) = some (d : Int) := by
    rw [negated, if_neg (by omega), Int.neg_neg]
  have hadd : (s.iterator i).add (-d) s = some (s.iterator (i - d), s) := by
    rw [Iterator.add, if_pos (by omega), hopposite, Option.map_some, hcast, h.minus_eq hi]
  have hsub : (s.iterator i).sub (-d) s = some ((s.iterator i).plus d s) := by
    rw [Iterator.sub, if_pos (by omega), hopposite, Option.map_some, hcast]
  rw [← h.plus_within_iff hi hword]
  constructor
  · rintro ⟨-, ⟨r, hr, hwithin⟩, -, -⟩
    rw [hsub, Option.some.injEq] at hr
    exact hr ▸ hwithin
  · intro hwithin
    refine ⟨⟨_, hadd, h.iterator_within (by omega)⟩, ⟨_, hsub, hwithin⟩, ⟨d, hopposite, ?_⟩,
      fun hbegin _ => ⟨_, hadd, ?_⟩⟩
    · rw [hsub, Iterator.add, if_neg (by omega), hcast]
    · show signed (i - d) - signed i = -d
      rw [signed_eq (by omega), signed_eq (by omega)]
      omega

end Fitted

/-- The smallest number has no opposite. -/
theorem not_navigates_min (s : RingBuffer α) (i : Nat) : ¬Navigates s i (-2 ^ 63) := by
  intro hnav
  obtain ⟨k, hk, -⟩ := hnav.negation
  rw [negated, if_pos rfl] at hk
  cases hk

/--
**An iterator that is moved stays in the buffer, and moving it back by as much is moving it
forward by the opposite,** in every state that a program reaches within the arrays, exactly if
the buffer has slots, the number has an opposite, and the buffer is full or going that far
forward does not pass its end.
-/
theorem navigates_iff {s₀ : RingBuffer α} {ops : List (Op α)} {outs : List (Output α)}
    (h₀ : Built A E s₀) (hrun : Machine.Run (step A E) (Proper E) s₀ ops outs s) {i : Nat}
    (hi : i ≤ s.size) {k : Int} (hlow : -2 ^ 63 ≤ k) (hhigh : k < 2 ^ 63) :
    Navigates s i k ↔
      0 < s.m_capacity ∧ k ≠ -2 ^ 63 ∧ (s.full = true ∨ i + k.natAbs ≤ s.size) := by
  rcases fitted_run h₀ hrun with ⟨n, m, h⟩ | ⟨hnone, hslots⟩
  · rw [and_iff_right h.cap_pos]
    rcases Int.lt_or_le k 0 with hneg | hpos
    · obtain ⟨d, rfl⟩ : ∃ d : Nat, k = -d := ⟨k.natAbs, by omega⟩
      by_cases hmin : (-d : Int) = -2 ^ 63
      · rw [hmin]
        exact iff_of_false (not_navigates_min s i) fun hboth => hboth.1 rfl
      · rw [h.navigates_backward hi (by omega) (by omega), and_iff_right hmin, Int.natAbs_neg,
          Int.natAbs_natCast]
    · obtain ⟨d, rfl⟩ := Int.eq_ofNat_of_zero_le hpos
      rw [h.navigates_forward hi (by omega), and_iff_right (by omega), Int.natAbs_natCast]
  · refine iff_of_false (fun hnav => ?_) fun hboth => by omega
    obtain ⟨r, -, -, -, hin⟩ := hnav.plus
    omega

/-- Five places forward and back from the second place of a buffer of two that is full. -/
theorem navigates_full : ∃ s₀ outs s,
    Machine.Run (step Allocator.large ElementType.owning) (Proper ElementType.owning) s₀
      [.push_back 1, .push_back 2, .pop_front, .push_back 3] outs s ∧ Navigates s 1 5 := by
  obtain ⟨s₀, outs, s, h₀, hrun, hfull⟩ := Machine.exists_run
    (step Allocator.large ElementType.owning) (Proper ElementType.owning)
    (with_capacity Allocator.large ElementType.owning 2)
    [.push_back 1, .push_back 2, .pop_front, .push_back 3]
    (fun r => decide (0 < r.2.m_capacity ∧ 1 ≤ r.2.size ∧ r.2.full = true)) (by decide +kernel)
  obtain ⟨hslots, hi, hfull⟩ := of_decide_eq_true hfull
  exact ⟨s₀, outs, s, hrun, (navigates_iff (.inl ⟨2, by decide, h₀⟩) hrun hi (by decide)
    (by decide)).mpr ⟨hslots, by decide, .inl hfull⟩⟩

/-- Two places forward from the beginning of a buffer of three that holds one element. -/
theorem navigates_past_the_end : ¬ ∀ (A : Allocator) (E : ElementType Nat)
    (s₀ s : RingBuffer Nat) (ops : List (Op Nat)) (outs : List (Output Nat)) (i : Nat) (k : Int),
    Built A E s₀ → Machine.Run (step A E) (Proper E) s₀ ops outs s → i ≤ s.size →
    -2 ^ 63 ≤ k → k < 2 ^ 63 → Navigates s i k := by
  intro hclaim
  obtain ⟨s₀, outs, s, h₀, hrun, hbad⟩ := Machine.exists_run
    (step Allocator.large ElementType.owning) (Proper ElementType.owning)
    (with_capacity Allocator.large ElementType.owning 3) [.push_back 1]
    (fun r => ((r.2.iterator 0).add 2 r.2).any fun it => decide (r.2.size < it.1.m_current_index))
    (by decide +kernel)
  obtain ⟨r, hr, hpast⟩ := (Option.any_eq_true _ _).mp hbad
  obtain ⟨r', hr', hwithin, -⟩ := (hclaim _ _ _ _ _ _ 0 2 (.inl ⟨3, by decide, h₀⟩) hrun
    (Nat.zero_le _) (by decide) (by decide)).plus
  have hsame : r = r' := Option.some.inj (hr.symm.trans hr')
  have hpast : s.size < r.1.m_current_index := of_decide_eq_true hpast
  rw [hsame] at hpast
  exact Nat.not_le.mpr hpast hwithin

end Hyperion.RingBuffer
