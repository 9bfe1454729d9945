/-
The objects in a ring buffer.

`Owned` says that the flags tell which slots hold an object, that nothing was misused,
and that there is an object at every position the buffer has.  Slots outside the live
range may hold an object too: the front that a push into a full buffer drops, and the
last one after an erasure, stay where they are until their slot is used again.

Six paths of the code leave this:

  * `clear` destroys the slots of the positions, and clears the flags of the slots with
    the positions' numbers, which are the same only in a buffer that starts at slot 0;
  * `emplace` before the end destroys the spacer and constructs over an element;
  * inserting in the middle of a full buffer moves the elements behind the gap by two
    places and leaves a position without an object;
  * an insertion reads its argument behind the loop that opens the gap, and an argument
    that leads to an element may find none there by then, or one that `insert_emplace`
    has just destroyed;
  * erasing a range may step the write index to the wrong side of the wrap, and then
    the buffer has positions it had none at before;
  * `reserve` gives the buffer as many elements as it could hold before.

`KeepsObjects` is the condition that a step takes none of them.
-/
import Hyperion.RingBuffer.Flags

namespace Hyperion.RingBuffer

variable {α : Type} {A : Allocator} {E : ElementType α} {s : RingBuffer α} {p : Nat → Bool}

/-- The flags tell which slots hold an object, and there is one at every position. -/
structure Owned (s : RingBuffer α) : Prop extends Shape s where
  tracked : s.toStorage.Tracked s.m_capacity s.m_constructed.m_flags
  live : ∀ j, j < s.size → s.m_constructed.m_flags (s.get_adjusted_internal_index j) = true

/--
Erasing from `f` to `l` steps the write index back.  When the whole of a buffer with room
is erased over the wrap the index lands before the start, and when the range ends behind
the spacer's slot it can land among the free places.
-/
def StepsBack (s : RingBuffer α) (f l : Nat) : Prop :=
  l ≤ f ∨
  (s.get_adjusted_internal_index l ≤ s.m_write_index ∧
    ¬(f = 0 ∧ l = s.size ∧ s.m_write_index < s.size ∧ ¬s.full)) ∨
  (s.m_write_index < s.get_adjusted_internal_index l ∧
    ¬(l - f < s.m_write_index ∧ 2 * s.m_write_index < s.m_capacity + (l - f) ∧
      s.m_capacity + (l - f) < s.m_start_index + s.m_write_index))

/-- An insertion into a full buffer is before its first or its last element, and finds the gap
inside the array. -/
def OpensGap (s : RingBuffer α) (p : Nat) : Prop :=
  s.full → p < s.size →
    (p = 0 ∨ p + 1 = s.size) ∧ s.get_adjusted_internal_index p + 1 ≠ s.m_capacity

instance (s : RingBuffer α) (p : Nat) : Decidable (s.OpensGap p) :=
  inferInstanceAs (Decidable (_ → _ → _))

/-- The step takes none of the paths above. -/
def KeepsObjects (s : RingBuffer α) : Op α → Prop
  | .clear => s.m_start_index = 0 ∨ s.size = 0
  | .emplace p _ => p = s.size
  | .insert p x => s.OpensGap p ∧ ∀ j ∈ x.index, ¬s.Vacates p j
  | .insert_emplace p x =>
      s.OpensGap p ∧ ∀ j ∈ x.index, ¬s.Vacates p j ∧ j + 1 ≠ p + s.stride
  | .erase_range f l => s.StepsBack f l
  | .reserve k => k ≤ s.m_capacity
  | _ => True

instance (s : RingBuffer α) (f l : Nat) : Decidable (s.StepsBack f l) := by
  unfold StepsBack
  infer_instance

instance (s : RingBuffer α) : (op : Op α) → Decidable (s.KeepsObjects op)
  | .clear => inferInstanceAs (Decidable (_ ∨ _))
  | .emplace _ _ => inferInstanceAs (Decidable (_ = _))
  | .insert p x => inferInstanceAs (Decidable (s.OpensGap p ∧ ∀ j ∈ x.index, ¬s.Vacates p j))
  | .insert_emplace p x => inferInstanceAs
      (Decidable (s.OpensGap p ∧ ∀ j ∈ x.index, ¬s.Vacates p j ∧ j + 1 ≠ p + s.stride))
  | .erase_range f l => inferInstanceAs (Decidable (s.StepsBack f l))
  | .reserve _ => inferInstanceAs (Decidable (_ ≤ _))
  | .push_back _ | .emplace_back _ | .pop_front | .pop_back | .erase _ | .at' _ | .subscript _
  | .front | .back | .iterate => isTrue trivial

namespace Owned

/-- A buffer is as its flags say. -/
theorem of_tracked (hshape : Shape s) (ht : s.toStorage.Tracked s.m_capacity p)
    (hlive : ∀ j, j < s.size → p (s.get_adjusted_internal_index j) = true) : Owned s := by
  have hflags := ht.flags
  subst hflags
  exact ⟨hshape, ht, hlive⟩

theorem sound (h : Owned s) (E : ElementType α) : Sound E s := ⟨h.toShape, h.tracked.inside⟩

/-! ### At the ends -/

/-- The write index goes on from a spacer that holds an object. -/
theorem increment_indices (h : Shape s) {st : Storage α} (ht : st.Tracked s.m_capacity p)
    (hlive : ∀ j, 1 ≤ j ∨ s.size + 1 ≠ s.m_capacity → j ≤ s.size →
      p (s.get_adjusted_internal_index j) = true) :
    Owned (RingBuffer.increment_indices { s with toStorage := st }) := by
  have hst := h.with_storage st
  have hsize := h.size_lt
  have hcap := increment_indices_capacity { s with toStorage := st }
  refine of_tracked hst.increment_indices (p := p) ?_ ?_
  · rw [increment_indices_storage, hcap]
    exact ht
  · intro j hj
    by_cases hfull : s.size + 1 = s.m_capacity
    · obtain ⟨hstart, hsame⟩ := hst.increment_full hfull
      have hlt : j < s.size := hsame ▸ hj
      rw [h.internal_succ hst.increment_indices hstart hcap (by omega)]
      exact hlive (j + 1) (.inl (Nat.le_add_left 1 j)) hlt
    · obtain ⟨hstart, hmore⟩ := hst.increment_room hfull
      have hlt : j < s.size + 1 := hmore ▸ hj
      rw [internal_congr (s := s) hstart hcap]
      exact hlive j (.inr hfull) (Nat.le_of_lt_succ hlt)

/-- With one more flag set. -/
theorem update_live (h : Owned s) {i j : Nat} (hj : j < s.size) :
    Function.update s.m_constructed.m_flags i true (s.get_adjusted_internal_index j) = true := by
  rw [Function.update_apply, h.live j hj, ite_self]

/-- An argument that leads to an element leads to an object, which is not in the spacer. -/
theorem reference_live (h : Owned s) {x : Argument α} (hx : ∀ j ∈ x.index, j < s.size) :
    ∀ k ∈ (s.reference x).index,
      k ≠ s.m_write_index ∧ s.m_constructed.m_flags k = true := by
  refine Argument.index_map_index.mpr fun j hj => ⟨?_, h.live j (hx j hj)⟩
  rw [← h.internal_size]
  have hlt := hx j hj
  have hsize := h.size_lt
  exact h.internal_ne (by omega) hsize (by omega)

theorem push_back_of (h : Owned s) (hE : E.trivially_destructible = false) {args : Argument α}
    (hargs : ∀ k ∈ args.index, k ≠ s.m_write_index ∧ s.m_constructed.m_flags k = true) :
    Owned (s.push_back E args) := by
  refine increment_indices h.toShape (h.tracked.construct_back hE h.write_lt hargs) ?_
  intro j _ hj
  by_cases hlast : j = s.size
  · rw [hlast, h.internal_size, Function.update_self]
  · exact h.update_live (by omega)

theorem push_back (h : Owned s) (hE : E.trivially_destructible = false) (v : α) :
    Owned (s.push_back E v) := h.push_back_of hE (Argument.index_value v)

/-- Naming a slot leaves the buffer as it is. -/
theorem slot (h : Owned s) (E : ElementType α) {i : Nat} (hi : i < s.m_capacity) :
    Owned (s.slot i).2 := by
  rw [(h.sound E).slot_eq hi]
  exact h

theorem emplace_back_of (h : Owned s) (hE : E.trivially_destructible = false)
    {args : Argument α}
    (hargs : ∀ k ∈ args.index, k ≠ s.m_write_index ∧ s.m_constructed.m_flags k = true) :
    Owned (s.emplace_back E args).2 := by
  have hcap : (s.push_back E args).m_capacity = s.m_capacity := increment_indices_capacity _
  exact (h.push_back_of hE hargs).slot E (hcap ▸ h.write_lt)

theorem emplace_back (h : Owned s) (hE : E.trivially_destructible = false) (v : α) :
    Owned (s.emplace_back E v).2 := h.emplace_back_of hE (Argument.index_value v)

/-- Taking the object out of one position, and clearing its flag. -/
theorem taken (h : Owned s) (hE : E.trivially_destructible = false) {i : Nat}
    (hi : i < s.size) :
    ((s.move E (s.get_adjusted_internal_index i)).2.destroy_if_needed E
      (s.get_adjusted_internal_index i)).Tracked s.m_capacity
        (Function.update s.m_constructed.m_flags (s.get_adjusted_internal_index i) false) :=
  (h.tracked.move (h.internal_lt i) (h.live i hi)).destroy_if_needed hE (h.internal_lt i)
    (h.live i hi)

/-- The other positions keep their objects. -/
theorem live_of_ne (h : Owned s) {i j : Nat} (hi : i < s.size) (hj : j < s.size) (hne : j ≠ i) :
    Function.update s.m_constructed.m_flags (s.get_adjusted_internal_index i) false
      (s.get_adjusted_internal_index j) = true := by
  have hsize := h.size_lt
  rw [Function.update_of_ne (h.internal_ne (by omega) (by omega) hne)]
  exact h.live j hj

theorem pop_front (h : Owned s) (hE : E.trivially_destructible = false) :
    Owned (s.pop_front E).2 := by
  have hshape := (h.sound E).pop_front.toShape
  by_cases hnil : s.size = 0
  · rw [pop_front_empty E hnil]
    exact h
  · have hpos : 0 < s.size := Nat.pos_of_ne_zero hnil
    obtain ⟨-, hstorage, hstart, hcap, hless⟩ := h.toShape.pop_front_nonempty E hpos
    have hsize := h.size_lt
    have htaken := h.taken hE hpos
    rw [← hstorage, ← hcap] at htaken
    refine of_tracked hshape htaken ?_
    intro j hj
    rw [h.internal_succ hshape hstart hcap (by omega)]
    exact h.live_of_ne hpos (by omega) (Nat.succ_ne_zero j)

theorem pop_back (h : Owned s) (hE : E.trivially_destructible = false) :
    Owned (s.pop_back E).2 := by
  have hshape := (h.sound E).pop_back.toShape
  by_cases hnil : s.size = 0
  · rw [pop_back_empty E hnil]
    exact h
  · have hpos : 0 < s.size := Nat.pos_of_ne_zero hnil
    obtain ⟨-, hstorage, hstart, hcap, hless⟩ := h.toShape.pop_back_nonempty E hpos
    have hlast : s.size - 1 < s.size := Nat.sub_lt hpos Nat.one_pos
    have htaken := h.taken hE hlast
    rw [← hstorage, ← hcap] at htaken
    refine of_tracked hshape htaken ?_
    intro j hj
    rw [internal_congr hstart hcap]
    exact h.live_of_ne hlast (by omega) (by omega)

theorem clear (h : Owned s) (hE : E.trivially_destructible = false)
    (hstart : s.m_start_index = 0 ∨ s.size = 0) : Owned (s.clear E) := by
  have hsize := h.size_lt
  have hshape := (h.sound E).clear.toShape
  have hempty : (s.clear E).size = 0 := by
    rw [hshape.size_eq]
    rfl
  have hloop : ∃ p', (s.clear E).toStorage.Tracked s.m_capacity p' ∧
      ∀ j, s.size ≤ j → p' j = s.m_constructed.m_flags j := by
    unfold RingBuffer.clear
    simp only [hE, Bool.false_eq_true, if_false]
    refine loop_induction (fun k st => ∃ p', Storage.Tracked s.m_capacity p' st ∧
      ∀ j, k ≤ j → p' j = s.m_constructed.m_flags j) ⟨_, h.tracked, fun _ _ => rfl⟩ ?_
    intro k st hk hst
    obtain ⟨p', htracked, hrest⟩ := hst
    have hzero : s.m_start_index = 0 := hstart.resolve_right (by omega)
    have hslot := h.internal_of_start hzero (show k < s.m_capacity by omega)
    have hobject := h.live k hk
    rw [hslot] at hobject ⊢
    refine ⟨_, htracked.destroy hE (by omega) ((hrest k (Nat.le_refl k)).trans hobject), ?_⟩
    intro j hj
    rw [Function.update_of_ne (by omega)]
    exact hrest j (by omega)
  obtain ⟨p', htracked, -⟩ := hloop
  refine of_tracked hshape htracked ?_
  intro j hj
  rw [hempty] at hj
  exact absurd hj (Nat.not_lt_zero j)

/-! ### Inside -/

/-- At the end the slot constructed in is the spacer. -/
theorem emplace_end (h : Owned s) (hE : E.trivially_destructible = false) (v : α) :
    Owned (s.emplace E s.size v).2 := by
  have htracked := h.tracked.construct_back hE h.write_lt (Argument.index_value v)
  have hsame : s.emplace E s.size v
      = RingBuffer.slot { s with toStorage := s.construct_back E v } s.m_write_index := by
    unfold RingBuffer.emplace RingBuffer.construct_back
    simp only [h.internal_size, Argument.use_value, Argument.read_value]
  rw [hsame]
  refine slot (of_tracked (h.with_storage _) htracked ?_) E h.write_lt
  intro j hj
  exact h.update_live hj

/-- The loop of an insertion, whatever the buffer holds. -/
theorem gap_opened (h : Owned s) (hE : E.trivially_destructible = false) {q : Nat}
    (hq : q < s.size) : q + s.stride ≤ s.size + 1 ∧ ∃ p',
      s.ShiftedUp s.stride (s.size + 1 - (q + s.stride)) p' (s.open_gap E q).2 := by
  have hpos := s.stride_pos
  have hroom : q + s.stride ≤ s.size + 1 := by
    unfold stride
    split <;> omega
  rw [h.open_gap_storage E hq]
  exact ⟨hroom, h.shifted_up h.tracked hE h.live hpos (by omega)⟩

/--
The gap is the slot of a position, and once there is an object in it there is one at every
position the buffer has afterwards.
-/
theorem open_gap (h : Owned s) (hE : E.trivially_destructible = false) {q : Nat}
    (hq : q < s.size) (hgap : s.OpensGap q) :
    (s.open_gap E q).1 = s.get_adjusted_internal_index (q + s.stride - 1) ∧
    ∃ p', s.ShiftedUp s.stride (s.size + 1 - (q + s.stride)) p' (s.open_gap E q).2 ∧
      ∀ j, 1 ≤ j ∨ s.size + 1 ≠ s.m_capacity → j ≤ s.size →
        Function.update p' (s.open_gap E q).1 true (s.get_adjusted_internal_index j) = true := by
  have hsize := h.size_lt
  have hindex := h.open_gap_index E hq fun hfull => (hgap (h.full_iff.mpr hfull) hq).2
  have hone := s.stride_pos
  obtain ⟨hroom, p', hshifted⟩ := h.gap_opened hE hq
  refine ⟨hindex, p', hshifted, fun j hpos hj => ?_⟩
  rw [hindex]
  by_cases hjg : j = q + s.stride - 1
  · rw [hjg, Function.update_self]
  · rw [Function.update_of_ne (h.internal_ne (by omega) (by omega) hjg)]
    by_cases hlast : j = s.size
    · exact hshifted.live_after j (by omega) hj
    · refine (hshifted.live_iff hroom (by omega)).mpr fun ⟨hqj, hjq, hjs⟩ => ?_
      -- with a stride of two this is the position before the gap
      by_cases hfull : s.size + 1 = s.m_capacity
      · have hplace := (hgap (h.full_iff.mpr hfull) hq).1
        rw [h.stride_full hfull] at hjg hjq hjs
        omega
      · rw [h.stride_room hfull] at hjg hjq hjs
        omega

/-- An argument that leads to an element the loop has not taken away leads to an object. -/
theorem argument_live (h : Owned s) (hE : E.trivially_destructible = false) {q : Nat}
    (hq : q < s.size) {p' : Nat → Bool}
    (hshifted : s.ShiftedUp s.stride (s.size + 1 - (q + s.stride)) p' (s.open_gap E q).2)
    {j : Nat} (hj : j < s.size) :
    p' (s.get_adjusted_internal_index j) = true ↔ ¬s.Vacates q j := by
  obtain ⟨hroom, -⟩ := h.gap_opened hE hq
  exact hshifted.live_iff hroom hj

theorem insert (h : Owned s) (hE : E.trivially_destructible = false) {q : Nat} {x : Argument α}
    (hq : q ≤ s.size) (hx : ∀ j ∈ x.index, j < s.size) (hgap : s.OpensGap q)
    (hkept : ∀ j ∈ x.index, ¬s.Vacates q j) :
    Owned (s.insert_internal E q (s.reference x)) := by
  by_cases hend : q = s.size
  · rw [hend, (h.sound E).insert_internal_end]
    exact h.push_back_of hE ((s.reference x).index_lvalue ▸ h.reference_live hx)
  · have hlt : q < s.size := by omega
    obtain ⟨hindex, p', hshifted, hlive⟩ := h.open_gap hE hlt hgap
    rw [(h.sound E).insert_internal_eq hlt]
    refine increment_indices h.toShape (hshifted.tracked.fill_gap hE ?_ ?_) hlive
    · rw [hindex]
      exact h.internal_lt _
    · exact Argument.index_map_index.mpr fun j hj =>
        (h.argument_live hE hlt hshifted (hx j hj)).mpr (hkept j hj)

theorem insert_emplace (h : Owned s) (hE : E.trivially_destructible = false) {q : Nat}
    {x : Argument α} (hq : q ≤ s.size) (hx : ∀ j ∈ x.index, j < s.size) (hgap : s.OpensGap q)
    (hkept : ∀ j ∈ x.index, ¬s.Vacates q j ∧ j + 1 ≠ q + s.stride) :
    Owned (s.insert_emplace_internal E q (s.reference x)).2 := by
  by_cases hend : q = s.size
  · rw [hend, (h.sound E).insert_emplace_internal_end]
    exact h.emplace_back_of hE (h.reference_live hx)
  · have hlt : q < s.size := by omega
    obtain ⟨hindex, p', hshifted, hlive⟩ := h.open_gap hE hlt hgap
    have hplace : (s.open_gap E q).1 < s.m_capacity := hindex ▸ h.internal_lt _
    have hone := s.stride_pos
    obtain ⟨hroom, -⟩ := h.gap_opened hE hlt
    rw [(h.sound E).insert_emplace_internal_eq hlt]
    refine slot (increment_indices h.toShape (hshifted.tracked.emplace_gap hE hplace ?_) hlive) E
      ((increment_indices_capacity _).symm ▸ hplace)
    refine Argument.index_map_index.mpr fun j hj => ⟨?_, ?_⟩
    · have hsize := h.size_lt
      have hlt := hx j hj
      have hne := (hkept j hj).2
      rw [hindex]
      exact h.internal_ne (by omega) (by omega) (by omega)
    · exact (h.argument_live hE hlt hshifted (hx j hj)).mpr (hkept j hj).1

/-! ### Erasure -/

/-- A buffer that starts where it did and has no position more. -/
theorem shorter {t : RingBuffer α} (ht : Shape t)
    (hst : t.toStorage.Tracked s.m_capacity p) (hstart : t.m_start_index = s.m_start_index)
    (hcap : t.m_capacity = s.m_capacity)
    (hlive : ∀ j, j < t.size → p (s.get_adjusted_internal_index j) = true) : Owned t := by
  refine of_tracked ht (hcap ▸ hst) ?_
  intro j hj
  rw [internal_congr hstart hcap]
  exact hlive j hj

theorem erase (h : Owned s) (hE : E.trivially_destructible = false) {q : Nat}
    (hq : q ≤ s.size) : Owned (s.erase_internal E q).2 := by
  by_cases hend : q = s.size
  · rw [hend, (h.sound E).erase_internal_end]
    exact h
  · have hlt : q < s.size := by omega
    obtain ⟨p', hshifted⟩ := h.shifted_down h.tracked hE h.live
      (f := q) (l := q + 1) (n := s.size - 1 - q) (Nat.lt_succ_self q) (by omega)
    have hst := h.with_storage (s.shift_down E q (q + 1) (s.size - 1 - q))
    obtain ⟨-, hless⟩ := hst.decrement_write_nonempty (show 0 < s.size by omega)
    rw [((h.sound E).erase_internal_eq hlt).2]
    refine shorter hst.decrement_write ?_ (decrement_write_start _)
      (decrement_write_capacity _) fun j hj => hshifted.live_before j ?_
    · rw [decrement_write_storage]
      exact hshifted.tracked
    · have hj' : j + 1 < s.size := Nat.lt_of_lt_of_eq (Nat.succ_lt_succ hj) hless
      omega

/-- A range that does not end behind the spacer's slot: the elements behind it move down. -/
theorem erase_range_down (h : Owned s) (hE : E.trivially_destructible = false) {f l : Nat}
    (hfl : f < l) (hl : l ≤ s.size) (hbehind : s.get_adjusted_internal_index l ≤ s.m_write_index)
    (hwhole : ¬(f = 0 ∧ l = s.size ∧ s.m_write_index < s.size ∧ ¬s.full)) :
    Owned (s.erase_range E (s.iterator f) (s.iterator l)).2 := by
  have hsize := h.size_lt
  have hn : l - f ≤ s.size := Nat.le_trans (Nat.sub_le l f) hl
  have hst := h.with_storage (s.shift_down E f l (s.size - l))
  have hless : (RingBuffer.decrement_write_n
      { s with toStorage := s.shift_down E f l (s.size - l) } (l - f)).size
        = if l - f ≤ s.m_write_index then s.size - (l - f)
          else if l - f = s.size then s.m_capacity - 1 else s.size - (l - f) - 1 :=
    hst.size_decrement_write_n hn
  obtain ⟨p', htracked, hkept, hlive⟩ : ∃ p', (s.shift_down E f l (s.size - l)).Tracked
      s.m_capacity p' ∧ (l - f = s.size → p' = s.m_constructed.m_flags) ∧
      ∀ j, j < f + (s.size - l) → p' (s.get_adjusted_internal_index j) = true := by
    by_cases hall : l - f = s.size
    · -- nothing is moved
      rw [show s.size - l = 0 by omega]
      exact ⟨_, h.tracked, fun _ => rfl, fun j hj => h.live j (by omega)⟩
    · obtain ⟨p', hshifted⟩ := h.shifted_down h.tracked hE h.live
        (f := f) (l := l) (n := s.size - l) hfl (by omega)
      exact ⟨p', hshifted.tracked, fun hc => absurd hc hall, hshifted.live_before⟩
  rw [((h.sound E).erase_range_eq hfl hl hbehind).2]
  refine shorter (hst.decrement_write_n hn) (p := p') ?_ (decrement_write_n_start _ _)
    (decrement_write_n_capacity _ _) ?_
  · rw [decrement_write_n_storage]
    exact htracked
  · intro j hj
    have hj' : j < _ := Nat.lt_of_lt_of_eq hj hless
    by_cases hw : l - f ≤ s.m_write_index
    · rw [if_pos hw] at hj'
      exact hlive j (by omega)
    · rw [if_neg hw] at hj'
      by_cases hall : l - f = s.size
      · have hfull : s.full = true := by
          by_contra hnot
          exact hwhole ⟨by omega, by omega, by omega, hnot⟩
        rw [h.full_iff] at hfull
        rw [if_pos hall] at hj'
        rw [hkept hall]
        exact h.live j (by omega)
      · rw [if_neg hall] at hj'
        exact hlive j (by omega)

/-- A range that ends behind the spacer's slot: nothing moves. -/
theorem erase_range_behind (h : Owned s) (E : ElementType α) {f l : Nat} (hfl : f < l)
    (hl : l ≤ s.size) (hbehind : s.m_write_index < s.get_adjusted_internal_index l)
    (hplace : ¬(l - f < s.m_write_index ∧ 2 * s.m_write_index < s.m_capacity + (l - f) ∧
      s.m_capacity + (l - f) < s.m_start_index + s.m_write_index)) :
    Owned (s.erase_range E (s.iterator f) (s.iterator l)).2 := by
  have hlt : l < s.size := by
    rcases Nat.lt_or_eq_of_le hl with hlt | hend
    · exact hlt
    · rw [hend, h.internal_size] at hbehind
      exact absurd hbehind (Nat.lt_irrefl _)
  have hn : l - f < s.size := Nat.lt_of_le_of_lt (Nat.sub_le l f) hlt
  have hle := h.size_retracted_le hn (h.wrapped_of_write_lt hl hbehind) hplace
  rw [((h.sound E).erase_range_retract hfl hl hbehind).2]
  refine shorter (h.toShape.retract_write (Nat.le_of_lt hn)) (p := s.m_constructed.m_flags) ?_
    (retract_write_start _ _) (retract_write_capacity _ _) ?_
  · rw [retract_write_storage]
    exact h.tracked
  · intro j hj
    exact h.live j (Nat.lt_of_lt_of_le hj hle)

theorem erase_range (h : Owned s) (hE : E.trivially_destructible = false) {f l : Nat}
    (hl : l ≤ s.size) (hback : s.StepsBack f l) :
    Owned (s.erase_range E (s.iterator f) (s.iterator l)).2 := by
  by_cases hfl : l ≤ f
  · rw [Sound.erase_range_none hfl]
    exact h
  · rcases hback.resolve_left hfl with ⟨hbehind, hwhole⟩ | ⟨hbehind, hplace⟩
    · exact h.erase_range_down hE (Nat.lt_of_not_le hfl) hl hbehind hwhole
    · exact h.erase_range_behind E (Nat.lt_of_not_le hfl) hl hbehind hplace

end Owned

/-! ### Runs -/

/-- Made by a constructor, of a capacity or of values whose number plus one is a word. -/
def Constructed (A : Allocator) (E : ElementType α) (s : RingBuffer α) : Prop :=
  (∃ n, n + 1 < 2 ^ 64 ∧ with_capacity A E n = some s) ∨
    ∃ values : List α, values.length + 1 < 2 ^ 64 ∧ of_values A E values = some s

theorem checker_new {n : Nat} {c : ConstructedChecker} (hE : E.trivially_destructible = false)
    (h : ConstructedChecker.new A E n = some c) : c = ⟨fun _ => false, n⟩ := by
  simp only [ConstructedChecker.new, hE, Bool.false_eq_true, if_false] at h
  split at h
  · exact (Option.some.inj h).symm
  · cases h

/-- The constructor that takes values constructs one object for each. -/
theorem fill_tracked (hE : E.trivially_destructible = false) (values : List α) :
    (loop (fun index (st : Storage α) =>
        (st.construct index values[index]?).set_constructed E index true) values.length
      ⟨Arena.fresh (values.length + 1), ⟨fun _ => false, values.length + 1⟩⟩).Tracked
        (values.length + 1) fun i => decide (i < values.length) := by
  refine loop_induction
    (fun k st => Storage.Tracked (values.length + 1) (fun i => decide (i < k)) st) ?_ ?_
  · have hnone : (fun i => decide (i < 0)) = fun _ => false := by
      funext i
      exact decide_eq_false (Nat.not_lt_zero i)
    rw [hnone]
    exact ⟨.fresh _, rfl, rfl, fun _ _ => rfl⟩
  · intro k st hk hst
    refine (hst.construct hE (by omega) (decide_eq_false (Nat.lt_irrefl k)) _).congr ?_
    funext i
    rw [Function.update_apply]
    by_cases hi : i = k
    · rw [if_pos hi, hi, decide_eq_true (Nat.lt_succ_self k)]
    · rw [if_neg hi]
      exact decide_eq_decide.mpr (by omega)

theorem owned_constructed (hE : E.trivially_destructible = false) (h : Constructed A E s) :
    Owned s := by
  rcases h with ⟨n, hn, h⟩ | ⟨values, hn, h⟩
  · have hshape := (sound_with_capacity hn h).toShape
    obtain ⟨-, hbuffer, hflags, hnone, hwrite, hstart, hcap⟩ := with_capacity_some hn h
    have hempty : s.size = 0 := by
      rw [hshape.size_eq, hwrite, hstart]
      rfl
    refine Owned.of_tracked hshape (p := fun _ => false) ⟨?_, hnone, ?_, fun _ _ => rfl⟩ ?_
    · rw [hbuffer, hcap]
      exact .fresh _
    · rw [hflags hE, hcap]
    · intro j hj
      rw [hempty] at hj
      exact absurd hj (Nat.not_lt_zero j)
  · obtain ⟨c, hc, hstorage, hshape, hstart, hcap, hsize⟩ := of_values_some hn h
    have hfilled := fill_tracked hE values
    rw [← checker_new hE hc, ← hstorage, ← hcap] at hfilled
    refine Owned.of_tracked hshape hfilled ?_
    intro j hj
    rw [hshape.internal_of_start hstart (by omega)]
    exact decide_eq_true (hsize ▸ hj)

/-- **One step keeps the flags and the objects together.** -/
theorem Owned.step {s' : RingBuffer α} {op : Op α} {o : Output α} (h : Owned s)
    (hE : E.trivially_destructible = false) (hrange : s.InRange op) (hkeeps : s.KeepsObjects op)
    (hstep : s.step A E op = some (o, s')) : Owned s' := by
  have hsound := h.sound E
  cases op with
  | push_back v => cases hstep; exact h.push_back hE v
  | emplace_back v => cases hstep; exact h.emplace_back hE v
  | pop_front => cases hstep; exact h.pop_front hE
  | pop_back => cases hstep; exact h.pop_back hE
  | clear => cases hstep; exact h.clear hE hkeeps
  | emplace q v =>
      have hq : q = s.size := hkeeps
      subst hq
      cases hstep
      exact h.emplace_end hE v
  | insert q x => cases hstep; exact h.insert hE hrange.1 hrange.2 hkeeps.1 hkeeps.2
  | insert_emplace q x =>
      cases hstep
      exact h.insert_emplace hE hrange.1 hrange.2 hkeeps.1 hkeeps.2
  | erase q => cases hstep; exact h.erase hE hrange
  | erase_range f l => cases hstep; exact h.erase_range hE hrange.2 hkeeps
  | reserve k =>
      obtain ⟨t, ht, hpair⟩ := Option.map_eq_some_iff.mp hstep
      cases hpair
      rw [reserve, if_neg (Nat.not_lt.mpr hkeeps), Option.some.injEq] at ht
      exact ht ▸ h
  | at' i | subscript i => cases hstep; exact h.slot E (h.internal_lt i)
  | front => cases hstep; exact h.slot E h.start_lt
  | back => cases hstep; exact h.slot E (h.internal_lt _)
  | iterate => cases hstep; exact hsound.iterate_eq.symm ▸ h

theorem Owned.run {s₀ : RingBuffer α} {ops : List (Op α)} {outs : List (Output α)}
    (hE : E.trivially_destructible = false) (h₀ : Constructed A E s₀)
    (hrun : Machine.Run (RingBuffer.step A E) (fun s op => s.InRange op ∧ s.KeepsObjects op)
      s₀ ops outs s) : Owned s := by
  refine hrun.invariant (P := Owned) ?_ (owned_constructed hE h₀)
  intro s op o s' h hguard hstep
  exact h.step hE hguard.1 hguard.2 hstep

/-- The flags tell which slots hold an object, and no slot was used that held none. -/
structure FlagsRight (s : RingBuffer α) : Prop where
  flags : ∀ i, s.m_constructed.m_flags i = s.m_buffer.holds i
  misuse : s.m_buffer.misuse = []

/--
**The flag of a slot is set exactly when the slot holds an object**, and nothing is
destroyed, assigned to or moved from where there is no object, in every run that takes
none of the six paths.
-/
theorem flags_right {s₀ : RingBuffer α} {ops : List (Op α)} {outs : List (Output α)}
    (hE : E.trivially_destructible = false) (h₀ : Constructed A E s₀)
    (hrun : Machine.Run (step A E) (fun s op => s.InRange op ∧ s.KeepsObjects op)
      s₀ ops outs s) : FlagsRight s := by
  have howned := Owned.run hE h₀ hrun
  exact ⟨fun i => (howned.tracked.kept.holds i).symm, howned.tracked.kept.misuse⟩

/-- A buffer of two whose last element wrapped around, cleared when it starts at slot 0 again. -/
theorem flags_right_wrapped : ∃ s₀ outs s,
    Machine.Run (step Allocator.large ElementType.owning)
      (fun s op => s.InRange op ∧ s.KeepsObjects op) s₀
      [.push_back 1, .push_back 2, .pop_front, .push_back 3, .insert 0 (.element 1 id), .pop_front,
        .clear]
      outs s ∧ FlagsRight s := by
  obtain ⟨s₀, outs, s, h₀, hrun, -⟩ := Machine.exists_run
    (step Allocator.large ElementType.owning) (fun s op => s.InRange op ∧ s.KeepsObjects op)
    (with_capacity Allocator.large ElementType.owning 2)
    [.push_back 1, .push_back 2, .pop_front, .push_back 3, .insert 0 (.element 1 id), .pop_front,
        .clear]
    (fun _ => true) (by decide +kernel)
  exact ⟨s₀, outs, s, hrun, flags_right rfl (.inl ⟨2, by decide, h₀⟩) hrun⟩

/-- `clear` destroys the object in slot 1 and clears the flag of slot 0. -/
theorem cleared_flag_set : ∃ s₀ outs s,
    Constructed Allocator.large ElementType.owning s₀ ∧
    Machine.Run (step Allocator.large ElementType.owning) InRange s₀
      [.push_back 1, .push_back 2, .pop_front, .clear] outs s ∧ ¬FlagsRight s := by
  obtain ⟨s₀, outs, s, h₀, hrun, hbad⟩ := Machine.exists_run
    (step Allocator.large ElementType.owning) InRange
    (with_capacity Allocator.large ElementType.owning 2)
    [.push_back 1, .push_back 2, .pop_front, .clear]
    (fun r => r.2.m_constructed.m_flags 1 && !r.2.m_buffer.holds 1) (by decide +kernel)
  refine ⟨s₀, outs, s, .inl ⟨2, by decide, h₀⟩, hrun, fun hright => ?_⟩
  rw [hright.flags 1, Bool.and_not_self] at hbad
  cases hbad

/-! ### Destruction -/

/-- The destructor destroys what is in the live range, and nothing else. -/
theorem Owned.destruct (h : Owned s) (hE : E.trivially_destructible = false) :
    (s.destruct E).m_buffer.Kept s.m_capacity fun i => s.m_constructed.m_flags i &&
      decide (∀ j, j < s.size → s.get_adjusted_internal_index j ≠ i) := by
  have hsize := h.size_lt
  have hloop : (s.destruct E).m_constructed = s.m_constructed ∧
      (s.destruct E).m_buffer.Kept s.m_capacity fun i => s.m_constructed.m_flags i &&
        decide (∀ j, j < s.size → s.get_adjusted_internal_index j ≠ i) := by
    unfold RingBuffer.destruct
    simp only [hE, Bool.false_eq_true, if_false]
    refine loop_induction (fun k (st : Storage α) => st.m_constructed = s.m_constructed ∧
      st.m_buffer.Kept s.m_capacity fun i => s.m_constructed.m_flags i &&
        decide (∀ j, j < k → s.get_adjusted_internal_index j ≠ i)) ?_ ?_
    · refine ⟨rfl, h.tracked.kept.congr fun i => ?_⟩
      rw [decide_eq_true fun j hj => absurd hj (Nat.not_lt_zero j), Bool.and_true]
    · intro k st hk hst
      obtain ⟨hflags, hkept⟩ := hst
      have hlive : st.m_constructed.m_flags (s.get_adjusted_internal_index k) = true := by
        rw [hflags]
        exact h.live k hk
      have hlt : s.get_adjusted_internal_index k < st.m_constructed.size := by
        rw [hflags, h.tracked.size]
        exact h.internal_lt k
      have hread : st.is_constructed E (s.get_adjusted_internal_index k) = (true, st) := by
        rw [Storage.is_constructed, hE, if_neg Bool.false_ne_true, hlive, Arena.touch_of_lt hlt]
      rw [hread]
      refine ⟨hflags, (hkept.destroy (h.internal_lt k) ?_).congr fun i => ?_⟩
      · rw [h.live k hk, Bool.true_and, decide_eq_true_eq]
        intro j hj
        exact h.internal_ne (by omega) (by omega) (Nat.ne_of_lt hj)
      · rw [Function.update_apply]
        by_cases hi : i = s.get_adjusted_internal_index k
        · rw [if_pos hi, decide_eq_false fun hall => hall k (Nat.lt_succ_self k) hi.symm,
            Bool.and_false]
        · rw [if_neg hi]
          refine congrArg _ (decide_eq_decide.mpr ⟨fun hall j hj => ?_, fun hall j hj => ?_⟩)
          · by_cases hjk : j = k
            · rw [hjk]
              exact Ne.symm hi
            · exact hall j (by omega)
          · exact hall j (by omega)
  exact hloop.2

/--
**The elements are destroyed exactly once**, at the end of a run that takes none of the
six paths, exactly when no slot outside the live range holds an object by then.
-/
theorem elements_destroyed_iff {s₀ : RingBuffer α} {ops : List (Op α)} {outs : List (Output α)}
    (hE : E.trivially_destructible = false) (h₀ : Constructed A E s₀)
    (hrun : Machine.Run (step A E) (fun s op => s.InRange op ∧ s.KeepsObjects op)
      s₀ ops outs s) :
    (s.destruct E).m_buffer.DestroyedOnce ↔
      ∀ i, i < s.m_capacity → s.m_constructed.m_flags i = true →
        ∃ j, j < s.size ∧ s.get_adjusted_internal_index j = i := by
  have howned := Owned.run hE h₀ hrun
  have hkept := howned.destruct hE
  constructor
  · intro honce i _ hi
    by_contra hout
    refine hkept.not_destroyed_once (i := i) ?_ honce
    rw [hi, Bool.true_and, decide_eq_true_eq]
    exact fun j hj hji => hout ⟨j, hj, hji⟩
  · intro hlive
    refine hkept.destroyed_once fun i => ?_
    by_cases hi : s.m_constructed.m_flags i = true
    · have hlt : i < s.m_capacity := by
        by_contra hout
        rw [howned.tracked.outside i (Nat.le_of_not_lt hout)] at hi
        cases hi
      obtain ⟨j, hj, hji⟩ := hlive i hlt hi
      rw [decide_eq_false fun hall => hall j hj hji, Bool.and_false]
    · rw [Bool.not_eq_true] at hi
      rw [hi, Bool.false_and]

/-- Two elements, one of them popped: both are destroyed. -/
theorem elements_destroyed_popped : ∃ s₀ outs s,
    Machine.Run (step Allocator.large ElementType.owning)
      (fun s op => s.InRange op ∧ s.KeepsObjects op) s₀
      [.push_back 1, .push_back 2, .pop_front] outs s ∧
    (s.destruct ElementType.owning).m_buffer.DestroyedOnce := by
  obtain ⟨s₀, outs, s, h₀, hrun, hlive⟩ := Machine.exists_run
    (step Allocator.large ElementType.owning) (fun s op => s.InRange op ∧ s.KeepsObjects op)
    (with_capacity Allocator.large ElementType.owning 2)
    [.push_back 1, .push_back 2, .pop_front]
    (fun r => decide (∀ i, i < r.2.m_capacity → r.2.m_constructed.m_flags i = true →
      ∃ j, j < r.2.size ∧ r.2.get_adjusted_internal_index j = i)) (by decide +kernel)
  exact ⟨s₀, outs, s, hrun,
    (elements_destroyed_iff rfl (.inl ⟨2, by decide, h₀⟩) hrun).mpr (of_decide_eq_true hlive)⟩

/-- The front that a push into a full buffer drops is never destroyed. -/
theorem overwritten_element_lost : ∃ s₀ outs s,
    Constructed Allocator.large ElementType.owning s₀ ∧
    Machine.Run (step Allocator.large ElementType.owning) InRange s₀
      [.push_back 5, .push_back 6] outs s ∧
    ¬(s.destruct ElementType.owning).m_buffer.DestroyedOnce := by
  obtain ⟨s₀, outs, s, h₀, hrun, hlost⟩ := Machine.exists_run
    (step Allocator.large ElementType.owning) InRange
    (with_capacity Allocator.large ElementType.owning 1) [.push_back 5, .push_back 6]
    (fun r => decide (0 < (r.2.destruct ElementType.owning).m_buffer.born) &&
      decide ((r.2.destruct ElementType.owning).m_buffer.dead.count 0 = 0)) (by decide +kernel)
  refine ⟨s₀, outs, s, .inl ⟨1, by decide, h₀⟩, hrun, fun honce => ?_⟩
  rw [Bool.and_eq_true, decide_eq_true_eq, decide_eq_true_eq] at hlost
  have hone := honce 0 hlost.1
  rw [hlost.2] at hone
  cases hone

end Hyperion.RingBuffer
