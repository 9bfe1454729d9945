/-
What an insertion leaves in the buffer.

With room behind it, every element from the position on moves up by one, and the new one
takes the place that is left.  In a full buffer the elements move up by two, all but the
last, and the new one goes one slot further on than asked: the write index then drives the
front out, every position moves one place on, and the elements behind the new one are where
they should be.  Those before it are not, since the front is gone: what is inserted before
the first element is right, and what is inserted elsewhere leaves a position without an
object, or the elements before the new one shifted down by one.

What is inserted may be a reference to an element.  It is read when the gap is open, so it
must lead to an element that has not moved away, and to one that reads the same if another
has taken its place; `insert_emplace` may besides not be given the element in the gap, which
it destroys first.
-/
import Hyperion.RingBuffer.Contents
import Hyperion.RingBuffer.ElementTypes
import Hyperion.RingBuffer.Lifetimes

namespace Hyperion

variable {α : Type} {E : ElementType α}

namespace RingBuffer

variable {s : RingBuffer α} {p : Nat → Bool}

/-! ### Arguments -/

namespace Argument

variable {n k : Nat} {st : Storage α}

/-- A copy of an object is a copy of its value. -/
theorem use_element (h : st.m_buffer.Kept n p) (hk : k < n) (hp : p k = true) (make : α → α) :
    (element k make).use E st = st := by
  rw [Argument.use, h.copyFrom_eq hk hp]

theorem read_element (h : st.m_buffer.InBounds n) (hk : k < n) {v : α}
    (hv : (st.m_buffer.cell k).value = some v) (make : α → α) :
    (element k make).read st.m_buffer.read = some (make v) := by
  rw [Argument.read, h.read hk, hv]
  rfl

/-- There is no copy of what was destroyed or moved away. -/
theorem use_misuse_ne (h : st.m_buffer.holds k = false) (make : α → α) :
    ((element k make).use E st).m_buffer.misuse ≠ [] :=
  Arena.copyFrom_misuse_ne (.inr h)

end Argument

theorem set_constructed_misuse (hE : E.trivially_destructible = false) (st : Storage α) (i : Nat)
    (b : Bool) : (st.set_constructed E i b).m_buffer.misuse = st.m_buffer.misuse := by
  rw [Storage.set_constructed, hE, if_neg Bool.false_ne_true]
  exact Arena.touch_misuse _ _ _

/-! ### Filling the gap -/

/--
What the ends of the two insertions have in common.  A reference to an element is good for
its value if the element is there by then, and `free` in that the gap is not the element's
slot or need not be emptied.
-/
structure Fills (free : Nat → Nat → Prop)
    (F : Nat → Argument α → Storage α → Storage α) : Prop where
  value : ∀ g v st i, ((F g (.value v) st).m_buffer.cell i).value
    = if i = g then some v else (st.m_buffer.cell i).value
  tracked : ∀ n p st i v, Storage.Tracked n p st → i < n →
    (F i (.value v) st).Tracked n (Function.update p i true)
  /-- The slot past the end is used all the same. -/
  outside : ∀ n p st x, Storage.Tracked n p st → (F n x st).m_buffer.oob ≠ []
  reads : ∀ n p st i k make v, Storage.Tracked n p st → i < n → p k = true → free i k →
    (st.m_buffer.cell k).value = some v → F i (.element k make) st = F i (.value (make v)) st
  misused : ∀ n p st i k make, Storage.Tracked n p st → i < n → ¬(p k = true ∧ free i k) →
    (F i (.element k make) st).m_buffer.misuse ≠ []

theorem fills_fill_gap (hE : E.trivially_destructible = false) :
    Fills (fun _ _ => True) (fill_gap (α := α) E) := by
  have hcopies : ∀ v : α, (Argument.value v).Copies := fun _ => trivial
  refine ⟨fun g v st i => fill_gap_value E g (hcopies v) st i,
    fun n p st i v ht hi => ht.fill_gap hE hi (Argument.index_value v), fun n p st x ht => ?_,
    fun n p st i k make v ht hi hk _ hv => ?_, fun n p st i k make ht hi hk => ?_⟩
  · have hslots : (st.is_constructed E n).2.m_buffer.slots ≤ n := by
      rw [Storage.is_constructed_slots, ht.kept.bounds.slots]
    unfold fill_gap
    simp only
    split
    · exact Argument.use_oob_ne E (Arena.assign_oob_ne (.inr hslots) _) x
    · rw [Storage.set_constructed, hE, if_neg Bool.false_ne_true]
      exact Arena.touch_oob_ne (.inl (Arena.construct_oob_ne
        (.inr ((x.use_slots E _).trans_le hslots)) _))
  · have hlt := ht.lt_of_live hk
    unfold fill_gap
    rw [ht.is_constructed_eq hE hi]
    simp only [Argument.read_element ht.kept.bounds hlt hv, Argument.read_value,
      Argument.use_value, Argument.use_element ht.kept hlt hk]
    by_cases hp : p i = true
    · simp only [hp, if_pos]
      exact Argument.use_element (ht.assign hi hp (some (make v))).kept hlt hk make
    · simp only [hp, Bool.false_eq_true, if_false]
  · have hdead : st.m_buffer.holds k = false := by
      rw [ht.kept.holds, ← Bool.not_eq_true]
      exact fun hlive => hk ⟨hlive, trivial⟩
    unfold fill_gap
    rw [ht.is_constructed_eq hE hi]
    by_cases hp : p i = true
    · simp only [hp, if_pos]
      exact Argument.use_misuse_ne ((Arena.assign_holds ..).trans hdead) make
    · simp only [hp, Bool.false_eq_true, if_false]
      rw [set_constructed_misuse hE]
      exact Arena.construct_misuse_ne (.inl (Argument.use_misuse_ne hdead make)) _

theorem fills_emplace_gap (hE : E.trivially_destructible = false) :
    Fills (fun g k => k ≠ g) (emplace_gap (α := α) E) := by
  have hcopies : ∀ v : α, (Argument.value v).Copies := fun _ => trivial
  refine ⟨fun g v st i => emplace_gap_value E g (hcopies v) st i,
    fun n p st i v ht hi => ht.emplace_gap hE hi (Argument.index_value v), fun n p st x ht => ?_,
    fun n p st i k make v ht hi hk hne hv => ?_, fun n p st i k make ht hi hk => ?_⟩
  · unfold emplace_gap
    simp only
    refine Arena.construct_oob_ne (.inr ((x.use_slots E _).trans_le ?_)) _
    split
    · rw [Storage.destroy_slots, Storage.is_constructed_slots, ht.kept.bounds.slots]
    · rw [Storage.set_constructed_slots, Storage.is_constructed_slots, ht.kept.bounds.slots]
  · have hlt := ht.lt_of_live hk
    have hvalue := Argument.read_element ht.kept.bounds hlt hv make
    unfold emplace_gap
    rw [ht.is_constructed_eq hE hi]
    by_cases hp : p i = true
    · have hdestroyed : (Argument.element k make).use E (st.destroy i) = st.destroy i :=
        Argument.use_element (ht.kept.destroy hi hp) hlt
          ((Function.update_of_ne hne _ _).trans hk) make
      simp only [hp, if_pos, Storage.destroy_read, hvalue, hdestroyed, Argument.read_value,
        Argument.use_value]
    · have hset : (st.set_constructed E i true).m_buffer.Kept n p := by
        rw [Storage.set_constructed, hE, if_neg Bool.false_ne_true,
          Arena.touch_of_lt (ht.size ▸ hi)]
        exact ht.kept
      simp only [hp, Bool.false_eq_true, if_false, Storage.set_constructed_read, hvalue,
        Argument.use_element hset hlt hk, Argument.read_value, Argument.use_value]
  · unfold emplace_gap
    rw [ht.is_constructed_eq hE hi]
    refine Arena.construct_misuse_ne (.inl (Argument.use_misuse_ne ?_ make)) _
    by_cases hp : p i = true
    · simp only [hp, if_pos]
      have hkept := (ht.kept.destroy hi hp).holds k
      by_cases hki : k = i
      · rw [hki, Function.update_self] at hkept
        rw [hki]
        exact hkept
      · rw [Function.update_of_ne hki] at hkept
        exact hkept.trans (Bool.not_eq_true _ ▸ fun hlive => hk ⟨hlive, hki⟩)
    · simp only [hp, Bool.false_eq_true, if_false]
      have hholds : (st.set_constructed E i true).m_buffer.holds k = p k := by
        rw [Arena.holds, Storage.set_constructed_cell]
        exact ht.kept.holds k
      rw [hholds, ← Bool.not_eq_true]
      exact fun hlive => hk ⟨hlive, fun hki => hp (hki ▸ hlive)⟩

/-- The buffer after the gap was opened, filled, and the write index moved on. -/
def filled (E : ElementType α) (F : Nat → Argument α → Storage α → Storage α) (s : RingBuffer α)
    (q : Nat) (x : Argument α) : RingBuffer α :=
  increment_indices { s with toStorage := F (s.open_gap E q).1 x (s.open_gap E q).2 }

/--
An insertion into a full buffer is before its first element, or before its last and all
elements read the same, and does not find the position's slot last in the array.
-/
def InsertsInOrder (s : RingBuffer α) (q : Nat) : Prop :=
  s.full = true → s.get_adjusted_internal_index q + 1 ≠ s.m_capacity ∧
    (q = 0 ∨ (q + 1 = s.size ∧ ∀ i, i < s.size → ∀ j, j < s.size → (s.at' i).1 = (s.at' j).1))

/-- A buffer whose flags are right contains a list if the values are the list's. -/
theorem Owned.contains {t : RingBuffer α} {b : BoundedList α} (h : Owned t)
    (hsize : t.size = b.items.length) (hbound : t.m_capacity = b.bound + 1)
    (hvalues : ∀ j x, b.items[j]? = some x →
      (t.m_buffer.cell (t.get_adjusted_internal_index j)).value = some x) : Contains E t b := by
  refine ⟨h.sound E, hsize, hbound, fun j x hx => ?_⟩
  have hj : j < b.items.length := (List.getElem?_eq_some_iff.mp hx).1
  have hheld := (h.tracked.kept.holds _).trans (h.live j (hsize ▸ hj))
  obtain ⟨id, hid⟩ := Option.isSome_iff_exists.mp hheld
  exact ⟨id, by rw [← hvalues j x hx, ← hid]⟩

/-- A run of equal neighbours is equal throughout. -/
theorem eq_of_neighbours {β : Type} {f : Nat → β} {n : Nat}
    (h : ∀ j, j + 1 < n → f (j + 1) = f j) : ∀ i, i < n → ∀ j, j < n → f i = f j := by
  have hfirst : ∀ j, j < n → f j = f 0 := by
    intro j
    induction j with
    | zero => intro _; rfl
    | succ j ih => intro hj; exact (h j hj).trans (ih (Nat.lt_of_succ_lt hj))
  exact fun i hi j hj => (hfirst i hi).trans (hfirst j hj).symm

/-! ### Before an element -/

section Filled

variable {F : Nat → Argument α → Storage α → Storage α} {free : Nat → Nat → Prop}
  {b : BoundedList α} {q : Nat}

theorem filled_storage (E : ElementType α) (F : Nat → Argument α → Storage α → Storage α)
    (s : RingBuffer α) (q : Nat) (x : Argument α) :
    (filled E F s q x).toStorage = F (s.open_gap E q).1 x (s.open_gap E q).2 :=
  increment_indices_storage _

theorem filled_capacity (E : ElementType α) (F : Nat → Argument α → Storage α → Storage α)
    (s : RingBuffer α) (q : Nat) (x : Argument α) :
    (filled E F s q x).m_capacity = s.m_capacity :=
  increment_indices_capacity _

theorem Shape.filled_room (h : Shape s) (E : ElementType α)
    (F : Nat → Argument α → Storage α → Storage α) (q : Nat) (x : Argument α)
    (hroom : s.size + 1 ≠ s.m_capacity) :
    (filled E F s q x).m_start_index = s.m_start_index ∧ (filled E F s q x).size = s.size + 1 :=
  (h.with_storage _).increment_room hroom

theorem Shape.filled_full (h : Shape s) (E : ElementType α)
    (F : Nat → Argument α → Storage α → Storage α) (q : Nat) (x : Argument α)
    (hfull : s.size + 1 = s.m_capacity) :
    (filled E F s q x).m_start_index = s.get_adjusted_internal_index 1 ∧
    (filled E F s q x).size = s.size :=
  (h.with_storage _).increment_full hfull

/-- What the list does where the buffer is full. -/
theorem Contains.bound_of_full (h : Contains E s b) (hfull : s.size + 1 = s.m_capacity) :
    b.items.length = b.bound := by
  have hlen := h.size_eq
  have hbound := h.bound_eq
  omega

theorem InsertsInOrder.opens_gap (h : s.InsertsInOrder q) : s.OpensGap q := by
  intro hfull _
  obtain ⟨hinside, hplace⟩ := h hfull
  exact ⟨hplace.imp_right And.left, hinside⟩

theorem filled_owned (ho : Owned s) (hE : E.trivially_destructible = false) (hF : Fills free F)
    (hq : q < s.size) (hin : s.InsertsInOrder q) (v : α) :
    (s.open_gap E q).1 < s.m_capacity ∧ Owned (filled E F s q v) := by
  obtain ⟨hindex, p', hshifted, hlive⟩ := ho.open_gap hE hq hin.opens_gap
  have hgap : (s.open_gap E q).1 < s.m_capacity := hindex ▸ ho.internal_lt _
  exact ⟨hgap,
    Owned.increment_indices ho.toShape (hF.tracked _ _ _ _ v hshifted.tracked hgap) hlive⟩

/-- With room the elements behind the new one are one position further on. -/
theorem filled_room (h : Contains E s b) (ho : Owned s) (hE : E.trivially_destructible = false)
    (hF : Fills free F) (hq : q < s.size) (hroom : s.size + 1 ≠ s.m_capacity) (v : α) :
    Contains E (filled E F s q v) (b.insertAt q v) := by
  have hsize := h.size_lt
  have hlen := h.size_eq
  have hbound := h.bound_eq
  have hlength := b.length_insertAt q v
  have howned := (filled_owned ho hE hF hq (fun hfull => absurd (h.full_iff.mp hfull) hroom) v).2
  obtain ⟨hstart, hmore⟩ := h.toShape.filled_room E F q v hroom
  have hcap := filled_capacity E F s q v
  refine howned.contains ?_ (hcap.trans hbound) fun j x hx => ?_
  · rw [hlength]
    omega
  · have hj : j < (b.insertAt q v).items.length := (List.getElem?_eq_some_iff.mp hx).1
    obtain ⟨p', hshifted⟩ := ho.shifted_up ho.tracked hE ho.live
      (d := 1) (n := s.size - q) (Nat.le_refl 1) (by omega)
    rw [internal_congr (s := s) hstart hcap, filled_storage, hF.value,
      h.open_gap_room E hq hroom]
    rw [BoundedList.getElem?_insertAt (by omega) (by omega)] at hx
    by_cases hjq : j = q
    · rw [if_neg (by omega), if_pos hjq] at hx
      rw [if_pos (by rw [hjq]), hx]
    · rw [if_neg (h.internal_ne (by omega) (by omega) hjq)]
      by_cases hlt : j < q
      · rw [if_pos hlt] at hx
        obtain ⟨id, hcell⟩ := h.holds j x hx
        rw [hshifted.value_before j (by omega), hcell]
      · rw [if_neg hlt, if_neg hjq] at hx
        obtain ⟨id, hcell⟩ := h.holds (j - 1) x hx
        rw [hshifted.value_after j (by omega) (by omega), hcell]

/-- In a full buffer they are two further on, and the front is gone. -/
theorem filled_full (h : Contains E s b) (ho : Owned s) (hE : E.trivially_destructible = false)
    (hF : Fills free F) (hq : q < s.size) (hfull : s.size + 1 = s.m_capacity)
    (hin : s.InsertsInOrder q) (v : α) :
    Contains E (filled E F s q v) (b.insertAt q v) := by
  have hsize := h.size_lt
  have hlen := h.size_eq
  have hbound := h.bound_eq
  have hbfull := h.bound_of_full hfull
  have hlength := b.length_insertAt q v
  obtain ⟨hinside, hplace⟩ := hin (h.full_iff.mpr hfull)
  have howned := (filled_owned ho hE hF hq hin v).2
  have hgap : s.get_adjusted_internal_index q + 1 = s.get_adjusted_internal_index (q + 1) := by
    rw [h.internal_next (by omega), if_neg hinside]
  obtain ⟨hstart, hsame⟩ := h.toShape.filled_full E F q v hfull
  have hcap := filled_capacity E F s q v
  refine howned.contains ?_ (hcap.trans hbound) fun j x hx => ?_
  · rw [hlength]
    omega
  · have hj : j < (b.insertAt q v).items.length := (List.getElem?_eq_some_iff.mp hx).1
    obtain ⟨p', hshifted⟩ := ho.shifted_up ho.tracked hE ho.live
      (d := 2) (n := s.size - q - 1) (by omega) (by omega)
    rw [h.internal_succ howned.toShape hstart hcap (by omega), filled_storage, hF.value,
      h.open_gap_full E hq hfull, hgap]
    rw [BoundedList.getElem?_insertAt (by omega) (by omega)] at hx
    by_cases hjq : j = q
    · rw [if_neg (by omega), if_pos hjq] at hx
      rw [if_pos (by rw [hjq]), hx]
    · rw [if_neg (h.internal_ne (by omega) (by omega) (by omega))]
      by_cases hlt : j < q
      · -- the new element is the last, and nothing was moved
        obtain ⟨hlast, hequal⟩ := hplace.resolve_left (by omega)
        rw [if_pos hlt, ← h.agrees.at' j (by omega), hequal j (by omega) (j + 1) (by omega),
          h.agrees.at' (j + 1) (by omega)] at hx
        obtain ⟨id, hcell⟩ := h.holds (j + 1) x hx
        rw [show s.size - q - 1 = 0 by omega]
        show (s.m_buffer.cell _).value = _
        rw [hcell]
      · rw [if_neg hlt, if_neg hjq] at hx
        obtain ⟨id, hcell⟩ := h.holds (j - 1) x hx
        rw [hshifted.value_after (j + 1) (by omega) (by omega),
          show j + 1 - 2 = j - 1 by omega, hcell]

/-- In a full buffer the new element goes one after the position it is for. -/
theorem filled_storage_full (h : Contains E s b) (hq : q < s.size)
    (hfull : s.size + 1 = s.m_capacity) (x : Argument α) :
    (filled E F s q x).toStorage = F (s.get_adjusted_internal_index q + 1) x
      (s.shift_up E 2 (s.size - q - 1)) := by
  rw [filled_storage, h.open_gap_full E hq hfull]

/-- A full buffer counts from the next element on. -/
theorem filled_position (h : Contains E s b) (hfull : s.size + 1 = s.m_capacity)
    {x : Argument α} {b' : BoundedList α} (hafter : Contains E (filled E F s q x) b') {j : Nat}
    (hj : j < s.m_capacity) :
    (filled E F s q x).get_adjusted_internal_index j = s.get_adjusted_internal_index (j + 1) :=
  h.internal_succ hafter.toShape (h.toShape.filled_full E F q x hfull).1
    (filled_capacity E F s q x) hj

/-- The new element did not go past the end of the array. -/
theorem inserts_inside (h : Contains E s b) (ho : Owned s)
    (hE : E.trivially_destructible = false) (hF : Fills free F) (hq : q < s.size)
    (hfull : s.size + 1 = s.m_capacity) {x : Argument α} {b' : BoundedList α}
    (hafter : Contains E (filled E F s q x) b') :
    s.get_adjusted_internal_index q + 1 ≠ s.m_capacity := by
  intro hlast
  obtain ⟨p', hshifted⟩ := h.shifted_up ho.tracked hE ho.live
    (d := 2) (n := s.size - q - 1) (by omega) (by omega)
  refine hF.outside _ _ _ x hshifted.tracked ?_
  rw [← hlast, ← filled_storage_full (F := F) h hq hfull]
  exact hafter.inside.buffer.oob

/-- The position the new element is for did not become one that holds nothing: behind it the
elements would have been moved, the first of them from that position. -/
theorem inserts_at_end (h : Contains E s b) (ho : Owned s)
    (hE : E.trivially_destructible = false) (hF : Fills free F) (hq : q < s.size)
    (hfull : s.size + 1 = s.m_capacity)
    (hnext : s.get_adjusted_internal_index q + 1 = s.get_adjusted_internal_index (q + 1))
    {v : α} (hafter : Contains E (filled E F s q v) (b.insertAt q v)) (hzero : q ≠ 0) :
    q + 1 = s.size := by
  have hlen := h.size_eq
  have hbound := h.bound_eq
  have hlength := b.length_insertAt q v
  by_contra hlast
  obtain ⟨p', hshifted⟩ := h.shifted_up ho.tracked hE ho.live
    (d := 2) (n := s.size - q - 1) (by omega) (by omega)
  have hnone := hshifted.vacated q (by omega) (by omega) (by omega)
  have hfilled := hF.tracked _ _ _ _ v hshifted.tracked (hnext ▸ h.internal_lt (q + 1))
  obtain ⟨x, hx⟩ : ∃ x, (b.insertAt q v).items[q - 1]? = some x :=
    ⟨_, List.getElem?_eq_getElem (by omega)⟩
  obtain ⟨id, hcell⟩ := hafter.holds (q - 1) x hx
  rw [filled_position h hfull hafter (by omega), show q - 1 + 1 = q by omega,
    filled_storage_full h hq hfull] at hcell
  have hholds := hfilled.kept.holds (s.get_adjusted_internal_index q)
  rw [Arena.holds, hcell, Function.update_of_ne (by omega), hnone] at hholds
  cases hholds

/-- Where nothing was moved, every element before the new one equals the next one. -/
theorem inserts_equal (h : Contains E s b) (hF : Fills free F) (hq : q < s.size)
    (hfull : s.size + 1 = s.m_capacity)
    (hnext : s.get_adjusted_internal_index q + 1 = s.get_adjusted_internal_index (q + 1))
    {v : α} (hafter : Contains E (filled E F s q v) (b.insertAt q v)) (hlast : q + 1 = s.size)
    {j : Nat} (hj : j < q) : (s.at' (j + 1)).1 = (s.at' j).1 := by
  have hsize := h.size_lt
  have hlen := h.size_eq
  have hbound := h.bound_eq
  have hposition := filled_position h hfull hafter (j := j) (by omega)
  rw [h.agrees.at' j (by omega), h.agrees.at' (j + 1) (by omega),
    List.getElem?_eq_getElem (show j < b.items.length by omega),
    List.getElem?_eq_getElem (show j + 1 < b.items.length by omega)]
  obtain ⟨id, hcell⟩ := hafter.holds j b.items[j] (by
    rw [BoundedList.getElem?_insertAt (by omega) (by omega), if_pos hj,
      List.getElem?_eq_getElem])
  obtain ⟨id', hcell'⟩ := h.holds (j + 1) b.items[j + 1] (List.getElem?_eq_getElem _)
  have hvalue := hF.value (s.get_adjusted_internal_index q + 1) v
    (s.shift_up E 2 (s.size - q - 1)) (s.get_adjusted_internal_index (j + 1))
  rw [← filled_storage_full (F := F) h hq hfull, ← hposition, hcell, hposition, hnext,
    if_neg (h.internal_ne (by omega) (by omega) (by omega)),
    show s.size - q - 1 = 0 by omega] at hvalue
  exact (hvalue.trans (congrArg Cell.value hcell')).symm

/-- A full buffer that contains the list afterwards was one of those. -/
theorem inserts_in_order (h : Contains E s b) (ho : Owned s)
    (hE : E.trivially_destructible = false) (hF : Fills free F) (hq : q < s.size) {v : α}
    (hafter : Contains E (filled E F s q v) (b.insertAt q v)) : s.InsertsInOrder q := by
  intro hfull
  rw [h.full_iff] at hfull
  have hinside := inserts_inside h ho hE hF hq hfull hafter
  have hnext : s.get_adjusted_internal_index q + 1 = s.get_adjusted_internal_index (q + 1) := by
    rw [h.internal_next (by omega), if_neg hinside]
  refine ⟨hinside, ?_⟩
  by_cases hzero : q = 0
  · exact .inl hzero
  · have hlast := inserts_at_end h ho hE hF hq hfull hnext hafter hzero
    exact .inr ⟨hlast, eq_of_neighbours fun j hj =>
      inserts_equal h hF hq hfull hnext hafter hlast (by omega)⟩

/-- **An insertion before an element is the list's** exactly in a buffer with room, or where
the code for full ones happens to be right. -/
theorem filled_iff (h : Contains E s b) (ho : Owned s) (hE : E.trivially_destructible = false)
    (hF : Fills free F) (hq : q < s.size) (v : α) :
    Contains E (filled E F s q v) (b.insertAt q v) ∧ (filled E F s q v).m_buffer.misuse = [] ↔
      s.InsertsInOrder q := by
  refine ⟨fun hafter => inserts_in_order h ho hE hF hq hafter.1, fun hin => ⟨?_, ?_⟩⟩
  · by_cases hfull : s.size + 1 = s.m_capacity
    · exact filled_full h ho hE hF hq hfull hin v
    · exact filled_room h ho hE hF hq hfull v
  · exact (filled_owned ho hE hF hq hin v).2.tracked.kept.misuse

/-! ### With a reference to an element -/

/-- What the element at position `j` reads as when a gap is open at `q`. -/
def shifted_at (s : RingBuffer α) (q j : Nat) : Option α :=
  (s.at' (if q + s.stride ≤ j then j - s.stride else j)).1

/--
An element the argument leads to is still there when the gap is open, and what is made of
it is what would have been made before.
-/
def ReadsRight (s : RingBuffer α) (q : Nat) (x : Argument α) : Prop :=
  (∀ j ∈ x.index, ¬s.Vacates q j) ∧ x.read (s.shifted_at q) = x.read fun j => (s.at' j).1

theorem reads_right_value (s : RingBuffer α) (q : Nat) (v : α) : s.ReadsRight q (.value v) :=
  ⟨Argument.index_value v, rfl⟩

/-- Nothing moves where the position is the end. -/
theorem reads_right_end {x : Argument α} (hx : ∀ j ∈ x.index, j < s.size) :
    s.ReadsRight s.size x := by
  refine ⟨fun j hj hvacates => Nat.not_le_of_lt (hx j hj) hvacates.1,
    Argument.read_congr fun j hj => ?_⟩
  have hlt := hx j hj
  rw [shifted_at, if_neg (by omega)]

/-- The slot of the position the new element is for is the gap. -/
theorem filled_gap (h : Contains E s b) (ho : Owned s) (hE : E.trivially_destructible = false)
    (hF : Fills free F) (hq : q < s.size) {x : Argument α} {b' : BoundedList α}
    (hafter : Contains E (filled E F s q x) b') :
    (s.open_gap E q).1 = s.get_adjusted_internal_index (q + s.stride - 1) ∧
    (filled E F s q x).get_adjusted_internal_index q = (s.open_gap E q).1 := by
  have hsize := h.size_lt
  have hindex := h.toShape.open_gap_index E hq fun hfull =>
    inserts_inside h ho hE hF hq hfull hafter
  refine ⟨hindex, ?_⟩
  rw [hindex]
  by_cases hfull : s.size + 1 = s.m_capacity
  · rw [filled_position h hfull hafter (by omega), h.stride_full hfull]
    rfl
  · rw [internal_congr (h.toShape.filled_room E F q x hfull).1 (filled_capacity E F s q x),
      h.stride_room hfull]
    rfl

/-- The element at the position is the one that was put there. -/
theorem filled_at (h : Contains E s b) (ho : Owned s) (hE : E.trivially_destructible = false)
    (hF : Fills free F) (hq : q < s.size) {v w : α}
    (hafter : Contains E (filled E F s q w) (b.insertAt q v)) : w = v := by
  have hlen := h.size_eq
  have hbound := h.bound_eq
  have hsize := h.size_lt
  obtain ⟨id, hcell⟩ := hafter.holds q v (by
    rw [BoundedList.getElem?_insertAt (by omega) (by omega), if_neg (by omega), if_pos rfl])
  rw [(filled_gap h ho hE hF hq hafter).2, filled_storage] at hcell
  have hvalue := hF.value (s.open_gap E q).1 w (s.open_gap E q).2 (s.open_gap E q).1
  rw [hcell, if_pos rfl] at hvalue
  exact (Option.some.inj hvalue).symm

/-- A reference to an element that is still there is good for what it reads as by then. -/
theorem filled_element (h : Contains E s b) (ho : Owned s)
    (hE : E.trivially_destructible = false) (hF : Fills free F) (hq : q < s.size) {j : Nat}
    (hj : j < s.size)
    (hindex : (s.open_gap E q).1 = s.get_adjusted_internal_index (q + s.stride - 1))
    (hkept : ¬s.Vacates q j)
    (hfree : free (s.open_gap E q).1 (s.get_adjusted_internal_index j)) (make : α → α) :
    ∃ v, s.shifted_at q j = some v ∧
      filled E F s q (s.reference (.element j make)) = filled E F s q (make v) := by
  have hlen := h.size_eq
  obtain ⟨hroom, p', hshifted⟩ := ho.gap_opened hE hq
  have hvalue := hshifted.value_eq hroom hj hkept
  obtain ⟨v, hv⟩ : ∃ v, b.items[if q + s.stride ≤ j then j - s.stride else j]? = some v :=
    ⟨_, List.getElem?_eq_getElem (by split <;> omega)⟩
  obtain ⟨id, hcell⟩ := h.holds _ v hv
  refine ⟨v, ?_, ?_⟩
  · rw [shifted_at, h.agrees.at' _ (by split <;> omega), hv]
  · rw [hcell] at hvalue
    have hreads := hF.reads _ _ _ _ _ make v hshifted.tracked (hindex ▸ h.internal_lt _)
      ((ho.argument_live hE hq hshifted hj).mpr hkept) hfree hvalue
    exact congrArg (fun st => RingBuffer.increment_indices { s with toStorage := st }) hreads

/-- A reference to one that is not there is misuse. -/
theorem filled_misused (h : Contains E s b) (ho : Owned s)
    (hE : E.trivially_destructible = false) (hF : Fills free F) (hq : q < s.size) {j : Nat}
    (hj : j < s.size)
    (hindex : (s.open_gap E q).1 = s.get_adjusted_internal_index (q + s.stride - 1))
    {make : α → α}
    (hmisuse : (filled E F s q (s.reference (.element j make))).m_buffer.misuse = []) :
    ¬s.Vacates q j ∧ free (s.open_gap E q).1 (s.get_adjusted_internal_index j) := by
  obtain ⟨-, p', hshifted⟩ := ho.gap_opened hE hq
  rw [filled_storage] at hmisuse
  by_contra hnot
  refine hF.misused _ _ _ _ _ make hshifted.tracked (hindex ▸ h.internal_lt _) ?_ hmisuse
  rwa [ho.argument_live hE hq hshifted hj]

/-- What the argument gives where the elements are those of a list. -/
def Argument.given (x : Argument α) (items : List α) : Option α := x.read fun j => items[j]?

/-- Before the loop an argument reads as the list says. -/
theorem Contains.read_given (h : Contains E s b) {x : Argument α}
    (hx : ∀ j ∈ x.index, j < s.size) : (x.read fun j => (s.at' j).1) = x.given b.items :=
  Argument.read_congr fun j hj => h.agrees.at' j (hx j hj)

/--
**An insertion before an element is the list's**, whatever it is given but an element to move
from, exactly where it is for a value, and the argument leads to no element that is gone or
has become another by then.
-/
theorem filled_argument_iff (h : Contains E s b) (ho : Owned s)
    (hE : E.trivially_destructible = false) (hF : Fills free F) (hq : q < s.size)
    {x : Argument α} (hcopies : x.Copies) (hx : ∀ j ∈ x.index, j < s.size) {v : α}
    (hv : x.given b.items = some v) :
    Contains E (filled E F s q (s.reference x)) (b.insertAt q v) ∧
        (filled E F s q (s.reference x)).m_buffer.misuse = [] ↔
      s.InsertsInOrder q ∧ s.ReadsRight q x ∧
        ∀ j ∈ x.index, free (s.get_adjusted_internal_index (q + s.stride - 1))
          (s.get_adjusted_internal_index j) := by
  cases x with
  | rvalue j => exact hcopies.elim
  | value w =>
      cases hv
      refine (filled_iff h ho hE hF hq v).trans ⟨fun hin => ?_, And.left⟩
      exact ⟨hin, reads_right_value s q v, Argument.index_value v⟩
  | element j make =>
      have hj : j < s.size := hx j rfl
      have hgiven := h.read_given hx
      constructor
      · rintro ⟨hafter, hmisuse⟩
        obtain ⟨hindex, -⟩ := filled_gap h ho hE hF hq hafter
        obtain ⟨hkept, hfree⟩ := filled_misused h ho hE hF hq hj hindex hmisuse
        obtain ⟨w, hw, heq⟩ := filled_element h ho hE hF hq hj hindex hkept hfree make
        rw [heq] at hafter hmisuse
        have hsame := filled_at h ho hE hF hq hafter
        have hin := (filled_iff h ho hE hF hq (make w)).mp ⟨hsame ▸ hafter, hmisuse⟩
        refine ⟨hin, ⟨fun i hi => ?_, ?_⟩, fun i hi => ?_⟩
        · cases hi
          exact hkept
        · rw [hgiven, hv, ← hsame, Argument.read, hw]
          rfl
        · cases hi
          rw [← hindex]
          exact hfree
      · rintro ⟨hin, ⟨hkept, hread⟩, hfree⟩
        have hindex := (ho.open_gap hE hq hin.opens_gap).1
        obtain ⟨w, hw, heq⟩ := filled_element h ho hE hF hq hj hindex (hkept j rfl)
          (hindex ▸ hfree j rfl) make
        have hsame : v = make w := by
          rw [hgiven, hv, Argument.read, hw] at hread
          exact (Option.some.inj hread).symm
        rw [heq, hsame]
        exact (filled_iff h ho hE hF hq (make w)).mpr hin

end Filled

/-! ### Runs -/

/-- Made by a constructor, of any capacity or any values. -/
def Built (A : Allocator) (E : ElementType α) (s : RingBuffer α) : Prop :=
  (∃ n, n < 2 ^ 64 ∧ with_capacity A E n = some s) ∨
    ∃ values : List α, values.length < 2 ^ 64 ∧ of_values A E values = some s

/-- The calls that push or pop an element. -/
def Op.PushesOrPops : Op α → Prop
  | .push_back _ | .emplace_back _ | .pop_front | .pop_back => True
  | _ => False

instance : (op : Op α) → Decidable op.PushesOrPops
  | .push_back _ | .emplace_back _ | .pop_front | .pop_back => isTrue trivial
  | .clear | .emplace _ _ | .insert _ _ | .insert_emplace _ _ | .erase _ | .erase_range _ _
  | .reserve _ | .at' _ | .subscript _ | .front | .back | .iterate => isFalse id

theorem Op.PushesOrPops.at_ends {op : Op α} (h : op.PushesOrPops) : op.AtEnds := by
  cases op with
  | push_back v | emplace_back v | pop_front | pop_back => exact trivial
  | _ => exact absurd h id

/-- A constructor leaves no slots where the number of slots wraps around. -/
theorem built_cases {A : Allocator} (h : Built A E s) : Constructed A E s ∨ s.m_capacity = 0 := by
  have hwrap : ∀ n, n < 2 ^ 64 → ¬ n + 1 < 2 ^ 64 → usize.add n 1 = 0 := by
    intro n hn hmax
    rw [usize.add, Word.add, show n + 1 = 2 ^ 64 by omega, Nat.mod_self]
  rcases h with ⟨n, hn, h⟩ | ⟨values, hn, h⟩
  · by_cases hmax : n + 1 < 2 ^ 64
    · exact .inl (.inl ⟨n, hmax, h⟩)
    · refine .inr ?_
      simp only [with_capacity, hwrap n hn hmax, Option.bind_eq_bind, Option.bind_eq_some_iff,
        Option.some.injEq] at h
      obtain ⟨a, -, c, -, rfl⟩ := h
      rfl
  · by_cases hmax : values.length + 1 < 2 ^ 64
    · exact .inl (.inr ⟨values, hmax, h⟩)
    · refine .inr ?_
      simp only [of_values, hwrap _ hn hmax, Option.bind_eq_bind, Option.bind_eq_some_iff,
        Option.some.injEq] at h
      obtain ⟨a, -, c, -, rfl⟩ := h
      rfl

/-- What a constructor that has slots makes contains a list. -/
theorem Constructed.contains {A : Allocator} (h : Constructed A E s) : ∃ b, Contains E s b := by
  rcases h with ⟨n, hn, h⟩ | ⟨values, hn, h⟩
  · exact ⟨_, contains_with_capacity hn h⟩
  · exact ⟨_, contains_of_values hn h⟩

theorem capacity_step {A : Allocator} {s' : RingBuffer α} {op : Op α} {o : Output α}
    (hop : op.AtEnds) (hstep : s.step A E op = some (o, s')) :
    s'.m_capacity = s.m_capacity := by
  cases op with
  | push_back v => cases hstep; exact increment_indices_capacity _
  | emplace_back v => cases hstep; exact increment_indices_capacity _
  | pop_front =>
      cases hstep
      show (s.pop_front E).2.m_capacity = s.m_capacity
      unfold RingBuffer.pop_front
      split
      · exact increment_start_capacity _
      · rfl
  | pop_back =>
      cases hstep
      show (s.pop_back E).2.m_capacity = s.m_capacity
      unfold RingBuffer.pop_back
      split
      · exact decrement_write_capacity _
      · rfl
  | clear => cases hstep; rfl
  | _ => exact absurd hop id

/-- After pushes and pops the flags are right and the buffer contains a list. -/
theorem pushed_or_popped {A : Allocator} {s₀ : RingBuffer α} {ops : List (Op α)}
    {outs : List (Output α)} (hE : E.trivially_destructible = false) (h₀ : Built A E s₀)
    (hrun : Machine.Run (step A E) (fun _ op => op.PushesOrPops) s₀ ops outs s) :
    (Owned s ∧ ∃ b, Contains E s b) ∨ s.m_capacity = 0 := by
  rcases built_cases h₀ with hmade | hnone
  · refine .inl (hrun.invariant (P := fun s => Owned s ∧ ∃ b, Contains E s b) ?_
      ⟨owned_constructed hE hmade, hmade.contains⟩)
    rintro s op o s' ⟨howned, b, hb⟩ hop hstep
    refine ⟨howned.step hE ?_ ?_ hstep, _, (hb.step hop.at_ends hstep).2⟩
    · cases op with
      | push_back v | emplace_back v | pop_front | pop_back => exact trivial
      | _ => exact absurd hop id
    · cases op with
      | push_back v | emplace_back v | pop_front | pop_back => exact trivial
      | _ => exact absurd hop id
  · refine .inr (hrun.invariant (P := fun s => s.m_capacity = 0) ?_ hnone)
    exact fun s op o s' h hop hstep => (capacity_step hop.at_ends hstep).trans h

/-- A slot that was named without leaving the array changes nothing. -/
theorem slot_eq_of_oob {i : Nat} (h : (s.slot i).2.m_buffer.oob = []) : (s.slot i).2 = s := by
  have hi : i < s.m_buffer.slots := by
    by_contra hout
    exact Arena.touch_oob_ne (.inr (Nat.not_lt.mp hout)) h
  rw [RingBuffer.slot, Arena.touch_of_lt hi]

/-- At the end a reference to an element is good for its value: nothing has moved yet. -/
theorem construct_back_reference {b : BoundedList α} (h : Contains E s b) (ho : Owned s)
    (hE : E.trivially_destructible = false) {x : Argument α} (hcopies : x.Copies)
    (hx : ∀ j ∈ x.index, j < s.size) {v : α} (hv : x.given b.items = some v) :
    s.construct_back E (s.reference x) = s.construct_back E v := by
  cases x with
  | rvalue j => exact hcopies.elim
  | value w =>
      cases hv
      rfl
  | element j make =>
      have hj : j < s.size := hx j rfl
      obtain ⟨hne, hlive⟩ := ho.reference_live (x := .element j make) hx _ rfl
      obtain ⟨w, hw, hwv⟩ := Option.map_eq_some_iff.mp hv
      obtain ⟨id, hcell⟩ := h.holds j w hw
      have hvalue := Argument.read_element ho.tracked.kept.bounds (h.internal_lt j)
        (congrArg Cell.value hcell) make
      rw [hwv] at hvalue
      show s.construct_back E (.element (s.get_adjusted_internal_index j) make) = _
      unfold construct_back
      rw [ho.tracked.is_constructed_eq hE h.write_lt]
      by_cases hp : s.m_constructed.m_flags s.m_write_index = true
      · have hdestroyed : (Argument.element (s.get_adjusted_internal_index j) make).use E
            (s.destroy s.m_write_index) = s.destroy s.m_write_index :=
          Argument.use_element (ho.tracked.kept.destroy h.write_lt hp) (h.internal_lt j)
            ((Function.update_of_ne hne _ _).trans hlive) make
        simp only [hp, if_pos, Storage.destroy_read, hvalue, hdestroyed, Argument.read_value,
          Argument.use_value]
      · simp only [hp, Bool.false_eq_true, if_false, hvalue, Argument.read_value,
          Argument.use_element ho.tracked.kept (h.internal_lt j) hlive, Argument.use_value]

theorem push_back_reference {b : BoundedList α} (h : Contains E s b) (ho : Owned s)
    (hE : E.trivially_destructible = false) {x : Argument α} (hcopies : x.Copies)
    (hx : ∀ j ∈ x.index, j < s.size) {v : α} (hv : x.given b.items = some v) :
    s.push_back E (s.reference x) = s.push_back E v :=
  congrArg (fun st => RingBuffer.increment_indices { s with toStorage := st })
    (construct_back_reference h ho hE hcopies hx hv)

theorem insert_end {b : BoundedList α} (h : Contains E s b) (ho : Owned s)
    (hE : E.trivially_destructible = false) {x : Argument α} (hcopies : x.Copies)
    (hx : ∀ j ∈ x.index, j < s.size) {v : α} (hv : x.given b.items = some v) :
    s.insert_internal E s.size (s.reference x) = s.push_back E v := by
  have hlvalue : (s.reference x).lvalue = s.reference x :=
    (Argument.copies_map_index.mpr hcopies).lvalue_eq
  rw [h.toSound.insert_internal_end, hlvalue, push_back_reference h ho hE hcopies hx hv]

theorem insert_emplace_end {b : BoundedList α} (h : Contains E s b) (ho : Owned s)
    (hE : E.trivially_destructible = false) {x : Argument α} (hcopies : x.Copies)
    (hx : ∀ j ∈ x.index, j < s.size) {v : α} (hv : x.given b.items = some v) :
    s.insert_emplace_internal E s.size (s.reference x) = s.emplace_back E v := by
  rw [h.toSound.insert_emplace_internal_end, emplace_back_eq, emplace_back_eq,
    push_back_reference h ho hE hcopies hx hv]

/-- An insertion left the contents the documentation says, and no object was used that is not
there. -/
def Inserted (E : ElementType α) (s : RingBuffer α) (p : Nat) (x : Argument α)
    (s' : RingBuffer α) : Prop :=
  ∃ b v, Contains E s b ∧ x.given b.items = some v ∧ Contains E s' (b.insertAt p v) ∧
    s'.m_buffer.misuse = []

theorem insert_iff {b : BoundedList α} (h : Contains E s b) (ho : Owned s)
    (hE : E.trivially_destructible = false) {p : Nat} (hp : p ≤ s.size) (hcap : p < s.capacity)
    {x : Argument α} (hcopies : x.Copies) (hx : ∀ j ∈ x.index, j < s.size) {v : α}
    (hv : x.given b.items = some v) :
    Contains E (s.insert_internal E p (s.reference x)) (b.insertAt p v) ∧
      (s.insert_internal E p (s.reference x)).m_buffer.misuse = [] ↔
      s.InsertsInOrder p ∧ s.ReadsRight p x := by
  have hlen := h.size_eq
  have hbound := h.bound_eq
  rw [h.capacity_eq] at hcap
  rcases Nat.lt_or_eq_of_le hp with hlt | rfl
  · rw [h.toSound.insert_internal_eq hlt]
    refine (filled_argument_iff h ho hE (fills_fill_gap hE) hlt hcopies hx hv).trans ?_
    exact ⟨fun hin => ⟨hin.1, hin.2.1⟩, fun hin => ⟨hin.1, hin.2, fun _ _ => trivial⟩⟩
  · have hend : b.insertAt s.size v = b.push v :=
      hlen ▸ BoundedList.insertAt_length (by omega) v
    rw [insert_end h ho hE hcopies hx hv, hend]
    refine iff_of_true ⟨h.push_back v, (ho.push_back hE v).tracked.kept.misuse⟩
      ⟨fun hfull => ?_, reads_right_end hx⟩
    rw [h.full_iff] at hfull
    omega

/-- The gap is not the slot of the element the argument leads to. -/
theorem gap_free_iff {b : BoundedList α} (h : Contains E s b) (ho : Owned s)
    (hE : E.trivially_destructible = false) {p : Nat} (hp : p < s.size) {x : Argument α}
    (hx : ∀ j ∈ x.index, j < s.size) :
    (∀ j ∈ x.index, s.get_adjusted_internal_index j
      ≠ s.get_adjusted_internal_index (p + s.stride - 1)) ↔
      ∀ j ∈ x.index, j + 1 ≠ p + s.stride := by
  have hsize := h.size_lt
  have hone := s.stride_pos
  obtain ⟨hroom, -⟩ := ho.gap_opened hE hp
  refine forall₂_congr fun j hj => ⟨fun hne heq => hne ?_, fun hne => ?_⟩
  · rw [← heq, Nat.add_sub_cancel]
  · have hlt := hx j hj
    exact h.internal_ne (by omega) (by omega) (by omega)

theorem insert_emplace_iff {b : BoundedList α} (h : Contains E s b) (ho : Owned s)
    (hE : E.trivially_destructible = false) {p : Nat} (hp : p ≤ s.size) (hcap : p < s.capacity)
    {x : Argument α} (hcopies : x.Copies) (hx : ∀ j ∈ x.index, j < s.size) {v : α}
    (hv : x.given b.items = some v) :
    Contains E (s.insert_emplace_internal E p (s.reference x)).2 (b.insertAt p v) ∧
      (s.insert_emplace_internal E p (s.reference x)).2.m_buffer.misuse = [] ↔
      s.InsertsInOrder p ∧ s.ReadsRight p x ∧ ∀ j ∈ x.index, j + 1 ≠ p + s.stride := by
  have hlen := h.size_eq
  have hbound := h.bound_eq
  rw [h.capacity_eq] at hcap
  rcases Nat.lt_or_eq_of_le hp with hlt | rfl
  · have hfilled := filled_argument_iff h ho hE (fills_emplace_gap hE) hlt hcopies hx hv
    rw [gap_free_iff h ho hE hlt hx] at hfilled
    have heq : s.insert_emplace_internal E p (s.reference x)
        = (filled E (emplace_gap E) s p (s.reference x)).slot (s.open_gap E p).1 :=
      h.toSound.insert_emplace_internal_eq hlt _
    rw [heq]
    constructor
    · rintro ⟨hafter, hmisuse⟩
      have hsame := slot_eq_of_oob hafter.inside.buffer.oob
      rw [hsame] at hafter hmisuse
      exact hfilled.mp ⟨hafter, hmisuse⟩
    · intro hin
      obtain ⟨hafter, hmisuse⟩ := hfilled.mpr hin
      have hgap : (s.open_gap E p).1 < s.m_capacity :=
        (ho.open_gap hE hlt hin.1.opens_gap).1 ▸ h.internal_lt _
      rw [hafter.slot_eq (by rw [filled_capacity]; exact hgap)]
      exact ⟨hafter, hmisuse⟩
  · have hend : b.insertAt s.size v = b.push v :=
      hlen ▸ BoundedList.insertAt_length (by omega) v
    rw [insert_emplace_end h ho hE hcopies hx hv, hend]
    refine iff_of_true ⟨(h.emplace_back v).2, (ho.emplace_back hE v).tracked.kept.misuse⟩
      ⟨fun hfull => ?_, reads_right_end hx, fun j hj => ?_⟩
    · rw [h.full_iff] at hfull
      omega
    · have hlt := hx j hj
      have hstride := s.stride_pos
      omega

/-- What is inserted, where the buffer contains a list. -/
theorem Contains.given {b : BoundedList α} (h : Contains E s b) {x : Argument α}
    (hx : ∀ j ∈ x.index, j < s.size) : ∃ v, x.given b.items = some v := by
  cases x with
  | value v => exact ⟨v, rfl⟩
  | element j make =>
      have hj : j < b.items.length := h.size_eq ▸ hx j rfl
      refine ⟨make b.items[j], ?_⟩
      rw [Argument.given, Argument.read, List.getElem?_eq_getElem hj]
      rfl
  | rvalue j =>
      have hj : j < b.items.length := h.size_eq ▸ hx j rfl
      exact ⟨b.items[j], List.getElem?_eq_getElem hj⟩

/--
**An insertion leaves the old elements with the new one before the position, and drops the
last element of a full buffer,** after any pushes and pops, exactly in a buffer that is not
full, or before the first element, or before the last of elements that all read the same,
and the latter two only where the position's slot is not the last; and only if a reference
to an element, when that is what is inserted, still leads to an element of that value
behind the loop that opens the gap, and for `insert_emplace` not to the gap itself.

An rvalue that is an element of the buffer is left out: the caller has given its value away.
-/
theorem inserted_iff {A : Allocator} {s₀ : RingBuffer α} {ops : List (Op α)}
    {outs : List (Output α)} (hE : E.trivially_destructible = false) (h₀ : Built A E s₀)
    (hrun : Machine.Run (step A E) (fun _ op => op.PushesOrPops) s₀ ops outs s) {p : Nat}
    (hp : p ≤ s.size) (hcap : p < s.capacity) {x : Argument α} (hcopies : x.Copies)
    (hx : ∀ j ∈ x.index, j < s.size) :
    (Inserted E s p x (s.insert_internal E p (s.reference x)) ↔
      0 < s.m_capacity ∧ s.InsertsInOrder p ∧ s.ReadsRight p x) ∧
    (Inserted E s p x (s.insert_emplace_internal E p (s.reference x)).2 ↔
      0 < s.m_capacity ∧ s.InsertsInOrder p ∧ s.ReadsRight p x ∧
        ∀ j ∈ x.index, j + 1 ≠ p + s.stride) := by
  rcases pushed_or_popped hE h₀ hrun with ⟨howned, hcontains⟩ | hnone
  · have hslots := howned.cap_pos
    refine ⟨⟨?_, ?_⟩, ⟨?_, ?_⟩⟩
    · rintro ⟨b, v, hb, hv, hafter⟩
      exact ⟨hslots, (insert_iff hb howned hE hp hcap hcopies hx hv).mp hafter⟩
    · rintro ⟨-, hin⟩
      obtain ⟨b, hb⟩ := hcontains
      obtain ⟨v, hv⟩ := hb.given hx
      exact ⟨b, v, hb, hv, (insert_iff hb howned hE hp hcap hcopies hx hv).mpr hin⟩
    · rintro ⟨b, v, hb, hv, hafter⟩
      exact ⟨hslots, (insert_emplace_iff hb howned hE hp hcap hcopies hx hv).mp hafter⟩
    · rintro ⟨-, hin⟩
      obtain ⟨b, hb⟩ := hcontains
      obtain ⟨v, hv⟩ := hb.given hx
      exact ⟨b, v, hb, hv, (insert_emplace_iff hb howned hE hp hcap hcopies hx hv).mpr hin⟩
  · have hnot : ∀ s', ¬ Inserted E s p x s' := by
      rintro s' ⟨b, v, hb, -⟩
      exact Nat.ne_of_gt hb.cap_pos hnone
    have hzero : ¬ 0 < s.m_capacity := fun h => Nat.ne_of_gt h hnone
    exact ⟨iff_of_false (hnot _) fun h => hzero h.1, iff_of_false (hnot _) fun h => hzero h.1⟩

instance [DecidableEq α] (s : RingBuffer α) (p : Nat) : Decidable (s.InsertsInOrder p) := by
  unfold InsertsInOrder
  infer_instance

instance [DecidableEq α] (s : RingBuffer α) (p : Nat) (x : Argument α) :
    Decidable (s.ReadsRight p x) := inferInstanceAs (Decidable (_ ∧ _))

/-- Before the front of a full buffer of two that wraps around, a value and the last element. -/
theorem inserted_wrapped : ∃ s₀ outs s,
    Machine.Run (step Allocator.large ElementType.owning) (fun _ op => op.PushesOrPops) s₀
      [.push_back 1, .push_back 2, .pop_front, .push_back 3] outs s ∧
    Inserted ElementType.owning s 0 (.value 4) (s.insert_internal ElementType.owning 0
      (s.reference (.value 4))) ∧
    Inserted ElementType.owning s 0 (.element 1 id) (s.insert_internal ElementType.owning 0
      (s.reference (.element 1 id))) := by
  obtain ⟨s₀, outs, s, h₀, hrun, hfront⟩ := Machine.exists_run
    (step Allocator.large ElementType.owning) (fun _ op => op.PushesOrPops)
    (with_capacity Allocator.large ElementType.owning 2)
    [.push_back 1, .push_back 2, .pop_front, .push_back 3]
    (fun r => decide (0 < r.2.capacity ∧ 1 < r.2.size ∧ 0 < r.2.m_capacity ∧
      r.2.InsertsInOrder 0 ∧ r.2.ReadsRight 0 (.element 1 id))) (by decide +kernel)
  obtain ⟨hcap, hsize, hslots, hin, hread⟩ := of_decide_eq_true hfront
  have hbuilt : Built Allocator.large ElementType.owning s₀ := .inl ⟨2, by decide, h₀⟩
  refine ⟨s₀, outs, s, hrun,
    (inserted_iff (x := .value 4) rfl hbuilt hrun (Nat.zero_le _) hcap trivial
      (Argument.index_value 4)).1.mpr ⟨hslots, hin, reads_right_value s 0 4⟩,
    (inserted_iff (x := .element 1 id) rfl hbuilt hrun (Nat.zero_le _) hcap trivial
      fun j hj => ?_).1.mpr ⟨hslots, hin, hread⟩⟩
  cases hj
  exact hsize

/-- Inserting in the middle of a full buffer of three leaves no object at the front. -/
theorem inserted_without_front : ¬ ∀ (A : Allocator) (E : ElementType Nat)
    (s₀ s : RingBuffer Nat) (ops : List (Op Nat)) (outs : List (Output Nat)) (p v : Nat),
    E.trivially_destructible = false → Built A E s₀ →
    Machine.Run (step A E) (fun _ op => op.PushesOrPops) s₀ ops outs s → p ≤ s.size →
    p < s.capacity → Inserted E s p v (s.insert_internal E p (s.reference v)) := by
  intro hclaim
  obtain ⟨s₀, outs, s, h₀, hrun, hbad⟩ := Machine.exists_run
    (step Allocator.large ElementType.owning) (fun _ op => op.PushesOrPops)
    (with_capacity Allocator.large ElementType.owning 3)
    [.push_back 1, .push_back 2, .push_back 3]
    (fun r =>
      let s' := r.2.insert_internal ElementType.owning 1 (r.2.reference (.value 4))
      decide (1 ≤ r.2.size ∧ 1 < r.2.capacity ∧ 0 < s'.size) &&
        !s'.m_buffer.holds (s'.get_adjusted_internal_index 0)) (by decide +kernel)
  simp only [Bool.and_eq_true, decide_eq_true_eq, Bool.not_eq_true'] at hbad
  obtain ⟨⟨hp, hcap, hsize⟩, hnone⟩ := hbad
  obtain ⟨b, v, -, -, hafter, -⟩ :=
    hclaim _ _ _ _ _ _ 1 4 rfl (.inl ⟨3, by decide, h₀⟩) hrun hp hcap
  have hlt : 0 < (b.insertAt 1 v).items.length := hafter.size_eq ▸ hsize
  obtain ⟨id, hcell⟩ := hafter.holds 0 _ (List.getElem?_eq_getElem hlt)
  rw [Arena.holds, hcell] at hnone
  cases hnone

end RingBuffer

end Hyperion
