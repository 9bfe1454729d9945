/-
What the operations do to the flags.

`Tracked n p` says of a storage of `n` slots that the flags are `p`, that the slots
which hold an object are those with their flag set, and that nothing was ever misused.
Every path that constructs or destroys one object keeps this when it starts from the
right flag: what the source writes as a test of the flag and two branches does to `p`
what the one branch does that is taken.
-/
import Hyperion.RingBuffer.Edits
import Hyperion.RingBuffer.Ends
import Hyperion.Lib.Ledger

namespace Hyperion

variable {α : Type} {E : ElementType α}

/-- The flags are `p`, and so are the slots that hold an object. -/
structure Storage.Tracked (n : Nat) (p : Nat → Bool) (st : Storage α) : Prop where
  kept : st.m_buffer.Kept n p
  flags : st.m_constructed.m_flags = p
  size : st.m_constructed.size = n
  outside : ∀ i, n ≤ i → p i = false

theorem Storage.move_or_copy_value (E : ElementType α) (st : Storage α) {j x : Nat}
    (h : x ≠ j) : (st.move_or_copy E j).2.m_buffer.cell x = st.m_buffer.cell x := by
  unfold Storage.move_or_copy
  split
  · exact Storage.move_cell_ne E st h
  · exact congrFun (Arena.copyFrom_cell _ _) x

namespace Storage.Tracked

variable {n i j : Nat} {p : Nat → Bool} {st : Storage α}

theorem inside (h : Tracked n p st) : st.Inside E n := ⟨h.kept.bounds, fun _ => h.size⟩

theorem congr (h : Tracked n p st) {p' : Nat → Bool} (hp : p = p') : Tracked n p' st := hp ▸ h

/-! ### Reading and writing a flag -/

theorem is_constructed_eq (h : Tracked n p st) (hE : E.trivially_destructible = false)
    (hi : i < n) : st.is_constructed E i = (p i, st) := by
  rw [is_constructed, hE, if_neg Bool.false_ne_true, Arena.touch_of_lt (h.size ▸ hi), h.flags]

theorem outside_update (h : Tracked n p st) (hi : i < n) (b : Bool) :
    ∀ k, n ≤ k → Function.update p i b k = false := by
  intro k hk
  rw [Function.update_of_ne (by omega)]
  exact h.outside k hk

/-- A flag that is set when its slot is as the flag will say. -/
theorem set_constructed (h : Tracked n p st) {a : Arena α} {b : Bool}
    (ha : a.Kept n (Function.update p i b)) (hE : E.trivially_destructible = false) (hi : i < n) :
    Tracked n (Function.update p i b) (Storage.set_constructed E ⟨a, st.m_constructed⟩ i b) := by
  rw [Storage.set_constructed, hE, if_neg Bool.false_ne_true, Arena.touch_of_lt (h.size ▸ hi)]
  exact ⟨ha, congrArg (fun f => Function.update f i b) h.flags, h.size, h.outside_update hi b⟩

/-! ### One object -/

theorem construct (h : Tracked n p st) (hE : E.trivially_destructible = false) (hi : i < n)
    (hp : p i = false) (v : Option α) :
    Tracked n (Function.update p i true) ((st.construct i v).set_constructed E i true) :=
  h.set_constructed (h.kept.construct hi hp v) hE hi

theorem destroy (h : Tracked n p st) (hE : E.trivially_destructible = false) (hi : i < n)
    (hp : p i = true) :
    Tracked n (Function.update p i false) ((st.destroy i).set_constructed E i false) :=
  h.set_constructed (h.kept.destroy hi hp) hE hi

theorem destroy_if_needed (h : Tracked n p st) (hE : E.trivially_destructible = false)
    (hi : i < n) (hp : p i = true) :
    Tracked n (Function.update p i false) (st.destroy_if_needed E i) := by
  rw [Storage.destroy_if_needed, hE, if_neg Bool.false_ne_true]
  exact h.destroy hE hi hp

theorem assign (h : Tracked n p st) (hi : i < n) (hp : p i = true) (v : Option α) :
    Tracked n p (st.assign i v) :=
  ⟨h.kept.assign hi hp v, h.flags, h.size, h.outside⟩

theorem move (h : Tracked n p st) (hi : i < n) (hp : p i = true) :
    Tracked n p (st.move E i).2 :=
  ⟨h.kept.moveFrom hi hp _, h.flags, h.size, h.outside⟩

theorem move_or_copy (h : Tracked n p st) (hi : i < n) (hp : p i = true) :
    Tracked n p (st.move_or_copy E i).2 := by
  unfold Storage.move_or_copy
  by_cases hmove : E.noexcept_move_assignable = true
  · rw [if_pos hmove]
    exact h.move hi hp
  · rw [if_neg hmove]
    exact ⟨h.kept.copyFrom hi hp, h.flags, h.size, h.outside⟩

/-! ### Using an argument -/

/-- An argument that leads to an object leaves all objects where they are. -/
theorem use_kept (h : st.m_buffer.Kept n p) {arg : RingBuffer.Argument α}
    (harg : ∀ k ∈ arg.index, k < n ∧ p k = true) : (arg.use E st).m_buffer.Kept n p := by
  cases arg with
  | value v => exact h
  | element k make => exact h.copyFrom (harg k rfl).1 (harg k rfl).2
  | rvalue k => exact h.moveFrom (harg k rfl).1 (harg k rfl).2 _

/-- A slot that holds an object is one. -/
theorem lt_of_live (h : Tracked n p st) (hp : p i = true) : i < n := by
  by_contra hout
  rw [h.outside i (Nat.not_lt.mp hout)] at hp
  cases hp

theorem use (h : Tracked n p st) {arg : RingBuffer.Argument α}
    (harg : ∀ k ∈ arg.index, p k = true) : Tracked n p (arg.use E st) := by
  have hflags : (arg.use E st).m_constructed = st.m_constructed := arg.use_constructed E st
  refine ⟨use_kept h.kept fun k hk => ⟨h.lt_of_live (harg k hk), harg k hk⟩, ?_, ?_, h.outside⟩
  · rw [hflags, h.flags]
  · rw [hflags, h.size]

/-! ### Behind a test of the flag -/

/-- An argument that leads elsewhere outlives an object that is destroyed. -/
theorem use_destroyed (h : Tracked n p st) (hi : i < n) (hp : p i = true)
    {arg : RingBuffer.Argument α} (harg : ∀ k ∈ arg.index, k ≠ i ∧ p k = true) :
    (arg.use E (st.destroy i)).m_buffer.Kept n (Function.update p i false) := by
  have hkept : (st.destroy i).m_buffer.Kept n (Function.update p i false) := h.kept.destroy hi hp
  refine use_kept hkept fun k hk => ?_
  obtain ⟨hne, hlive⟩ := harg k hk
  rw [Function.update_of_ne hne]
  exact ⟨h.lt_of_live hlive, hlive⟩

/-- Destroyed and constructed again. -/
theorem reconstruct (h : Tracked n p st) (hi : i < n) (hp : p i = true)
    {arg : RingBuffer.Argument α} (harg : ∀ k ∈ arg.index, k ≠ i ∧ p k = true) (v : Option α) :
    ((arg.use E (st.destroy i)).construct i v).m_buffer.Kept n (Function.update p i true) := by
  have hconstructed := (h.use_destroyed (E := E) hi hp harg).construct hi
    (Function.update_self ..) v
  rwa [Function.update_idem] at hconstructed

/-- Whatever was in the spacer, afterwards it holds the new element. -/
theorem construct_back {s : RingBuffer α} (h : s.toStorage.Tracked n p)
    (hE : E.trivially_destructible = false) (hi : s.m_write_index < n)
    {args : RingBuffer.Argument α} (hargs : ∀ k ∈ args.index, k ≠ s.m_write_index ∧ p k = true) :
    Tracked n (Function.update p s.m_write_index true) (s.construct_back E args) := by
  unfold RingBuffer.construct_back
  rw [h.is_constructed_eq hE hi]
  by_cases hp : p s.m_write_index = true
  · simp only [hp, if_pos]
    have hkept := h.reconstruct (E := E) hi hp hargs
      (args.read (s.destroy s.m_write_index).m_buffer.read)
    have hset := h.set_constructed hkept hE hi
    have hflags : s.m_constructed = (args.use E (s.destroy s.m_write_index)).m_constructed :=
      (RingBuffer.Argument.use_constructed E (s.destroy s.m_write_index) args).symm
    rw [hflags] at hset
    exact hset
  · rw [Bool.not_eq_true] at hp
    simp only [hp, Bool.false_eq_true, if_false]
    exact (h.use fun k hk => (hargs k hk).2).construct hE hi hp _

theorem fill_gap (h : Tracked n p st) (hE : E.trivially_destructible = false) (hi : i < n)
    {elem : RingBuffer.Argument α} (helem : ∀ k ∈ elem.index, p k = true) :
    Tracked n (Function.update p i true) (RingBuffer.fill_gap E i elem st) := by
  unfold RingBuffer.fill_gap
  rw [h.is_constructed_eq hE hi]
  by_cases hp : p i = true
  · simp only [hp, if_pos]
    rw [← hp, Function.update_eq_self]
    exact (h.assign hi hp _).use helem
  · rw [Bool.not_eq_true] at hp
    simp only [hp, Bool.false_eq_true, if_false]
    exact (h.use helem).construct hE hi hp _

theorem emplace_gap (h : Tracked n p st) (hE : E.trivially_destructible = false) (hi : i < n)
    {args : RingBuffer.Argument α} (hargs : ∀ k ∈ args.index, k ≠ i ∧ p k = true) :
    Tracked n (Function.update p i true) (RingBuffer.emplace_gap E i args st) := by
  unfold RingBuffer.emplace_gap
  rw [h.is_constructed_eq hE hi]
  by_cases hp : p i = true
  · simp only [hp, if_pos]
    refine ⟨h.reconstruct hi hp hargs _, ?_, ?_, h.outside_update hi true⟩
    · show (args.use E (st.destroy i)).m_constructed.m_flags = _
      rw [RingBuffer.Argument.use_constructed, ← hp, Function.update_eq_self]
      exact h.flags
    · show (args.use E (st.destroy i)).m_constructed.size = n
      rw [RingBuffer.Argument.use_constructed]
      exact h.size
  · rw [Bool.not_eq_true] at hp
    simp only [hp, Bool.false_eq_true, if_false]
    have hset := Arena.touch_of_lt (a := st.m_buffer) (h.size ▸ hi : i < st.m_constructed.size)
    have hkept : (st.set_constructed E i true).m_buffer.Kept n p := by
      rw [Storage.set_constructed, hE, if_neg Bool.false_ne_true, hset]
      exact h.kept
    have hused : (args.use E (st.set_constructed E i true)).m_buffer.Kept n p :=
      use_kept hkept fun k hk => ⟨h.lt_of_live (hargs k hk).2, (hargs k hk).2⟩
    have hflags : (args.use E (st.set_constructed E i true)).m_constructed
        = { st.m_constructed with m_flags := Function.update st.m_constructed.m_flags i true } := by
      rw [RingBuffer.Argument.use_constructed, Storage.set_constructed, hE,
        if_neg Bool.false_ne_true]
    exact ⟨hused.construct hi hp _, (congrArg ConstructedChecker.m_flags hflags).trans (by
      rw [h.flags]), (congrArg ConstructedChecker.size hflags).trans h.size,
      h.outside_update hi true⟩

/-- What a round of the shifting loops does to the flags. -/
def shift_flags (p : Nat → Bool) (i j : Nat) : Nat → Bool :=
  if p j then Function.update (Function.update p i true) j false else p

theorem shift_flags_destination (hp : p j = true) (hij : i ≠ j) : shift_flags p i j i = true := by
  rw [shift_flags, if_pos hp, Function.update_of_ne hij, Function.update_self]

/-- Only the source can lose its object. -/
theorem shift_flags_other {x : Nat} (hp : p x = true) (hx : x ≠ j) :
    shift_flags p i j x = true := by
  unfold shift_flags
  by_cases hj : p j = true
  · rw [if_pos hj, Function.update_of_ne hx, Function.update_apply, hp, ite_self]
  · rw [if_neg hj]
    exact hp

/-- Only the destination can gain one. -/
theorem shift_flags_none {x : Nat} (hp : p x = false) (hx : x ≠ i) :
    shift_flags p i j x = false := by
  unfold shift_flags
  by_cases hj : p j = true
  · rw [if_pos hj, Function.update_apply, Function.update_of_ne hx, hp, ite_self]
  · rw [if_neg hj]
    exact hp

/-- **A round of the shifting loops moves an object, and its flag with it.** -/
theorem shift_slot (h : Tracked n p st) (hE : E.trivially_destructible = false) (hi : i < n)
    (hj : j < n) (hij : i ≠ j) : Tracked n (shift_flags p i j) (st.shift_slot E i j) := by
  unfold Storage.shift_slot shift_flags
  rw [h.is_constructed_eq hE hi]
  simp only [h.is_constructed_eq hE hj]
  by_cases hsource : p j = true
  · have hmoved := h.move_or_copy (E := E) hj hsource
    simp only [hsource, if_pos]
    by_cases hp : p i = true
    · simp only [hp, Bool.not_true, Bool.false_eq_true, if_false]
      have hassigned := hmoved.assign hi hp (st.move_or_copy E j).1
      rw [← hp, Function.update_eq_self]
      exact hassigned.destroy_if_needed hE hj hsource
    · rw [Bool.not_eq_true] at hp
      simp only [hp, Bool.not_false, if_pos]
      have hnew := hmoved.construct hE hi hp (st.move_or_copy E j).1
      refine hnew.destroy_if_needed hE hj ?_
      rw [Function.update_of_ne (Ne.symm hij)]
      exact hsource
  · rw [Bool.not_eq_true] at hsource
    simp only [hsource, Bool.false_eq_true, if_false, ite_self]
    exact h

/-- The value in `source` goes to `destination`, and the other slots keep theirs. -/
theorem shift_slot_value (h : Tracked n p st) (hE : E.trivially_destructible = false)
    (hi : i < n) (hj : j < n) (hp : p j = true) {x : Nat} (hx : x ≠ j) :
    ((st.shift_slot E i j).m_buffer.cell x).value
      = if x = i then (st.m_buffer.cell j).value else (st.m_buffer.cell x).value := by
  have hread : (st.move_or_copy E j).1 = (st.m_buffer.cell j).value := by
    unfold Storage.move_or_copy Storage.move
    split <;> exact h.kept.bounds.read hj
  unfold Storage.shift_slot
  rw [h.is_constructed_eq hE hi]
  simp only [h.is_constructed_eq hE hj, hp, if_pos]
  by_cases hp' : p i = true
  · simp only [hp', Bool.not_true, Bool.false_eq_true, if_false]
    rw [Storage.destroy_if_needed_cell_ne _ _ hx, Storage.assign, Arena.assign_cell,
      Function.update_apply, hread]
    split
    · rfl
    · rw [Storage.move_or_copy_value E st hx]
  · rw [Bool.not_eq_true] at hp'
    simp only [hp', Bool.not_false, if_pos]
    obtain ⟨id, hid⟩ := Storage.construct_cell (st.move_or_copy E j).2 i (st.move_or_copy E j).1
    rw [Storage.destroy_if_needed_cell_ne _ _ hx, Storage.set_constructed_cell, hid,
      Function.update_apply, hread]
    split
    · rfl
    · rw [Storage.move_or_copy_value E st hx]

/-- The source of a shift is left without an object. -/
theorem shift_flags_source (hp : p j = true) : shift_flags p i j j = false := by
  rw [shift_flags, if_pos hp, Function.update_self]

end Storage.Tracked

namespace RingBuffer

variable {s : RingBuffer α} {p : Nat → Bool}

/-! ### The loops -/

/--
After `k` rounds of moving the elements from position `l` on down to position `f` there is one
at every position up to the last destination, those from `f` on with the value from `l - f`
positions behind, and at every one from the next source on, as it was.
-/
structure ShiftedDown (s : RingBuffer α) (f l k : Nat) (p : Nat → Bool) (st : Storage α) :
    Prop where
  tracked : st.Tracked s.m_capacity p
  live_before : ∀ j, j < f + k → p (s.get_adjusted_internal_index j) = true
  live_after : ∀ j, l + k ≤ j → j < s.size → p (s.get_adjusted_internal_index j) = true
  value_before : ∀ j, j < f + k →
    (st.m_buffer.cell (s.get_adjusted_internal_index j)).value
      = (s.m_buffer.cell
          (s.get_adjusted_internal_index (if j < f then j else j + (l - f)))).value
  value_after : ∀ j, l + k ≤ j → j < s.size →
    (st.m_buffer.cell (s.get_adjusted_internal_index j)).value
      = (s.m_buffer.cell (s.get_adjusted_internal_index j)).value

/-- **One round.** -/
theorem ShiftedDown.round (h : Shape s) (hE : E.trivially_destructible = false) {f l k : Nat}
    {st : Storage α} (hst : s.ShiftedDown f l k p st) (hfl : f < l) (hk : l + k < s.size) :
    ∃ p', s.ShiftedDown f l (k + 1) p' (st.shift_slot E (s.get_adjusted_internal_index (f + k))
      (s.get_adjusted_internal_index (l + k))) := by
  have hsize := h.size_lt
  have hsource := hst.live_after (l + k) (Nat.le_refl _) hk
  have hne : ∀ j, j < s.m_capacity → j ≠ l + k →
      s.get_adjusted_internal_index j ≠ s.get_adjusted_internal_index (l + k) :=
    fun j hj hjk => h.internal_ne hj (by omega) hjk
  have hdest := hne (f + k) (by omega) (by omega)
  have hshift := fun j hj hjk => hst.tracked.shift_slot_value hE (h.internal_lt (f + k))
    (h.internal_lt _) hsource (hne j hj hjk)
  refine ⟨_, hst.tracked.shift_slot hE (h.internal_lt _) (h.internal_lt _) hdest,
    fun j hj => ?_, fun j hj hjs => ?_, fun j hj => ?_, fun j hj hjs => ?_⟩
  · by_cases hlast : j = f + k
    · rw [hlast]
      exact Storage.Tracked.shift_flags_destination hsource hdest
    · exact Storage.Tracked.shift_flags_other (hst.live_before j (by omega))
        (hne j (by omega) (by omega))
  · exact Storage.Tracked.shift_flags_other (hst.live_after j (by omega) hjs)
      (hne j (by omega) (by omega))
  · rw [hshift j (by omega) (by omega)]
    by_cases hlast : j = f + k
    · rw [if_pos (by rw [hlast]), hst.value_after _ (Nat.le_refl _) hk, if_neg (by omega), hlast]
      congr 3
      omega
    · rw [if_neg (h.internal_ne (by omega) (by omega) hlast)]
      exact hst.value_before j (by omega)
  · rw [hshift j (by omega) (by omega),
      if_neg (h.internal_ne (by omega) (by omega) (by omega))]
    exact hst.value_after j (by omega) hjs

/-- **All rounds.** -/
theorem Shape.shifted_down (h : Shape s) (ht : s.toStorage.Tracked s.m_capacity p)
    (hE : E.trivially_destructible = false)
    (hlive : ∀ j, j < s.size → p (s.get_adjusted_internal_index j) = true) {f l n : Nat}
    (hfl : f < l) (hn : l + n ≤ s.size) :
    ∃ p', s.ShiftedDown f l n p' (s.shift_down E f l n) := by
  refine loop_induction (fun k st => ∃ p', s.ShiftedDown f l k p' st) ?_ ?_
  · refine ⟨p, ht, fun j hj => hlive j (by omega), fun j _ hj => hlive j hj, fun j hj => ?_,
      fun _ _ _ => rfl⟩
    rw [if_pos (show j < f from hj)]
  · rintro k st hk ⟨p', hst⟩
    exact hst.round h hE hfl (by omega)

/--
After `k` rounds of moving elements up by `d` there is an element at every position up to the
next source, as it was, and at every one from the last destination on, with the value from
`d` positions before.  A position that was a source and no destination holds none, and one
that was neither holds what it did.
-/
structure ShiftedUp (s : RingBuffer α) (d k : Nat) (p : Nat → Bool) (st : Storage α) : Prop where
  tracked : st.Tracked s.m_capacity p
  live_before : ∀ j, j + d + k ≤ s.size → p (s.get_adjusted_internal_index j) = true
  live_after : ∀ j, s.size < j + k → j ≤ s.size → p (s.get_adjusted_internal_index j) = true
  value_before : ∀ j, j + d + k ≤ s.size →
    (st.m_buffer.cell (s.get_adjusted_internal_index j)).value
      = (s.m_buffer.cell (s.get_adjusted_internal_index j)).value
  value_after : ∀ j, s.size < j + k → j ≤ s.size →
    (st.m_buffer.cell (s.get_adjusted_internal_index j)).value
      = (s.m_buffer.cell (s.get_adjusted_internal_index (j - d))).value
  live_kept : ∀ j, s.size < j + d → j + k ≤ s.size → j < s.size →
    p (s.get_adjusted_internal_index j) = true
  value_kept : ∀ j, s.size < j + d → j + k ≤ s.size → j < s.size →
    (st.m_buffer.cell (s.get_adjusted_internal_index j)).value
      = (s.m_buffer.cell (s.get_adjusted_internal_index j)).value
  vacated : ∀ j, s.size < j + d + k → j + d ≤ s.size → j + k ≤ s.size →
    p (s.get_adjusted_internal_index j) = false

/-- **One round.** -/
theorem ShiftedUp.round (h : Shape s) (hE : E.trivially_destructible = false) {d k : Nat}
    {st : Storage α} (hst : s.ShiftedUp d k p st) (hd : 1 ≤ d) (hk : d + k ≤ s.size) :
    ∃ p', s.ShiftedUp d (k + 1) p' (st.shift_slot E (s.get_adjusted_internal_index (s.size - k))
      (s.get_adjusted_internal_index (s.size - d - k))) := by
  have hsize := h.size_lt
  have hsource := hst.live_before (s.size - d - k) (by omega)
  have hne : ∀ j, j < s.m_capacity → j ≠ s.size - d - k →
      s.get_adjusted_internal_index j ≠ s.get_adjusted_internal_index (s.size - d - k) :=
    fun j hj hjk => h.internal_ne hj (by omega) hjk
  have hdest := hne (s.size - k) (by omega) (by omega)
  have hshift := fun j hj hjk => hst.tracked.shift_slot_value hE (h.internal_lt (s.size - k))
    (h.internal_lt _) hsource (hne j hj hjk)
  refine ⟨_, hst.tracked.shift_slot hE (h.internal_lt _) (h.internal_lt _) hdest,
    fun j hj => ?_, fun j hj hjs => ?_, fun j hj => ?_, fun j hj hjs => ?_,
    fun j hj hjk hjs => ?_, fun j hj hjk hjs => ?_, fun j hj hjs hjk => ?_⟩
  · exact Storage.Tracked.shift_flags_other (hst.live_before j (by omega))
      (hne j (by omega) (by omega))
  · by_cases hlast : j = s.size - k
    · rw [hlast]
      exact Storage.Tracked.shift_flags_destination hsource hdest
    · exact Storage.Tracked.shift_flags_other (hst.live_after j (by omega) hjs)
        (hne j (by omega) (by omega))
  · rw [hshift j (by omega) (by omega),
      if_neg (h.internal_ne (by omega) (by omega) (by omega))]
    exact hst.value_before j (by omega)
  · rw [hshift j (by omega) (by omega)]
    by_cases hlast : j = s.size - k
    · rw [if_pos (by rw [hlast]), hst.value_before _ (by omega), hlast]
      congr 3
      omega
    · rw [if_neg (h.internal_ne (by omega) (by omega) hlast)]
      exact hst.value_after j (by omega) hjs
  · exact Storage.Tracked.shift_flags_other (hst.live_kept j hj (by omega) hjs)
      (hne j (by omega) (by omega))
  · rw [hshift j (by omega) (by omega),
      if_neg (h.internal_ne (by omega) (by omega) (by omega))]
    exact hst.value_kept j hj (by omega) hjs
  · by_cases hlast : j = s.size - d - k
    · rw [hlast]
      exact Storage.Tracked.shift_flags_source hsource
    · exact Storage.Tracked.shift_flags_none (hst.vacated j (by omega) hjs (by omega))
        (h.internal_ne (by omega) (by omega) (by omega))

/-- **All rounds.** -/
theorem Shape.shifted_up (h : Shape s) (ht : s.toStorage.Tracked s.m_capacity p)
    (hE : E.trivially_destructible = false)
    (hlive : ∀ j, j < s.size → p (s.get_adjusted_internal_index j) = true) {d n : Nat}
    (hd : 1 ≤ d) (hn : d + n ≤ s.size + 1) : ∃ p', s.ShiftedUp d n p' (s.shift_up E d n) := by
  refine loop_induction (fun k st => ∃ p', s.ShiftedUp d k p' st) ?_ ?_
  · exact ⟨p, ht, fun j hj => hlive j (by omega), fun j hj hjs => absurd hjs (by omega),
      fun _ _ => rfl, fun j hj hjs => absurd hjs (by omega), fun j _ _ hjs => hlive j hjs,
      fun _ _ _ _ => rfl, fun j hj hjs => absurd hjs (by omega)⟩
  · rintro k st hk ⟨p', hst⟩
    exact hst.round h hE hd (by omega)

namespace ShiftedUp

variable {d q j : Nat} {st : Storage α}

/-- When all have moved up that are at `q` or behind it, the vacated positions hold no object. -/
theorem live_iff (h : s.ShiftedUp d (s.size + 1 - (q + d)) p st)
    (hq : q + d ≤ s.size + 1) (hj : j < s.size) :
    p (s.get_adjusted_internal_index j) = true ↔ ¬(q ≤ j ∧ j < q + d ∧ j + d ≤ s.size) := by
  by_cases hvacated : q ≤ j ∧ j < q + d ∧ j + d ≤ s.size
  · rw [h.vacated j (by omega) (by omega) (by omega)]
    exact iff_of_false Bool.false_ne_true fun hnot => hnot hvacated
  · refine iff_of_true ?_ hvacated
    by_cases hmoved : s.size < j + (s.size + 1 - (q + d))
    · exact h.live_after j hmoved (Nat.le_of_lt hj)
    · by_cases hkept : s.size < j + d
      · exact h.live_kept j hkept (Nat.le_of_not_lt hmoved) hj
      · exact h.live_before j (by omega)

/-- The other positions hold what they did, or what was `d` positions before. -/
theorem value_eq (h : s.ShiftedUp d (s.size + 1 - (q + d)) p st)
    (hq : q + d ≤ s.size + 1) (hj : j < s.size)
    (hlive : ¬(q ≤ j ∧ j < q + d ∧ j + d ≤ s.size)) :
    (st.m_buffer.cell (s.get_adjusted_internal_index j)).value = (s.m_buffer.cell
      (s.get_adjusted_internal_index (if q + d ≤ j then j - d else j))).value := by
  by_cases hmoved : q + d ≤ j
  · rw [if_pos hmoved]
    exact h.value_after j (by omega) (Nat.le_of_lt hj)
  · rw [if_neg hmoved]
    by_cases hkept : s.size < j + d
    · exact h.value_kept j hkept (by omega) hj
    · exact h.value_before j (by omega)

end ShiftedUp

end RingBuffer

end Hyperion
