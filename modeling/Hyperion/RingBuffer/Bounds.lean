/-
Every access stays inside the slot array and the flag array.

`Sound` adds to the shape of the indices that both arrays have one entry for each
place and that no access so far was past the end.  All slot indices are remainders
modulo the internal capacity, or one of the two stored indices, so the operations
keep it, whatever the flags say.  Two paths of the code do not:

  * inserting into a full buffer increments the internal index of the gap without
    wrapping it, so an element inserted at the last slot is written one past it;
  * `reserve` gives the new buffer one flag less than it has slots.

`StaysInside` is the condition that a step takes neither.
-/
import Hyperion.RingBuffer.Fitted

namespace Hyperion

variable {α : Type} {E : ElementType α}

/-- Both arrays have `n` entries, and no access was past the end of either. -/
structure Storage.Inside (E : ElementType α) (n : Nat) (st : Storage α) : Prop where
  buffer : st.m_buffer.InBounds n
  flags : E.trivially_destructible = false → st.m_constructed.size = n

/-- There is a flag for each slot. -/
theorem Storage.inside_iff {n : Nat} {st : Storage α} : st.Inside E n ↔ st.Fits E n n :=
  ⟨fun h => ⟨h.buffer, h.flags⟩, fun h => ⟨h.buffer, h.flags⟩⟩

namespace Storage.Inside

variable {n i : Nat} {st : Storage α}

theorem set_constructed (h : Inside E n st) (hi : i < n) (b : Bool) :
    Inside E n (st.set_constructed E i b) :=
  inside_iff.mpr ((inside_iff.mp h).set_constructed (.of_lt hi) b)

theorem construct (h : Inside E n st) (hi : i < n) (v : Option α) :
    Inside E n (st.construct i v) := ⟨h.buffer.construct hi v, h.flags⟩

theorem fill_gap (h : Inside E n st) (hi : i < n) {elem : RingBuffer.Argument α}
    (helem : ∀ k ∈ elem.index, k < n) : Inside E n (RingBuffer.fill_gap E i elem st) :=
  inside_iff.mpr ((inside_iff.mp h).fill_gap (.of_lt hi) helem)

theorem emplace_gap (h : Inside E n st) (hi : i < n) {args : RingBuffer.Argument α}
    (hargs : ∀ k ∈ args.index, k < n) : Inside E n (RingBuffer.emplace_gap E i args st) :=
  inside_iff.mpr ((inside_iff.mp h).emplace_gap (.of_lt hi) hargs)

end Storage.Inside

namespace RingBuffer

/-- The indices are places, and no access left the two arrays. -/
structure Sound (E : ElementType α) (s : RingBuffer α) : Prop extends Shape s where
  inside : s.toStorage.Inside E s.m_capacity

/-- A buffer with a flag for each slot is sound. -/
theorem Fitted.sound {n : Nat} {s : RingBuffer α} (h : Fitted E n n s) : Sound E s :=
  ⟨h.toShape, Storage.inside_iff.mpr (h.slots.symm ▸ h.fits)⟩

namespace Sound

variable {s : RingBuffer α}

theorem fitted (h : Sound E s) : Fitted E s.m_capacity s.m_capacity s :=
  ⟨h.toShape, rfl, Storage.inside_iff.mp h.inside, fun _ => Nat.le_succ _, fun _ _ => Nat.le_refl _⟩

theorem place_write (h : Sound E s) : Storage.Place E s.m_capacity s.m_capacity s.m_write_index :=
  .of_lt h.write_lt

/-- New storage for the same indices. -/
theorem with_storage (h : Sound E s) {st : Storage α} (hst : st.Inside E s.m_capacity) :
    Sound E { s with toStorage := st } := ⟨h.toShape.with_storage st, hst⟩

theorem increment_indices (h : Sound E s) : Sound E s.increment_indices :=
  (h.fitted.increment_indices h.place_write).sound

theorem decrement_write (h : Sound E s) (hpos : 0 < s.size) : Sound E s.decrement_write :=
  (h.fitted.decrement_write hpos).sound

theorem decrement_write_n (h : Sound E s) {n : Nat} (hn : n ≤ s.size) :
    Sound E (s.decrement_write_n n) := (h.fitted.decrement_write_n hn).sound

theorem retract_write (h : Sound E s) {n : Nat} (hn : n ≤ s.size) :
    Sound E (s.retract_write n) := (h.fitted.retract_write hn).sound

/-- Naming a slot of the buffer reads it and changes nothing. -/
theorem slot_eq (h : Sound E s) {i : Nat} (hi : i < s.m_capacity) :
    s.slot i = ((s.m_buffer.cell i).value, s) := h.fitted.slot_eq hi

theorem begin'_eq (h : Sound E s) : s.begin' = (⟨s.m_start_index, 0⟩, s) := h.fitted.begin'_eq

theorem end'_eq (h : Sound E s) : s.end' = (⟨s.m_write_index, s.size⟩, s) := h.fitted.end'_eq

/-! ### The operations -/

theorem construct_back (h : Sound E s) {args : Argument α}
    (hargs : ∀ k ∈ args.index, k < s.m_capacity) :
    (s.construct_back E args).Inside E s.m_capacity :=
  Storage.inside_iff.mpr (h.fitted.construct_back h.place_write hargs)

theorem push_back_of (h : Sound E s) {args : Argument α}
    (hargs : ∀ k ∈ args.index, k < s.m_capacity) : Sound E (s.push_back E args) :=
  (h.fitted.push_back h.place_write hargs).sound

theorem push_back (h : Sound E s) (v : α) : Sound E (s.push_back E v) :=
  h.push_back_of (Argument.index_value v)

theorem pop_back (h : Sound E s) : Sound E (s.pop_back E).2 := h.fitted.pop_back.sound

theorem pop_front (h : Sound E s) : Sound E (s.pop_front E).2 := h.fitted.pop_front.sound

theorem clear (h : Sound E s) : Sound E (s.clear E) := h.fitted.clear.sound

theorem close_gap (h : Sound E s) {k p q : Nat} (hpq : p ≤ q) (hk : q + k ≤ s.size) :
    (s.close_gap E k p q).Inside E s.m_capacity :=
  Storage.inside_iff.mpr (h.fitted.close_gap hpq hk)

/-- Going over the buffer changes nothing. -/
theorem iterate_eq (h : Sound E s) : s.iterate.2 = s := h.fitted.iterate_eq

end Sound

/-! ### Construction -/

theorem allocate_unique_some {A : Allocator} {n : Nat} {a : Arena α}
    (h : allocate_unique A n = some a) : n ≤ A.max_size ∧ a = Arena.fresh n := by
  unfold allocate_unique at h
  split at h
  · rename_i hle
    exact ⟨hle, (Option.some.inj h).symm⟩
  · simp at h

/-- A buffer constructed with a capacity, part by part. -/
theorem with_capacity_some {A : Allocator} {n : Nat} {s : RingBuffer α} (hn : n + 1 < 2 ^ 64)
    (h : with_capacity A E n = some s) :
    n + 1 ≤ A.max_size ∧ s.m_buffer = Arena.fresh (n + 1) ∧
    (E.trivially_destructible = false → s.m_constructed.size = n + 1) ∧
    s.m_constructed.m_flags = (fun _ => false) ∧
    s.m_write_index = 0 ∧ s.m_start_index = 0 ∧ s.m_capacity = n + 1 := by
  have hadd : usize.add n 1 = n + 1 := usize.add_eq hn
  simp only [with_capacity, hadd, Option.bind_eq_bind, Option.bind_eq_some_iff,
    Option.some.injEq] at h
  obtain ⟨a, ha, c, hc, rfl⟩ := h
  obtain ⟨hle, hfresh⟩ := allocate_unique_some ha
  refine ⟨hle, hfresh, ?_, ?_, rfl, rfl, rfl⟩
  · intro hE
    exact checker_size hc hE
  · simp only [ConstructedChecker.new] at hc
    split at hc
    · rw [← Option.some.inj hc]
    · split at hc
      · rw [← Option.some.inj hc]
      · simp at hc

theorem sound_with_capacity {A : Allocator} {n : Nat} {s : RingBuffer α} (hn : n + 1 < 2 ^ 64)
    (h : with_capacity A E n = some s) : Sound E s := by
  have hmax := A.max_size_lt
  obtain ⟨hle, hbuf, hflags, -, hw, hs, hcap⟩ := with_capacity_some hn h
  refine ⟨⟨by omega, by omega, by omega⟩, ⟨⟨?_, ?_⟩, ?_⟩⟩
  · rw [hbuf, hcap]; rfl
  · rw [hbuf]; rfl
  · intro hE; rw [hflags hE, hcap]

/-- A buffer constructed from values, part by part. -/
theorem of_values_some {A : Allocator} {values : List α} {s : RingBuffer α}
    (hn : values.length + 1 < 2 ^ 64) (h : of_values A E values = some s) :
    ∃ c, ConstructedChecker.new A E (values.length + 1) = some c ∧
      s.toStorage = loop (fun index (st : Storage α) =>
        (st.construct index values[index]?).set_constructed E index true) values.length
          ⟨Arena.fresh (values.length + 1), c⟩ ∧
      Shape s ∧ s.m_start_index = 0 ∧ s.m_capacity = values.length + 1 ∧
      s.size = values.length := by
  have hadd : usize.add values.length 1 = values.length + 1 := usize.add_eq hn
  have hmax := A.max_size_lt
  simp only [of_values, hadd, Option.bind_eq_bind, Option.bind_eq_some_iff,
    Option.some.injEq] at h
  obtain ⟨a, ha, c, hc, rfl⟩ := h
  obtain ⟨hle, rfl⟩ := allocate_unique_some ha
  have hshape : ∀ st : Storage α, Shape ⟨st, values.length, 0, values.length + 1⟩ := fun st =>
    ⟨show values.length + 1 ≤ 2 ^ 63 by omega, Nat.succ_pos _, Nat.lt_succ_self _⟩
  refine ⟨c, hc, rfl, hshape _, rfl, rfl, ?_⟩
  rw [(hshape _).size_eq]
  exact if_pos (Nat.zero_le _)

/-! ### Runs -/

/-- The step takes neither of the paths that leave one of the arrays. -/
def StaysInside (E : ElementType α) (s : RingBuffer α) : Op α → Prop
  | .insert p _ | .insert_emplace p _ =>
      ¬(s.full ∧ p < s.size ∧ s.get_adjusted_internal_index p + 1 = s.m_capacity)
  | .reserve k => k ≤ s.m_capacity ∨ (E.trivially_destructible ∧ k + 1 < 2 ^ 64)
  | _ => True

instance (s : RingBuffer α) : (op : Op α) → Decidable (s.StaysInside E op)
  | .insert _ _ | .insert_emplace _ _ => inferInstanceAs (Decidable (¬_))
  | .reserve _ => inferInstanceAs (Decidable (_ ∨ _))
  | .push_back _ | .emplace_back _ | .pop_front | .pop_back | .clear | .emplace _ _ | .erase _
  | .erase_range _ _ | .at' _ | .subscript _ | .front | .back | .iterate => isTrue trivial

/-- With a flag for each slot, these are the only paths. -/
theorem Sound.within_arrays {s : RingBuffer α} {op : Op α} (h : Sound E s)
    (hin : s.StaysInside E op) : s.WithinArrays E op := by
  have hflag : ∀ {i}, i < s.m_capacity → s.Flagged E i := fun hi hE => h.inside.flags hE ▸ hi
  cases op with
  | push_back v | emplace_back v => exact hflag h.write_lt
  | emplace p v => exact hflag (h.internal_lt p)
  | insert p x | insert_emplace p x => exact ⟨hflag h.write_lt, hin⟩
  | reserve k => exact hin.imp_right And.right
  | _ => trivial

/-- **One step stays inside the arrays.** -/
theorem Sound.step {A : Allocator} {s s' : RingBuffer α} {op : Op α} {o : Output α}
    (h : Sound E s) (hrange : s.InRange op) (hin : s.StaysInside E op)
    (hstep : s.step A E op = some (o, s')) : Sound E s' := by
  rcases h.fitted.step hrange (h.within_arrays hin) hstep with hsame | ⟨k, rfl, hgrow, hnew⟩
  · exact hsame.sound
  · obtain ⟨hE, -⟩ := hin.resolve_left (Nat.not_le.mpr hgrow)
    exact ⟨hnew.toShape, ⟨hnew.slots.symm ▸ hnew.fits.buffer,
      fun hfalse => by rw [hE] at hfalse; cases hfalse⟩⟩

/--
**No access leaves the slot array or the flag array**, in any run that inserts into
no full buffer at the last slot and grows no buffer that keeps flags.
-/
theorem accesses_in_bounds {A : Allocator} {n : Nat} {s₀ s : RingBuffer α} {ops : List (Op α)}
    {outs : List (Output α)} (hn : n + 1 < 2 ^ 64) (h₀ : with_capacity A E n = some s₀)
    (hrun : Machine.Run (step A E) (fun s op => s.InRange op ∧ s.StaysInside E op)
      s₀ ops outs s) :
    s.m_buffer.oob = [] ∧ s.m_buffer.slots = s.capacity + 1 ∧
    (E.trivially_destructible = false → s.m_constructed.size = s.capacity + 1) := by
  have hsound : Sound E s := by
    refine hrun.invariant (P := Sound E) ?_ (sound_with_capacity hn h₀)
    intro s op o s' h hguard hstep
    exact h.step hguard.1 hguard.2 hstep
  have hcap : s.capacity + 1 = s.m_capacity := by
    have hpos := hsound.cap_pos
    rw [hsound.capacity_eq]
    omega
  rw [hcap]
  exact ⟨hsound.inside.buffer.oob, hsound.inside.buffer.slots, hsound.inside.flags⟩

/-- Wrapping around a buffer of two, inserting before the front, and reading it. -/
theorem accesses_in_bounds_wrapped : ∃ s₀ outs s,
    Machine.Run (step Allocator.large ElementType.owning)
      (fun s op => s.InRange op ∧ s.StaysInside ElementType.owning op) s₀
      [.push_back 1, .push_back 2, .pop_front, .insert 0 (.value 3), .iterate] outs s ∧
    s.m_buffer.oob = [] := by
  obtain ⟨s₀, outs, s, h₀, hrun, -⟩ := Machine.exists_run
    (step Allocator.large ElementType.owning)
    (fun s op => s.InRange op ∧ s.StaysInside ElementType.owning op)
    (with_capacity Allocator.large ElementType.owning 2)
    [.push_back 1, .push_back 2, .pop_front, .insert 0 (.value 3), .iterate] (fun _ => true)
    (by decide +kernel)
  exact ⟨s₀, outs, s, hrun, (accesses_in_bounds (by decide) h₀ hrun).1⟩

/-- Inserting before the last element of a full buffer of one constructs past the end. -/
theorem insert_past_the_end : ¬ ∀ (A : Allocator) (E : ElementType Nat) (n : Nat)
    (s₀ s : RingBuffer Nat) (ops : List (Op Nat)) (outs : List (Output Nat)),
    with_capacity A E n = some s₀ → Machine.Run (step A E) InRange s₀ ops outs s →
    s.m_buffer.oob = [] := by
  intro hclaim
  obtain ⟨s₀, outs, s, h₀, hrun, hbad⟩ := Machine.exists_run
    (step Allocator.large ElementType.owning) InRange
    (with_capacity Allocator.large ElementType.owning 1)
    [.push_back 1, .push_back 2, .insert 0 (.value 3)] (fun r => r.2.m_buffer.oob.contains (2, 2))
    (by decide +kernel)
  rw [hclaim _ _ _ _ _ _ _ h₀ hrun] at hbad
  simp at hbad

end RingBuffer

end Hyperion
