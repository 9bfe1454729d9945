/-
All the calls together.

What single calls do to the buffer is known, each with the condition under which it does to
it what it does to a list.  Here a program makes any of them in any order.  As long as every
call meets its condition, the buffer stays one that contains a list and owns its objects,
which is all that the next call relies on, so the program cannot tell the buffer from the
list: neither by what the calls return nor by what it asks in between.

The conditions are on the state before the call.  `push_back`, `emplace_back`, the pops,
`erase` and iterating have none.  `emplace` is not among the calls: what it constructs
before the end of the buffer is constructed over the element that is there, and what it
constructs at the end does not become part of the contents.  What is inserted is a value or a
reference to an element, but not an element that the caller gives away.
-/
import Hyperion.RingBuffer.Erasure
import Hyperion.RingBuffer.Iterators

namespace Hyperion.RingBuffer

variable {α : Type} {A : Allocator} {E : ElementType α} {s : RingBuffer α} {b : BoundedList α}

/-- Insert what an argument gives; what leads to no element gives nothing. -/
def insert_given (b : BoundedList α) (p : Nat) : Option α → BoundedList α
  | some v => if p < b.items.length then b.insertAt p v else b.push v
  | none => b

/-- What a call does to the list, and what it returns. -/
def list_call (b : BoundedList α) : Op α → Output α × BoundedList α
  | .push_back v => (.done, b.push v)
  | .emplace_back v => (.element (some v), b.push v)
  | .pop_front => (.popped (b.popFront.1.map some), b.popFront.2)
  | .pop_back => (.popped (b.popBack.1.map some), b.popBack.2)
  | .clear => (.done, b.clear)
  | .insert p x => (.done, insert_given b p (x.given b.items))
  | .insert_emplace p x => (.element (x.given b.items), insert_given b p (x.given b.items))
  | .erase p => (.position p, b.eraseRange p (p + 1))
  | .erase_range f l => (.position (min f l), b.eraseRange f l)
  | .at' i | .subscript i => (.element b.items[i]?, b)
  | .front => (.element b.items.head?, b)
  | .back => (.element b.items.getLast?, b)
  | .iterate => (.elements (b.items.map some), b)
  | .emplace _ _ | .reserve _ => (.done, b)

/-- The buffer does in this call what the list does. -/
def LikeList (s : RingBuffer α) : Op α → Prop
  | .clear => s.m_start_index = 0 ∨ s.size = 0
  | .emplace _ _ => False
  | .insert p x => x.Copies ∧ (p < s.size → s.InsertsInOrder p ∧ s.ReadsRight p x)
  | .insert_emplace p x => x.Copies ∧ (p < s.size →
      s.InsertsInOrder p ∧ s.ReadsRight p x ∧ ∀ j ∈ x.index, j + 1 ≠ p + s.stride)
  | .erase_range f l => l ≤ f ∨
      (s.get_adjusted_internal_index l ≤ s.m_write_index ∧ l - f ≤ s.m_write_index)
  | .reserve k => k ≤ s.m_capacity
  | .at' i | .subscript i => i < s.size
  | .front | .back => 0 < s.size
  | .push_back _ | .emplace_back _ | .pop_front | .pop_back | .erase _ | .iterate => True

instance [DecidableEq α] (s : RingBuffer α) : (op : Op α) → Decidable (s.LikeList op)
  | .clear => inferInstanceAs (Decidable (_ ∨ _))
  | .emplace _ _ => inferInstanceAs (Decidable False)
  | .insert p x => inferInstanceAs
      (Decidable (x.Copies ∧ (p < s.size → s.InsertsInOrder p ∧ s.ReadsRight p x)))
  | .insert_emplace p x => inferInstanceAs (Decidable (x.Copies ∧ (p < s.size →
      s.InsertsInOrder p ∧ s.ReadsRight p x ∧ ∀ j ∈ x.index, j + 1 ≠ p + s.stride)))
  | .erase_range _ _ => inferInstanceAs (Decidable (_ ∨ _ ∧ _))
  | .reserve _ => inferInstanceAs (Decidable (_ ≤ _))
  | .at' _ | .subscript _ | .front | .back => inferInstanceAs (Decidable (_ < _))
  | .push_back _ | .emplace_back _ | .pop_front | .pop_back | .erase _ | .iterate => isTrue trivial

/-- Then it keeps its objects in order. -/
theorem LikeList.keeps {op : Op α} (hrange : s.InRange op) (h : s.LikeList op) :
    s.KeepsObjects op := by
  cases op with
  | clear => exact h
  | emplace p v => exact h.elim
  | insert p x =>
      refine ⟨fun hfull hp => (h.2 hp).1.opens_gap hfull hp, fun j hj => ?_⟩
      rcases Nat.lt_or_eq_of_le hrange.1 with hp | rfl
      · exact (h.2 hp).2.1 j hj
      · exact (reads_right_end hrange.2).1 j hj
  | insert_emplace p x =>
      refine ⟨fun hfull hp => (h.2 hp).1.opens_gap hfull hp, fun j hj => ?_⟩
      have hlt := hrange.2 j hj
      have hstride := s.stride_pos
      rcases Nat.lt_or_eq_of_le hrange.1 with hp | rfl
      · exact ⟨(h.2 hp).2.1.1 j hj, (h.2 hp).2.2 j hj⟩
      · exact ⟨(reads_right_end hrange.2).1 j hj, by omega⟩
  | erase_range f l =>
      rcases h with hle | ⟨hbehind, hfar⟩
      · exact .inl hle
      · refine .inr (.inl ⟨hbehind, ?_⟩)
        rintro ⟨hf, hl, hwrite, -⟩
        omega
  | reserve k => exact h
  | push_back | emplace_back | pop_front | pop_back | erase | at' | subscript | front | back
  | iterate => trivial

/-! ### Call by call -/

namespace Contains

/-- `insert` before the end. -/
theorem insert (h : Contains E s b) (ho : Owned s) (hE : E.trivially_destructible = false)
    {p : Nat} (hp : p < s.size) {x : Argument α} (hcopies : x.Copies)
    (hx : ∀ j ∈ x.index, j < s.size) (hin : s.InsertsInOrder p) (hread : s.ReadsRight p x)
    {v : α} (hv : x.given b.items = some v) :
    Contains E (s.insert_internal E p (s.reference x)) (b.insertAt p v) := by
  have hsize := h.size_lt
  have hcap : p < s.capacity := by
    rw [h.capacity_eq]
    omega
  exact ((insert_iff h ho hE (Nat.le_of_lt hp) hcap hcopies hx hv).mpr ⟨hin, hread⟩).1

/-- `insert_emplace` before the end returns the new element. -/
theorem insert_emplace (h : Contains E s b) (ho : Owned s)
    (hE : E.trivially_destructible = false) {p : Nat} (hp : p < s.size) {x : Argument α}
    (hcopies : x.Copies) (hx : ∀ j ∈ x.index, j < s.size) (hin : s.InsertsInOrder p)
    (hread : s.ReadsRight p x) (hgap : ∀ j ∈ x.index, j + 1 ≠ p + s.stride) {v : α}
    (hv : x.given b.items = some v) :
    (s.insert_emplace_internal E p (s.reference x)).1 = some v ∧
      Contains E (s.insert_emplace_internal E p (s.reference x)).2 (b.insertAt p v) := by
  have hF := fills_emplace_gap (α := α) hE
  have hlen := h.size_eq
  have hbound := h.bound_eq
  have hsize := h.size_lt
  obtain ⟨hafter, -⟩ := (filled_argument_iff h ho hE hF hp hcopies hx hv).mpr
    ⟨hin, hread, (gap_free_iff h ho hE hp hx).mpr hgap⟩
  obtain ⟨hindex, hplace⟩ := filled_gap h ho hE hF hp hafter
  have hlt : (s.open_gap E p).1 < s.m_capacity := hindex ▸ h.internal_lt _
  rw [← filled_capacity E (emplace_gap E) s p (s.reference x)] at hlt
  obtain ⟨id, hcell⟩ := hafter.holds p v (by
    rw [BoundedList.getElem?_insertAt (by omega) (by omega), if_neg (by omega), if_pos rfl])
  rw [hplace] at hcell
  have heq : s.insert_emplace_internal E p (s.reference x)
      = (filled E (emplace_gap E) s p (s.reference x)).slot (s.open_gap E p).1 :=
    h.toSound.insert_emplace_internal_eq hp _
  rw [heq, hafter.slot_eq hlt, hcell]
  exact ⟨rfl, hafter⟩

/-- Iterating reads the elements in order. -/
theorem iterate (h : Contains E s b) : s.iterate.1 = b.items.map some := by
  have hsize := h.size_lt
  obtain ⟨hword, hcap⟩ := size_word (.inl h.toShape)
  have hread : s.iterate.1 = (List.range' 0 s.size).map fun i => (s.at' i).1 := by
    unfold RingBuffer.iterate
    simp only [h.toSound.begin'_eq, h.toSound.end'_eq]
    exact SameView.traverse rfl hcap hword s.size _ _ s (.refl s) (Nat.le_of_lt hsize)
      (Nat.zero_add _) fun _ => h.internal_zero.symm
  rw [hread, ← List.range_eq_range']
  refine List.ext_getElem? fun i => ?_
  rw [List.getElem?_map, List.getElem?_map]
  rcases Nat.lt_or_ge i s.size with hi | hi
  · have hlt : i < b.items.length := h.size_eq ▸ hi
    rw [List.getElem?_range hi, List.getElem?_eq_getElem hlt]
    exact congrArg some ((h.agrees.at' i hi).trans (List.getElem?_eq_getElem hlt))
  · rw [List.getElem?_eq_none (by rw [List.length_range]; exact hi),
      List.getElem?_eq_none (by rw [← h.size_eq]; exact hi)]
    rfl

/-- Naming the slot of a position leaves the buffer as it is. -/
theorem named (h : Contains E s b) (i : Nat) :
    Contains E (s.slot (s.get_adjusted_internal_index i)).2 b := by
  rw [h.slot_eq (h.internal_lt i)]
  exact h

/-- Erasing nothing leaves the list. -/
theorem eraseRange_nothing {f l : Nat} (h : l ≤ f ∨ b.items.length ≤ f) :
    b.eraseRange f l = b := by
  refine BoundedList.eq_of_items ?_ rfl
  show b.items.take f ++ b.items.drop (max f l) = b.items
  rcases h with hle | hend
  · rw [Nat.max_eq_left hle, List.take_append_drop]
  · rw [List.take_of_length_le hend,
      List.drop_eq_nil_of_le (Nat.le_trans hend (Nat.le_max_left f l)), List.append_nil]

/-- **One call does to the buffer what it does to the list.** -/
theorem call {s' : RingBuffer α} {op : Op α} {o : Output α} (h : Contains E s b) (ho : Owned s)
    (hE : E.trivially_destructible = false) (hrange : s.InRange op) (hlike : s.LikeList op)
    (hstep : s.step A E op = some (o, s')) :
    o = (list_call b op).1 ∧ Contains E s' (list_call b op).2 := by
  have hlen := h.size_eq
  have hquery : s.empty = false ↔ 0 < s.size := by
    rw [← Bool.not_eq_true, h.empty_iff, Nat.pos_iff_ne_zero]
  cases op with
  | push_back v =>
      cases hstep
      exact ⟨rfl, h.push_back v⟩
  | emplace_back v =>
      cases hstep
      obtain ⟨hvalue, hpush⟩ := h.emplace_back v
      exact ⟨congrArg Output.element hvalue, hpush⟩
  | pop_front =>
      cases hstep
      obtain ⟨hvalue, hpop⟩ := h.pop_front
      exact ⟨congrArg Output.popped hvalue, hpop⟩
  | pop_back =>
      cases hstep
      obtain ⟨hvalue, hpop⟩ := h.pop_back
      exact ⟨congrArg Output.popped hvalue, hpop⟩
  | clear =>
      cases hstep
      exact ⟨rfl, h.clear⟩
  | emplace p v => exact hlike.elim
  | insert p x =>
      have hresult : some (Output.done, s.insert_internal E p (s.reference x)) = some (o, s') :=
        hstep
      cases hresult
      obtain ⟨v, hv⟩ := h.given hrange.2
      refine ⟨rfl, ?_⟩
      rw [list_call, hv]
      rcases Nat.lt_or_eq_of_le hrange.1 with hp | rfl
      · rw [insert_given, if_pos (hlen ▸ hp)]
        exact h.insert ho hE hp hlike.1 hrange.2 (hlike.2 hp).1 (hlike.2 hp).2 hv
      · rw [insert_given, if_neg (by omega), insert_end h ho hE hlike.1 hrange.2 hv]
        exact h.push_back v
  | insert_emplace p x =>
      have hresult : some (Output.element (s.insert_emplace_internal E p (s.reference x)).1,
        (s.insert_emplace_internal E p (s.reference x)).2) = some (o, s') := hstep
      cases hresult
      obtain ⟨v, hv⟩ := h.given hrange.2
      rw [list_call, hv]
      rcases Nat.lt_or_eq_of_le hrange.1 with hp | rfl
      · obtain ⟨hin, hread, hgap⟩ := hlike.2 hp
        obtain ⟨hvalue, hafter⟩ :=
          h.insert_emplace ho hE hp hlike.1 hrange.2 hin hread hgap hv
        rw [insert_given, if_pos (hlen ▸ hp)]
        exact ⟨congrArg Output.element hvalue, hafter⟩
      · obtain ⟨hvalue, hafter⟩ := h.emplace_back v
        rw [insert_given, if_neg (by omega), insert_emplace_end h ho hE hlike.1 hrange.2 hv]
        exact ⟨congrArg Output.element hvalue, hafter⟩
  | erase p =>
      have hresult : some (Output.position (s.erase_internal E p).1.m_current_index,
        (s.erase_internal E p).2) = some (o, s') := hstep
      cases hresult
      rcases Nat.lt_or_eq_of_le hrange with hp | rfl
      · have he := h.erase ho hE hp
        exact ⟨congrArg Output.position he.index, he.contains⟩
      · rw [h.toSound.erase_internal_end, list_call,
          eraseRange_nothing (.inr (Nat.le_of_eq hlen.symm))]
        exact ⟨rfl, h⟩
  | erase_range f l =>
      have hresult : some
        (Output.position (s.erase_range E (s.iterator f) (s.iterator l)).1.m_current_index,
          (s.erase_range E (s.iterator f) (s.iterator l)).2) = some (o, s') := hstep
      cases hresult
      rcases Nat.lt_or_ge f l with hfl | hle
      · obtain ⟨hbehind, hfar⟩ := hlike.resolve_left (by omega)
        have he := h.erase_range ho hE hfl hrange.2 hbehind hfar
        rw [list_call, Nat.min_eq_left (Nat.le_of_lt hfl)]
        exact ⟨congrArg Output.position he.index, he.contains⟩
      · rw [list_call, Nat.min_eq_right hle, Sound.erase_range_none hle,
          eraseRange_nothing (.inl hle)]
        exact ⟨rfl, h⟩
  | reserve k =>
      obtain ⟨t, ht, hpair⟩ := Option.map_eq_some_iff.mp hstep
      cases hpair
      rw [RingBuffer.reserve, if_neg (Nat.not_lt.mpr hlike), Option.some.injEq] at ht
      exact ⟨rfl, ht ▸ h⟩
  | at' i | subscript i =>
      cases hstep
      exact ⟨congrArg Output.element (h.agrees.at' i hlike), h.named i⟩
  | front =>
      cases hstep
      refine ⟨congrArg Output.element (h.agrees.front (hquery.mpr hlike)), ?_⟩
      have hname := h.named 0
      rw [h.internal_zero] at hname
      exact hname
  | back =>
      cases hstep
      exact ⟨congrArg Output.element (h.agrees.back (hquery.mpr hlike)), h.named _⟩
  | iterate =>
      cases hstep
      exact ⟨congrArg Output.elements h.iterate, h.toSound.iterate_eq.symm ▸ h⟩

end Contains

/-! ### Programs -/

/-- Constructed with a capacity, and empty, or with values. -/
def ConstructedAs (A : Allocator) (E : ElementType α) (s : RingBuffer α) (b : BoundedList α) :
    Prop :=
  (∃ n, n + 1 < 2 ^ 64 ∧ with_capacity A E n = some s ∧ b = .empty n) ∨
    ∃ values : List α, values.length + 1 < 2 ^ 64 ∧ of_values A E values = some s ∧
      b = .ofList values

theorem ConstructedAs.constructed (h : ConstructedAs A E s b) : Constructed A E s := by
  rcases h with ⟨n, hn, h, -⟩ | ⟨values, hn, h, -⟩
  · exact .inl ⟨n, hn, h⟩
  · exact .inr ⟨values, hn, h⟩

theorem ConstructedAs.contains (h : ConstructedAs A E s b) : Contains E s b := by
  rcases h with ⟨n, hn, h, rfl⟩ | ⟨values, hn, h, rfl⟩
  · exact contains_with_capacity hn h
  · exact contains_of_values hn h

/--
**A program in which every call meets its condition cannot tell the buffer from the list.**
Its calls return what they return on the list, the queries are answered as by the list
afterwards, and no object was used that is not there.
-/
theorem like_a_list {s₀ : RingBuffer α} {b₀ : BoundedList α} {ops : List (Op α)}
    {outs : List (Output α)} (hE : E.trivially_destructible = false)
    (h₀ : ConstructedAs A E s₀ b₀)
    (hrun : Machine.Run (step A E) (fun s op => s.InRange op ∧ s.LikeList op) s₀ ops outs s) :
    outs = (Machine.trace list_call b₀ ops).1 ∧
      Agrees s (Machine.trace list_call b₀ ops).2 ∧ FlagsRight s := by
  have hkeep : ∀ (s : RingBuffer α) (b : BoundedList α) (op : Op α) (o : Output α)
      (s' : RingBuffer α), Contains E s b ∧ Owned s → s.InRange op ∧ s.LikeList op →
      s.step A E op = some (o, s') →
      o = (list_call b op).1 ∧ Contains E s' (list_call b op).2 ∧ Owned s' := by
    rintro s b op o s' ⟨hb, ho⟩ ⟨hrange, hlike⟩ hstep
    obtain ⟨hvalue, hafter⟩ := hb.call ho hE hrange hlike hstep
    exact ⟨hvalue, hafter, ho.step hE hrange (hlike.keeps hrange) hstep⟩
  obtain ⟨houts, hb, ho⟩ := hrun.refines hkeep ⟨h₀.contains, owned_constructed hE h₀.constructed⟩
  exact ⟨houts, hb.agrees, fun i => (ho.tracked.kept.holds i).symm, ho.tracked.kept.misuse⟩

/-- All over a buffer of three, which wraps around and is full when the front is inserted. -/
theorem like_a_list_three : ∃ s₀ outs s,
    Machine.Run (step Allocator.large ElementType.owning)
      (fun s op => s.InRange op ∧ s.LikeList op) s₀
      [.push_back 1, .push_back 2, .insert 1 (.element 0 Nat.succ), .pop_front,
        .insert_emplace 0 (.value 4), .erase 1, .push_back 5, .insert 0 (.value 6),
        .erase_range 1 2, .iterate] outs s ∧
    outs.getLast? = some (.elements [some 6, some 2]) ∧ FlagsRight s := by
  obtain ⟨s₀, outs, s, h₀, hrun, -⟩ := Machine.exists_run
    (step Allocator.large ElementType.owning) (fun s op => s.InRange op ∧ s.LikeList op)
    (with_capacity Allocator.large ElementType.owning 3)
    [.push_back 1, .push_back 2, .insert 1 (.element 0 Nat.succ), .pop_front,
      .insert_emplace 0 (.value 4), .erase 1, .push_back 5, .insert 0 (.value 6),
      .erase_range 1 2, .iterate] (fun _ => true) (by decide +kernel)
  obtain ⟨houts, -, hflags⟩ := like_a_list rfl (.inl ⟨3, by decide, h₀, rfl⟩) hrun
  refine ⟨s₀, outs, s, hrun, ?_, hflags⟩
  rw [houts]
  decide

end Hyperion.RingBuffer
