/-
Who is let into the queue.

A push is admitted by incrementing `m_size` and looking at what it was, and takes the
increment back when that was too much.  Until it does, `m_size` is more than what the
queue holds.  This costs nothing as long as the sum stays below 2^32, where it would
start from zero again and let pushes into a full queue.  But it shows in `size`, and a
push may be refused for no other reason than that another one just was.
-/
import Hyperion.LockFreeQueue.Concurrent

namespace Hyperion.LockFreeQueue.System

variable {ι α : Type} [Fintype ι] {T : QueueElement α}

/-- Elements that were popped had been admitted. -/
theorem returned_le {s : System ι α} (hcounted : Counted s) (hfed : Fed s) :
    s.returned.length ≤ s.admissions := by
  have hadmitted := hcounted.admitted
  have hclaimed := hcounted.claimed
  unfold Fed at hfed
  omega

/-- In `m_size` is what the queue holds and what the refused pushes added. -/
theorem size_mod {s : System ι α} (hcounted : Counted s) (hfed : Fed s) : s.queue.m_size
    = (s.held + Threads.count Producer.backing_out s.producer) % 2 ^ 32 := by
  have hsize := hcounted.size
  have hlt := hcounted.size_lt
  have hle := returned_le hcounted hfed
  unfold held
  omega

/-- The counts are right, and no more elements are admitted than there are slots. -/
structure Bounded (s : System ι α) : Prop where
  counted : Counted s
  fed : Fed s
  within : s.admissions ≤ s.returned.length + s.queue.m_capacity

/-- The counters in their order, and nobody about to claim a slot that is still in use. -/
structure InOrder (s : System ι α) : Prop where
  read_le : s.queue.m_read ≤ s.queue.m_max_read
  max_read_le : s.queue.m_max_read ≤ s.queue.m_write
  span : s.queue.m_write - s.queue.m_read ≤ s.queue.m_capacity
  free : ∀ i v, s.producer i = .admitted v → ∀ p, p < s.queue.m_write →
    p % s.queue.m_capacity = s.queue.m_write % s.queue.m_capacity →
      p + s.consumer.reading < s.queue.m_read

/-- Two positions of one slot are a capacity apart. -/
theorem add_le_of_mod_eq {p k c : Nat} (hlt : p < k) (h : p % c = k % c) : p + c ≤ k := by
  obtain ⟨d, hd⟩ : c ∣ k - p := (Nat.modEq_iff_dvd' (Nat.le_of_lt hlt)).mp h
  have hpos : 0 < d := by
    apply Nat.pos_of_ne_zero
    intro hzero
    rw [hzero, Nat.mul_zero] at hd
    omega
  have hle : c ≤ c * d := Nat.le_mul_of_pos_right c hpos
  omega

/-- **What the bound on admissions is for.** -/
theorem Bounded.in_order {s : System ι α} (h : Bounded s) (hfew : s.admissions < 2 ^ 32 - 1) :
    InOrder s := by
  obtain ⟨hcounted, hfed, hwithin⟩ := h
  have hread := hcounted.read
  have hmax := hcounted.max_read
  have hwrite := hcounted.write
  have hadmitted := hcounted.admitted
  have hclaimed := hcounted.claimed
  have hconsumed := hfed.consumed_le
  have hholding := s.consumer.holding_eq
  rw [Nat.mod_eq_of_lt (by omega)] at hread hmax hwrite
  refine ⟨by omega, by omega, ?_, ?_⟩
  · rw [hread, hwrite, consumed]
    omega
  · intro i v hp p hlt hmod
    have hin : 0 < Threads.count Producer.entering s.producer :=
      Threads.count_pos (i := i) (by rw [hp]; rfl)
    have hapart := add_le_of_mod_eq hlt hmod
    unfold consumed at hread
    omega

/-- Before the counters have gone round, a pop finds nothing exactly where there is nothing. -/
theorem Bounded.not_at_wrap {s : System ι α} (h : Bounded s) (hfew : s.admissions < 2 ^ 32 - 1)
    (a : Action ι α) : s.not_at_wrap a := by
  cases a with
  | call i push v => trivial
  | advance i => trivial
  | pop =>
      intro _ hboth
      have hread := h.counted.read
      have hconsumed := h.fed.consumed_le
      have hadmitted := h.counted.admitted
      have hclaimed := h.counted.claimed
      omega

/-- A queue whose `m_size` cannot reach 2^32, or that has a slot for every push there is. -/
def Wide (capacity producers : Nat) : Prop :=
  capacity + producers ≤ 2 ^ 32 ∨ 2 ^ 32 - 2 ≤ capacity

/-- In a wide queue a push that is admitted finds a free slot. -/
theorem Bounded.room {s : System ι α} (h : Bounded s)
    (hwide : Wide s.queue.m_capacity (Fintype.card ι)) {i : ι} {push : Push} {v : α}
    (hfew : s.admissions + 1 < 2 ^ 32 - 1) (hp : s.producer i = .called push v)
    (hsize : s.queue.m_size < s.queue.m_capacity) : s.held < s.queue.m_capacity := by
  have hwithin := h.within
  rcases hwide with hwide | hwide
  · have hothers : Threads.count Producer.backing_out s.producer < Fintype.card ι :=
      Threads.count_lt_card (i := i) (by rw [hp]; rfl)
    have hsum : s.held + Threads.count Producer.backing_out s.producer < 2 ^ 32 := by
      unfold held
      omega
    rw [size_mod h.counted h.fed, Nat.mod_eq_of_lt hsum] at hsize
    omega
  · unfold held
    omega

variable [DecidableEq ι]

/-- **What one step keeps**, when a push it admits finds a slot that is free. -/
theorem Bounded.step {s s' : System ι α} (h : Bounded s) {a : Action ι α} {e : Event α}
    (hordinary : ordinary s a) (hwrap : s.not_at_wrap a)
    (hroom : ∀ i push v, a = .advance i → s.producer i = .called push v →
      s.queue.m_size < s.queue.m_capacity → s'.admissions = s.admissions + 1 →
      s.held < s.queue.m_capacity)
    (hstep : step T s a = some (e, s')) : Bounded s' := by
  refine ⟨h.counted.step hordinary hstep, h.fed.step h.counted hwrap hstep, ?_⟩
  have hwithin := h.within
  rw [step_capacity hstep]
  cases step_cases hstep
  case enter i push v hp hsize =>
    have hheld := hroom i push v rfl hp hsize rfl
    have hle := returned_le h.counted h.fed
    unfold held at hheld
    show s.admissions + 1 ≤ s.returned.length + s.queue.m_capacity
    omega
  case release ret hc =>
    show s.admissions ≤ (s.returned ++ [ret]).length + s.queue.m_capacity
    rw [List.length_append]
    omega
  all_goals exact hwithin

/-- A step of a wide queue. -/
theorem bounded_step {c : Nat} (hwide : Wide c (Fintype.card ι)) {s s' : System ι α}
    (h : Bounded s ∧ s.queue.m_capacity = c) {a : Action ι α} {e : Event α}
    (hordinary : ordinary s a) (hstep : step T s a = some (e, s'))
    (hfew : s'.admissions < 2 ^ 32 - 1) : Bounded s' ∧ s'.queue.m_capacity = c := by
  obtain ⟨hbounded, hcap⟩ := h
  refine ⟨hbounded.step hordinary (hbounded.not_at_wrap ?_ a) ?_ hstep,
    (step_capacity hstep).trans hcap⟩
  · exact Nat.lt_of_le_of_lt (admissions_le hstep) hfew
  · intro i push v _ hp hsize hone
    exact hbounded.room (hcap ▸ hwide) (hone ▸ hfew) hp hsize

/-- **Admissions over a whole run of a wide queue.** -/
theorem bounded_run {c : Nat} (hwide : Wide c (Fintype.card ι)) {as : List (Action ι α)}
    {es : List (Event α)} {s : System ι α}
    (hrun : Machine.Run (step T) ordinary (start T c) as es s)
    (hfew : s.admissions < 2 ^ 32 - 1) : Bounded s ∧ s.queue.m_capacity = c := by
  refine hrun.invariant (P := fun s => s.admissions < 2 ^ 32 - 1 →
    Bounded s ∧ s.queue.m_capacity = c) ?_ ?_ hfew
  · intro s a e s' ih hordinary hstep hfew'
    have h := ih (Nat.lt_of_le_of_lt (admissions_le hstep) hfew')
    exact bounded_step hwide h hordinary hstep hfew'
  · intro _
    exact ⟨⟨counted_start T c, Nat.le_refl 0, Nat.zero_le _⟩, rfl⟩

/-! ### A queue that is not wide -/

omit [Fintype ι] in
/-- A push that nobody gets in the way of. -/
theorem reaches_push {s : System ι α} {i : ι} (v : α) (hidle : s.producer i = .idle)
    (hroom : s.queue.m_size < s.queue.m_capacity) : ∃ s',
    Machine.Reaches (step T) ordinary s s' ∧ s'.producer = s.producer ∧
      s'.queue = s.queue.size_fetch_add.2.push_admitted v ∧ s'.consumer = s.consumer ∧
      s'.admissions = s.admissions + 1 := by
  have hcall : ordinary s (.call i .try_push_back v) := nofun
  have h₀ : Machine.Reaches (step T) ordinary s s := .refl s
  have h₁ := h₀.tail hcall (Access.call hidle).step
  have h₂ := h₁.tail (i := .advance i) trivial (Access.step (.enter (Function.update_self ..) hroom))
  have h₃ := h₂.tail (i := .advance i) trivial (Access.step (.claim (Function.update_self ..)))
  have h₄ := h₃.tail (i := .advance i) trivial (Access.step (.write (Function.update_self ..)))
  have h₅ := h₄.tail (i := .advance i) trivial (Access.step (.publish (Function.update_self ..)))
  refine ⟨_, h₅, ?_, rfl, rfl, rfl⟩
  simp only [moved, Function.update_idem]
  rw [← hidle, Function.update_eq_self]

omit [Fintype ι] in
/-- Pushing into a queue nobody pops from. -/
theorem reaches_filled (T : QueueElement α) (i : ι) {c n : Nat} (hc : c < 2 ^ 32) (hn : n ≤ c) :
    ∃ s : System ι α, Machine.Reaches (step T) ordinary (start T c) s ∧
      (∀ j, s.producer j = .idle) ∧ s.queue.m_capacity = c ∧ s.queue.m_size = n ∧
      s.queue.m_write = n ∧ s.queue.m_read = 0 ∧ s.admissions = n := by
  induction n with
  | zero => exact ⟨start T c, .refl _, fun _ => rfl, rfl, rfl, rfl, rfl, rfl⟩
  | succ n ih =>
      obtain ⟨s, hreach, hidle, hcap, hsize, hwrite, hread, hadm⟩ := ih (by omega)
      obtain ⟨s', hpush, hproducer, hqueue, -, hadmitted⟩ :=
        reaches_push (T := T) T.default (hidle i) (by omega)
      refine ⟨s', hreach.trans hpush, ?_, ?_, ?_, ?_, ?_, ?_⟩
      · rw [hproducer]
        exact hidle
      · rw [hqueue]
        exact hcap
      · rw [hqueue]
        show u32.add s.queue.m_size 1 = n + 1
        rw [hsize, u32.add_eq (by omega)]
      · rw [hqueue]
        show u32.add s.queue.m_write 1 = n + 1
        rw [hwrite, u32.add_eq (by omega)]
      · rw [hqueue]
        exact hread
      · rw [hadmitted, hadm]

omit [Fintype ι] in
/-- A push that is refused, up to where it would take its increment back. -/
theorem reaches_refused {s : System ι α} {i : ι} (v : α) (hidle : s.producer i = .idle)
    (hfull : s.queue.m_capacity ≤ s.queue.m_size) :
    Machine.Reaches (step T) ordinary s (s.moved i (.refused .try_push_back v)
      s.queue.size_fetch_add.2) := by
  have hcall : ordinary s (.call i .try_push_back v) := nofun
  have h₀ : Machine.Reaches (step T) ordinary s s := .refl s
  have h₁ := h₀.tail hcall (Access.call hidle).step
  have h₂ := h₁.tail (i := .advance i) trivial
    (Access.step (.refuse (Function.update_self ..) hfull))
  simp only [moved, Function.update_idem] at h₂
  exact h₂

omit [Fintype ι] in
/-- One producer after the other is refused, and none takes its increment back. -/
theorem reaches_all_refused (T : QueueElement α) (l : List ι) : ∀ {s : System ι α}, l.Nodup →
    (∀ j, j ∈ l → s.producer j = .idle) → s.queue.m_capacity ≤ s.queue.m_size →
    s.queue.m_size + l.length < 2 ^ 32 →
    ∃ s', Machine.Reaches (step T) ordinary s s' ∧
      (∀ j, j ∉ l → s'.producer j = s.producer j) ∧
      s'.queue = { s.queue with m_size := s.queue.m_size + l.length } ∧
      s'.admissions = s.admissions := by
  induction l with
  | nil =>
      intro s _ _ _ _
      exact ⟨s, .refl s, fun _ _ => rfl, rfl, rfl⟩
  | cons i rest ih =>
      intro s hnodup hidle hfull hsum
      obtain ⟨hnot, hnodup⟩ := List.nodup_cons.mp hnodup
      rw [List.length_cons] at hsum
      have hrefused := reaches_refused (T := T) T.default (hidle i List.mem_cons_self) hfull
      have hsize : (s.queue.size_fetch_add.2).m_size = s.queue.m_size + 1 :=
        u32.add_eq (by omega)
      have hother : ∀ j, j ≠ i → (s.moved i (.refused .try_push_back T.default)
          s.queue.size_fetch_add.2).producer j = s.producer j := by
        intro j hj
        exact moved_of_ne hj _ _
      obtain ⟨s', hrest, hproducer, hqueue, hadm⟩ := ih hnodup
        (fun j hj => (hother j (fun heq => hnot (heq ▸ hj))).trans
          (hidle j (List.mem_cons_of_mem i hj)))
        (Nat.le_trans hfull (by show _ ≤ (s.queue.size_fetch_add.2).m_size; omega))
        (by show (s.queue.size_fetch_add.2).m_size + _ < _; omega)
      refine ⟨s', hrefused.trans hrest, ?_, ?_, hadm⟩
      · intro j hj
        rw [hproducer j fun h => hj (List.mem_cons_of_mem i h)]
        exact hother j fun heq => hj (heq ▸ List.mem_cons_self)
      · rw [hqueue, List.length_cons]
        show { s.queue with m_size := (s.queue.size_fetch_add.2).m_size + rest.length } = _
        rw [hsize, Nat.add_assoc, Nat.add_comm 1]

/-- Some threads in a row, and two more. -/
theorem exists_distinct {n : Nat} (h : n + 2 ≤ Fintype.card ι) : ∃ (l : List ι) (i j : ι),
    l.length = n ∧ l.Nodup ∧ i ∉ l ∧ j ∉ l ∧ i ≠ j := by
  obtain ⟨t, -, ht⟩ := Finset.exists_subset_card_eq (s := (Finset.univ : Finset ι)) (n := n)
    (by rw [Finset.card_univ]; omega)
  have hrest : 1 < tᶜ.card := by
    rw [Finset.card_compl, ht]
    omega
  obtain ⟨i, hi, j, hj, hne⟩ := Finset.one_lt_card.mp hrest
  refine ⟨t.toList, i, j, (Finset.length_toList t).trans ht, t.nodup_toList, ?_, ?_, hne⟩
  · exact fun hmem => Finset.mem_compl.mp hi (Finset.mem_toList.mp hmem)
  · exact fun hmem => Finset.mem_compl.mp hj (Finset.mem_toList.mp hmem)

/-- In a queue that is not wide, a push into the full queue gets in. -/
theorem reaches_overrun (T : QueueElement α) {c : Nat} (hpos : 1 ≤ c)
    (hnarrow : ¬ Wide c (Fintype.card ι)) : ∃ s : System ι α,
    Machine.Reaches (step T) ordinary (start T c) s ∧ s.admissions < 2 ^ 32 - 1 ∧
      ¬ InOrder s := by
  obtain ⟨hcard, hcap⟩ := not_or.mp hnarrow
  obtain ⟨l, i, j, hlength, hnodup, hi, hj, hne⟩ :=
    exists_distinct (ι := ι) (n := 2 ^ 32 - 1 - c) (by omega)
  obtain ⟨s₁, hfilled, hidle, hcap₁, hsize₁, hwrite₁, hread₁, hadm₁⟩ :=
    reaches_filled T i (c := c) (n := c) (by omega) (Nat.le_refl c)
  obtain ⟨s₂, hrefused, hproducer₂, hqueue₂, hadm₂⟩ := reaches_all_refused T l hnodup
    (fun k _ => hidle k) (Nat.le_of_eq (hcap₁.trans hsize₁.symm)) (by omega)
  have hsize₂ : s₂.queue.m_size = 2 ^ 32 - 1 := by
    rw [hqueue₂]
    show s₁.queue.m_size + l.length = _
    omega
  have hcap₂ : s₂.queue.m_capacity = c := by rw [hqueue₂]; exact hcap₁
  -- one more refused increment brings `m_size` to zero
  have hlast := reaches_refused (T := T) T.default ((hproducer₂ i hi).trans (hidle i))
    (by omega)
  have hzero : (s₂.queue.size_fetch_add.2).m_size = 0 := by
    show u32.add s₂.queue.m_size 1 = 0
    rw [hsize₂, u32.add, Word.add]
    omega
  have hjdle : (s₂.moved i (.refused .try_push_back T.default)
      s₂.queue.size_fetch_add.2).producer j = .idle := by
    rw [moved_of_ne hne.symm, hproducer₂ j hj, hidle j]
  have hcall : ordinary (s₂.moved i (.refused .try_push_back T.default)
      s₂.queue.size_fetch_add.2) (.call j .try_push_back T.default) := by
    intro hwhen
    cases hwhen
  have hcalled := ((hfilled.trans hrefused).trans hlast).tail hcall (Access.call hjdle).step
  have hadmitted := hcalled.tail (i := .advance j) trivial
    (Access.step (.enter (Function.update_self ..)
      (by show (s₂.queue.size_fetch_add.2).m_size < s₂.queue.m_capacity; omega)))
  refine ⟨_, hadmitted, ?_, ?_⟩
  · show s₂.admissions + 1 < _
    omega
  · intro horder
    have hwrite₂ : s₂.queue.m_write = c := by rw [hqueue₂]; exact hwrite₁
    have hread₂ : s₂.queue.m_read = 0 := by rw [hqueue₂]; exact hread₁
    have hfree := horder.free j T.default (Function.update_self ..) 0
      (by show 0 < s₂.queue.m_write; omega)
      (by
        show 0 % s₂.queue.m_capacity = s₂.queue.m_write % s₂.queue.m_capacity
        rw [hwrite₂, hcap₂, Nat.mod_self, Nat.zero_mod])
    have hnone : 0 + s₂.consumer.reading < s₂.queue.m_read := hfree
    omega

/--
**The counters stay in order, and no slot is claimed that is still in use**, in every
interleaving of any number of producers with the consumer, exactly where the queue is wide.
-/
theorem in_order_iff {c : Nat} (hpos : 1 ≤ c) :
    (∀ (as : List (Action ι α)) (es : List (Event α)) (s : System ι α),
      Machine.Run (step T) ordinary (start T c) as es s → s.admissions < 2 ^ 32 - 1 →
      InOrder s) ↔ Wide c (Fintype.card ι) := by
  constructor
  · intro hall
    by_contra hnarrow
    obtain ⟨s, ⟨as, es, hrun⟩, hfew, hout⟩ := reaches_overrun T hpos hnarrow
    exact hout (hall as es s hrun hfew)
  · intro hwide as es s hrun hfew
    exact (bounded_run hwide hrun hfew).1.in_order hfew

/-- Two producers, and one push. -/
theorem in_order_one : ∃ s : System (Fin 2) Nat, s.admissions = 1 ∧ InOrder s := by
  obtain ⟨s, ⟨as, es, hrun⟩, -, -, -, -, -, hadm⟩ :=
    reaches_filled QueueElement.owning (0 : Fin 2) (c := 1) (n := 1) (by decide) (Nat.le_refl 1)
  have hwide : Wide 1 (Fintype.card (Fin 2)) := Or.inl (by decide)
  refine ⟨s, hadm, (in_order_iff (Nat.le_refl 1)).mpr hwide as es s hrun ?_⟩
  rw [hadm]
  decide

/-- Four producers overrun a full queue of 2^32 - 3 slots. -/
theorem full_queue_overrun : ¬ ∀ (c n : Nat) (as : List (Action (Fin n) Nat))
    (es : List (Event Nat)) (s : System (Fin n) Nat), 1 ≤ c → c < 2 ^ 32 →
    Machine.Run (step QueueElement.owning) ordinary (start QueueElement.owning c) as es s →
    s.admissions < 2 ^ 32 - 1 → InOrder s := by
  intro hclaim
  have hnarrow : ¬ Wide (2 ^ 32 - 3) (Fintype.card (Fin 4)) := by
    unfold Wide
    decide
  obtain ⟨s, ⟨as, es, hrun⟩, hfew, hout⟩ :=
    reaches_overrun QueueElement.owning (c := 2 ^ 32 - 3) (by decide) hnarrow
  exact hout (hclaim (2 ^ 32 - 3) 4 as es s (by decide) (by decide) hrun hfew)

end Hyperion.LockFreeQueue.System
