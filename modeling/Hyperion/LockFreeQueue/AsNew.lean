/-
Queues that are as good as new.

Growing a queue and moving it give it another buffer or other counters.  What is asked of
the queue that comes out is what a new queue does into which the elements were pushed: every
later call returns the same.  The new queue is only a measure, and it is a good one as long as
its own counters do not go round.
-/
import Mathlib.Data.List.Induction
import Hyperion.LockFreeQueue.Sequential

namespace Hyperion.LockFreeQueue

variable {α : Type} {T : QueueElement α} {q p : LockFreeQueue α} {b : BoundedList α} {R : Nat}

/-- A new queue into which the elements of `l` were pushed. -/
def filled (T : QueueElement α) (c : Nat) (l : List α) : LockFreeQueue α :=
  l.foldl (fun q v => (q.try_push_back v).2) (with_capacity T c)

/-- Every later call returns what it returns on a new queue into which `l` was pushed. -/
def AsNew (T : QueueElement α) (q : LockFreeQueue α) (l : List α) : Prop :=
  ∀ ops outs new,
    Machine.Run (step T) NotAcrossWrap (filled T q.m_capacity l) ops outs new →
    ∃ q', Machine.Run (step T) (fun _ _ => True) q ops outs q'

/-! ### Two queues that represent the same list -/

/-- Pushing into a new queue what it has room for. -/
theorem represents_filled {c : Nat} (hc : c < 2 ^ 32) (l : List α) :
    ∀ hfits : l.length ≤ c, Represents (filled T c l) ⟨l, c, hfits⟩ 0 := by
  induction l using List.reverseRecOn with
  | nil => exact fun _ => represents_new hc
  | append_singleton l v ih =>
      intro hfits
      rw [List.length_append, List.length_singleton] at hfits
      have h := ih (Nat.le_of_succ_le hfits)
      have hwrap : NotAcrossWrap (filled T c l) (.try_push_back v) := by
        intro _ hbad
        have hwrite : (filled T c l).m_write = (0 + l.length) % 2 ^ 32 := h.write
        have hsize : (filled T c l).m_size = l.length := h.size
        omega
      have hpush := (h.try_push_back v hwrap).2
      have hfilled : filled T c (l ++ [v]) = ((filled T c l).try_push_back v).2 := by
        rw [filled, List.foldl_append]
        rfl
      have hlist : (BoundedList.tryPush ⟨l, c, Nat.le_of_succ_le hfits⟩ v).2
          = ⟨l ++ [v], c, by rw [List.length_append, List.length_singleton]; exact hfits⟩ :=
        BoundedList.eq_of_items
          (BoundedList.tryPush_of_lt (b := ⟨l, c, Nat.le_of_succ_le hfits⟩) hfits v).2
          (BoundedList.tryPush_bound _ v)
      rw [hfilled, ← hlist]
      exact hpush

/-- The read counter is what counts of the position. -/
theorem Represents.rebase (h : Represents q b R) : Represents q b (R % 2 ^ 32) := by
  have hslot : ∀ j, slot_of b.bound (R % 2 ^ 32 + j) = slot_of b.bound (R + j) := by
    intro j
    rw [slot_of, slot_of, Nat.mod_add_mod]
  refine ⟨h.capacity, h.bound_lt, ?_, ?_, ?_, h.size, h.slots, ?_, ?_⟩
  · rw [Nat.mod_mod]
    exact h.read
  · rw [Nat.mod_add_mod]
    exact h.write
  · rw [Nat.mod_add_mod]
    exact h.max_read
  · intro j v hv
    rw [hslot]
    exact h.held j v hv
  · intro i j hij hj
    rw [hslot, hslot]
    exact h.distinct i j hij hj

/-- Whether the wrap affects a call is decided by the counters. -/
theorem Represents.not_across_wrap_of (h : Represents p b R) (h' : Represents q b R) {op : Op α}
    (hwrap : NotAcrossWrap p op) : NotAcrossWrap q op := by
  have hcapacity : q.m_capacity = p.m_capacity := h'.capacity.trans h.capacity.symm
  have hread : q.m_read = p.m_read := h'.read.trans h.read.symm
  have hwrite : q.m_write = p.m_write := h'.write.trans h.write.symm
  have hmax : q.m_max_read = p.m_max_read := h'.max_read.trans h.max_read.symm
  have hsize : q.m_size = p.m_size := h'.size.trans h.size.symm
  cases op with
  | try_push_back v | try_emplace_back v =>
      show _ < _ → _
      rw [hcapacity, hwrite, hsize]
      exact hwrap
  | pop_front =>
      show _ ∨ _
      rw [hread, hmax]
      exact hwrap
  | empty | full | size => exact trivial

/-- **Two queues that represent the same list from the same position answer alike.** -/
theorem run_alike {ops : List (Op α)} {outs : List (Output α)} {p' : LockFreeQueue α}
    (hrun : Machine.Run (step T) NotAcrossWrap p ops outs p') :
    ∀ {b : BoundedList α} {R : Nat} {q : LockFreeQueue α}, Represents p b R → Represents q b R →
      ∃ q', Machine.Run (step T) NotAcrossWrap q ops outs q' := by
  induction hrun with
  | nil p => exact fun {_ _ q} _ _ => ⟨q, .nil q⟩
  | @cons p mid final op out ops outs hwrap hstep _ ih =>
      intro b R q h h'
      have hwrap' := h.not_across_wrap_of h' hwrap
      obtain ⟨out', q₁, hstep'⟩ : ∃ out' q₁, step T q op = some (out', q₁) := by
        cases op <;> exact ⟨_, _, rfl⟩
      obtain ⟨hout, R₁, hrep, hcount⟩ := h.step hwrap hstep
      obtain ⟨hout', R₂, hrep', hcount'⟩ := h'.step hwrap' hstep'
      have hsame : out' = out := hout'.trans hout.symm
      have hposition : R₂ = R₁ := by
        rw [hsame] at hcount'
        omega
      rw [hposition] at hrep'
      rw [hsame] at hstep'
      obtain ⟨q', hrest⟩ := ih hrep hrep'
      exact ⟨q', .cons hwrap' hstep' hrest⟩

/-- A queue that represents the list with its read counter at zero is as good as new. -/
theorem as_new_of_represents (h : Represents q b R) (hread : q.m_read = 0) :
    AsNew T q b.items := by
  intro ops outs new hrun
  have hstart : R % 2 ^ 32 = 0 := h.read.symm.trans hread
  have hrep := h.rebase
  rw [hstart] at hrep
  have hnew : Represents (filled T q.m_capacity b.items) b 0 := by
    rw [h.capacity]
    exact represents_filled h.bound_lt b.items b.fits
  obtain ⟨q', hrun'⟩ := run_alike hrun hnew hrep
  exact ⟨q', hrun'.any⟩

/-! ### Taking everything out -/

/-- What is returned when the elements of `l` are taken out. -/
def popped_all (l : List α) : List (Output α) := l.map fun v => .popped (some (some v))

theorem step_pop_front {ret : Option (Option α)} (hret : (q.pop_front T).1 = ret) :
    step T q .pop_front = some (.popped ret, (q.pop_front T).2) := by
  rw [← hret]
  rfl

theorem step_try_push_back {v : α} {ok : Bool} (hok : (q.try_push_back v).1 = ok) :
    step T q (.try_push_back v) = some (.pushed ok, (q.try_push_back v).2) := by
  rw [← hok]
  rfl

/-- `pop_front` returns the first of the elements and leaves the others. -/
theorem Represents.pop_front_cons (h : Represents q b R) (hwrap : NotAcrossWrap q .pop_front)
    {v : α} {rest : List α} (hitems : b.items = v :: rest) :
    (q.pop_front T).1 = some (some v) ∧ b.popFront.2.items = rest ∧
      Represents (q.pop_front T).2 b.popFront.2 (R + 1) := by
  obtain ⟨hret, R', hrep, hcount⟩ := h.pop_front (T := T) hwrap
  have htail : b.popFront.2.items = rest := by
    show b.items.tail = rest
    rw [hitems]
    rfl
  refine ⟨?_, htail, ?_⟩
  · rw [hret]
    show b.items.head?.map some = _
    rw [hitems]
    rfl
  · have hposition : R' = R + 1 := by
      rw [htail, hitems, List.length_cons] at hcount
      omega
    exact hposition ▸ hrep

/-- Below the wrap the elements come out in order, and leave an empty queue. -/
theorem drains {l : List α} :
    ∀ {p : LockFreeQueue α} {b : BoundedList α} {R : Nat}, Represents p b R → b.items = l →
      R + l.length < 2 ^ 32 → ∃ p' b',
        Machine.Run (step T) NotAcrossWrap p (List.replicate l.length .pop_front)
          (popped_all l) p' ∧
        Represents p' b' (R + l.length) ∧ b'.items = [] ∧ b'.bound = b.bound := by
  induction l with
  | nil => exact fun {p b _} h hitems _ => ⟨p, b, .nil p, h, hitems, rfl⟩
  | cons v rest ih =>
      intro p b R h hitems hturn
      have hlen : b.items.length = rest.length + 1 := by rw [hitems, List.length_cons]
      rw [List.length_cons] at hturn
      have hwrap : NotAcrossWrap p .pop_front := by
        have hread := h.read
        have hmax := h.max_read
        refine .inl ?_
        omega
      obtain ⟨hhead, htail, hrep⟩ := h.pop_front_cons (T := T) hwrap hitems
      obtain ⟨p', b', hrun, hrep', hempty, hbound⟩ := ih hrep htail (by omega)
      refine ⟨p', b', .cons hwrap (step_pop_front hhead) hrun, ?_, hempty, hbound⟩
      rw [List.length_cons, ← Nat.add_assoc, Nat.add_right_comm]
      exact hrep'

/-- A pop that returned an element saw that there was one, and took it out of the slot of the
read counter. -/
theorem pop_front_some {v : α} (hstep : step T q .pop_front
      = some (.popped (some (some v)), p)) :
    ¬q.nothing_to_read = true ∧ q.m_buffer.read (q.m_read % q.m_capacity) = some v ∧
      p = { q with
        m_buffer := q.m_buffer.moveFrom T.moved (q.m_read % q.m_capacity)
        m_read := u32.add q.m_read 1
        m_size := u32.sub q.m_size 1 } := by
  have hstep' : some (Output.popped (q.pop_front T).1, (q.pop_front T).2)
      = some (.popped (some (some v)), p) := hstep
  unfold LockFreeQueue.pop_front at hstep'
  by_cases hnone : q.nothing_to_read = true
  · rw [if_pos hnone] at hstep'
    cases hstep'
  · rw [if_neg hnone] at hstep'
    simp only [Option.some.injEq, Prod.mk.injEq, Output.popped.injEq] at hstep'
    exact ⟨hnone, hstep'.1, hstep'.2.symm⟩

/-- A push that is admitted counts up what can be read, and not what was read. -/
theorem admitted_counters (v : α) (hroom : q.m_size < q.m_capacity) :
    (q.try_push_back v).2.m_read = q.m_read ∧
      (q.try_push_back v).2.m_max_read = u32.add q.m_max_read 1 := by
  unfold try_push_back increment_size size_fetch_add
  simp only
  rw [if_neg (Nat.not_le.mpr hroom)]
  exact ⟨rfl, rfl⟩

/-- What is left of a queue when as many elements came out of it as it held. -/
structure Emptied (q : LockFreeQueue α) (R : Nat) (l : List α) (q' : LockFreeQueue α) : Prop where
  read : q'.m_read = (R + l.length) % 2 ^ 32
  max_read : q'.m_max_read = q.m_max_read
  size : q'.m_size = 0
  capacity : q'.m_capacity = q.m_capacity

/-- Each pop that returned an element counted the read counter up and the size down. -/
theorem emptied {l : List α} : ∀ {q q' : LockFreeQueue α} {R : Nat},
    Machine.Run (step T) (fun _ _ => True) q (List.replicate l.length .pop_front)
      (popped_all l) q' →
    q.m_read = R % 2 ^ 32 → q.m_size = l.length → l.length < 2 ^ 32 → Emptied q R l q' := by
  induction l with
  | nil =>
      intro q q' R hrun hread hsize _
      cases hrun
      exact ⟨hread, rfl, hsize, rfl⟩
  | cons v rest ih =>
      intro q q' R hrun hread hsize hlt
      rw [List.length_cons] at hsize hlt
      cases hrun with
      | cons _ hstep hrest =>
          obtain ⟨-, -, rfl⟩ := pop_front_some hstep
          have h := ih (R := R + 1) hrest (by
            show u32.add q.m_read 1 = _
            rw [hread, u32.add_mod_left]) (by
            show u32.sub q.m_size 1 = _
            rw [hsize, u32.sub_eq (by omega) hlt, Nat.add_sub_cancel]) (by omega)
          refine ⟨?_, h.max_read, h.size, h.capacity⟩
          rw [h.read, List.length_cons, Nat.add_assoc, Nat.add_comm 1]

/-- The elements that came out were in the slots of their positions, where these differ. -/
theorem popped_in_order {l : List α} : ∀ {q q' : LockFreeQueue α} {R : Nat},
    Machine.Run (step T) (fun _ _ => True) q (List.replicate l.length .pop_front)
      (popped_all l) q' →
    q.m_read = R % 2 ^ 32 →
    (∀ i j, i < j → j < l.length →
      slot_of q.m_capacity (R + i) ≠ slot_of q.m_capacity (R + j)) →
    ∀ j v, l[j]? = some v → q.m_buffer.read (slot_of q.m_capacity (R + j)) = some v := by
  induction l with
  | nil =>
      intro q q' R _ _ _ j v hv
      cases hv
  | cons first rest ih =>
      intro q q' R hrun hread hapart j v hv
      have hslot : q.m_read % q.m_capacity = slot_of q.m_capacity (R + 0) := by
        rw [hread, slot_of, Nat.add_zero]
      cases hrun with
      | cons _ hstep hrest =>
          obtain ⟨-, hfirst, rfl⟩ := pop_front_some hstep
          cases j with
          | zero =>
              rw [← hslot, hfirst, ← hv]
              rfl
          | succ j =>
              have hrest' : rest[j]? = some v := hv
              have hj : j < rest.length := (List.getElem?_eq_some_iff.mp hrest').1
              have hposition : ∀ i, R + 1 + i = R + (i + 1) := fun i => by omega
              have h := ih (R := R + 1) hrest (by
                show u32.add q.m_read 1 = _
                rw [hread, u32.add_mod_left]) (by
                intro i k hik hk
                rw [hposition, hposition]
                exact hapart (i + 1) (k + 1) (by omega) (by rw [List.length_cons]; omega)) j v hrest'
              rw [hposition] at h
              rw [← h]
              show q.m_buffer.read _ = (q.m_buffer.moveFrom T.moved _).read _
              rw [Arena.read, Arena.read, Arena.moveFrom_slots, Arena.moveFrom_cell, hslot,
                Function.update_of_ne
                  (hapart 0 (j + 1) (by omega) (by rw [List.length_cons]; omega)).symm]

/-! ### What the counters of a queue that is as good as new are -/

namespace AsNew

variable {l : List α}

/-- It gives back the elements, and then what the new queue gives that gave them back. -/
theorem after (h : AsNew T q l) (hfits : l.length ≤ q.m_capacity) (hc : q.m_capacity < 2 ^ 32)
    (ops : List (Op α)) (outs : List (Output α))
    (hmore : ∀ p b, Represents p b l.length → b.items = [] → b.bound = q.m_capacity →
      ∃ p', Machine.Run (step T) NotAcrossWrap p ops outs p') :
    ∃ mid q', Machine.Run (step T) (fun _ _ => True) q (List.replicate l.length .pop_front)
        (popped_all l) mid ∧
      Machine.Run (step T) (fun _ _ => True) mid ops outs q' := by
  have hnew := represents_filled (T := T) hc l hfits
  obtain ⟨p, b, hrun, hrep, hempty, hbound⟩ := drains hnew rfl (by
    show 0 + l.length < 2 ^ 32
    omega)
  rw [Nat.zero_add] at hrep
  obtain ⟨p', hrun'⟩ := hmore p b hrep hempty hbound
  obtain ⟨q', hall⟩ := h _ _ _ (hrun.append hrun')
  have hlength : (List.replicate l.length (Op.pop_front : Op α)).length
      = (popped_all l).length := by
    rw [List.length_replicate, popped_all, List.length_map]
  obtain ⟨mid, hfirst, hsecond⟩ := Machine.Run.of_append hlength hall
  exact ⟨mid, q', hfirst, hsecond⟩

/-- The elements are in the slots of their positions, where these differ. -/
theorem in_order (h : AsNew T q l) (hfits : l.length ≤ q.m_capacity) (hc : q.m_capacity < 2 ^ 32)
    (hread : q.m_read = R % 2 ^ 32)
    (hapart : ∀ i j, i < j → j < l.length →
      slot_of q.m_capacity (R + i) ≠ slot_of q.m_capacity (R + j)) {j : Nat} {v : α}
    (hv : l[j]? = some v) : q.m_buffer.read (slot_of q.m_capacity (R + j)) = some v := by
  obtain ⟨mid, -, hpops, -⟩ := h.after hfits hc [] []
    fun p _ _ _ _ => ⟨p, .nil p⟩
  exact popped_in_order hpops hread hapart j v hv

/-- The next pop finds nothing. -/
theorem stops (h : AsNew T q l) (hfits : l.length ≤ q.m_capacity) (hc : q.m_capacity < 2 ^ 32)
    (hread : q.m_read = R % 2 ^ 32) (hsize : q.m_size = l.length)
    (hturn : l.length < 2 ^ 32 - 1) : q.m_max_read < (R + l.length + 1) % 2 ^ 32 := by
  obtain ⟨mid, q', hpops, hpop⟩ := h.after hfits hc [.pop_front] [.popped none] (by
      intro p b hrep hempty _
      have hwrap : NotAcrossWrap p .pop_front := by
        refine hrep.not_across_wrap ?_ _
        rw [hempty]
        exact hturn
      obtain ⟨hret, -⟩ := hrep.pop_front (T := T) hwrap
      rw [BoundedList.popFront_nil hempty] at hret
      exact ⟨_, .single hwrap (step_pop_front hret)⟩)
  have hmid := emptied hpops hread hsize (by omega)
  have hnone : mid.nothing_to_read = true := by
    by_contra hsome
    cases hpop with
    | cons _ hstep _ =>
        have hret : Output.popped (mid.pop_front T).1 = .popped none :=
          congrArg Prod.fst (Option.some.inj hstep)
        rw [LockFreeQueue.pop_front, if_neg hsome] at hret
        cases hret
  rw [nothing_to_read, decide_eq_true_iff, hmid.max_read, hmid.read, u32.add_mod_left] at hnone
  exact hnone

/-- And the one after a push finds what was pushed. -/
theorem goes_on (h : AsNew T q l) (hfits : l.length ≤ q.m_capacity) (hc : q.m_capacity < 2 ^ 32)
    (hread : q.m_read = R % 2 ^ 32) (hsize : q.m_size = l.length) (hpos : 0 < q.m_capacity) :
    (R + l.length + 1) % 2 ^ 32 ≤ u32.add q.m_max_read 1 := by
  obtain ⟨mid, q', hpops, hrest⟩ := h.after hfits hc
    [.try_push_back T.default, .pop_front]
    [.pushed true, .popped (some (some T.default))] (by
      intro p b hrep hempty hbound
      have hroom : b.items.length < b.bound := by
        rw [hempty, hbound]
        exact hpos
      have hwrap : NotAcrossWrap p (.try_push_back T.default) := by
        intro _ hbad
        have hfree : p.m_size = 0 := by rw [hrep.size, hempty, List.length_nil]
        omega
      obtain ⟨hok, hpush⟩ := hrep.try_push_back T.default hwrap
      obtain ⟨hadmitted, hitems⟩ := BoundedList.tryPush_of_lt hroom T.default
      rw [hempty, List.nil_append] at hitems
      have hwrap' : NotAcrossWrap (p.try_push_back T.default).2 .pop_front := by
        have hread := hpush.read
        have hmax := hpush.max_read
        rw [hitems, List.length_singleton] at hmax
        show _ ∨ _
        omega
      obtain ⟨hhead, -⟩ := hpush.pop_front_cons (T := T) hwrap' hitems
      exact ⟨_, .cons hwrap (step_try_push_back (hok.trans hadmitted))
        (.single hwrap' (step_pop_front hhead))⟩)
  have hmid := emptied hpops hread hsize (by omega)
  cases hrest with
  | cons _ hpush hlast =>
      have hpair : (Output.pushed (mid.try_push_back T.default).1,
          (mid.try_push_back T.default).2) = (_, _) := Option.some.inj hpush
      obtain ⟨hkept, hcount⟩ := admitted_counters T.default
        (hmid.size.trans_lt (hmid.capacity.symm ▸ hpos))
      cases hlast with
      | cons _ hpop _ =>
          rw [← (Prod.mk.inj hpair).2] at hpop
          have hsome := (pop_front_some hpop).1
          rw [nothing_to_read, decide_eq_true_iff, Nat.not_lt, hkept, hcount, hmid.read,
            hmid.max_read, u32.add_mod_left] at hsome
          exact hsome

/-- Between the two, the counter of what can be read stands where the elements end. -/
theorem max_read (h : AsNew T q l) (hfits : l.length ≤ q.m_capacity)
    (hc : q.m_capacity < 2 ^ 32) (hread : q.m_read = R % 2 ^ 32) (hsize : q.m_size = l.length)
    (hpos : 0 < q.m_capacity) (hturn : l.length < 2 ^ 32 - 1) :
    q.m_max_read = (R + l.length) % 2 ^ 32 := by
  have hstop := h.stops hfits hc hread hsize hturn
  have hgo := h.goes_on hfits hc hread hsize hpos
  have hup := u32.add_le q.m_max_read 1
  omega

end AsNew

end Hyperion.LockFreeQueue
