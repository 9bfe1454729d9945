/-
What is left when the logging thread is asleep.

`SingleThreadedAsync` releases a permit for each entry, and each read costs one, also one that
finds nothing.  Such a read finds all that was published read, so that what goes without a
permit is what the calls that are under way then publish.  With as many permits more as there
are callers no wake-up would be lost, and this is also how much may be left unread.
-/
import Hyperion.Logger.ManyCallers
import Hyperion.Logger.Wakeup

namespace Hyperion.AsyncLogger

open LockFreeQueue

variable {ι : Type} [DecidableEq ι] {p : AsyncParameters} {T : QueueElement Entry}

/-! ### A permit for each entry -/

/-- The logger with `n` permits more. -/
def with_permits (n : Nat) (s : AsyncLogger ι) : AsyncLogger ι :=
  { s with m_signal := s.m_signal + n }

/-- Nothing that can happen is kept from happening by more permits. -/
theorem Move.with_permits {s s' : AsyncLogger ι} {a : Action ι} (h : Move p T s a s') (n : Nat) :
    Move p T (s.with_permits n) a (s'.with_permits n) := by
  cases h with
  | filtered halive hidle hlow => exact .filtered halive hidle hlow
  | signal halive hidle hpasses hsingle => exact .signal halive hidle hpasses hsingle
  | enqueue halive hidle hpasses hmulti hq => exact .enqueue halive hidle hpasses hmulti hq
  | @release i entry e q hc hq =>
      have hmove : Move p T (s.with_permits n) (.caller i) { s with
          m_signal := s.m_signal + n + 1
          m_queue := q
          caller := Function.update s.caller i (.pushing entry) } := .release hc hq
      rw [Nat.add_right_comm] at hmove
      exact hmove
  | access hc hq he => exact .access hc hq he
  | pushed hc hq => exact .pushed hc hq
  | request_stop halive hidle => exact .request_stop halive hidle
  | release_stop ho =>
      have hmove : Move p T (s.with_permits n) .destroy
          { s with m_signal := s.m_signal + n + 1, owner := .joining } := .release_stop ho
      rw [Nat.add_right_comm] at hmove
      exact hmove
  | join ho hfinished => exact .join ho hfinished
  | check ht => exact .check ht
  | read ht hq he => exact .read ht hq he
  | nothing ht hq => exact .nothing ht hq
  | message ht hq => exact .message ht hq
  | sink ht => exact .sink ht
  | acquire ht hpos =>
      have hmove : Move p T (s.with_permits n) .thread
          { s with m_signal := s.m_signal + n - 1, thread := .checking } :=
        .acquire ht (Nat.add_pos_left hpos n)
      rw [Nat.sub_add_comm hpos] at hmove
      exact hmove

variable [Fintype ι]

/-- With a permit more for each caller, no step could lose a wake-up. -/
theorem permits_kept_with_permits (hsingle : p.THREADING_POLICY = .SingleThreadedAsync)
    {s : AsyncLogger ι} (hbounded : s.m_queue.Bounded)
    (hfew : s.m_queue.admissions < 2 ^ 32 - 1) (a : Action ι) :
    (s.with_permits (Fintype.card ι)).permits_kept p a := by
  cases a with
  | log | destroy => trivial
  | caller i =>
      intro hmulti
      rw [hsingle] at hmulti
      cases hmulti
  | thread =>
      intro _ _ hc hnothing
      have hnone : s.m_queue.step Entry.element .pop = some (.popped none, s.m_queue) :=
        System.Access.step (.nothing hc hnothing)
      obtain ⟨-, -, hall⟩ := all_read hbounded hfew hnone
      refine ⟨Nat.not_lt_of_le (Nat.le_of_eq hall.symm), ?_⟩
      have hcalls := Threads.count_le_card Caller.is_pushing s.caller
      rw [released, hsingle]
      exact Nat.le_trans hcalls (Nat.le_add_left _ _)

/-- What holds in every state of every run. -/
theorem awake_with_permits (hsingle : p.THREADING_POLICY = .SingleThreadedAsync)
    (hpolicy : p.ASYNC_POLICY ≠ .OverwriteWhenFull)
    (hwide : System.Wide p.capacity (Fintype.card ι)) {sinks : List Sink}
    {as : List (Action ι)} {os : List Unit} {s : AsyncLogger ι}
    (hrun : Machine.Run (step p T) any (start p T sinks) as os s)
    (hfew : s.m_queue.admissions < 2 ^ 32 - 1) :
    (s.m_queue.Bounded ∧ s.m_queue.queue.m_capacity = p.capacity) ∧
      Awake p (s.with_permits (Fintype.card ι)) := by
  refine hrun.invariant (P := fun s => s.m_queue.admissions < 2 ^ 32 - 1 →
    (s.m_queue.Bounded ∧ s.m_queue.queue.m_capacity = p.capacity) ∧
      Awake p (s.with_permits (Fintype.card ι))) ?_ ?_ hfew
  · intro s a o s' ih _ hstep hfew'
    have hmove := step_cases hstep
    have hfew₀ := Nat.lt_of_le_of_lt (move_admissions_le hmove) hfew'
    obtain ⟨hbounded, hawake⟩ := ih hfew₀
    refine ⟨?_, hawake.step (permits_kept_with_permits hsingle hbounded.1 hfew₀ a)
      (hmove.with_permits _)⟩
    rcases hmove.queue hpolicy with hsame | ⟨b, e, hordinary, hq⟩
    · rw [hsame]
      exact hbounded
    · exact System.bounded_step hwide hbounded hordinary hq hfew'
  · intro _
    refine ⟨⟨⟨System.counted_start T p.capacity, Nat.le_refl 0, Nat.zero_le _⟩, rfl⟩, ?_⟩
    obtain ⟨henough, hrunning⟩ := awake_start (ι := ι) p T sinks
    refine ⟨fun halive => Nat.le_trans (henough halive) ?_, hrunning⟩
    show 0 + 0 + 1 ≤ 0 + (0 + Fintype.card ι) + 1
    omega

/--
**What a sleeping thread leaves unread** is no more than there are callers, those included that
have released their permit and not returned.
-/
theorem asleep_leaves (hsingle : p.THREADING_POLICY = .SingleThreadedAsync)
    (hpolicy : p.ASYNC_POLICY ≠ .OverwriteWhenFull)
    (hwide : System.Wide p.capacity (Fintype.card ι)) {sinks : List Sink}
    {as : List (Action ι)} {os : List Unit} {s : AsyncLogger ι}
    (hrun : Machine.Run (step p T) any (start p T sinks) as os s)
    (hfew : s.m_queue.admissions < 2 ^ 32 - 1) (halive : s.owner = .alive)
    (hasleep : s.thread = .acquiring) (hnone : s.m_signal = 0) :
    s.m_queue.publications + Threads.count Caller.is_pushing s.caller
      ≤ s.m_queue.returned.length + Fintype.card ι := by
  obtain ⟨-, hawake⟩ := awake_with_permits hsingle hpolicy hwide hrun hfew
  have henough := hawake.enough halive
  rw [released, hsingle] at henough
  simp only [with_permits, hasleep, hnone, before_read] at henough
  omega

/-- One caller, whose permit was spent on a read before its push: its entry is left unread. -/
theorem asleep_leaves_one : ∃ s : AsyncLogger Unit, asleep s = true ∧
    s.m_queue.publications + Threads.count Caller.is_pushing s.caller
      ≤ s.m_queue.returned.length + Fintype.card Unit := by
  obtain ⟨s, os, s', hs, hrun, hlast⟩ := Machine.exists_run
    (step ⟨.SingleThreadedAsync, .DropWhenFull, .MESSAGE, 1⟩ Entry.element) any
    (some (start ⟨.SingleThreadedAsync, .DropWhenFull, .MESSAGE, 1⟩ Entry.element []))
    [.thread, .thread, .log () (.const_ref ⟨.INFO, "ready"⟩), .caller (), .thread, .thread,
      .thread, .caller (), .caller (), .caller (), .caller ()]
    (fun r => asleep r.2 && r.2.m_queue.admissions == 1) (by decide +kernel)
  cases hs
  rw [Bool.and_eq_true] at hlast
  have hasleep := hlast.1
  simp only [asleep, Bool.and_eq_true, beq_iff_eq] at hasleep
  obtain ⟨⟨⟨⟨-, halive⟩, -⟩, -⟩, hblocked, hnone⟩ := hasleep
  have hfew : s'.m_queue.admissions < 2 ^ 32 - 1 := by
    rw [eq_of_beq hlast.2]
    decide
  exact ⟨s', hlast.1,
    asleep_leaves rfl (by decide) (Or.inl (by decide)) hrun hfew halive hblocked hnone⟩

end Hyperion.AsyncLogger
