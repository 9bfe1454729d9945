/-
How far a caller gets whose pushes wait for room.

Each permit is for an entry that was admitted to the queue, or waits before it.  The thread
pops at most one entry more than it has acquired permits for, until the destructor has
begun.  So with `BlockWhenFull` the permits are bounded by the queue's capacity, and not by
the number of calls.
-/
import Hyperion.Logger.Delivery

namespace Hyperion.AsyncLogger

open LockFreeQueue

variable {p : AsyncParameters} {T : QueueElement Entry}

/-- How many permits the destructor is about to release. -/
def stops : Owner → Nat
  | .stopping => 1
  | _ => 0

/-- Tries that were not admitted so far. -/
def tries : Producer Entry → Nat
  | .called _ _ | .refused _ _ => 1
  | _ => 0

/-- The read of the next permit was made. -/
def read_ahead : LoggingThread → Nat
  | .sinking _ _ | .acquiring => 1
  | _ => 0

theorem read_ahead_le (thread : LoggingThread) : read_ahead thread ≤ 1 := by
  cases thread
  case sinking | acquiring => exact Nat.le_refl 1
  all_goals exact Nat.zero_le 1

/-- No more was admitted than was popped and than there is room for. -/
structure Roomy (p : AsyncParameters) (q : System Unit Entry) : Prop where
  counted : q.Counted
  capacity : q.queue.m_capacity = p.capacity
  held : q.admissions ≤ q.returned.length + p.capacity

theorem Roomy.step {q q' : System Unit Entry} (h : Roomy p q) {b : LockFreeQueue.Action Unit Entry}
    {e : Event Entry} (hordinary : q.ordinary b) (hq : q.step T b = some (e, q')) :
    Roomy p q' := by
  refine ⟨h.counted.step hordinary hq, (System.step_capacity hq).trans h.capacity, ?_⟩
  have hheld := h.held
  cases System.step_cases hq with
  | @enter i push v hp hroom =>
      have hlt : p.capacity < 2 ^ 32 := Nat.mod_lt _ (Nat.two_pow_pos 32)
      have hnone : Threads.count Producer.backing_out q.producer = 0 :=
        Threads.count_eq_zero fun j => by
          rw [show q.producer j = _ from hp]
          rfl
      have hsize := h.counted.size
      rw [hnone] at hsize
      rw [h.capacity] at hroom
      -- a full queue would say so
      show q.admissions + 1 ≤ q.returned.length + p.capacity
      omega
  | @release ret hc =>
      show q.admissions ≤ (q.returned ++ [ret]).length + p.capacity
      rw [List.length_append, List.length_singleton]
      omega
  | call | refuse | wait | give_up | overwrite | retract | claim | write | publish | nothing
  | check | take | move => exact hheld

/-- An access of a waiting push is admitted, or it still has to try. -/
theorem tries_kept {q q' : System Unit Entry} {entry : Entry} {e : Event Entry}
    (hblock : p.ASYNC_POLICY = .BlockWhenFull) (hin : InPush p (.pushing entry) (q.producer ()))
    (hq : q.step T (.advance ()) = some (e, q')) :
    q'.admissions + tries (q'.producer ()) = q.admissions + tries (q.producer ()) := by
  have hwait : p.get_queue_policy.push.when_full = .wait := by
    rw [AsyncParameters.get_queue_policy, hblock]
    rfl
  cases System.step_cases hq with
  | give_up hp hpush | overwrite hp hpush =>
      rw [hp] at hin
      rw [hin.2.2, hwait] at hpush
      cases hpush
  | retract hp =>
      rw [hp] at hin
      exact hin.elim
  | enter hp | refuse hp | wait hp | claim hp | write hp | publish hp => rw [hp]; rfl

/-- Every permit is for an entry that was admitted, or will be, and not popped. -/
structure HeldBack (p : AsyncParameters) (s : AsyncLogger Unit) : Prop where
  callers : s.owner ≠ .alive → s.caller () = .idle
  running : s.owner = .alive → s.thread.is_flushing = false
  alive : s.owner = .alive → s.m_signal + s.m_queue.returned.length
    ≤ s.m_queue.admissions + tries (s.m_queue.producer ()) + read_ahead s.thread
  stopped : s.owner ≠ .alive → s.m_signal + stops s.owner ≤ p.capacity + 3

/-- While a call is in progress: a permit it releases is for the entry it is going to push. -/
theorem HeldBack.caller_moves {s s' : AsyncLogger Unit} (h : HeldBack p s)
    (halive : s.owner = .alive) (howner : s'.owner = s.owner) (hthread : s'.thread = s.thread)
    (hreturned : s'.m_queue.returned = s.m_queue.returned)
    (hle : s'.m_signal + (s.m_queue.admissions + tries (s.m_queue.producer ()))
      ≤ s.m_signal + (s'.m_queue.admissions + tries (s'.m_queue.producer ()))) :
    HeldBack p s' := by
  have hnot : ¬ s'.owner ≠ .alive := not_not_intro (howner.trans halive)
  refine ⟨fun hstopped => absurd hstopped hnot, fun _ => ?_, fun _ => ?_,
    fun hstopped => absurd hstopped hnot⟩
  · rw [hthread]
    exact h.running halive
  · have hpermits := h.alive halive
    rw [hreturned, hthread]
    omega

/-- The thread goes on: what it pops it has a permit for, or is going to acquire one. -/
theorem HeldBack.thread_moves {s s' : AsyncLogger Unit} (h : HeldBack p s)
    (howner : s'.owner = s.owner) (hcaller : s'.caller = s.caller)
    (hproducer : s'.m_queue.producer = s.m_queue.producer)
    (hadmissions : s'.m_queue.admissions = s.m_queue.admissions)
    (hsignal : s'.m_signal ≤ s.m_signal)
    (hrunning : s.owner = .alive → s.thread.is_flushing = false →
      s'.thread.is_flushing = false ∧ s'.m_signal + s'.m_queue.returned.length
        + read_ahead s.thread ≤ s.m_signal + s.m_queue.returned.length + read_ahead s'.thread) :
    HeldBack p s' := by
  refine ⟨?_, ?_, ?_, ?_⟩
  · rw [howner, hcaller]
    exact h.callers
  · intro halive
    rw [howner] at halive
    exact (hrunning halive (h.running halive)).1
  · intro halive
    rw [howner] at halive
    have hpermits := h.alive halive
    have hle := (hrunning halive (h.running halive)).2
    rw [hadmissions, hproducer]
    omega
  · intro hstopped
    rw [howner] at hstopped ⊢
    exact Nat.le_trans (Nat.add_le_add_right hsignal _) (h.stopped hstopped)

/-- **With a waiting push every step keeps the permits behind the queue.** -/
theorem HeldBack.step {s s' : AsyncLogger Unit} (h : HeldBack p s) (hroomy : Roomy p s.m_queue)
    (hcaller : CallerInOrder p s) (hblock : p.ASYNC_POLICY = .BlockWhenFull) {a : Action Unit}
    (hmove : Move p T s a s') : HeldBack p s' := by
  have hin := hcaller.in_push
  have halive : s.caller () ≠ .idle → s.owner = .alive := by
    intro hbusy
    by_contra hstopped
    exact hbusy (h.callers hstopped)
  have hcalled : ∀ {push v e q}, s.m_queue.step T (.call () push v) = some (e, q) →
      q.returned = s.m_queue.returned ∧ q.admissions + tries (q.producer ())
        = s.m_queue.admissions + tries (s.m_queue.producer ()) + 1 := by
    intro push v e q hq
    cases System.step_cases hq with
    | call hp => rw [hp]; exact ⟨rfl, rfl⟩
  cases hmove with
  | filtered => exact ⟨h.callers, h.running, h.alive, h.stopped⟩
  | signal ho => exact h.caller_moves ho rfl rfl rfl (Nat.le_refl _)
  | @enqueue _ _ _ q ho hidle hpasses hmulti hq =>
      obtain ⟨hreturned, htries⟩ := hcalled hq
      refine h.caller_moves ho rfl rfl hreturned ?_
      show s.m_signal + _ ≤ s.m_signal + (q.admissions + tries (q.producer ()))
      omega
  | @release _ _ _ q hc hq =>
      obtain ⟨hreturned, htries⟩ := hcalled hq
      refine h.caller_moves (halive (by rw [hc]; nofun)) rfl rfl hreturned ?_
      show s.m_signal + 1 + _ ≤ s.m_signal + (q.admissions + tries (q.producer ()))
      omega
  | access hc hq =>
      rw [hc] at hin
      exact h.caller_moves (halive (by rw [hc]; nofun)) rfl rfl (System.producer_keeps hq nofun).1
        (Nat.add_le_add_left (Nat.le_of_eq (tries_kept hblock hin hq).symm) _)
  | pushed hc hq =>
      rw [hc] at hin
      exact h.caller_moves (halive (by rw [hc]; nofun)) rfl rfl (System.producer_keeps hq nofun).1
        (Nat.add_le_add_left (Nat.le_of_eq (tries_kept hblock hin hq).symm) _)
  | request_stop ho hidle =>
      have hidle := Caller.of_is_idle (hidle ())
      have hpermits := h.alive ho
      have hheld := hroomy.held
      rw [hidle] at hin
      rw [hin.of_idle] at hpermits
      refine ⟨fun _ => hidle, nofun, nofun, fun _ => ?_⟩
      have hahead := read_ahead_le s.thread
      show s.m_signal + 1 ≤ p.capacity + 3
      simp only [tries] at hpermits
      omega
  | release_stop ho =>
      have hnot : s.owner ≠ .alive := by rw [ho]; nofun
      have hpermits := h.stopped hnot
      rw [ho] at hpermits
      exact ⟨fun _ => h.callers hnot, nofun, nofun, fun _ => hpermits⟩
  | join ho =>
      have hnot : s.owner ≠ .alive := by rw [ho]; nofun
      have hpermits := h.stopped hnot
      rw [ho] at hpermits
      exact ⟨fun _ => h.callers hnot, nofun, nofun, fun _ => hpermits⟩
  | check ht =>
      refine h.thread_moves rfl rfl rfl rfl (Nat.le_refl _) fun halive _ =>
        ⟨decide_eq_false (not_not_intro halive), ?_⟩
      rw [ht]
      exact Nat.le_refl _
  | read ht hq he =>
      refine h.thread_moves rfl rfl (System.pop_keeps hq).1 (System.pop_admissions hq)
        (Nat.le_refl _) fun _ hrunning => ⟨?_, ?_⟩
      · rw [ht] at hrunning
        exact hrunning
      · rw [System.read_goes_on hq he, ht]
  | @nothing f q ht hq =>
      refine h.thread_moves rfl rfl (System.pop_keeps hq).1 (System.pop_admissions hq)
        (Nat.le_refl _) fun _ hrunning => ?_
      rw [ht, LoggingThread.is_flushing] at hrunning
      rw [hrunning, ht]
      cases System.step_cases hq with
      | nothing => exact ⟨rfl, Nat.le_succ _⟩
  | @message f ret q ht hq =>
      refine h.thread_moves rfl rfl (System.pop_keeps hq).1 (System.pop_admissions hq)
        (Nat.le_refl _) fun _ hrunning => ⟨?_, ?_⟩
      · rw [ht] at hrunning
        exact hrunning
      · cases System.step_cases hq with
        | release hc =>
            rw [ht, List.length_append, List.length_singleton]
            exact Nat.le_refl _
  | sink ht =>
      refine h.thread_moves rfl rfl rfl rfl (Nat.le_refl _) fun _ hrunning => ?_
      rw [ht, LoggingThread.is_flushing] at hrunning
      rw [hrunning, ht]
      exact ⟨rfl, Nat.le_refl _⟩
  | acquire ht hpos =>
      refine h.thread_moves rfl rfl rfl rfl (Nat.sub_le _ 1) fun _ _ => ⟨rfl, ?_⟩
      rw [ht]
      show s.m_signal - 1 + s.m_queue.returned.length + 1
        ≤ s.m_signal + s.m_queue.returned.length + 0
      omega

/-- A full queue that waits holds the caller back. -/
theorem held_back {sinks : List Sink} {as : List (Action Unit)} {os : List Unit}
    {s : AsyncLogger Unit} (hblock : p.ASYNC_POLICY = .BlockWhenFull)
    (hrun : Machine.Run (step p T) (fun _ _ => True) (start p T sinks) as os s) :
    s.m_signal ≤ p.capacity + 3 := by
  have hpolicy : p.ASYNC_POLICY ≠ .OverwriteWhenFull := by rw [hblock]; nofun
  have hinv : Roomy p s.m_queue ∧ CallerInOrder p s ∧ HeldBack p s := by
    refine hrun.invariant
      (P := fun s => Roomy p s.m_queue ∧ CallerInOrder p s ∧ HeldBack p s) ?_ ?_
    · intro s a o s' h _ hstep
      obtain ⟨hroomy, hcaller, hback⟩ := h
      have hmove := step_cases hstep
      refine ⟨?_, hcaller.step hpolicy hmove, hback.step hroomy hcaller hblock hmove⟩
      rcases hmove.queue hpolicy with hsame | ⟨b, e, hordinary, hq⟩
      · rw [hsame]
        exact hroomy
      · exact hroomy.step hordinary hq
    · refine ⟨⟨System.counted_start T p.capacity, rfl, Nat.zero_le _⟩, .start p T sinks, ?_⟩
      exact ⟨fun _ => rfl, fun _ => rfl, fun _ => Nat.le_refl 0, fun hstopped => absurd rfl hstopped⟩
  obtain ⟨hroomy, -, hback⟩ := hinv
  by_cases halive : s.owner = .alive
  · have hpermits := hback.alive halive
    have hheld := hroomy.held
    have htries : tries (s.m_queue.producer ()) ≤ 1 := by
      cases s.m_queue.producer ()
      case called | refused => exact Nat.le_refl 1
      all_goals exact Nat.zero_le 1
    have hahead := read_ahead_le s.thread
    omega
  · exact Nat.le_trans (Nat.le_add_right _ _) (hback.stopped halive)

end Hyperion.AsyncLogger
