/-
Whether the logging thread is woken for every entry.

Each entry the thread reads costs it one permit, and so does each time it finds nothing.
`SingleThreadedAsync` releases one permit for each call, before the push.  If the thread
uses that permit for a read before the push is complete, none is left for the entry.
`MultiThreadedAsync` releases none, so only what is there at the first read is read
before the destructor runs.
-/
import Hyperion.Logger.Asynchronous

namespace Hyperion.AsyncLogger

open LockFreeQueue

variable {ι : Type} [Fintype ι] {p : AsyncParameters} {T : QueueElement Entry}

/-- There is an entry in the queue that was not read. -/
def entry_waiting (s : AsyncLogger ι) : Prop :=
  s.m_queue.returned.length < s.m_queue.publications

/--
When no call of `log` is in progress, the logger was not stopped and an entry is in the
queue, the logging thread is not blocked.
-/
def NotLost (s : AsyncLogger ι) : Prop :=
  (∀ i, s.caller i = .idle) → s.owner = .alive → s.entry_waiting →
    ¬ (s.thread = .acquiring ∧ s.m_signal = 0)

/-- How many calls have released their permit and not returned. -/
def released (p : AsyncParameters) (s : AsyncLogger ι) : Nat :=
  match p.THREADING_POLICY with
  | .SingleThreadedAsync => Threads.count Caller.is_pushing s.caller
  | .MultiThreadedAsync => 0

/-- The thread makes a read before it next acquires. -/
def before_read : LoggingThread → Nat
  | .checking | .reading _ => 1
  | _ => 0

/--
Until the logger is stopped: a read that finds nothing finds the queue empty, and leaves
a permit for every call that has released one and not returned; without permits, an
element is published only into an empty queue, before the thread has read.
-/
def permits_kept (p : AsyncParameters) (s : AsyncLogger ι) : Action ι → Prop
  | .thread => s.owner = .alive → s.thread.in_read = true → s.m_queue.consumer = .idle →
      s.m_queue.queue.nothing_to_read = true →
        ¬ s.entry_waiting ∧ s.released p ≤ s.m_signal
  | .caller i => p.THREADING_POLICY = .MultiThreadedAsync → s.m_queue.producer i = .written →
      ¬ s.entry_waiting ∧ before_read s.thread = 1
  | _ => True

/-- There are permits for what is in the queue, and for what may still get there. -/
structure Awake (p : AsyncParameters) (s : AsyncLogger ι) : Prop where
  enough : s.owner = .alive → s.m_queue.publications + s.released p
    ≤ s.m_queue.returned.length + s.m_signal + before_read s.thread
  running : s.owner = .alive → s.thread.is_flushing = false

theorem Awake.not_lost {s : AsyncLogger ι} (h : Awake p s) : NotLost s := by
  intro _ halive hwaiting hblocked
  have henough := h.enough halive
  rw [hblocked.1, hblocked.2] at henough
  unfold entry_waiting at hwaiting
  simp only [before_read] at henough
  omega

theorem awake_start (p : AsyncParameters) (T : QueueElement Entry) (sinks : List Sink) :
    Awake p (start p T sinks : AsyncLogger ι) := by
  refine ⟨fun _ => ?_, fun _ => rfl⟩
  have hnone : (start p T sinks : AsyncLogger ι).released p = 0 := by
    unfold released
    cases p.THREADING_POLICY with
    | SingleThreadedAsync => exact Threads.count_eq_zero fun _ => rfl
    | MultiThreadedAsync => rfl
  rw [hnone]
  exact Nat.zero_le _

/-- The thread goes on, with as many reads to come and elements read for each permit. -/
theorem Awake.thread_moves {s s' : AsyncLogger ι} (h : Awake p s) (howner : s'.owner = s.owner)
    (hcaller : s'.caller = s.caller) (hpublications : s'.m_queue.publications = s.m_queue.publications)
    (hreads : s.m_queue.returned.length + s.m_signal + before_read s.thread
      ≤ s'.m_queue.returned.length + s'.m_signal + before_read s'.thread)
    (hrunning : s.owner = .alive → s.thread.is_flushing = false →
      s'.thread.is_flushing = false) : Awake p s' := by
  refine ⟨fun halive => ?_, fun halive => ?_⟩
  · have henough := h.enough (howner ▸ halive)
    unfold released at henough ⊢
    rw [hpublications, hcaller]
    exact Nat.le_trans henough hreads
  · rw [howner] at halive
    exact hrunning halive (h.running halive)

variable [DecidableEq ι]

/--
A caller goes from one place to another.  With a permit for each call, what it adds to
the queue it had released a permit for; without, it adds nothing, or the thread has yet
to read.
-/
theorem Awake.caller_moves {s s' : AsyncLogger ι} (h : Awake p s) {i : ι} {c : Caller}
    (hcaller : s'.caller = Function.update s.caller i c) (howner : s'.owner = s.owner)
    (hthread : s'.thread = s.thread) (hreturned : s'.m_queue.returned = s.m_queue.returned)
    (hsingle : p.THREADING_POLICY = .SingleThreadedAsync →
      s'.m_queue.publications + c.is_pushing.toNat + s.m_signal
        ≤ s.m_queue.publications + (s.caller i).is_pushing.toNat + s'.m_signal)
    (hmulti : p.THREADING_POLICY = .MultiThreadedAsync → s.m_signal ≤ s'.m_signal ∧
      (s'.m_queue.publications ≤ s.m_queue.publications ∨
        s'.m_queue.publications ≤ s.m_queue.publications + 1 ∧ ¬ s.entry_waiting ∧
          before_read s.thread = 1)) : Awake p s' := by
  refine ⟨fun halive => ?_, fun halive => ?_⟩
  · have henough := h.enough (howner ▸ halive)
    have hcount := Threads.count_update Caller.is_pushing s.caller i c
    unfold released at henough ⊢
    rw [hcaller, hreturned, hthread]
    cases hthreading : p.THREADING_POLICY with
    | SingleThreadedAsync =>
        rw [hthreading] at henough
        have hadd := hsingle hthreading
        simp only at henough ⊢
        omega
    | MultiThreadedAsync =>
        rw [hthreading] at henough
        obtain ⟨hsignal, hle | ⟨hle, hempty, hbefore⟩⟩ := hmulti hthreading
        · simp only at henough ⊢
          omega
        · unfold entry_waiting at hempty
          simp only at henough ⊢
          omega
  · rw [hthread]
    exact h.running (howner ▸ halive)

/-- **Every step that keeps the permits keeps the thread awake.** -/
theorem Awake.step {s s' : AsyncLogger ι} (h : Awake p s) {a : Action ι}
    (hguard : s.permits_kept p a) (hmove : Move p T s a s') : Awake p s' := by
  cases hmove with
  | filtered => exact ⟨h.enough, h.running⟩
  | signal ho hidle =>
      refine h.caller_moves rfl rfl rfl rfl (fun _ => ?_) fun _ => ⟨Nat.le_refl _, ?_⟩
      · rw [hidle]
        exact Nat.le_refl _
      · exact .inl (Nat.le_refl _)
  | enqueue ho hidle hpasses hmulti hq =>
      obtain ⟨hpub, hret⟩ := System.call_keeps hq
      refine h.caller_moves rfl rfl rfl hret (fun hsingle => ?_) fun _ => ⟨Nat.le_refl _, ?_⟩
      · rw [hmulti] at hsingle
        cases hsingle
      · exact .inl (Nat.le_of_eq hpub)
  | @release i entry e q hc hq =>
      obtain ⟨hpub, hret⟩ := System.call_keeps hq
      refine h.caller_moves rfl rfl rfl hret (fun _ => ?_) fun _ => ⟨Nat.le_succ _, ?_⟩
      · rw [hc]
        show q.publications + 1 + s.m_signal ≤ s.m_queue.publications + 0 + (s.m_signal + 1)
        omega
      · exact .inl (Nat.le_of_eq hpub)
  | @access i entry e q hc hq he =>
      obtain ⟨hpub, hret⟩ := System.publications_le hq he
      refine h.caller_moves (i := i) (c := .pushing entry) ?_ rfl rfl hret (fun _ => ?_)
        fun _ => ⟨Nat.le_refl _, .inl hpub⟩
      · rw [← hc, Function.update_eq_self]
      · rw [hc]
        show q.publications + 1 + s.m_signal ≤ s.m_queue.publications + 1 + s.m_signal
        omega
  | @pushed i entry ok q hc hq =>
      have hmulti := hguard
      cases System.step_cases hq with
      | give_up hp =>
          refine h.caller_moves rfl rfl rfl rfl (fun _ => ?_)
            fun _ => ⟨Nat.le_refl _, .inl (Nat.le_refl _)⟩
          show s.m_queue.publications + 0 + s.m_signal ≤ _ + _ + s.m_signal
          omega
      | publish hp =>
          refine h.caller_moves rfl rfl rfl rfl (fun _ => ?_) fun hthreading =>
            ⟨Nat.le_refl _, .inr ⟨Nat.le_refl _, hmulti hthreading hp⟩⟩
          rw [hc]
          exact Nat.le_refl _
  | request_stop => exact ⟨nofun, nofun⟩
  | release_stop => exact ⟨nofun, nofun⟩
  | join => exact ⟨nofun, nofun⟩
  | check ht =>
      refine h.thread_moves rfl rfl rfl ?_ fun halive _ => decide_eq_false (not_not_intro halive)
      rw [ht]
      exact Nat.le_refl _
  | read ht hq he =>
      obtain ⟨-, -, hpublications⟩ := System.pop_keeps hq
      refine h.thread_moves rfl rfl hpublications ?_ fun _ hrunning => ?_
      · rw [System.read_goes_on hq he, ht]
      · rw [ht] at hrunning
        exact hrunning
  | @nothing f q ht hq =>
      cases System.step_cases hq with
      | nothing hc hread =>
          refine ⟨fun halive => ?_, fun halive => ?_⟩
          · obtain ⟨hempty, hpermits⟩ := hguard halive (by rw [ht]; rfl) hc hread
            unfold entry_waiting at hempty
            show s.m_queue.publications + s.released p
              ≤ s.m_queue.returned.length + s.m_signal + before_read (after_empty f)
            omega
          · have hf := h.running halive
            rw [ht, LoggingThread.is_flushing] at hf
            rw [hf]
            rfl
  | @message f ret q ht hq =>
      cases System.step_cases hq with
      | release hc =>
          refine h.thread_moves rfl rfl rfl ?_ fun _ hrunning => ?_
          · show _ ≤ (s.m_queue.returned ++ [ret]).length + s.m_signal + 0
            rw [ht, List.length_append, List.length_singleton]
            show s.m_queue.returned.length + s.m_signal + 1 ≤ _
            omega
          · rw [ht] at hrunning
            exact hrunning
  | @sink f e ht =>
      refine h.thread_moves rfl rfl rfl ?_ fun _ hrunning => ?_
      · rw [ht]
        exact Nat.le_add_right _ _
      · rw [ht, LoggingThread.is_flushing] at hrunning
        rw [hrunning]
        rfl
  | acquire ht hpos =>
      refine h.thread_moves rfl rfl rfl ?_ fun _ _ => rfl
      rw [ht]
      show s.m_queue.returned.length + s.m_signal + 0
        ≤ s.m_queue.returned.length + (s.m_signal - 1) + 1
      omega

/--
**No wake-up is lost** in either asynchronous logger, in every interleaving whose steps
all keep the permits.
-/
theorem never_lost {sinks : List Sink} {as : List (Action ι)} {os : List Unit}
    {s : AsyncLogger ι}
    (hrun : Machine.Run (step p T) (permits_kept p) (start p T sinks) as os s) : NotLost s := by
  have hawake : Awake p s := by
    refine hrun.invariant (P := Awake p) ?_ (awake_start p T sinks)
    intro s a o s' h hguard hstep
    exact h.step hguard (step_cases hstep)
  exact hawake.not_lost

/-- An entry logged before the thread has read: the thread is about to. -/
theorem never_lost_one : ∃ s : AsyncLogger Unit, s.entry_waiting ∧ NotLost s := by
  have hrun : Machine.Run (step ⟨.SingleThreadedAsync, .DropWhenFull, .MESSAGE, 1⟩ Entry.element)
      (permits_kept ⟨.SingleThreadedAsync, .DropWhenFull, .MESSAGE, 1⟩)
      (start ⟨.SingleThreadedAsync, .DropWhenFull, .MESSAGE, 1⟩ Entry.element [])
      [.log () (.const_ref ⟨.INFO, "ready"⟩), .caller (), .caller (), .caller (), .caller (),
        .caller ()] _ _ :=
    .cons trivial rfl (.cons nofun rfl (.cons nofun rfl (.cons nofun rfl (.cons nofun rfl
      (.single nofun rfl)))))
  refine ⟨_, ?_, never_lost hrun⟩
  exact Nat.one_pos

/-- Nothing is lost in any interleaving of a logger of this kind. -/
def NeverLost (policy : AsyncThreading) : Prop :=
  ∀ (p : AsyncParameters) (sinks : List Sink) (as : List (Action Unit)) (os : List Unit)
    (s : AsyncLogger Unit), p.THREADING_POLICY = policy → 1 ≤ p.QUEUE_SIZE →
    Machine.Run (step p Entry.element) (fun _ _ => True) (start p Entry.element sinks) as os s →
    NotLost s

/-- An entry is published, nobody is in a call, and the thread sleeps. -/
def asleep (s : AsyncLogger Unit) : Bool :=
  ((s.caller () == .idle && s.owner == .alive) && s.m_queue.publications == 1) &&
    s.m_queue.returned == [] && (s.thread == .acquiring && s.m_signal == 0)

theorem lost_of_asleep {s : AsyncLogger Unit} (h : asleep s = true) : ¬ NotLost s := by
  intro hnot
  simp only [asleep, Bool.and_eq_true, beq_iff_eq] at h
  obtain ⟨⟨⟨⟨hidle, halive⟩, hpublished⟩, hreturned⟩, hblocked⟩ := h
  refine hnot (fun _ => hidle) halive ?_ hblocked
  rw [entry_waiting, hpublished, hreturned]
  exact Nat.one_pos

/--
`SingleThreadedAsync`: the thread wakes up for an entry whose push is not complete, and
finds nothing.  `MultiThreadedAsync`: it does not wake up.
-/
theorem wakeup_lost : ¬ NeverLost .SingleThreadedAsync ∧ ¬ NeverLost .MultiThreadedAsync := by
  refine ⟨fun hclaim => ?_, fun hclaim => ?_⟩
  · obtain ⟨s, os, s', hs, hrun, hlast⟩ := Machine.exists_run
      (step ⟨.SingleThreadedAsync, .DropWhenFull, .MESSAGE, 1⟩ Entry.element)
      (fun _ _ => True)
      (some (start ⟨.SingleThreadedAsync, .DropWhenFull, .MESSAGE, 1⟩ Entry.element []))
      [.thread, .thread, .log () (.const_ref ⟨.INFO, "ready"⟩), .caller (), .thread, .thread,
        .thread, .caller (), .caller (), .caller (), .caller ()]
      (fun r => asleep r.2) (by decide +kernel)
    cases hs
    exact lost_of_asleep hlast (hclaim _ _ _ _ s' rfl (Nat.le_refl 1) hrun)
  · obtain ⟨s, os, s', hs, hrun, hlast⟩ := Machine.exists_run
      (step ⟨.MultiThreadedAsync, .DropWhenFull, .MESSAGE, 1⟩ Entry.element)
      (fun _ _ => True)
      (some (start ⟨.MultiThreadedAsync, .DropWhenFull, .MESSAGE, 1⟩ Entry.element []))
      [.thread, .thread, .log () (.const_ref ⟨.INFO, "ready"⟩), .caller (), .caller (),
        .caller (), .caller ()]
      (fun r => asleep r.2) (by decide +kernel)
    cases hs
    exact lost_of_asleep hlast (hclaim _ _ _ _ s' rfl (Nat.le_refl 1) hrun)

end Hyperion.AsyncLogger
