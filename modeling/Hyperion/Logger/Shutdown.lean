/-
Whether the destructor of an asynchronous logger returns.

It requests a stop, releases the semaphore once and joins the thread.  The thread cannot
stay blocked: the permit is still there, or it was acquired after the stop was requested
and the thread goes into its second loop.  That loop ends when a read finds nothing, and
nobody pushes any more, so what bounds it is the distance from `m_read` to `m_max_read`.

There is one number for which it does not.  A read finds something unless
`m_read + 1 > m_max_read`, and no 32-bit number is greater than 2^32 - 1.  When that many
elements were published the thread reads round the buffer forever, and the destructor
waits for it.
-/
import Hyperion.Logger.Asynchronous
import Hyperion.LockFreeQueue.Slots

namespace Hyperion

open LockFreeQueue

/-! ### How much there is to read -/

namespace LockFreeQueue.System

variable {ι α : Type} {T : QueueElement α}

/-- How many positions `m_max_read` is ahead of a position. -/
def ahead (s : System ι α) (read : Nat) : Nat := u32.sub s.queue.m_max_read read

/-- How many more elements the consumer finds, when nobody pushes any more. -/
def unread (s : System ι α) : Nat :=
  match s.consumer with
  | .checked => s.ahead (u32.add s.queue.m_read 1)
  | _ => s.ahead s.queue.m_read

/-- How many accesses the consumer makes until it finds nothing; one more for each element. -/
def accesses_left (s : System ι α) : Nat :=
  match s.consumer with
  | .idle => 5 * s.unread + 1
  | .checked => 5 * s.unread + 5
  | .advanced _ => 5 * s.unread + 4
  | .took _ => 5 * s.unread + 3

theorem accesses_left_le (s : System ι α) : s.accesses_left ≤ 5 * s.unread + 5 := by
  unfold accesses_left
  split <;> omega

/-- The counters are 32-bit words. -/
structure Words (s : System ι α) : Prop where
  read : s.queue.m_read < 2 ^ 32
  max_read : s.queue.m_max_read < 2 ^ 32

/-- A position that is behind `m_max_read` is one further behind than the next. -/
theorem ahead_next {s : System ι α} (h : Words s) (hne : s.queue.m_read ≠ s.queue.m_max_read) :
    s.ahead (u32.add s.queue.m_read 1) + 1 = s.ahead s.queue.m_read := by
  obtain ⟨hread, hmax⟩ := h
  rw [ahead, ahead, u32.sub, u32.sub, u32.add, Word.sub, Word.sub, Word.add]
  omega

/-- Where something is left to read, `m_read` has not come to `m_max_read`. -/
theorem ne_of_read {s : System ι α} (h : Words s) (hlast : s.queue.m_max_read ≠ 2 ^ 32 - 1)
    (hread : s.queue.nothing_to_read = false) : s.queue.m_read ≠ s.queue.m_max_read := by
  have hmax := h.max_read
  intro heq
  rw [nothing_to_read, decide_eq_false_iff_not, heq, u32.add_eq (by omega)] at hread
  omega

variable [DecidableEq ι]

theorem Words.step {s s' : System ι α} (h : Words s) {a : Action ι α} {e : Event α}
    (hstep : step T s a = some (e, s')) : Words s' := by
  obtain ⟨hread, hmax⟩ := h
  cases step_cases hstep with
  | take => exact ⟨u32.add_lt _ _, hmax⟩
  | publish => exact ⟨hread, u32.add_lt _ _⟩
  | retract => exact ⟨hread, u32.sub_lt _ _⟩
  | call | enter | refuse | wait | give_up | overwrite | claim | write | nothing | check | move
  | release => exact ⟨hread, hmax⟩

theorem pop_max_read {s s' : System ι α} {e : Event α} (hstep : step T s .pop = some (e, s')) :
    s'.queue.m_max_read = s.queue.m_max_read := by
  cases step_cases hstep <;> rfl

/-- An access of a pop that goes on is one less to make. -/
theorem accesses_left_read {s s' : System ι α} (h : Words s)
    (hlast : s.queue.m_max_read ≠ 2 ^ 32 - 1) {e : Event α}
    (hstep : step T s .pop = some (e, s')) (he : ∀ ret, e ≠ .popped ret) :
    s'.accesses_left + 1 = s.accesses_left := by
  cases step_cases hstep with
  | nothing => exact absurd rfl (he none)
  | @release ret => exact absurd rfl (he (some ret))
  | check hc hread =>
      have hnext := ahead_next h (ne_of_read h hlast hread)
      simp only [accesses_left, unread, hc]
      show 5 * s.ahead (u32.add s.queue.m_read 1) + 5 + 1 = 5 * s.ahead s.queue.m_read + 1
      omega
  | take hc =>
      simp only [accesses_left, unread, hc]
      rfl
  | move hc =>
      simp only [accesses_left, unread, hc]
      rfl

/-- The access with which a pop returns an element leaves one for what is done with it. -/
theorem accesses_left_message {s s' : System ι α} {ret : Option α}
    (hstep : step T s .pop = some (.popped (some ret), s')) :
    s'.accesses_left + 2 = s.accesses_left := by
  cases step_cases hstep with
  | release hc =>
      simp only [accesses_left, unread, hc]
      rfl

end LockFreeQueue.System

namespace AsyncLogger

variable {ι : Type} {p : AsyncParameters} {T : QueueElement Entry}

/-! ### What holds all along -/

/-- **What the destructor relies on.** -/
structure InShape (s : AsyncLogger ι) : Prop where
  queue : s.m_queue.Filled
  words : s.m_queue.Words
  message : ∀ f message, s.thread = .sinking f message → message.isSome = true
  callers : s.owner ≠ .alive → ∀ i, s.caller i = .idle
  running : s.owner = .alive → s.thread.is_flushing = false
  awake : s.owner = .joining →
    s.thread.is_flushing = true ∨ s.thread = .checking ∨ 0 < s.m_signal
  joined : s.owner = .destroyed → s.thread = .finished
  finished : s.thread = .finished → s.m_queue.queue.m_max_read ≠ 2 ^ 32 - 1

theorem InShape.start (hpos : 0 < p.capacity) (T : QueueElement Entry) (sinks : List Sink) :
    InShape (start p T sinks : AsyncLogger ι) where
  queue := System.filled_start T hpos
  words := ⟨Nat.two_pow_pos 32, Nat.two_pow_pos 32⟩
  message _ _ h := by cases h
  callers _ _ := rfl
  running _ := rfl
  awake h := by cases h
  joined h := by cases h
  finished h := by cases h

/-- A caller's step, before the destructor. -/
theorem InShape.caller_moves {s s' : AsyncLogger ι} (h : InShape s) (halive : s.owner = .alive)
    (howner : s'.owner = s.owner) (hthread : s'.thread = s.thread)
    (hqueue : s'.m_queue.Filled ∧ s'.m_queue.Words) : InShape s' where
  queue := hqueue.1
  words := hqueue.2
  message := by
    rw [hthread]
    exact h.message
  callers hstopped := absurd (howner.trans halive) hstopped
  running _ := by
    rw [hthread]
    exact h.running halive
  awake hjoining := by
    rw [howner, halive] at hjoining
    cases hjoining
  joined hdestroyed := by
    rw [howner, halive] at hdestroyed
    cases hdestroyed
  finished hfinished := by
    have hrunning := h.running halive
    rw [hthread] at hfinished
    rw [hfinished] at hrunning
    cases hrunning

/-- The thread's step, while it runs. -/
theorem InShape.thread_moves {s s' : AsyncLogger ι} (h : InShape s)
    (hrunning : s.thread ≠ .finished) (howner : s'.owner = s.owner) (hcaller : s'.caller = s.caller)
    (hqueue : s'.m_queue.Filled ∧ s'.m_queue.Words)
    (hmessage : ∀ f message, s'.thread = .sinking f message → message.isSome = true)
    (hflushing : s.owner = .alive → s'.thread.is_flushing = false)
    (hawake : s.owner = .joining →
      s'.thread.is_flushing = true ∨ s'.thread = .checking ∨ 0 < s'.m_signal)
    (hfinished : s'.thread = .finished → s'.m_queue.queue.m_max_read ≠ 2 ^ 32 - 1) :
    InShape s' where
  queue := hqueue.1
  words := hqueue.2
  message := hmessage
  callers := by
    rw [howner, hcaller]
    exact h.callers
  running := by
    rw [howner]
    exact hflushing
  awake := by
    rw [howner]
    exact hawake
  joined hdestroyed := absurd (h.joined (howner ▸ hdestroyed)) hrunning
  finished := hfinished

variable [DecidableEq ι]

/-- **Every step keeps the logger in shape.** -/
theorem InShape.step {s s' : AsyncLogger ι} (h : InShape s) {a : Action ι}
    (hmove : Move p T s a s') : InShape s' := by
  have halive : ∀ {i}, s.caller i ≠ .idle → s.owner = .alive := by
    intro i hbusy
    by_contra hstopped
    exact hbusy (h.callers hstopped i)
  have hqueue : ∀ {b e q}, s.m_queue.step T b = some (e, q) → q.Filled ∧ q.Words :=
    fun hq => ⟨h.queue.step hq, h.words.step hq⟩
  have hsame : s.m_queue.Filled ∧ s.m_queue.Words := ⟨h.queue, h.words⟩
  cases hmove with
  | filtered ho => exact h.caller_moves ho rfl rfl hsame
  | signal ho => exact h.caller_moves ho rfl rfl hsame
  | enqueue ho _ _ _ hq => exact h.caller_moves ho rfl rfl (hqueue hq)
  | release hc hq => exact h.caller_moves (halive (by rw [hc]; nofun)) rfl rfl (hqueue hq)
  | access hc hq => exact h.caller_moves (halive (by rw [hc]; nofun)) rfl rfl (hqueue hq)
  | pushed hc hq => exact h.caller_moves (halive (by rw [hc]; nofun)) rfl rfl (hqueue hq)
  | request_stop ho hidle =>
      exact ⟨h.queue, h.words, h.message, fun _ i => Caller.of_is_idle (hidle i), nofun, nofun,
        nofun, h.finished⟩
  | release_stop ho =>
      exact ⟨h.queue, h.words, h.message, fun _ => h.callers (by rw [ho]; nofun), nofun,
        fun _ => .inr (.inr (Nat.succ_pos _)), nofun, h.finished⟩
  | join ho hfinished =>
      exact ⟨h.queue, h.words, h.message, fun _ => h.callers (by rw [ho]; nofun), nofun, nofun,
        fun _ => hfinished, h.finished⟩
  | check ht =>
      refine h.thread_moves (by rw [ht]; nofun) rfl rfl hsame nofun ?_ ?_ nofun
      · intro ho
        exact decide_eq_false (not_not_intro ho)
      · intro ho
        refine .inl (decide_eq_true ?_)
        rw [ho]
        nofun
  | @read f e q ht hq he =>
      have hrunning := h.running
      have hawake := h.awake
      rw [ht] at hrunning hawake
      refine h.thread_moves (by rw [ht]; nofun) rfl rfl (hqueue hq) nofun hrunning ?_ nofun
      intro ho
      exact (hawake ho).imp_right fun hlater => hlater.imp_left nofun
  | @nothing f q ht hq =>
      have hrunning := h.running
      have hawake := h.awake
      rw [ht] at hrunning hawake
      refine h.thread_moves (by rw [ht]; nofun) rfl rfl (hqueue hq) ?_ ?_ ?_ ?_
      · cases f <;> nofun
      · intro ho
        have hf : f = false := hrunning ho
        rw [hf]
        rfl
      · intro ho
        cases f with
        | true => exact .inl rfl
        | false => exact (hawake ho).imp nofun fun hlater => hlater.imp_left nofun
      · intro _ hlast
        -- no number is too large for the last one
        cases System.step_cases hq with
        | nothing hc hread =>
            have hlt := of_decide_eq_true hread
            rw [hlast] at hlt
            have hle := u32.add_lt s.m_queue.queue.m_read 1
            omega
  | @message f ret q ht hq =>
      have hrunning := h.running
      have hawake := h.awake
      rw [ht] at hrunning hawake
      refine h.thread_moves (by rw [ht]; nofun) rfl rfl (hqueue hq) ?_ hrunning ?_ nofun
      · intro g message hthread
        cases hthread
        cases System.step_cases hq with
        | release hc => exact h.queue.took _ hc
      · intro ho
        exact (hawake ho).imp_right fun hlater => hlater.imp_left nofun
  | @sink f e ht =>
      have hrunning := h.running
      have hawake := h.awake
      rw [ht] at hrunning hawake
      refine h.thread_moves (by rw [ht]; nofun) rfl rfl hsame ?_ ?_ ?_ ?_
      · cases f <;> nofun
      · intro ho
        have hf : f = false := hrunning ho
        rw [hf]
        rfl
      · intro ho
        cases f with
        | true => exact .inl rfl
        | false => exact (hawake ho).imp nofun fun hlater => hlater.imp_left nofun
      · cases f <;> nofun
  | acquire ht hpos =>
      exact h.thread_moves (by rw [ht]; nofun) rfl rfl hsame nofun (fun _ => rfl)
        (fun _ => .inr (.inl rfl)) nofun

/-! ### How long it takes -/

/-- How many steps the thread makes until it returns, once it is to stop. -/
def thread_left (q : System ι Entry) : LoggingThread → Nat
  | .finished => 0
  | .reading true => q.accesses_left
  | .sinking true _ | .checking => q.accesses_left + 1
  | .acquiring => q.accesses_left + 2
  | .reading false | .sinking false _ => q.accesses_left + 3

/-- How many steps the destructor makes itself. -/
def owner_left : Owner → Nat
  | .alive => 3
  | .stopping => 2
  | .joining => 1
  | .destroyed => 0

/-- How many steps are made until the destructor has returned. -/
def steps_left (s : AsyncLogger ι) : Nat := owner_left s.owner + thread_left s.m_queue s.thread

omit [DecidableEq ι] in
theorem thread_left_le (q : System ι Entry) (thread : LoggingThread) :
    thread_left q thread ≤ q.accesses_left + 3 := by
  unfold thread_left
  split <;> omega

/-- The destructor has begun, and the thread will find an end of what it reads. -/
structure Ending (s : AsyncLogger ι) : Prop where
  shape : InShape s
  stopped : s.owner ≠ .alive
  last : s.m_queue.queue.m_max_read ≠ 2 ^ 32 - 1

omit [DecidableEq ι] in
/-- Once the destructor has begun, nobody is in a call. -/
theorem InShape.not_busy {s : AsyncLogger ι} (h : InShape s) (hstopped : s.owner ≠ .alive) {i : ι}
    {c : Caller} (hc : s.caller i = c) (hbusy : c ≠ .idle) : False :=
  hbusy (hc.symm.trans (h.callers hstopped i))

/-- Nobody publishes or calls any more. -/
theorem stopped_keeps {s s' : AsyncLogger ι} (h : InShape s) (hstopped : s.owner ≠ .alive)
    {a : Action ι} (hmove : Move p T s a s') :
    s'.owner ≠ .alive ∧ s'.m_queue.queue.m_max_read = s.m_queue.queue.m_max_read := by
  cases hmove with
  | filtered ho | signal ho | enqueue ho | request_stop ho => exact absurd ho hstopped
  | release hc | access hc | pushed hc => exact (h.not_busy hstopped hc nofun).elim
  | release_stop | join => exact ⟨nofun, rfl⟩
  | check | sink | acquire => exact ⟨hstopped, rfl⟩
  | read _ hq | nothing _ hq | message _ hq => exact ⟨hstopped, System.pop_max_read hq⟩

theorem Ending.step {s s' : AsyncLogger ι} (h : Ending s) {a : Action ι}
    (hmove : Move p T s a s') : Ending s' := by
  obtain ⟨hstopped, hmax⟩ := stopped_keeps h.shape h.stopped hmove
  exact ⟨h.shape.step hmove, hstopped, hmax ▸ h.last⟩

/-- **Every step brings the end nearer.** -/
theorem Ending.drop {s s' : AsyncLogger ι} (h : Ending s) {a : Action ι}
    (hmove : Move p T s a s') : steps_left s' < steps_left s := by
  obtain ⟨hshape, hstopped, hlast⟩ := h
  unfold steps_left
  cases hmove with
  | filtered ho | signal ho | enqueue ho | request_stop ho => exact absurd ho hstopped
  | release hc | access hc | pushed hc => exact (hshape.not_busy hstopped hc nofun).elim
  | release_stop ho | join ho =>
      refine Nat.add_lt_add_right ?_ _
      rw [ho]
      exact Nat.lt_succ_self _
  | check ht =>
      have hrequested : s.stop_requested = true := decide_eq_true hstopped
      refine Nat.add_lt_add_left ?_ _
      rw [ht, hrequested]
      exact Nat.lt_succ_self _
  | @read f e q ht hq he =>
      have hone := System.accesses_left_read hshape.words hlast hq he
      refine Nat.add_lt_add_left ?_ _
      rw [ht]
      cases f
      all_goals
        simp only [thread_left]
        omega
  | @nothing f q ht hq =>
      refine Nat.add_lt_add_left ?_ _
      cases System.step_cases hq with
      | nothing hc =>
          rw [ht]
          cases f with
          | false => exact Nat.lt_succ_self _
          | true =>
              show 0 < s.m_queue.accesses_left
              simp only [System.accesses_left, hc]
              exact Nat.succ_pos _
  | @message f ret q ht hq =>
      have htwo := System.accesses_left_message hq
      refine Nat.add_lt_add_left ?_ _
      rw [ht]
      cases f
      all_goals
        simp only [thread_left]
        omega
  | @sink f e ht =>
      refine Nat.add_lt_add_left ?_ _
      rw [ht]
      cases f <;> exact Nat.lt_succ_self _
  | acquire ht =>
      refine Nat.add_lt_add_left ?_ _
      rw [ht]
      exact Nat.lt_succ_self _

/-- **Until it has returned, the destructor or the thread can make a step.** -/
theorem InShape.goes_on {s : AsyncLogger ι} (h : InShape s) (hstopped : s.owner ≠ .alive)
    (hrunning : s.owner ≠ .destroyed) : ∃ a s', Move p T s a s' := by
  cases ho : s.owner with
  | alive => exact absurd ho hstopped
  | destroyed => exact absurd ho hrunning
  | stopping => exact ⟨_, _, .release_stop ho⟩
  | joining =>
      cases ht : s.thread with
      | finished => exact ⟨_, _, .join ho ht⟩
      | checking => exact ⟨_, _, .check ht⟩
      | sinking f message =>
          obtain ⟨e, rfl⟩ := Option.isSome_iff_exists.mp (h.message f message ht)
          exact ⟨_, _, .sink ht⟩
      | acquiring =>
          have hawake := h.awake ho
          rw [ht] at hawake
          rcases hawake with hflushing | hchecking | hpos
          · cases hflushing
          · cases hchecking
          · exact ⟨_, _, .acquire ht hpos⟩
      | reading f =>
          rcases hq : s.m_queue.step T .pop with _ | ⟨e, q⟩
          · -- a pop can always make its next access
            cases hc : s.m_queue.consumer with
            | idle =>
                simp only [System.step, System.pop, hc] at hq
                split at hq <;> cases hq
            | checked | advanced _ | took _ =>
                simp only [System.step, System.pop, hc] at hq
                cases hq
          · cases e with
            | ongoing => exact ⟨_, _, .read ht hq (fun _ he => by cases he)⟩
            | pushed ok => exact ⟨_, _, .read ht hq (fun _ he => by cases he)⟩
            | popped ret =>
                cases ret with
                | none => exact ⟨_, _, .nothing ht hq⟩
                | some ret => exact ⟨_, _, .message ht hq⟩

/-! ### The destructor -/

variable [Fintype ι]

/-- Whatever may happen. -/
abbrev any (_ : AsyncLogger ι) (_ : Action ι) : Prop := True

/-- The destructor has returned. -/
def Destroyed (s : AsyncLogger ι) : Prop := s.owner = .destroyed

/--
**The destructor returns, whatever the order of the steps, exactly if `m_max_read` is not
the last 32-bit number**, and then within five steps for each element that is left.
-/
theorem shutdown_iff {sinks : List Sink} (hpos : 0 < p.capacity) {as : List (Action ι)}
    {os : List Unit} {s : AsyncLogger ι}
    (hrun : Machine.Run (step p T) any (start p T sinks) as os s) (hstopped : s.owner ≠ .alive) :
    Machine.EndsWithin (step p T) any Destroyed (5 * s.m_queue.unread + 10) s
      ↔ s.m_queue.queue.m_max_read ≠ 2 ^ 32 - 1 := by
  have hshape : InShape s := hrun.invariant
    (fun _ _ _ _ h _ hstep => h.step (step_cases hstep)) (InShape.start hpos T sinks)
  constructor
  · intro hends hlast
    -- the thread cannot finish, so there is always another step
    have hgo : ∀ t : AsyncLogger ι, (InShape t ∧ t.owner ≠ .alive ∧
        t.m_queue.queue.m_max_read = 2 ^ 32 - 1) → ∃ a o t', any t a ∧
        step p T t a = some (o, t') ∧ InShape t' ∧ t'.owner ≠ .alive ∧
          t'.m_queue.queue.m_max_read = 2 ^ 32 - 1 := by
      intro t ht
      obtain ⟨htshape, htstopped, htlast⟩ := ht
      have hrunning : t.owner ≠ .destroyed :=
        fun hdestroyed => htshape.finished (htshape.joined hdestroyed) htlast
      obtain ⟨a, t', hmove⟩ := htshape.goes_on (p := p) (T := T) htstopped hrunning
      obtain ⟨hstopped', hmax⟩ := stopped_keeps htshape htstopped hmove
      exact ⟨a, (), t', trivial, hmove.step, htshape.step hmove, hstopped', hmax.trans htlast⟩
    obtain ⟨is, ps, s', hlong, hlength⟩ := Machine.exists_run_of_length hgo
      (5 * s.m_queue.unread + 11) ⟨hshape, hstopped, hlast⟩
    have hle := hends.bounded is ps s' hlong
    omega
  · intro hlast
    have hdrop : ∀ (s : AsyncLogger ι) a o s', Ending s → any s a →
        step p T s a = some (o, s') → steps_left s' < steps_left s :=
      fun s a o s' h _ hstep => h.drop (step_cases hstep)
    refine Machine.endsWithin_of_variant ?_ hdrop ?_ ⟨hshape, hstopped, hlast⟩ ?_
    · exact fun s a o s' h _ hstep => h.step (step_cases hstep)
    · intro t ht hrunning
      obtain ⟨a, t', hmove⟩ := ht.shape.goes_on (p := p) (T := T) ht.stopped hrunning
      exact ⟨a, (), t', trivial, hmove.step⟩
    · have haccesses := s.m_queue.accesses_left_le
      have hthread := thread_left_le s.m_queue s.thread
      unfold steps_left owner_left
      split
      · rename_i ho
        exact absurd ho hstopped
      all_goals omega

/-- Two callers overwrite each other's entries, and the logger is destroyed. -/
theorem shutdown_of_two : ∃ s : AsyncLogger (Fin 2), s.owner = .stopping ∧
    Machine.EndsWithin (step ⟨.MultiThreadedAsync, .OverwriteWhenFull, .MESSAGE, 1⟩ Entry.element)
      any Destroyed (5 * s.m_queue.unread + 10) s := by
  obtain ⟨s, es, s', hs, hrun, hlast⟩ := Machine.exists_run
    (step ⟨.MultiThreadedAsync, .OverwriteWhenFull, .MESSAGE, 1⟩ Entry.element) any
    (some (start ⟨.MultiThreadedAsync, .OverwriteWhenFull, .MESSAGE, 1⟩ Entry.element []))
    [.log (0 : Fin 2) (.const_ref ⟨.INFO, "ready"⟩), .log 1 (.rvalue ⟨.WARN, "steady"⟩), .thread,
      .caller 0, .caller 1, .caller 0, .caller 0, .caller 0, .caller 1, .caller 1, .caller 1,
      .caller 1, .thread, .destroy]
    (fun r => decide (r.2.owner = .stopping) && (r.2.m_queue.queue.m_max_read == 1))
    (by decide +kernel)
  cases hs
  obtain ⟨howner, hmax⟩ := Bool.and_eq_true_iff.mp hlast
  have howner := of_decide_eq_true howner
  have hends := (shutdown_iff (by decide) hrun (by rw [howner]; nofun)).mpr
    (by rw [eq_of_beq hmax]; decide)
  exact ⟨s', howner, hends⟩

end AsyncLogger

end Hyperion
