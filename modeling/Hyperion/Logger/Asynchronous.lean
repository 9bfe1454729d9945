/-
The asynchronous loggers of `Hyperion/Logger.h`, and `Hyperion/logging/Queue.h`.

`LogBase<SingleThreadedAsync>` and `LogBase<MultiThreadedAsync>` push the entries they
are given into a queue, and a thread of their own reads them from it and hands them to
the sinks.  Between two reads that thread acquires a semaphore.  The two classes are
written separately and differ in one line: the first one's `log` releases the
semaphore before it pushes, the second one's never does.

The callers, the destructor and the logging thread take their steps in any order, and
a step inside the queue is one of the queue's own accesses.  The semaphore is a counter
without a bound.  No caller is in `log` when the destructor begins, and none calls it
afterwards.  `returns` and `handed` are not in the source: they record what the calls
returned and what was handed to the sinks.
-/
import Hyperion.Logger.Basic
import Hyperion.LockFreeQueue.Concurrent

namespace Hyperion

open LockFreeQueue (Push Event System)

/-- `Entry()`, and an entry whose string was moved out. -/
def Entry.element : QueueElement Entry :=
  ⟨⟨.MESSAGE, "DefaultMessage"⟩, fun e => { e with entry := "" }⟩

/-- `logging::AsyncPolicy` -/
inductive AsyncPolicy
  | DropWhenFull
  | OverwriteWhenFull
  | BlockWhenFull
deriving DecidableEq

/-- `logging::QueuePolicy` -/
inductive QueuePolicy
  | ErrWhenFull
  | OverwriteWhenFull
  | BlockWhenFull
deriving DecidableEq

/-- `Queue::push`: the function of the queue it calls. -/
def QueuePolicy.push : QueuePolicy → Push
  | .ErrWhenFull => .try_push_back
  | .OverwriteWhenFull => .force_push_back
  | .BlockWhenFull => .push_back

/-- The asynchronous values of `logging::ThreadingPolicy`. -/
inductive AsyncThreading
  | SingleThreadedAsync
  | MultiThreadedAsync
deriving DecidableEq

/-- What the class template is instantiated with. -/
structure AsyncParameters where
  THREADING_POLICY : AsyncThreading
  ASYNC_POLICY : AsyncPolicy
  MINIMUM_LEVEL : Level
  QUEUE_SIZE : Nat

namespace AsyncParameters

/-- `get_queue_policy` -/
def get_queue_policy (p : AsyncParameters) : QueuePolicy :=
  match p.ASYNC_POLICY with
  | .DropWhenFull => .ErrWhenFull
  | .OverwriteWhenFull => .OverwriteWhenFull
  | .BlockWhenFull => .BlockWhenFull

/-- `LockFreeQueue<T>(Capacity)`: the capacity is converted to `u32`. -/
def capacity (p : AsyncParameters) : Nat := p.QUEUE_SIZE % 2 ^ 32

/-- `entry.level() > MINIMUM_LEVEL` -/
def passes (p : AsyncParameters) (entry : Entry) : Bool :=
  p.MINIMUM_LEVEL.value < entry.level.value

end AsyncParameters

/-- Where a caller is in `log`. -/
inductive Caller
  /-- in no call -/
  | idle
  /-- before `m_signal.release(1)` -/
  | signalling (entry : Entry)
  /-- in `m_queue.push(entry)` -/
  | pushing (entry : Entry)
deriving DecidableEq

namespace Caller

/-- It is in no call. -/
def is_idle : Caller → Bool
  | .idle => true
  | _ => false

theorem of_is_idle {c : Caller} (h : c.is_idle = true) : c = .idle := by
  cases c
  case idle => rfl
  all_goals simp [is_idle] at h

/-- It is in `m_queue.push`. -/
def is_pushing : Caller → Bool
  | .pushing _ => true
  | _ => false

end Caller

/-- Where the destructor is. -/
inductive Owner
  /-- before `request_stop()` -/
  | alive
  /-- before `m_signal.release(1)` -/
  | stopping
  /-- in `m_logging_thread.join()` -/
  | joining
  /-- returned -/
  | destroyed
deriving DecidableEq

/-- Where the logging thread is; `flushing` in the second loop. -/
inductive LoggingThread
  /-- before `token.stop_requested()` -/
  | checking
  /-- in `try_read()` -/
  | reading (flushing : Bool)
  /-- before `sink->sink(message)` -/
  | sinking (flushing : Bool) (message : Option Entry)
  /-- before `m_signal.acquire()` -/
  | acquiring
  /-- returned -/
  | finished
deriving DecidableEq

/-- It is in `try_read`. -/
def LoggingThread.in_read : LoggingThread → Bool
  | .reading _ => true
  | _ => false

/-- It has left its first loop. -/
def LoggingThread.is_flushing : LoggingThread → Bool
  | .reading f | .sinking f _ => f
  | .finished => true
  | _ => false

/-- A logger and the threads that use it. -/
structure AsyncLogger (ι : Type) where
  m_sinks : List Sink
  m_queue : System ι Entry
  m_signal : Nat
  caller : ι → Caller
  owner : Owner
  thread : LoggingThread
  /-- the entry of each call of `log` that returned, and whether it returned `Ok()` -/
  returns : List (Entry × Bool)
  /-- what was handed to the sinks -/
  handed : List Entry

namespace AsyncLogger

/-- What may happen next. -/
inductive Action (ι : Type)
  | log (i : ι) (call : LogCall)
  | caller (i : ι)
  | destroy
  | thread

variable {ι : Type} {p : AsyncParameters} {T : QueueElement Entry}

/-- The constructor: the thread has started. -/
def start (p : AsyncParameters) (T : QueueElement Entry) (sinks : List Sink) : AsyncLogger ι :=
  ⟨sinks, System.start T p.capacity, 0, fun _ => .idle, .alive, .checking, [], []⟩

/-- `token.stop_requested()`: the destructor has made its first step. -/
def stop_requested (s : AsyncLogger ι) : Bool := s.owner ≠ .alive

/-- What the thread does after a read that found nothing. -/
def after_empty (flushing : Bool) : LoggingThread := if flushing then .finished else .acquiring

/-- What the thread does after it handed a message to the sinks. -/
def after_sink (flushing : Bool) : LoggingThread :=
  if flushing then .reading true else .acquiring

variable [DecidableEq ι]

/-- `m_queue.push(entry)` is called. -/
def push (p : AsyncParameters) (T : QueueElement Entry) (s : AsyncLogger ι) (i : ι)
    (entry : Entry) : Option (AsyncLogger ι) :=
  (s.m_queue.step T (.call i p.get_queue_policy.push entry)).map fun (_, m_queue) =>
    { s with m_queue := m_queue, caller := Function.update s.caller i (.pushing entry) }

/-- `log` is called: the test of the level, and up to the first access. -/
def log (p : AsyncParameters) (T : QueueElement Entry) (s : AsyncLogger ι) (i : ι)
    (entry : Entry) : Option (AsyncLogger ι) :=
  if s.owner = .alive ∧ s.caller i = .idle then
    if p.passes entry then
      match p.THREADING_POLICY with
      | .SingleThreadedAsync =>
          some { s with caller := Function.update s.caller i (.signalling entry) }
      | .MultiThreadedAsync => s.push p T i entry
    else some { s with returns := s.returns ++ [(entry, true)] }
  else none

/-- The next access of a caller. -/
def advance_caller (p : AsyncParameters) (T : QueueElement Entry) (s : AsyncLogger ι) (i : ι) :
    Option (AsyncLogger ι) :=
  match s.caller i with
  | .idle => none
  | .signalling entry => push p T { s with m_signal := s.m_signal + 1 } i entry
  | .pushing entry =>
      match s.m_queue.step T (.advance i) with
      | some (.pushed ok, m_queue) =>
          some { s with
            m_queue := m_queue
            caller := Function.update s.caller i .idle
            returns := s.returns ++ [(entry, ok)] }
      | some (_, m_queue) => some { s with m_queue := m_queue }
      | none => none

/-- The next step of the logging thread, `message_thread_function`. -/
def advance_thread (T : QueueElement Entry) (s : AsyncLogger ι) : Option (AsyncLogger ι) :=
  match s.thread with
  | .checking => some { s with thread := .reading s.stop_requested }
  | .reading flushing =>
      match s.m_queue.step T .pop with
      | some (.popped none, m_queue) =>
          some { s with m_queue := m_queue, thread := after_empty flushing }
      | some (.popped (some ret), m_queue) =>
          some { s with m_queue := m_queue, thread := .sinking flushing ret }
      | some (_, m_queue) => some { s with m_queue := m_queue }
      | none => none
  | .sinking flushing message =>
      message.map fun e => { s with
        m_sinks := sink_all s.m_sinks e
        handed := s.handed ++ [e]
        thread := after_sink flushing }
  | .acquiring =>
      if 0 < s.m_signal then some { s with m_signal := s.m_signal - 1, thread := .checking }
      else none
  | .finished => none

/-- What a step can do. -/
inductive Move (p : AsyncParameters) (T : QueueElement Entry) (s : AsyncLogger ι) :
    Action ι → AsyncLogger ι → Prop
  | filtered {i call} (halive : s.owner = .alive) (hidle : s.caller i = .idle)
      (hlow : p.passes call.entry = false) :
      Move p T s (.log i call) { s with returns := s.returns ++ [(call.entry, true)] }
  | signal {i call} (halive : s.owner = .alive) (hidle : s.caller i = .idle)
      (hpasses : p.passes call.entry = true)
      (hsingle : p.THREADING_POLICY = .SingleThreadedAsync) :
      Move p T s (.log i call)
        { s with caller := Function.update s.caller i (.signalling call.entry) }
  | enqueue {i call e q} (halive : s.owner = .alive) (hidle : s.caller i = .idle)
      (hpasses : p.passes call.entry = true)
      (hmulti : p.THREADING_POLICY = .MultiThreadedAsync)
      (hq : s.m_queue.step T (.call i p.get_queue_policy.push call.entry) = some (e, q)) :
      Move p T s (.log i call)
        { s with m_queue := q, caller := Function.update s.caller i (.pushing call.entry) }
  | release {i entry e q} (hc : s.caller i = .signalling entry)
      (hq : s.m_queue.step T (.call i p.get_queue_policy.push entry) = some (e, q)) :
      Move p T s (.caller i)
        { s with
          m_signal := s.m_signal + 1
          m_queue := q
          caller := Function.update s.caller i (.pushing entry) }
  | access {i entry e q} (hc : s.caller i = .pushing entry)
      (hq : s.m_queue.step T (.advance i) = some (e, q)) (he : ∀ ok, e ≠ .pushed ok) :
      Move p T s (.caller i) { s with m_queue := q }
  | pushed {i entry ok q} (hc : s.caller i = .pushing entry)
      (hq : s.m_queue.step T (.advance i) = some (.pushed ok, q)) :
      Move p T s (.caller i)
        { s with
          m_queue := q
          caller := Function.update s.caller i .idle
          returns := s.returns ++ [(entry, ok)] }
  | request_stop (halive : s.owner = .alive) (hidle : ∀ i, (s.caller i).is_idle = true) :
      Move p T s .destroy { s with owner := .stopping }
  | release_stop (ho : s.owner = .stopping) :
      Move p T s .destroy { s with m_signal := s.m_signal + 1, owner := .joining }
  | join (ho : s.owner = .joining) (hfinished : s.thread = .finished) :
      Move p T s .destroy { s with owner := .destroyed }
  | check (ht : s.thread = .checking) :
      Move p T s .thread { s with thread := .reading s.stop_requested }
  | read {f e q} (ht : s.thread = .reading f) (hq : s.m_queue.step T .pop = some (e, q))
      (he : ∀ ret, e ≠ .popped ret) :
      Move p T s .thread { s with m_queue := q, thread := .reading f }
  | nothing {f q} (ht : s.thread = .reading f)
      (hq : s.m_queue.step T .pop = some (.popped none, q)) :
      Move p T s .thread { s with m_queue := q, thread := after_empty f }
  | message {f ret q} (ht : s.thread = .reading f)
      (hq : s.m_queue.step T .pop = some (.popped (some ret), q)) :
      Move p T s .thread { s with m_queue := q, thread := .sinking f ret }
  | sink {f e} (ht : s.thread = .sinking f (some e)) :
      Move p T s .thread
        { s with
          m_sinks := sink_all s.m_sinks e
          handed := s.handed ++ [e]
          thread := after_sink f }
  | acquire (ht : s.thread = .acquiring) (hpos : 0 < s.m_signal) :
      Move p T s .thread { s with m_signal := s.m_signal - 1, thread := .checking }

/-! ### Each function's moves -/

theorem log_cases {s s' : AsyncLogger ι} {i : ι} {call : LogCall}
    (h : s.log p T i call.entry = some s') : Move p T s (.log i call) s' := by
  unfold log at h
  by_cases hready : s.owner = .alive ∧ s.caller i = .idle
  · rw [if_pos hready] at h
    by_cases hpasses : p.passes call.entry = true
    · rw [if_pos hpasses] at h
      cases hthreading : p.THREADING_POLICY with
      | SingleThreadedAsync =>
          rw [hthreading, Option.some.injEq] at h
          subst h
          exact .signal hready.1 hready.2 hpasses hthreading
      | MultiThreadedAsync =>
          rw [hthreading] at h
          obtain ⟨⟨e, q⟩, hq, rfl⟩ := Option.map_eq_some_iff.mp h
          exact .enqueue hready.1 hready.2 hpasses hthreading hq
    · rw [if_neg hpasses, Option.some.injEq] at h
      subst h
      exact .filtered hready.1 hready.2 (Bool.eq_false_iff.mpr hpasses)
  · rw [if_neg hready] at h
    simp at h

theorem advance_caller_cases {s s' : AsyncLogger ι} {i : ι}
    (h : s.advance_caller p T i = some s') : Move p T s (.caller i) s' := by
  unfold advance_caller at h
  cases hc : s.caller i with
  | idle =>
      rw [hc] at h
      simp at h
  | signalling entry =>
      rw [hc] at h
      obtain ⟨⟨e, q⟩, hq, rfl⟩ := Option.map_eq_some_iff.mp h
      exact .release hc hq
  | pushing entry =>
      rw [hc] at h
      rcases hq : s.m_queue.step T (.advance i) with _ | ⟨e, q⟩
      · rw [hq] at h
        simp at h
      · rw [hq] at h
        cases e with
        | pushed ok =>
            simp only [Option.some.injEq] at h
            subst h
            exact .pushed hc hq
        | ongoing | popped ret =>
            simp only [Option.some.injEq] at h
            subst h
            exact .access hc hq nofun

theorem advance_thread_cases {s s' : AsyncLogger ι} (h : s.advance_thread T = some s') :
    Move p T s .thread s' := by
  unfold advance_thread at h
  cases hthread : s.thread with
  | checking =>
      simp only [hthread, Option.some.injEq] at h
      subst h
      exact .check hthread
  | reading f =>
      rw [hthread] at h
      rcases hq : s.m_queue.step T .pop with _ | ⟨e, q⟩
      · rw [hq] at h
        simp at h
      · rw [hq] at h
        cases e with
        | popped ret =>
            cases ret with
            | none =>
                simp only [Option.some.injEq] at h
                subst h
                exact .nothing hthread hq
            | some ret =>
                simp only [Option.some.injEq] at h
                subst h
                exact .message hthread hq
        | ongoing | pushed ok =>
            simp only [Option.some.injEq] at h
            subst h
            exact .read hthread hq nofun
  | sinking f message =>
      rw [hthread] at h
      obtain ⟨e, rfl, rfl⟩ := Option.map_eq_some_iff.mp h
      exact .sink hthread
  | acquiring =>
      rw [hthread] at h
      by_cases hpos : 0 < s.m_signal
      · rw [if_pos hpos, Option.some.injEq] at h
        subst h
        exact .acquire hthread hpos
      · rw [if_neg hpos] at h
        simp at h
  | finished =>
      rw [hthread] at h
      simp at h

variable [Fintype ι]

/-- The next step of the destructor. -/
def destroy (s : AsyncLogger ι) : Option (AsyncLogger ι) :=
  match s.owner with
  | .alive =>
      if ∀ i, (s.caller i).is_idle = true then some { s with owner := .stopping } else none
  | .stopping => some { s with m_signal := s.m_signal + 1, owner := .joining }
  | .joining => if s.thread = .finished then some { s with owner := .destroyed } else none
  | .destroyed => none

/-- One step of the program. -/
def step (p : AsyncParameters) (T : QueueElement Entry) (s : AsyncLogger ι) :
    Action ι → Option (Unit × AsyncLogger ι)
  | .log i call => (s.log p T i call.entry).map ((), ·)
  | .caller i => (s.advance_caller p T i).map ((), ·)
  | .destroy => s.destroy.map ((), ·)
  | .thread => (s.advance_thread T).map ((), ·)

theorem destroy_cases {s s' : AsyncLogger ι} (h : s.destroy = some s') :
    Move p T s .destroy s' := by
  unfold destroy at h
  cases ho : s.owner with
  | alive =>
      rw [ho] at h
      by_cases hidle : ∀ i, (s.caller i).is_idle = true
      · rw [if_pos hidle, Option.some.injEq] at h
        subst h
        exact .request_stop ho hidle
      · rw [if_neg hidle] at h
        simp at h
  | stopping =>
      simp only [ho, Option.some.injEq] at h
      subst h
      exact .release_stop ho
  | joining =>
      rw [ho] at h
      by_cases hfinished : s.thread = .finished
      · rw [if_pos hfinished, Option.some.injEq] at h
        subst h
        exact .join ho hfinished
      · rw [if_neg hfinished] at h
        simp at h
  | destroyed =>
      rw [ho] at h
      simp at h

/-- **Every step is one of these moves.** -/
theorem step_cases {s s' : AsyncLogger ι} {a : Action ι} {o : Unit}
    (h : step p T s a = some (o, s')) : Move p T s a s' := by
  cases a
  all_goals
    obtain ⟨t, ht, hpair⟩ := Option.map_eq_some_iff.mp h
    obtain ⟨-, rfl⟩ := Prod.mk.inj hpair
  case log i call => exact log_cases ht
  case caller i => exact advance_caller_cases ht
  case destroy => exact destroy_cases ht
  case thread => exact advance_thread_cases ht

/-- Every such move is a step. -/
theorem Move.step {s s' : AsyncLogger ι} {a : Action ι} (h : Move p T s a s') :
    s.step p T a = some ((), s') := by
  cases h with
  | filtered halive hidle hlow =>
      simp only [AsyncLogger.step, log, if_pos (And.intro halive hidle), hlow]
      rfl
  | signal halive hidle hpasses hsingle =>
      simp only [AsyncLogger.step, log, if_pos (And.intro halive hidle), hpasses, hsingle]
      rfl
  | enqueue halive hidle hpasses hmulti hq =>
      simp only [AsyncLogger.step, log, if_pos (And.intro halive hidle), hpasses, hmulti, push, hq]
      rfl
  | release hc hq =>
      simp only [AsyncLogger.step, advance_caller, hc, push, hq]
      rfl
  | @access i entry e q hc hq he =>
      simp only [AsyncLogger.step, advance_caller, hc, hq]
      cases e with
      | pushed ok => exact absurd rfl (he ok)
      | ongoing | popped ret => rfl
  | pushed hc hq =>
      simp only [AsyncLogger.step, advance_caller, hc, hq]
      rfl
  | request_stop halive hidle =>
      simp only [AsyncLogger.step, destroy, halive, if_pos hidle]
      rfl
  | release_stop ho =>
      simp only [AsyncLogger.step, destroy, ho]
      rfl
  | join ho hfinished =>
      simp only [AsyncLogger.step, destroy, ho, if_pos hfinished]
      rfl
  | check ht =>
      simp only [AsyncLogger.step, advance_thread, ht]
      rfl
  | @read f e q ht hq he =>
      simp only [AsyncLogger.step, advance_thread, ht, hq]
      cases e with
      | popped ret => exact absurd rfl (he ret)
      | ongoing | pushed ok => rw [← ht]; rfl
  | nothing ht hq | message ht hq =>
      simp only [AsyncLogger.step, advance_thread, ht, hq]
      rfl
  | sink ht =>
      simp only [AsyncLogger.step, advance_thread, ht]
      rfl
  | acquire ht hpos =>
      simp only [AsyncLogger.step, advance_thread, ht, if_pos hpos]
      rfl

end AsyncLogger

end Hyperion
