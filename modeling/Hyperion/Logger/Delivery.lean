/-
What reaches the sinks of an asynchronous logger with one caller.

The caller is the queue's only producer and the logging thread its consumer, so that the
thread gets what was pushed in the order of the calls.  The destructor begins after the
last call has returned, and the thread looks at the stop request before it goes into its
second loop, which it leaves when it has found the queue empty.  At that point everything
that was pushed has been read.
-/
import Hyperion.Logger.Asynchronous
import Hyperion.LockFreeQueue.Order

namespace Hyperion.AsyncLogger

open LockFreeQueue

variable {p : AsyncParameters} {T : QueueElement Entry}

/-- The entries that passed the level filter and whose push succeeded, in call order. -/
def accepted (p : AsyncParameters) (returns : List (Entry × Bool)) : List Entry :=
  (returns.filter fun r => p.passes r.1 && r.2).map Prod.fst

/-- A call whose entry was accepted. -/
theorem accepted_append {returns : List (Entry × Bool)} {entry : Entry} {ok : Bool}
    (h : (p.passes entry && ok) = true) :
    accepted p (returns ++ [(entry, ok)]) = accepted p returns ++ [entry] := by
  unfold accepted
  have hlast : [(entry, ok)].filter (fun r => p.passes r.1 && r.2) = [(entry, ok)] :=
    List.filter_cons_of_pos h
  rw [List.filter_append, hlast, List.map_append]
  rfl

/-- A call whose entry was not. -/
theorem accepted_append_of_not {returns : List (Entry × Bool)} {entry : Entry} {ok : Bool}
    (h : (p.passes entry && ok) = false) :
    accepted p (returns ++ [(entry, ok)]) = accepted p returns := by
  unfold accepted
  have hlast : [(entry, ok)].filter (fun r => p.passes r.1 && r.2) = [] :=
    List.filter_cons_of_neg (Bool.eq_false_iff.mp h)
  rw [List.filter_append, hlast, List.append_nil]

/-! ### The queue -/

/-- Only with `OverwriteWhenFull` are pushes forced. -/
theorem push_unforced (hpolicy : p.ASYNC_POLICY ≠ .OverwriteWhenFull) :
    p.get_queue_policy.push.when_full ≠ .overwrite := by
  unfold AsyncParameters.get_queue_policy
  cases hp : p.ASYNC_POLICY with
  | OverwriteWhenFull => exact absurd hp hpolicy
  | DropWhenFull | BlockWhenFull => nofun

/-- A step of the logger is a step of its queue, or leaves the queue alone. -/
theorem Move.queue {ι : Type} [DecidableEq ι] {s s' : AsyncLogger ι} {a : Action ι} (h : Move p T s a s')
    (hpolicy : p.ASYNC_POLICY ≠ .OverwriteWhenFull) : s'.m_queue = s.m_queue ∨
      ∃ b e, s.m_queue.ordinary b ∧ s.m_queue.step T b = some (e, s'.m_queue) := by
  cases h with
  | filtered | signal | request_stop | release_stop | join | check | sink | acquire =>
      exact .inl rfl
  | enqueue _ _ _ _ hq | release _ hq =>
      refine .inr ⟨_, _, ?_, hq⟩
      exact push_unforced hpolicy
  | access _ hq | pushed _ hq | read _ hq | nothing _ hq | message _ hq =>
      refine .inr ⟨_, _, ?_, hq⟩
      trivial

/-- The queue of a logger with one caller. -/
structure QueueInOrder (p : AsyncParameters) (s : AsyncLogger Unit) : Prop where
  bounded : s.m_queue.Bounded ∧ s.m_queue.queue.m_capacity = p.capacity
  ordered : s.m_queue.Ordered

theorem QueueInOrder.start (p : AsyncParameters) (T : QueueElement Entry) (sinks : List Sink) :
    QueueInOrder p (start p T sinks) :=
  ⟨⟨⟨System.counted_start T p.capacity, Nat.le_refl 0, Nat.zero_le _⟩, rfl⟩,
    System.ordered_start T p.capacity⟩

/-- With one producer every queue is wide. -/
theorem wide_one (p : AsyncParameters) : System.Wide p.capacity (Fintype.card Unit) := by
  have hlt : p.capacity < 2 ^ 32 := Nat.mod_lt _ (Nat.two_pow_pos 32)
  rw [Fintype.card_unit]
  exact .inl hlt

theorem QueueInOrder.step {s s' : AsyncLogger Unit} (h : QueueInOrder p s) {a : Action Unit}
    (hpolicy : p.ASYNC_POLICY ≠ .OverwriteWhenFull) (hmove : Move p T s a s')
    (hfew : s'.m_queue.admissions < 2 ^ 32 - 1) : QueueInOrder p s' := by
  rcases hmove.queue hpolicy with hsame | ⟨b, e, hordinary, hq⟩
  · refine ⟨?_, ?_⟩
    · rw [hsame]
      exact h.bounded
    · rw [hsame]
      exact h.ordered
  · refine ⟨System.bounded_step (wide_one p) h.bounded hordinary hq hfew, ?_⟩
    exact h.ordered.step h.bounded.1 (Nat.lt_of_le_of_lt (System.admissions_le hq) hfew)
      (System.publishes_written_alone hordinary) hq

/-! ### The caller -/

/-- Where the queue's producer is while a call of `log` is where it is. -/
def InPush (p : AsyncParameters) : Caller → Producer Entry → Prop
  | .idle, .idle => True
  | .signalling entry, .idle => p.passes entry = true
  | .pushing entry, .called push value | .pushing entry, .refused push value =>
      p.passes entry = true ∧ value = entry ∧ push = p.get_queue_policy.push
  | .pushing entry, .admitted value | .pushing entry, .claimed value _ =>
      p.passes entry = true ∧ value = entry
  | .pushing entry, .written => p.passes entry = true
  | _, _ => False

/-- What a call in progress has put into the queue. -/
def in_flight : Caller → Producer Entry → List Entry
  | .pushing entry, .claimed _ _ | .pushing entry, .written => [entry]
  | _, _ => []

/-- In the queue is what was accepted, and what the call in progress has put there. -/
structure CallerInOrder (p : AsyncParameters) (s : AsyncLogger Unit) : Prop where
  in_push : InPush p (s.caller ()) (s.m_queue.producer ())
  claims : s.m_queue.claims
    = accepted p s.returns ++ in_flight (s.caller ()) (s.m_queue.producer ())
  blocking : p.ASYNC_POLICY = .BlockWhenFull → ∀ r ∈ s.returns, r.2 = true

theorem InPush.of_idle {producer : Producer Entry} (h : InPush p .idle producer) :
    producer = .idle := by
  cases producer <;> first | rfl | exact h.elim

theorem InPush.of_signalling {entry : Entry} {producer : Producer Entry}
    (h : InPush p (.signalling entry) producer) :
    producer = .idle ∧ p.passes entry = true := by
  cases producer <;> first | exact ⟨rfl, h⟩ | exact h.elim

/-- A queue after an access by a call that is in `push`. -/
structure Pushing (p : AsyncParameters) (returns : List (Entry × Bool)) (entry : Entry)
    (q : System Unit Entry) : Prop where
  in_push : InPush p (.pushing entry) (q.producer ())
  claims : q.claims = accepted p returns ++ in_flight (.pushing entry) (q.producer ())

theorem Pushing.of {returns : List (Entry × Bool)} {entry : Entry} {q : System Unit Entry}
    {producer : Producer Entry} (hproducer : q.producer () = producer)
    (hin : InPush p (.pushing entry) producer)
    (hclaims : q.claims = accepted p returns ++ in_flight (.pushing entry) producer) :
    Pushing p returns entry q := by
  subst hproducer
  exact ⟨hin, hclaims⟩

/-- A call of `push` begins. -/
theorem push_begins {q q' : System Unit Entry} {returns : List (Entry × Bool)} {entry : Entry}
    {e : Event Entry} (hpasses : p.passes entry = true) (hclaims : q.claims = accepted p returns)
    (hq : q.step T (.call () p.get_queue_policy.push entry) = some (e, q')) :
    Pushing p returns entry q' := by
  cases System.step_cases hq with
  | call hidle =>
      exact .of (System.moved_self ..) ⟨hpasses, rfl, rfl⟩
        (hclaims.trans (List.append_nil _).symm)

/-- **A push makes an access and does not return.** -/
theorem Pushing.step {q q' : System Unit Entry} {returns : List (Entry × Bool)} {entry : Entry}
    {e : Event Entry} (h : Pushing p returns entry q)
    (hpolicy : p.ASYNC_POLICY ≠ .OverwriteWhenFull)
    (hq : q.step T (.advance ()) = some (e, q')) (he : ∀ ok, e ≠ .pushed ok) :
    Pushing p returns entry q' := by
  obtain ⟨hin, hclaims⟩ := h
  cases System.step_cases hq with
  | @enter _ push v hp =>
      rw [hp] at hin hclaims
      exact .of (System.moved_self q () (.admitted v) q.queue.size_fetch_add.2) ⟨hin.1, hin.2.1⟩ hclaims
  | refuse hp =>
      rw [hp] at hin hclaims
      exact .of (System.moved_self ..) hin hclaims
  | wait hp =>
      rw [hp] at hin hclaims
      exact .of (System.moved_self ..) hin hclaims
  | give_up hp => exact absurd rfl (he false)
  | overwrite hp hpush =>
      rw [hp] at hin
      rw [hin.2.2] at hpush
      exact absurd hpush (push_unforced hpolicy)
  | retract hp =>
      rw [hp] at hin
      exact hin.elim
  | @claim _ v hp =>
      rw [hp] at hin hclaims
      refine .of (System.moved_self q () (.claimed v q.queue.m_write) q.queue.write_fetch_add.2)
        hin ?_
      show q.claims ++ [v] = accepted p returns ++ [entry]
      rw [hclaims, hin.2]
      exact congrArg (· ++ [entry]) (List.append_nil _)
  | write hp =>
      rw [hp] at hin hclaims
      exact .of (System.moved_self ..) hin.1 hclaims
  | publish hp => exact absurd rfl (he true)

/-- **A push returns**: whether the entry went into the queue. -/
theorem Pushing.returns {q q' : System Unit Entry} {returns : List (Entry × Bool)}
    {entry : Entry} {ok : Bool} (h : Pushing p returns entry q)
    (hq : q.step T (.advance ()) = some (.pushed ok, q')) :
    q'.producer () = .idle ∧ q'.claims = accepted p (returns ++ [(entry, ok)]) ∧
      (p.ASYNC_POLICY = .BlockWhenFull → ok = true) := by
  obtain ⟨hin, hclaims⟩ := h
  cases System.step_cases hq with
  | give_up hp hpush =>
      rw [hp] at hin hclaims
      refine ⟨System.moved_self .., ?_, ?_⟩
      · rw [accepted_append_of_not (Bool.and_false _)]
        exact hclaims.trans (List.append_nil _)
      · intro hblock
        rw [hin.2.2, AsyncParameters.get_queue_policy, hblock] at hpush
        cases hpush
  | publish hp =>
      rw [hp] at hin hclaims
      refine ⟨System.moved_self q () .idle q.queue.max_read_fetch_add, ?_, fun _ => rfl⟩
      rw [accepted_append (by rw [hin]; rfl)]
      exact hclaims

theorem CallerInOrder.of {s : AsyncLogger Unit} {caller : Caller} {producer : Producer Entry}
    (hc : s.caller () = caller) (hp : s.m_queue.producer () = producer)
    (hin : InPush p caller producer)
    (hclaims : s.m_queue.claims = accepted p s.returns ++ in_flight caller producer)
    (hblocking : p.ASYNC_POLICY = .BlockWhenFull → ∀ r ∈ s.returns, r.2 = true) :
    CallerInOrder p s := by
  subst hc hp
  exact ⟨hin, hclaims, hblocking⟩

/-- **Every step keeps the caller's account.** -/
theorem CallerInOrder.step {s s' : AsyncLogger Unit} (h : CallerInOrder p s) {a : Action Unit}
    (hpolicy : p.ASYNC_POLICY ≠ .OverwriteWhenFull) (hmove : Move p T s a s') :
    CallerInOrder p s' := by
  obtain ⟨hin, hclaims, hblocking⟩ := h
  have hpopped : ∀ {q e}, s.m_queue.step T .pop = some (e, q) → ∀ thread,
      CallerInOrder p { s with m_queue := q, thread := thread } := by
    intro q e hq thread
    obtain ⟨hproducer, hsame, -⟩ := System.pop_keeps hq
    refine ⟨?_, ?_, hblocking⟩
    · show InPush p (s.caller ()) (q.producer ())
      rw [hproducer]
      exact hin
    · show q.claims = accepted p s.returns ++ in_flight (s.caller ()) (q.producer ())
      rw [hproducer, hsame]
      exact hclaims
  have hblocked : ∀ {entry : Entry} {ok : Bool}, (p.ASYNC_POLICY = .BlockWhenFull → ok = true) →
      p.ASYNC_POLICY = .BlockWhenFull → ∀ r ∈ s.returns ++ [(entry, ok)], r.2 = true := by
    intro entry ok hok hblock r hr
    rcases List.mem_append.mp hr with hr | hr
    · exact hblocking hblock r hr
    · rw [List.mem_singleton.mp hr]
      exact hok hblock
  cases hmove with
  | filtered halive hidle hlow =>
      refine ⟨hin, ?_, hblocked fun _ => rfl⟩
      rw [accepted_append_of_not (by rw [hlow]; rfl)]
      exact hclaims
  | @signal _ call halive hidle hpasses hsingle =>
      rw [hidle] at hin hclaims
      have hproducer := hin.of_idle
      rw [hproducer] at hclaims
      refine .of (Function.update_self () (Caller.signalling call.entry) s.caller) hproducer
        ?_ ?_ hblocking
      · exact hpasses
      · exact hclaims
  | @enqueue _ call _ _ halive hidle hpasses hmulti hq =>
      rw [hidle] at hin hclaims
      rw [hin.of_idle] at hclaims
      obtain ⟨hin', hclaims'⟩ := push_begins hpasses (hclaims.trans (List.append_nil _)) hq
      exact .of (Function.update_self () (Caller.pushing call.entry) s.caller) rfl hin' hclaims'
        hblocking
  | @release _ entry _ _ hc hq =>
      rw [hc] at hin hclaims
      obtain ⟨hproducer, hpasses⟩ := hin.of_signalling
      rw [hproducer] at hclaims
      obtain ⟨hin', hclaims'⟩ := push_begins hpasses (hclaims.trans (List.append_nil _)) hq
      exact .of (Function.update_self () (Caller.pushing entry) s.caller) rfl hin' hclaims'
        hblocking
  | access hc hq he =>
      rw [hc] at hin hclaims
      obtain ⟨hin', hclaims'⟩ := Pushing.step ⟨hin, hclaims⟩ hpolicy hq he
      exact .of hc rfl hin' hclaims' hblocking
  | pushed hc hq =>
      rw [hc] at hin hclaims
      obtain ⟨hproducer, hclaims', hok⟩ := Pushing.returns ⟨hin, hclaims⟩ hq
      refine .of (Function.update_self () Caller.idle s.caller) hproducer ?_ ?_ (hblocked hok)
      · trivial
      · exact hclaims'.trans (List.append_nil _).symm
  | request_stop | release_stop | join | check | sink | acquire => exact ⟨hin, hclaims, hblocking⟩
  | read ht hq => exact hpopped hq _
  | nothing ht hq => exact hpopped hq _
  | message ht hq => exact hpopped hq _

/-! ### The thread -/

/-- What the thread has read and not handed to the sinks. -/
def carried : LoggingThread → List (Option Entry)
  | .sinking _ message => [message]
  | _ => []

/-- What was handed to the sinks is what was read; and it is all there was, at the end. -/
structure ThreadInOrder (sinks : List Sink) (s : AsyncLogger Unit) : Prop where
  read : s.m_queue.returned = s.handed.map some ++ carried s.thread
  sinks : s.m_sinks = s.handed.foldl sink_all sinks
  consumer : s.thread.in_read = false → s.m_queue.consumer = .idle
  callers : s.owner ≠ .alive → s.caller () = .idle
  stopped : s.thread.is_flushing = true → s.owner ≠ .alive
  finished : s.thread = .finished → s.m_queue.returned.length = s.m_queue.publications
  joined : s.owner = .destroyed → s.thread = .finished

/-- A read that finds nothing has found the queue empty. -/
theorem nothing_left {s : AsyncLogger Unit} {q : System Unit Entry} (h : QueueInOrder p s)
    (hfew : s.m_queue.admissions < 2 ^ 32 - 1)
    (hq : s.m_queue.step T .pop = some (.popped none, q)) :
    q = s.m_queue ∧ s.m_queue.consumer = .idle ∧
      s.m_queue.returned.length = s.m_queue.publications := by
  obtain ⟨hcounted, hfed, -⟩ := h.bounded.1
  cases System.step_cases hq with
  | nothing hc hread =>
      refine ⟨rfl, hc, ?_⟩
      have hadmitted := hcounted.admitted
      have hclaimed := hcounted.claimed
      have hmax := hcounted.max_read
      have hmread := hcounted.read
      rw [System.Fed, hc] at hfed
      rw [System.consumed, hc] at hmread
      simp only [Consumer.taking, Consumer.holding, Nat.add_zero] at hfed hmread
      rw [nothing_to_read, decide_eq_true_iff, hmread, u32.add_mod_left, hmax,
        Nat.mod_eq_of_lt (by omega), Nat.mod_eq_of_lt (by omega)] at hread
      omega

/-- While the logger is in use, a caller's step changes nothing for the thread. -/
theorem ThreadInOrder.caller_moves {sinks : List Sink} {s s' : AsyncLogger Unit}
    (h : ThreadInOrder sinks s) (halive : s.owner = .alive) (howner : s'.owner = s.owner)
    (hthread : s'.thread = s.thread) (hsinks : s'.m_sinks = s.m_sinks)
    (hhanded : s'.handed = s.handed)
    (hqueue : s'.m_queue.returned = s.m_queue.returned ∧
      s'.m_queue.consumer = s.m_queue.consumer) : ThreadInOrder sinks s' := by
  have hunfinished : ¬ s.thread.is_flushing = true := fun hflushing => h.stopped hflushing halive
  refine ⟨?_, ?_, ?_, ?_, ?_, ?_, ?_⟩
  · rw [hqueue.1, hhanded, hthread]
    exact h.read
  · rw [hsinks, hhanded]
    exact h.sinks
  · rw [hthread, hqueue.2]
    exact h.consumer
  · intro hstopped
    exact absurd (howner.trans halive) hstopped
  · rw [hthread]
    exact fun hflushing => absurd hflushing hunfinished
  · intro hfinished
    rw [hthread] at hfinished
    exact absurd (by rw [hfinished]; rfl) hunfinished
  · intro hdestroyed
    rw [howner, halive] at hdestroyed
    cases hdestroyed

/-- The destructor's step, which it makes after the last call has returned. -/
theorem ThreadInOrder.owner_moves {sinks : List Sink} {s : AsyncLogger Unit}
    (h : ThreadInOrder sinks s) (hidle : s.caller () = .idle) {owner : Owner} {n : Nat}
    (hstopped : owner ≠ .alive) (hjoined : owner = .destroyed → s.thread = .finished) :
    ThreadInOrder sinks { s with m_signal := n, owner := owner } :=
  ⟨h.read, h.sinks, h.consumer, fun _ => hidle, fun _ => hstopped, h.finished, hjoined⟩

/-- The thread's step, while it is running: it goes into its second loop when it is to stop. -/
theorem ThreadInOrder.thread_moves {sinks : List Sink} {s s' : AsyncLogger Unit}
    (h : ThreadInOrder sinks s) (hrunning : s.thread ≠ .finished) (howner : s'.owner = s.owner)
    (hcaller : s'.caller = s.caller)
    (hread : s'.m_queue.returned = s'.handed.map some ++ carried s'.thread)
    (hsinks : s'.m_sinks = s'.handed.foldl sink_all sinks)
    (hconsumer : s'.thread.in_read = false → s'.m_queue.consumer = .idle)
    (hstopped : s'.thread.is_flushing = true → s.owner ≠ .alive)
    (hfinished : s'.thread = .finished →
      s'.m_queue.returned.length = s'.m_queue.publications) : ThreadInOrder sinks s' := by
  refine ⟨hread, hsinks, hconsumer, ?_, ?_, hfinished, ?_⟩
  · rw [howner, hcaller]
    exact h.callers
  · rw [howner]
    exact hstopped
  · intro hdestroyed
    exact absurd (h.joined (howner ▸ hdestroyed)) hrunning

/-- **Every step keeps the thread's account.** -/
theorem ThreadInOrder.step {sinks : List Sink} {s s' : AsyncLogger Unit}
    (h : ThreadInOrder sinks s) (hqueue : QueueInOrder p s) {a : Action Unit}
    (hfew : s.m_queue.admissions < 2 ^ 32 - 1) (hmove : Move p T s a s') :
    ThreadInOrder sinks s' := by
  have halive : s.caller () ≠ .idle → s.owner = .alive := by
    intro hbusy
    by_contra hstopped
    exact hbusy (h.callers hstopped)
  cases hmove with
  | filtered ho => exact h.caller_moves ho rfl rfl rfl rfl ⟨rfl, rfl⟩
  | signal ho => exact h.caller_moves ho rfl rfl rfl rfl ⟨rfl, rfl⟩
  | enqueue ho _ _ _ hq => exact h.caller_moves ho rfl rfl rfl rfl (System.producer_keeps hq nofun)
  | release hc hq =>
      exact h.caller_moves (halive (by rw [hc]; nofun)) rfl rfl rfl rfl (System.producer_keeps hq nofun)
  | access hc hq =>
      exact h.caller_moves (halive (by rw [hc]; nofun)) rfl rfl rfl rfl (System.producer_keeps hq nofun)
  | pushed hc hq =>
      exact h.caller_moves (halive (by rw [hc]; nofun)) rfl rfl rfl rfl (System.producer_keeps hq nofun)
  | request_stop ho hidle =>
      exact h.owner_moves (Caller.of_is_idle (hidle ())) nofun nofun
  | release_stop ho => exact h.owner_moves (h.callers (by rw [ho]; nofun)) nofun nofun
  | join ho hfinished =>
      exact h.owner_moves (h.callers (by rw [ho]; nofun)) nofun fun _ => hfinished
  | check ht =>
      have hread := h.read
      rw [ht] at hread
      refine h.thread_moves (by rw [ht]; nofun) rfl rfl hread h.sinks nofun ?_ nofun
      intro hflushing
      exact of_decide_eq_true hflushing
  | read ht hq he =>
      have hread := h.read
      have hstopped := h.stopped
      rw [ht] at hread hstopped
      exact h.thread_moves (by rw [ht]; nofun) rfl rfl ((System.read_goes_on hq he).trans hread)
        h.sinks nofun hstopped nofun
  | @nothing f q ht hq =>
      obtain ⟨rfl, hconsumer, hall⟩ := nothing_left hqueue hfew hq
      have hread := h.read
      have hstopped := h.stopped
      rw [ht] at hread hstopped
      refine h.thread_moves (by rw [ht]; nofun) rfl rfl ?_ h.sinks (fun _ => hconsumer) ?_
        fun _ => hall
      · cases f <;> exact hread
      · cases f with
        | false => nofun
        | true => exact hstopped
  | @message f ret q ht hq =>
      have hread := h.read
      have hstopped := h.stopped
      rw [ht] at hread hstopped
      cases System.step_cases hq with
      | release hc =>
          refine h.thread_moves (by rw [ht]; nofun) rfl rfl ?_ h.sinks (fun _ => rfl) hstopped nofun
          show s.m_queue.returned ++ [ret] = s.handed.map some ++ [ret]
          rw [hread]
          exact congrArg (· ++ [ret]) (List.append_nil _)
  | @sink f e ht =>
      have hread := h.read
      have hstopped := h.stopped
      have hconsumer := h.consumer
      rw [ht] at hread hstopped hconsumer
      refine h.thread_moves (by rw [ht]; nofun) rfl rfl ?_ ?_ (fun _ => hconsumer rfl) ?_ ?_
      · show s.m_queue.returned = (s.handed ++ [e]).map some ++ carried (after_sink f)
        rw [hread, List.map_append]
        cases f <;> exact (List.append_nil _).symm
      · show sink_all s.m_sinks e = (s.handed ++ [e]).foldl sink_all sinks
        rw [h.sinks, List.foldl_append]
        rfl
      · cases f with
        | false => nofun
        | true => exact hstopped
      · cases f <;> nofun
  | acquire ht hpos =>
      have hread := h.read
      have hconsumer := h.consumer
      rw [ht] at hread hconsumer
      exact h.thread_moves (by rw [ht]; nofun) rfl rfl hread h.sinks (fun _ => hconsumer rfl)
        nofun nofun

/-! ### The whole run -/

theorem CallerInOrder.start (p : AsyncParameters) (T : QueueElement Entry) (sinks : List Sink) :
    CallerInOrder p (start p T sinks) :=
  ⟨trivial, rfl, fun _ _ hr => (by cases hr)⟩

theorem ThreadInOrder.start (p : AsyncParameters) (T : QueueElement Entry) (sinks : List Sink) :
    ThreadInOrder sinks (start p T sinks) :=
  ⟨rfl, rfl, fun _ => rfl, fun _ => rfl, nofun, nofun, nofun⟩

theorem move_admissions_le {ι : Type} [DecidableEq ι] {s s' : AsyncLogger ι} {a : Action ι}
    (h : Move p T s a s') : s.m_queue.admissions ≤ s'.m_queue.admissions := by
  cases h with
  | filtered | signal | request_stop | release_stop | join | check | sink | acquire =>
      exact Nat.le_refl _
  | enqueue _ _ _ _ hq | release _ hq | access _ hq | pushed _ hq | read _ hq | nothing _ hq
  | message _ hq => exact System.admissions_le hq

/-- **What holds in every state of every run.** -/
theorem in_order_run {sinks : List Sink} {as : List (Action Unit)} {os : List Unit}
    {s : AsyncLogger Unit} (hpolicy : p.ASYNC_POLICY ≠ .OverwriteWhenFull)
    (hrun : Machine.Run (step p T) (fun _ _ => True) (start p T sinks) as os s)
    (hfew : s.m_queue.admissions < 2 ^ 32 - 1) :
    QueueInOrder p s ∧ CallerInOrder p s ∧ ThreadInOrder sinks s := by
  refine hrun.invariant (P := fun s => s.m_queue.admissions < 2 ^ 32 - 1 →
    QueueInOrder p s ∧ CallerInOrder p s ∧ ThreadInOrder sinks s) ?_ ?_ hfew
  · intro s a o s' ih _ hstep hfew'
    have hmove := step_cases hstep
    have hfew₀ := Nat.lt_of_le_of_lt (move_admissions_le hmove) hfew'
    obtain ⟨hqueue, hcaller, hthread⟩ := ih hfew₀
    exact ⟨hqueue.step hpolicy hmove hfew', hcaller.step hpolicy hmove,
      hthread.step hqueue hfew₀ hmove⟩
  · intro _
    exact ⟨.start p T sinks, .start p T sinks, .start p T sinks⟩

/--
**When the destructor has returned, every accepted entry was handed to the sinks**, once
and in the order of the calls, and nothing else was; with `BlockWhenFull` every entry that
passes the level filter was accepted.
-/
theorem destroyed_delivers {sinks : List Sink} {as : List (Action Unit)} {os : List Unit}
    {s : AsyncLogger Unit} (hpolicy : p.ASYNC_POLICY ≠ .OverwriteWhenFull)
    (hrun : Machine.Run (step p T) (fun _ _ => True) (start p T sinks) as os s)
    (hfew : s.m_queue.admissions < 2 ^ 32 - 1) (hdestroyed : s.owner = .destroyed) :
    s.handed = accepted p s.returns ∧ s.m_sinks = (accepted p s.returns).foldl sink_all sinks ∧
      (p.ASYNC_POLICY = .BlockWhenFull →
        accepted p s.returns = (s.returns.map Prod.fst).filter p.passes) := by
  obtain ⟨hqueue, hcaller, hthread⟩ := in_order_run hpolicy hrun hfew
  have hfinished := hthread.joined hdestroyed
  have hidle := hthread.callers (by rw [hdestroyed]; nofun)
  have hin := hcaller.in_push
  have hclaims := hcaller.claims
  rw [hidle] at hin hclaims
  have hproducer := hin.of_idle
  rw [hproducer] at hclaims
  have hclaims := hclaims.trans (List.append_nil _)
  -- no push is under way, so that all that was claimed is published, and read
  have hunpublished : Threads.count Producer.unpublished s.m_queue.producer = 0 :=
    Threads.count_eq_zero fun i => by
      show (s.m_queue.producer ()).unpublished = false
      rw [hproducer]
      rfl
  have hpublished := hqueue.bounded.1.counted.claimed
  have hall := hthread.finished hfinished
  have hread := hthread.read
  rw [hfinished] at hread
  have hread := hread.trans (List.append_nil _)
  have hreturned := hqueue.ordered.returned
  rw [List.take_of_length_le (by omega), hread] at hreturned
  have hhanded : s.handed = accepted p s.returns := by
    rw [← hclaims]
    exact List.map_injective_iff.mpr (Option.some_injective Entry) hreturned
  refine ⟨hhanded, ?_, ?_⟩
  · rw [hthread.sinks, hhanded]
  · intro hblock
    have hok := hcaller.blocking hblock
    unfold accepted
    rw [List.filter_map, List.filter_congr]
    intro r hr
    rw [hok r hr, Bool.and_true]
    rfl

/-- One entry, logged and delivered by the destructor. -/
theorem destroyed_delivers_one : ∃ s : AsyncLogger Unit, s.owner = .destroyed ∧
    s.handed = [⟨.INFO, "ready"⟩] ∧ s.m_sinks = s.handed.foldl sink_all
      [⟨.FileSink, .MESSAGE, []⟩] := by
  obtain ⟨s, os, s', hs, hrun, hlast⟩ := Machine.exists_run
    (step ⟨.SingleThreadedAsync, .BlockWhenFull, .MESSAGE, 1⟩ Entry.element) (fun _ _ => True)
    (some (start ⟨.SingleThreadedAsync, .BlockWhenFull, .MESSAGE, 1⟩ Entry.element
      [⟨.FileSink, .MESSAGE, []⟩]))
    [.log () (.const_ref ⟨.INFO, "ready"⟩), .caller (), .caller (), .caller (), .caller (),
      .caller (), .destroy, .destroy, .thread, .thread, .thread, .thread, .thread, .thread,
      .thread, .destroy]
    (fun r => (r.2.owner == .destroyed && r.2.handed == [⟨.INFO, "ready"⟩])
      && r.2.m_queue.admissions == 1)
    (by decide +kernel)
  cases hs
  obtain ⟨hlast, hadm⟩ := Bool.and_eq_true_iff.mp hlast
  obtain ⟨howner, hhanded⟩ := Bool.and_eq_true_iff.mp hlast
  have hfew : s'.m_queue.admissions < 2 ^ 32 - 1 := by
    rw [eq_of_beq hadm]
    decide
  have hdelivers := destroyed_delivers (by nofun) hrun hfew (eq_of_beq howner)
  refine ⟨s', eq_of_beq howner, eq_of_beq hhanded, ?_⟩
  rw [hdelivers.1]
  exact hdelivers.2.1

end Hyperion.AsyncLogger
