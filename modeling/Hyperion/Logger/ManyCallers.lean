/-
What reaches the sinks of an asynchronous logger with many callers.

The entries have one order, that of the positions their pushes claimed.  A claim lies between
the call and its return, so that each caller's entries are in the order of its calls, and what
was logged after another call had returned comes behind that call's entry.

When the destructor has returned as many entries were handed to the sinks as were accepted,
whatever the order of the threads' accesses: the thread finds nothing to read only when it has
read as often as was published, and nobody is in a call by then.  That these are the entries
accepted, and in that order, is so where no publication made a position readable that was yet
to be written.
-/
import Hyperion.Logger.Delivery
import Hyperion.Logger.Shutdown
import Hyperion.LockFreeQueue.SingleProducer

namespace Hyperion.AsyncLogger

open LockFreeQueue

variable {ι : Type} [DecidableEq ι] {p : AsyncParameters} {T : QueueElement Entry}

/-! ### What the callers see -/

/-- What is one caller's. -/
def by_caller {β : Type} (i : ι) (l : List (ι × β)) : List β :=
  (l.filter fun x => x.1 = i).map Prod.snd

theorem by_caller_append {β : Type} (i : ι) (l m : List (ι × β)) :
    by_caller i (l ++ m) = by_caller i l ++ by_caller i m := by
  rw [by_caller, List.filter_append, List.map_append]
  rfl

theorem by_caller_self {β : Type} (i : ι) (l : List β) : by_caller i (l.map (i, ·)) = l := by
  unfold by_caller
  rw [List.filter_eq_self.mpr (by simp), List.map_map]
  exact List.map_id l

theorem by_caller_of_ne {β : Type} {i j : ι} (h : j ≠ i) (l : List β) :
    by_caller j (l.map (i, ·)) = [] := by
  unfold by_caller
  rw [List.filter_eq_nil_iff.mpr (by simp [Ne.symm h])]
  rfl

/-- The call that returned in a step, if one did: by whom, of what, and whether it succeeded. -/
def answered (s : AsyncLogger ι) (a : Action ι) (s' : AsyncLogger ι) :
    List (ι × Entry × Bool) :=
  match a with
  | .log i _ | .caller i => (s'.returns.drop s.returns.length).map (i, ·)
  | .destroy | .thread => []

omit [DecidableEq ι] in
theorem answered_none {s s' : AsyncLogger ι} (h : s'.returns = s.returns) (a : Action ι) :
    answered s a s' = [] := by
  cases a with
  | log i call | caller i => rw [answered, h, List.drop_length, List.map_nil]
  | destroy | thread => rfl

/-- The entries have an order that each caller agrees with. -/
structure InOneOrder (p : AsyncParameters) (s : AsyncLogger ι) (answers : List (ι × Entry × Bool))
    (order : List (ι × Entry)) : Prop where
  in_push : ∀ i, InPush p (s.caller i) (s.m_queue.producer i)
  claims : order.map Prod.snd = s.m_queue.claims
  calls : ∀ i, by_caller i order = accepted p (by_caller i answers) ++
    in_flight (s.caller i) (s.m_queue.producer i)
  blocking : p.ASYNC_POLICY = .BlockWhenFull → ∀ a ∈ answers, a.2.2 = true

theorem InOneOrder.start (p : AsyncParameters) (T : QueueElement Entry) (sinks : List Sink) :
    InOneOrder p (start p T sinks : AsyncLogger ι) [] [] :=
  ⟨fun _ => trivial, rfl, fun _ => rfl, fun _ _ ha => (by cases ha)⟩

/-- Steps of others leave the callers alone. -/
theorem InOneOrder.congr {s s' : AsyncLogger ι} {answers : List (ι × Entry × Bool)}
    {order : List (ι × Entry)} (h : InOneOrder p s answers order) (hcaller : s'.caller = s.caller)
    (hproducer : s'.m_queue.producer = s.m_queue.producer)
    (hclaims : s'.m_queue.claims = s.m_queue.claims) : InOneOrder p s' answers order := by
  obtain ⟨hin, horder, hcalls, hblocking⟩ := h
  refine ⟨?_, horder.trans hclaims.symm, ?_, hblocking⟩
  · rw [hcaller, hproducer]
    exact hin
  · rw [hcaller, hproducer]
    exact hcalls

/-- **A caller makes a step**: it may claim a position for its entry, or return. -/
theorem InOneOrder.moves {s s' : AsyncLogger ι} {answers : List (ι × Entry × Bool)}
    {order : List (ι × Entry)} (h : InOneOrder p s answers order) {i : ι} {caller : Caller}
    {producer : Producer Entry} (claimed : List Entry) (returned : List (Entry × Bool))
    (hcaller : s'.caller = Function.update s.caller i caller)
    (hproducer : s'.m_queue.producer = Function.update s.m_queue.producer i producer)
    (hin : InPush p caller producer)
    (hclaims : s'.m_queue.claims = s.m_queue.claims ++ claimed)
    (hcalls : accepted p (by_caller i answers) ++
        in_flight (s.caller i) (s.m_queue.producer i) ++ claimed
      = accepted p (by_caller i answers ++ returned) ++ in_flight caller producer)
    (hblocking : p.ASYNC_POLICY = .BlockWhenFull → ∀ r ∈ returned, r.2 = true) :
    InOneOrder p s' (answers ++ returned.map (i, ·)) (order ++ claimed.map (i, ·)) := by
  refine ⟨fun j => ?_, ?_, fun j => ?_, fun hblock a ha => ?_⟩
  · rw [hcaller, hproducer]
    by_cases hj : j = i
    · subst hj
      rw [Function.update_self, Function.update_self]
      exact hin
    · rw [Function.update_of_ne hj, Function.update_of_ne hj]
      exact h.in_push j
  · rw [List.map_append, h.claims, hclaims, List.map_map]
    exact congrArg (s.m_queue.claims ++ ·) (List.map_id claimed)
  · rw [by_caller_append, by_caller_append, hcaller, hproducer]
    by_cases hj : j = i
    · subst hj
      rw [Function.update_self, Function.update_self, by_caller_self, by_caller_self, h.calls j]
      exact hcalls
    · rw [Function.update_of_ne hj, Function.update_of_ne hj, by_caller_of_ne hj,
        by_caller_of_ne hj, List.append_nil, List.append_nil]
      exact h.calls j
  · rcases List.mem_append.mp ha with ha | ha
    · exact h.blocking hblock a ha
    · obtain ⟨r, hr, rfl⟩ := List.mem_map.mp ha
      exact hblocking hblock r hr

/-- A caller makes a step and neither claims a position nor returns. -/
theorem InOneOrder.goes_on {s s' : AsyncLogger ι} {answers : List (ι × Entry × Bool)}
    {order : List (ι × Entry)} (h : InOneOrder p s answers order) {i : ι} {caller : Caller}
    {producer : Producer Entry} (hcaller : s'.caller = Function.update s.caller i caller)
    (hproducer : s'.m_queue.producer = Function.update s.m_queue.producer i producer)
    (hin : InPush p caller producer) (hclaims : s'.m_queue.claims = s.m_queue.claims)
    (hflight : in_flight caller producer = in_flight (s.caller i) (s.m_queue.producer i)) :
    InOneOrder p s' answers order := by
  have hmoves := h.moves [] [] hcaller hproducer hin (by rw [hclaims, List.append_nil])
    (by rw [List.append_nil, List.append_nil, hflight]) (fun _ r hr => by cases hr)
  rwa [List.map_nil, List.map_nil, List.append_nil, List.append_nil] at hmoves

/-- A call of `push` begins. -/
theorem InOneOrder.push_begins {s s' : AsyncLogger ι} {answers : List (ι × Entry × Bool)}
    {order : List (ι × Entry)} (h : InOneOrder p s answers order) {i : ι} {entry : Entry}
    (hpasses : p.passes entry = true) {e : Event Entry}
    (hq : s.m_queue.step T (.call i p.get_queue_policy.push entry) = some (e, s'.m_queue))
    (hcaller : s'.caller = Function.update s.caller i (.pushing entry))
    (hflight : in_flight (s.caller i) (s.m_queue.producer i) = []) :
    InOneOrder p s' answers order := by
  obtain ⟨producer, hproducer, hclaims, hin⟩ : ∃ producer,
      s'.m_queue.producer = Function.update s.m_queue.producer i producer ∧
      s'.m_queue.claims = s.m_queue.claims ∧
      producer = .called p.get_queue_policy.push entry := by
    generalize s'.m_queue = q at hq
    cases System.step_cases hq with
    | call hidle => exact ⟨_, rfl, rfl, rfl⟩
  subst hin
  exact h.goes_on hcaller hproducer ⟨hpasses, rfl, rfl⟩ hclaims hflight.symm

/-- **A push makes an access and does not return**; it may claim a position. -/
theorem InOneOrder.push_goes_on {s : AsyncLogger ι} {answers : List (ι × Entry × Bool)}
    {order : List (ι × Entry)} (h : InOneOrder p s answers order)
    (hpolicy : p.ASYNC_POLICY ≠ .OverwriteWhenFull) {i : ι} {entry : Entry}
    (hc : s.caller i = .pushing entry) {e : Event Entry} {q : System ι Entry}
    (hq : s.m_queue.step T (.advance i) = some (e, q)) (he : ∀ ok, e ≠ .pushed ok) :
    ∃ more, InOneOrder p { s with m_queue := q } answers (order ++ more) := by
  have hsame : s.caller = Function.update s.caller i (.pushing entry) := by
    rw [← hc, Function.update_eq_self]
  have hin := h.in_push i
  rw [hc] at hin
  -- only a claim adds to the order
  have hnone : ∀ {q : System ι Entry} {producer : Producer Entry},
      q.producer = Function.update s.m_queue.producer i producer →
      InPush p (.pushing entry) producer → q.claims = s.m_queue.claims →
      in_flight (.pushing entry) producer = in_flight (.pushing entry) (s.m_queue.producer i) →
      ∃ more, InOneOrder p { s with m_queue := q } answers (order ++ more) := by
    intro q producer hproducer hin' hclaims hflight
    rw [← hc] at hflight
    refine ⟨[], ?_⟩
    rw [List.append_nil]
    exact h.goes_on hsame hproducer hin' hclaims
      (by rw [← hc]; exact hflight)
  cases System.step_cases hq with
  | enter hp =>
      rw [hp] at hin
      exact hnone (q := { s.m_queue.moved i _ s.m_queue.queue.size_fetch_add.2 with
        admissions := s.m_queue.admissions + 1 }) rfl ⟨hin.1, hin.2.1⟩ rfl (by rw [hp]; rfl)
  | refuse hp =>
      rw [hp] at hin
      exact hnone rfl hin rfl (by rw [hp]; rfl)
  | wait hp =>
      rw [hp] at hin
      exact hnone rfl hin rfl (by rw [hp]; rfl)
  | give_up hp => exact absurd rfl (he false)
  | overwrite hp hpush =>
      rw [hp] at hin
      rw [hin.2.2] at hpush
      exact absurd hpush (push_unforced hpolicy)
  | retract hp =>
      rw [hp] at hin
      exact hin.elim
  | @claim _ v hp =>
      rw [hp] at hin
      have hflight : in_flight (s.caller i) (s.m_queue.producer i) = [] := by
        rw [hc, hp]
        rfl
      have hmoves : InOneOrder p { s with m_queue := { s.m_queue.moved i
          (.claimed v s.m_queue.queue.m_write) s.m_queue.queue.write_fetch_add.2 with
            claims := s.m_queue.claims ++ [v] } } (answers ++ [].map (i, ·))
          (order ++ [v].map (i, ·)) :=
        h.moves [v] [] hsame rfl hin rfl
          (by rw [hflight, List.append_nil, List.append_nil, hin.2]; rfl)
          (fun _ r hr => by cases hr)
      rw [List.map_nil, List.append_nil] at hmoves
      exact ⟨_, hmoves⟩
  | write hp =>
      rw [hp] at hin
      exact hnone rfl hin.1 rfl (by rw [hp]; rfl)
  | publish hp => exact absurd rfl (he true)

/-- **A push returns.** -/
theorem InOneOrder.push_returns {s : AsyncLogger ι} {answers : List (ι × Entry × Bool)}
    {order : List (ι × Entry)} (h : InOneOrder p s answers order) {i : ι} {entry : Entry}
    (hc : s.caller i = .pushing entry) {ok : Bool} {q : System ι Entry}
    (hq : s.m_queue.step T (.advance i) = some (.pushed ok, q)) {returns : List (Entry × Bool)} :
    InOneOrder p
      { s with m_queue := q, caller := Function.update s.caller i .idle, returns := returns }
      (answers ++ [(i, entry, ok)]) order := by
  have hin := h.in_push i
  rw [hc] at hin
  obtain ⟨hproducer, hclaims, hcalls, hok⟩ :
      q.producer = Function.update s.m_queue.producer i .idle ∧ q.claims = s.m_queue.claims ∧
      accepted p (by_caller i answers) ++ in_flight (s.caller i) (s.m_queue.producer i)
        = accepted p (by_caller i answers ++ [(entry, ok)]) ∧
      (p.ASYNC_POLICY = .BlockWhenFull → ok = true) := by
    cases System.step_cases hq with
    | give_up hp hpush =>
        rw [hp] at hin
        refine ⟨rfl, rfl, ?_, fun hblock => ?_⟩
        · rw [accepted_append_of_not (Bool.and_false _), hc, hp]
          exact List.append_nil _
        · rw [hin.2.2, AsyncParameters.get_queue_policy, hblock] at hpush
          cases hpush
    | publish hp =>
        rw [hp] at hin
        refine ⟨rfl, rfl, ?_, fun _ => rfl⟩
        rw [accepted_append (by rw [hin]; rfl), hc, hp]
        rfl
  have hmoves : InOneOrder p
      { s with m_queue := q, caller := Function.update s.caller i .idle, returns := returns }
      (answers ++ [(entry, ok)].map (i, ·)) (order ++ [].map (i, ·)) :=
    h.moves [] [(entry, ok)] rfl hproducer trivial (by rw [hclaims, List.append_nil])
      (by rw [List.append_nil, hcalls]; exact (List.append_nil _).symm)
      (fun hblock r hr => by rw [List.mem_singleton.mp hr]; exact hok hblock)
  rwa [List.map_nil, List.append_nil] at hmoves

/-- **Every step keeps the order**, and may add to its end. -/
theorem InOneOrder.step {s s' : AsyncLogger ι} {answers : List (ι × Entry × Bool)}
    {order : List (ι × Entry)} (h : InOneOrder p s answers order)
    (hpolicy : p.ASYNC_POLICY ≠ .OverwriteWhenFull) {a : Action ι} (hmove : Move p T s a s') :
    ∃ more, InOneOrder p s' (answers ++ answered s a s') (order ++ more) := by
  have hgrows : ∀ {more}, InOneOrder p s' answers (order ++ more) → s'.returns = s.returns →
      ∃ more, InOneOrder p s' (answers ++ answered s a s') (order ++ more) := by
    intro more hmore hreturns
    refine ⟨more, ?_⟩
    rw [answered_none hreturns, List.append_nil]
    exact hmore
  have hstays : InOneOrder p s' answers order → s'.returns = s.returns →
      ∃ more, InOneOrder p s' (answers ++ answered s a s') (order ++ more) := by
    intro hsame hreturns
    rw [← List.append_nil order] at hsame
    exact hgrows hsame hreturns
  have hpopped : ∀ {q e}, s.m_queue.step T .pop = some (e, q) →
      q.producer = s.m_queue.producer ∧ q.claims = s.m_queue.claims := by
    intro q e hq
    obtain ⟨hproducer, hclaims, -⟩ := System.pop_keeps hq
    exact ⟨hproducer, hclaims⟩
  cases hmove with
  | @filtered i call halive hidle hlow =>
      refine ⟨[], ?_⟩
      have hmoves : InOneOrder p { s with returns := s.returns ++ [(call.entry, true)] }
          (answers ++ [(call.entry, true)].map (i, ·)) (order ++ [].map (i, ·)) :=
        h.moves [] [(call.entry, true)] (Function.update_eq_self i s.caller).symm
          (Function.update_eq_self i s.m_queue.producer).symm (h.in_push i)
          (List.append_nil _).symm
          (by rw [accepted_append_of_not (by rw [hlow]; rfl), List.append_nil])
          (fun _ r hr => by rw [List.mem_singleton.mp hr])
      have hanswered : answered s (.log i call)
          { s with returns := s.returns ++ [(call.entry, true)] } = [(i, call.entry, true)] := by
        simp [answered]
      rw [hanswered]
      exact hmoves
  | @signal i call halive hidle hpasses =>
      have hin := h.in_push i
      rw [hidle] at hin
      have hproducer := hin.of_idle
      refine hstays (h.goes_on (i := i) rfl (Function.update_eq_self i s.m_queue.producer).symm
        ?_ rfl ?_) rfl
      · rw [hproducer]
        exact hpasses
      · rw [hproducer, hidle]
        rfl
  | @enqueue i call _ _ halive hidle hpasses hmulti hq =>
      refine hstays (h.push_begins hpasses hq rfl ?_) rfl
      rw [hidle]
      rfl
  | @release i entry _ _ hc hq =>
      have hin := h.in_push i
      rw [hc] at hin
      refine hstays (h.push_begins hin.of_signalling.2 hq rfl ?_) rfl
      rw [hc]
      rfl
  | access hc hq he =>
      obtain ⟨more, hmore⟩ := h.push_goes_on hpolicy hc hq he
      exact hgrows hmore rfl
  | @pushed i entry ok q hc hq =>
      refine ⟨[], ?_⟩
      have hanswered : answered s (.caller i)
          { s with
            m_queue := q
            caller := Function.update s.caller i .idle
            returns := s.returns ++ [(entry, ok)] } = [(i, entry, ok)] := by
        simp [answered]
      rw [hanswered, List.append_nil]
      exact h.push_returns hc hq
  | request_stop | release_stop | join | check | sink | acquire =>
      exact hstays (h.congr rfl rfl rfl) rfl
  | read _ hq | nothing _ hq | message _ hq =>
      obtain ⟨hproducer, hclaims⟩ := hpopped hq
      exact hstays (h.congr rfl hproducer hclaims) rfl

/-! ### What the thread hands over -/

/-- A pop that finds nothing has found the queue empty. -/
theorem all_read [Fintype ι] {q q' : System ι Entry} (hbounded : q.Bounded)
    (hfew : q.admissions < 2 ^ 32 - 1) (hq : q.step T .pop = some (.popped none, q')) :
    q' = q ∧ q.consumer = .idle ∧ q.returned.length = q.publications := by
  cases System.step_cases hq with
  | nothing hc hread =>
      refine ⟨rfl, hc, ?_⟩
      have hclaimed := hbounded.counted.claimed
      have hempty := congrArg List.length (System.nil_of_nothing hbounded hfew hc hread)
      rw [System.length_contents (by omega), List.length_nil] at hempty
      have hfed := hbounded.fed
      rw [System.Fed, hc] at hfed
      simp only [Consumer.taking, Nat.add_zero] at hfed
      omega

/-- What was read was handed to the sinks; and it is all there was, at the end. -/
structure HandsOver (sinks : List Sink) (s : AsyncLogger ι) : Prop where
  read : s.m_queue.returned = s.handed.map some ++ carried s.thread
  sinks : s.m_sinks = s.handed.foldl sink_all sinks
  consumer : s.thread.in_read = false → s.m_queue.consumer = .idle
  finished : s.thread = .finished → s.m_queue.returned.length = s.m_queue.publications

omit [DecidableEq ι] in
theorem HandsOver.start (p : AsyncParameters) (T : QueueElement Entry) (sinks : List Sink) :
    HandsOver sinks (start p T sinks : AsyncLogger ι) :=
  ⟨rfl, rfl, fun _ => rfl, nofun⟩

omit [DecidableEq ι] in
/-- A caller's step, before the destructor. -/
theorem HandsOver.caller_moves {sinks : List Sink} {s s' : AsyncLogger ι}
    (h : HandsOver sinks s) (hshape : InShape s) (halive : s.owner = .alive)
    (hthread : s'.thread = s.thread) (hsinks : s'.m_sinks = s.m_sinks)
    (hhanded : s'.handed = s.handed)
    (hqueue : s'.m_queue.returned = s.m_queue.returned ∧
      s'.m_queue.consumer = s.m_queue.consumer) : HandsOver sinks s' := by
  refine ⟨?_, ?_, ?_, fun hfinished => ?_⟩
  · rw [hqueue.1, hhanded, hthread]
    exact h.read
  · rw [hsinks, hhanded]
    exact h.sinks
  · rw [hthread, hqueue.2]
    exact h.consumer
  · have hrunning := hshape.running halive
    rw [← hthread, hfinished] at hrunning
    cases hrunning

/-- **Every step keeps the thread's account.** -/
theorem HandsOver.step [Fintype ι] {sinks : List Sink} {s s' : AsyncLogger ι}
    (h : HandsOver sinks s) (hshape : InShape s) (hbounded : s.m_queue.Bounded)
    (hfew : s.m_queue.admissions < 2 ^ 32 - 1) {a : Action ι} (hmove : Move p T s a s') :
    HandsOver sinks s' := by
  have halive : ∀ {i}, s.caller i ≠ .idle → s.owner = .alive := by
    intro i hbusy
    by_contra hstopped
    exact hbusy (hshape.callers hstopped i)
  have hcalled : ∀ {i caller signal returns q b e}, s.owner = .alive →
      s.m_queue.step T b = some (e, q) → b ≠ .pop →
      HandsOver sinks { s with
        m_queue := q
        caller := Function.update s.caller i caller
        m_signal := signal
        returns := returns } := by
    intro i caller signal returns q b e ho hq hb
    exact h.caller_moves hshape ho rfl rfl rfl (System.producer_keeps hq hb)
  obtain ⟨hread, hsinks, hconsumer, hfinished⟩ := h
  cases hmove with
  | filtered | signal | request_stop | release_stop | join =>
      exact ⟨hread, hsinks, hconsumer, hfinished⟩
  | enqueue ho _ _ _ hq => exact hcalled ho hq nofun
  | release hc hq => exact hcalled (halive (by rw [hc]; nofun)) hq nofun
  | access hc hq =>
      exact HandsOver.caller_moves ⟨hread, hsinks, hconsumer, hfinished⟩ hshape
        (halive (by rw [hc]; nofun)) rfl rfl rfl (System.producer_keeps hq nofun)
  | pushed hc hq => exact hcalled (halive (by rw [hc]; nofun)) hq nofun
  | check ht =>
      rw [ht] at hread
      exact ⟨hread, hsinks, nofun, nofun⟩
  | read ht hq he =>
      rw [ht] at hread
      exact ⟨(System.read_goes_on hq he).trans hread, hsinks, nofun, nofun⟩
  | @nothing f q ht hq =>
      obtain ⟨rfl, hidle, hall⟩ := all_read hbounded hfew hq
      rw [ht] at hread
      refine ⟨?_, hsinks, fun _ => hidle, fun _ => hall⟩
      cases f <;> exact hread
  | @message f ret q ht hq =>
      rw [ht] at hread
      cases System.step_cases hq with
      | release hc =>
          refine ⟨?_, hsinks, fun _ => rfl, nofun⟩
          show s.m_queue.returned ++ [ret] = s.handed.map some ++ [ret]
          rw [hread]
          exact congrArg (· ++ [ret]) (List.append_nil _)
  | @sink f e ht =>
      rw [ht] at hread hconsumer
      refine ⟨?_, ?_, fun _ => hconsumer rfl, ?_⟩
      · show s.m_queue.returned = (s.handed ++ [e]).map some ++ carried (after_sink f)
        rw [hread, List.map_append]
        cases f <;> exact (List.append_nil _).symm
      · show sink_all s.m_sinks e = (s.handed ++ [e]).foldl sink_all sinks
        rw [hsinks, List.foldl_append]
        rfl
      · cases f <;> nofun
  | acquire ht hpos =>
      rw [ht] at hread hconsumer
      exact ⟨hread, hsinks, fun _ => hconsumer rfl, nofun⟩

/-! ### The whole run -/

/-- The publication that a caller makes is of a position that was written. -/
def publishes_written (s : AsyncLogger ι) (a : Action ι) : Prop :=
  ∀ i, a = .caller i → s.m_queue.producer i = .written →
    ∀ j v, s.m_queue.producer j ≠ .claimed v s.m_queue.queue.m_max_read

/-- It has yet to write position `k`. -/
def is_to_write (k : Nat) : Producer Entry → Bool
  | .claimed _ write => write == k
  | _ => false

omit [DecidableEq ι] in
theorem publishes_written_caller (s : AsyncLogger ι) (i : ι) : publishes_written s (.caller i) ↔
    (s.m_queue.producer i = .written →
      ∀ j, is_to_write s.m_queue.queue.m_max_read (s.m_queue.producer j) = false) := by
  constructor
  · intro h hp j
    cases hj : s.m_queue.producer j with
    | claimed v write =>
        have hne := h i rfl hp j v
        rw [hj] at hne
        exact beq_false_of_ne fun heq => hne (by rw [heq])
    | idle | called | refused | retracting | admitted | written => rfl
  · intro h j hij hp k v hk
    cases hij
    have hfalse := h hp k
    rw [hk, is_to_write, beq_self_eq_true] at hfalse
    cases hfalse

instance (c : Producer Entry) : Decidable (c = .written) :=
  match c with
  | .written => .isTrue rfl
  | .idle | .called _ _ | .refused _ _ | .retracting _ | .admitted _ | .claimed _ _ =>
      .isFalse fun h => by cases h

instance [Fintype ι] (s : AsyncLogger ι) (a : Action ι) : Decidable (publishes_written s a) :=
  match a with
  | .caller i => decidable_of_iff _ (publishes_written_caller s i).symm
  | .log _ _ | .destroy | .thread => .isTrue fun _ h => by cases h

/-- A step of the queue that the logger makes. -/
theorem Move.queue_written {s s' : AsyncLogger ι} {a : Action ι} (h : Move p T s a s')
    (hpolicy : p.ASYNC_POLICY ≠ .OverwriteWhenFull) (hwritten : publishes_written s a) :
    s'.m_queue = s.m_queue ∨
      ∃ b e, s.m_queue.publishes_written b ∧ s.m_queue.step T b = some (e, s'.m_queue) := by
  cases h with
  | filtered | signal | request_stop | release_stop | join | check | sink | acquire =>
      exact .inl rfl
  | enqueue _ _ _ _ hq | release _ hq =>
      refine .inr ⟨_, _, ?_, hq⟩
      exact ⟨push_unforced hpolicy, fun _ hj => by cases hj⟩
  | @access i _ _ _ _ hq | @pushed i _ _ _ _ hq =>
      refine .inr ⟨_, _, ?_, hq⟩
      refine ⟨trivial, fun j hj => ?_⟩
      cases hj
      exact hwritten i rfl
  | read _ hq | nothing _ hq | message _ hq =>
      refine .inr ⟨_, _, ?_, hq⟩
      exact ⟨trivial, fun _ hj => by cases hj⟩

variable [Fintype ι]

/-- A step, with what is seen of it. -/
def observed (p : AsyncParameters) (T : QueueElement Entry) (s : AsyncLogger ι) (a : Action ι) :
    Option (List (ι × Entry × Bool) × AsyncLogger ι) :=
  (step p T s a).map fun r => (answered s a r.2, r.2)

theorem observed_cases {s s' : AsyncLogger ι} {a : Action ι} {seen : List (ι × Entry × Bool)}
    (h : observed p T s a = some (seen, s')) : Move p T s a s' ∧ seen = answered s a s' := by
  obtain ⟨r, hr, hpair⟩ := Option.map_eq_some_iff.mp h
  obtain ⟨rfl, rfl⟩ := Prod.mk.inj hpair
  exact ⟨step_cases hr, rfl⟩

/-- **A run adds to the order**, at its end. -/
theorem InOneOrder.run (hpolicy : p.ASYNC_POLICY ≠ .OverwriteWhenFull) {s s' : AsyncLogger ι}
    {as : List (Action ι)} {seen : List (List (ι × Entry × Bool))}
    (hrun : Machine.Run (observed p T) any s as seen s') :
    ∀ {answers order}, InOneOrder p s answers order →
      ∃ more, InOneOrder p s' (answers ++ seen.flatten) (order ++ more) := by
  induction hrun with
  | nil s =>
      intro answers order h
      refine ⟨[], ?_⟩
      rw [List.flatten_nil, List.append_nil, List.append_nil]
      exact h
  | cons _ hstep _ ih =>
      intro answers order h
      obtain ⟨hmove, rfl⟩ := observed_cases hstep
      obtain ⟨more, hmore⟩ := h.step hpolicy hmove
      obtain ⟨rest, hrest⟩ := ih hmore
      refine ⟨more ++ rest, ?_⟩
      rw [List.flatten_cons, ← List.append_assoc, ← List.append_assoc]
      exact hrest

/-- The queue is within its bounds, and the thread's account is right, in every state. -/
theorem hands_over_run {sinks : List Sink} (hpos : 0 < p.capacity)
    (hpolicy : p.ASYNC_POLICY ≠ .OverwriteWhenFull)
    (hwide : System.Wide p.capacity (Fintype.card ι)) {as : List (Action ι)}
    {seen : List (List (ι × Entry × Bool))} {s : AsyncLogger ι}
    (hrun : Machine.Run (observed p T) any (start p T sinks) as seen s)
    (hfew : s.m_queue.admissions < 2 ^ 32 - 1) :
    InShape s ∧ s.m_queue.Bounded ∧ HandsOver sinks s := by
  have hall := hrun.invariant (P := fun s => InShape s ∧ (s.m_queue.admissions < 2 ^ 32 - 1 →
    (s.m_queue.Bounded ∧ s.m_queue.queue.m_capacity = p.capacity) ∧ HandsOver sinks s)) ?_ ?_
  · exact ⟨hall.1, (hall.2 hfew).1.1, (hall.2 hfew).2⟩
  · intro s a seen s' ih _ hstep
    obtain ⟨hmove, -⟩ := observed_cases hstep
    refine ⟨ih.1.step hmove, fun hfew' => ?_⟩
    have hfew₀ := Nat.lt_of_le_of_lt (move_admissions_le hmove) hfew'
    obtain ⟨hbounded, hhands⟩ := ih.2 hfew₀
    refine ⟨?_, hhands.step ih.1 hbounded.1 hfew₀ hmove⟩
    rcases hmove.queue hpolicy with hsame | ⟨b, e, hordinary, hq⟩
    · rw [hsame]
      exact hbounded
    · exact System.bounded_step hwide hbounded hordinary hq hfew'
  · refine ⟨InShape.start hpos T sinks, fun _ => ⟨⟨?_, rfl⟩, HandsOver.start p T sinks⟩⟩
    exact ⟨System.counted_start T p.capacity, Nat.le_refl 0, Nat.zero_le _⟩

/-- Where publications are of written positions, the queue keeps the order of the claims. -/
theorem ordered_of_written {sinks : List Sink} (hpolicy : p.ASYNC_POLICY ≠ .OverwriteWhenFull)
    (hwide : System.Wide p.capacity (Fintype.card ι)) {as : List (Action ι)}
    {seen : List (List (ι × Entry × Bool))} {s : AsyncLogger ι}
    (hrun : Machine.Run (observed p T) publishes_written (start p T sinks) as seen s)
    (hfew : s.m_queue.admissions < 2 ^ 32 - 1) : s.m_queue.Ordered := by
  have hall := hrun.invariant (P := fun s => s.m_queue.admissions < 2 ^ 32 - 1 →
    (s.m_queue.Bounded ∧ s.m_queue.queue.m_capacity = p.capacity) ∧ s.m_queue.Ordered) ?_ ?_ hfew
  · exact hall.2
  · intro s a seen s' ih hwritten hstep hfew'
    obtain ⟨hmove, -⟩ := observed_cases hstep
    have hfew₀ := Nat.lt_of_le_of_lt (move_admissions_le hmove) hfew'
    obtain ⟨hbounded, hordered⟩ := ih hfew₀
    rcases hmove.queue_written hpolicy hwritten with hsame | ⟨b, e, hpublishes, hq⟩
    · rw [hsame]
      exact ⟨hbounded, hordered⟩
    · exact ⟨System.bounded_step hwide hbounded hpublishes.1 hq hfew',
        hordered.step hbounded.1 hfew₀ hpublishes hq⟩
  · intro _
    exact ⟨⟨⟨System.counted_start T p.capacity, Nat.le_refl 0, Nat.zero_le _⟩, rfl⟩,
      System.ordered_start T p.capacity⟩

/-- A logger whose destructor has returned: nobody is in a call, and all was read. -/
structure Settled (p : AsyncParameters) (s : AsyncLogger ι) (answers : List (ι × Entry × Bool))
    (order : List (ι × Entry)) : Prop where
  calls : ∀ i, by_caller i order = accepted p (by_caller i answers)
  handed : s.handed.length = order.length
  in_order : s.m_queue.Ordered → s.handed = order.map Prod.snd

omit [DecidableEq ι] in
theorem in_flight_of_idle {c : Caller} (h : c = .idle) (producer : Producer Entry) :
    in_flight c producer = [] := by
  rw [h]
  rfl

theorem InOneOrder.settled {sinks : List Sink} {s : AsyncLogger ι}
    {answers : List (ι × Entry × Bool)} {order : List (ι × Entry)}
    (h : InOneOrder p s answers order) (hshape : InShape s) (hbounded : s.m_queue.Bounded)
    (hhands : HandsOver sinks s) (hdestroyed : s.owner = .destroyed) :
    Settled p s answers order := by
  have hidle := hshape.callers (by rw [hdestroyed]; nofun)
  have hfinished := hshape.joined hdestroyed
  -- no push is under way, so that all that was claimed is published, and read
  have hunpublished : Threads.count Producer.unpublished s.m_queue.producer = 0 :=
    Threads.count_eq_zero fun i => by
      have hin := h.in_push i
      rw [hidle i] at hin
      rw [hin.of_idle]
      rfl
  have hclaimed := hbounded.counted.claimed
  have hpublished := hhands.finished hfinished
  have hread := hhands.read
  rw [hfinished] at hread
  have hread := hread.trans (List.append_nil _)
  have hclaims := congrArg List.length h.claims
  have hhanded := congrArg List.length hread
  rw [List.length_map] at hclaims hhanded
  refine ⟨fun i => ?_, by omega, fun hordered => ?_⟩
  · rw [h.calls i, in_flight_of_idle (hidle i), List.append_nil]
  · have hreturned := hordered.returned
    rw [List.take_of_length_le (by omega), hread, ← h.claims] at hreturned
    exact List.map_injective_iff.mpr (Option.some_injective Entry) hreturned

/--
**What many callers log is delivered in one order.**  The entries accepted have an order in
which each caller's are in the order of its calls, and which at any point of the run begins
with those of the calls that had returned by then, and with what calls in progress had put
into the queue.  When the destructor has returned the sinks were given as many entries as were
accepted; those very entries, and in that order, where every publication was of a position
that was written.
-/
theorem delivered_in_one_order {sinks : List Sink} (hpos : 0 < p.capacity)
    (hpolicy : p.ASYNC_POLICY ≠ .OverwriteWhenFull)
    (hwide : System.Wide p.capacity (Fintype.card ι)) {as bs : List (Action ι)}
    {seen seen' : List (List (ι × Entry × Bool))} {mid s : AsyncLogger ι}
    (hrun : Machine.Run (observed p T) any (start p T sinks) as seen mid)
    (hrest : Machine.Run (observed p T) any mid bs seen' s)
    (hfew : s.m_queue.admissions < 2 ^ 32 - 1) (hdestroyed : s.owner = .destroyed) :
    ∃ first rest : List (ι × Entry),
      (∀ i, by_caller i first = accepted p (by_caller i seen.flatten) ++
        in_flight (mid.caller i) (mid.m_queue.producer i)) ∧
      (∀ i, by_caller i (first ++ rest) = accepted p (by_caller i (seen ++ seen').flatten)) ∧
      (p.ASYNC_POLICY = .BlockWhenFull → ∀ a ∈ (seen ++ seen').flatten, a.2.2 = true) ∧
      s.m_sinks = sinks.map (fun k => { k with
        written := k.written ++ s.handed.filter fun e => k.m_log_level.value ≤ e.level.value }) ∧
      s.handed.length = (first ++ rest).length ∧
      (Machine.Run (observed p T) publishes_written (start p T sinks) (as ++ bs)
        (seen ++ seen') s → s.handed = (first ++ rest).map Prod.snd) := by
  obtain ⟨first, hfirst⟩ := InOneOrder.run hpolicy hrun (.start p T sinks)
  obtain ⟨rest, hlast⟩ := InOneOrder.run hpolicy hrest hfirst
  rw [List.nil_append] at hfirst hlast
  rw [List.nil_append, ← List.flatten_append] at hlast
  obtain ⟨hshape, hbounded, hhands⟩ :=
    hands_over_run hpos hpolicy hwide (hrun.append hrest) hfew
  have hsettled := hlast.settled hshape hbounded hhands hdestroyed
  refine ⟨first, rest, hfirst.calls, hsettled.calls, hlast.blocking, ?_, hsettled.handed,
    fun hwritten => ?_⟩
  · rw [hhands.sinks, foldl_sink_all]
    exact List.map_congr_left fun k _ => Sink.foldl_sink s.handed k
  · exact hsettled.in_order (ordered_of_written hpolicy hwide hwritten hfew)

/-- Two callers: the second one's entry comes first, and the first one returns last. -/
theorem delivered_in_one_order_two : ∃ (s : AsyncLogger (Fin 2)) (order : List (Fin 2 × Entry)),
    s.owner = .destroyed ∧ s.handed = order.map Prod.snd ∧
    by_caller 0 order = [⟨.INFO, "ready"⟩] ∧ by_caller 1 order = [⟨.WARN, "steady"⟩] := by
  obtain ⟨s, seen, s', hs, hrun, hlast⟩ := Machine.exists_run
    (observed ⟨.MultiThreadedAsync, .BlockWhenFull, .MESSAGE, 2⟩ Entry.element) publishes_written
    (some (start ⟨.MultiThreadedAsync, .BlockWhenFull, .MESSAGE, 2⟩ Entry.element []))
    ([.log (0 : Fin 2) (.const_ref ⟨.INFO, "ready"⟩), .log 1 (.rvalue ⟨.WARN, "steady"⟩),
      .caller 1, .caller 0, .caller 1, .caller 0, .caller 1, .caller 0, .caller 1] ++
      [.caller 0, .destroy, .destroy, .thread, .thread, .thread, .thread, .thread, .thread,
        .thread, .thread, .thread, .thread, .thread, .thread, .destroy])
    (fun r => (decide (r.2.owner = .destroyed) && (r.2.m_queue.admissions == 2)) &&
      (r.1.flatten == [(1, ⟨.WARN, "steady"⟩, true), (0, ⟨.INFO, "ready"⟩, true)] &&
        (r.1.length == 25)))
    (by decide +kernel)
  cases hs
  obtain ⟨howner, hseen⟩ := Bool.and_eq_true_iff.mp hlast
  obtain ⟨howner, hadm⟩ := Bool.and_eq_true_iff.mp howner
  obtain ⟨hseen, hlength⟩ := Bool.and_eq_true_iff.mp hseen
  have hlength := eq_of_beq hlength
  have hfew : s'.m_queue.admissions < 2 ^ 32 - 1 := by
    rw [eq_of_beq hadm]
    decide
  -- the middle of the run: the second caller has returned
  have hsplit := hrun
  rw [← List.take_append_drop 9 seen] at hsplit
  obtain ⟨mid, hfirst, hrest⟩ := hsplit.of_append (by rw [List.length_take, hlength]; rfl)
  have howner := of_decide_eq_true howner
  obtain ⟨first, rest, -, hcalls, -, -, -, hexact⟩ := delivered_in_one_order (by decide) (by nofun)
    (.inl (by decide)) hfirst.any hrest.any hfew howner
  rw [List.take_append_drop] at hcalls hexact
  rw [eq_of_beq hseen] at hcalls
  exact ⟨s', first ++ rest, howner, hexact hrun, hcalls 0, hcalls 1⟩

end Hyperion.AsyncLogger
