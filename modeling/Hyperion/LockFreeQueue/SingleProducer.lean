/-
One producer and one consumer.

The queue is then as good as a list with a bound that is pushed to and popped from at
once, in whatever order the accesses of the two threads come.  A push that is admitted
happens where `m_max_read` goes up, since nobody can see the element before, and one
that gives up happens where it found `m_size` too large.  A pop that finds an element
happens where `m_size` goes down, since no push can use the room before, and one that
finds nothing happens where it compared.

With several producers this fails.  The one that publishes makes the first unpublished
element readable, which need not be its own, so it may return before its own element
can be popped.
-/
import Hyperion.LockFreeQueue.Order
import Hyperion.Lib.Atomic
import Hyperion.Lib.BoundedList

namespace Hyperion.LockFreeQueue

/-- A call of a member function. -/
inductive Operation (α : Type)
  | push (push : Push) (value : α)
  | pop_front

/--
What it returns.  A push that cannot fail returns nothing, which is `true` here, and a
pop returns the object it read, or `some none` where no object was alive.
-/
inductive Answer (α : Type)
  | pushed (ok : Bool)
  | popped (ret : Option (Option α))

/-- A bounded list that is pushed to and popped from at once. -/
def bounded_fifo {α : Type} (b : BoundedList α) : Operation α → Option (Answer α × BoundedList α)
  | .push push value =>
      match push.when_full with
      | .wait =>
          if b.items.length < b.bound then some (.pushed true, (b.tryPush value).2) else none
      | .give_up => some (.pushed (b.tryPush value).1, (b.tryPush value).2)
      | .overwrite => some (.pushed true, b.forcePush value)
  | .pop_front => some (.popped (b.popFront.1.map some), b.popFront.2)

/-- Where there is room, a push that is not forced goes in. -/
theorem bounded_fifo_push {α : Type} {b : BoundedList α} (h : b.items.length < b.bound)
    {push : Push} (hpush : push.when_full ≠ .overwrite) (v : α) :
    bounded_fifo b (.push push v) = some (.pushed true, (b.tryPush v).2) := by
  simp only [bounded_fifo]
  split
  · exact if_pos h
  · rw [(BoundedList.tryPush_of_lt h v).1]
  · rename_i hover
    exact absurd hover hpush

/-- Where there is none, a push that gives up changes nothing. -/
theorem bounded_fifo_full {α : Type} {b : BoundedList α} (h : ¬ b.items.length < b.bound)
    {push : Push} (hpush : push.when_full = .give_up) (v : α) :
    bounded_fifo b (.push push v) = some (.pushed false, b) := by
  simp only [bounded_fifo, hpush]
  rw [BoundedList.tryPush_of_full h]

namespace System

variable {ι α : Type} {T : QueueElement α}

/-- The producers, and the consumer. -/
inductive Thread (ι : Type)
  | producer (i : ι)
  | consumer
deriving DecidableEq

/-- What is seen of a step: a call begins with its first access, and a return ends it. -/
def seen (s : System ι α) : Action ι α → Event α →
    List (Atomic.Event (Thread ι) (Operation α) (Answer α))
  | .call i push value, _ => [.call (.producer i) (.push push value)]
  | .advance i, .pushed ok => [.ret (.producer i) (.pushed ok)]
  | .advance _, _ => []
  | .pop, e =>
      (match s.consumer with
        | .idle => [.call .consumer .pop_front]
        | _ => []) ++
      (match e with
        | .popped ret => [.ret .consumer (.popped ret)]
        | _ => [])

/-- A step, with what is seen of it. -/
def observed [DecidableEq ι] (T : QueueElement α) (s : System ι α) (a : Action ι α) :
    Option (List (Atomic.Event (Thread ι) (Operation α) (Answer α)) × System ι α) :=
  (step T s a).map fun r => (s.seen a r.1, r.2)

/-! ### The list a queue stands for -/

/-- What was published and not returned. -/
def contents (s : System ι α) : List α := (s.claims.take s.publications).drop s.returned.length

theorem length_contents {s : System ι α} (h : s.publications ≤ s.claims.length) :
    s.contents.length = s.publications - s.returned.length := by
  rw [contents, List.length_drop, List.length_take, Nat.min_eq_left h]

/-- The first of them. -/
theorem head?_contents {s : System ι α} (h : s.returned.length < s.publications) :
    s.contents.head? = s.claims[s.returned.length]? := by
  rw [contents, List.head?_drop, List.getElem?_take_of_lt h]

/-- Publishing puts an element at the end. -/
theorem contents_publish {s s' : System ι α} {v : α} (hv : s.claims[s.publications]? = some v)
    (hle : s.returned.length ≤ s.publications) (hclaims : s'.claims = s.claims)
    (hpublications : s'.publications = s.publications + 1) (hreturned : s'.returned = s.returned) :
    s'.contents = s.contents ++ [v] := by
  have hlen := (List.getElem?_eq_some_iff.mp hv).1
  rw [contents, contents, hclaims, hpublications, hreturned, List.take_add_one, hv,
    List.drop_append_of_le_length]
  · rfl
  · rw [List.length_take]
    omega

/-- Returning takes one from the front. -/
theorem contents_release {s s' : System ι α} {ret : Option α} (hclaims : s'.claims = s.claims)
    (hpublications : s'.publications = s.publications)
    (hreturned : s'.returned = s.returned ++ [ret]) : s'.contents = s.contents.tail := by
  rw [contents, contents, hclaims, hpublications, hreturned, List.length_append,
    List.length_singleton, List.tail_drop]

/-! ### Where the threads are -/

/-- Where a producer of the list is when a producer of the queue is there. -/
def InPush (s : System ι α) (place : Atomic.Place (Operation α) (Answer α)) : Producer α → Prop
  | .idle => place = .idle
  | .called push v => place = .called (.push push v)
  | .refused push v =>
      match push.when_full with
      | .wait => place = .called (.push push v)
      | .give_up => place = .answered (.pushed false)
      | .overwrite => False
  | .retracting _ => False
  | .admitted v | .claimed v _ =>
      ∃ push, push.when_full ≠ .overwrite ∧ place = .called (.push push v)
  | .written => ∃ push v, push.when_full ≠ .overwrite ∧ place = .called (.push push v) ∧
      s.claims[s.publications]? = some v

/-- Where the consumer of the list is. -/
def in_pop : Consumer α → Atomic.Place (Operation α) (Answer α)
  | .idle => .idle
  | _ => .called .pop_front

/-- The bounded list, and where its threads are. -/
abbrev Fifo (ι α : Type) : Type := Atomic.Config (Thread ι) (Operation α) (Answer α) (BoundedList α)

/-- **A queue and the bounded list it is as good as.** -/
structure Represents (s : System ι α) (c : Fifo ι α) : Prop where
  items : c.object.items = s.contents
  bound : c.object.bound = s.queue.m_capacity
  producer : ∀ i, InPush s (c.place (.producer i)) (s.producer i)
  consumer : c.place .consumer = in_pop s.consumer

/-- Nobody has called anything. -/
theorem represents_start (T : QueueElement α) (capacity : Nat) :
    Represents (start T capacity : System ι α) (Atomic.start (.empty capacity)) where
  items := rfl
  bound := rfl
  producer _ := rfl
  consumer := rfl

/-! ### What the counters say to a thread -/

/-- A producer that is alone and finds `m_size` too large finds the list full. -/
theorem full_of_refused [Fintype ι] [Subsingleton ι] {s : System ι α} (hbounded : Bounded s)
    (hfew : s.admissions < 2 ^ 32 - 1) {i : ι} {push : Push} {v : α}
    (hp : s.producer i = .called push v) (hfull : s.queue.m_capacity ≤ s.queue.m_size) :
    s.queue.m_capacity ≤ s.contents.length := by
  have hsize := size_mod hbounded.counted hbounded.fed
  have hadmitted := hbounded.counted.admitted
  have hclaimed := hbounded.counted.claimed
  rw [Threads.count_alone _ _ i, hp] at hsize hadmitted hclaimed
  simp only [Producer.backing_out, Producer.entering, Producer.unpublished, Bool.toNat_false]
    at hsize hadmitted hclaimed
  have hheld : s.held ≤ s.admissions := Nat.sub_le _ _
  rw [Nat.add_zero, Nat.mod_eq_of_lt (by omega)] at hsize
  rw [length_contents (by omega)]
  unfold held at hsize
  omega

/-- The consumer finds nothing to read only in an empty list. -/
theorem nil_of_nothing [Fintype ι] {s : System ι α} (hbounded : Bounded s)
    (hfew : s.admissions < 2 ^ 32 - 1) (hc : s.consumer = .idle)
    (hread : s.queue.nothing_to_read = true) : s.contents = [] := by
  have hmax := hbounded.counted.max_read
  have hcounter := hbounded.counted.read
  have hadmitted := hbounded.counted.admitted
  have hclaimed := hbounded.counted.claimed
  have hfed := hbounded.fed.consumed_le
  rw [consumed, hc] at hcounter hfed
  simp only [Consumer.holding, Nat.add_zero] at hcounter hfed
  rw [Nat.mod_eq_of_lt (by omega)] at hmax hcounter
  have hlt := of_decide_eq_true hread
  rw [u32.add_eq (by omega)] at hlt
  refine List.eq_nil_of_length_eq_zero ?_
  rw [length_contents (by omega)]
  omega

/-- Before it publishes, there is room for its element in the list. -/
theorem room_to_publish [Fintype ι] {s : System ι α} (hbounded : Bounded s) {i : ι}
    (hp : s.producer i = .written) : s.contents.length < s.queue.m_capacity := by
  have hadmitted := hbounded.counted.admitted
  have hclaimed := hbounded.counted.claimed
  have hwithin := hbounded.within
  have hfed := hbounded.fed.consumed_le
  unfold consumed at hfed
  have hone : 0 < Threads.count Producer.unpublished s.producer :=
    Threads.count_pos (i := i) (by rw [hp]; rfl)
  rw [length_contents (by omega)]
  omega

/-- What a producer that is alone has claimed, it is the next to publish. -/
theorem next_to_publish [Fintype ι] [Subsingleton ι] {s : System ι α} (hbounded : Bounded s)
    (hordered : Ordered s) {i : ι} {v : α} {k : Nat} (hp : s.producer i = .claimed v k) :
    s.claims[s.publications]? = some v := by
  have hclaim := hordered.claimed i v k hp
  have hunread := hordered.unread i v k hp
  have hlen := (List.getElem?_eq_some_iff.mp hclaim).1
  have hclaimed := hbounded.counted.claimed
  rw [Threads.count_alone _ _ i, hp] at hclaimed
  simp only [Producer.unpublished, Bool.toNat_true] at hclaimed
  have hk : k = s.publications := by omega
  rw [← hk]
  exact hclaim

/-! ### Steps -/

variable [DecidableEq ι]

/-- A producer that is alone made an access that is a step of the list's producer. -/
theorem Represents.producer_moves [Subsingleton ι] {s s' : System ι α} {c : Fifo ι α}
    (h : Represents s c) {i : ι} {place : Atomic.Place (Operation α) (Answer α)}
    {object : BoundedList α} (hitems : object.items = s'.contents)
    (hbound : object.bound = s'.queue.m_capacity) (hplace : InPush s' place (s'.producer i))
    (hconsumer : s'.consumer = s.consumer) :
    Represents s' ⟨object, Function.update c.place (.producer i) place⟩ where
  items := hitems
  bound := hbound
  producer j := by
    rw [Subsingleton.elim j i]
    show InPush s' (Function.update c.place (.producer i) place (.producer i)) _
    rw [Function.update_self]
    exact hplace
  consumer := by
    have hne : (Thread.consumer : Thread ι) ≠ .producer i := nofun
    show Function.update c.place (.producer i) place .consumer = _
    rw [Function.update_of_ne hne, hconsumer]
    exact h.consumer

omit [DecidableEq ι] in
/-- It made an access that is no step of the list's producer. -/
theorem Represents.producer_stays [Subsingleton ι] {s s' : System ι α} {c : Fifo ι α}
    (h : Represents s c) {i : ι} (hcontents : s'.contents = s.contents)
    (hcap : s'.queue.m_capacity = s.queue.m_capacity)
    (hplace : InPush s' (c.place (.producer i)) (s'.producer i))
    (hconsumer : s'.consumer = s.consumer) : Represents s' c where
  items := h.items.trans hcontents.symm
  bound := h.bound.trans hcap.symm
  producer j := by
    rw [Subsingleton.elim j i]
    exact hplace
  consumer := by
    rw [hconsumer]
    exact h.consumer

/-- The consumer made an access that is a step of the list's consumer. -/
theorem Represents.consumer_moves {s s' : System ι α} {c : Fifo ι α} (h : Represents s c)
    {object : BoundedList α} (hitems : object.items = s'.contents)
    (hbound : object.bound = s'.queue.m_capacity) (hproducer : s'.producer = s.producer)
    (hclaims : s'.claims = s.claims) (hpublications : s'.publications = s.publications) :
    Represents s' ⟨object, Function.update c.place .consumer (in_pop s'.consumer)⟩ where
  items := hitems
  bound := hbound
  producer i := by
    have hbefore := h.producer i
    have hne : (Thread.producer i : Thread ι) ≠ .consumer := nofun
    show InPush s' (Function.update c.place .consumer (in_pop s'.consumer) (.producer i)) _
    rw [Function.update_of_ne hne, hproducer]
    unfold InPush at hbefore ⊢
    rw [hclaims, hpublications]
    exact hbefore
  consumer := Function.update_self Thread.consumer _ c.place

variable [Fintype ι]

/-- **Every access is a step of the bounded list's threads, or none.** -/
theorem Represents.step [Subsingleton ι] {s s' : System ι α} {c : Fifo ι α}
    (h : Represents s c) (hbounded : Bounded s) (hordered : Ordered s)
    (hfew : s.admissions < 2 ^ 32 - 1) {a : Action ι α} {e : Event α}
    (hguard : ordinary s a) (hstep : System.step T s a = some (e, s')) :
    ∃ c', Atomic.Steps bounded_fifo c (s.seen a e) c' ∧ Represents s' c' := by
  cases step_cases hstep with
  | @call i push v hp =>
      have hplace := h.producer i
      rw [hp] at hplace
      refine ⟨_, .single (.call _ hplace), h.producer_moves h.items h.bound ?_ rfl⟩
      rw [moved_self]
      rfl
  | @enter i push v hp hroom =>
      have hplace := h.producer i
      have hunforced := hbounded.counted.unforced i
      rw [hp] at hplace hunforced
      refine ⟨c, .refl c, h.producer_stays (i := i) rfl rfl ?_ rfl⟩
      show InPush _ _ ((s.moved i (.admitted v) s.queue.size_fetch_add.2).producer i)
      rw [moved_self]
      exact ⟨push, hunforced, hplace⟩
  | @refuse i push v hp hfull =>
      have hplace := h.producer i
      have hunforced := hbounded.counted.unforced i
      rw [hp] at hplace hunforced
      cases hwhen : push.when_full with
      | wait =>
          -- it waits, and so does the list's producer
          refine ⟨c, .refl c, h.producer_stays (i := i) rfl rfl ?_ rfl⟩
          rw [moved_self]
          simp only [InPush, hwhen]
          exact hplace
      | give_up =>
          have hnone : ¬ c.object.items.length < c.object.bound := by
            have hlength := full_of_refused hbounded hfew hp hfull
            rw [h.items, h.bound]
            exact Nat.not_lt_of_le hlength
          refine ⟨_, .single (.happen hplace (bounded_fifo_full hnone hwhen v)),
            h.producer_moves h.items h.bound ?_ rfl⟩
          rw [moved_self]
          simp only [InPush, hwhen]
      | overwrite => exact absurd hwhen hunforced
  | @wait i push v hp hwhen =>
      have hplace := h.producer i
      rw [hp] at hplace
      simp only [InPush, hwhen] at hplace
      refine ⟨c, .refl c, h.producer_stays (i := i) rfl rfl ?_ rfl⟩
      rw [moved_self]
      exact hplace
  | @give_up i push v hp hwhen =>
      have hplace := h.producer i
      rw [hp] at hplace
      simp only [InPush, hwhen] at hplace
      refine ⟨_, .single (.ret hplace), h.producer_moves h.items h.bound ?_ rfl⟩
      rw [moved_self]
      rfl
  | @overwrite i push v hp hwhen =>
      have hunforced := hbounded.counted.unforced i
      rw [hp] at hunforced
      exact absurd hwhen hunforced
  | @retract i v hp =>
      have hunforced := hbounded.counted.unforced i
      rw [hp] at hunforced
      exact hunforced.elim
  | @claim i v hp =>
      have hplace := h.producer i
      rw [hp] at hplace
      have hclaimed := hbounded.counted.claimed
      refine ⟨c, .refl c, h.producer_stays (i := i) ?_ rfl ?_ rfl⟩
      · show ((s.claims ++ [v]).take s.publications).drop s.returned.length = s.contents
        rw [List.take_append_of_le_length (by omega)]
        rfl
      · show InPush _ _ ((s.moved i (.claimed v s.queue.m_write)
          s.queue.write_fetch_add.2).producer i)
        rw [moved_self]
        exact hplace
  | @write i v k hp =>
      have hplace := h.producer i
      rw [hp] at hplace
      obtain ⟨push, hpush, hplace⟩ := hplace
      refine ⟨c, .refl c, h.producer_stays (i := i) rfl rfl ?_ rfl⟩
      rw [moved_self]
      exact ⟨push, v, hpush, hplace, next_to_publish hbounded hordered hp⟩
  | @publish i hp =>
      have hplace := h.producer i
      rw [hp] at hplace
      obtain ⟨push, v, hpush, hplace, hv⟩ := hplace
      have hroom : c.object.items.length < c.object.bound := by
        rw [h.items, h.bound]
        exact room_to_publish hbounded hp
      have hfed := hbounded.fed.consumed_le
      refine ⟨_, .answer hplace (bounded_fifo_push hroom hpush v), h.producer_moves ?_ ?_ ?_ rfl⟩
      · rw [(BoundedList.tryPush_of_lt hroom v).2, h.items]
        refine Eq.symm (contents_publish hv ?_ rfl rfl rfl)
        exact Nat.le_trans (Nat.le_add_right _ _) hfed
      · rw [BoundedList.tryPush_bound]
        exact h.bound
      · show InPush _ _ ((s.moved i .idle s.queue.max_read_fetch_add).producer i)
        rw [moved_self]
        rfl
  | nothing hc hread =>
      have hplace := h.consumer
      rw [hc] at hplace
      have hnil : c.object.items = [] := h.items.trans (nil_of_nothing hbounded hfew hc hread)
      refine ⟨c, ?_, h⟩
      rw [seen, hc]
      refine Atomic.Steps.whole Operation.pop_front hplace ?_
      simp only [bounded_fifo, BoundedList.popFront_nil hnil]
      rfl
  | check hc hread =>
      have hplace := h.consumer
      rw [hc] at hplace
      refine ⟨_, ?_, h.consumer_moves h.items h.bound rfl rfl rfl⟩
      simp only [seen, hc]
      exact .single (.call _ hplace)
  | take hc =>
      have hplace := h.consumer
      rw [hc] at hplace
      refine ⟨c, ?_, ⟨h.items, h.bound, h.producer, hplace⟩⟩
      simp only [seen, hc]
      exact .refl c
  | move hc =>
      have hplace := h.consumer
      rw [hc] at hplace
      refine ⟨c, ?_, ⟨h.items, h.bound, h.producer, hplace⟩⟩
      simp only [seen, hc]
      exact .refl c
  | @release ret hc =>
      have hplace := h.consumer
      have hfed := hbounded.fed
      rw [hc] at hplace
      rw [Fed, hc] at hfed
      obtain ⟨v, hv, rfl⟩ := hordered.took ret hc
      refine ⟨⟨c.object.popFront.2, Function.update c.place .consumer .idle⟩, ?_,
        h.consumer_moves ?_ h.bound rfl rfl rfl⟩
      · rw [seen, hc]
        refine Atomic.Steps.answer hplace ?_
        have hhead : c.object.items.head? = some v := by
          rw [h.items, head?_contents hfed, hv]
        simp only [bounded_fifo, BoundedList.popFront]
        rw [hhead]
        rfl
      · show c.object.items.tail = _
        rw [h.items]
        exact Eq.symm (contents_release rfl rfl rfl)

/-- Fewer pushes were admitted than a counter has values. -/
def Few (s : System ι α) : Prop := s.admissions < 2 ^ 32 - 1

/--
**What is seen of a queue with one producer and one consumer could have been seen of a
bounded list**, whatever the order of their accesses.
-/
theorem fifo_linearizable [Subsingleton ι] {c : Nat} (hc : c < 2 ^ 32) {as : List (Action ι α)}
    {hs : List (List (Atomic.Event (Thread ι) (Operation α) (Answer α)))} {s : System ι α}
    (hrun : Machine.Run (observed T) ordinary (start T c) as hs s) (hfew : Few s) :
    Atomic.Linearizable bounded_fifo (.empty c) hs.flatten := by
  have hwide : Wide c (Fintype.card ι) := by
    have hcard := Fintype.card_le_one_iff_subsingleton.mpr (inferInstance : Subsingleton ι)
    exact Or.inl (by omega)
  -- what is true of the number of admissions in the end was true of it all along
  have hback : Few (start T c : System ι α) ∧ Machine.Run (observed T)
      (fun s a => ordinary s a ∧ Machine.leadsTo (observed T) Few s a) (start T c) as hs s := by
    refine hrun.backward (P := fun _ => True) (Q := Few) (fun _ _ _ _ _ _ _ => trivial) ?_
      trivial hfew
    intro s a h s' _ hguard hstep hafter
    obtain ⟨⟨e, s''⟩, hone, hpair⟩ := Option.map_eq_some_iff.mp hstep
    cases hpair
    refine ⟨Nat.lt_of_le_of_lt (admissions_le hone) hafter, hguard, ?_⟩
    intro r hr
    rw [Option.mem_def, hstep] at hr
    cases hr
    exact hafter
  refine Atomic.Simulates.linearizable (R := fun s l =>
    (Bounded s ∧ s.queue.m_capacity = c) ∧ Ordered s ∧ Few s ∧ Represents s l) ?_ hback.2 ?_
  · intro s l a h s' hR hguard hstep
    obtain ⟨hbounded, hordered, hbefore, hrepresents⟩ := hR
    obtain ⟨⟨e, s''⟩, hone, hpair⟩ := Option.map_eq_some_iff.mp hstep
    cases hpair
    have hafter : Few s'' := hguard.2 _ hstep
    obtain ⟨l', hsteps, hnext⟩ := hrepresents.step hbounded.1 hordered hbefore hguard.1 hone
    exact ⟨l', hsteps, bounded_step hwide hbounded hguard.1 hone hafter,
      hordered.step hbounded.1 hbefore (publishes_written_alone hguard.1) hone, hafter, hnext⟩
  · exact ⟨⟨⟨counted_start T c, Nat.le_refl 0, Nat.zero_le _⟩, rfl⟩, ordered_start T c, hback.1,
      represents_start T c⟩

/-- A queue of one slot: a push, one that gives up, a pop, and one that finds nothing. -/
theorem fifo_linearizable_one : ∃ (s : System Unit Nat)
    (hs : List (List (Atomic.Event (Thread Unit) (Operation Nat) (Answer Nat)))),
    s.returned = [some 5] ∧ Atomic.Linearizable bounded_fifo (.empty 1) hs.flatten := by
  obtain ⟨s, hs, s', hstart, hrun, hlast⟩ := Machine.exists_run (observed QueueElement.owning)
    ordinary (some (start QueueElement.owning 1))
    [.call () .push_back 5, .advance (), .advance (), .advance (), .pop, .advance (),
      .call () .try_push_back 6, .advance (), .pop, .pop, .advance (), .pop, .pop, .pop]
    (fun r => r.2.returned == [some 5] && r.2.admissions == 1) (by decide +kernel)
  cases hstart
  obtain ⟨hreturned, hadm⟩ := Bool.and_eq_true_iff.mp hlast
  have hfew : Few s' := by
    rw [Few, eq_of_beq hadm]
    decide
  exact ⟨s', hs, eq_of_beq hreturned, fifo_linearizable (by decide) hrun hfew⟩

end System

end Hyperion.LockFreeQueue
