/-
Which calls return.

A push makes its way by accesses of its own, and so does a pop: nobody holds a lock
that another one waits for.  So a push that does not wait for room, and every pop,
returns after a few accesses whatever the other threads do, and also when they do
nothing any more.

`push_back` and `emplace_back` are different, and not only when the queue is full.  A
push that is refused has counted itself into `m_size` until it takes the increment
back, and while it is there another push may be refused because of it.  Two of them
can take turns at this for as long as they like, with a slot free all the time.  What
the queue does not do is get stuck: wherever its threads are, they can all be brought
to an end.
-/
import Hyperion.LockFreeQueue.Admission

namespace Hyperion.LockFreeQueue

/-- How many accesses it is from returning, when it is let in at its first try. -/
def Producer.left {α : Type} : Producer α → Nat
  | .idle => 0
  | .called _ _ => 5
  | .refused _ _ => 4
  | .retracting _ | .admitted _ => 3
  | .claimed _ _ => 2
  | .written => 1

/-- It is in a call that does not wait for room, or does not have to any more. -/
def Producer.Unwaiting {α : Type} : Producer α → Prop
  | .idle => False
  | .called push _ | .refused push _ => push.when_full ≠ .wait
  | _ => True

theorem Producer.Unwaiting.left_pos {α : Type} {p : Producer α} (h : p.Unwaiting) :
    0 < p.left := by
  cases p with
  | idle => exact h.elim
  | called | refused | retracting | admitted | claimed | written => exact Nat.succ_pos _

/-- How many accesses a producer has left, when it is not refused any more. -/
def Producer.ahead {α : Type} : Producer α → Nat
  | .idle => 0
  | .refused _ _ => 5
  | .called _ _ => 4
  | .retracting _ | .admitted _ => 3
  | .claimed _ _ => 2
  | .written => 1

/-- It may still be let in. -/
def Producer.asking {α : Type} : Producer α → Bool
  | .called _ _ | .refused _ _ => true
  | _ => false

/-- How many accesses a pop is from returning. -/
def Consumer.left {α : Type} : Consumer α → Nat
  | .idle => 4
  | .checked => 3
  | .advanced _ => 2
  | .took _ => 1

/-- An access of producer `i`. -/
def Action.made_by {ι α : Type} [DecidableEq ι] (i : ι) : Action ι α → Bool
  | .advance j => j = i
  | _ => false

/-- An access of the consumer. -/
def Action.popping {ι α : Type} : Action ι α → Bool
  | .pop => true
  | _ => false

/-- A call returned. -/
def Event.returned {α : Type} : Event α → Bool
  | .ongoing => false
  | _ => true

namespace System

variable {ι α : Type} [DecidableEq ι] {T : QueueElement α}

/-! ### Calls that return whatever the others do -/

/-- Somebody else leaves a producer where it is. -/
theorem producer_of_step {s s' : System ι α} {a : Action ι α} {e : Event α} {i : ι}
    (hbusy : s.producer i ≠ .idle) (ha : a.made_by i = false)
    (hstep : step T s a = some (e, s')) : s'.producer i = s.producer i := by
  cases a with
  | pop => rw [(pop_keeps hstep).1]
  | call j push v =>
      cases step_cases hstep with
      | call hj =>
          refine moved_of_ne ?_ _ _
          rintro rfl
          exact hbusy hj
  | advance j =>
      have hne : i ≠ j := fun heq => of_decide_eq_false ha heq.symm
      cases step_cases hstep <;> exact Function.update_of_ne hne ..

/-- An access of a push that does not wait brings it nearer to its return. -/
theorem left_lt {s s' : System ι α} {e : Event α} {i : ι} (h : (s.producer i).Unwaiting)
    (hstep : step T s (.advance i) = some (e, s')) (he : e.returned = false) :
    (s'.producer i).Unwaiting ∧ (s'.producer i).left < (s.producer i).left := by
  cases step_cases hstep with
  | enter hp | overwrite hp hpush | retract hp | claim hp | write hp =>
      rw [hp]
      simp only [moved, Function.update_self]
      exact ⟨trivial, by simp [Producer.left]⟩
  | refuse hp hfull =>
      rw [hp] at h ⊢
      rw [moved_self]
      exact ⟨h, Nat.lt_succ_self 4⟩
  | wait hp hpush =>
      rw [hp] at h
      exact absurd hpush h
  | give_up | publish => cases he

/-- **A push that does not wait returns within five accesses of its own.** -/
theorem push_answers {guard : System ι α → Action ι α → Prop} {s : System ι α} {i : ι}
    (h : (s.producer i).Unwaiting) {n : Nat} (hn : (s.producer i).left ≤ n) :
    Machine.AnswersWithin (step T) guard (Action.made_by i) Event.returned n s := by
  refine Machine.answersWithin_of_variant (P := fun s => (s.producer i).Unwaiting)
    (fun s => (s.producer i).left) ?_ ?_ ?_ h hn
  · exact fun s hs => hs.left_pos
  · intro s a e s' hs ha hstep he
    cases a with
    | advance j =>
        obtain rfl : j = i := of_decide_eq_true ha
        exact left_lt hs hstep he
    | call j push v | pop => cases ha
  · intro s a e s' hs ha hstep
    have hbusy : s.producer i ≠ .idle := by
      intro hidle
      rw [hidle] at hs
      exact hs
    rw [producer_of_step hbusy ha hstep]
    exact ⟨hs, rfl⟩

/-- **A pop returns within four.** -/
theorem pop_answers {guard : System ι α → Action ι α → Prop} {s : System ι α} {n : Nat}
    (hn : s.consumer.left ≤ n) :
    Machine.AnswersWithin (step T) guard Action.popping Event.returned n s := by
  refine Machine.answersWithin_of_variant (P := fun _ => True)
    (fun s => s.consumer.left) ?_ ?_ ?_ trivial hn
  · intro s _
    cases s.consumer <;> exact Nat.succ_pos _
  · intro s a e s' _ ha hstep he
    cases a with
    | pop =>
        refine ⟨trivial, ?_⟩
        cases step_cases hstep with
        | check hc | take hc | move hc =>
            rw [hc]
            exact Nat.lt_succ_self _
        | nothing | release => cases he
    | call | advance => cases ha
  · intro s a e s' _ ha hstep
    have hnot : a ≠ .pop := by
      rintro rfl
      cases ha
    rw [(producer_keeps hstep hnot).2]
    exact ⟨trivial, rfl⟩

/-! ### Two pushes that turn each other away -/

/-- After `n` pushes, one after the other, and nothing else. -/
structure Loaded (c n : Nat) (s : System ι α) : Prop where
  producer : ∀ i, s.producer i = .idle
  consumer : s.consumer = .idle
  returned : s.returned = []
  admissions : s.admissions = n
  capacity : s.queue.m_capacity = c
  size : s.queue.m_size = n
  max_read : s.queue.m_max_read = n
  read : s.queue.m_read = 0

/-- One more. -/
theorem Loaded.reaches_push {c n : Nat} {s : System ι α} (h : Loaded c n s) (hlt : n < c)
    (hc : c < 2 ^ 32) (i : ι) (v : α) :
    ∃ s', Machine.Reaches (step T) ordinary s s' ∧ Loaded c (n + 1) s' := by
  have hroom : s.queue.m_size < s.queue.m_capacity := by
    rw [h.size, h.capacity]
    exact hlt
  have hcall : ordinary s (.call i .push_back v) := fun hwhen => by cases hwhen
  have h₀ : Machine.Reaches (step T) ordinary s s := .refl s
  have h₁ := h₀.tail hcall (Access.call (h.producer i)).step
  have h₂ := h₁.tail (i := .advance i) trivial
    (Access.step (.enter (Function.update_self ..) hroom))
  have h₃ := h₂.tail (i := .advance i) trivial (Access.step (.claim (Function.update_self ..)))
  have h₄ := h₃.tail (i := .advance i) trivial (Access.step (.write (Function.update_self ..)))
  have h₅ := h₄.tail (i := .advance i) trivial (Access.step (.publish (Function.update_self ..)))
  refine ⟨_, h₅, ?_, h.consumer, h.returned, congrArg (· + 1) h.admissions, h.capacity, ?_, ?_,
    h.read⟩
  · intro j
    simp only [moved, Function.update_idem]
    rw [← h.producer i, Function.update_eq_self, h.producer j, h.producer i]
  · show u32.add s.queue.m_size 1 = n + 1
    rw [h.size, u32.add_eq (by omega)]
  · show u32.add s.queue.m_max_read 1 = n + 1
    rw [h.max_read, u32.add_eq (by omega)]

theorem reaches_full (T : QueueElement α) (i : ι) (v : α) {c n : Nat} (hc : c < 2 ^ 32)
    (hn : n ≤ c) :
    ∃ s : System ι α, Machine.Reaches (step T) ordinary (start T c) s ∧ Loaded c n s := by
  induction n with
  | zero => exact ⟨start T c, .refl _, fun _ => rfl, rfl, rfl, rfl, rfl, rfl, rfl, rfl⟩
  | succ n ih =>
      obtain ⟨s, hreach, hloaded⟩ := ih (Nat.le_of_succ_le hn)
      obtain ⟨s', hpush, hloaded'⟩ := hloaded.reaches_push (T := T) hn hc i v
      exact ⟨s', hreach.trans hpush, hloaded'⟩

/-- A slot is free, and not only for those who were let in already. -/
def has_room (s : System ι α) (_ : Action ι α) : Prop := s.held < s.queue.m_capacity

/-- Two pushes that wait, each of which sees a full queue because of the other. -/
structure Contended (push : Push) (c : Nat) (i j : ι) (v w : α) (s : System ι α) : Prop where
  called : s.producer i = .called push v
  refused : s.producer j = .refused push w
  others : ∀ k, k ≠ i → k ≠ j → s.producer k = .idle
  capacity : s.queue.m_capacity = c
  size : s.queue.m_size = c
  admissions : s.admissions = c
  room : s.held < c

/-- A pop, and nobody else. -/
theorem reaches_pop {s : System ι α} (hconsumer : s.consumer = .idle)
    (hread : s.queue.nothing_to_read = false) : ∃ ret q, Machine.Reaches (step T) ordinary s
      { s with queue := q, returned := s.returned ++ [ret] } ∧
        q.m_size = u32.sub s.queue.m_size 1 ∧ q.m_capacity = s.queue.m_capacity := by
  have h₀ : Machine.Reaches (step T) ordinary s s := .refl s
  have h₁ := h₀.tail (i := .pop) trivial (Access.step (.check hconsumer hread))
  have h₂ := h₁.tail (i := .pop) trivial (Access.step (.take rfl))
  have h₃ := h₂.tail (i := .pop) trivial (Access.step (.move rfl))
  have h₄ := h₃.tail (i := .pop) trivial (Access.step (.release rfl))
  rw [← hconsumer] at h₄
  exact ⟨_, _, h₄, rfl, rfl⟩

/-- A push of somebody who finds no room, up to where it would take its increment back. -/
theorem reaches_turned_away {s : System ι α} {j : ι} {push : Push}
    (hpush : push.when_full ≠ .overwrite) (w : α) (hidle : s.producer j = .idle)
    (hfull : s.queue.m_capacity ≤ s.queue.m_size) : Machine.Reaches (step T) ordinary s
      (s.moved j (.refused push w) s.queue.size_fetch_add.2) := by
  have hcall : ordinary s (.call j push w) := hpush
  have h₀ : Machine.Reaches (step T) ordinary s s := .refl s
  have h₁ := h₀.tail hcall (Access.call hidle).step
  have h₂ := h₁.tail (i := .advance j) trivial
    (Access.step (.refuse (Function.update_self ..) hfull))
  simp only [moved, Function.update_idem] at h₂
  exact h₂

theorem reaches_contended (T : QueueElement α) {i j : ι} (hne : i ≠ j) {push : Push}
    (hpush : push.when_full = .wait) (v w : α) {c : Nat} (hpos : 1 ≤ c) (hc : c + 1 < 2 ^ 32) :
    ∃ s : System ι α, Machine.Reaches (step T) ordinary (start T c) s ∧
      Contended push c i j v w s := by
  have hnot : push.when_full ≠ .overwrite := by
    rw [hpush]
    exact fun hwhen => by cases hwhen
  obtain ⟨s, hloaded, hs⟩ := reaches_full T i v (c := c) (n := c) (by omega) (Nat.le_refl c)
  have haway := reaches_turned_away (T := T) hnot w (hs.producer j)
    (by rw [hs.capacity, hs.size])
  have hread : s.queue.size_fetch_add.2.nothing_to_read = false := by
    rw [nothing_to_read, decide_eq_false_iff_not]
    show ¬ s.queue.m_max_read < u32.add s.queue.m_read 1
    rw [hs.read, hs.max_read, u32.add_eq (by decide)]
    omega
  obtain ⟨ret, q, hpop, hsize, hcap⟩ := reaches_pop (T := T)
    (s := s.moved j (.refused push w) s.queue.size_fetch_add.2) hs.consumer hread
  have hi : Function.update s.producer j (.refused push w) i = .idle := by
    rw [Function.update_of_ne hne, hs.producer i]
  have hcalled := ((hloaded.trans haway).trans hpop).tail (i := .call i push v) hnot
    (Access.call hi).step
  refine ⟨_, hcalled, moved_self .., ?_, ?_, ?_, ?_, hs.admissions, ?_⟩
  · show Function.update (Function.update s.producer j _) i _ j = _
    rw [Function.update_of_ne hne.symm, Function.update_self]
  · intro k hki hkj
    show Function.update (Function.update s.producer j _) i _ k = _
    rw [Function.update_of_ne hki, Function.update_of_ne hkj, hs.producer k]
  · exact hcap.trans hs.capacity
  · refine hsize.trans ?_
    show u32.sub (u32.add s.queue.m_size 1) 1 = c
    rw [hs.size, u32.add_eq (by omega), u32.sub_eq (by omega) hc, Nat.add_sub_cancel]
  · show s.admissions - (s.returned ++ [ret]).length < c
    rw [hs.admissions, hs.returned]
    exact Nat.sub_lt hpos Nat.one_pos

/-- With two producers, and `m_size`, where they are told to be. -/
def paired (s : System ι α) (i j : ι) (p q : Producer α) (n : Nat) : System ι α :=
  { s with
    queue := { s.queue with m_size := n }
    producer := Function.update (Function.update s.producer i p) j q }

theorem paired_swap {i j : ι} (hne : i ≠ j) (s : System ι α) (p q : Producer α) (n : Nat) :
    s.paired i j p q n = s.paired j i q p n := by
  unfold paired
  rw [Function.update_comm hne]

theorem paired_moved (s : System ι α) (i j : ι) (p q q' : Producer α) (n m : Nat) :
    (s.paired i j p q n).moved j q' { s.queue with m_size := m } = s.paired i j p q' m := by
  have hproducer : Function.update (Function.update (Function.update s.producer i p) j q) j q'
      = Function.update (Function.update s.producer i p) j q' := Function.update_idem ..
  unfold paired moved
  rw [hproducer]

/-- The second of them finds no room. -/
theorem paired_refuse {s : System ι α} {c : Nat} (hcap : s.queue.m_capacity = c)
    (hc : c + 1 < 2 ^ 32) (i j : ι) (p : Producer α) (push : Push) (w : α) :
    step T (s.paired i j p (.called push w) c) (.advance j)
      = some (.ongoing, s.paired i j p (.refused push w) (c + 1)) := by
  rw [(Access.refuse (Function.update_self ..) (Nat.le_of_eq hcap)).step]
  show some (_, (s.paired i j p _ c).moved j _ { s.queue with m_size := u32.add c 1 }) = _
  rw [paired_moved, u32.add_eq hc]

/-- It takes its increment back. -/
theorem paired_wait (s : System ι α) {c : Nat} (hc : c + 1 < 2 ^ 32) (i j : ι) (p : Producer α)
    {push : Push} (hpush : push.when_full = .wait) (w : α) :
    step T (s.paired i j p (.refused push w) (c + 1)) (.advance j)
      = some (.ongoing, s.paired i j p (.called push w) c) := by
  have hsub : u32.sub (c + 1) 1 = c := u32.sub_eq (Nat.le_add_left 1 c) hc
  rw [(Access.wait (Function.update_self ..) hpush).step]
  show some (_, (s.paired i j p _ (c + 1)).moved j _ { s.queue with
    m_size := u32.sub (c + 1) 1 }) = _
  rw [paired_moved, hsub]

theorem Contended.eq_paired {push : Push} {c : Nat} {i j : ι} {v w : α} {s : System ι α}
    (h : Contended push c i j v w s) :
    s.paired i j (.called push v) (.refused push w) c = s := by
  have hproducer : Function.update (Function.update s.producer i (.called push v)) j
      (.refused push w) = s.producer := by
    rw [← h.called, Function.update_eq_self, ← h.refused, Function.update_eq_self]
  have hqueue : { s.queue with m_size := c } = s.queue := by rw [← h.size]
  unfold paired
  rw [hproducer, hqueue]

/-- One is refused, the other tries again and is refused, and the first tries again. -/
def turn (i j : ι) : List (Action ι α) := [.advance i, .advance j, .advance j, .advance i]

/-- **A turn changes nothing.** -/
theorem Contended.run_turn {push : Push} {c : Nat} {i j : ι} {v w : α} {s : System ι α}
    (h : Contended push c i j v w s) (hpush : push.when_full = .wait) (hne : i ≠ j)
    (hc : c + 1 < 2 ^ 32) :
    Machine.Run (step T) has_room s (turn i j) (List.replicate 4 .ongoing) s := by
  have hroom : s.held < s.queue.m_capacity := h.capacity ▸ h.room
  -- each sees the increment of the other, and takes back its own
  have h₁ := paired_refuse (T := T) h.capacity hc j i (.refused push w) push v
  have h₂ := paired_wait (T := T) s hc i j (.refused push v) hpush w
  have h₃ := paired_refuse (T := T) h.capacity hc i j (.refused push v) push w
  have h₄ := paired_wait (T := T) s hc j i (.refused push w) hpush v
  rw [paired_swap hne.symm, paired_swap hne.symm, h.eq_paired] at h₁
  rw [paired_swap hne.symm, paired_swap hne.symm, h.eq_paired] at h₄
  exact .cons hroom h₁ (.cons hroom h₂ (.cons hroom h₃ (.cons hroom h₄ (.nil s))))

/-- How often each of the two has been at it after `n` turns. -/
theorem countP_turns {i j : ι} (hne : i ≠ j) (n : Nat) (k : ι) (hk : k = i ∨ k = j) :
    (List.replicate n (turn i j : List (Action ι α))).flatten.countP (Action.made_by k)
      = n * 2 := by
  have hone : (turn i j : List (Action ι α)).countP (Action.made_by k) = 2 := by
    rcases hk with rfl | rfl
    · simp [turn, Action.made_by, hne.symm]
    · simp [turn, Action.made_by, hne]
  rw [List.countP_flatten, List.map_replicate, hone, List.sum_replicate_nat]

/-- No call returns, however often nothing returns. -/
theorem ongoing_of_mem {e : Event α} {n m : Nat}
    (h : e ∈ (List.replicate n (List.replicate m Event.ongoing)).flatten) : e = .ongoing := by
  obtain ⟨es, hes, he⟩ := List.mem_flatten.mp h
  rw [List.eq_of_mem_replicate hes] at he
  exact List.eq_of_mem_replicate he

/-! ### A push that waits for room in a full queue -/

/-- It is refused, takes its increment back and tries again. -/
theorem run_retry {s : System ι α} {i : ι} {push : Push} {v : α}
    (hcalled : s.producer i = .called push v) (hpush : push.when_full = .wait)
    (hfull : s.queue.m_capacity ≤ s.queue.m_size) (hsmall : s.queue.m_size + 1 < 2 ^ 32) :
    Machine.Run (step T) (fun _ _ => True) s [.advance i, .advance i]
      (List.replicate 2 .ongoing) s := by
  have hrefuse : step T s (.advance i)
      = some (.ongoing, s.moved i (.refused push v) s.queue.size_fetch_add.2) :=
    (Access.refuse hcalled hfull).step
  have hwait := (Access.wait (T := T) (s := s.moved i (.refused push v)
    s.queue.size_fetch_add.2) (Function.update_self ..) hpush).step
  have hsize : u32.sub (u32.add s.queue.m_size 1) 1 = s.queue.m_size := by
    rw [u32.add_eq hsmall, u32.sub_eq (Nat.le_add_left 1 _) hsmall, Nat.add_sub_cancel]
  have hback : (s.moved i (.refused push v) s.queue.size_fetch_add.2).moved i (.called push v)
      { s.queue with m_size := u32.sub (u32.add s.queue.m_size 1) 1 } = s := by
    rw [hsize, moved, moved, Function.update_idem, ← hcalled, Function.update_eq_self]
  refine .cons trivial hrefuse (.cons trivial ?_ (.nil s))
  rw [hwait]
  exact congrArg (fun s' => some (Event.ongoing, s')) hback

/-- A push into a full queue, and nobody else in a call. -/
theorem reaches_full_called (T : QueueElement α) (i : ι) (push : Push) (v : α) {c : Nat}
    (hc : c < 2 ^ 32) : ∃ s : System ι α,
      Machine.Reaches (step T) (fun _ _ => True) (start T c) s ∧
        s.producer i = .called push v ∧ s.queue.m_capacity = c ∧ s.queue.m_size = c := by
  obtain ⟨s, ⟨as, es, hrun⟩, hs⟩ := reaches_full T i v hc (Nat.le_refl c)
  have hreach : Machine.Reaches (step T) (fun _ _ => True) (start T c) s := ⟨as, es, hrun.any⟩
  have hcall : step T s (.call i push v) = some (.ongoing, s.moved i (.called push v) s.queue) :=
    (Access.call (hs.producer i)).step
  exact ⟨_, hreach.tail trivial hcall, moved_self .., hs.capacity, hs.size⟩

/-! ### Which calls are sure to return -/

/--
**A pop always returns after a bounded number of its own accesses, and a push does exactly
if it is not one that waits for room**, whatever the other threads do meanwhile.  (The queue has
a slot, or a push that does not wait divides by zero.)
-/
theorem wait_free_iff [Nonempty ι] (T : QueueElement α) {c : Nat} (_ : 1 ≤ c)
    (hc : c + 1 < 2 ^ 32) (push : Push) : (∃ n, ∀ s : System ι α,
      Machine.Reaches (step T) (fun _ _ => True) (start T c) s →
      Machine.AnswersWithin (step T) (fun _ _ => True) Action.popping Event.returned n s ∧
        ∀ i v, s.producer i = .called push v →
          Machine.AnswersWithin (step T) (fun _ _ => True) (Action.made_by i) Event.returned n s)
      ↔ push.when_full ≠ .wait := by
  constructor
  · rintro ⟨n, hn⟩ hpush
    obtain ⟨i⟩ := ‹Nonempty ι›
    obtain ⟨s, hreach, hcalled, hcap, hsize⟩ :=
      reaches_full_called T i push T.default (Nat.lt_of_succ_lt hc)
    have hanswers := (hn s hreach).2 i T.default hcalled
    have hretries := (run_retry (T := T) hcalled hpush (by rw [hcap, hsize])
      (by rw [hsize]; exact hc)).cycle n
    have hoften : n ≤ (List.replicate n [Action.advance i, Action.advance i]).flatten.countP
        (Action.made_by i : Action ι α → Bool) := by
      rw [List.countP_flatten, List.map_replicate, List.sum_replicate_nat]
      simp only [List.countP_cons, Action.made_by, decide_true]
      exact Nat.le_mul_of_pos_right n (Nat.succ_pos _)
    obtain ⟨r, hr, -, hreturned⟩ := hanswers _ _ _ hretries hoften
    rw [ongoing_of_mem (List.of_mem_zip hr).2] at hreturned
    cases hreturned
  · intro hpush
    refine ⟨5, fun s _ => ⟨pop_answers ?_, fun i v hcalled => push_answers ?_ ?_⟩⟩
    · cases s.consumer <;> simp [Consumer.left]
    · rw [hcalled]
      exact hpush
    · rw [hcalled]
      exact Nat.le_refl 5

/-- Two producers and one slot. -/
theorem wait_free_try_push_back : ∃ n, ∀ s : System Bool Nat,
    Machine.Reaches (step .owning) (fun _ _ => True) (start .owning 1) s →
    Machine.AnswersWithin (step .owning) (fun _ _ => True) Action.popping Event.returned n s ∧
      ∀ i v, s.producer i = .called .try_push_back v →
        Machine.AnswersWithin (step .owning) (fun _ _ => True) (Action.made_by i)
          Event.returned n s :=
  (wait_free_iff .owning (Nat.le_refl 1) (by decide) .try_push_back).mpr (by decide)

/--
**Two pushes that wait can keep each other out for ever**: on a queue that has a free slot
all the time, each of them making as many accesses as one likes, and nobody else in any call.
-/
theorem kept_out_for_ever [Nontrivial ι] (T : QueueElement α) {c : Nat} (hpos : 1 ≤ c)
    (hc : c + 1 < 2 ^ 32) {push : Push} (hpush : push.when_full = .wait) (v w : α) :
    ∃ (i j : ι) (s : System ι α), i ≠ j ∧
      Machine.Reaches (step T) ordinary (start T c) s ∧
      s.producer i = .called push v ∧ s.producer j = .refused push w ∧
      (∀ k, k ≠ i → k ≠ j → s.producer k = .idle) ∧
      ∀ n, ∃ as es, Machine.Run (step T) has_room s as es s ∧
        (∀ k, k = i ∨ k = j → n ≤ as.countP (Action.made_by k)) ∧ ∀ e ∈ es, e = .ongoing := by
  obtain ⟨i, j, hne⟩ := exists_pair_ne ι
  obtain ⟨s, hreach, hs⟩ := reaches_contended T hne hpush v w hpos hc
  refine ⟨i, j, s, hne, hreach, hs.called, hs.refused, hs.others, fun n => ?_⟩
  refine ⟨_, _, (hs.run_turn hpush hne hc).cycle n, ?_, fun e he => ongoing_of_mem he⟩
  intro k hk
  rw [countP_turns hne n k hk]
  omega

/-- Two producers and one slot. -/
theorem kept_out_of_one : ∃ (i j : Bool) (s : System Bool Nat), i ≠ j ∧
    Machine.Reaches (step .owning) ordinary (start .owning 1) s ∧
    s.producer i = .called .push_back 7 ∧ s.producer j = .refused .push_back 8 ∧
    (∀ k, k ≠ i → k ≠ j → s.producer k = .idle) ∧
    ∀ n, ∃ as es, Machine.Run (step .owning) has_room s as es s ∧
      (∀ k, k = i ∨ k = j → n ≤ as.countP (Action.made_by k)) ∧ ∀ e ∈ es, e = .ongoing :=
  kept_out_for_ever .owning (Nat.le_refl 1) (by decide) rfl 7 8

/-! ### Bringing everybody to an end -/

omit [DecidableEq ι]

/-- Nobody calls anything new, apart from pops. -/
def no_call (_ : System ι α) : Action ι α → Prop
  | .call _ _ _ => False
  | .advance _ | .pop => True

/-- What is left to do.  A push counts for more than the pop that makes room for it. -/
def work [Fintype ι] (s : System ι α) : Nat :=
  8 * Threads.total Producer.ahead s.producer + 4 * s.held + s.consumer.left

/-- The admissions so far and the ones to come do not wrap the counters. -/
structure Ending [Fintype ι] (c : Nat) (s : System ι α) : Prop where
  bounded : Bounded s
  capacity : s.queue.m_capacity = c
  few : s.admissions + Threads.count Producer.asking s.producer < 2 ^ 32 - 1

variable [DecidableEq ι]

/-- A producer in a call can always make its next access. -/
theorem exists_advance (T : QueueElement α) {s : System ι α} {i : ι}
    (hbusy : s.producer i ≠ .idle) : ∃ e s', step T s (.advance i) = some (e, s') := by
  cases hp : s.producer i with
  | idle => exact absurd hp hbusy
  | called push v =>
      rcases Nat.lt_or_ge s.queue.m_size s.queue.m_capacity with hroom | hfull
      · exact ⟨_, _, (Access.enter hp hroom).step⟩
      · exact ⟨_, _, (Access.refuse hp hfull).step⟩
  | refused push v =>
      cases hpush : push.when_full with
      | wait => exact ⟨_, _, (Access.wait hp hpush).step⟩
      | give_up => exact ⟨_, _, (Access.give_up hp hpush).step⟩
      | overwrite => exact ⟨_, _, (Access.overwrite hp hpush).step⟩
  | retracting v => exact ⟨_, _, (Access.retract hp).step⟩
  | admitted v => exact ⟨_, _, (Access.claim hp).step⟩
  | claimed v k => exact ⟨_, _, (Access.write hp).step⟩
  | written => exact ⟨_, _, (Access.publish hp).step⟩

/-- So can the consumer. -/
theorem exists_pop (T : QueueElement α) (s : System ι α) :
    ∃ e s', step T s .pop = some (e, s') := by
  cases hc : s.consumer with
  | idle =>
      cases hread : s.queue.nothing_to_read with
      | true => exact ⟨_, _, (Access.nothing hc hread).step⟩
      | false => exact ⟨_, _, (Access.check hc hread).step⟩
  | checked => exact ⟨_, _, (Access.take hc).step⟩
  | advanced k => exact ⟨_, _, (Access.move hc).step⟩
  | took ret => exact ⟨_, _, (Access.release hc).step⟩

variable [Fintype ι]

omit [Fintype ι] in
/-- An access that is not refused brings a producer nearer to its return. -/
theorem advance_nearer {s s' : System ι α} {i : ι} {e : Event α}
    (hunforced : (s.producer i).Unforced)
    (hroom : ∀ push v, s.producer i = .called push v → s.queue.m_size < s.queue.m_capacity)
    (hstep : step T s (.advance i) = some (e, s')) :
    ∃ p, s'.producer = Function.update s.producer i p ∧ p.ahead < (s.producer i).ahead ∧
      s'.admissions + p.asking.toNat ≤ s.admissions + (s.producer i).asking.toNat := by
  cases step_cases hstep with
  | @enter _ push v hp hsize =>
      rw [hp]
      exact ⟨.admitted v, rfl, Nat.lt_succ_self 3, Nat.le_refl _⟩
  | @refuse _ push v hp hfull => exact absurd (hroom push v hp) (Nat.not_lt_of_le hfull)
  | @wait _ push v hp hpush =>
      rw [hp]
      exact ⟨.called push v, rfl, Nat.lt_succ_self 4, Nat.le_refl _⟩
  | give_up hp hpush =>
      rw [hp]
      exact ⟨.idle, rfl, Nat.succ_pos 4, Nat.le_succ _⟩
  | overwrite hp hpush =>
      rw [hp] at hunforced
      exact absurd hpush hunforced
  | retract hp =>
      rw [hp] at hunforced
      exact hunforced.elim
  | @claim _ v hp =>
      rw [hp]
      exact ⟨.claimed v s.queue.m_write, rfl, Nat.lt_succ_self 2, Nat.le_refl _⟩
  | write hp =>
      rw [hp]
      exact ⟨.written, rfl, Nat.lt_succ_self 1, Nat.le_refl _⟩
  | publish hp =>
      rw [hp]
      exact ⟨.idle, rfl, Nat.succ_pos 0, Nat.le_refl _⟩

theorem Ending.advance {c : Nat} (hwide : Wide c (Fintype.card ι)) {s s' : System ι α}
    (h : Ending c s) {i : ι} {e : Event α}
    (hroom : ∀ push v, s.producer i = .called push v → s.queue.m_size < s.queue.m_capacity)
    (hstep : step T s (.advance i) = some (e, s')) : Ending c s' ∧ work s' < work s := by
  obtain ⟨p, hproducer, hlt, hasking⟩ :=
    advance_nearer (h.bounded.counted.unforced i) hroom hstep
  obtain ⟨hreturned, hconsumer⟩ := producer_keeps hstep (fun heq => by cases heq)
  have hcount := Threads.count_update Producer.asking s.producer i p
  have htotal := Threads.total_update Producer.ahead s.producer i p
  have hone : (s.producer i).asking.toNat ≤ 1 := Bool.toNat_le _
  have hfew := h.few
  rw [← hproducer] at hcount htotal
  obtain ⟨hbounded, hcap⟩ := bounded_step hwide ⟨h.bounded, h.capacity⟩
    (a := .advance i) trivial hstep (by omega)
  refine ⟨⟨hbounded, hcap, by omega⟩, ?_⟩
  unfold work held
  rw [hreturned, hconsumer]
  omega

theorem Ending.pop {c : Nat} (hwide : Wide c (Fintype.card ι)) {s s' : System ι α}
    (h : Ending c s) {e : Event α} (hread : s.consumer = .idle → s.queue.nothing_to_read = false)
    (hstep : step T s .pop = some (e, s')) : Ending c s' ∧ work s' < work s := by
  have hproducer := (pop_keeps hstep).1
  have hadmissions := pop_admissions hstep
  have hfew := h.few
  have hfed := h.bounded.fed
  have hadmitted := h.bounded.counted.admitted
  have hclaimed := h.bounded.counted.claimed
  obtain ⟨hbounded, hcap⟩ := bounded_step hwide ⟨h.bounded, h.capacity⟩
    (a := .pop) trivial hstep (by omega)
  refine ⟨⟨hbounded, hcap, by rw [hproducer, hadmissions]; exact hfew⟩, ?_⟩
  unfold work held
  rw [hproducer, hadmissions]
  cases step_cases hstep with
  | nothing hc hnothing =>
      rw [hread hc] at hnothing
      cases hnothing
  | check hc | take hc | move hc =>
      rw [hc]
      exact Nat.lt_succ_self _
  | @release ret hc =>
      unfold Fed at hfed
      rw [hc] at hfed ⊢
      simp only [Consumer.taking, Consumer.left, List.length_append, List.length_singleton]
        at hfed ⊢
      omega

omit [DecidableEq ι] in
/-- Where nobody can do anything but ask, and the queue is full, there is something to pop. -/
theorem Ending.something_to_read {c : Nat} (hpos : 1 ≤ c) {s : System ι α} (h : Ending c s)
    (hasking : ∀ i, s.producer i = .idle ∨ ∃ push v, s.producer i = .called push v)
    (hfull : s.queue.m_capacity ≤ s.queue.m_size) (hconsumer : s.consumer = .idle) :
    s.queue.nothing_to_read = false := by
  have hzero : ∀ p : Producer α → Bool, p .idle = false → (∀ push v, p (.called push v) = false) →
      Threads.count p s.producer = 0 := by
    intro p hidle hcalled
    refine Threads.count_eq_zero fun i => ?_
    rcases hasking i with hi | ⟨push, v, hi⟩
    · rw [hi, hidle]
    · rw [hi, hcalled]
  have hout := hzero Producer.backing_out rfl fun _ _ => rfl
  have hin := hzero Producer.entering rfl fun _ _ => rfl
  have hun := hzero Producer.unpublished rfl fun _ _ => rfl
  have hsize := size_mod h.bounded.counted h.bounded.fed
  have hadmitted := h.bounded.counted.admitted
  have hclaimed := h.bounded.counted.claimed
  have hread := h.bounded.counted.read
  have hmax := h.bounded.counted.max_read
  have hfew := h.few
  have hcap := h.capacity
  unfold held at hsize
  rw [consumed, hconsumer] at hread
  simp only [Consumer.holding] at hread
  rw [nothing_to_read, decide_eq_false_iff_not, hread, u32.add_mod_left, hmax]
  omega

/-- Somebody can always do something that leaves less to do. -/
theorem Ending.goes_on {c : Nat} (hpos : 1 ≤ c) (hwide : Wide c (Fintype.card ι))
    {s : System ι α} (h : Ending c s) (hbusy : ¬ ∀ i, s.producer i = .idle) :
    ∃ a e s', no_call s a ∧ step T s a = some (e, s') ∧ Ending c s' ∧ work s' < work s := by
  by_cases hasking : ∀ i, s.producer i = .idle ∨ ∃ push v, s.producer i = .called push v
  · rcases Nat.lt_or_ge s.queue.m_size s.queue.m_capacity with hroom | hfull
    · -- there is room for whoever asks
      obtain ⟨i, hi⟩ := not_forall.mp hbusy
      obtain ⟨e, s', hstep⟩ := exists_advance T hi
      exact ⟨.advance i, e, s', trivial, hstep, h.advance hwide (fun _ _ _ => hroom) hstep⟩
    · -- the consumer makes room
      obtain ⟨e, s', hstep⟩ := exists_pop T s
      exact ⟨.pop, e, s', trivial, hstep,
        h.pop hwide (h.something_to_read hpos hasking hfull) hstep⟩
  · -- somebody was let in or refused already
    obtain ⟨i, hi⟩ := not_forall.mp hasking
    obtain ⟨hidle, hnot⟩ := not_or.mp hi
    obtain ⟨e, s', hstep⟩ := exists_advance T hidle
    refine ⟨.advance i, e, s', trivial, hstep, h.advance hwide ?_ hstep⟩
    intro push v hp
    exact absurd ⟨push, v, hp⟩ hnot

/--
**The queue does not get stuck.**  From wherever its threads are in a run, with pushes and
pops in progress and any of them refused or waiting, some order of their accesses brings
every push to its return, without a new one being called.
-/
theorem never_stuck {c : Nat} (hpos : 1 ≤ c) (hwide : Wide c (Fintype.card ι))
    {s : System ι α} (hreach : Machine.Reaches (step T) ordinary (start T c) s)
    (hfew : s.admissions + Fintype.card ι < 2 ^ 32 - 1) :
    ∃ s', Machine.Reaches (step T) no_call s s' ∧ ∀ i, s'.producer i = .idle := by
  obtain ⟨as, es, hrun⟩ := hreach
  obtain ⟨hbounded, hcap⟩ := bounded_run hwide hrun (by omega)
  have hcard := Threads.count_le_card Producer.asking s.producer
  obtain ⟨s', hs', -, hidle⟩ := Machine.exists_reaches
    (fun s h hbusy => Ending.goes_on (T := T) hpos hwide h hbusy) s ⟨hbounded, hcap, by omega⟩
  exact ⟨s', hs', hidle⟩

/-- From where two producers keep each other out. -/
theorem never_stuck_kept_out : ∃ s s' : System Bool Nat,
    s.producer true = .refused .push_back 8 ∧
      Machine.Reaches (step .owning) no_call s s' ∧ ∀ i, s'.producer i = .idle := by
  have hne : false ≠ true := by decide
  have hpush : Push.push_back.when_full = .wait := rfl
  obtain ⟨s, hreach, hs⟩ := reaches_contended .owning hne hpush 7 8 (Nat.le_refl 1) (by decide)
  have hwide : Wide 1 (Fintype.card Bool) := Or.inl (by decide)
  have hfew : s.admissions + Fintype.card Bool < 2 ^ 32 - 1 := by
    rw [hs.admissions]
    decide
  obtain ⟨s', hs', hidle⟩ := never_stuck (Nat.le_refl 1) hwide hreach hfew
  exact ⟨s, s', hs.refused, hs', hidle⟩

end System

end Hyperion.LockFreeQueue
