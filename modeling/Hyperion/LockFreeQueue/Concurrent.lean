/-
Several threads on a queue.

Any number of producers push, and one consumer pops.  A call is no longer one step:
each access to one of the queue's words, or to a slot, is a step of its own, and the
steps of the threads come in any order.  A thread is described by the access it is
about to make and what it knows by then.

The last fields of the state are not in the source.  They record what happened, and
are what the counters are compared with.
-/
import Hyperion.LockFreeQueue.Basic
import Hyperion.Lib.Machine
import Hyperion.Lib.Threads

namespace Hyperion.LockFreeQueue

/-- The member functions that push. -/
inductive Push
  | push_back
  | try_push_back
  | force_push_back
  | emplace_back
  | try_emplace_back
  | force_emplace_back
deriving DecidableEq

/-- What a push does that is not admitted. -/
inductive WhenFull
  | wait
  | give_up
  | overwrite
deriving DecidableEq

/-- The three kinds of push. -/
def Push.when_full : Push → WhenFull
  | .push_back | .emplace_back => .wait
  | .try_push_back | .try_emplace_back => .give_up
  | .force_push_back | .force_emplace_back => .overwrite

/-- Where a producer is. -/
inductive Producer (α : Type)
  /-- in no call -/
  | idle
  /-- before `m_size.fetch_add(1)` -/
  | called (push : Push) (value : α)
  /-- not admitted, before `m_size.fetch_sub(1)` -/
  | refused (push : Push) (value : α)
  /-- a forced push, before `m_max_read.fetch_sub(1)` -/
  | retracting (value : α)
  /-- before `m_write.fetch_add(1)` -/
  | admitted (value : α)
  /-- before `m_buffer[write] = value` -/
  | claimed (value : α) (write : Nat)
  /-- before `m_max_read.fetch_add(1)` -/
  | written

namespace Producer

variable {α : Type}

/-- Its increment of `m_size` has to be taken back. -/
def backing_out : Producer α → Bool
  | .refused _ _ => true
  | _ => false

/-- It may claim a position. -/
def entering : Producer α → Bool
  | .admitted _ => true
  | _ => false

/-- It has claimed a position that is not counted in `m_max_read`. -/
def unpublished : Producer α → Bool
  | .claimed _ _ | .written => true
  | _ => false

/-- It is in no forced push. -/
def Unforced : Producer α → Prop
  | .called push _ | .refused push _ => push.when_full ≠ .overwrite
  | .retracting _ => False
  | _ => True

end Producer

/-- Where the consumer is in `pop_front`. -/
inductive Consumer (α : Type)
  /-- in no call -/
  | idle
  /-- `m_read + 1 > m_max_read` was false -/
  | checked
  /-- before `std::move(m_buffer[read])` -/
  | advanced (read : Nat)
  /-- before `m_size.fetch_sub(1)` -/
  | took (ret : Option α)

namespace Consumer

variable {α : Type}

/-- How many elements it has counted `m_read` past and not returned. -/
def holding : Consumer α → Nat
  | .advanced _ | .took _ => 1
  | _ => 0

/-- How many elements it is going to return. -/
def taking : Consumer α → Nat
  | .idle => 0
  | _ => 1

/-- How many elements it is reading. -/
def reading : Consumer α → Nat
  | .advanced _ => 1
  | _ => 0

/-- How many elements it has out of their slots and not returned. -/
def carrying : Consumer α → Nat
  | .took _ => 1
  | _ => 0

theorem holding_le_taking (c : Consumer α) : c.holding ≤ c.taking := by
  cases c
  case checked => exact Nat.zero_le 1
  all_goals exact Nat.le_refl _

theorem holding_eq (c : Consumer α) : c.holding = c.reading + c.carrying := by
  cases c <;> rfl

end Consumer

/-- A queue and its threads. -/
structure System (ι α : Type) where
  queue : LockFreeQueue α
  producer : ι → Producer α
  consumer : Consumer α
  /-- how many pushes were admitted -/
  admissions : Nat
  /-- what was pushed, in the order in which positions were claimed -/
  claims : List α
  /-- how many elements were published, less those that were taken back -/
  publications : Nat
  /-- what the pops that found an element returned -/
  returned : List (Option α)

/-- What may happen next. -/
inductive Action (ι α : Type)
  | call (i : ι) (push : Push) (value : α)
  | advance (i : ι)
  | pop

/-- What a call returned in a step. -/
inductive Event (α : Type)
  | ongoing
  | pushed (ok : Bool)
  | popped (ret : Option (Option α))
deriving DecidableEq

namespace System

variable {ι α : Type} {T : QueueElement α}

/-- Nobody has called anything. -/
def start (T : QueueElement α) (capacity : Nat) : System ι α :=
  ⟨with_capacity T capacity, fun _ => .idle, .idle, 0, [], 0, []⟩

/-- How many positions the consumer has counted `m_read` past. -/
def consumed (s : System ι α) : Nat := s.returned.length + s.consumer.holding

/-- How many elements are out of their slots. -/
def emptied (s : System ι α) : Nat := s.returned.length + s.consumer.carrying

/-- How many elements the queue holds, of those admitted. -/
def held (s : System ι α) : Nat := s.admissions - s.returned.length

/-! ### The counters -/

/--
**What the counters count.**  In `m_size` are the admitted pushes whose element was not
popped, and the refused ones that have not taken their increment back.
-/
structure Counted [Fintype ι] (s : System ι α) : Prop where
  unforced : ∀ i, (s.producer i).Unforced
  size : (s.queue.m_size + s.returned.length) % 2 ^ 32
    = (s.admissions + Threads.count Producer.backing_out s.producer) % 2 ^ 32
  size_lt : s.queue.m_size < 2 ^ 32
  write : s.queue.m_write = s.claims.length % 2 ^ 32
  max_read : s.queue.m_max_read = s.publications % 2 ^ 32
  read : s.queue.m_read = s.consumed % 2 ^ 32
  admitted : s.claims.length + Threads.count Producer.entering s.producer = s.admissions
  claimed : s.publications + Threads.count Producer.unpublished s.producer = s.claims.length

theorem counted_start [Fintype ι] (T : QueueElement α) (c : Nat) :
    Counted (start T c : System ι α) where
  unforced _ := trivial
  size := by
    rw [Threads.count_eq_zero fun _ => rfl]
    rfl
  size_lt := Nat.two_pow_pos 32
  write := rfl
  max_read := rfl
  read := rfl
  admitted := (Nat.zero_add _).trans (Threads.count_eq_zero fun _ => rfl)
  claimed := (Nat.zero_add _).trans (Threads.count_eq_zero fun _ => rfl)

/-- The consumer returns only what was published. -/
def Fed (s : System ι α) : Prop := s.returned.length + s.consumer.taking ≤ s.publications

theorem Fed.consumed_le {s : System ι α} (h : Fed s) : s.consumed ≤ s.publications := by
  have hle := s.consumer.holding_le_taking
  unfold consumed
  unfold Fed at h
  omega

/-! ### Steps -/

variable [DecidableEq ι]

/-- Producer `i` made an access that left the queue as `q`, and is at `p` now. -/
def moved (s : System ι α) (i : ι) (p : Producer α) (q : LockFreeQueue α) : System ι α :=
  { s with queue := q, producer := Function.update s.producer i p }

theorem moved_self (s : System ι α) (i : ι) (p : Producer α) (q : LockFreeQueue α) :
    (s.moved i p q).producer i = p := Function.update_self ..

theorem moved_of_ne {s : System ι α} {i j : ι} (h : j ≠ i) (p : Producer α)
    (q : LockFreeQueue α) : (s.moved i p q).producer j = s.producer j :=
  Function.update_of_ne h ..

/-- The next access of a producer. -/
def advance (s : System ι α) (i : ι) : Option (Event α × System ι α) :=
  match s.producer i with
  | .idle => none
  | .called push value =>
      let (_size, q) := s.queue.size_fetch_add
      if s.queue.m_capacity ≤ _size then some (.ongoing, s.moved i (.refused push value) q)
      else some (.ongoing,
        { s.moved i (.admitted value) q with admissions := s.admissions + 1 })
  | .refused push value =>
      let q := s.queue.size_fetch_sub
      match push.when_full with
      | .wait => some (.ongoing, s.moved i (.called push value) q)
      | .give_up => some (.pushed false, s.moved i .idle q)
      | .overwrite => some (.ongoing, s.moved i (.retracting value) q)
  | .retracting value =>
      let (write, q) := s.queue.max_read_fetch_sub
      some (.ongoing,
        { s.moved i (.claimed value write) q with publications := s.publications - 1 })
  | .admitted value =>
      let (write, q) := s.queue.write_fetch_add
      some (.ongoing, { s.moved i (.claimed value write) q with claims := s.claims ++ [value] })
  | .claimed value write =>
      some (.ongoing, s.moved i .written (s.queue.assign_slot write value))
  | .written =>
      some (.pushed true, { s.moved i .idle s.queue.max_read_fetch_add with
        publications := s.publications + 1 })

/-- The next access of the consumer. -/
def pop (T : QueueElement α) (s : System ι α) : Option (Event α × System ι α) :=
  match s.consumer with
  | .idle =>
      if s.queue.nothing_to_read then some (.popped none, s)
      else some (.ongoing, { s with consumer := .checked })
  | .checked =>
      let (read, q) := s.queue.read_increment
      some (.ongoing, { s with queue := q, consumer := .advanced read })
  | .advanced read =>
      let (ret, q) := s.queue.move_slot T read
      some (.ongoing, { s with queue := q, consumer := .took ret })
  | .took ret =>
      some (.popped (some ret), { s with
        queue := s.queue.size_fetch_sub, consumer := .idle, returned := s.returned ++ [ret] })

/-- A thread that is in no call calls, or a thread makes its next access. -/
def step (T : QueueElement α) (s : System ι α) : Action ι α → Option (Event α × System ι α)
  | .call i push value =>
      match s.producer i with
      | .idle => some (.ongoing, s.moved i (.called push value) s.queue)
      | _ => none
  | .advance i => s.advance i
  | .pop => s.pop T

/-- What a step can do. -/
inductive Access (T : QueueElement α) (s : System ι α) :
    Action ι α → Event α → System ι α → Prop
  | call {i push v} (h : s.producer i = .idle) :
      Access T s (.call i push v) .ongoing (s.moved i (.called push v) s.queue)
  | enter {i push v} (h : s.producer i = .called push v)
      (hroom : s.queue.m_size < s.queue.m_capacity) :
      Access T s (.advance i) .ongoing { s.moved i (.admitted v) s.queue.size_fetch_add.2 with
        admissions := s.admissions + 1 }
  | refuse {i push v} (h : s.producer i = .called push v)
      (hfull : s.queue.m_capacity ≤ s.queue.m_size) :
      Access T s (.advance i) .ongoing (s.moved i (.refused push v) s.queue.size_fetch_add.2)
  | wait {i push v} (h : s.producer i = .refused push v) (hpush : push.when_full = .wait) :
      Access T s (.advance i) .ongoing (s.moved i (.called push v) s.queue.size_fetch_sub)
  | give_up {i push v} (h : s.producer i = .refused push v)
      (hpush : push.when_full = .give_up) :
      Access T s (.advance i) (.pushed false) (s.moved i .idle s.queue.size_fetch_sub)
  | overwrite {i push v} (h : s.producer i = .refused push v)
      (hpush : push.when_full = .overwrite) :
      Access T s (.advance i) .ongoing (s.moved i (.retracting v) s.queue.size_fetch_sub)
  | retract {i v} (h : s.producer i = .retracting v) :
      Access T s (.advance i) .ongoing
        { s.moved i (.claimed v s.queue.m_max_read) s.queue.max_read_fetch_sub.2 with
          publications := s.publications - 1 }
  | claim {i v} (h : s.producer i = .admitted v) :
      Access T s (.advance i) .ongoing
        { s.moved i (.claimed v s.queue.m_write) s.queue.write_fetch_add.2 with
          claims := s.claims ++ [v] }
  | write {i v k} (h : s.producer i = .claimed v k) :
      Access T s (.advance i) .ongoing (s.moved i .written (s.queue.assign_slot k v))
  | publish {i} (h : s.producer i = .written) :
      Access T s (.advance i) (.pushed true)
        { s.moved i .idle s.queue.max_read_fetch_add with publications := s.publications + 1 }
  | nothing (h : s.consumer = .idle) (hread : s.queue.nothing_to_read = true) :
      Access T s .pop (.popped none) s
  | check (h : s.consumer = .idle) (hread : s.queue.nothing_to_read = false) :
      Access T s .pop .ongoing { s with consumer := .checked }
  | take (h : s.consumer = .checked) :
      Access T s .pop .ongoing { s with
        queue := s.queue.read_increment.2, consumer := .advanced s.queue.read_increment.1 }
  | move {k} (h : s.consumer = .advanced k) :
      Access T s .pop .ongoing { s with
        queue := (s.queue.move_slot T k).2, consumer := .took (s.queue.move_slot T k).1 }
  | release {ret} (h : s.consumer = .took ret) :
      Access T s .pop (.popped (some ret)) { s with
        queue := s.queue.size_fetch_sub, consumer := .idle, returned := s.returned ++ [ret] }

/-- **Every step is one of these accesses.** -/
theorem step_cases {s s' : System ι α} {a : Action ι α} {e : Event α}
    (h : step T s a = some (e, s')) : Access T s a e s' := by
  cases a with
  | call i push v =>
      simp only [step] at h
      split at h
      · rename_i hp
        cases h
        exact .call hp
      · cases h
  | advance i =>
      simp only [step, advance] at h
      split at h
      · cases h
      · rename_i push v hp
        by_cases hfull : s.queue.m_capacity ≤ s.queue.size_fetch_add.1
        · rw [if_pos hfull] at h
          cases h
          exact .refuse hp hfull
        · rw [if_neg hfull] at h
          cases h
          exact .enter hp (Nat.lt_of_not_le hfull)
      · rename_i push v hp
        split at h
        all_goals
          rename_i hpush
          cases h
        · exact .wait hp hpush
        · exact .give_up hp hpush
        · exact .overwrite hp hpush
      · rename_i v hp
        cases h
        exact .retract hp
      · rename_i v hp
        cases h
        exact .claim hp
      · rename_i v k hp
        cases h
        exact .write hp
      · rename_i hp
        cases h
        exact .publish hp
  | pop =>
      simp only [step, pop] at h
      split at h
      · rename_i hc
        split at h
        · rename_i hread
          cases h
          exact .nothing hc hread
        · rename_i hread
          cases h
          exact .check hc (Bool.eq_false_iff.mpr hread)
      · rename_i hc
        cases h
        exact .take hc
      · rename_i k hc
        cases h
        exact .move hc
      · rename_i ret hc
        cases h
        exact .release hc

/-! ### What a step does to the counters -/

/-- Not a forced push. -/
def ordinary (_ : System ι α) : Action ι α → Prop
  | .call _ push _ => push.when_full ≠ .overwrite
  | _ => True

instance (s : System ι α) (a : Action ι α) : Decidable (ordinary s a) :=
  match a with
  | .call _ push _ => inferInstanceAs (Decidable (push.when_full ≠ .overwrite))
  | .advance _ | .pop => inferInstanceAs (Decidable True)

/-- One producer moves, and the words change as its move says. -/
theorem Counted.moves [Fintype ι] {s s' : System ι α} (h : Counted s) {i : ι} {p : Producer α}
    (hproducer : s'.producer = Function.update s.producer i p) (hunforced : p.Unforced)
    (hconsumer : s'.consumer = s.consumer) (hreturned : s'.returned = s.returned)
    (hread : s'.queue.m_read = s.queue.m_read) (hlt : s'.queue.m_size < 2 ^ 32)
    (hsize : (s'.queue.m_size + (s.admissions + (s.producer i).backing_out.toNat)) % 2 ^ 32
      = (s.queue.m_size + (s'.admissions + p.backing_out.toNat)) % 2 ^ 32)
    (hwrite : s'.queue.m_write = s'.claims.length % 2 ^ 32)
    (hmax : s'.queue.m_max_read = s'.publications % 2 ^ 32)
    (hadmitted : s'.claims.length + p.entering.toNat + s.admissions
      = s.claims.length + (s.producer i).entering.toNat + s'.admissions)
    (hclaimed : s'.publications + p.unpublished.toNat + s.claims.length
      = s.publications + (s.producer i).unpublished.toNat + s'.claims.length) :
    Counted s' := by
  have hcount := fun f => Threads.count_update f s.producer i p
  rw [← hproducer] at hcount
  have hout := hcount Producer.backing_out
  have hin := hcount Producer.entering
  have hun := hcount Producer.unpublished
  have hsize₀ := h.size
  have hadmitted₀ := h.admitted
  have hclaimed₀ := h.claimed
  refine ⟨?_, ?_, hlt, hwrite, hmax, ?_, ?_, ?_⟩
  · intro j
    rw [hproducer, Function.update_apply]
    by_cases hj : j = i
    · rw [if_pos hj]
      exact hunforced
    · rw [if_neg hj]
      exact h.unforced j
  · rw [hreturned]
    omega
  · rw [hread, h.read, consumed, consumed, hconsumer, hreturned]
  · omega
  · omega

/-- Every such access is a step. -/
theorem Access.step {s s' : System ι α} {a : Action ι α} {e : Event α}
    (h : Access T s a e s') : s.step T a = some (e, s') := by
  cases h with
  | call hp | write hp | publish hp => simp only [System.step, advance, hp]
  | wait hp hpush | give_up hp hpush | overwrite hp hpush =>
      simp only [System.step, advance, hp, hpush]
  | enter hp hroom =>
      simp only [System.step, advance, hp]
      exact if_neg (Nat.not_le_of_lt hroom)
  | refuse hp hfull =>
      simp only [System.step, advance, hp]
      exact if_pos hfull
  | retract hp | claim hp =>
      simp only [System.step, advance, hp]
      rfl
  | nothing hc hread | check hc hread => simp [System.step, pop, hc, hread]
  | take hc | move hc | release hc => simp only [System.step, pop, hc]

/-- A pop leaves the producers and what they pushed. -/
theorem pop_keeps {s s' : System ι α} {e : Event α} (hstep : step T s .pop = some (e, s')) :
    s'.producer = s.producer ∧ s'.claims = s.claims ∧ s'.publications = s.publications := by
  cases step_cases hstep <;> exact ⟨rfl, rfl, rfl⟩

theorem pop_admissions {s s' : System ι α} {e : Event α}
    (hstep : step T s .pop = some (e, s')) : s'.admissions = s.admissions := by
  cases step_cases hstep <;> rfl

/-- A pop that goes on returns nothing. -/
theorem read_goes_on {s s' : System ι α} {e : Event α} (hstep : step T s .pop = some (e, s'))
    (he : ∀ ret, e ≠ .popped ret) : s'.returned = s.returned := by
  cases step_cases hstep with
  | nothing => exact absurd rfl (he none)
  | @release ret => exact absurd rfl (he (some ret))
  | check | take | move => rfl

/-- The producers leave the consumer and what it returned. -/
theorem producer_keeps {s s' : System ι α} {a : Action ι α} {e : Event α}
    (hstep : step T s a = some (e, s')) (ha : a ≠ .pop) :
    s'.returned = s.returned ∧ s'.consumer = s.consumer := by
  cases step_cases hstep
  case nothing | check | take | move | release => exact absurd rfl ha
  all_goals exact ⟨rfl, rfl⟩

/-- A call of a push publishes nothing. -/
theorem call_keeps {s s' : System ι α} {i : ι} {push : Push} {v : α} {e : Event α}
    (hstep : step T s (.call i push v) = some (e, s')) :
    s'.publications = s.publications ∧ s'.returned = s.returned := by
  cases step_cases hstep with
  | call => exact ⟨rfl, rfl⟩

/-- A push that goes on publishes nothing. -/
theorem publications_le {s s' : System ι α} {i : ι} {e : Event α}
    (hstep : step T s (.advance i) = some (e, s')) (he : ∀ ok, e ≠ .pushed ok) :
    s'.publications ≤ s.publications ∧ s'.returned = s.returned := by
  cases step_cases hstep with
  | retract hp => exact ⟨Nat.sub_le _ 1, rfl⟩
  | give_up => exact absurd rfl (he false)
  | publish => exact absurd rfl (he true)
  | enter | refuse | wait | overwrite | claim | write => exact ⟨Nat.le_refl _, rfl⟩

theorem step_capacity {s s' : System ι α} {a : Action ι α} {e : Event α}
    (hstep : step T s a = some (e, s')) : s'.queue.m_capacity = s.queue.m_capacity := by
  cases step_cases hstep <;> rfl

theorem admissions_le {s s' : System ι α} {a : Action ι α} {e : Event α}
    (hstep : step T s a = some (e, s')) : s.admissions ≤ s'.admissions := by
  cases step_cases hstep
  case enter => exact Nat.le_succ _
  all_goals exact Nat.le_refl _

/-- **Every step keeps the counts.** -/
theorem Counted.step [Fintype ι] {s s' : System ι α} (h : Counted s) {a : Action ι α}
    {e : Event α} (hordinary : ordinary s a) (hstep : step T s a = some (e, s')) :
    Counted s' := by
  have hparts := h
  obtain ⟨hunforced, hsize, hlt, hwrite, hmax, hread, hadmitted, hclaimed⟩ := hparts
  cases step_cases hstep with
  | @call i push v hp =>
      exact h.moves rfl hordinary rfl rfl rfl hlt (by rw [hp]; rfl) hwrite hmax
        (by rw [hp]; rfl) (by rw [hp]; rfl)
  | @enter i push v hp hroom =>
      refine h.moves rfl trivial rfl rfl rfl (u32.add_lt _ _) ?_ hwrite hmax ?_ (by rw [hp]; rfl)
      · rw [hp]
        show (u32.add s.queue.m_size 1 + s.admissions) % 2 ^ 32
          = (s.queue.m_size + (s.admissions + 1)) % 2 ^ 32
        rw [u32.add_add_mod, Nat.add_assoc, Nat.add_comm 1]
      · rw [hp]
        show s.claims.length + 1 + s.admissions = s.claims.length + (s.admissions + 1)
        omega
  | @refuse i push v hp hfull =>
      refine h.moves rfl ?_ rfl rfl rfl (u32.add_lt _ _) ?_ hwrite hmax (by rw [hp]; rfl)
        (by rw [hp]; rfl)
      · have hpush := hunforced i
        rwa [hp] at hpush
      · rw [hp]
        show (u32.add s.queue.m_size 1 + s.admissions) % 2 ^ 32
          = (s.queue.m_size + (s.admissions + 1)) % 2 ^ 32
        rw [u32.add_add_mod, Nat.add_assoc, Nat.add_comm 1]
  | @wait i push v hp hpush =>
      refine h.moves rfl ?_ rfl rfl rfl (u32.sub_lt _ _) ?_ hwrite hmax (by rw [hp]; rfl)
        (by rw [hp]; rfl)
      · show push.when_full ≠ .overwrite
        rw [hpush]
        exact nofun
      · rw [hp]
        show (u32.sub s.queue.m_size 1 + (s.admissions + 1)) % 2 ^ 32
          = (s.queue.m_size + s.admissions) % 2 ^ 32
        rw [Nat.add_comm s.admissions 1, u32.sub_add_mod]
  | @give_up i push v hp hpush =>
      refine h.moves rfl trivial rfl rfl rfl (u32.sub_lt _ _) ?_ hwrite hmax (by rw [hp]; rfl)
        (by rw [hp]; rfl)
      rw [hp]
      show (u32.sub s.queue.m_size 1 + (s.admissions + 1)) % 2 ^ 32
        = (s.queue.m_size + s.admissions) % 2 ^ 32
      rw [Nat.add_comm s.admissions 1, u32.sub_add_mod]
  | @overwrite i push v hp hpush =>
      have hnot := hunforced i
      rw [hp] at hnot
      exact absurd hpush hnot
  | @retract i v hp =>
      have hnot := hunforced i
      rw [hp] at hnot
      exact hnot.elim
  | @claim i v hp =>
      refine h.moves rfl trivial rfl rfl rfl hlt (by rw [hp]; rfl) ?_ hmax ?_ ?_
      · show u32.add s.queue.m_write 1 = (s.claims ++ [v]).length % 2 ^ 32
        rw [hwrite, u32.add_mod_left, List.length_append, List.length_singleton]
      · rw [hp]
        show (s.claims ++ [v]).length + s.admissions = s.claims.length + 1 + s.admissions
        rw [List.length_append, List.length_singleton]
      · rw [hp]
        show s.publications + 1 + s.claims.length = s.publications + (s.claims ++ [v]).length
        rw [List.length_append, List.length_singleton]
        omega
  | @write i v k hp =>
      exact h.moves rfl trivial rfl rfl rfl hlt (by rw [hp]; rfl) hwrite hmax
        (by rw [hp]; rfl) (by rw [hp]; rfl)
  | @publish i hp =>
      refine h.moves rfl trivial rfl rfl rfl hlt (by rw [hp]; rfl) hwrite ?_ (by rw [hp]; rfl) ?_
      · show u32.add s.queue.m_max_read 1 = (s.publications + 1) % 2 ^ 32
        rw [hmax, u32.add_mod_left]
      · rw [hp]
        rfl
  | nothing hc hnothing => exact h
  | check hc hsees =>
      exact ⟨hunforced, hsize, hlt, hwrite, hmax, by rw [hread, consumed, hc]; rfl, hadmitted,
        hclaimed⟩
  | take hc =>
      refine ⟨hunforced, hsize, hlt, hwrite, hmax, ?_, hadmitted, hclaimed⟩
      show u32.add s.queue.m_read 1 = (s.returned.length + 1) % 2 ^ 32
      rw [hread, consumed, hc, u32.add_mod_left]
      rfl
  | @move k hc =>
      exact ⟨hunforced, hsize, hlt, hwrite, hmax, by rw [consumed, hc] at hread; exact hread,
        hadmitted, hclaimed⟩
  | @release ret hc =>
      refine ⟨hunforced, ?_, u32.sub_lt _ _, hwrite, hmax, ?_, hadmitted, hclaimed⟩
      · show (u32.sub s.queue.m_size 1 + (s.returned ++ [ret]).length) % 2 ^ 32 = _
        rw [List.length_append, List.length_singleton, Nat.add_comm s.returned.length,
          u32.sub_add_mod]
        exact hsize
      · show s.queue.m_read = (s.returned ++ [ret]).length % 2 ^ 32
        rw [hread, consumed, hc, List.length_append]
        rfl

/-! ### What the consumer may take -/

/-- No pop compares `m_read` with `m_max_read` where `m_read + 1` wraps and nothing is there. -/
def not_at_wrap (s : System ι α) : Action ι α → Prop
  | .pop => s.consumer = .idle →
      ¬ (s.queue.m_read = 2 ^ 32 - 1 ∧ s.queue.m_max_read = 2 ^ 32 - 1)
  | _ => True

theorem Fed.step [Fintype ι] {s s' : System ι α} (h : Fed s) (hcounted : Counted s)
    {a : Action ι α} {e : Event α} (hwrap : not_at_wrap s a)
    (hstep : step T s a = some (e, s')) : Fed s' := by
  cases step_cases hstep with
  | publish hp => exact Nat.le_succ_of_le h
  | check hc hsees =>
      have hmax := hcounted.max_read
      have hread := hcounted.read
      have hne := hwrap hc
      rw [nothing_to_read, decide_eq_false_iff_not, hread, u32.add_mod_left, hmax] at hsees
      rw [hmax, hread] at hne
      unfold Fed at h
      rw [consumed, hc] at hsees hne
      rw [hc] at h
      show s.returned.length + 1 ≤ s.publications
      simp only [Consumer.holding, Consumer.taking] at hsees hne h
      omega
  | take hc =>
      rw [Fed, hc] at h
      exact h
  | move hc =>
      rw [Fed, hc] at h
      exact h
  | @release ret hc =>
      rw [Fed, hc] at h
      show (s.returned ++ [ret]).length + 0 ≤ s.publications
      rw [List.length_append]
      exact h
  | @retract i v hp =>
      have hnot := hcounted.unforced i
      rw [hp] at hnot
      exact hnot.elim
  | call hp | enter hp hroom | refuse hp hfull | wait hp hpush | give_up hp hpush
  | overwrite hp hpush | claim hp | write hp | nothing hc hread => exact h

end System

end Hyperion.LockFreeQueue
