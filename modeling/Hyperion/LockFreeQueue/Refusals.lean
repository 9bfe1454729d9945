/-
What `size` shows and why a push is refused.

A refused push raises `m_size` for a moment, above the capacity when the queue is full,
and that moment is visible: `size` reports it, and other pushes are refused because of
it, also when a pop has made room in between.  Both are right as long as pushes do not
meet that way.
-/
import Hyperion.LockFreeQueue.Admission

namespace Hyperion.LockFreeQueue

/--
The threads of a queue, and for each producer whether at some moment of its call the
queue held as many elements as it has slots.
-/
structure Watched (ι α : Type) where
  system : System ι α
  seen_full : ι → Bool

namespace Watched

variable {ι α : Type} [DecidableEq ι] {T : QueueElement α}

/-- Nobody has called anything. -/
def start (T : QueueElement α) (capacity : Nat) : Watched ι α :=
  ⟨System.start T capacity, fun _ => false⟩

/-- What has been seen, once the system is in the next state; a call starts anew. -/
def observe (w : Watched ι α) (a : Action ι α) (s : System ι α) : ι → Bool := fun i =>
  (match a with
    | .call j _ _ => j ≠ i && w.seen_full i
    | _ => w.seen_full i) || s.queue.m_capacity ≤ s.held

/-- A step of the system. -/
def step (T : QueueElement α) (w : Watched ι α) (a : Action ι α) :
    Option (Event α × Watched ι α) :=
  (w.system.step T a).map fun (e, s) => (e, ⟨s, w.observe a s⟩)

theorem step_system {w w' : Watched ι α} {a : Action ι α} {e : Event α}
    (h : w.step T a = some (e, w')) :
    w.system.step T a = some (e, w'.system) ∧ w'.seen_full = w.observe a w'.system := by
  obtain ⟨⟨e', s⟩, hstep, heq⟩ := Option.map_eq_some_iff.mp h
  cases heq
  exact ⟨hstep, rfl⟩

/-- What was seen in a call is not forgotten before the next one. -/
theorem observe_of_seen {w : Watched ι α} {a : Action ι α} {i : ι} {s : System ι α}
    (hcall : ∀ push v, a ≠ .call i push v) (h : w.seen_full i = true) :
    w.observe a s i = true := by
  unfold observe
  cases a with
  | call j push v =>
      have hne : j ≠ i := fun heq => hcall push v (heq ▸ rfl)
      simp [hne, h]
  | advance j => simp [h]
  | pop => simp [h]

/--
No push tries to get in while the queue holds as many elements as it has slots.  Where
`m_capacity` is the largest number there is, `size` cannot exceed it.
-/
def tries_with_room (w : Watched ι α) (a : Action ι α) : Prop :=
  w.system.ordinary a ∧ (w.system.queue.m_capacity = 2 ^ 32 - 1 ∨
    w.system.not_at_wrap a ∧ ∀ i push v, a = .advance i →
      w.system.producer i = .called push v → w.system.held < w.system.queue.m_capacity)

variable [Fintype ι]

/--
No push tries to get in while the queue holds fewer elements than it has slots, and only
the pushes about to be turned away make up the difference.
-/
def tries_alone (w : Watched ι α) (a : Action ι α) : Prop :=
  w.system.ordinary a ∧ w.system.not_at_wrap a ∧ ∀ i push v, a = .advance i →
    w.system.producer i = .called push v → w.system.held < w.system.queue.m_capacity →
      (w.system.held + Threads.count Producer.backing_out w.system.producer) % 2 ^ 32
        < w.system.queue.m_capacity

/-- Nobody is refused, so that `m_size` is what the queue holds. -/
structure Unhindered (s : System ι α) : Prop where
  bounded : s.Bounded
  admitted : ∀ i, (s.producer i).backing_out = false

omit [DecidableEq ι] in
theorem Unhindered.size_eq {s : System ι α} (h : Unhindered s)
    (hcap : s.queue.m_capacity < 2 ^ 32) : s.queue.m_size = s.held ∧
      s.held ≤ s.queue.m_capacity := by
  have hwithin := h.bounded.within
  have hsize := System.size_mod h.bounded.counted h.bounded.fed
  rw [Threads.count_eq_zero h.admitted, Nat.add_zero] at hsize
  have hheld : s.held ≤ s.queue.m_capacity := by
    unfold System.held
    omega
  rw [Nat.mod_eq_of_lt (by omega)] at hsize
  exact ⟨hsize, hheld⟩

/-- **With room for every push that tries, none is refused.** -/
theorem Unhindered.step {w w' : Watched ι α} (h : Unhindered w.system) {a : Action ι α}
    {e : Event α} (hcap : w.system.queue.m_capacity < 2 ^ 32)
    (hordinary : w.system.ordinary a) (hwrap : w.system.not_at_wrap a)
    (hroom : ∀ i push v, a = .advance i → w.system.producer i = .called push v →
      w.system.held < w.system.queue.m_capacity)
    (hstep : w.system.step T a = some (e, w'.system)) : Unhindered w'.system := by
  refine ⟨h.bounded.step hordinary hwrap (fun i push v ha hp _ _ => hroom i push v ha hp) hstep, ?_⟩
  have hadmitted := h.admitted
  obtain ⟨hsize, -⟩ := h.size_eq hcap
  have hmoved : ∀ (i : ι) (p : Producer α), p.backing_out = false →
      ∀ j, (Function.update w.system.producer i p j).backing_out = false := by
    intro i p hp j
    rw [Function.update_apply]
    by_cases hj : j = i
    · rw [if_pos hj]
      exact hp
    · rw [if_neg hj]
      exact hadmitted j
  generalize w'.system = s' at hstep
  cases System.step_cases hstep
  case refuse i push v hp hfull =>
    have hheld := hroom i push v rfl hp
    omega
  case nothing | check | take | move | release => exact hadmitted
  all_goals exact hmoved _ _ rfl

theorem size_le {c : Nat} (hc : c < 2 ^ 32) {as : List (Action ι α)} {es : List (Event α)}
    {w : Watched ι α} (hrun : Machine.Run (step T) tries_with_room (start T c) as es w) :
    w.system.queue.size ≤ c := by
  have hinv := hrun.invariant (P := fun w => w.system.queue.m_capacity = c ∧
    w.system.Counted ∧ (c = 2 ^ 32 - 1 ∨ Unhindered w.system)) ?_ ?_
  · obtain ⟨hcap, hcounted, hlargest | hadmitted⟩ := hinv
    · have hlt := hcounted.size_lt
      show w.system.queue.m_size ≤ c
      omega
    · obtain ⟨hsize, hheld⟩ := hadmitted.size_eq (by omega)
      show w.system.queue.m_size ≤ c
      omega
  · intro w a e w' ⟨hcap, hcounted, hrest⟩ ⟨hordinary, hguard⟩ hstep
    obtain ⟨hsystem, -⟩ := step_system hstep
    refine ⟨(System.step_capacity hsystem).trans hcap, hcounted.step hordinary hsystem, ?_⟩
    rcases hrest with hlargest | hadmitted
    · exact .inl hlargest
    · rcases hguard with hlargest | ⟨hwrap, hroom⟩
      · exact .inl (hcap.symm.trans hlargest)
      · exact .inr (hadmitted.step (by omega) hordinary hwrap hroom hsystem)
  · exact ⟨rfl, System.counted_start T c,
      .inr ⟨⟨System.counted_start T c, Nat.le_refl 0, Nat.zero_le _⟩, fun _ => rfl⟩⟩

/-- A push that is about to be turned away has seen the queue full. -/
structure Justified (w : Watched ι α) : Prop where
  counted : w.system.Counted
  fed : w.system.Fed
  seen : ∀ i push v, w.system.producer i = .refused push v → w.seen_full i = true

theorem Justified.step {w w' : Watched ι α} (h : Justified w) {a : Action ι α} {e : Event α}
    (hguard : w.tries_alone a) (hstep : w.step T a = some (e, w')) : Justified w' := by
  obtain ⟨hordinary, hwrap, halone⟩ := hguard
  obtain ⟨hsystem, hseen⟩ := step_system hstep
  refine ⟨h.counted.step hordinary hsystem, h.fed.step h.counted hwrap hsystem, ?_⟩
  intro j push' v' hj
  rw [hseen]
  generalize w'.system = s' at hsystem hj
  -- a producer that was refused before this step keeps what it has seen
  have hkept : (∀ push v, a ≠ .call j push v) → w.system.producer j = .refused push' v' →
      w.observe a s' j = true := fun hcall hp => observe_of_seen hcall (h.seen j push' v' hp)
  have hmoved : ∀ (i : ι) (p : Producer α), p.backing_out = false →
      Function.update w.system.producer i p j = .refused push' v' →
      j ≠ i ∧ w.system.producer j = .refused push' v' := by
    intro i p hp hj
    have hne : j ≠ i := by
      intro heq
      rw [heq, Function.update_self] at hj
      rw [hj] at hp
      cases hp
    exact ⟨hne, by rwa [Function.update_of_ne hne] at hj⟩
  cases System.step_cases hsystem
  case call i push v hp =>
    obtain ⟨hne, hj⟩ := hmoved _ _ rfl hj
    exact hkept (fun _ _ heq => hne (by cases heq; rfl)) hj
  case refuse i push v hp hfull =>
    by_cases hji : j = i
    · have hsize := System.size_mod h.counted h.fed
      have hheld : w.system.queue.m_capacity ≤ w.system.held := by
        by_contra hroom
        have hlt := halone i push v rfl hp (Nat.lt_of_not_le hroom)
        omega
      unfold observe
      rw [Bool.or_eq_true]
      exact .inr (decide_eq_true hheld)
    · exact hkept nofun (by rwa [System.moved_of_ne hji] at hj)
  case nothing | check | take | move | release => exact hkept nofun hj
  all_goals exact hkept nofun (hmoved _ _ rfl hj).2

/--
**`size` does not exceed the capacity, and a push that returns false has seen the queue
full**, the first as long as no push tries while the queue holds what it can, the second
as long as none tries while only other refused pushes stand in its way.
-/
theorem size_and_refusals {c : Nat} (hc : c < 2 ^ 32) :
    (∀ (as : List (Action ι α)) (es : List (Event α)) (w : Watched ι α),
      Machine.Run (step T) tries_with_room (start T c) as es w → w.system.queue.size ≤ c) ∧
    ∀ (as : List (Action ι α)) (es : List (Event α)) (w : Watched ι α),
      Machine.Run (step T) tries_alone (start T c) as es w →
      ∀ i w', w.step T (.advance i) = some (.pushed false, w') → w.seen_full i = true := by
  refine ⟨fun as es w hrun => size_le hc hrun, ?_⟩
  intro as es w hrun i w' hstep
  have hinv : Justified w := by
    refine hrun.invariant (P := Justified) ?_ ?_
    · intro w a e w' h hguard hstep
      exact h.step hguard hstep
    · exact ⟨System.counted_start T c, Nat.le_refl 0, nofun⟩
  obtain ⟨hsystem, -⟩ := step_system hstep
  generalize hs' : w'.system = s' at hsystem
  cases System.step_cases hsystem with
  | @give_up i push v hp hpush => exact hinv.seen i push v hp

/-- One push into a queue of one slot. -/
theorem size_and_refusals_one : ∃ w : Watched (Fin 2) Nat, w.system.admissions = 1 ∧
    w.system.queue.size ≤ 1 := by
  have hcall : tries_with_room (start QueueElement.owning 1 : Watched (Fin 2) Nat)
      (.call 0 .try_push_back 5) := ⟨nofun, .inr ⟨trivial, nofun⟩⟩
  have hrun : Machine.Run (step QueueElement.owning) tries_with_room
      (start QueueElement.owning 1 : Watched (Fin 2) Nat)
      [.call 0 .try_push_back 5, .advance 0] _ _ :=
    .cons hcall rfl (.single ⟨trivial, .inr ⟨trivial, fun _ _ _ _ _ => Nat.one_pos⟩⟩ rfl)
  exact ⟨_, rfl, (size_and_refusals (by decide)).1 _ _ _ hrun⟩

/--
A refused push shows in `size`; and after a pop has emptied the queue, a push is refused
because of another one that was.
-/
theorem refused_push_counts :
    (¬ ∀ (c n : Nat) (as : List (Action (Fin n) Nat)) (es : List (Event Nat))
      (w : Watched (Fin n) Nat), 1 ≤ c → c < 2 ^ 32 →
      Machine.Run (step QueueElement.owning) (fun w a => w.system.ordinary a)
        (start QueueElement.owning c) as es w → w.system.queue.size ≤ c) ∧
    ¬ ∀ (c n : Nat) (as : List (Action (Fin n) Nat)) (es : List (Event Nat))
      (w : Watched (Fin n) Nat), 1 ≤ c → c < 2 ^ 32 →
      Machine.Run (step QueueElement.owning) (fun w a => w.system.ordinary a)
        (start QueueElement.owning c) as es w →
      ∀ i w', w.step QueueElement.owning (.advance i) = some (.pushed false, w') →
        w.seen_full i = true := by
  constructor
  · intro hclaim
    obtain ⟨w, es, w', hw, hrun, hsize⟩ := Machine.exists_run (step QueueElement.owning)
      (fun w a => w.system.ordinary a) (some (start QueueElement.owning 1))
      [.call (0 : Fin 2) .try_push_back 5, .advance 0, .advance 0, .advance 0, .advance 0,
        .call 1 .try_push_back 6, .advance 1]
      (fun r => r.2.system.queue.size == 2) (by decide +kernel)
    cases hw
    have hle := hclaim 1 2 _ es w' (Nat.le_refl 1) (by decide) hrun
    rw [eq_of_beq hsize] at hle
    exact absurd hle (by decide)
  · intro hclaim
    obtain ⟨w, es, w', hw, hrun, hlast⟩ := Machine.exists_run (step QueueElement.owning)
      (fun w a => w.system.ordinary a) (some (start QueueElement.owning 1))
      [.call (0 : Fin 3) .try_push_back 5, .advance 0, .advance 0, .advance 0, .advance 0,
        .call 1 .try_push_back 6, .advance 1, .pop, .pop, .pop, .pop,
        .call 2 .try_push_back 7, .advance 2]
      (fun r => r.2.seen_full 2 == false &&
        ((r.2.step QueueElement.owning (.advance 2)).map Prod.fst == some (.pushed false)))
      (by decide +kernel)
    cases hw
    obtain ⟨hunseen, hfalse⟩ := Bool.and_eq_true_iff.mp hlast
    obtain ⟨⟨e, w''⟩, hstep, he⟩ := Option.map_eq_some_iff.mp (eq_of_beq hfalse)
    cases he
    have hseen := hclaim 1 3 _ es w' (Nat.le_refl 1) (by decide) hrun 2 w'' hstep
    rw [eq_of_beq hunseen] at hseen
    cases hseen

end Watched

end Hyperion.LockFreeQueue
