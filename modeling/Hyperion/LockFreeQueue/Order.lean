/-
What the consumer gets.

Producers claim positions one after the other, write their elements in any order, and
then each adds one to `m_max_read`, which says how many positions from the front can be
read.  It does not say which, so the consumer gets what was pushed, in the order of the
claims, as long as a producer that publishes makes a position readable that has been
written.  With one producer it always does.
-/
import Hyperion.LockFreeQueue.Admission

namespace Hyperion.LockFreeQueue.System

variable {ι α : Type} {T : QueueElement α}

/-- A producer that publishes makes a position readable that has been written. -/
def publishes_written (s : System ι α) (a : Action ι α) : Prop :=
  s.ordinary a ∧ ∀ i, a = .advance i → s.producer i = .written →
    ∀ j v, s.producer j ≠ .claimed v s.queue.m_max_read

/-- A producer that is alone has written what it publishes. -/
theorem publishes_written_alone [Subsingleton ι] {s : System ι α} {a : Action ι α}
    (h : s.ordinary a) : s.publishes_written a := by
  refine ⟨h, ?_⟩
  intro i _ hp j v hj
  rw [Subsingleton.elim j i, hp] at hj
  cases hj

/-- No producer has yet to write that position. -/
def Written (s : System ι α) (p : Nat) : Prop := ∀ i v, s.producer i ≠ .claimed v p

/-- **Where the elements are.** -/
structure Ordered (s : System ι α) : Prop where
  claimed : ∀ i v p, s.producer i = .claimed v p → s.claims[p]? = some v
  apart : ∀ i j v w p, s.producer i = .claimed v p → s.producer j = .claimed w p → i = j
  unread : ∀ i v p, s.producer i = .claimed v p → s.publications ≤ p
  bounds : s.queue.m_buffer.slots = s.queue.m_capacity
  slots : ∀ p v, s.emptied ≤ p → s.claims[p]? = some v → s.Written p →
    (s.queue.m_buffer.cell (p % s.queue.m_capacity)).value = some v
  returned : s.returned = (s.claims.take s.returned.length).map some
  reading : ∀ k, s.consumer = .advanced k → k = s.returned.length % s.queue.m_capacity
  took : ∀ ret, s.consumer = .took ret →
    ∃ v, s.claims[s.returned.length]? = some v ∧ ret = some v

/-- Nothing happened yet. -/
theorem ordered_start (T : QueueElement α) (c : Nat) : Ordered (start T c : System ι α) where
  claimed _ _ _ h := by cases h
  apart _ _ _ _ _ h := by cases h
  unread _ _ _ h := by cases h
  bounds := construct_slots_slots T c _
  slots _ _ _ h := by cases h
  returned := rfl
  reading _ h := by cases h
  took _ h := by cases h

/-- The position the consumer is about to read was written, and is still in its slot. -/
theorem Ordered.front {s : System ι α} [Fintype ι] (h : Ordered s) (hcounted : Counted s)
    (hfed : Fed s) {k : Nat} (hc : s.consumer = .advanced k) :
    s.Written s.returned.length ∧ ∃ v, s.claims[s.returned.length]? = some v ∧
      (s.queue.m_buffer.cell k).value = some v := by
  have hpublished : s.returned.length < s.publications := by
    rw [Fed, hc] at hfed
    exact hfed
  have hclaimed := hcounted.claimed
  have hwritten : s.Written s.returned.length := by
    intro i v hp
    have hunread := h.unread i v _ hp
    omega
  obtain ⟨v, hv⟩ : ∃ v, s.claims[s.returned.length]? = some v :=
    ⟨_, List.getElem?_eq_getElem (by omega)⟩
  refine ⟨hwritten, v, hv, ?_⟩
  rw [h.reading k hc]
  exact h.slots _ v (by rw [emptied, hc]; exact Nat.le_refl _) hv hwritten

/-- Two positions in use at the same time are in different slots. -/
theorem Bounded.slots_apart [Fintype ι] {s : System ι α} (h : Bounded s) {p k : Nat}
    (hp : s.returned.length ≤ p) (hlt : p < k) (hk : k < s.claims.length) :
    p % s.queue.m_capacity ≠ k % s.queue.m_capacity := by
  intro heq
  have hapart := add_le_of_mod_eq hlt heq
  have hwithin := h.within
  have hadmitted := h.counted.admitted
  omega

/-- The consumer moves the element out of its slot. -/
theorem Ordered.move [Fintype ι] {s : System ι α} (h : Ordered s) (hbounded : Bounded s)
    {k : Nat} (hc : s.consumer = .advanced k) :
    Ordered { s with
      queue := (s.queue.move_slot T k).2, consumer := .took (s.queue.move_slot T k).1 } := by
  obtain ⟨-, v, hv, hslot⟩ := h.front hbounded.counted hbounded.fed hc
  have hlen := (List.getElem?_eq_some_iff.mp hv).1
  have hpos : 0 < s.queue.m_capacity := by
    have hwithin := hbounded.within
    have hadmitted := hbounded.counted.admitted
    omega
  have hk := h.reading k hc
  refine ⟨h.claimed, h.apart, h.unread, (Arena.moveFrom_slots _ _ _).trans h.bounds, ?_,
    h.returned, fun _ hconsumer => (by cases hconsumer), ?_⟩
  · intro p w hpe hw hwritten
    have hpe : s.returned.length + 1 ≤ p := hpe
    have hne : p % s.queue.m_capacity ≠ k := by
      rw [hk]
      exact (hbounded.slots_apart (Nat.le_refl _) hpe (List.getElem?_eq_some_iff.mp hw).1).symm
    show ((s.queue.m_buffer.moveFrom T.moved k).cell (p % s.queue.m_capacity)).value = some w
    rw [Arena.moveFrom_cell, Function.update_of_ne hne]
    exact h.slots p w (by rw [emptied, hc]; exact Nat.le_of_succ_le hpe) hw hwritten
  · intro ret hret
    cases hret
    refine ⟨v, hv, ?_⟩
    show s.queue.m_buffer.read k = some v
    rw [Arena.read, if_pos, hslot]
    rw [h.bounds, hk]
    exact Nat.mod_lt _ hpos

/-- The consumer returns the element. -/
theorem Ordered.release {s : System ι α} (h : Ordered s) {ret : Option α}
    (hc : s.consumer = .took ret) :
    Ordered { s with
      queue := s.queue.size_fetch_sub, consumer := .idle, returned := s.returned ++ [ret] } := by
  obtain ⟨v, hv, rfl⟩ := h.took ret hc
  refine ⟨h.claimed, h.apart, h.unread, h.bounds, ?_, ?_, fun _ hconsumer => (by cases hconsumer),
    fun _ hconsumer => (by cases hconsumer)⟩
  · intro p w hpe hw hwritten
    refine h.slots p w ?_ hw hwritten
    rw [emptied, List.length_append] at hpe
    rw [emptied, hc]
    exact hpe
  · show s.returned ++ [some v] = (s.claims.take (s.returned ++ [some v]).length).map some
    rw [List.length_append, List.length_singleton, List.take_add_one, hv, List.map_append,
      ← h.returned]
    rfl

/-- Nothing was claimed or written. -/
theorem Ordered.congr {s s' : System ι α} (h : Ordered s)
    (hproducer : ∀ j v k, s'.producer j = .claimed v k ↔ s.producer j = .claimed v k)
    (hbuffer : s'.queue.m_buffer = s.queue.m_buffer)
    (hcap : s'.queue.m_capacity = s.queue.m_capacity) (hclaims : s'.claims = s.claims)
    (hreturned : s'.returned = s.returned) (hconsumer : s'.consumer = s.consumer)
    (hunread : ∀ i v p, s.producer i = .claimed v p → s'.publications ≤ p) : Ordered s' := by
  have hwritten : ∀ p, s'.Written p → s.Written p :=
    fun p hp i v hi => hp i v ((hproducer i v p).mpr hi)
  refine ⟨?_, ?_, ?_, ?_, ?_, ?_, ?_, ?_⟩
  · intro i v p hi
    rw [hclaims]
    exact h.claimed i v p ((hproducer i v p).mp hi)
  · intro i j v w p hi hj
    exact h.apart i j v w p ((hproducer i v p).mp hi) ((hproducer j w p).mp hj)
  · intro i v p hi
    exact hunread i v p ((hproducer i v p).mp hi)
  · rw [hbuffer, hcap]
    exact h.bounds
  · intro p v hp hv hpw
    rw [hbuffer, hcap]
    rw [emptied, hreturned, hconsumer] at hp
    exact h.slots p v hp (hclaims ▸ hv) (hwritten p hpw)
  · rw [hreturned, hclaims]
    exact h.returned
  · rw [hconsumer, hreturned, hcap]
    exact h.reading
  · rw [hconsumer, hreturned, hclaims]
    exact h.took

variable [DecidableEq ι]

/-- A producer that goes from one place to another without a claim. -/
theorem moved_claimed_iff {s : System ι α} {i : ι} {p : Producer α}
    (hbefore : ∀ v k, s.producer i ≠ .claimed v k) (hafter : ∀ v k, p ≠ .claimed v k)
    (q : LockFreeQueue α) (j : ι) (v : α) (k : Nat) :
    (s.moved i p q).producer j = .claimed v k ↔ s.producer j = .claimed v k := by
  by_cases hj : j = i
  · subst hj
    show Function.update s.producer j p j = _ ↔ _
    rw [Function.update_self]
    exact ⟨fun h => absurd h (hafter v k), fun h => absurd h (hbefore v k)⟩
  · rw [moved_of_ne hj]

/-- A producer claims the next position. -/
theorem Ordered.claim [Fintype ι] {s : System ι α} (h : Ordered s) (hcounted : Counted s)
    (hfed : Fed s) (hfew : s.claims.length < 2 ^ 32) {i : ι} {v : α}
    (hp : s.producer i = .admitted v) :
    Ordered { s.moved i (.claimed v s.queue.m_write) s.queue.write_fetch_add.2 with
      claims := s.claims ++ [v] } := by
  have hwrite : s.queue.m_write = s.claims.length :=
    hcounted.write.trans (Nat.mod_eq_of_lt hfew)
  have hclaimed := hcounted.claimed
  have hle : s.returned.length ≤ s.claims.length := by
    unfold Fed at hfed
    omega
  -- a claim is the new one, or one of before
  have hcases : ∀ j w k, (s.moved i (.claimed v s.queue.m_write) s.queue.write_fetch_add.2).producer j
      = .claimed w k → (j = i ∧ w = v ∧ k = s.claims.length) ∨
        (j ≠ i ∧ s.producer j = .claimed w k) := by
    intro j w k hj
    by_cases hji : j = i
    · rw [hji] at hj
      have hnew := (Function.update_self ..).symm.trans hj
      rw [hwrite] at hnew
      cases hnew
      exact .inl ⟨hji, rfl, rfl⟩
    · rw [moved_of_ne hji] at hj
      exact .inr ⟨hji, hj⟩
  have hbefore : ∀ j w k, s.producer j = .claimed w k → k < s.claims.length :=
    fun j w k hj => (List.getElem?_eq_some_iff.mp (h.claimed j w k hj)).1
  refine ⟨?_, ?_, ?_, h.bounds, ?_, ?_, h.reading, ?_⟩
  · intro j w k hj
    show (s.claims ++ [v])[k]? = some w
    rcases hcases j w k hj with ⟨-, rfl, rfl⟩ | ⟨-, hj'⟩
    · exact List.getElem?_concat_length
    · rw [List.getElem?_append_left (hbefore j w k hj')]
      exact h.claimed j w k hj'
  · intro j l w x k hj hl
    rcases hcases j w k hj with ⟨rfl, -, hk⟩ | ⟨-, hj'⟩
    · rcases hcases l x k hl with ⟨rfl, -, -⟩ | ⟨-, hl'⟩
      · rfl
      · have hlt := hbefore l x k hl'
        omega
    · rcases hcases l x k hl with ⟨-, -, hk⟩ | ⟨-, hl'⟩
      · have hlt := hbefore j w k hj'
        omega
      · exact h.apart j l w x k hj' hl'
  · intro j w k hj
    show s.publications ≤ k
    rcases hcases j w k hj with ⟨-, -, hk⟩ | ⟨-, hj'⟩
    · omega
    · exact h.unread j w k hj'
  · intro p w hpe hw hwritten
    have hne : p ≠ s.claims.length := by
      intro heq
      refine hwritten i v ?_
      rw [heq, ← hwrite]
      exact Function.update_self ..
    have hlt : p < s.claims.length := by
      have hlen := (List.getElem?_eq_some_iff.mp hw).1
      rw [List.length_append, List.length_singleton] at hlen
      omega
    refine h.slots p w hpe ((List.getElem?_append_left hlt).symm.trans hw) ?_
    intro j x hj
    have hji : j ≠ i := by
      intro heq
      rw [heq, hp] at hj
      cases hj
    exact hwritten j x ((moved_of_ne hji _ s.queue.write_fetch_add.2).trans hj)
  · show s.returned = ((s.claims ++ [v]).take s.returned.length).map some
    rw [List.take_append_of_le_length hle]
    exact h.returned
  · intro ret hc
    obtain ⟨w, hw, hret⟩ := h.took ret hc
    refine ⟨w, ?_, hret⟩
    show (s.claims ++ [v])[s.returned.length]? = some w
    rw [List.getElem?_append_left (List.getElem?_eq_some_iff.mp hw).1]
    exact hw

/-- A producer writes the position it claimed. -/
theorem Ordered.write [Fintype ι] {s : System ι α} (h : Ordered s) (hbounded : Bounded s)
    {i : ι} {v : α} {k : Nat} (hp : s.producer i = .claimed v k) :
    Ordered (s.moved i .written (s.queue.assign_slot k v)) := by
  have hmine := h.claimed i v k hp
  have hk := (List.getElem?_eq_some_iff.mp hmine).1
  have hunread := h.unread i v k hp
  have hfed := hbounded.fed
  unfold Fed at hfed
  have hother : ∀ j w p, (s.moved i .written (s.queue.assign_slot k v)).producer j
      = .claimed w p → j ≠ i ∧ s.producer j = .claimed w p := by
    intro j w p hj
    by_cases hji : j = i
    · rw [hji] at hj
      cases (Function.update_self ..).symm.trans hj
    · exact ⟨hji, (moved_of_ne hji _ _).symm.trans hj⟩
  refine ⟨?_, ?_, ?_, ?_, ?_, h.returned, h.reading, h.took⟩
  · intro j w p hj
    exact h.claimed j w p (hother j w p hj).2
  · intro j l w x p hj hl
    exact h.apart j l w x p (hother j w p hj).2 (hother l x p hl).2
  · intro j w p hj
    exact h.unread j w p (hother j w p hj).2
  · exact (Arena.assign_slots _ _ _).trans h.bounds
  · intro p w hpe hw hwritten
    have hpe : s.emptied ≤ p := hpe
    have hw : s.claims[p]? = some w := hw
    have hlen := (List.getElem?_eq_some_iff.mp hw).1
    show ((s.queue.m_buffer.assign (k % s.queue.m_capacity) (some v)).cell
      (p % s.queue.m_capacity)).value = some w
    rw [Arena.assign_cell]
    unfold emptied at hpe
    by_cases hpk : p = k
    · rw [hpk, hmine] at hw
      rw [hpk, Function.update_self, hw]
    · have hslot : p % s.queue.m_capacity ≠ k % s.queue.m_capacity := by
        rcases Nat.lt_or_gt_of_ne hpk with hlt | hlt
        · exact hbounded.slots_apart (by omega) hlt hk
        · exact (hbounded.slots_apart (by omega) hlt hlen).symm
      rw [Function.update_of_ne hslot]
      refine h.slots p w hpe hw ?_
      intro j x hj
      have hji : j ≠ i := by
        intro heq
        rw [heq, hp] at hj
        cases hj
        exact hpk rfl
      exact hwritten j x ((moved_of_ne hji _ _).trans hj)

/-- **Every step in which a publication is of a written position keeps the elements in place.** -/
theorem Ordered.step [Fintype ι] {s s' : System ι α} (h : Ordered s) (hbounded : Bounded s)
    (hfew : s.admissions < 2 ^ 32 - 1) {a : Action ι α} {e : Event α}
    (hguard : s.publishes_written a) (hstep : step T s a = some (e, s')) : Ordered s' := by
  have hadmitted := hbounded.counted.admitted
  have hclaimed := hbounded.counted.claimed
  cases step_cases hstep with
  | call hp | refuse hp | wait hp | give_up hp | overwrite hp =>
      exact h.congr (moved_claimed_iff (by rw [hp]; nofun) nofun _) rfl rfl rfl rfl rfl h.unread
  | enter hp =>
      exact h.congr (moved_claimed_iff (by rw [hp]; nofun) nofun s.queue.size_fetch_add.2) rfl rfl
        rfl rfl rfl h.unread
  | @retract i v hp =>
      have hnot := hbounded.counted.unforced i
      rw [hp] at hnot
      exact hnot.elim
  | claim hp => exact h.claim hbounded.counted hbounded.fed (by omega) hp
  | write hp => exact h.write hbounded hp
  | @publish i hp =>
      refine h.congr (moved_claimed_iff (by rw [hp]; nofun) nofun s.queue.max_read_fetch_add) rfl
        rfl rfl rfl rfl ?_
      intro j v p hj
      have hunread := h.unread j v p hj
      have hmax := hbounded.counted.max_read
      rw [Nat.mod_eq_of_lt (by omega)] at hmax
      have hne : p ≠ s.publications := by
        intro heq
        rw [heq, ← hmax] at hj
        exact hguard.2 i rfl hp j v hj
      show s.publications + 1 ≤ p
      omega
  | nothing hc => exact h
  | check hc =>
      refine ⟨h.claimed, h.apart, h.unread, h.bounds, ?_, h.returned,
        fun _ hconsumer => (by cases hconsumer), fun _ hconsumer => (by cases hconsumer)⟩
      intro p v hpe
      exact h.slots p v (by rw [emptied, hc]; exact hpe)
  | take hc =>
      refine ⟨h.claimed, h.apart, h.unread, h.bounds, ?_, h.returned, ?_,
        fun _ hconsumer => (by cases hconsumer)⟩
      · intro p v hpe
        exact h.slots p v (by rw [emptied, hc]; exact hpe)
      · intro k hk
        cases hk
        have hread := hbounded.counted.read
        have hconsumed := hbounded.fed.consumed_le
        rw [Nat.mod_eq_of_lt (by omega), consumed, hc] at hread
        show s.queue.m_read % s.queue.m_capacity = _
        rw [hread]
        rfl
  | move hc => exact h.move hbounded hc
  | release hc => exact h.release hc

/-- **Order over a whole run.** -/
theorem ordered_run [Fintype ι] {c : Nat} (hwide : Wide c (Fintype.card ι))
    {as : List (Action ι α)} {es : List (Event α)} {s : System ι α}
    (hrun : Machine.Run (step T) publishes_written (start T c) as es s)
    (hfew : s.admissions < 2 ^ 32 - 1) : Bounded s ∧ Ordered s := by
  have hinv := hrun.invariant (P := fun s => s.admissions < 2 ^ 32 - 1 →
    (Bounded s ∧ s.queue.m_capacity = c) ∧ Ordered s) ?_ ?_ hfew
  · exact ⟨hinv.1.1, hinv.2⟩
  · intro s a e s' ih hguard hstep hfew'
    obtain ⟨hbounded, hordered⟩ := ih (Nat.lt_of_le_of_lt (admissions_le hstep) hfew')
    refine ⟨bounded_step hwide hbounded hguard.1 hstep hfew', ?_⟩
    exact hordered.step hbounded.1 (Nat.lt_of_le_of_lt (admissions_le hstep) hfew') hguard hstep
  · intro _
    exact ⟨⟨⟨counted_start T c, Nat.le_refl 0, Nat.zero_le _⟩, rfl⟩, ordered_start T c⟩

/-- What was returned is what was claimed first, and what is being read was written. -/
structure InClaimOrder (s : System ι α) : Prop where
  returned : s.returned = (s.claims.take s.returned.length).map some
  reading : ∀ k, s.consumer = .advanced k → s.Written s.returned.length ∧
    ∃ v, s.claims[s.returned.length]? = some v ∧ (s.queue.m_buffer.cell k).value = some v

/--
**The consumer gets what was pushed, in the order of the claims**, in every interleaving
of the producers of a wide queue in which each publication is of a written position.
-/
theorem in_claim_order [Fintype ι] {c : Nat} (hwide : Wide c (Fintype.card ι))
    {as : List (Action ι α)} {es : List (Event α)} {s : System ι α}
    (hrun : Machine.Run (step T) publishes_written (start T c) as es s)
    (hfew : s.admissions < 2 ^ 32 - 1) : InClaimOrder s := by
  obtain ⟨hbounded, hordered⟩ := ordered_run hwide hrun hfew
  exact ⟨hordered.returned, fun k hc => hordered.front hbounded.counted hbounded.fed hc⟩

/-- One producer, one push and one pop. -/
theorem in_claim_order_one : ∃ s : System Unit Nat, s.returned = [some 5] ∧
    InClaimOrder s := by
  obtain ⟨s, es, s', hs, hrun, hreturned⟩ := Machine.exists_run (step QueueElement.owning)
    ordinary (some (start QueueElement.owning 1))
    [.call () .push_back 5, .advance (), .advance (), .advance (), .advance (),
      .pop, .pop, .pop, .pop]
    (fun r => r.2.returned == [some 5] && r.2.admissions == 1) (by decide +kernel)
  cases hs
  obtain ⟨hreturned, hadm⟩ := Bool.and_eq_true_iff.mp hreturned
  have halone := hrun.mono fun _ _ h => publishes_written_alone h
  have hfew : s'.admissions < 2 ^ 32 - 1 := by
    rw [eq_of_beq hadm]
    decide
  exact ⟨s', eq_of_beq hreturned, in_claim_order (.inl (by decide)) halone hfew⟩

/-- The second producer is done first, and the consumer reads the slot of the first. -/
theorem unwritten_slot_read : ¬ ∀ (c n : Nat) (as : List (Action (Fin n) Nat))
    (es : List (Event Nat)) (s : System (Fin n) Nat), 1 ≤ c → c < 2 ^ 32 →
    Machine.Run (step QueueElement.owning) ordinary (start QueueElement.owning c) as es s →
    s.admissions < 2 ^ 32 - 1 → InClaimOrder s := by
  intro hclaim
  obtain ⟨s, es, s', hs, hrun, hlast⟩ := Machine.exists_run (step QueueElement.owning)
    ordinary (some (start QueueElement.owning 2))
    [.call (0 : Fin 2) .push_back 5, .advance 0, .advance 0,
      .call 1 .push_back 6, .advance 1, .advance 1, .advance 1, .advance 1,
      .pop, .pop, .pop, .pop]
    (fun r => (r.2.claims == [5, 6] && r.2.returned == [some 0]) && r.2.admissions == 2)
    (by decide +kernel)
  cases hs
  obtain ⟨hlast, hadm⟩ := Bool.and_eq_true_iff.mp hlast
  obtain ⟨hclaims, hreturned⟩ := Bool.and_eq_true_iff.mp hlast
  have hfew : s'.admissions < 2 ^ 32 - 1 := by
    rw [eq_of_beq hadm]
    decide
  have horder := (hclaim 2 2 _ es s' (by decide) (by decide) hrun hfew).returned
  rw [eq_of_beq hclaims, eq_of_beq hreturned] at horder
  exact absurd horder (by decide)

end Hyperion.LockFreeQueue.System
