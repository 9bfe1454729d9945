/-
How many permits are outstanding.

`SingleThreadedAsync::log` releases a permit for every entry that passes the level filter,
whether or not the queue takes it, and the destructor releases one more.  The thread
acquires them one at a time, and nothing makes it do so in time.  So the interleavings of
a program keep within `QUEUE_SIZE`, the maximum of the semaphore, exactly when the program
releases no more than that altogether.  Only a push that waits could hold the caller back
before, and it does when the queue has fewer slots than `QUEUE_SIZE`.
-/
import Hyperion.Logger.FullQueue

namespace Hyperion.AsyncLogger

open LockFreeQueue

variable {p : AsyncParameters} {T : QueueElement Entry}

/-- The calls of `log` a program makes, and whether it then destroys the logger. -/
structure Program where
  calls : List LogCall
  destroys : Bool

/-- How often the program releases the semaphore. -/
def Program.releases (p : AsyncParameters) (program : Program) : Nat :=
  program.calls.countP (fun call => p.passes call.entry) + program.destroys.toNat

/-- The call an action begins. -/
def logged : Action Unit → Option LogCall
  | .log _ call => some call
  | _ => none

/-- A step of the destructor. -/
def is_destroy : Action Unit → Bool
  | .destroy => true
  | _ => false

/-- The actions of the program and of the thread, up to some point. -/
def Follows (program : Program) (as : List (Action Unit)) : Prop :=
  as.filterMap logged <+: program.calls ∧
    (as.any is_destroy = true → program.destroys = true ∧ as.filterMap logged = program.calls)

/-! ### No more permits than releases -/

/-- How many permits a caller is about to release. -/
def signals : Caller → Nat
  | .signalling _ => 1
  | _ => 0

/-- How many calls in a list of actions pass the level filter. -/
def asked (p : AsyncParameters) (as : List (Action Unit)) : Nat :=
  (as.filterMap logged).countP fun call => p.passes call.entry

theorem asked_log (p : AsyncParameters) (as : List (Action Unit)) (call : LogCall) :
    asked p (as ++ [.log () call]) = asked p as + (p.passes call.entry).toNat := by
  unfold asked
  rw [List.filterMap_append, List.countP_append, List.filterMap_cons_some (rfl : logged _ = _),
    List.countP_cons]
  cases p.passes call.entry <;> rfl

theorem asked_other (p : AsyncParameters) (as : List (Action Unit)) {a : Action Unit}
    (h : logged a = none) : asked p (as ++ [a]) = asked p as := by
  unfold asked
  rw [List.filterMap_append, List.filterMap_cons_none h]
  exact congrArg _ (List.append_nil _)

/-- The permits, and those about to be released, were asked for. -/
structure Asked (p : AsyncParameters) (s : AsyncLogger Unit) (as : List (Action Unit)) :
    Prop where
  alive : s.owner = .alive → s.m_signal + signals (s.caller ()) ≤ asked p as
  stopped : s.owner ≠ .alive → s.m_signal + signals (s.caller ()) + stops s.owner
    ≤ asked p as + 1 ∧ as.any is_destroy = true

/-- An action that is no call, and releases nothing new. -/
theorem Asked.other {s s' : AsyncLogger Unit} {as : List (Action Unit)} (h : Asked p s as)
    {a : Action Unit} (ha : logged a = none) (howner : s'.owner = s.owner)
    (hle : s'.m_signal + signals (s'.caller ()) ≤ s.m_signal + signals (s.caller ())) :
    Asked p s' (as ++ [a]) := by
  refine ⟨fun halive => ?_, fun hstopped => ?_⟩
  · have hpermits := h.alive (howner ▸ halive)
    rw [asked_other p as ha]
    omega
  · obtain ⟨hpermits, hdestroy⟩ := h.stopped (howner ▸ hstopped)
    rw [asked_other p as ha, howner, List.any_append, hdestroy]
    exact ⟨by omega, rfl⟩

/-- **Every step releases only what was asked for.** -/
theorem Asked.step {s s' : AsyncLogger Unit} {as : List (Action Unit)} (h : Asked p s as)
    {a : Action Unit} (hmove : Move p T s a s') : Asked p s' (as ++ [a]) := by
  cases hmove with
  | filtered ho hidle hlow =>
      refine ⟨fun halive => ?_, fun hstopped => absurd ho hstopped⟩
      rw [asked_log, hlow]
      exact h.alive halive
  | signal ho hidle hpasses =>
      refine ⟨fun halive => ?_, fun hstopped => absurd ho hstopped⟩
      have hpermits := h.alive halive
      rw [asked_log, hpasses]
      show s.m_signal + signals (Function.update s.caller () _ ()) ≤ asked p as + 1
      rw [Function.update_self]
      exact Nat.add_le_add (Nat.le_trans (Nat.le_add_right _ _) hpermits) (Nat.le_refl 1)
  | enqueue ho hidle hpasses =>
      refine ⟨fun halive => ?_, fun hstopped => absurd ho hstopped⟩
      have hpermits := h.alive halive
      rw [asked_log]
      show s.m_signal + signals (Function.update s.caller () _ ()) ≤ _
      rw [Function.update_self]
      show s.m_signal ≤ _
      omega
  | release hc =>
      refine h.other rfl rfl ?_
      rw [hc]
      show s.m_signal + 1 + signals (Function.update s.caller () _ ()) ≤ s.m_signal + 1
      rw [Function.update_self]
      exact Nat.le_refl _
  | access hc => exact h.other rfl rfl (Nat.le_refl _)
  | pushed hc =>
      refine h.other rfl rfl ?_
      show s.m_signal + signals (Function.update s.caller () _ ()) ≤ _
      rw [Function.update_self]
      exact Nat.le_add_right _ _
  | request_stop ho hidle =>
      refine ⟨nofun, fun _ => ⟨?_, ?_⟩⟩
      · have hpermits := h.alive ho
        rw [asked_other p as rfl]
        exact Nat.add_le_add hpermits (Nat.le_refl 1)
      · rw [List.any_append]
        exact Bool.or_true _
  | release_stop ho =>
      refine ⟨nofun, fun _ => ?_⟩
      obtain ⟨hpermits, hdestroy⟩ := h.stopped (by rw [ho]; nofun)
      rw [ho] at hpermits
      rw [asked_other p as rfl, List.any_append, hdestroy]
      refine ⟨?_, rfl⟩
      show s.m_signal + 1 + signals (s.caller ()) + 0 ≤ _
      simp only [stops] at hpermits
      omega
  | join ho =>
      refine ⟨nofun, fun _ => ?_⟩
      obtain ⟨hpermits, hdestroy⟩ := h.stopped (by rw [ho]; nofun)
      rw [ho] at hpermits
      rw [asked_other p as rfl, List.any_append, hdestroy]
      exact ⟨hpermits, rfl⟩
  | check | read | nothing | message | sink => exact h.other rfl rfl (Nat.le_refl _)
  | acquire ht hpos =>
      refine h.other rfl rfl ?_
      show s.m_signal - 1 + signals (s.caller ()) ≤ _
      omega

/-- A program releases no more than it does altogether. -/
theorem permits_le {program : Program} {sinks : List Sink} {as : List (Action Unit)}
    {os : List Unit} {s : AsyncLogger Unit} (hfollows : Follows program as)
    (hrun : Machine.Run (step p T) (fun _ _ => True) (start p T sinks) as os s) :
    s.m_signal ≤ program.releases p := by
  have hasked : Asked p s ([] ++ as) := by
    refine hrun.history (R := Asked p) ?_ ⟨fun _ => Nat.le_refl 0, fun h => absurd rfl h⟩
    intro s is a o s' h _ hstep
    exact h.step (step_cases hstep)
  have hcalls : asked p as ≤ program.calls.countP fun call => p.passes call.entry :=
    hfollows.1.sublist.countP_le
  unfold Program.releases
  by_cases halive : s.owner = .alive
  · have hpermits := hasked.alive halive
    rw [List.nil_append] at hpermits
    omega
  · obtain ⟨hpermits, hdestroy⟩ := hasked.stopped halive
    rw [List.nil_append] at hpermits hdestroy
    rw [(hfollows.2 hdestroy).1]
    show _ ≤ _ + 1
    omega

/-! ### As many permits as releases -/

/-- A call of `push` that the producer takes to its end, the queue being `q'` then. -/
inductive Pushes (T : QueueElement Entry) : System Unit Entry → System Unit Entry → Prop
  | returns {q q' ok} (h : System.Access T q (.advance ()) (.pushed ok) q') : Pushes T q q'
  | goes_on {q mid q'} (h : System.Access T q (.advance ()) .ongoing mid)
      (hrest : Pushes T mid q') : Pushes T q q'

/-- From `s` the calls can be made, and `P` holds after them. -/
def Makes (p : AsyncParameters) (T : QueueElement Entry) (s : AsyncLogger Unit)
    (calls : List LogCall) (P : AsyncLogger Unit → Prop) : Prop :=
  ∃ as os s', Machine.Run (step p T) (fun _ _ => True) s as os s' ∧
    as.filterMap logged = calls ∧ as.any is_destroy = false ∧ P s'

/-- One action, and what is made after it. -/
theorem Makes.cons {s mid : AsyncLogger Unit} {a : Action Unit} {calls : List LogCall}
    {P : AsyncLogger Unit → Prop} (hmove : Move p T s a mid) (ha : is_destroy a = false)
    (hrest : Makes p T mid calls P) : Makes p T s ((logged a).toList ++ calls) P := by
  obtain ⟨as, os, s', hrun, hcalls, hdestroy, hP⟩ := hrest
  refine ⟨a :: as, () :: os, s', .cons trivial hmove.step hrun, ?_, ?_, hP⟩
  · rw [← hcalls]
    cases hlogged : logged a with
    | none => rw [List.filterMap_cons_none hlogged]; rfl
    | some call => rw [List.filterMap_cons_some hlogged]; rfl
  · rw [List.any_cons, ha, hdestroy]
    rfl

theorem Makes.append {s : AsyncLogger Unit} {calls more : List LogCall}
    {P Q : AsyncLogger Unit → Prop} (h : Makes p T s calls P)
    (hrest : ∀ s', P s' → Makes p T s' more Q) : Makes p T s (calls ++ more) Q := by
  obtain ⟨as, os, mid, hrun, hcalls, hdestroy, hP⟩ := h
  obtain ⟨bs, ps, s', hrun', hcalls', hdestroy', hQ⟩ := hrest mid hP
  refine ⟨as ++ bs, os ++ ps, s', hrun.append hrun', ?_, ?_, hQ⟩
  · rw [List.filterMap_append, hcalls, hcalls']
  · rw [List.any_append, hdestroy, hdestroy']
    rfl

/-- The logger's caller takes the accesses of its push. -/
theorem Pushes.makes {q q' : System Unit Entry} (h : Pushes T q q') :
    ∀ {s : AsyncLogger Unit} {entry : Entry}, s.m_queue = q → s.caller () = .pushing entry →
      Makes p T s [] fun s' => s'.m_queue = q' ∧ s'.caller () = .idle ∧ s'.owner = s.owner ∧
        s'.m_signal = s.m_signal := by
  induction h with
  | returns haccess =>
      intro s entry hq hc
      subst hq
      exact ⟨[.caller ()], _, _, .single trivial (Move.pushed hc haccess.step).step, rfl, rfl,
        rfl, rfl, rfl, rfl⟩
  | goes_on haccess _ ih =>
      intro s entry hq hc
      subst hq
      exact .cons (.access hc haccess.step nofun) rfl (ih rfl hc)

/-- Between two calls, when the thread has not moved: `n` permits, and no more entries. -/
structure Ready (p : AsyncParameters) (n : Nat) (s : AsyncLogger Unit) : Prop where
  alive : s.owner = .alive
  idle : s.caller () = .idle
  producer : s.m_queue.producer () = .idle
  capacity : s.m_queue.queue.m_capacity = p.capacity
  size : s.m_queue.queue.m_size ≤ n ∧ s.m_queue.queue.m_size < 2 ^ 32
  signal : s.m_signal = n

theorem ready_start (p : AsyncParameters) (T : QueueElement Entry) (sinks : List Sink) :
    Ready p 0 (start p T sinks) :=
  ⟨rfl, rfl, rfl, rfl, ⟨Nat.le_refl 0, Nat.two_pow_pos 32⟩, rfl⟩

/-- What a push leaves when it has returned. -/
structure Pushed (q q' : System Unit Entry) : Prop where
  producer : q'.producer () = .idle
  capacity : q'.queue.m_capacity = q.queue.m_capacity
  size : q'.queue.m_size ≤ q.queue.m_size + 1 ∧ q'.queue.m_size < 2 ^ 32

/-- A push that is admitted. -/
theorem admitted_push {q : System Unit Entry} (hidle : q.producer () = .idle)
    (hroom : q.queue.m_size < q.queue.m_capacity) (push : Push) (v : Entry) :
    ∃ q₁ q', System.Access T q (.call () push v) .ongoing q₁ ∧ Pushes T q₁ q' ∧ Pushed q q' := by
  have hle : u32.add q.queue.m_size 1 ≤ q.queue.m_size + 1 := u32.add_le _ _
  refine ⟨_, _, .call hidle, .goes_on (.enter (v := v) rfl hroom) (.goes_on (.claim (v := v) rfl)
    (.goes_on (.write (v := v) (k := q.queue.m_write) rfl) (.returns (.publish rfl)))), ?_⟩
  exact ⟨rfl, rfl, hle, u32.add_lt _ _⟩

/-- A push that is not admitted, and does not wait. -/
theorem refused_push {q : System Unit Entry} (hidle : q.producer () = .idle)
    (hfull : q.queue.m_capacity ≤ q.queue.m_size) (hlt : q.queue.m_size < 2 ^ 32) {push : Push}
    (hpush : push.when_full ≠ .wait) (v : Entry) :
    ∃ q₁ q', System.Access T q (.call () push v) .ongoing q₁ ∧ Pushes T q₁ q' ∧ Pushed q q' := by
  have hsame : u32.sub (u32.add q.queue.m_size 1) 1 = q.queue.m_size := u32.sub_add_one hlt
  have hle : u32.sub (u32.add q.queue.m_size 1) 1 ≤ q.queue.m_size + 1 := by omega
  have hsize : u32.sub (u32.add q.queue.m_size 1) 1 < 2 ^ 32 := u32.sub_lt _ _
  cases hwhen : push.when_full with
  | wait => exact absurd hwhen hpush
  | give_up =>
      refine ⟨_, _, .call hidle, .goes_on (.refuse (v := v) rfl hfull)
        (.returns (.give_up (v := v) rfl hwhen)), ?_⟩
      exact ⟨rfl, rfl, hle, hsize⟩
  | overwrite =>
      refine ⟨_, _, .call hidle, .goes_on (.refuse (v := v) rfl hfull)
        (.goes_on (.overwrite (v := v) rfl hwhen) (.goes_on (.retract (v := v) rfl)
          (.goes_on (.write (v := v) (k := q.queue.m_max_read) rfl) (.returns (.publish rfl))))), ?_⟩
      exact ⟨rfl, rfl, hle, hsize⟩

/-- A call that passes the filter releases a permit, and its push returns. -/
theorem Ready.accepted {s : AsyncLogger Unit} {n : Nat} (h : Ready p n s) {call : LogCall}
    (hsingle : p.THREADING_POLICY = .SingleThreadedAsync)
    (hpasses : p.passes call.entry = true)
    (hroom : n < p.capacity ∨ p.ASYNC_POLICY ≠ .BlockWhenFull) :
    Makes p T s [call] (Ready p (n + 1)) := by
  have hpush : ∃ q₁ q', System.Access T s.m_queue (.call () p.get_queue_policy.push call.entry)
      .ongoing q₁ ∧ Pushes T q₁ q' ∧ Pushed s.m_queue q' := by
    by_cases hfull : s.m_queue.queue.m_capacity ≤ s.m_queue.queue.m_size
    · have hpolicy : p.ASYNC_POLICY ≠ .BlockWhenFull := by
        refine hroom.resolve_left ?_
        have hcapacity := h.capacity
        have hsize := h.size.1
        omega
      refine refused_push h.producer hfull h.size.2 ?_ _
      unfold AsyncParameters.get_queue_policy
      cases hp : p.ASYNC_POLICY with
      | BlockWhenFull => exact absurd hp hpolicy
      | DropWhenFull | OverwriteWhenFull => nofun
    · exact admitted_push h.producer (Nat.lt_of_not_le hfull) _ _
  obtain ⟨q₁, q', hcall, hpushes, hpushed⟩ := hpush
  let signalled : AsyncLogger Unit :=
    { s with caller := Function.update s.caller () (.signalling call.entry) }
  let pushing : AsyncLogger Unit :=
    { s with
      m_signal := s.m_signal + 1
      m_queue := q₁
      caller := Function.update signalled.caller () (.pushing call.entry) }
  have hrelease : Move p T signalled (.caller ()) pushing := .release rfl hcall.step
  obtain ⟨as, os, s', hrun, hcalls, hdestroy, rfl, hidle, howner, hsignal⟩ :=
    hpushes.makes (p := p) (s := pushing) rfl rfl
  refine .cons (.signal h.alive h.idle hpasses hsingle) rfl (.cons hrelease rfl
    ⟨as, os, s', hrun, hcalls, hdestroy, ?_⟩)
  have hsize : s'.m_queue.queue.m_size ≤ n + 1 :=
    Nat.le_trans hpushed.size.1 (Nat.succ_le_succ h.size.1)
  exact ⟨howner.trans h.alive, hidle, hpushed.producer, hpushed.capacity.trans h.capacity,
    ⟨hsize, hpushed.size.2⟩, hsignal.trans (congrArg (· + 1) h.signal)⟩

/-- A call that does not pass the filter returns at once. -/
theorem Ready.filtered {s : AsyncLogger Unit} {n : Nat} (h : Ready p n s) {call : LogCall}
    (hlow : p.passes call.entry = false) : Makes p T s [call] (Ready p n) :=
  ⟨[.log () call], _, _, .single trivial (Move.filtered h.alive h.idle hlow).step, rfl, rfl,
    ⟨h.alive, h.idle, h.producer, h.capacity, h.size, h.signal⟩⟩

/-- The calls of a program that the caller can make without the thread. -/
theorem Ready.makes (calls : List LogCall) (hsingle : p.THREADING_POLICY = .SingleThreadedAsync) :
    ∀ {s : AsyncLogger Unit} {n : Nat}, Ready p n s →
      (n + calls.countP (fun call => p.passes call.entry) ≤ p.capacity ∨
        p.ASYNC_POLICY ≠ .BlockWhenFull) →
      Makes p T s calls (Ready p (n + calls.countP fun call => p.passes call.entry)) := by
  induction calls with
  | nil =>
      intro s n h _
      exact ⟨[], [], s, .nil s, rfl, rfl, h⟩
  | cons call rest ih =>
      intro s n h hroom
      rw [List.countP_cons] at hroom ⊢
      by_cases hpasses : p.passes call.entry = true
      · rw [if_pos hpasses] at hroom ⊢
        have htotal : n + (rest.countP (fun call => p.passes call.entry) + 1)
            = n + 1 + rest.countP fun call => p.passes call.entry := by omega
        rw [htotal] at hroom ⊢
        refine (h.accepted hsingle hpasses (hroom.imp_left fun hle => ?_)).append
          fun s' hs' => ih hs' hroom
        omega
      · rw [if_neg hpasses] at hroom ⊢
        exact (h.filtered (Bool.eq_false_iff.mpr hpasses)).append fun s' hs' => ih hs' hroom

/-! ### The bound -/

/-- No state of the program's interleavings has more permits than the semaphore may have. -/
def Within (p : AsyncParameters) (T : QueueElement Entry) (program : Program)
    (sinks : List Sink) : Prop :=
  ∀ as os s, Follows program as →
    Machine.Run (step p T) (fun _ _ => True) (start p T sinks) as os s → s.m_signal ≤ p.QUEUE_SIZE

/-- Where a list has more than `n` members of a kind, the next one after `n` of them. -/
theorem exists_next {α : Type} (f : α → Bool) {l : List α} :
    ∀ {n : Nat}, n < l.countP f → ∃ l₁ x l₂, l = l₁ ++ x :: l₂ ∧ l₁.countP f = n ∧ f x = true := by
  induction l with
  | nil => intro n h; exact absurd h (Nat.not_lt_zero n)
  | cons x rest ih =>
      intro n h
      rw [List.countP_cons] at h
      by_cases hx : f x = true
      · rw [if_pos hx] at h
        rcases Nat.eq_zero_or_pos n with rfl | hpos
        · exact ⟨[], x, rest, rfl, rfl, hx⟩
        · obtain ⟨l₁, y, l₂, rfl, hcount, hy⟩ := ih (n := n - 1) (by omega)
          refine ⟨x :: l₁, y, l₂, rfl, ?_, hy⟩
          rw [List.countP_cons_of_pos hx, hcount]
          omega
      · rw [if_neg hx] at h
        obtain ⟨l₁, y, l₂, rfl, hcount, hy⟩ := ih h
        exact ⟨x :: l₁, y, l₂, rfl, (List.countP_cons_of_neg hx).trans hcount, hy⟩

/-- The thread is late: `QUEUE_SIZE` calls return, and one more release follows. -/
theorem exceeds (T : QueueElement Entry) (program : Program) (sinks : List Sink)
    (hsingle : p.THREADING_POLICY = .SingleThreadedAsync)
    (hroom : p.QUEUE_SIZE < 2 ^ 32 ∨ p.ASYNC_POLICY ≠ .BlockWhenFull)
    (hmore : p.QUEUE_SIZE < program.releases p) :
    ∃ as os s, Follows program as ∧
      Machine.Run (step p T) (fun _ _ => True) (start p T sinks) as os s ∧
      s.m_signal = p.QUEUE_SIZE + 1 := by
  have hmakes : ∀ calls : List LogCall,
      calls.countP (fun call => p.passes call.entry) = p.QUEUE_SIZE →
      Makes p T (start p T sinks) calls (Ready p p.QUEUE_SIZE) := by
    intro calls hcount
    have hmade := Ready.makes (T := T) calls hsingle (ready_start p T sinks)
    rw [Nat.zero_add, hcount] at hmade
    exact hmade (hroom.imp_left fun hlt => Nat.le_of_eq (Nat.mod_eq_of_lt hlt).symm)
  by_cases hcalls : p.QUEUE_SIZE < program.calls.countP fun call => p.passes call.entry
  · obtain ⟨before, call, after, hall, hcount, hpasses⟩ := exists_next _ hcalls
    obtain ⟨as, os, s, hrun, hlogged, hdestroy, hready⟩ := hmakes before hcount
    obtain ⟨q, hq⟩ : ∃ q, System.Access T s.m_queue
        (.call () p.get_queue_policy.push call.entry) .ongoing q := ⟨_, .call hready.producer⟩
    have hrelease : Move p T
        { s with caller := Function.update s.caller () (.signalling call.entry) } (.caller ()) _ :=
      .release rfl hq.step
    refine ⟨as ++ [.log () call, .caller ()], _, _, ⟨?_, ?_⟩, hrun.append
      (.cons trivial (Move.step (.signal hready.alive hready.idle hpasses hsingle))
      (.single trivial hrelease.step)), ?_⟩
    · rw [List.filterMap_append, hlogged, hall]
      exact ⟨after, by simp [logged]⟩
    · intro hd
      rw [List.any_append, hdestroy] at hd
      simp [is_destroy] at hd
    · show s.m_signal + 1 = _
      rw [hready.signal]
  · have hdestroys : program.destroys = true := by
      by_contra hnot
      rw [Bool.not_eq_true] at hnot
      rw [Program.releases, hnot] at hmore
      exact hcalls hmore
    have hcount : program.calls.countP (fun call => p.passes call.entry) = p.QUEUE_SIZE := by
      rw [Program.releases, hdestroys, Bool.toNat_true] at hmore
      omega
    obtain ⟨as, os, s, hrun, hlogged, hdestroy, hready⟩ := hmakes program.calls hcount
    refine ⟨as ++ [.destroy, .destroy], _, _, ⟨?_, fun _ => ⟨hdestroys, ?_⟩⟩, hrun.append
      (.cons trivial (Move.step (.request_stop hready.alive fun _ => ?_))
      (.single trivial (Move.step (.release_stop rfl)))), ?_⟩
    · rw [List.filterMap_append, hlogged]
      exact ⟨[], by simp [logged]⟩
    · rw [List.filterMap_append, hlogged]
      exact List.append_nil _
    · rw [show s.caller _ = _ from hready.idle]
      rfl
    · show s.m_signal + 1 = _
      rw [hready.signal]

/--
**The permits stay within the semaphore's maximum** in all interleavings of a program
exactly when the program releases no more than that altogether, whatever the thread does
and whatever the queue does when it is full; or when a waiting push meets a queue that has
fewer slots than `QUEUE_SIZE`, the capacity being a 32-bit number.
-/
theorem permits_within_iff (p : AsyncParameters) (T : QueueElement Entry) (program : Program)
    (sinks : List Sink) (hsingle : p.THREADING_POLICY = .SingleThreadedAsync) :
    Within p T program sinks ↔ program.releases p ≤ p.QUEUE_SIZE ∨
      (p.ASYNC_POLICY = .BlockWhenFull ∧ 2 ^ 32 ≤ p.QUEUE_SIZE) := by
  constructor
  · intro hwithin
    by_contra hnot
    obtain ⟨hmore, hroom⟩ := not_or.mp hnot
    have hroom : p.QUEUE_SIZE < 2 ^ 32 ∨ p.ASYNC_POLICY ≠ .BlockWhenFull := by
      by_cases hblock : p.ASYNC_POLICY = .BlockWhenFull
      · exact .inl (Nat.lt_of_not_le fun hlarge => hroom ⟨hblock, hlarge⟩)
      · exact .inr hblock
    obtain ⟨as, os, s, hfollows, hrun, hsignal⟩ :=
      exceeds T program sinks hsingle hroom (Nat.lt_of_not_le hmore)
    have hle := hwithin as os s hfollows hrun
    omega
  · intro hwhen as os s hfollows hrun
    rcases hwhen with hle | ⟨hblock, hlarge⟩
    · exact Nat.le_trans (permits_le hfollows hrun) hle
    · have hheld := held_back hblock hrun
      have hcapacity : p.capacity = p.QUEUE_SIZE % 2 ^ 32 := rfl
      omega

/-- One entry and the destructor keep within two permits. -/
theorem permits_within_two :
    Within ⟨.SingleThreadedAsync, .DropWhenFull, .MESSAGE, 2⟩ Entry.element
      ⟨[.const_ref ⟨.INFO, "ready"⟩], true⟩ [] :=
  (permits_within_iff ⟨.SingleThreadedAsync, .DropWhenFull, .MESSAGE, 2⟩ Entry.element
    ⟨[.const_ref ⟨.INFO, "ready"⟩], true⟩ [] rfl).mpr (.inl (by decide))

/-- Two entries logged before the thread acquires: two permits of a semaphore for one. -/
theorem semaphore_overrun : ¬ ∀ (p : AsyncParameters) (program : Program) (sinks : List Sink),
    p.THREADING_POLICY = .SingleThreadedAsync → 1 ≤ p.QUEUE_SIZE →
    Within p Entry.element program sinks := by
  intro hclaim
  obtain ⟨as, os, s, hfollows, hrun, hsignal⟩ := exceeds
    (p := ⟨.SingleThreadedAsync, .DropWhenFull, .MESSAGE, 1⟩) Entry.element
    ⟨[.const_ref ⟨.INFO, "ready"⟩, .const_ref ⟨.INFO, "steady"⟩], false⟩ []
    rfl (.inl (by decide)) (by decide)
  have hle := hclaim _ _ _ rfl (Nat.le_refl 1) as os s hfollows hrun
  rw [hsignal] at hle
  exact absurd hle (by decide)

end Hyperion.AsyncLogger
