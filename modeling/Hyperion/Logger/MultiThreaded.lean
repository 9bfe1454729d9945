/-
`LogBase<MultiThreaded>` of `Hyperion/Logger.h`, called by several threads.

A call tests the level, takes a write guard of the sinks, hands its entry to one sink after
the other, and gives the guard up.  Each of these is a step of its own here, and the steps
of the threads come in any order.  What is seen of it is what would be seen if each call
happened at once, where it gives its guard up: no sink gets two entries in one order that
another sink gets in the other, and no entry is lost or written twice.
-/
import Hyperion.Logger.Synchronous
import Hyperion.Synchronization.ReadWriteLock
import Hyperion.Lib.Atomic

namespace Hyperion

/-- Where a thread is in `log`. -/
inductive MultiCaller
  /-- in no call -/
  | idle
  /-- before `entry.level() > MINIMUM_LEVEL` -/
  | called (call : LogCall)
  /-- before `m_sinks.write()` -/
  | locking (call : LogCall)
  /-- before `sink->sink(entry)` of a sink, or after the last one -/
  | sinking (call : LogCall) (next : Nat)
  /-- before `return Ok()` -/
  | returning

/-- A logger and the threads that use it; thread `i` has the guard `i`. -/
structure MultiLogger (ι : Type) where
  m_sinks : ReadWriteLock ι (List Sink)
  caller : ι → MultiCaller

namespace MultiLogger

/-- What may happen next. -/
inductive Action (ι : Type)
  | log (i : ι) (call : LogCall)
  | caller (i : ι)

/-- What is seen of the threads; `log` returns `Ok()`. -/
abbrev Seen (ι : Type) : Type := Atomic.Event ι LogCall Unit

variable {ι : Type}

/-- The constructor. -/
def start (sinks : List Sink) : MultiLogger ι := ⟨.construct sinks, fun _ => .idle⟩

variable [DecidableEq ι]

/-- Thread `i` is at `p` now. -/
def moved (s : MultiLogger ι) (i : ι) (p : MultiCaller) (m_sinks : ReadWriteLock ι (List Sink)) :
    MultiLogger ι :=
  ⟨m_sinks, Function.update s.caller i p⟩

/-- The next step of a thread. -/
def advance (MINIMUM_LEVEL : Level) (s : MultiLogger ι) (i : ι) :
    Option (List (Seen ι) × MultiLogger ι) :=
  match s.caller i with
  | .idle => none
  | .called call =>
      if MINIMUM_LEVEL.value < call.entry.level.value then
        some ([], s.moved i (.locking call) s.m_sinks)
      else some ([], s.moved i .returning s.m_sinks)
  | .locking call =>
      (s.m_sinks.write i).map fun (_, m_sinks) => ([], s.moved i (.sinking call 0) m_sinks)
  | .sinking call next =>
      if next < s.m_sinks.m_data.length then
        (s.m_sinks.set i (s.m_sinks.m_data.modify next (·.sink call.entry))).map
          fun (_, m_sinks) => ([], s.moved i (.sinking call (next + 1)) m_sinks)
      else
        (s.m_sinks.destroy i).map fun (_, m_sinks) => ([], s.moved i .returning m_sinks)
  | .returning => some ([.ret i ()], s.moved i .idle s.m_sinks)

/-- A thread that is in no call calls `log`, or a thread makes its next step. -/
def step (MINIMUM_LEVEL : Level) (s : MultiLogger ι) :
    Action ι → Option (List (Seen ι) × MultiLogger ι)
  | .log i call =>
      match s.caller i with
      | .idle => some ([.call i call], s.moved i (.called call) s.m_sinks)
      | _ => none
  | .caller i => s.advance MINIMUM_LEVEL i

/-- What a step can do. -/
inductive Move (m : Level) (s : MultiLogger ι) : Action ι → List (Seen ι) → MultiLogger ι → Prop
  | log {i call} (hc : s.caller i = .idle) :
      Move m s (.log i call) [.call i call] (s.moved i (.called call) s.m_sinks)
  | passes {i call} (hc : s.caller i = .called call) (hlt : m.value < call.entry.level.value) :
      Move m s (.caller i) [] (s.moved i (.locking call) s.m_sinks)
  | filtered {i call} (hc : s.caller i = .called call)
      (hge : ¬ m.value < call.entry.level.value) :
      Move m s (.caller i) [] (s.moved i .returning s.m_sinks)
  | lock {i call mutex} (hc : s.caller i = .locking call) (hfresh : s.m_sinks.guard i = none)
      (hm : s.m_sinks.m_mutex.acquire .unique_lock = some mutex) :
      Move m s (.caller i) []
        (s.moved i (.sinking call 0) (s.m_sinks.constructed i .unique_lock mutex))
  | sink {i call next guard} (hc : s.caller i = .sinking call next)
      (hlt : next < s.m_sinks.m_data.length) (hg : s.m_sinks.guard i = some guard)
      (htype : guard.type = .unique_lock) :
      Move m s (.caller i) [] (s.moved i (.sinking call (next + 1))
        { s.m_sinks with m_data := s.m_sinks.m_data.modify next (·.sink call.entry) })
  | unlock {i call next guard} (hc : s.caller i = .sinking call next)
      (hge : ¬ next < s.m_sinks.m_data.length) (hg : s.m_sinks.guard i = some guard) :
      Move m s (.caller i) [] (s.moved i .returning { s.m_sinks with
        m_mutex := guard.destructor s.m_sinks.m_mutex
        guard := Function.update s.m_sinks.guard i none })
  | ret {i} (hc : s.caller i = .returning) :
      Move m s (.caller i) [.ret i ()] (s.moved i .idle s.m_sinks)

/-- **Every step is one of these moves.** -/
theorem step_cases {m : Level} {s s' : MultiLogger ι} {a : Action ι} {h : List (Seen ι)}
    (hstep : step m s a = some (h, s')) : Move m s a h s' := by
  cases a with
  | log i call =>
      simp only [step] at hstep
      split at hstep
      · rename_i hc
        cases hstep
        exact .log hc
      · cases hstep
  | caller i =>
      simp only [step, advance] at hstep
      split at hstep
      · cases hstep
      · rename_i call hc
        split at hstep
        · rename_i hlt
          cases hstep
          exact .passes hc hlt
        · rename_i hge
          cases hstep
          exact .filtered hc hge
      · rename_i call hc
        obtain ⟨⟨e, m_sinks⟩, hwrite, hpair⟩ := Option.map_eq_some_iff.mp hstep
        cases hpair
        simp only [ReadWriteLock.write, ReadWriteLock.lock_guard] at hwrite
        split at hwrite
        · rename_i hfresh
          obtain ⟨mutex, hm, hpair⟩ := Option.map_eq_some_iff.mp hwrite
          cases hpair
          exact .lock hc hfresh hm
        · cases hwrite
      · rename_i call next hc
        split at hstep
        · rename_i hlt
          obtain ⟨⟨e, m_sinks⟩, hset, hpair⟩ := Option.map_eq_some_iff.mp hstep
          cases hpair
          simp only [ReadWriteLock.set] at hset
          split at hset
          · rename_i guard hg
            split at hset
            · rename_i htype
              cases hset
              exact .sink hc hlt hg htype
            · cases hset
          · cases hset
        · rename_i hge
          obtain ⟨⟨e, m_sinks⟩, hdestroy, hpair⟩ := Option.map_eq_some_iff.mp hstep
          cases hpair
          simp only [ReadWriteLock.destroy] at hdestroy
          split at hdestroy
          · rename_i guard hg
            cases hdestroy
            exact .unlock hc hge hg
          · cases hdestroy
      · rename_i hc
        cases hstep
        exact .ret hc

/-- Every such move is a step. -/
theorem Move.step {m : Level} {s s' : MultiLogger ι} {a : Action ι} {h : List (Seen ι)}
    (hmove : Move m s a h s') : MultiLogger.step m s a = some (h, s') := by
  cases hmove with
  | log hc | ret hc => simp only [MultiLogger.step, advance, hc]
  | passes hc hlt => simp only [MultiLogger.step, advance, hc, if_pos hlt]
  | filtered hc hge => simp only [MultiLogger.step, advance, hc, if_neg hge]
  | lock hc hfresh hm =>
      simp only [MultiLogger.step, advance, hc, ReadWriteLock.write, ReadWriteLock.lock_guard,
        hfresh, hm]
      rfl
  | sink hc hlt hg htype =>
      simp only [MultiLogger.step, advance, hc, if_pos hlt, ReadWriteLock.set, hg, if_pos htype]
      rfl
  | unlock hc hge hg =>
      simp only [MultiLogger.step, advance, hc, if_neg hge, ReadWriteLock.destroy, hg]
      rfl

/-! ### A logger whose calls happen at once -/

/-- What `log` does and returns, at once. -/
def log_at_once (m : Level) (sinks : List Sink) (call : LogCall) : Option (Unit × List Sink) :=
  some ((), SyncLogger.log .MultiThreaded m sinks call)

/-- The sinks when the first `next` of them were handed the entry. -/
def handed_to (next : Nat) (entry : Entry) (sinks : List Sink) : List Sink :=
  sinks.mapIdx fun k s => if k < next then s.sink entry else s

theorem length_handed_to (next : Nat) (entry : Entry) (sinks : List Sink) :
    (handed_to next entry sinks).length = sinks.length := List.length_mapIdx

theorem handed_to_none (entry : Entry) (sinks : List Sink) : handed_to 0 entry sinks = sinks := by
  refine List.ext_getElem? fun k => ?_
  rw [handed_to, List.getElem?_mapIdx]
  simp

/-- One more sink. -/
theorem handed_to_next (next : Nat) (entry : Entry) (sinks : List Sink) :
    (handed_to next entry sinks).modify next (·.sink entry)
      = handed_to (next + 1) entry sinks := by
  refine List.ext_getElem? fun k => ?_
  rw [List.getElem?_modify, handed_to, handed_to, List.getElem?_mapIdx, List.getElem?_mapIdx,
    Option.map_eq_map, Option.map_map]
  congr 1
  funext s
  rw [Function.comp_apply]
  by_cases hk : next = k
  · rw [if_pos hk, if_neg (by omega), if_pos (by omega)]
  · rw [if_neg hk]
    by_cases hlt : k < next
    · rw [if_pos hlt, if_pos (by omega)]
    · rw [if_neg hlt, if_neg (by omega)]

/-- All of them. -/
theorem handed_to_all {next : Nat} (entry : Entry) {sinks : List Sink}
    (h : sinks.length ≤ next) : handed_to next entry sinks = sink_all sinks entry := by
  refine List.ext_getElem? fun k => ?_
  rw [handed_to, sink_all, List.getElem?_mapIdx, List.getElem?_map]
  by_cases hk : k < sinks.length
  · rw [List.getElem?_eq_getElem hk, Option.map_some, Option.map_some, if_pos (by omega)]
  · rw [List.getElem?_eq_none (by omega)]
    rfl

/-- A call whose entry passes the level hands it to all sinks. -/
theorem log_at_once_passes {m : Level} {call : LogCall} (h : m.value < call.entry.level.value)
    (sinks : List Sink) : log_at_once m sinks call = some ((), sink_all sinks call.entry) := by
  rw [log_at_once, SyncLogger.log_eq, SyncLogger.log_filtered, if_pos h]

theorem log_at_once_filtered {m : Level} {call : LogCall}
    (h : ¬ m.value < call.entry.level.value) (sinks : List Sink) :
    log_at_once m sinks call = some ((), sinks) := by
  rw [log_at_once, SyncLogger.log_eq, SyncLogger.log_filtered, if_neg h]

/-- The guard a thread has. -/
def guard_of : MultiCaller → Option ScopedLockGuard
  | .sinking _ _ => some (.locked .unique_lock)
  | _ => none

/-- Where a thread is for which each call happens at once. -/
def place_of : MultiCaller → Atomic.Place LogCall Unit
  | .idle => .idle
  | .called call | .locking call | .sinking call _ => .called call
  | .returning => .answered ()

/-- It is between its lock and its unlock. -/
def is_sinking : MultiCaller → Bool
  | .sinking _ _ => true
  | _ => false

omit [DecidableEq ι] in
theorem owns_of_sinking {s : MultiLogger ι} (hguards : ∀ i, s.m_sinks.guard i = guard_of (s.caller i))
    {i : ι} {call : LogCall} {next : Nat} (hc : s.caller i = .sinking call next) :
    s.m_sinks.Owns i .unique_lock := by
  rw [ReadWriteLock.Owns, hguards i, hc]
  rfl

/-- The entry a thread is handing out, or is going to, passes the level. -/
def Passing (m : Level) : MultiCaller → Prop
  | .locking call | .sinking call _ => m.value < call.entry.level.value
  | _ => True

/-- **The logger, and the one whose calls happen at once.** -/
structure Serializes [Fintype ι] (m : Level) (s : MultiLogger ι)
    (c : Atomic.Config ι LogCall Unit (List Sink)) : Prop where
  exclusion : s.m_sinks.Exclusion
  guards : ∀ i, s.m_sinks.guard i = guard_of (s.caller i)
  places : ∀ i, c.place i = place_of (s.caller i)
  passing : ∀ i, Passing m (s.caller i)
  outside : (∀ i, is_sinking (s.caller i) = false) → s.m_sinks.m_data = c.object
  inside : ∀ i call next, s.caller i = .sinking call next →
    s.m_sinks.m_data = handed_to next call.entry c.object

variable [Fintype ι]

omit [DecidableEq ι] in
theorem serializes_start (m : Level) (sinks : List Sink) :
    Serializes m (start sinks : MultiLogger ι) (Atomic.start sinks) where
  exclusion := ReadWriteLock.exclusion_construct sinks
  guards _ := rfl
  places _ := rfl
  passing _ := trivial
  outside _ := rfl
  inside _ _ _ h := by cases h

omit [DecidableEq ι] in
/-- The thread that has the guard is the only one that is inside. -/
theorem Serializes.alone {m : Level} {s : MultiLogger ι}
    {c : Atomic.Config ι LogCall Unit (List Sink)} (h : Serializes m s c) {i j : ι}
    {call call' : LogCall} {next next' : Nat} (hi : s.caller i = .sinking call next)
    (hj : s.caller j = .sinking call' next') : j = i :=
  h.exclusion.alone (owns_of_sinking h.guards hi) (owns_of_sinking h.guards hj)

/-- One thread moves, with its guard, and what the others know stays true. -/
theorem Serializes.moves {m : Level} {s : MultiLogger ι}
    {c c' : Atomic.Config ι LogCall Unit (List Sink)} (h : Serializes m s c) {i : ι}
    {p : MultiCaller} {m_sinks : ReadWriteLock ι (List Sink)} (hexclusion : m_sinks.Exclusion)
    (hguard : m_sinks.guard = Function.update s.m_sinks.guard i (guard_of p))
    (hplace : c'.place = Function.update c.place i (place_of p)) (hpassing : Passing m p)
    (hout : (∀ j, j ≠ i → is_sinking (s.caller j) = false) → is_sinking p = false →
      m_sinks.m_data = c'.object)
    (hin : ∀ call next, p = .sinking call next →
      m_sinks.m_data = handed_to next call.entry c'.object)
    (hothers : ∀ j call next, j ≠ i → s.caller j = .sinking call next →
      m_sinks.m_data = handed_to next call.entry c'.object) :
    Serializes m (s.moved i p m_sinks) c' := by
  have hother : ∀ j, j ≠ i → (s.moved i p m_sinks).caller j = s.caller j :=
    fun j hj => Function.update_of_ne hj ..
  have hself : (s.moved i p m_sinks).caller i = p := Function.update_self ..
  refine ⟨hexclusion, ?_, ?_, ?_, ?_, ?_⟩
  · intro j
    show m_sinks.guard j = _
    rw [hguard]
    by_cases hj : j = i
    · rw [hj, hself, Function.update_self]
    · rw [hother j hj, Function.update_of_ne hj]
      exact h.guards j
  · intro j
    rw [hplace]
    by_cases hj : j = i
    · rw [hj, hself, Function.update_self]
    · rw [hother j hj, Function.update_of_ne hj]
      exact h.places j
  · intro j
    by_cases hj : j = i
    · rw [hj, hself]
      exact hpassing
    · rw [hother j hj]
      exact h.passing j
  · intro hall
    refine hout (fun j hj => ?_) ?_
    · rw [← hother j hj]
      exact hall j
    · rw [← hself]
      exact hall i
  · intro j call next hc
    by_cases hj : j = i
    · rw [hj, hself] at hc
      exact hin call next hc
    · rw [hother j hj] at hc
      exact hothers j call next hj hc

/-- A thread moves that has no guard before or after. -/
theorem Serializes.outside_moves {m : Level} {s : MultiLogger ι}
    {c c' : Atomic.Config ι LogCall Unit (List Sink)} (h : Serializes m s c) {i : ι}
    {p : MultiCaller} (hbefore : is_sinking (s.caller i) = false) (hafter : is_sinking p = false)
    (hpassing : Passing m p) (hobject : c'.object = c.object)
    (hplace : c'.place = Function.update c.place i (place_of p)) :
    Serializes m (s.moved i p s.m_sinks) c' := by
  have hnone : ∀ q : MultiCaller, is_sinking q = false → guard_of q = none := by
    intro q hq
    cases q
    case sinking => cases hq
    all_goals rfl
  have hguard := h.guards i
  rw [hnone _ hbefore] at hguard
  refine h.moves h.exclusion ?_ hplace hpassing ?_ ?_ ?_
  · rw [hnone p hafter, ← hguard, Function.update_eq_self]
  · intro hothers _
    rw [hobject]
    refine h.outside fun j => ?_
    by_cases hj : j = i
    · rw [hj]
      exact hbefore
    · exact hothers j hj
  · intro call next hp
    rw [hp] at hafter
    cases hafter
  · intro j call next _ hc
    rw [hobject]
    exact h.inside j call next hc

/-- A thread that stays where it is, for the logger whose calls happen at once. -/
theorem Serializes.stays {m : Level} {s : MultiLogger ι}
    {c : Atomic.Config ι LogCall Unit (List Sink)} (h : Serializes m s c) {i : ι} {p : MultiCaller}
    (hp : place_of p = place_of (s.caller i)) :
    c.place = Function.update c.place i (place_of p) := by
  rw [hp, ← h.places i, Function.update_eq_self]

/-- **Every step is a step of the logger whose calls happen at once, or none.** -/
theorem Serializes.step {m : Level} {s s' : MultiLogger ι}
    {c : Atomic.Config ι LogCall Unit (List Sink)} (h : Serializes m s c) {a : Action ι}
    {seen : List (Seen ι)} (hmove : Move m s a seen s') :
    ∃ c', Atomic.Steps (log_at_once m) c seen c' ∧ Serializes m s' c' := by
  cases hmove with
  | @log i call hc =>
      have hplace := h.places i
      rw [hc] at hplace
      exact ⟨_, .single (.call call hplace),
        h.outside_moves (by rw [hc]; rfl) rfl trivial rfl rfl⟩
  | @passes i call hc hlt =>
      exact ⟨c, .refl c, h.outside_moves (by rw [hc]; rfl) rfl hlt rfl
        (h.stays (by rw [hc]; rfl))⟩
  | @filtered i call hc hge =>
      have hplace := h.places i
      rw [hc] at hplace
      exact ⟨_, .single (.happen hplace (log_at_once_filtered hge c.object)),
        h.outside_moves (by rw [hc]; rfl) rfl trivial rfl rfl⟩
  | @lock i call mutex hc hfresh hm =>
      have hpassing := h.passing i
      rw [hc] at hpassing
      -- whoever is inside has locked the mutex
      have hnobody : ∀ j, is_sinking (s.caller j) = false := by
        intro j
        by_contra hin
        have howns : s.m_sinks.Owns j .unique_lock := by
          rw [ReadWriteLock.Owns, h.guards j]
          cases hj : s.caller j
          case sinking => rfl
          all_goals exact absurd (by rw [hj]; rfl) hin
        have hlocked := Threads.count_pos howns
        rw [h.exclusion.locked] at hlocked
        simp only [SharedMutex.acquire, SharedMutex.lock, ReadWriteLock.toNat_pos hlocked] at hm
        cases hm
      refine ⟨c, .refl c, h.moves (h.exclusion.constructed hfresh hm) rfl
        (h.stays (by rw [hc]; rfl)) hpassing (fun _ hout => by cases hout) ?_ ?_⟩
      · intro call' next' hp
        cases hp
        rw [handed_to_none]
        exact h.outside hnobody
      · intro j call' next' _ hj
        have hnot := hnobody j
        rw [hj] at hnot
        cases hnot
  | @sink i call next guard hc hlt hg htype =>
      have hpassing := h.passing i
      have hdata := h.inside i call next hc
      have hguard := h.guards i
      rw [hc] at hpassing hguard
      refine ⟨c, .refl c, h.moves ⟨h.exclusion.locked, h.exclusion.shared, h.exclusion.apart⟩ ?_
        (h.stays (by rw [hc]; rfl)) hpassing (fun _ hout => by cases hout) ?_ ?_⟩
      · show s.m_sinks.guard = Function.update s.m_sinks.guard i (some (.locked .unique_lock))
        rw [← show s.m_sinks.guard i = some (.locked .unique_lock) from hguard,
          Function.update_eq_self]
      · intro call' next' hp
        cases hp
        show s.m_sinks.m_data.modify next (·.sink call.entry) = _
        rw [hdata, handed_to_next]
      · intro j call' next' hne hj
        exact absurd (h.alone hc hj) hne
  | @unlock i call next guard hc hge hg =>
      have hplace := h.places i
      have hpassing := h.passing i
      have hdata := h.inside i call next hc
      rw [hc] at hplace hpassing
      have hall : s.m_sinks.m_data = sink_all c.object call.entry := by
        rw [hdata]
        refine handed_to_all call.entry (Nat.le_of_not_lt ?_)
        rw [← length_handed_to next call.entry c.object, ← hdata]
        exact hge
      refine ⟨_, .single (.happen hplace (log_at_once_passes hpassing c.object)),
        h.moves (h.exclusion.destroyed hg) rfl rfl trivial (fun _ _ => hall)
          (fun _ _ hp => by cases hp) ?_⟩
      intro j call' next' hne hj
      exact absurd (h.alone hc hj) hne
  | @ret i hc =>
      have hplace := h.places i
      rw [hc] at hplace
      exact ⟨_, .single (.ret hplace), h.outside_moves (by rw [hc]; rfl) rfl trivial rfl rfl⟩

/-! ### The whole run -/

/-- Whatever may happen. -/
abbrev any (_ : MultiLogger ι) (_ : Action ι) : Prop := True

theorem simulates (m : Level) : Atomic.Simulates (log_at_once m) (step m)
    (any (ι := ι)) (Serializes m) :=
  fun _ _ _ _ _ h _ hstep => h.step (step_cases hstep)

/-- The calls a thread makes. -/
def calls_of (i : ι) (as : List (Action ι)) : List LogCall :=
  as.filterMap fun
    | .log j call => if j = i then some call else none
    | .caller _ => none

/-- The calls that are seen of a thread. -/
def seen_calls (i : ι) (history : List (Seen ι)) : List LogCall :=
  (Atomic.seen_of i history).filterMap fun
    | .call _ call => some call
    | .ret _ _ => none

omit [Fintype ι] in
theorem seen_calls_append (i : ι) (h hs : List (Seen ι)) :
    seen_calls i (h ++ hs) = seen_calls i h ++ seen_calls i hs := by
  rw [seen_calls, Atomic.seen_of_append, List.filterMap_append]
  rfl

omit [Fintype ι] in
/-- What is seen of a step is the call it makes. -/
theorem seen_calls_step {m : Level} {s s' : MultiLogger ι} {a : Action ι} {h : List (Seen ι)}
    (hmove : Move m s a h s') (i : ι) : seen_calls i h = calls_of i [a] := by
  cases hmove with
  | @log j call hc =>
      by_cases hj : j = i
      · subst hj
        rw [seen_calls, Atomic.seen_of_self (t := j) (e := .call j call) rfl]
        simp [calls_of]
      · rw [seen_calls, Atomic.seen_of_other (e := .call j call) hj]
        simp [calls_of, hj]
  | @ret j hc =>
      by_cases hj : j = i
      · subst hj
        rw [seen_calls, Atomic.seen_of_self (t := j) (e := .ret j ()) rfl]
        rfl
      · rw [seen_calls, Atomic.seen_of_other (e := .ret j ()) hj]
        rfl
  | passes | filtered | lock | sink | unlock => rfl

omit [Fintype ι] in
theorem seen_calls_run {m : Level} {s s' : MultiLogger ι} {as : List (Action ι)}
    {hs : List (List (Seen ι))} {guard : MultiLogger ι → Action ι → Prop}
    (hrun : Machine.Run (step m) guard s as hs s') (i : ι) :
    seen_calls i hs.flatten = calls_of i as := by
  induction hrun with
  | nil s => rfl
  | @cons s mid final a h as hs _ hstep _ ih =>
      have happend : calls_of i (a :: as) = calls_of i [a] ++ calls_of i as :=
        List.filterMap_append (l := [a])
      rw [List.flatten_cons, seen_calls_append, seen_calls_step (step_cases hstep) i, ih, happend]

omit [DecidableEq ι] [Fintype ι] in
/-- The calls of operations that are made one after the other. -/
theorem calls_in_turn (i : ι) (ops : List (LogCall × Unit)) :
    (Atomic.in_turn i ops).filterMap (fun
      | .call _ call => some call
      | .ret _ _ => none) = ops.map Prod.fst := by
  induction ops with
  | nil => rfl
  | cons op rest ih =>
      rw [List.map_cons, ← ih]
      rfl

omit [DecidableEq ι] [Fintype ι] in
/-- A legal order of calls is a run of the logger. -/
theorem run_of_legal {m : Level} {sinks last : List Sink} {order : List (ι × LogCall × Unit)}
    (h : Atomic.Legal (log_at_once m) sinks order last) :
    last = SyncLogger.run .MultiThreaded m sinks (order.map fun o => o.2.1) := by
  induction h with
  | nil => rfl
  | snoc _ hspec ih =>
      cases hspec
      rw [List.map_append, SyncLogger.run, List.foldl_append, ih]
      rfl

/-- Every call has returned. -/
def Idle (s : MultiLogger ι) : Prop := ∀ i, s.caller i = .idle

/--
**The sinks get the entries of all calls in one order**, in every interleaving of the
threads' steps.  What is seen of the calls could have been seen of calls that happen at
once; and when all have returned, each sink has written what passes the logger's level and
its own, in an order in which each thread's calls are as it made them.
-/
theorem sinks_in_one_order {m : Level} {sinks : List Sink} {as : List (Action ι)}
    {hs : List (List (Seen ι))} {s : MultiLogger ι}
    (hrun : Machine.Run (step m) any (start sinks) as hs s) :
    Atomic.Linearizable (log_at_once m) sinks hs.flatten ∧
    (Idle s → ∃ order : List (ι × LogCall),
      (∀ i, (order.filter fun o => o.1 = i).map Prod.snd = calls_of i as) ∧
      s.m_sinks.m_data = sinks.map fun sink => { sink with
        written := sink.written ++ (SyncLogger.passed m (order.map Prod.snd)).filter
          fun e => sink.m_log_level.value ≤ e.level.value }) := by
  obtain ⟨c, hsteps, hlast⟩ := (simulates m).run hrun (serializes_start m sinks)
  refine ⟨⟨c, hsteps⟩, fun hidle => ?_⟩
  obtain ⟨order, hlegal, haccounts⟩ := hsteps.sequential
  refine ⟨order.map fun o => (o.1, o.2.1), fun i => ?_, ?_⟩
  · have hplace := hlast.places i
    have hmade := haccounts i
    rw [hplace, hidle i] at hmade
    rw [← seen_calls_run hrun i, seen_calls, show Atomic.seen_of i hs.flatten = _ from hmade,
      calls_in_turn, Atomic.ops_of, List.filter_map, List.map_map, List.map_map]
    rfl
  · have hout := hlast.outside fun i => by rw [hidle i]; rfl
    rw [hout, run_of_legal hlegal, SyncLogger.run_eq, List.map_map]
    rfl

/-- It is in no call. -/
def is_idle : MultiCaller → Bool
  | .idle => true
  | _ => false

theorem of_is_idle {c : MultiCaller} (h : is_idle c = true) : c = .idle := by
  cases c
  case idle => rfl
  all_goals cases h

/-- Two threads, one of which waits for the other's guard. -/
def two_calls : List (Action Bool) :=
  [.log false (.const_ref ⟨.INFO, "ready"⟩), .log true (.rvalue ⟨.WARN, "steady"⟩),
    .caller false, .caller true, .caller true, .caller true, .caller true, .caller false,
    .caller false, .caller false, .caller true, .caller false]

theorem sinks_in_one_order_two : ∃ (s : MultiLogger Bool) (order : List (Bool × LogCall)),
    s.m_sinks.m_data = [⟨.FileSink, .MESSAGE, [⟨.WARN, "steady"⟩, ⟨.INFO, "ready"⟩]⟩] ∧
    (∀ i, (order.filter fun o => o.1 = i).map Prod.snd = calls_of i two_calls) ∧
    s.m_sinks.m_data = [⟨.FileSink, .MESSAGE, (SyncLogger.passed .TRACE (order.map Prod.snd)).filter
      fun e => Level.MESSAGE.value ≤ e.level.value⟩] := by
  obtain ⟨s, hs, s', hstart, hrun, hlast⟩ := Machine.exists_run (step .TRACE) any
    (some (start [⟨.FileSink, .MESSAGE, []⟩])) two_calls
    (fun r => decide (r.2.m_sinks.m_data
      = [⟨.FileSink, .MESSAGE, [⟨.WARN, "steady"⟩, ⟨.INFO, "ready"⟩]⟩]) &&
      (is_idle (r.2.caller false) && is_idle (r.2.caller true))) (by decide)
  cases hstart
  obtain ⟨hdata, hidle⟩ := Bool.and_eq_true_iff.mp hlast
  obtain ⟨hfirst, hsecond⟩ := Bool.and_eq_true_iff.mp hidle
  have hall : ∀ i : Bool, s'.caller i = .idle := by
    intro i
    match i with
    | false => exact of_is_idle hfirst
    | true => exact of_is_idle hsecond
  obtain ⟨order, hcalls, hsinks⟩ := (sinks_in_one_order hrun).2 hall
  exact ⟨s', order, of_decide_eq_true hdata, hcalls, hsinks⟩

/-! ### Every call returns -/

/-- Nobody calls `log` any more. -/
def no_call (_ : MultiLogger ι) : Action ι → Prop
  | .log _ _ => False
  | .caller _ => True

/-- How many steps a thread makes until it returns, with `n` sinks. -/
def left (n : Nat) : MultiCaller → Nat
  | .idle => 0
  | .called _ => n + 4
  | .locking _ => n + 3
  | .sinking _ next => n - next + 2
  | .returning => 1

/-- The logger has `n` sinks, and serializes its calls. -/
def Serial (m : Level) (n : Nat) (s : MultiLogger ι) : Prop :=
  s.m_sinks.m_data.length = n ∧ ∃ c, Serializes m s c

theorem Serial.step {m : Level} {n : Nat} {s s' : MultiLogger ι} (h : Serial m n s) {a : Action ι}
    {seen : List (Seen ι)} (hmove : Move m s a seen s') : Serial m n s' := by
  obtain ⟨hlength, c, hc⟩ := h
  obtain ⟨c', -, hc'⟩ := hc.step hmove
  refine ⟨?_, c', hc'⟩
  cases hmove with
  | sink => exact (List.length_modify ..).trans hlength
  | log | passes | filtered | lock | unlock | ret => exact hlength

theorem left_drop {m : Level} {n : Nat} {s s' : MultiLogger ι} (hlength : s.m_sinks.m_data.length = n)
    {a : Action ι} {seen : List (Seen ι)} (hguard : no_call s a) (hmove : Move m s a seen s') :
    Threads.total (left n) s'.caller < Threads.total (left n) s.caller := by
  have hmoved : ∀ (i : ι) (p : MultiCaller), left n p < left n (s.caller i) →
      Threads.total (left n) (Function.update s.caller i p) < Threads.total (left n) s.caller := by
    intro i p hlt
    have hsum := Threads.total_update (left n) s.caller i p
    omega
  cases hmove with
  | log => exact hguard.elim
  | passes hc | lock hc | unlock hc | ret hc =>
      refine hmoved _ _ ?_
      rw [hc]
      simp only [left]
      omega
  | filtered hc =>
      refine hmoved _ _ ?_
      rw [hc]
      simp only [left]
      omega
  | sink hc hlt =>
      refine hmoved _ _ ?_
      rw [hc]
      simp only [left]
      omega

/-- A thread that is in a call can make a step, or the one that has the guard can. -/
theorem Serializes.goes_on {m : Level} {s : MultiLogger ι}
    {c : Atomic.Config ι LogCall Unit (List Sink)} (h : Serializes m s c) (hbusy : ¬ Idle s) :
    ∃ a seen s', no_call s a ∧ Move m s a seen s' := by
  by_cases hinside : ∃ i call next, s.caller i = .sinking call next
  · obtain ⟨i, call, next, hc⟩ := hinside
    have hguard := h.guards i
    rw [hc] at hguard
    by_cases hlt : next < s.m_sinks.m_data.length
    · exact ⟨.caller i, _, _, trivial, .sink hc hlt hguard rfl⟩
    · exact ⟨.caller i, _, _, trivial, .unlock hc hlt hguard⟩
  · have hnone : ∀ j type, ¬ s.m_sinks.Owns j type := by
      intro j type howns
      rw [ReadWriteLock.Owns, h.guards j] at howns
      cases hj : s.caller j with
      | sinking call next => exact hinside ⟨j, call, next, hj⟩
      | idle | called _ | locking _ | returning =>
          rw [hj] at howns
          cases howns
    obtain ⟨i, hi⟩ := not_forall.mp hbusy
    cases hc : s.caller i with
    | idle => exact absurd hc hi
    | sinking call next => exact absurd ⟨i, call, next, hc⟩ hinside
    | returning => exact ⟨.caller i, _, _, trivial, .ret hc⟩
    | called call =>
        by_cases hlt : m.value < call.entry.level.value
        · exact ⟨.caller i, _, _, trivial, .passes hc hlt⟩
        · exact ⟨.caller i, _, _, trivial, .filtered hc hlt⟩
    | locking call =>
        have hguard := h.guards i
        rw [hc] at hguard
        obtain ⟨mutex, hm⟩ := Option.isSome_iff_exists.mp (h.exclusion.free hnone .unique_lock)
        exact ⟨.caller i, _, _, trivial, .lock hc hguard hm⟩

/--
**Every call returns**: once nobody calls `log` any more, all calls have returned after as
many steps as they have left, whatever the order of the threads.
-/
theorem calls_return {m : Level} {sinks : List Sink} {as : List (Action ι)}
    {hs : List (List (Seen ι))} {s : MultiLogger ι}
    (hrun : Machine.Run (step m) any (start sinks) as hs s) :
    Machine.EndsWithin (step m) no_call Idle (Threads.total (left sinks.length) s.caller) s := by
  have hserial : Serial m sinks.length s := hrun.invariant
    (fun _ _ _ _ h _ hstep => h.step (step_cases hstep)) ⟨rfl, _, serializes_start m sinks⟩
  have hdrop : ∀ (s : MultiLogger ι) a o s', Serial m sinks.length s → no_call s a →
      step m s a = some (o, s') → Threads.total (left sinks.length) s'.caller
        < Threads.total (left sinks.length) s.caller :=
    fun s a o s' h hguard hstep => left_drop h.1 hguard (step_cases hstep)
  refine Machine.endsWithin_of_variant ?_ hdrop ?_ hserial (Nat.le_refl _)
  · exact fun s a o s' h _ hstep => h.step (step_cases hstep)
  · intro t ht hbusy
    obtain ⟨c, hc⟩ := ht.2
    obtain ⟨a, seen, t', hguard, hmove⟩ := hc.goes_on hbusy
    exact ⟨a, seen, t', hguard, hmove.step⟩

/-- One of two threads has the guard, and the other waits for it. -/
theorem calls_return_two : ∃ s : MultiLogger Bool,
    Threads.total (left 1) s.caller = 7 ∧ Machine.EndsWithin (step .TRACE) no_call Idle 7 s := by
  obtain ⟨s, hs, s', hstart, hrun, hlast⟩ := Machine.exists_run (step .TRACE) any
    (some (start [⟨.FileSink, .MESSAGE, []⟩])) (two_calls.take 5)
    (fun r => decide (Threads.total (left 1) r.2.caller = 7)) (by decide)
  cases hstart
  have htotal : Threads.total (left 1) s'.caller = 7 := of_decide_eq_true hlast
  have hends := calls_return hrun
  rw [show ([⟨.FileSink, .MESSAGE, []⟩] : List Sink).length = 1 from rfl, htotal] at hends
  exact ⟨s', htotal, hends⟩

end MultiLogger

end Hyperion
