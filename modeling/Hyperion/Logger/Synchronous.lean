/-
The synchronous loggers of `Hyperion/Logger.h`.

`LogBase<SingleThreaded>` and `LogBase<MultiThreaded>` hand an entry to their sinks in
the call itself, the second one under the write lock of its sinks, so that the calls
of several threads happen one after another.  Both test `entry.level() > MINIMUM_LEVEL`
where the sinks test `>=`, so an entry at the minimum level reaches no sink.
-/
import Hyperion.Logger.Basic

namespace Hyperion

/-- The synchronous values of `logging::ThreadingPolicy`. -/
inductive SyncPolicy
  | SingleThreaded
  | MultiThreaded
deriving DecidableEq

namespace SyncLogger

/-- The body of the four functions `log`. -/
def log_filtered (MINIMUM_LEVEL : Level) (m_sinks : List Sink) (entry : Entry) : List Sink :=
  if MINIMUM_LEVEL.value < entry.level.value then sink_all m_sinks entry else m_sinks

/-- `LogBase<SingleThreaded>::log(const Entry&)` -/
def single_log_const_ref (MINIMUM_LEVEL : Level) (m_sinks : List Sink) (entry : Entry) :
    List Sink :=
  log_filtered MINIMUM_LEVEL m_sinks entry

/-- `LogBase<SingleThreaded>::log(Entry&&)` -/
def single_log_rvalue (MINIMUM_LEVEL : Level) (m_sinks : List Sink) (entry : Entry) :
    List Sink :=
  log_filtered MINIMUM_LEVEL m_sinks entry

/-- `LogBase<MultiThreaded>::log(const Entry&)`, between taking the lock and its release -/
def multi_log_const_ref (MINIMUM_LEVEL : Level) (m_sinks : List Sink) (entry : Entry) :
    List Sink :=
  log_filtered MINIMUM_LEVEL m_sinks entry

/-- `LogBase<MultiThreaded>::log(Entry&&)`, between taking the lock and its release -/
def multi_log_rvalue (MINIMUM_LEVEL : Level) (m_sinks : List Sink) (entry : Entry) :
    List Sink :=
  log_filtered MINIMUM_LEVEL m_sinks entry

/-- One call of `log` on a logger with the given policy. -/
def log (policy : SyncPolicy) (MINIMUM_LEVEL : Level) (m_sinks : List Sink) :
    LogCall → List Sink
  | .const_ref e =>
      match policy with
      | .SingleThreaded => single_log_const_ref MINIMUM_LEVEL m_sinks e
      | .MultiThreaded => multi_log_const_ref MINIMUM_LEVEL m_sinks e
  | .rvalue e =>
      match policy with
      | .SingleThreaded => single_log_rvalue MINIMUM_LEVEL m_sinks e
      | .MultiThreaded => multi_log_rvalue MINIMUM_LEVEL m_sinks e

theorem log_eq (policy : SyncPolicy) (m : Level) (m_sinks : List Sink) (call : LogCall) :
    log policy m m_sinks call = log_filtered m m_sinks call.entry := by
  cases call <;> cases policy <;> rfl

/-- A sequence of calls. -/
def run (policy : SyncPolicy) (m : Level) (m_sinks : List Sink) (calls : List LogCall) :
    List Sink :=
  calls.foldl (log policy m) m_sinks

/-- The entries that get past the logger, in the order of the calls. -/
def passed (m : Level) (calls : List LogCall) : List Entry :=
  (calls.map LogCall.entry).filter fun e => m.value < e.level.value

/-- The logger hands its sinks the entries that get past it, in order. -/
theorem run_eq_foldl (policy : SyncPolicy) (m : Level) (calls : List LogCall)
    (m_sinks : List Sink) :
    run policy m m_sinks calls = (passed m calls).foldl sink_all m_sinks := by
  unfold run passed
  induction calls generalizing m_sinks with
  | nil => rfl
  | cons call rest ih =>
      rw [List.foldl_cons, ih, log_eq, log_filtered, List.map_cons]
      by_cases h : m.value < call.entry.level.value
      · rw [if_pos h, List.filter_cons_of_pos (by simpa using h), List.foldl_cons]
      · rw [if_neg h, List.filter_cons_of_neg (by simpa using h)]

/-- **What each sink writes**: what gets past the logger and past the sink. -/
theorem run_eq (policy : SyncPolicy) (m : Level) (m_sinks : List Sink) (calls : List LogCall) :
    run policy m m_sinks calls = m_sinks.map fun s => { s with
      written := s.written
        ++ (passed m calls).filter fun e => s.m_log_level.value ≤ e.level.value } := by
  rw [run_eq_foldl, foldl_sink_all]
  exact List.map_congr_left fun s _ => Sink.foldl_sink (passed m calls) s

/-- The entries that are not lower than the logger's level and not lower than the sink's. -/
def wanted (m sink_level : Level) (calls : List LogCall) : List Entry :=
  (calls.map LogCall.entry).filter fun e =>
    m.value ≤ e.level.value && sink_level.value ≤ e.level.value

/-- A filter by one condition gives what a weaker one gives only if they agree there. -/
theorem filter_eq_filter_iff {β : Type} {p q : β → Bool} {l : List β}
    (hpq : ∀ x, p x = true → q x = true) :
    l.filter p = l.filter q ↔ ∀ x ∈ l, q x = true → p x = true := by
  constructor
  · intro h x hx hq
    have hmem : x ∈ l.filter p := by
      rw [h]
      exact List.mem_filter.mpr ⟨hx, hq⟩
    exact (List.mem_filter.mp hmem).2
  · intro h
    refine List.filter_congr fun x hx => ?_
    by_cases hq : q x = true
    · rw [hq, h x hx hq]
    · have hp : ¬ p x = true := fun hp => hq (hpq x hp)
      rw [Bool.not_eq_true] at hp hq
      rw [hp, hq]

/-- One sink writes what it should unless an entry at the minimum level is also at its own. -/
theorem written_eq_wanted_iff (m sink_level : Level) (calls : List LogCall) :
    ((passed m calls).filter fun e => sink_level.value ≤ e.level.value)
        = wanted m sink_level calls ↔
      ∀ call ∈ calls, call.entry.level = m → m.value < sink_level.value := by
  rw [passed, wanted, List.filter_filter, filter_eq_filter_iff]
  · constructor
    · intro h call hcall hlevel
      by_contra hsink
      have hboth := h call.entry (List.mem_map_of_mem hcall)
        (by rw [hlevel]; simp only [Bool.and_eq_true, decide_eq_true_eq]; omega)
      rw [hlevel] at hboth
      simp only [Bool.and_eq_true, decide_eq_true_eq] at hboth
      omega
    · intro h e he hq
      obtain ⟨call, hcall, rfl⟩ := List.mem_map.mp he
      simp only [Bool.and_eq_true, decide_eq_true_eq] at hq ⊢
      refine ⟨hq.2, ?_⟩
      rcases Nat.lt_or_ge m.value call.entry.level.value with hlt | hge
      · exact hlt
      · have heq : call.entry.level.value = m.value := by omega
        have hsink := h call hcall (Level.value_inj heq)
        omega
  · intro e he
    simp only [Bool.and_eq_true, decide_eq_true_eq] at he ⊢
    omega

/--
**Each sink writes the entries it should**, once each and in call order, exactly when
every entry at the logger's minimum level is below the level of every sink.
-/
theorem sinks_write_iff (policy : SyncPolicy) (m : Level) (m_sinks : List Sink)
    (calls : List LogCall) :
    run policy m m_sinks calls
        = m_sinks.map (fun s => { s with
            written := s.written ++ wanted m s.m_log_level calls }) ↔
      ∀ call ∈ calls, call.entry.level = m → ∀ s ∈ m_sinks, m.value < s.m_log_level.value := by
  rw [run_eq, List.map_inj_left]
  constructor
  · intro h call hcall hlevel s hs
    have hwritten := congrArg Sink.written (h s hs)
    exact (written_eq_wanted_iff m s.m_log_level calls).mp
      (List.append_cancel_left hwritten) call hcall hlevel
  · intro h s hs
    rw [(written_eq_wanted_iff m s.m_log_level calls).mpr
      fun call hcall hlevel => h call hcall hlevel s hs]

/-- A logger at INFO drops the entries at INFO. -/
theorem info_entry_dropped : ¬ ∀ (policy : SyncPolicy) (m : Level) (m_sinks : List Sink)
    (calls : List LogCall), run policy m m_sinks calls = m_sinks.map (fun s => { s with
      written := s.written ++ wanted m s.m_log_level calls }) := by
  intro hclaim
  have hfile := hclaim .SingleThreaded .INFO [⟨.FileSink, .MESSAGE, []⟩]
    [.const_ref ⟨.INFO, "ready"⟩]
  revert hfile
  decide

end SyncLogger

end Hyperion
