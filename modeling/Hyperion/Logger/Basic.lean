/-
Levels, entries and sinks, from `Hyperion/logging/Config.h`, `Entry.h` and `Sink.h`.

A sink is modelled by its level and by what it has written.  How a line is styled is
left out, and so are failures of the file a `FileSink` writes to, which it ignores.
`StderrSink` declares `sink` and never defines it, so no program has one.
-/
import Mathlib.Data.List.Basic

namespace Hyperion

/-- `logging::Level` -/
inductive Level
  | DISABLED
  | MESSAGE
  | TRACE
  | INFO
  | WARN
  | ERROR
deriving DecidableEq, Repr

/-- The value of the enumerator, which `>` and `>=` compare. -/
def Level.value : Level → Nat
  | .DISABLED => 0
  | .MESSAGE => 1
  | .TRACE => 2
  | .INFO => 3
  | .WARN => 4
  | .ERROR => 5

theorem Level.value_inj {l m : Level} (h : l.value = m.value) : l = m := by
  cases l <;> cases m <;> first | rfl | cases h

/-- `logging::Entry` -/
structure Entry where
  level : Level
  entry : String
deriving DecidableEq, Repr

/-- The overloads of `log`. -/
inductive LogCall
  | const_ref (entry : Entry)
  | rvalue (entry : Entry)

/-- The entry a call is about. -/
def LogCall.entry : LogCall → Entry
  | .const_ref e => e
  | .rvalue e => e

/-- The classes of sinks. -/
inductive SinkKind
  | FileSink
  | StdoutSinkStyled
  | StdoutSinkNotStyled
deriving DecidableEq, Repr

/-- A sink, and what it has written so far. -/
structure Sink where
  kind : SinkKind
  m_log_level : Level
  written : List Entry
deriving DecidableEq, Repr

namespace Sink

/-- `if(entry.level() >= m_log_level) println(..)` -/
def write_from (s : Sink) (entry : Entry) : Sink :=
  if s.m_log_level.value ≤ entry.level.value then { s with written := s.written ++ [entry] } else s

/-- `FileSink::sink`, both overloads -/
def file_sink (s : Sink) (entry : Entry) : Sink := s.write_from entry

/-- `StdoutSink<Styled>::sink`, both overloads -/
def stdout_sink_styled (s : Sink) (entry : Entry) : Sink := s.write_from entry

/-- `StdoutSink<NotStyled>::sink`, both overloads -/
def stdout_sink_not_styled (s : Sink) (entry : Entry) : Sink := s.write_from entry

/-- `sink->sink(entry)` -/
def sink (s : Sink) (entry : Entry) : Sink :=
  match s.kind with
  | .FileSink => s.file_sink entry
  | .StdoutSinkStyled => s.stdout_sink_styled entry
  | .StdoutSinkNotStyled => s.stdout_sink_not_styled entry

theorem sink_eq (s : Sink) (entry : Entry) : s.sink entry = s.write_from entry := by
  unfold sink
  split <;> rfl

/-- **What a sink writes** of a sequence of entries: those at its level or above. -/
theorem foldl_sink (entries : List Entry) (s : Sink) :
    entries.foldl sink s = { s with
      written := s.written ++ entries.filter fun e => s.m_log_level.value ≤ e.level.value } := by
  induction entries generalizing s with
  | nil => simp
  | cons e rest ih =>
      rw [List.foldl_cons, ih, sink_eq, write_from]
      by_cases h : s.m_log_level.value ≤ e.level.value
      · rw [if_pos h, List.filter_cons_of_pos (by simpa using h)]
        simp
      · rw [if_neg h, List.filter_cons_of_neg (by simpa using h)]

end Sink

/-- `std::ranges::for_each(m_sinks, [&](const auto& sink) { sink->sink(entry); })` -/
def sink_all (m_sinks : List Sink) (entry : Entry) : List Sink := m_sinks.map (·.sink entry)

/-- Each sink is given each entry, in order. -/
theorem foldl_sink_all (entries : List Entry) (m_sinks : List Sink) :
    entries.foldl sink_all m_sinks = m_sinks.map fun s => entries.foldl Sink.sink s := by
  induction entries generalizing m_sinks with
  | nil => simp
  | cons e rest ih =>
      rw [List.foldl_cons, ih, sink_all, List.map_map]
      rfl

end Hyperion
