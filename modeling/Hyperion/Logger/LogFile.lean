/-
What is in a log file, from `logging/Sink.cpp` down to the device.

`FileSink::sink` prints an entry's text and a newline to its file and ignores whether that
worked; `create_file` opens a file for reading and writing and cuts it off.  The sink only
ever prints, so that nothing it does with its stream is undefined, and what the stream
holds back is always a last part of the file.

So the file of a logger that is stopped at any moment, with nothing flushed, is a part of
what was logged that was cut off, and its whole lines are the first entries.  A sink that is
destroyed frees the buffer of its file before the rest of the lines is written from it.
-/
import Hyperion.Filesystem.Stream
import Hyperion.Lib.Lines
import Hyperion.Logger.Synchronous

namespace Hyperion

/-- The bytes of a text. -/
def bytes_of (text : String) : List (BitVec 8) :=
  (text.toList.flatMap String.utf8EncodeChar).map UInt8.toBitVec

/-- Only a newline is encoded with the byte of one. -/
theorem newline_of_encoded {c : Char} (h : 10 ∈ String.utf8EncodeChar c) : c = '\n' := by
  have hbyte : ∀ n : Nat, (10 : UInt8) = UInt8.ofNat n → n % 256 = 10 := by
    intro n hn
    rw [← UInt8.toNat_ofNat', ← hn]
    rfl
  unfold String.utf8EncodeChar at h
  dsimp only at h
  split at h
  · have hten := hbyte _ (List.mem_singleton.mp h)
    refine Char.ext (UInt32.toNat_inj.mp ?_)
    show c.val.toNat = 10
    omega
  · -- every byte of a longer encoding is 128 or more
    exfalso
    split at h
    · simp only [List.mem_cons, List.not_mem_nil, or_false] at h
      rcases h with h | h <;> have hten := hbyte _ h <;> omega
    · split at h <;> simp only [List.mem_cons, List.not_mem_nil, or_false] at h
      · rcases h with h | h | h <;> have hten := hbyte _ h <;> omega
      · rcases h with h | h | h | h <;> have hten := hbyte _ h <;> omega

/-- A text without newlines has no byte of one. -/
theorem newline_not_mem {text : String} (h : '\n' ∉ text.toList) :
    File.newline ∉ bytes_of text := by
  intro hmem
  obtain ⟨b, hb, hnewline⟩ := List.mem_map.mp hmem
  obtain ⟨c, hc, hencoded⟩ := List.mem_flatMap.mp hb
  have hten : b = 10 := UInt8.toBitVec_inj.mp hnewline
  rw [hten] at hencoded
  rw [newline_of_encoded hencoded] at hc
  exact h hc

/-! ### One sink -/

/-- `FileSink`: its file in use, and its level. -/
structure FileSink where
  m_file : File.InUse
  m_log_level : Level

namespace FileSink

/-- `FileSink(file, level)` with what `create_file` gives: a file that was cut off. -/
def created (level : Level) : FileSink := ⟨File.InUse.opened .ReadWrite false [] 0, level⟩

/-- `sink(entry)`, both overloads -/
def sink (s : FileSink) (entry : Entry) (answer : File.Written) : FileSink :=
  if s.m_log_level.value ≤ entry.level.value then
    let (_, m_file) := s.m_file.finish .count
      (File.println {} s.m_file.m_file (bytes_of entry.entry) answer)
    { s with m_file := m_file }
  else s

/-- The C library passes on some of what the file holds back. -/
def transmit (s : FileSink) (n : Nat) : FileSink :=
  { s with m_file := { s.m_file with m_file := s.m_file.m_file.transmit n } }

/-- What the lines of some entries are. -/
def texts (entries : List Entry) : List (List (BitVec 8)) := entries.map (bytes_of ·.entry)

/-- The file of a sink that has written some entries. -/
structure Wrote (s : FileSink) (entries : List Entry) : Prop where
  document : ∃ d : Document, s.m_file.Is {} false d ∧ d.undefined = false ∧
    d.content = Lines.unlines File.newline (texts entries) ∧ d.cursor = d.content.length ∧
    d.last ≠ .input
  at_end : s.m_file.m_file.bytes.start = s.m_file.m_file.bytes.stored.length

/-- What is written at the end goes behind the rest. -/
theorem write_end {d : Document} (h : d.cursor = d.content.length) (bytes : List (BitVec 8)) :
    (d.write false bytes).content = d.content ++ bytes ∧
      (d.write false bytes).cursor = (d.content ++ bytes).length := by
  rw [Document.write, h, List.length_append]
  exact ⟨Buffered.overwrite_end 0 d.content bytes, rfl⟩

/-- Output that does not append goes behind what is in the buffer. -/
theorem fwrite_bytes {s s' : FileStream} {bytes : List (BitVec 8)} {taken n : Nat}
    (happend : s.append = false) (hfwrite : s.fwrite bytes taken = some (n, s')) :
    s'.bytes.start = s.bytes.start ∧ s'.bytes.stored = s.bytes.stored := by
  rw [FileStream.fwrite] at hfwrite
  split at hfwrite
  · cases hfwrite
    exact ⟨rfl, rfl⟩
  split at hfwrite
  · cases hfwrite
    exact ⟨rfl, rfl⟩
  split at hfwrite
  · cases hfwrite
  · have hplace : ¬ (s.append = true ∧ s.bytes.pending = []) := by
      rw [happend]
      exact fun hboth => Bool.false_ne_true hboth.1
    rw [if_neg hplace] at hfwrite
    cases hfwrite
    exact ⟨rfl, rfl⟩

/-- So does a call that writes, whatever it gives. -/
theorem write_bytes_bytes {f : File.InUse} (happend : f.m_file.append = false)
    (bytes : List (BitVec 8)) (answer : File.Written) :
    let f' := (f.finish .count (File.write_bytes {} f.m_file bytes answer)).2
    f'.m_file.bytes.start = f.m_file.bytes.start ∧
      f'.m_file.bytes.stored = f.m_file.bytes.stored := by
  rw [File.write_bytes, if_neg (by decide)]
  rcases hfwrite : f.m_file.fwrite bytes answer.taken with _ | ⟨n, m_file⟩
  · exact ⟨rfl, rfl⟩
  · rw [Option.map_some]
    dsimp only
    split
    · exact fwrite_bytes happend hfwrite
    · exact fwrite_bytes happend hfwrite

theorem wrote_created (level : Level) : (created level).Wrote [] :=
  ⟨⟨_, File.InUse.is_opened {} false [] 0, rfl, rfl, rfl, Turn.noConfusion⟩, rfl⟩

/-- A sink writes an entry at its level behind the others. -/
theorem Wrote.sink {s : FileSink} {entries : List Entry} (h : s.Wrote entries) (entry : Entry)
    {answer : File.Written} (htaken : (bytes_of entry.entry).length < answer.taken) :
    (s.sink entry answer).Wrote (entries ++
      [entry].filter fun e => s.m_log_level.value ≤ e.level.value) := by
  rw [FileSink.sink]
  by_cases hlevel : s.m_log_level.value ≤ entry.level.value
  · rw [if_pos hlevel, List.filter_cons_of_pos (by simpa using hlevel), List.filter_nil]
    obtain ⟨d, his, hundefined, hcontent, hcursor, hlast⟩ := h.document
    have hlength : (bytes_of entry.entry ++ [File.newline]).length ≤ answer.taken := by
      rw [List.length_append]
      exact htaken
    have hwritten := his.written (bytes_of entry.entry ++ [File.newline]) hlength
    have hdone : d.written .ReadWrite false (bytes_of entry.entry ++ [File.newline])
        = (.count (File.i32.of_size (bytes_of entry.entry ++ [File.newline]).length),
          d.write false (bytes_of entry.entry ++ [File.newline])) := by
      rw [Document.written, if_neg (by decide), if_neg (by simp), if_neg hlast]
    obtain ⟨happended, hend⟩ := write_end hcursor (bytes_of entry.entry ++ [File.newline])
    obtain ⟨-, hnow⟩ := hwritten
    rw [show ({} : OpenOptions).type = .ReadWrite from rfl, hdone] at hnow
    refine ⟨⟨_, hnow, hundefined, ?_, ?_, Turn.noConfusion⟩, ?_⟩
    · rw [happended, hcontent]
      simp [texts]
    · exact hend.trans (congrArg List.length happended.symm)
    · obtain ⟨hstart, hstored⟩ := write_bytes_bytes his.file.append_eq
        (bytes_of entry.entry ++ [File.newline]) answer
      exact hstart.trans (h.at_end.trans (congrArg List.length hstored.symm))
  · rw [if_neg hlevel, List.filter_cons_of_neg (by simpa using hlevel), List.filter_nil,
      List.append_nil]
    exact h

/-- What the library passes on changes nothing of that. -/
theorem Wrote.transmit {s : FileSink} {entries : List Entry} (h : s.Wrote entries) (n : Nat) :
    (s.transmit n).Wrote entries := by
  obtain ⟨d, his, hrest⟩ := h.document
  exact ⟨⟨d, ⟨his.file.transmit n, his.undefined⟩, hrest⟩,
    Buffered.at_end_transmit h.at_end n⟩

/-- The lines are on the device, but for a last part that is in the buffer. -/
theorem Wrote.file {s : FileSink} {entries : List Entry} (h : s.Wrote entries) :
    s.m_file.undefined = false ∧
    s.m_file.m_file.bytes.stored ++ s.m_file.m_file.bytes.pending
      = Lines.unlines File.newline (texts entries) := by
  obtain ⟨d, his, hundefined, hcontent, -, -⟩ := h.document
  refine ⟨his.undefined.trans hundefined, ?_⟩
  rw [← hcontent, ← his.file.content]
  exact (Buffered.view_of_at_end h.at_end).symm

/-- A sink that is destroyed leaves what is found in the freed buffer behind the rest. -/
theorem Wrote.destroyed {s : FileSink} {entries : List Entry} (h : s.Wrote entries)
    (freed : List (BitVec 8)) :
    s.m_file.m_file.destroyed freed = s.m_file.m_file.bytes.stored ++ freed := by
  rw [FileStream.destroyed, h.at_end, Buffered.overwrite_end]

end FileSink

/-! ### A logger -/

/-- The file sinks of a synchronous logger. -/
abbrev FileLogger (ι : Type) := ι → FileSink

namespace FileLogger

variable {ι : Type} [DecidableEq ι]

/-- A call of `log`, with what the C library answers to each sink; or a file is passed on. -/
inductive Action (ι : Type)
  | log (call : LogCall) (answers : ι → File.Written)
  | transmit (i : ι) (n : Nat)

/-- The files of the sinks were just created. -/
def created (level : ι → Level) : FileLogger ι := fun i => FileSink.created (level i)

/-- One step. -/
def step (MINIMUM_LEVEL : Level) (s : FileLogger ι) : Action ι → Option (Unit × FileLogger ι)
  | .log call answers =>
      some ((), if MINIMUM_LEVEL.value < call.entry.level.value then
        fun i => (s i).sink call.entry (answers i) else s)
  | .transmit i n => some ((), Function.update s i ((s i).transmit n))

/-- The device takes all lines. -/
def Taken (_ : FileLogger ι) : Action ι → Prop
  | .log call answers => ∀ i, (bytes_of call.entry.entry).length < (answers i).taken
  | .transmit _ _ => True

/-- The calls. -/
def calls_of (actions : List (Action ι)) : List LogCall :=
  actions.filterMap fun
    | .log call _ => some call
    | .transmit _ _ => none

/-- The texts of the entries that a sink at a level is to have written. -/
def logged (m level : Level) (calls : List LogCall) : List (List (BitVec 8)) :=
  FileSink.texts ((SyncLogger.passed m calls).filter fun e => level.value ≤ e.level.value)

/-- One more call. -/
theorem passed_append (m : Level) (calls : List LogCall) (call : LogCall) :
    SyncLogger.passed m (calls ++ [call]) = SyncLogger.passed m calls ++
      [call.entry].filter fun e => m.value < e.level.value := by
  rw [SyncLogger.passed, List.map_append, List.filter_append]
  rfl

/-- Each file has what its sink was given. -/
def Logged (m : Level) (level : ι → Level) (s : FileLogger ι) (calls : List LogCall) : Prop :=
  ∀ i, (s i).m_log_level = level i ∧
    (s i).Wrote ((SyncLogger.passed m calls).filter fun e => (level i).value ≤ e.level.value)

/-- The calls after one more step. -/
def note (calls : List LogCall) : Action ι → List LogCall
  | .log call _ => calls ++ [call]
  | .transmit _ _ => calls

theorem Logged.step {m : Level} {level : ι → Level} {s s' : FileLogger ι} {calls : List LogCall}
    (h : Logged m level s calls) {a : Action ι} (htaken : Taken s a) {o : Unit}
    (hstep : step m s a = some (o, s')) : Logged m level s' (note calls a) := by
  intro i
  obtain ⟨hlevel, hwrote⟩ := h i
  cases a with
  | log call answers =>
      cases hstep
      rw [note, passed_append, List.filter_append]
      by_cases hpass : m.value < call.entry.level.value
      · rw [if_pos hpass, List.filter_cons_of_pos (by simpa using hpass), List.filter_nil]
        refine ⟨?_, ?_⟩
        · rw [FileSink.sink]
          split
          · exact hlevel
          · exact hlevel
        · rw [← hlevel]
          rw [← hlevel] at hwrote
          exact hwrote.sink call.entry (htaken i)
      · rw [if_neg hpass, List.filter_cons_of_neg (by simpa using hpass), List.filter_nil,
          List.filter_nil, List.append_nil]
        exact ⟨hlevel, hwrote⟩
  | transmit j n =>
      cases hstep
      by_cases hij : i = j
      · subst hij
        rw [Function.update_self]
        exact ⟨hlevel, hwrote.transmit n⟩
      · rw [Function.update_of_ne hij]
        exact ⟨hlevel, hwrote⟩

omit [DecidableEq ι] in
theorem foldl_note (actions : List (Action ι)) (calls : List LogCall) :
    actions.foldl note calls = calls ++ calls_of actions := by
  induction actions generalizing calls with
  | nil => simp [calls_of]
  | cons a rest ih =>
      rw [List.foldl_cons, ih]
      cases a with
      | log call answers => simp [note, calls_of]
      | transmit i n => simp [note, calls_of]

/-- In every run each file has what its sink was given. -/
theorem logged_of_run {m : Level} {level : ι → Level} {actions : List (Action ι)}
    {os : List Unit} {s : FileLogger ι}
    (hrun : Machine.Run (step m) Taken (created level) actions os s) :
    Logged m level s (calls_of actions) := by
  have hkeep : ∀ s calls a o s', Logged m level s calls → Taken s a →
      step m s a = some (o, s') → Logged m level s' (note calls a) :=
    fun s calls a o s' h htaken hstep => h.step htaken hstep
  have hstart : Logged m level (created level) [] :=
    fun i => ⟨rfl, FileSink.wrote_created (level i)⟩
  have hlogged := hrun.follows hkeep hstart
  rwa [foldl_note, List.nil_append] at hlogged

/--
**What is in the log files.**  In every run, nothing that is done with a file is undefined, and
the device has the entries that its sink was to write, one line each and in order, but for a
last part that the library holds back.  Where no text has a newline in it, the whole lines
found there are the first entries.  A sink that is destroyed leaves what is found in the freed
buffer behind them, and so a file that is right for sure exactly if nothing was held back.
-/
theorem log_files {m : Level} {level : ι → Level} {actions : List (Action ι)} {os : List Unit}
    {s : FileLogger ι} (hrun : Machine.Run (step m) Taken (created level) actions os s) (i : ι) :
    let texts := logged m (level i) (calls_of actions)
    let file := (s i).m_file.m_file
    (s i).m_file.undefined = false ∧
    file.bytes.stored ++ file.bytes.pending = Lines.unlines File.newline texts ∧
    ((∀ call ∈ calls_of actions, '\n' ∉ call.entry.entry.toList) →
      Lines.lines File.newline file.bytes.stored <+: texts) ∧
    (∀ freed, file.destroyed freed = file.bytes.stored ++ freed) ∧
    ((∀ freed, freed.length = file.bytes.pending.length →
      file.destroyed freed = Lines.unlines File.newline texts) ↔ file.bytes.pending = []) := by
  obtain ⟨-, hwrote⟩ := logged_of_run hrun i
  obtain ⟨hundefined, hfile⟩ := hwrote.file
  refine ⟨hundefined, hfile, fun hnone => ?_, hwrote.destroyed, ?_⟩
  · have htexts : ∀ text ∈ logged m (level i) (calls_of actions), File.newline ∉ text := by
      intro text htext
      obtain ⟨e, he, rfl⟩ := List.mem_map.mp htext
      have hpassed := List.mem_of_mem_filter (List.mem_of_mem_filter he)
      obtain ⟨call, hcall, rfl⟩ := List.mem_map.mp hpassed
      exact newline_not_mem (hnone call hcall)
    exact Lines.lines_of_prefix htexts ⟨_, hfile⟩
  · have hcontent : (s i).m_file.m_file.content = Lines.unlines File.newline
        (logged m (level i) (calls_of actions)) :=
      (Buffered.view_of_at_end hwrote.at_end).trans hfile
    rw [← hcontent]
    exact File.destroyed_eq_iff (s i).m_file.m_file

/-- An entry is logged, one below the sink's level is not, and a part is passed on. -/
theorem log_files_two : ∃ s : FileLogger Unit,
    (s ()).m_file.m_file.bytes.stored = bytes_of "fu" ∧
    (s ()).m_file.m_file.destroyed [0, 0, 0] = bytes_of "fu" ++ [0, 0, 0] ∧
    Lines.lines File.newline (s ()).m_file.m_file.bytes.stored <+: [bytes_of "full"] := by
  have hfull : (bytes_of "full").length < 5 := by decide
  have hempty : (bytes_of "empty").length < 6 := by decide
  have hrun : Machine.Run (step .MESSAGE) Taken (created fun _ : Unit => .INFO)
      [.log (.rvalue ⟨.ERROR, "full"⟩) (fun _ => ⟨5, 0⟩), .transmit () 2,
        .log (.const_ref ⟨.TRACE, "empty"⟩) (fun _ => ⟨6, 0⟩)] [(), (), ()] _ :=
    .cons (fun _ => hfull) rfl (.cons trivial rfl (.cons (fun _ => hempty) rfl (.nil _)))
  obtain ⟨-, -, hlines, hdestroyed, -⟩ := log_files hrun ()
  have hstored : ∀ f : FileStream, f.bytes.stored = bytes_of "fu" →
      f.destroyed [0, 0, 0] = f.bytes.stored ++ [0, 0, 0] →
      f.destroyed [0, 0, 0] = bytes_of "fu" ++ [0, 0, 0] := fun f hf h => hf ▸ h
  exact ⟨_, by decide, hstored _ (by decide) (hdestroyed _), hlines (by decide)⟩

end FileLogger

end Hyperion
