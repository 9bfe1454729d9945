/-
What can be read in a log file.

Each line of a file is what `format_entry` makes of a call, as bytes.  Nothing in front of the
text is a newline, and the bytes of other characters are not the one of a newline, so the file
falls into the lines again and each line into the fields of its call.  A text with a newline in
it makes two lines of one call, and that is the only way in which reading fails.
-/
import Hyperion.Logger.Format
import Hyperion.Logger.LogFile

namespace Hyperion

/-- The text of some bytes, where they are the bytes of one. -/
def text_of (bytes : List (BitVec 8)) : Option (List Char) :=
  (bytes.map UInt8.ofBitVec).toByteArray.utf8Decode?.map Array.toList

/-- Bytes are read back as the text they are of. -/
theorem text_of_bytes_of (text : String) : text_of (bytes_of text) = some text.toList := by
  have hbytes : (bytes_of text).map UInt8.ofBitVec
      = text.toList.flatMap String.utf8EncodeChar := by
    rw [bytes_of, List.map_map]
    exact List.map_id _
  have hdecode : (text.toList.flatMap String.utf8EncodeChar).toByteArray.utf8Decode?
      = some text.toList.toArray := List.utf8Decode?_utf8Encode
  rw [text_of, hbytes, hdecode]
  rfl

/-- A newline has its byte. -/
theorem newline_mem {text : String} (h : '\n' ∈ text.toList) : File.newline ∈ bytes_of text :=
  List.mem_map.mpr ⟨10, List.mem_flatMap.mpr ⟨'\n', h, by decide⟩, rfl⟩

namespace ILogger

/-- `log(format_entry<level>(..))` -/
def Request.call (r : Request) : LogCall := .rvalue (format_entry r)

@[simp] theorem Request.entry_call (r : Request) : r.call.entry = format_entry r := rfl

/-- Nothing but the text of a call has a newline in it. -/
theorem newline_mem_line (r : Request) : '\n' ∈ line r ↔ '\n' ∈ r.text.toList := by
  have hstamp : '\n' ∉ stamp '|' ':' r.now := not_mem_stamp rfl (by decide) r.now
  have hthread : '\n' ∉ Nat.toDigits 10 r.tid := fun hmem => by
    cases Nat.isDigit_of_mem_toDigits (by decide) (by decide) hmem
  have hlevel : '\n' ∉ log_type r.level := by cases r.level <;> decide
  unfold line create_time_stamp
  simp [hstamp, hthread, hlevel]

/-- The record in the bytes of a line. -/
def read_bytes (bytes : List (BitVec 8)) : Option Record := (text_of bytes).bind read_line

/-- The records of a log. -/
def read_log (bytes : List (BitVec 8)) : List (Option Record) :=
  (Lines.lines File.newline bytes).map read_bytes

/-- The bytes of a line. -/
def Request.bytes (r : Request) : List (BitVec 8) := bytes_of (format_entry r).entry

theorem newline_mem_bytes (r : Request) : File.newline ∈ r.bytes ↔ '\n' ∈ r.text.toList := by
  rw [← newline_mem_line, ← String.toList_ofList (l := line r)]
  constructor
  · intro h
    by_contra hnone
    exact newline_not_mem hnone h
  · exact newline_mem

theorem read_bytes_bytes (r : Request) : read_bytes r.bytes = some r.record := by
  rw [read_bytes, Request.bytes, text_of_bytes_of, format_entry, String.toList_ofList,
    Option.bind_some, read_line_line]

/-- Lines are read one by one. -/
theorem map_read_bytes (requests : List Request) :
    (requests.map Request.bytes).map read_bytes = requests.map fun r => some r.record := by
  rw [List.map_map]
  refine List.map_congr_left fun r _ => ?_
  rw [Function.comp_apply, read_bytes_bytes]

/-- The calls that get past the logger and past a sink. -/
def passed (m level : Level) (requests : List Request) : List Request :=
  requests.filter fun r => m.value < r.level.value && level.value ≤ r.level.value

/-- They are what the sink is to write. -/
theorem logged_eq (m level : Level) (requests : List Request) :
    FileLogger.logged m level (requests.map Request.call)
      = (passed m level requests).map Request.bytes := by
  have hentries : (requests.map Request.call).map LogCall.entry = requests.map format_entry := by
    rw [List.map_map]
    exact List.map_congr_left fun r _ => Request.entry_call r
  have hlevels : (requests.filter ((fun e : Entry => level.value ≤ e.level.value &&
      m.value < e.level.value) ∘ format_entry)) = passed m level requests :=
    List.filter_congr fun r _ => Bool.and_comm _ _
  unfold FileLogger.logged FileSink.texts SyncLogger.passed
  rw [hentries, List.filter_filter, List.filter_map, hlevels, List.map_map]
  refine List.map_congr_left fun r _ => ?_
  rw [Request.bytes, Function.comp_apply]

/--
**What can be read in the log files.**  In every run the records of the file of a sink that is
destroyed are the calls that were to be logged there, with their times, threads, levels and
texts, whatever is found in the freed buffer, exactly if no text has a newline in it and the
library had passed everything on; and what the device holds at any moment are the first of them
if no text has a newline in it.
-/
theorem log_read_back {ι : Type} [DecidableEq ι] {m : Level} {level : ι → Level}
    {actions : List (FileLogger.Action ι)} {os : List Unit} {s : FileLogger ι}
    (hrun : Machine.Run (FileLogger.step m) FileLogger.Taken (FileLogger.created level)
      actions os s)
    {requests : List Request}
    (hcalls : FileLogger.calls_of actions = requests.map Request.call) (i : ι) :
    let logged := passed m (level i) requests
    let records := logged.map fun r => some r.record
    let file := (s i).m_file.m_file
    ((∀ freed, freed.length = file.bytes.pending.length →
      read_log (file.destroyed freed) = records) ↔
        file.bytes.pending = [] ∧ ∀ r ∈ logged, '\n' ∉ r.text.toList) ∧
    ((∀ r ∈ logged, '\n' ∉ r.text.toList) → read_log file.bytes.stored <+: records) := by
  intro logged records file
  obtain ⟨-, hwrote⟩ := FileLogger.logged_of_run hrun i
  have hlines := hwrote.file.2
  have htexts : FileSink.texts ((SyncLogger.passed m (FileLogger.calls_of actions)).filter
      fun e => (level i).value ≤ e.level.value) = logged.map Request.bytes := by
    rw [hcalls]
    exact logged_eq m (level i) requests
  rw [htexts] at hlines
  have hnone : (∀ r ∈ logged, '\n' ∉ r.text.toList) ↔
      ∀ text ∈ logged.map Request.bytes, File.newline ∉ text := by
    rw [List.forall_mem_map]
    exact forall₂_congr fun r _ => not_congr (newline_mem_bytes r).symm
  have hrecords : records = (logged.map Request.bytes).map read_bytes :=
    (map_read_bytes logged).symm
  refine ⟨⟨fun hread => ?_, fun ⟨hpending, h⟩ freed hfreed => ?_⟩, fun h => ?_⟩
  · -- there are as many lines as calls, whatever is found
    rw [hnone]
    have hzero : (0 : BitVec 8) ≠ File.newline := by decide
    refine Lines.whole_of_length_lines hlines hzero fun freed hfreed => ?_
    have hlength := congrArg List.length (hread freed hfreed)
    rw [hwrote.destroyed, read_log, List.length_map, List.length_map] at hlength
    rw [hlength, List.length_map]
  · rw [hpending, List.length_nil, List.length_eq_zero_iff] at hfreed
    rw [hpending, List.append_nil] at hlines
    rw [hwrote.destroyed, hfreed, List.append_nil, read_log, hlines,
      Lines.lines_unlines (hnone.mp h), hrecords]
  · rw [hrecords]
    exact (Lines.lines_of_prefix (hnone.mp h) ⟨_, hlines⟩).map read_bytes

/-- A text of one line that was passed on is read back, one of two lines is not. -/
theorem log_read_back_two : ∃ (one two : Request) (s t : FileLogger Unit),
    two.text.toList = one.text.toList ++ ['\n'] ∧
    read_log ((s ()).m_file.m_file.destroyed []) = [some one.record] ∧
    read_log (s ()).m_file.m_file.bytes.stored <+: [some one.record] ∧
    ¬ ∀ freed, freed.length = (t ()).m_file.m_file.bytes.pending.length →
      read_log ((t ()).m_file.m_file.destroyed freed) = [some two.record] := by
  let now : Tm := ⟨124, 0, 2, 3, 4, 5, by decide, by decide, by decide, by decide, by decide,
    by decide⟩
  let one : Request := ⟨now, some 7, 0, .ERROR, "full"⟩
  let two : Request := ⟨now, some 7, 0, .ERROR, "full\n"⟩
  let actions : Request → List (FileLogger.Action Unit) := fun r =>
    [.log r.call (fun _ => ⟨r.bytes.length + 1, 0⟩), .transmit () (r.bytes.length + 1)]
  have hcalls : ∀ r, FileLogger.calls_of (actions r) = [r].map Request.call := fun r => rfl
  have hsecond : ∃ t, Machine.Run (FileLogger.step .MESSAGE) FileLogger.Taken
      (FileLogger.created fun _ : Unit => .INFO) (actions two) [(), ()] t :=
    ⟨_, .cons (fun _ => Nat.lt_succ_self _) rfl (.cons trivial rfl (.nil _))⟩
  have hfirst : ∃ s, Machine.Run (FileLogger.step .MESSAGE) FileLogger.Taken
      (FileLogger.created fun _ : Unit => .INFO) (actions one) [(), ()] s ∧
      (s ()).m_file.m_file.bytes.pending = [] :=
    ⟨_, .cons (fun _ => Nat.lt_succ_self _) rfl (.cons trivial rfl (.nil _)), by decide +kernel⟩
  obtain ⟨s, hs, hpending⟩ := hfirst
  obtain ⟨t, ht⟩ := hsecond
  obtain ⟨hone, hcut⟩ := log_read_back hs (hcalls one) ()
  obtain ⟨htwo, -⟩ := log_read_back ht (hcalls two) ()
  have htext : ∀ r ∈ passed .MESSAGE .INFO [one], '\n' ∉ r.text.toList := by decide
  refine ⟨one, two, s, t, by decide, hone.mpr ⟨hpending, htext⟩ [] (by rw [hpending]), hcut htext,
    fun hread => ?_⟩
  have hlogged : two ∈ passed .MESSAGE .INFO [two] :=
    List.mem_filter.mpr ⟨List.mem_singleton_self two, by decide⟩
  exact absurd ((htwo.mp hread).2 two hlogged) (by decide)

end ILogger

end Hyperion
