/-
The directory of the log files, from `logging/Sink.cpp`.

`create_file` names a file after the second it is created in and cuts off whatever has that
name.  The name is the stamp, the root and `.log`, which takes the place of what looks like an
extension of the root.  So a log is lost exactly where another one is created in the same second
with a root that differs in nothing else, and the names of one root sort as the logs were
created.

A program uses any number of sinks at a time, two of which may write to one file, and it may end
without destroying them.  Destroying one frees the buffer of its file before that is closed, so
that its last bytes are whatever is found there.
-/
import Hyperion.Logger.Format
import Hyperion.Logger.LogFile

namespace Hyperion

/-! ### Paths -/

namespace Path

/-- `path::append(p)` -/
def append (path p : List Char) : List Char :=
  if p.head? = some '/' then p
  else if path = [] ∨ path.getLast? = some '/' then path ++ p
  else path ++ '/' :: p

/-- `path::stem()` of a file name: a dot in front begins no extension. -/
def stem (name : List Char) : List Char :=
  if name = ".".toList ∨ name = "..".toList then name
  else
    match Lines.split_last '.' name with
    | some (c :: front, _) => c :: front
    | _ => name

/-- `path::replace_extension(extension)` -/
def replace_extension (path extension : List Char) : List Char :=
  match Lines.split_last '/' path with
  | some (parent, name) => parent ++ '/' :: (stem name ++ '.' :: extension)
  | none => stem path ++ '.' :: extension

/-- A part in front that ends in a separator, or is empty. -/
def Parent (front : List Char) : Prop := front = [] ∨ ∃ path, front = path ++ ['/']

/-- What is appended is behind such a part. -/
theorem append_eq (path : List Char) : ∃ front, Parent front ∧
    ∀ p : List Char, p.head? ≠ some '/' → append path p = front ++ p := by
  unfold append
  by_cases hpath : path = [] ∨ path.getLast? = some '/'
  · refine ⟨path, ?_, fun p hp => by rw [if_neg hp, if_pos hpath]⟩
    rcases hpath with hnil | hlast
    · exact .inl hnil
    · obtain ⟨rest, hrest⟩ := List.getLast?_eq_some_iff.mp hlast
      exact .inr ⟨rest, hrest⟩
  · refine ⟨path ++ ['/'], .inr ⟨path, rfl⟩, fun p hp => ?_⟩
    rw [if_neg hp, if_neg hpath, List.append_assoc]
    rfl

/-- The extension is replaced behind such a part. -/
theorem replace_extension_parent {front : List Char} (h : Parent front) (p extension : List Char) :
    replace_extension (front ++ p) extension = front ++ replace_extension p extension := by
  rcases h with rfl | ⟨path, rfl⟩
  · rfl
  · unfold replace_extension
    rw [List.append_assoc, List.singleton_append, Lines.split_last_append_cons]
    rcases Lines.split_last '/' p with _ | ⟨parent, name⟩ <;> simp

/-- A text without separators and dots in front of another stays there. -/
theorem stem_append {front : List Char} (hfront : '.' ∉ front) {c : Char} (hc : c ≠ '.')
    (s : List Char) : stem (front ++ c :: s) = front ++ stem (c :: s) := by
  have hnone : ∀ t : List Char, c ∈ t → t ≠ ".".toList ∧ t ≠ "..".toList := by
    intro t ht
    refine ⟨?_, ?_⟩ <;> rintro rfl
    · exact hc (List.mem_singleton.mp ht)
    · exact hc (by simpa using ht)
  obtain ⟨h1, h2⟩ := hnone (c :: s) (by simp)
  obtain ⟨h3, h4⟩ := hnone (front ++ c :: s) (by simp)
  unfold stem
  rw [if_neg (not_or.mpr ⟨h1, h2⟩), if_neg (not_or.mpr ⟨h3, h4⟩), Lines.split_last_append hfront,
    Lines.split_last]
  rcases Lines.split_last '.' s with _ | ⟨a, b⟩
  · simp only [if_neg hc, Option.map_none]
  · rcases front with _ | ⟨d, rest⟩ <;> rfl

theorem replace_extension_append {front : List Char} (hslash : '/' ∉ front) (hdot : '.' ∉ front)
    {c : Char} (hc : c ≠ '.') (s extension : List Char) :
    replace_extension (front ++ c :: s) extension
      = front ++ replace_extension (c :: s) extension := by
  unfold replace_extension
  rw [Lines.split_last_append hslash]
  rcases Lines.split_last '/' (c :: s) with _ | ⟨parent, name⟩
  · simp only [Option.map_none]
    rw [stem_append hdot hc, List.append_assoc]
  · simp only [Option.map_some]
    rw [List.append_assoc]

end Path

/-! ### Names -/

namespace FileSink

/-- `create_time_stamp()`: `"[{:#04}-{:#02}-{:#02}={:#02}-{:#02}-{:#02}]"` -/
def create_time_stamp (now : Tm) : List Char := stamp '=' '-' now

/-- What `file_directory` is in the end. -/
def log_path (temp_directory subdirectory_name root_file_name : List Char) (now : Tm) :
    List Char :=
  Path.replace_extension (Path.append (Path.append temp_directory subdirectory_name)
    (create_time_stamp now ++ " ".toList ++ root_file_name)) "log".toList

/-- What is left of the root in the name of the file. -/
def kept (root_file_name : List Char) : List Char :=
  Path.replace_extension (' ' :: root_file_name) "log".toList

/-- A path is the directory, the stamp and what is left of the root. -/
theorem log_path_eq (temp_directory subdirectory_name : List Char) :
    ∃ front, ∀ root now, log_path temp_directory subdirectory_name root now
      = front ++ (create_time_stamp now ++ kept root) := by
  obtain ⟨front, hfront, happend⟩ :=
    Path.append_eq (Path.append temp_directory subdirectory_name)
  refine ⟨front, fun root now => ?_⟩
  have hslash : '/' ∉ create_time_stamp now := not_mem_stamp rfl (by decide) now
  have hdot : '.' ∉ create_time_stamp now := not_mem_stamp rfl (by decide) now
  have hspace : create_time_stamp now ++ " ".toList ++ root
      = create_time_stamp now ++ ' ' :: root := by
    rw [List.append_assoc]
    rfl
  rw [log_path, hspace, happend _ (by rw [create_time_stamp, stamp]; simp),
    Path.replace_extension_parent hfront,
    Path.replace_extension_append hslash hdot (by decide), kept]

/-- **Two logs have one path exactly if they are of one second and their roots differ only in
what looks like an extension.** -/
theorem log_path_inj {temp_directory subdirectory_name root root' : List Char} {now now' : Tm} :
    log_path temp_directory subdirectory_name root now
        = log_path temp_directory subdirectory_name root' now' ↔
      now = now' ∧ kept root = kept root' := by
  obtain ⟨front, hpath⟩ := log_path_eq temp_directory subdirectory_name
  rw [hpath, hpath, List.append_right_inj]
  constructor
  · intro h
    have hread := congrArg (read_stamp '=' '-') h
    rw [create_time_stamp, create_time_stamp, read_stamp_stamp rfl rfl, read_stamp_stamp rfl rfl,
      Option.some.injEq, Prod.mk.injEq] at hread
    exact ⟨Tm.fields_inj hread.1, hread.2⟩
  · rintro ⟨rfl, hkept⟩
    rw [hkept]

/-- An extension of the root tells nothing apart. -/
example : kept "full.one".toList = kept "full.two".toList := by decide

/-- **The paths of one root are ordered as the times**, until the year 9999. -/
theorem log_path_lt_iff {temp_directory subdirectory_name root : List Char} {now now' : Tm}
    (hnow : now.years < 10 ^ 4) (hnow' : now'.years < 10 ^ 4) :
    log_path temp_directory subdirectory_name root now
        < log_path temp_directory subdirectory_name root now' ↔ now.fields < now'.fields := by
  obtain ⟨front, hpath⟩ := log_path_eq temp_directory subdirectory_name
  rw [hpath, hpath, Decimal.append_lt_append_iff rfl, create_time_stamp, create_time_stamp,
    stamp_lt_iff hnow hnow']
  have hirrefl : ∀ l : List Char, ¬ l < l := fun l => List.lt_irrefl l
  constructor
  · rintro (hlt | ⟨-, hlt | ⟨-, hlt⟩⟩)
    · exact absurd hlt (hirrefl front)
    · exact hlt
    · exact absurd hlt (hirrefl (kept root))
  · exact fun h => .inr ⟨rfl, .inl h⟩

/-- What the system answers to `create_file`; the codes are those of its errors, 0 is none. -/
structure CreateAnswers where
  temp_directory_path : Int
  create_directory : Int
  now : Tm
  open' : File.Answers

/-- Whether a file is opened. -/
def CreateAnswers.opens (answers : CreateAnswers) : Bool :=
  answers.temp_directory_path = 0 && answers.create_directory = 0 && answers.open'.fopen

/--
`create_file(root_file_name, subdirectory_name)`: the path of the file that is opened, and cut
off, and whether there is a `File` in the end.
-/
def create_file (temp_directory subdirectory_name root_file_name : List Char)
    (answers : CreateAnswers) : Option (List Char) × Bool :=
  if answers.temp_directory_path ≠ 0 then (none, false)
  else if answers.create_directory ≠ 0 then (none, false)
  else if answers.open'.fopen = false then (none, false)
  else
    (some (log_path temp_directory subdirectory_name root_file_name answers.now),
      answers.open'.setvbuf)

theorem create_file_eq (temp_directory subdirectory_name root_file_name : List Char)
    (answers : CreateAnswers) :
    create_file temp_directory subdirectory_name root_file_name answers
      = if answers.opens then
          (some (log_path temp_directory subdirectory_name root_file_name answers.now),
            answers.open'.setvbuf)
        else (none, false) := by
  unfold create_file CreateAnswers.opens
  by_cases htemp : answers.temp_directory_path = 0
  · by_cases hcreate : answers.create_directory = 0
    · cases hopen : answers.open'.fopen <;> simp [htemp, hcreate]
    · simp [hcreate]
  · simp [htemp]

/-- The stream of a sink, where the device has these bytes in its file. -/
def on (f : FileSink) (device : List (BitVec 8)) : FileSink := { f with
  m_file := { f.m_file with
    m_file := { f.m_file.m_file with
      bytes := { f.m_file.m_file.bytes with stored := device } } } }

/-- What a sink has on the device. -/
def stored (f : FileSink) : List (BitVec 8) := f.m_file.m_file.bytes.stored

end FileSink

/-! ### Runs -/

/--
The files of a directory, and the sinks that a program uses, with the paths of their files; the
sinks are numbered as their files are opened.
-/
structure LogDirectory where
  files : List Char → Option (List (BitVec 8))
  sinks : Nat → Option (List Char × FileSink)
  next : Nat

namespace LogDirectory

/-- Nothing was logged yet. -/
def start (files : List Char → Option (List (BitVec 8))) : LogDirectory := ⟨files, fun _ => none, 0⟩

/--
A sink is created, is used or is destroyed, when `freed` is found in the buffer; or the program
ends.
-/
inductive Action
  | create_file (root : List Char) (level : Level) (answers : FileSink.CreateAnswers)
  | sink (j : Nat) (entry : Entry) (answer : File.Written)
  | transmit (j n : Nat)
  | destroy (j : Nat) (freed : List (BitVec 8))
  | exit

/-- A sink as it stands; two with one path write to the same file. -/
def sink_at (s : LogDirectory) (j : Nat) : Option (List Char × FileSink) :=
  (s.sinks j).map fun (path, f) => (path, f.on ((s.files path).getD []))

/-- A sink goes on, with what its file has on the device. -/
def use (s : LogDirectory) (j : Nat) (path : List Char) (f : FileSink) : LogDirectory :=
  { s with
    files := Function.update s.files path (some f.stored)
    sinks := Function.update s.sinks j (some (path, f)) }

/-- A file is opened and cut off, and there is a sink for it or none. -/
def opened (s : LogDirectory) (path : List Char) (sink : Option (List Char × FileSink)) :
    LogDirectory where
  files := Function.update s.files path (some [])
  sinks := Function.update s.sinks s.next sink
  next := s.next + 1

/-- One step. -/
def step (temp_directory subdirectory_name : List Char) (s : LogDirectory) :
    Action → Option (Unit × LogDirectory)
  | .create_file root level answers =>
      match FileSink.create_file temp_directory subdirectory_name root answers with
      | (none, _) => some ((), s)
      | (some path, true) => some ((), s.opened path (some (path, FileSink.created level)))
      | (some path, false) => some ((), s.opened path none)
  | .sink j entry answer =>
      (s.sink_at j).map fun (path, f) => ((), s.use j path (f.sink entry answer))
  | .transmit j n => (s.sink_at j).map fun (path, f) => ((), s.use j path (f.transmit n))
  | .destroy j freed =>
      (s.sink_at j).bind fun (path, f) =>
        if freed.length = f.m_file.m_file.bytes.pending.length then
          some ((), { s with
            files := Function.update s.files path (some (f.m_file.m_file.destroyed freed))
            sinks := Function.update s.sinks j none })
        else none
  | .exit => some ((), { s with sinks := fun _ => none })

/-- The device takes all lines. -/
def Taken (_ : LogDirectory) : Action → Prop
  | .sink _ entry answer => (bytes_of entry.entry).length < answer.taken
  | _ => True

/-! ### What a directory is to have in it -/

/-- Whether the sink of a log is in use, was destroyed, or was left where the program ended. -/
inductive LogState
  | in_use
  | closed (freed : List (BitVec 8))
  | left
deriving DecidableEq

/--
A log: what it was created with, whether one with its path was in use then, the entries it was
given, and what became of it.
-/
structure Log where
  root : List Char
  now : Tm
  level : Level
  beside : Bool
  entries : List Entry
  state : LogState

namespace Log

/-- The path of a log. -/
def path (temp_directory subdirectory_name : List Char) (x : Log) : List Char :=
  FileSink.log_path temp_directory subdirectory_name x.root x.now

/-- Two logs are of one second, and their roots differ only in what looks like an extension. -/
def Alike (x y : Log) : Prop := x.now = y.now ∧ FileSink.kept x.root = FileSink.kept y.root

instance (x y : Log) : Decidable (x.Alike y) := inferInstanceAs (Decidable (_ ∧ _))

theorem path_eq_iff {temp_directory subdirectory_name : List Char} {x y : Log} :
    x.path temp_directory subdirectory_name = y.path temp_directory subdirectory_name ↔
      x.Alike y :=
  FileSink.log_path_inj

/-- The entries that are not below the level. -/
def passed (x : Log) : List Entry := x.entries.filter fun e => x.level.value ≤ e.level.value

/-- Their lines. -/
def lines (x : Log) : List (BitVec 8) := Lines.unlines File.newline (FileSink.texts x.passed)

/--
A file has these lines, or a part of them that was cut off.  Where the sink was destroyed the
last bytes of the lines, as many as were held back, are what was found in the freed buffer.
-/
def Kept (x : Log) (file : Option (List (BitVec 8))) : Prop :=
  ∃ bytes ∈ file, match x.state with
    | .closed freed => freed.length ≤ x.lines.length ∧
        bytes = x.lines.take (x.lines.length - freed.length) ++ freed
    | .in_use | .left => bytes <+: x.lines

/-- It is given one more entry. -/
def given (entry : Entry) (x : Log) : Log := { x with entries := x.entries ++ [entry] }

/-- It is closed. -/
def close (freed : List (BitVec 8)) (x : Log) : Log := { x with state := .closed freed }

/-- The program ends. -/
def leave (x : Log) : Log := { x with state := if x.state = .in_use then .left else x.state }

end Log

/-- A log with the path of another one in use, or not. -/
def Log.among (logs : List Log) (x : Log) : Log :=
  { x with beside := logs.any fun y => y.Alike x ∧ y.state = .in_use }

/-- The logs after one more step, as they were created. -/
def note (logs : List Log) : Action → List Log
  | .create_file root level answers =>
      if answers.opens then
        let state := if answers.open'.setvbuf then .in_use else .closed []
        logs ++ [Log.among logs ⟨root, answers.now, level, false, [], state⟩]
      else logs
  | .sink j entry _ => logs.modify j (·.given entry)
  | .destroy j freed => logs.modify j (·.close freed)
  | .transmit _ _ => logs
  | .exit => logs.map Log.leave

section

variable {path : Log → List Char} {files₀ : List Char → Option (List (BitVec 8))}
variable {s s' : LogDirectory} {logs logs' : List Log}

/-- The last log with its path, and no other with that was in use when it was created. -/
structure Last (path : Log → List Char) (logs : List Log) (j : Nat) (x : Log) : Prop where
  get : logs[j]? = some x
  first : x.beside = false
  last : ∀ (k : Nat) (y : Log), j < k → logs[k]? = some y → path y ≠ path x

/--
A directory has the files that it is to have, and the sinks in use are those of logs in use; a
last log's sink is the only one with its path.
-/
structure Follows (path : Log → List Char) (files₀ : List Char → Option (List (BitVec 8)))
    (s : LogDirectory) (logs : List Log) : Prop where
  next : s.next = logs.length
  sinks : ∀ j p f, s.sinks j = some (p, f) → ∃ x, logs[j]? = some x ∧ path x = p ∧
    x.state = .in_use ∧ f.m_log_level = x.level
  kept : ∀ j x, Last path logs j x → x.Kept (s.files (path x))
  alone : ∀ j x, Last path logs j x → ∀ k f, s.sinks k = some (path x, f) →
    k = j ∧ s.files (path x) = some f.stored ∧ f.Wrote x.passed
  others : ∀ p, (∀ x ∈ logs, path x ≠ p) → s.files p = files₀ p

/-- What happens to a log changes neither its path nor which logs are last. -/
theorem Last.of_map {G : Nat → Log → Log}
    (hG : ∀ j x, path (G j x) = path x ∧ (G j x).beside = x.beside)
    (hlogs : ∀ j, logs'[j]? = logs[j]?.map (G j)) {j : Nat} {y : Log} (h : Last path logs' j y) :
    ∃ x, Last path logs j x ∧ G j x = y := by
  obtain ⟨x, hx, rfl⟩ := Option.map_eq_some_iff.mp ((hlogs j).symm.trans h.get)
  refine ⟨x, ⟨hx, (hG j x).2.symm.trans h.first, fun k z hk hz => ?_⟩, rfl⟩
  have hne := h.last k (G k z) hk (by rw [hlogs, hz, Option.map_some])
  rwa [(hG k z).1, (hG j x).1] at hne

/-- Where one more was created, an earlier log that is still last has another path. -/
theorem Last.of_concat {x y : Log} {j : Nat} (h : Last path (logs ++ [x]) j y)
    (hj : j < logs.length) : Last path logs j y ∧ path y ≠ path x := by
  refine ⟨⟨?_, h.first, fun k z hk hz => ?_⟩, ?_⟩
  · have hget := h.get
    rwa [List.getElem?_append_left hj] at hget
  · refine h.last k z hk ?_
    rwa [List.getElem?_append_left (List.getElem?_eq_some_iff.mp hz).1]
  · exact Ne.symm (h.last logs.length x hj List.getElem?_concat_length)

/-- It is an earlier one, or the new one. -/
theorem Last.concat_cases {x y : Log} {j : Nat} (h : Last path (logs ++ [x]) j y) :
    (j < logs.length ∧ Last path logs j y ∧ path y ≠ path x) ∨ (j = logs.length ∧ y = x) := by
  have hget := h.get
  rcases Nat.lt_trichotomy j logs.length with hlt | rfl | hgt
  · exact .inl ⟨hlt, h.of_concat hlt⟩
  · rw [List.getElem?_concat_length] at hget
    exact .inr ⟨rfl, (Option.some.inj hget).symm⟩
  · have hlength : (logs ++ [x]).length ≤ j := by
      rw [List.length_append]
      exact hgt
    rw [List.getElem?_eq_none hlength] at hget
    cases hget

/-- What a sink in use has on the device is a part of its lines. -/
theorem kept_stored {x : Log} (hstate : x.state = .in_use) {f : FileSink}
    (hwrote : f.Wrote x.passed) : x.Kept (some f.stored) := by
  refine ⟨_, rfl, ?_⟩
  rw [hstate]
  exact ⟨_, hwrote.file.2⟩

/-- The sink of a log is used or destroyed, and its file written. -/
theorem Follows.touch (h : Follows path files₀ s logs) {k : Nat} {p : List Char} {f : FileSink}
    (hk : s.sinks k = some (p, f)) (g : Log → Log) (bytes : List (BitVec 8))
    (sink : Option (List Char × FileSink))
    (hg : ∀ x, path (g x) = path x ∧ (g x).beside = x.beside)
    (hsink : ∀ x, x.state = .in_use → f.m_log_level = x.level → ∀ p' f', sink = some (p', f') →
      p' = p ∧ (g x).state = .in_use ∧ f'.m_log_level = (g x).level)
    (hwrote : ∀ x, x.state = .in_use → f.m_log_level = x.level → f.Wrote x.passed →
      s.files p = some f.stored → (g x).Kept (some bytes) ∧
        ∀ p' f', sink = some (p', f') → bytes = f'.stored ∧ f'.Wrote (g x).passed) :
    Follows path files₀ { s with
      files := Function.update s.files p (some bytes)
      sinks := Function.update s.sinks k sink } (logs.modify k g) := by
  obtain ⟨x, hx, rfl, hstate, hlevel⟩ := h.sinks k p f hk
  have hlogs : ∀ j, (logs.modify k g)[j]? = logs[j]?.map fun y => if k = j then g y else y :=
    fun j => List.getElem?_modify g k logs j
  have hG : ∀ j y, path (if k = j then g y else y) = path y ∧
      (if k = j then g y else y).beside = y.beside := by
    intro j y
    split
    · exact hg y
    · exact ⟨rfl, rfl⟩
  -- a last log with the path that is written is the one whose sink writes
  have hsame : ∀ {j : Nat} {y : Log}, Last path logs j y → path y = path x →
      j = k ∧ y = x ∧ s.files (path x) = some f.stored ∧ f.Wrote x.passed := by
    intro j y hlast hpath
    obtain ⟨rfl, hfile, hf⟩ := h.alone j y hlast k f (hpath ▸ hk)
    obtain rfl : y = x := Option.some.inj (hlast.get.symm.trans hx)
    exact ⟨rfl, rfl, hfile, hf⟩
  refine ⟨by rw [List.length_modify]; exact h.next, ?_, ?_, ?_, ?_⟩
  · intro j p' f' hj
    dsimp only at hj
    by_cases hjk : j = k
    · subst hjk
      rw [Function.update_self] at hj
      obtain ⟨rfl, hin, hlevel'⟩ := hsink x hstate hlevel p' f' hj
      exact ⟨g x, by rw [hlogs, hx, Option.map_some, if_pos rfl], (hg x).1, hin, hlevel'⟩
    · rw [Function.update_of_ne hjk] at hj
      obtain ⟨y, hy, hrest⟩ := h.sinks j p' f' hj
      exact ⟨y, by rw [hlogs, hy, Option.map_some, if_neg (Ne.symm hjk)], hrest⟩
  · intro j y' hlast'
    obtain ⟨y, hlast, rfl⟩ := hlast'.of_map hG hlogs
    rw [(hG j y).1]
    by_cases hpath : path y = path x
    · obtain ⟨rfl, rfl, hfile, hf⟩ := hsame hlast hpath
      rw [if_pos rfl]
      dsimp only
      rw [Function.update_self]
      exact (hwrote y hstate hlevel hf hfile).1
    · have hjk : k ≠ j := by
        rintro rfl
        exact hpath (congrArg path (Option.some.inj (hlast.get.symm.trans hx)))
      rw [if_neg hjk]
      dsimp only
      rw [Function.update_of_ne hpath]
      exact h.kept j y hlast
  · intro j y' hlast' k' f' hk'
    obtain ⟨y, hlast, rfl⟩ := hlast'.of_map hG hlogs
    rw [(hG j y).1] at hk' ⊢
    dsimp only at hk' ⊢
    by_cases hkk : k' = k
    · subst hkk
      rw [Function.update_self] at hk'
      have hpath := (hsink x hstate hlevel _ _ hk').1
      obtain ⟨rfl, rfl, hfile, hf⟩ := hsame hlast hpath
      obtain ⟨-, hnew⟩ := hwrote y hstate hlevel hf hfile
      obtain ⟨hstored, hf'⟩ := hnew _ _ hk'
      rw [if_pos rfl, Function.update_self, hstored]
      exact ⟨rfl, rfl, hf'⟩
    · rw [Function.update_of_ne hkk] at hk'
      obtain ⟨rfl, hfile, hf⟩ := h.alone j y hlast k' f' hk'
      have hpath : path y ≠ path x := fun heq => hkk (hsame hlast heq).1
      rw [if_neg (Ne.symm hkk), Function.update_of_ne hpath]
      exact ⟨rfl, hfile, hf⟩
  · intro p hp
    have hmem : ∀ (j : Nat) (y : Log), logs[j]? = some y → path y ≠ p := by
      intro j y hy
      have hne := hp _ (List.mem_of_getElem? (i := j) (by rw [hlogs, hy, Option.map_some]))
      rwa [(hG j y).1] at hne
    dsimp only
    rw [Function.update_of_ne (Ne.symm (hmem k x hx))]
    refine h.others p fun y hy => ?_
    obtain ⟨j, hj⟩ := List.getElem?_of_mem hy
    exact hmem j y hj

/-- A sink that is used writes behind what its file has. -/
theorem Follows.use (h : Follows path files₀ s logs) {k : Nat} {p : List Char} {f : FileSink}
    (hk : s.sink_at k = some (p, f)) {g : Log → Log} {f' : FileSink}
    (hg : ∀ x, path (g x) = path x ∧ (g x).beside = x.beside ∧ (g x).state = x.state ∧
      (g x).level = x.level)
    (hlevel : f'.m_log_level = f.m_log_level)
    (hwrote : ∀ x, f.m_log_level = x.level → f.Wrote x.passed → f'.Wrote (g x).passed) :
    Follows path files₀ (s.use k p f') (logs.modify k g) := by
  obtain ⟨⟨p', f₀⟩, hsink, heq⟩ := Option.map_eq_some_iff.mp hk
  obtain ⟨rfl, hf⟩ := Prod.mk.inj heq
  have hlevel₀ : f.m_log_level = f₀.m_log_level := by rw [← hf]; rfl
  refine h.touch hsink g f'.stored (some (p', f')) (fun x => ⟨(hg x).1, (hg x).2.1⟩) ?_ ?_
  · rintro x hstate hx p'' f'' hnew
    cases hnew
    exact ⟨rfl, (hg x).2.2.1.trans hstate,
      hlevel.trans (hlevel₀.trans (hx.trans (hg x).2.2.2.symm))⟩
  · intro x hstate hx hf₀ hfile
    have hsame : f = f₀ := by
      rw [← hf, hfile, Option.getD_some]
      rfl
    have hf' := hwrote x (hlevel₀.trans hx) (hsame ▸ hf₀)
    refine ⟨kept_stored ((hg x).2.2.1.trans hstate) hf', ?_⟩
    rintro p'' f'' hnew
    cases hnew
    exact ⟨rfl, hf'⟩

/-- A sink is destroyed, and what is found in the freed buffer is behind what its file had. -/
theorem Follows.destroy {freed : List (BitVec 8)} (hpath : ∀ x : Log, path (x.close freed) = path x)
    (h : Follows path files₀ s logs) {k : Nat} {p : List Char} {f : FileSink}
    (hk : s.sink_at k = some (p, f))
    (hfreed : freed.length = f.m_file.m_file.bytes.pending.length) :
    Follows path files₀ { s with
      files := Function.update s.files p (some (f.m_file.m_file.destroyed freed))
      sinks := Function.update s.sinks k none } (logs.modify k (·.close freed)) := by
  obtain ⟨⟨p', f₀⟩, hsink, heq⟩ := Option.map_eq_some_iff.mp hk
  obtain ⟨rfl, hf⟩ := Prod.mk.inj heq
  refine h.touch hsink (·.close freed) _ none (fun x => ⟨hpath x, rfl⟩)
    (fun x _ _ p' f' hnew => by cases hnew) fun x hstate hlevel hwrote hfile => ?_
  refine ⟨?_, fun p' f' hnew => by cases hnew⟩
  obtain rfl : f = f₀ := by
    rw [← hf, hfile, Option.getD_some]
    rfl
  have hlines : f.stored ++ f.m_file.m_file.bytes.pending = x.lines := hwrote.file.2
  have hlength := congrArg List.length hlines
  rw [List.length_append] at hlength
  refine ⟨_, rfl, ?_, ?_⟩
  · show freed.length ≤ x.lines.length
    omega
  · show f.m_file.m_file.destroyed freed
      = x.lines.take (x.lines.length - freed.length) ++ freed
    rw [hwrote.destroyed, hfreed, ← hlines, List.length_append, Nat.add_sub_cancel]
    exact congrArg (· ++ freed) (List.take_left' rfl).symm

/-- A file is opened and cut off. -/
theorem Follows.opened (h : Follows path files₀ s logs) (x : Log)
    {sink : Option (List Char × FileSink)} (hentries : x.entries = [])
    (hbeside : x.beside = false → ∀ y ∈ logs, y.state = .in_use → path y ≠ path x)
    (hsink : ∀ p f, sink = some (p, f) → p = path x ∧ x.state = .in_use ∧
      f = FileSink.created x.level)
    (hstate : x.state = .in_use ∨ x.state = .closed []) :
    Follows path files₀ (s.opened (path x) sink) (logs ++ [x]) := by
  have hlines : x.lines = [] := by simp [Log.lines, Log.passed, FileSink.texts, hentries]
  have hkept : x.Kept (some []) := by
    refine ⟨[], rfl, ?_⟩
    rcases hstate with hin | hclosed
    · rw [hin]; exact List.nil_prefix
    · rw [hclosed, hlines]; exact ⟨Nat.le_refl 0, rfl⟩
  refine ⟨by rw [LogDirectory.opened, h.next, List.length_append]; rfl, ?_, ?_, ?_, ?_⟩
  · intro j p f hj
    simp only [LogDirectory.opened, h.next] at hj
    by_cases hnew : j = logs.length
    · subst hnew
      rw [Function.update_self] at hj
      obtain ⟨rfl, hin, rfl⟩ := hsink p f hj
      exact ⟨x, List.getElem?_concat_length, rfl, hin, rfl⟩
    · rw [Function.update_of_ne hnew] at hj
      obtain ⟨y, hy, hrest⟩ := h.sinks j p f hj
      exact ⟨y, by rw [List.getElem?_append_left (List.getElem?_eq_some_iff.mp hy).1]; exact hy,
        hrest⟩
  · intro j y hlast
    simp only [LogDirectory.opened]
    rcases hlast.concat_cases with ⟨-, hlast, hne⟩ | ⟨-, rfl⟩
    · rw [Function.update_of_ne hne]
      exact h.kept j y hlast
    · rw [Function.update_self]
      exact hkept
  · intro j y hlast k f hk
    simp only [LogDirectory.opened, h.next] at hk ⊢
    rcases hlast.concat_cases with ⟨-, hlast, hne⟩ | ⟨rfl, rfl⟩
    · rw [Function.update_of_ne hne]
      by_cases hnew : k = logs.length
      · subst hnew
        rw [Function.update_self] at hk
        exact absurd (hsink _ _ hk).1 hne
      · rw [Function.update_of_ne hnew] at hk
        exact h.alone j y hlast k f hk
    · by_cases hnew : k = logs.length
      · subst hnew
        rw [Function.update_self] at hk
        obtain ⟨-, -, rfl⟩ := hsink _ _ hk
        rw [Function.update_self]
        have hpassed : y.passed = [] := by rw [Log.passed, hentries]; rfl
        exact ⟨rfl, rfl, hpassed ▸ FileSink.wrote_created y.level⟩
      · -- the sink of a log in use has its path, and there is none
        rw [Function.update_of_ne hnew] at hk
        obtain ⟨z, hz, hpath, hin, -⟩ := h.sinks k _ f hk
        exact absurd hpath (hbeside hlast.first z (List.mem_of_getElem? hz) hin)
  · intro p hp
    have hne : path x ≠ p := hp x (by simp)
    simp only [LogDirectory.opened]
    rw [Function.update_of_ne (Ne.symm hne)]
    exact h.others p fun y hy => hp y (by simp [hy])

/-- The program ends. -/
theorem Follows.exit (hpath : ∀ x : Log, path x.leave = path x) (h : Follows path files₀ s logs) :
    Follows path files₀ { s with sinks := fun _ => none } (logs.map Log.leave) := by
  have hlogs : ∀ j : Nat, (logs.map Log.leave)[j]? = logs[j]?.map Log.leave :=
    fun j => List.getElem?_map
  refine ⟨by rw [List.length_map]; exact h.next, fun j p f hj => (nomatch hj), ?_,
    fun j x _ k f hk => (nomatch hk), ?_⟩
  · intro j y' hlast'
    obtain ⟨y, hlast, rfl⟩ := hlast'.of_map (G := fun _ => Log.leave)
      (fun _ y => ⟨hpath y, rfl⟩) hlogs
    obtain ⟨bytes, hbytes, hkept⟩ := h.kept j y hlast
    refine ⟨bytes, by rw [hpath]; exact hbytes, ?_⟩
    unfold Log.leave
    cases hstate : y.state with
    | in_use => rw [hstate] at hkept; exact hkept
    | closed freed => rw [hstate] at hkept; exact hkept
    | left => rw [hstate] at hkept; exact hkept
  · intro p hp
    refine h.others p fun y hy => ?_
    rw [← hpath]
    exact hp y.leave (List.mem_map_of_mem hy)

end

section

variable {temp_directory subdirectory_name : List Char}
variable {files₀ : List Char → Option (List (BitVec 8))}

/-- No log in use has the path of one that is created beside none. -/
theorem among_alone {logs : List Log} {x : Log} (h : (Log.among logs x).beside = false) :
    ∀ y ∈ logs, y.state = .in_use → y.path temp_directory subdirectory_name
      ≠ x.path temp_directory subdirectory_name := by
  intro y hy hin hpath
  exact List.any_eq_false.mp h y hy (decide_eq_true ⟨Log.path_eq_iff.mp hpath, hin⟩)

/-- **A directory has what it is to have**, whatever is done next. -/
theorem Follows.step {s s' : LogDirectory} {logs : List Log}
    (h : Follows (Log.path temp_directory subdirectory_name) files₀ s logs) {a : Action}
    (htaken : Taken s a) {o : Unit}
    (hstep : step temp_directory subdirectory_name s a = some (o, s')) :
    Follows (Log.path temp_directory subdirectory_name) files₀ s' (note logs a) := by
  cases a with
  | create_file root level answers =>
      simp only [LogDirectory.step, FileSink.create_file_eq] at hstep
      cases hopens : answers.opens with
      | false =>
          simp only [hopens, Bool.false_eq_true, if_false, Option.some.injEq,
            Prod.mk.injEq] at hstep
          simp only [note, hopens, Bool.false_eq_true, if_false]
          obtain ⟨-, rfl⟩ := hstep
          exact h
      | true =>
          simp only [hopens, if_true] at hstep
          simp only [note, hopens, if_true]
          cases hsetvbuf : answers.open'.setvbuf with
          | true =>
              simp only [hsetvbuf, Option.some.injEq, Prod.mk.injEq] at hstep
              obtain ⟨-, rfl⟩ := hstep
              refine h.opened (Log.among logs ⟨root, answers.now, level, false, [], .in_use⟩) rfl
                (fun hbeside => among_alone hbeside) ?_ (.inl rfl)
              rintro p f hsink
              cases hsink
              exact ⟨rfl, rfl, rfl⟩
          | false =>
              simp only [hsetvbuf, Option.some.injEq, Prod.mk.injEq] at hstep
              obtain ⟨-, rfl⟩ := hstep
              exact h.opened (Log.among logs ⟨root, answers.now, level, false, [], .closed []⟩) rfl
                (fun hbeside => among_alone hbeside) (fun p f hsink => by cases hsink) (.inr rfl)
  | sink j entry answer =>
      obtain ⟨⟨p, f⟩, hin, hs'⟩ := Option.map_eq_some_iff.mp hstep
      cases hs'
      refine h.use hin (fun x => ⟨rfl, rfl, rfl, rfl⟩) ?_ fun x hlevel hwrote => ?_
      · rw [FileSink.sink]
        split
        · rfl
        · rfl
      · have hsunk := hwrote.sink entry htaken
        rw [hlevel] at hsunk
        rw [Log.passed, Log.given, List.filter_append]
        exact hsunk
  | transmit j n =>
      obtain ⟨⟨p, f⟩, hin, hs'⟩ := Option.map_eq_some_iff.mp hstep
      cases hs'
      have hused : Follows _ files₀ (s.use j p (f.transmit n)) (logs.modify j id) :=
        h.use hin (fun x => ⟨rfl, rfl, rfl, rfl⟩) rfl fun x hlevel hwrote => hwrote.transmit n
      rwa [List.modify_id] at hused
  | destroy j freed =>
      obtain ⟨⟨p, f⟩, hin, hs'⟩ := Option.bind_eq_some_iff.mp hstep
      dsimp only at hs'
      split at hs'
      · rename_i hfreed
        cases hs'
        exact h.destroy (fun x => rfl) hin hfreed
      · cases hs'
  | exit =>
      cases hstep
      exact h.exit fun x => rfl

/--
**Which logs a directory keeps.**  In every run that starts with any directory, with any number
of sinks in use at a time, the file of a log has its lines, or a part of them that was cut off;
where the sink was destroyed, the bytes that were held back are what was found in the freed
buffer.  That is unless another log of the same second, with a root that differs only in what
looks like an extension, was created later or was in use when this one was created.  Other files
are as they were, and the paths of one root are ordered as the times, until the year 9999.
-/
theorem logs_kept {actions : List Action} {os : List Unit} {s : LogDirectory}
    (hrun : Machine.Run (step temp_directory subdirectory_name) Taken (start files₀)
      actions os s) :
    let logs := actions.foldl note []
    let path := Log.path temp_directory subdirectory_name
    (∀ (j : Nat) (x : Log), logs[j]? = some x → x.beside = false →
      (∀ (k : Nat) (y : Log), j < k → logs[k]? = some y → ¬ y.Alike x) →
        x.Kept (s.files (path x))) ∧
    (∀ p, (∀ x ∈ logs, path x ≠ p) → s.files p = files₀ p) ∧
    ∀ x ∈ logs, ∀ y ∈ logs, (path x = path y ↔ x.Alike y) ∧
      (x.root = y.root → x.now.years < 10 ^ 4 → y.now.years < 10 ^ 4 →
        (path x < path y ↔ x.now.fields < y.now.fields)) := by
  intro logs path
  have hstart : Follows path files₀ (start files₀) [] :=
    ⟨rfl, fun j p f hj => (by cases hj), fun j x hlast => (by cases hlast.get),
      fun j x hlast => (by cases hlast.get), fun p _ => rfl⟩
  have hkeep : ∀ s logs a o s', Follows path files₀ s logs → Taken s a →
      step temp_directory subdirectory_name s a = some (o, s') →
      Follows path files₀ s' (note logs a) :=
    fun s logs a o s' h htaken hstep => h.step htaken hstep
  have hfollows := hrun.follows hkeep hstart
  refine ⟨fun j x hx hbeside hlast => ?_, hfollows.others, fun x _ y _ => ⟨Log.path_eq_iff, ?_⟩⟩
  · exact hfollows.kept j x
      ⟨hx, hbeside, fun k y hk hy hpath => hlast k y hk hy (Log.path_eq_iff.mp hpath)⟩
  · intro hroot hx hy
    show FileSink.log_path _ _ x.root x.now < FileSink.log_path _ _ y.root y.now ↔ _
    rw [← hroot]
    exact FileSink.log_path_lt_iff hx hy

end

/-- Two logs of one second are in use; the first is destroyed, and the program ends. -/
theorem logs_kept_two : ∃ (x y : Log) (s : LogDirectory), x.now = y.now ∧
    x.lines = bytes_of "full\n" ∧ x.state = .closed [0, 0, 0] ∧
    x.Kept (s.files (x.path "/tmp".toList "Hyperion".toList)) ∧
    y.Kept (s.files (y.path "/tmp".toList "Hyperion".toList)) ∧
    x.path "/tmp".toList "Hyperion".toList ≠ y.path "/tmp".toList "Hyperion".toList := by
  let now : Tm := ⟨124, 0, 2, 3, 4, 5, by decide, by decide, by decide, by decide, by decide,
    by decide⟩
  let answers : FileSink.CreateAnswers := ⟨0, 0, now, ⟨true, true⟩⟩
  let x : Log := ⟨"one".toList, now, .INFO, false, [⟨.ERROR, "full"⟩], .closed [0, 0, 0]⟩
  let y : Log := ⟨"two".toList, now, .INFO, false, [], .left⟩
  have hfull : (bytes_of "full").length < 5 := by decide
  have hrun : ∃ s, Machine.Run (step "/tmp".toList "Hyperion".toList) Taken (start fun _ => none)
      [.create_file "one".toList .INFO answers, .create_file "two".toList .INFO answers,
        .sink 0 ⟨.ERROR, "full"⟩ ⟨5, 0⟩, .transmit 0 2, .destroy 0 [0, 0, 0], .exit]
      [(), (), (), (), (), ()] s :=
    ⟨_, .cons trivial rfl (.cons trivial rfl (.cons hfull rfl (.cons trivial rfl
      (.cons trivial rfl (.cons trivial rfl (.nil _))))))⟩
  obtain ⟨s, hs⟩ := hrun
  obtain ⟨hkept, -, hpaths⟩ := logs_kept hs
  have hother : ¬ y.Alike x := by decide
  refine ⟨x, y, s, rfl, by decide, rfl, ?_, ?_, ?_⟩
  · refine hkept 0 x rfl rfl fun k z hk hz => ?_
    have hz : [x, y][k]? = some z := hz
    obtain rfl : y = z := by
      obtain ⟨hlt, hz⟩ := List.getElem?_eq_some_iff.mp hz
      obtain rfl : k = 1 := Nat.le_antisymm (Nat.le_of_lt_succ hlt) hk
      exact hz
    exact hother
  · refine hkept 1 y rfl rfl fun k z hk hz => ?_
    have hz : [x, y][k]? = some z := hz
    obtain ⟨hlt, -⟩ := List.getElem?_eq_some_iff.mp hz
    exact absurd hlt (Nat.not_lt.mpr hk)
  · have hx : x ∈ [x, y] := List.mem_cons_self
    have hy : y ∈ [x, y] := List.mem_cons_of_mem x (List.mem_singleton_self y)
    exact fun heq => hother ⟨rfl, ((hpaths x hx y hy).1.mp heq).2.symm⟩

end LogDirectory

end Hyperion
