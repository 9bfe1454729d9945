/-
Reading and writing one `File`: the methods of `filesystem/File.cpp` on an open stream.

A stream for reading and writing holds back what is written in its buffer, and the C
library passes a part of it on whenever it likes.  Output must not be followed by input
without a flush or a move in between, nor input by output without a move, unless the input
got to the end of the file; the methods do not check that, and what happens then is
undefined.  `File` is opened for both by default.

Over whole runs of its methods a `File` is an array of bytes with a cursor in it.  Nothing
that a method gives tells what the library has passed on, and what the device holds is the
array up to the last writes; after a flush, a move or `size` it is the array.

A `File` that is destroyed frees the buffer before `fclose` writes what is in it.  So the last
writes are only safe where the library has passed them on, or where the `File` is assigned
over, which closes the stream first.
-/
import Hyperion.Filesystem.Reading
import Hyperion.Lib.Buffered
import Hyperion.Lib.Machine

namespace Hyperion

/-- What was done last with a stream. -/
inductive Turn
  | positioned
  | output
  | input
  | end_of_file
deriving DecidableEq

/-- `File::SeekOrigin` -/
inductive SeekOrigin
  | Begin
  | Current
  | End
deriving DecidableEq

/-- An open `FILE`: what it is open for, its bytes, and at which of them reading fails. -/
structure FileStream where
  type : AccessType
  append : Bool
  bytes : Buffered (BitVec 8)
  fault : Nat → Bool
  error : Bool
  last : Turn

namespace FileStream

/-- The bytes of the file, with what is in the buffer. -/
def content (s : FileStream) : List (BitVec 8) := s.bytes.view 0

/-- The stream as it is read from. -/
def input (s : FileStream) : InputStream := ⟨s.content, s.fault, s.bytes.position, s.error⟩

/--
`fwrite(bytes, 1, num_bytes, file)`, of which the library takes the first `taken` bytes;
none where it is undefined.
-/
def fwrite (s : FileStream) (bytes : List (BitVec 8)) (taken : Nat) :
    Option (Nat × FileStream) :=
  if bytes = [] then some (0, s)
  else if s.type = .Read then some (0, { s with error := true })
  else if s.last = .input then none
  else
    -- In append mode what is not yet behind other output goes to the end of the file.
    let place := if s.append = true ∧ s.bytes.pending = [] then
      s.bytes.move_to 0 s.content.length else s.bytes
    some ((bytes.take taken).length, { s with
      bytes := place.put (bytes.take taken)
      error := s.error || decide (taken < bytes.length)
      last := .output })

/-- `fread(ptr, 1, count, file)` -/
def fread (s : FileStream) (count : Nat) : Option (List (BitVec 8) × FileStream) :=
  if count = 0 then some ([], s)
  else if s.type = .Write then some ([], { s with error := true })
  else if s.last = .output then none
  else
    let (stored, after) := s.input.fread count
    let ended := stored.length < count ∧ s.fault after.position = false
    some (stored, { s with
      bytes := s.bytes.move_to 0 after.position
      error := after.error
      last := if ended then .end_of_file else .input })

/-- `fgetc(file)`; `EOF` is none, and it is undefined where reading is. -/
def fgetc (s : FileStream) : Option (Option (BitVec 8) × FileStream) :=
  (s.fread 1).map fun (stored, s) => (stored.head?, s)

/-- `fflush(file)`; a device that refuses the output makes it fail. -/
def fflush (s : FileStream) (refused : Bool) : Option (Bool × FileStream) :=
  if s.type = .Read ∨ s.last = .input ∨ s.last = .end_of_file then none
  else if refused = true then some (false, { s with error := true })
  else some (true, { s with bytes := s.bytes.move_to 0 s.bytes.position, last := .positioned })

/-- The place that an offset is meant from. -/
def place_of (s : FileStream) : SeekOrigin → Nat
  | .Begin => 0
  | .Current => s.bytes.position
  | .End => s.content.length

/--
`fseek(file, offset, origin)`: a place before the file, or beyond a `long`, is refused, and so is
any where the device refuses what is in the buffer.
-/
def fseek (s : FileStream) (offset : Int) (origin : SeekOrigin) (refused : Bool) :
    Bool × FileStream :=
  let target := offset + s.place_of origin
  if refused = true ∧ s.bytes.pending ≠ [] then (false, { s with error := true })
  else if 0 ≤ target ∧ target.toNat < 2 ^ 63 then
    (true, { s with bytes := s.bytes.move_to 0 target.toNat, last := .positioned })
  else (false, s)

/-- `ftell(file)`; `-1` is none. -/
def ftell (s : FileStream) : Option Nat :=
  if s.bytes.position < 2 ^ 63 then some s.bytes.position else none

/-- What the device holds after `fclose(file)`, where the buffer is still there. -/
def fclose (s : FileStream) : List (BitVec 8) := (s.bytes.move_to 0 0).stored

/--
What the device holds after `~File`, which frees the buffer first: `fclose` finds `freed` in the
place of what is pending.
-/
def destroyed (s : FileStream) (freed : List (BitVec 8)) : List (BitVec 8) :=
  Buffered.overwrite 0 s.bytes.stored s.bytes.start freed

/-- The library passes on some of the buffer. -/
def transmit (s : FileStream) (n : Nat) : FileStream := { s with bytes := s.bytes.transmit 0 n }

end FileStream

namespace File

/-- What the C library answers to `fwrite`: how much it took, and `errno` afterwards. -/
structure Written where
  taken : Nat
  errno : Nat

/-- `static_cast<i32>(res)` -/
def i32.of_size (res : Nat) : Int := (BitVec.ofNat 32 res).toInt

/-- `write_bytes(num_bytes, bytes)` -/
def write_bytes (m_options : OpenOptions) (m_file : FileStream) (bytes : List (BitVec 8))
    (answer : Written) : Option (Except ReadError Int × FileStream) :=
  if m_options.type = .Read then some (.error .EPERM, m_file)
  else
    (m_file.fwrite bytes answer.taken).map fun (res, m_file) =>
      if res < bytes.length ∧ answer.errno ≠ 0 then (.error .last_error, m_file)
      else (.ok (i32.of_size res), m_file)

/-- `print(format_string, args...)`, where `str` is what the arguments are formatted to -/
def print (m_options : OpenOptions) (m_file : FileStream) (str : List (BitVec 8))
    (answer : Written) : Option (Except ReadError Int × FileStream) :=
  write_bytes m_options m_file str answer

/-- `println(format_string, args...)` -/
def println (m_options : OpenOptions) (m_file : FileStream) (str : List (BitVec 8))
    (answer : Written) : Option (Except ReadError Int × FileStream) :=
  write_bytes m_options m_file (str ++ [newline]) answer

/-- `read(num_chars)` of a stream that may be written to as well -/
def read' (m_options : OpenOptions) (m_file : FileStream) (num_chars : Nat) :
    Option (Except ReadError (List (BitVec 8)) × FileStream) :=
  if m_options.type = .Write then some (.error .EPERM, m_file)
  else
    let str := List.replicate num_chars 0
    (m_file.fread num_chars).map fun (stored, m_file) =>
      if stored.length < num_chars ∧ m_file.error = true then (.error .last_error, m_file)
      else (.ok (stored ++ str.drop stored.length), m_file)

/-- `read_bytes(num_bytes)`; the elements of `make_unique<u8[]>` have no value at first. -/
def read_bytes (m_options : OpenOptions) (m_file : FileStream) (num_bytes : Nat) :
    Option (Except ReadError (List (Option (BitVec 8))) × FileStream) :=
  if m_options.type = .Write then some (.error .EPERM, m_file)
  else
    let arr := List.replicate num_bytes none
    (m_file.fread num_bytes).map fun (stored, m_file) =>
      if stored.length < num_bytes ∧ m_file.error = true then (.error .last_error, m_file)
      else (.ok (stored.map some ++ arr.drop stored.length), m_file)

/--
`read_line()` of a stream that may be written to as well, of which the loop makes no more than
these rounds; it does nothing to the stream.
-/
def read_line' (rounds : Nat) (m_options : OpenOptions) (m_file : FileStream) :
    Option (Option (Except ReadError (List (BitVec 8)) × FileStream)) :=
  if m_options.type = .Write ∨ m_options.modifier = AccessModifier.Binary then
    some (some (.error .EPERM, m_file))
  else
    match m_file.fgetc with
    | none => some none
    | some (c, m_file) =>
        (loop_until read_line_round rounds (c, [], m_file.input)).map fun (res, _) =>
          some (res, m_file)

/-- `flush()` -/
def flush (m_file : FileStream) (refused : Bool) : Option (Except ReadError Unit × FileStream) :=
  (m_file.fflush refused).map fun (done, m_file) =>
    if done = true then (.ok (), m_file) else (.error .last_error, m_file)

/-- `seek(offset, origin)` -/
def seek (m_file : FileStream) (offset : Int) (origin : SeekOrigin) (refused : Bool) :
    Except ReadError Unit × FileStream :=
  let (done, m_file) := m_file.fseek offset origin refused
  if done = true then (.ok (), m_file) else (.error .last_error, m_file)

/-- `position()` -/
def position (m_file : FileStream) : Except ReadError Nat :=
  match m_file.ftell with
  | none => .error .last_error
  | some res => .ok res

/-- `size()`, where the device may refuse what is in the buffer on the way there and back. -/
def size (m_file : FileStream) (refused refused_back : Bool) :
    Except ReadError Nat × FileStream :=
  match position m_file with
  | .error e => (.error e, m_file)
  | .ok original_pos =>
      let (moved, m_file) := seek m_file 0 .End refused
      let ret := match moved with
        | .error e => .error e
        | .ok _ =>
            match m_file.ftell with
            | none => .error .last_error
            | some size => .ok size
      (ret, (seek m_file original_pos .Begin refused_back).2)

/-! ### Programs -/

/-- One call of a method, or the C library passing on some of the buffer. -/
inductive Call
  | write_bytes (bytes : List (BitVec 8)) (answer : Written)
  | print (str : List (BitVec 8)) (answer : Written)
  | println (str : List (BitVec 8)) (answer : Written)
  | read (num_chars : Nat)
  | read_bytes (num_bytes : Nat)
  | read_line (rounds : Nat)
  | flush (refused : Bool)
  | seek (offset : Int) (origin : SeekOrigin) (refused : Bool)
  | position
  | size (refused refused_back : Bool)
  | transmit (n : Nat)

deriving instance DecidableEq for ReadError

/-- What a call gives. -/
inductive Answer
  | count (n : Int)
  | text (str : List (BitVec 8))
  | bytes (arr : List (Option (BitVec 8)))
  | done
  | place (n : Nat)
  | failed (e : ReadError)
  | undefined
deriving DecidableEq

/-- A `File` in use; once a call was undefined, it stays so. -/
structure InUse where
  m_file : FileStream
  undefined : Bool

/-- What is left of a call that may be undefined. -/
def InUse.finish {α : Type} (f : InUse) (value : α → Answer) :
    Option (Except ReadError α × FileStream) → Answer × InUse
  | none => (.undefined, { f with undefined := true })
  | some (.ok a, m_file) => (value a, { f with m_file := m_file })
  | some (.error e, m_file) => (.failed e, { f with m_file := m_file })

/-- One step; a call that does not return is none. -/
def InUse.step (m_options : OpenOptions) (f : InUse) : Call → Option (Answer × InUse)
  | .write_bytes bytes answer =>
      some (f.finish .count (File.write_bytes m_options f.m_file bytes answer))
  | .print str answer => some (f.finish .count (File.print m_options f.m_file str answer))
  | .println str answer => some (f.finish .count (File.println m_options f.m_file str answer))
  | .read num_chars => some (f.finish .text (File.read' m_options f.m_file num_chars))
  | .read_bytes num_bytes => some (f.finish .bytes (File.read_bytes m_options f.m_file num_bytes))
  | .read_line rounds => (File.read_line' rounds m_options f.m_file).map (f.finish .text)
  | .flush refused => some (f.finish (fun _ => .done) (File.flush f.m_file refused))
  | .seek offset origin refused =>
      some (f.finish (fun _ => .done) (some (File.seek f.m_file offset origin refused)))
  | .position => some (f.finish .place (some (File.position f.m_file, f.m_file)))
  | .size refused refused_back =>
      some (f.finish .place (some (File.size f.m_file refused refused_back)))
  | .transmit n => some (.done, { f with m_file := f.m_file.transmit n })

/-- The device takes all output. -/
def Taken (_ : InUse) : Call → Prop
  | .write_bytes bytes answer | .print bytes answer => bytes.length ≤ answer.taken
  | .println str answer => str.length < answer.taken
  | .flush refused | .seek _ _ refused => refused = false
  | .size refused refused_back => refused = false ∧ refused_back = false
  | _ => True

end File

/-! ### An array of bytes with a cursor -/

/-- The bytes of a file, where the next ones are read or written, and what was done last. -/
structure Document where
  content : List (BitVec 8)
  cursor : Nat
  last : Turn
  undefined : Bool

namespace Document

/-- The bytes from the cursor on. -/
def ahead (d : Document) : List (BitVec 8) := d.content.drop d.cursor

/-- Bytes are written over what is there, or to the end. -/
def write (append : Bool) (d : Document) (bytes : List (BitVec 8)) : Document :=
  let place := if append = true then d.content.length else d.cursor
  { d with
    content := Buffered.overwrite 0 d.content place bytes
    cursor := place + bytes.length
    last := .output }

/-- The cursor goes over the next bytes, up to the end. -/
def read (d : Document) (n : Nat) : Document := { d with
  cursor := d.cursor + (d.ahead.take n).length
  last := if (d.ahead.take n).length < n then .end_of_file else .input }

/-- The cursor goes to another place. -/
def move (d : Document) (place : Nat) : Document := { d with cursor := place, last := .positioned }

/-- Anything may have happened. -/
def lost (d : Document) : File.Answer × Document := (.undefined, { d with undefined := true })

/-- What a call that writes is to do. -/
def written (type : AccessType) (append : Bool) (d : Document) (bytes : List (BitVec 8)) :
    File.Answer × Document :=
  if type = .Read then (.failed .EPERM, d)
  else if bytes = [] then (.count 0, d)
  else if d.last = .input then d.lost
  else (.count (File.i32.of_size bytes.length), d.write append bytes)

/-- What a call that reads is to do; its answer is as long as it was asked for. -/
def taken (type : AccessType) (d : Document) (n : Nat)
    (answer : List (BitVec 8) → File.Answer) : File.Answer × Document :=
  if type = .Write then (.failed .EPERM, d)
  else if n = 0 then (answer [], d)
  else if d.last = .output then d.lost
  else (answer (d.ahead.take n), d.read n)

/-- Where a seek goes to. -/
def target (d : Document) (offset : Int) : SeekOrigin → Int
  | .Begin => offset
  | .Current => offset + d.cursor
  | .End => offset + d.content.length

/-- What each call is to do, where it returns. -/
def step (m_options : OpenOptions) (append : Bool) (d : Document) :
    File.Call → File.Answer × Document
  | .write_bytes bytes _ | .print bytes _ => d.written m_options.type append bytes
  | .println str _ => d.written m_options.type append (str ++ [File.newline])
  | .read n =>
      d.taken m_options.type n fun str => .text (str ++ List.replicate (n - str.length) 0)
  | .read_bytes n =>
      d.taken m_options.type n fun str =>
        .bytes (str.map some ++ List.replicate (n - str.length) none)
  -- an empty line, or the end of the file
  | .read_line _ =>
      if m_options.modifier = AccessModifier.Binary then (.failed .EPERM, d)
      else d.taken m_options.type 1 fun _ => .text []
  | .flush _ =>
      if m_options.type = .Read ∨ d.last = .input ∨ d.last = .end_of_file then d.lost
      else (.done, d.move d.cursor)
  | .seek offset origin _ =>
      if 0 ≤ d.target offset origin ∧ (d.target offset origin).toNat < 2 ^ 63 then
        (.done, d.move (d.target offset origin).toNat)
      else (.failed .last_error, d)
  | .position => (if d.cursor < 2 ^ 63 then .place d.cursor else .failed .last_error, d)
  | .size _ _ =>
      if d.cursor < 2 ^ 63 then
        (if d.content.length < 2 ^ 63 then .place d.content.length else .failed .last_error,
          d.move d.cursor)
      else (.failed .last_error, d)
  | .transmit _ => (.done, d)

end Document

/-! ### What the library does, call by call -/

namespace FileStream

variable {type : AccessType} {append : Bool} {s : FileStream} {d : Document}

/-- A stream on a device that does not fail, and the array of bytes that it is. -/
structure Represents (type : AccessType) (append : Bool) (s : FileStream) (d : Document) :
    Prop where
  type_eq : s.type = type
  append_eq : s.append = append
  content : s.content = d.content
  cursor : s.bytes.position = d.cursor
  last : s.last = d.last
  sound : ∀ i, s.fault i = false
  clear : s.error = false
  settled : s.last ≠ .output → s.bytes.pending = []
  at_end : append = true → s.bytes.pending ≠ [] → s.bytes.start = s.bytes.stored.length

/-- The device has the array, and nothing is held back. -/
structure Synced (s : FileStream) (content : List (BitVec 8)) : Prop where
  stored : s.bytes.stored = content
  pending : s.bytes.pending = []

/-- The buffer is passed on and the stream goes to a place. -/
theorem Represents.moves (h : s.Represents type append d) (place : Nat) (last : Turn) :
    FileStream.Represents type append { s with bytes := s.bytes.move_to 0 place, last := last }
      { d with cursor := place, last := last } where
  type_eq := h.type_eq
  append_eq := h.append_eq
  content := h.content
  cursor := rfl
  last := rfl
  sound := h.sound
  clear := h.clear
  settled := fun _ => rfl
  at_end := fun _ hpending => absurd rfl hpending

theorem Represents.input_eq (h : s.Represents type append d) :
    s.input.remaining = d.ahead ∧ ∀ n, ¬ s.input.FailsIn n := by
  refine ⟨?_, fun n => ?_⟩
  · rw [InputStream.remaining, Document.ahead, ← h.content, ← h.cursor]
    rfl
  · rintro (herror | ⟨i, -, -, hfault⟩)
    · exact Bool.false_ne_true (h.clear.symm.trans herror)
    · exact Bool.false_ne_true ((h.sound _).symm.trans hfault)

/-- Output that is taken goes where it should. -/
theorem Represents.fwrite (h : s.Represents type append d) {bytes : List (BitVec 8)}
    {taken : Nat} (hbytes : bytes ≠ []) (htype : type ≠ .Read) (hlast : d.last ≠ .input)
    (htaken : bytes.length ≤ taken) :
    ∃ s', s.fwrite bytes taken = some (bytes.length, s') ∧
      s'.Represents type append (d.write append bytes) := by
  have htake : bytes.take taken = bytes := List.take_of_length_le htaken
  have hnot : decide (taken < bytes.length) = false := decide_eq_false (Nat.not_lt.mpr htaken)
  rw [FileStream.fwrite, if_neg hbytes, if_neg (by rw [h.type_eq]; exact htype),
    if_neg (by rw [h.last]; exact hlast)]
  refine ⟨_, by rw [htake], ?_⟩
  rw [hnot, Bool.or_false]
  -- the place that the bytes go to, in the buffer and in the array
  have hplace : ∃ b : Buffered (BitVec 8),
      (if s.append = true ∧ s.bytes.pending = [] then s.bytes.move_to 0 s.content.length
        else s.bytes) = b ∧ b.view 0 = d.content ∧
      b.position = (if append = true then d.content.length else d.cursor) ∧
      (append = true → b.start = b.stored.length) := by
    refine ⟨_, rfl, ?_⟩
    rw [h.append_eq]
    by_cases happend : append = true
    · by_cases hpending : s.bytes.pending = []
      · rw [if_pos ⟨happend, hpending⟩, if_pos happend]
        exact ⟨h.content, congrArg List.length h.content, fun _ => rfl⟩
      · have hend := h.at_end happend hpending
        have hview : s.content = s.bytes.stored ++ s.bytes.pending := Buffered.view_of_at_end hend
        rw [if_neg (fun hboth => hpending hboth.2), if_pos happend]
        refine ⟨h.content, ?_, fun _ => hend⟩
        rw [← h.content, hview, Buffered.position, hend, List.length_append]
    · rw [if_neg (fun hboth => happend hboth.1), if_neg happend]
      exact ⟨h.content, h.cursor, fun hyes => absurd hyes happend⟩
  obtain ⟨b, hb, hview, hposition, hend⟩ := hplace
  simp only [hb]
  exact {
    type_eq := h.type_eq
    append_eq := h.append_eq
    content := by
      show (b.put bytes).view 0 = _
      rw [Buffered.view_put, hview, hposition]
      rfl
    cursor := by
      show (b.put bytes).position = _
      rw [Buffered.position_put, hposition]
      rfl
    last := rfl
    sound := h.sound
    clear := h.clear
    settled := fun hnot => absurd rfl hnot
    at_end := fun happend _ => hend happend }

/-- Input gives the next bytes, as far as there are any. -/
theorem Represents.fread (h : s.Represents type append d) {n : Nat} (hn : n ≠ 0)
    (htype : type ≠ .Write) (hlast : d.last ≠ .output) :
    ∃ s', s.fread n = some (d.ahead.take n, s') ∧ s'.Represents type append (d.read n) := by
  obtain ⟨hremaining, hsound⟩ := h.input_eq
  rw [FileStream.fread, if_neg hn, if_neg (by rw [h.type_eq]; exact htype),
    if_neg (by rw [h.last]; exact hlast)]
  rcases s.input.fread_cases n with ⟨hin, -⟩ | ⟨-, hfread⟩
  · exact absurd hin (hsound n)
  · rw [hremaining] at hfread
    rw [hfread]
    refine ⟨_, rfl, ?_⟩
    have hposition : (s.input.advance (min n d.ahead.length)).position
        = d.cursor + (d.ahead.take n).length := by
      rw [List.length_take, ← h.cursor]
      rfl
    have hclear : (s.input.advance (min n d.ahead.length)).error = s.error := rfl
    simp only [hposition, hclear, h.sound, and_true]
    exact h.moves _ _

/-- A flush leaves everything where it is. -/
theorem Represents.fflush (h : s.Represents type append d) (htype : type ≠ .Read)
    (hinput : d.last ≠ .input) (hended : d.last ≠ .end_of_file) :
    ∃ s', s.fflush false = some (true, s') ∧ s'.Synced d.content ∧
      s'.Represents type append (d.move d.cursor) := by
  have hdefined : ¬ (s.type = .Read ∨ s.last = .input ∨ s.last = .end_of_file) := by
    rw [h.type_eq, h.last]
    rintro (hread | hin | hend)
    · exact htype hread
    · exact hinput hin
    · exact hended hend
  rw [FileStream.fflush, if_neg hdefined, if_neg Bool.false_ne_true, h.cursor]
  exact ⟨_, rfl, ⟨h.content, rfl⟩, h.moves _ _⟩

/-- Anything may have happened, but nothing has. -/
theorem Represents.lost (h : s.Represents type append d) : s.Represents type append d.lost.2 :=
  ⟨h.type_eq, h.append_eq, h.content, h.cursor, h.last, h.sound, h.clear, h.settled, h.at_end⟩

/-- Where a seek goes, or that it is refused. -/
theorem Represents.fseek (h : s.Represents type append d) (offset : Int) (origin : SeekOrigin) :
    (0 ≤ d.target offset origin ∧ (d.target offset origin).toNat < 2 ^ 63 ∧
      ∃ s', s.fseek offset origin false = (true, s') ∧ s'.Synced d.content ∧
        s'.Represents type append (d.move (d.target offset origin).toNat)) ∨
    (¬ (0 ≤ d.target offset origin ∧ (d.target offset origin).toNat < 2 ^ 63) ∧
      s.fseek offset origin false = (false, s)) := by
  have htarget : offset + s.place_of origin = d.target offset origin := by
    cases origin with
    | Begin => exact Int.add_zero offset
    | Current => exact congrArg (offset + Nat.cast ·) h.cursor
    | End => exact congrArg (fun bytes : List (BitVec 8) => offset + (bytes.length : Int)) h.content
  have hrefused : ¬ (false = true ∧ s.bytes.pending ≠ []) := fun hboth =>
    Bool.false_ne_true hboth.1
  rw [FileStream.fseek, htarget, if_neg hrefused]
  by_cases hrange : 0 ≤ d.target offset origin ∧ (d.target offset origin).toNat < 2 ^ 63
  · rw [if_pos hrange]
    exact .inl ⟨hrange.1, hrange.2, _, rfl, ⟨h.content, rfl⟩, h.moves _ _⟩
  · rw [if_neg hrange]
    exact .inr ⟨hrange, rfl⟩

/-- What the library passes on does not show. -/
theorem Represents.transmit (h : s.Represents type append d) (n : Nat) :
    (s.transmit n).Represents type append d where
  type_eq := h.type_eq
  append_eq := h.append_eq
  content := (Buffered.view_transmit n s.bytes).trans h.content
  cursor := (Buffered.position_transmit n s.bytes).trans h.cursor
  last := h.last
  sound := h.sound
  clear := h.clear
  settled := by
    intro hnot
    show s.bytes.pending.drop n = []
    rw [h.settled hnot, List.drop_nil]
  at_end := by
    intro happend hpending
    refine Buffered.at_end_transmit (h.at_end happend fun hnil => hpending ?_) n
    show s.bytes.pending.drop n = []
    rw [hnil, List.drop_nil]

end FileStream

/-! ### The methods -/

namespace File

variable {m_options : OpenOptions} {append : Bool} {f f' : InUse} {d : Document}

/-- A `File` in use is an array of bytes with a cursor. -/
structure InUse.Is (m_options : OpenOptions) (append : Bool) (f : InUse) (d : Document) : Prop where
  file : f.m_file.Represents m_options.type append d
  undefined : f.undefined = d.undefined

/-- A call gives what it should, and the `File` is then the array that it should be. -/
def Gives_as (m_options : OpenOptions) (append : Bool) (r : Answer × InUse)
    (t : Answer × Document) : Prop :=
  r.1 = t.1 ∧ r.2.Is m_options append t.2

theorem InUse.Is.lost (h : f.Is m_options append d) :
    Gives_as m_options append (.undefined, { f with undefined := true }) d.lost :=
  ⟨rfl, h.file.lost, rfl⟩

theorem InUse.Is.written (h : f.Is m_options append d) (bytes : List (BitVec 8)) {answer : Written}
    (htaken : bytes.length ≤ answer.taken) :
    Gives_as m_options append
      (f.finish .count (File.write_bytes m_options f.m_file bytes answer))
      (d.written m_options.type append bytes) := by
  rw [write_bytes, Document.written]
  by_cases htype : m_options.type = .Read
  · rw [if_pos htype, if_pos htype]
    exact ⟨rfl, h⟩
  rw [if_neg htype, if_neg htype]
  by_cases hbytes : bytes = []
  · rw [if_pos hbytes, FileStream.fwrite, if_pos hbytes, hbytes]
    exact ⟨rfl, h⟩
  rw [if_neg hbytes]
  by_cases hlast : d.last = .input
  · have hundefined : f.m_file.fwrite bytes answer.taken = none := by
      rw [FileStream.fwrite, if_neg hbytes, if_neg (by rw [h.file.type_eq]; exact htype),
        if_pos (by rw [h.file.last]; exact hlast)]
    rw [if_pos hlast, hundefined]
    exact h.lost
  · obtain ⟨m_file, hfwrite, hfile⟩ := h.file.fwrite hbytes htype hlast htaken
    rw [if_neg hlast, hfwrite, Option.map_some]
    dsimp only
    rw [if_neg (fun hshort => Nat.lt_irrefl _ hshort.1)]
    exact ⟨rfl, hfile, h.undefined⟩

/-- What `fread` does where the file may be read from. -/
theorem InUse.Is.fread (h : f.Is m_options append d) (htype : m_options.type ≠ .Write) (n : Nat) :
    (n = 0 ∧ f.m_file.fread n = some ([], f.m_file)) ∨
    (n ≠ 0 ∧ d.last = .output ∧ f.m_file.fread n = none) ∨
    (n ≠ 0 ∧ d.last ≠ .output ∧ ∃ m_file, f.m_file.fread n = some (d.ahead.take n, m_file) ∧
      m_file.Represents m_options.type append (d.read n)) := by
  by_cases hn : n = 0
  · exact .inl ⟨hn, by rw [FileStream.fread, if_pos hn]⟩
  by_cases hlast : d.last = .output
  · refine .inr (.inl ⟨hn, hlast, ?_⟩)
    rw [FileStream.fread, if_neg hn, if_neg (by rw [h.file.type_eq]; exact htype),
      if_pos (by rw [h.file.last]; exact hlast)]
  · exact .inr (.inr ⟨hn, hlast, h.file.fread hn htype hlast⟩)

/--
A method that reads does what it should: `fill` makes its result of what was read, after a
test for an error that there is not.
-/
theorem InUse.Is.taken (h : f.Is m_options append d) {α : Type} (n : Nat) (value : α → Answer)
    (fill : List (BitVec 8) → α) :
    Gives_as m_options append
      (f.finish value (if m_options.type = .Write then some (.error .EPERM, f.m_file)
        else (f.m_file.fread n).map fun (stored, m_file) =>
          if stored.length < n ∧ m_file.error = true then (.error .last_error, m_file)
          else (.ok (fill stored), m_file)))
      (d.taken m_options.type n fun str => value (fill str)) := by
  rw [Document.taken]
  by_cases htype : m_options.type = .Write
  · rw [if_pos htype, if_pos htype]
    exact ⟨rfl, h⟩
  rw [if_neg htype, if_neg htype]
  rcases h.fread htype n with ⟨hn, hfread⟩ | ⟨hn, hlast, hfread⟩ |
    ⟨hn, hlast, m_file, hfread, hfile⟩
  · subst hn
    rw [if_pos rfl, hfread, Option.map_some]
    exact ⟨rfl, h⟩
  · rw [if_neg hn, if_pos hlast, hfread]
    exact h.lost
  · rw [if_neg hn, if_neg hlast, hfread, Option.map_some]
    dsimp only
    rw [if_neg (fun hshort => Bool.false_ne_true (hfile.clear.symm.trans hshort.2))]
    exact ⟨rfl, hfile, h.undefined⟩

/-- A line that is read at all is empty. -/
theorem read_line_returns {c : Option (BitVec 8)} {m_file : InputStream}
    (hclear : m_file.error = false) {rounds : Nat}
    {r : Except ReadError (List (BitVec 8)) × InputStream}
    (h : loop_until read_line_round rounds (c, [], m_file) = some r) : r.1 = .ok [] := by
  have hreturn : ∀ {t}, read_line_round t = .inr (.ok [], m_file) →
      loop_until read_line_round rounds t = some r → r.1 = .ok [] := by
    intro t ht hr
    cases rounds with
    | zero => cases hr
    | succ rounds =>
        rw [loop_until_return ht] at hr
        exact congrArg Prod.fst (Option.some.inj hr).symm
  cases c with
  | none => exact hreturn (by simp [read_line_round, hclear]) h
  | some c =>
      by_cases hc : c = newline
      · exact hreturn (by simp [read_line_round, hc]) h
      · rw [read_line_never hc] at h
        cases h

/-- `read_line` does what it should, where it returns. -/
theorem InUse.Is.line (h : f.Is m_options append d) {rounds : Nat} {answer : Answer}
    (hstep : (read_line' rounds m_options f.m_file).map (f.finish .text) = some (answer, f')) :
    Gives_as m_options append (answer, f') (d.step m_options append (.read_line rounds)) := by
  rw [Document.step, Document.taken]
  rw [read_line'] at hstep
  by_cases hbinary : m_options.modifier = AccessModifier.Binary
  · rw [if_pos (.inr hbinary)] at hstep
    rw [if_pos hbinary, ← Option.some.inj hstep]
    exact ⟨rfl, h⟩
  by_cases htype : m_options.type = .Write
  · rw [if_pos (.inl htype)] at hstep
    rw [if_neg hbinary, if_pos htype, ← Option.some.inj hstep]
    exact ⟨rfl, h⟩
  rw [if_neg (not_or.mpr ⟨htype, hbinary⟩), FileStream.fgetc] at hstep
  rw [if_neg hbinary, if_neg htype, if_neg Nat.one_ne_zero]
  rcases h.fread htype 1 with ⟨hn, -⟩ | ⟨-, hlast, hfread⟩ | ⟨-, hlast, m_file, hfread, hfile⟩
  · cases hn
  · rw [hfread] at hstep
    rw [if_pos hlast, ← Option.some.inj hstep]
    exact h.lost
  · rw [hfread, Option.map_some] at hstep
    dsimp only at hstep
    rw [if_neg hlast]
    obtain ⟨r, hfinished, hr⟩ := Option.map_eq_some_iff.mp hstep
    obtain ⟨⟨res, after⟩, hloop, hres⟩ := Option.map_eq_some_iff.mp hfinished
    obtain rfl : res = .ok [] := read_line_returns hfile.clear hloop
    rw [← hr, ← hres]
    exact ⟨rfl, hfile, h.undefined⟩

/-- Where the stream can be read from, `read` gives what it gives of a stream for reading only. -/
theorem read'_eq_read {s : FileStream} {n : Nat} (hn : n ≠ 0) (htype : s.type ≠ .Write)
    (hlast : s.last ≠ .output) :
    (read' m_options s n).map Prod.fst = some (read m_options s.input n).1 := by
  rw [read', read]
  by_cases hwrite : m_options.type = .Write
  · rw [if_pos hwrite, if_pos hwrite]
    rfl
  · rw [if_neg hwrite, if_neg hwrite, FileStream.fread, if_neg hn, if_neg htype, if_neg hlast]
    dsimp only [Option.map_some]
    split
    · rfl
    · rfl

/-- A place that a `long` can tell can be gone to. -/
theorem seek_begin {s : FileStream} {type : AccessType} (h : s.Represents type append d) {k : Nat}
    (hk : k < 2 ^ 63) : ∃ s', File.seek s k .Begin false = (.ok (), s') ∧
      s'.Synced d.content ∧ s'.Represents type append (d.move k) := by
  rw [File.seek]
  rcases h.fseek k .Begin with ⟨-, -, s', hseek, hsynced, hs'⟩ | ⟨hout, -⟩
  · rw [hseek]
    exact ⟨s', rfl, hsynced, hs'⟩
  · exact absurd ⟨Int.natCast_nonneg k, hk⟩ hout

/-- `size` goes to the end and back. -/
theorem size_eq {s : FileStream} {type : AccessType} (h : s.Represents type append d)
    (hcursor : d.cursor < 2 ^ 63) :
    ∃ s', File.size s false false = (if d.content.length < 2 ^ 63 then .ok d.content.length
        else .error .last_error, s') ∧
      s'.Synced d.content ∧ s'.Represents type append (d.move d.cursor) := by
  have hposition : File.position s = .ok d.cursor := by
    rw [File.position, FileStream.ftell, h.cursor, if_pos hcursor]
  have hend : d.target 0 .End = d.content.length := Int.zero_add _
  rcases h.fseek 0 .End with ⟨-, hlt, m, hseek, -, hm⟩ | ⟨hout, hseek⟩
  · rw [hend] at hlt hm
    have hlength : d.content.length < 2 ^ 63 := hlt
    have hplace : m.bytes.position = d.content.length := hm.cursor
    have htell : m.ftell = some d.content.length := by
      rw [FileStream.ftell, hplace, if_pos hlength]
    have hmoved : File.seek s 0 .End false = (.ok (), m) := by
      rw [File.seek, hseek]
      rfl
    obtain ⟨s', hback, hsynced, hs'⟩ := seek_begin hm hcursor
    have hsize : File.size s false false = (.ok d.content.length, s') := by
      simp only [File.size, hposition, hmoved, htell, hback]
    exact ⟨s', by rw [hsize, if_pos hlength], hsynced, hs'⟩
  · have hlength : ¬ d.content.length < 2 ^ 63 := by
      rw [hend] at hout
      exact fun hlt => hout ⟨Int.natCast_nonneg _, hlt⟩
    have hrefused : File.seek s 0 .End false = (.error .last_error, s) := by
      rw [File.seek, hseek]
      rfl
    obtain ⟨s', hback, hsynced, hs'⟩ := seek_begin h hcursor
    have hsize : File.size s false false = (.error .last_error, s') := by
      simp only [File.size, hposition, hrefused, hback]
    exact ⟨s', by rw [hsize, if_neg hlength], hsynced, hs'⟩

/-- One step does what it should. -/
theorem InUse.Is.step (h : f.Is m_options append d) {c : Call} (htaken : Taken f c)
    {answer : Answer} (hstep : f.step m_options c = some (answer, f')) :
    answer = (d.step m_options append c).1 ∧
      f'.Is m_options append (d.step m_options append c).2 := by
  have hgives : Gives_as m_options append (answer, f') (d.step m_options append c) := by
    cases c with
    | write_bytes bytes a | print bytes a =>
        rw [← Option.some.inj hstep]
        exact h.written bytes htaken
    | println str a =>
        rw [← Option.some.inj hstep]
        refine h.written (str ++ [newline]) ?_
        rw [List.length_append]
        exact htaken
    | read n =>
        rw [← Option.some.inj hstep, Document.step]
        simp only [← List.drop_replicate]
        exact h.taken n .text fun stored => stored ++ (List.replicate n 0).drop stored.length
    | read_bytes n =>
        rw [← Option.some.inj hstep, Document.step]
        simp only [← List.drop_replicate]
        exact h.taken n .bytes fun stored =>
          stored.map some ++ (List.replicate n none).drop stored.length
    | read_line rounds => exact h.line hstep
    | flush refused =>
        rw [← Option.some.inj hstep, Document.step, File.flush, show refused = false from htaken]
        by_cases hundefined : m_options.type = .Read ∨ d.last = .input ∨ d.last = .end_of_file
        · have hnone : f.m_file.fflush false = none := by
            rw [FileStream.fflush, h.file.type_eq, h.file.last, if_pos hundefined]
          rw [if_pos hundefined, hnone]
          exact h.lost
        · obtain ⟨htype, hinput, hended⟩ := not_or.mp hundefined |>.imp_right not_or.mp
          obtain ⟨s', hflush, -, hs'⟩ := h.file.fflush htype hinput hended
          rw [if_neg hundefined, hflush]
          exact ⟨rfl, hs', h.undefined⟩
    | seek offset origin refused =>
        rw [← Option.some.inj hstep, Document.step, File.seek, show refused = false from htaken]
        rcases h.file.fseek offset origin with ⟨hle, hlt, s', hseek, -, hs'⟩ | ⟨hout, hseek⟩
        · rw [if_pos ⟨hle, hlt⟩, hseek]
          exact ⟨rfl, hs', h.undefined⟩
        · rw [if_neg hout, hseek]
          exact ⟨rfl, h⟩
    | position =>
        rw [← Option.some.inj hstep, Document.step, File.position, FileStream.ftell, h.file.cursor]
        by_cases hcursor : d.cursor < 2 ^ 63
        · rw [if_pos hcursor, if_pos hcursor]
          exact ⟨rfl, h⟩
        · rw [if_neg hcursor, if_neg hcursor]
          exact ⟨rfl, h⟩
    | size refused refused_back =>
        obtain ⟨rfl, rfl⟩ := htaken
        rw [← Option.some.inj hstep, Document.step]
        by_cases hcursor : d.cursor < 2 ^ 63
        · obtain ⟨s', hsize, -, hs'⟩ := size_eq h.file hcursor
          rw [if_pos hcursor, hsize]
          by_cases hlength : d.content.length < 2 ^ 63
          · rw [if_pos hlength, if_pos hlength]
            exact ⟨rfl, hs', h.undefined⟩
          · rw [if_neg hlength, if_neg hlength]
            exact ⟨rfl, hs', h.undefined⟩
        · rw [if_neg hcursor, File.size, File.position, FileStream.ftell, h.file.cursor,
            if_neg hcursor]
          exact ⟨rfl, h⟩
    | transmit n =>
        rw [← Option.some.inj hstep]
        exact ⟨rfl, h.file.transmit n, h.undefined⟩
  exact hgives

/-! ### Whole runs -/

/-- A file just opened, at a place that the library chooses where it appends. -/
def InUse.opened (type : AccessType) (append : Bool) (content : List (BitVec 8)) (start : Nat) :
    InUse :=
  ⟨⟨type, append, ⟨content, start, []⟩, fun _ => false, false, .positioned⟩, false⟩

theorem InUse.is_opened (m_options : OpenOptions) (append : Bool) (content : List (BitVec 8))
    (start : Nat) : (InUse.opened m_options.type append content start).Is m_options append
      ⟨content, start, .positioned, false⟩ :=
  ⟨⟨rfl, rfl, rfl, rfl, rfl, fun _ => rfl, rfl, fun _ => rfl, fun _ h => absurd rfl h⟩, rfl⟩

/-- A destroyed `File` is right, whatever is found in the freed buffer, where nothing was in it. -/
theorem destroyed_eq_iff (s : FileStream) :
    (∀ freed, freed.length = s.bytes.pending.length → s.destroyed freed = s.content) ↔
      s.bytes.pending = [] := by
  constructor
  · intro h
    -- what is found may differ from what was pending in every byte
    have hother := h (s.bytes.pending.map (· + 1)) (List.length_map _)
    have hsame : s.bytes.pending.map (· + 1) = s.bytes.pending :=
      Buffered.overwrite_inj (List.length_map _) hother
    cases hpending : s.bytes.pending with
    | nil => rfl
    | cons c rest =>
        rw [hpending, List.map_cons] at hsame
        have hc : c + 1 = c := (List.cons.inj hsame).1
        bv_omega
  · intro hpending freed hfreed
    rw [hpending, List.length_nil, List.length_eq_zero_iff] at hfreed
    rw [FileStream.destroyed, FileStream.content, Buffered.view, hfreed, hpending]

end File

end Hyperion
