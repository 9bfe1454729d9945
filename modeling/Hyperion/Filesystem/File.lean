/-
Files of `Hyperion/filesystem/File.h` and `filesystem/File.cpp`.

A `File` owns a stream and, apart from it, the buffer that `open` attached to the
stream.  Both are `UniquePtr`s, and the C library may use the buffer until `fclose` has
returned.  What is done to streams and buffers is on record, in order.

A stream that `fopen` gives and the buffer allocated for it go by one number, which is
not used again.
-/
import Hyperion.Memory.UniquePtr

namespace Hyperion

/-- A `FILE*`: the standard ones, or one that `fopen` gave. -/
inductive Stream
  | stdout
  | stderr
  | opened (n : Nat)
deriving DecidableEq

/-- What happens to streams and buffers. -/
inductive FileEvent
  | fopen (stream : Stream) (options : String)
  | setvbuf (stream : Stream) (buffer : Nat) (buffer_size : Nat)
  | fclose (stream : Stream)
  | free (buffer : Nat)
deriving DecidableEq

/-- `FileDeleter` -/
inductive FileDeleter
  | mk

/-- `operator()(ptr)` -/
def FileDeleter.call (_ : FileDeleter) (ptr : Option Stream) : List FileEvent :=
  if ptr ≠ some .stdout ∧ ptr ≠ some .stderr then ptr.toList.map .fclose else []

/-- `operator()(ptr)` of a `char[]`: `delete[]` of a null pointer does nothing. -/
def DefaultDeleter.call (_ : DefaultDeleter) (ptr : Option Nat) : List FileEvent :=
  ptr.toList.map .free

/-- What deleting the pointer of a stream does. -/
def Deletion.closing (c : Deletion Stream FileDeleter) : List FileEvent := c.deleter.call c.ptr

/-- What deleting the pointer of a buffer does. -/
def Deletion.freeing (c : Deletion Nat DefaultDeleter) : List FileEvent := c.deleter.call c.ptr

/-! ### Opening -/

/-- `File::AccessType` -/
inductive AccessType
  | Read
  | Write
  | ReadWrite
deriving DecidableEq

namespace AccessModifier

def None : BitVec 32 := 0
def Append : BitVec 32 := 1
def Truncate : BitVec 32 := 2
def Binary : BitVec 32 := 4
def FailIfExists : BitVec 32 := 8

end AccessModifier

/-- `File::OpenOptions` -/
structure OpenOptions where
  type : AccessType := .ReadWrite
  modifier : BitVec 32 := AccessModifier.Truncate

/-- What `open` fails with: a code of its own, or the last error of the system. -/
inductive OpenError
  | EINVAL
  | last_error

/-- `validate_open_options(options)` -/
def validate_open_options (options : OpenOptions) : Except OpenError String :=
  let append_binary_mask := ~~~(AccessModifier.Append ||| AccessModifier.Binary)
  let truncate_binary_mask := ~~~(AccessModifier.Truncate ||| AccessModifier.Binary)
  let truncate_fail_mask := ~~~(AccessModifier.Truncate ||| AccessModifier.FailIfExists)
  let truncate_binary_fail_mask :=
    ~~~(AccessModifier.Truncate ||| AccessModifier.Binary ||| AccessModifier.FailIfExists)
  match options.type with
  | .ReadWrite =>
      if options.modifier &&& append_binary_mask = 0 then .ok "a+b"
      else if options.modifier = AccessModifier.Append then .ok "a+"
      else if options.modifier &&& truncate_binary_mask = 0 then .ok "w+b"
      else if options.modifier &&& truncate_fail_mask = 0 then .ok "w+x"
      else if options.modifier &&& truncate_binary_fail_mask = 0 then .ok "w+xb"
      else if options.modifier = AccessModifier.Truncate then .ok "w+"
      else if options.modifier = AccessModifier.Binary then .ok "r+b"
      else if options.modifier = AccessModifier.None then .ok "r+"
      else .error .EINVAL
  | .Read =>
      if options.modifier = AccessModifier.Binary then .ok "rb"
      else if options.modifier = AccessModifier.None then .ok "r"
      else .error .EINVAL
  | .Write =>
      if options.modifier &&& append_binary_mask = 0 then .ok "ab"
      else if options.modifier = AccessModifier.Append then .ok "a"
      else if options.modifier &&& truncate_binary_mask = 0 then .ok "wb"
      else if options.modifier &&& truncate_fail_mask = 0 then .ok "wx"
      else if options.modifier &&& truncate_binary_fail_mask = 0 then .ok "wbx"
      else if options.modifier = AccessModifier.Truncate then .ok "w"
      else .error .EINVAL

/-- `File`, with its members in the order of their declaration. -/
structure File where
  m_file : UniquePtr Stream FileDeleter
  m_buffer : UniquePtr Nat DefaultDeleter
  m_options : OpenOptions

namespace File

/-- `File(file, options)` -/
def of_stream (file : Option Stream) (options : OpenOptions) : File :=
  ⟨⟨file, .mk⟩, ⟨none, .mk⟩, options⟩

/-- `File(file, buffer, options)`: the buffer is moved from, too. -/
def of_buffer (file : Option Stream) (buffer : UniquePtr Nat DefaultDeleter)
    (options : OpenOptions) : File × UniquePtr Nat DefaultDeleter :=
  let (m_buffer, buffer) := buffer.move_construct ⟨id⟩
  (⟨⟨file, .mk⟩, m_buffer, options⟩, buffer)

/-- `File(File&& file)` -/
def move_construct (file : File) : File × File :=
  let (m_file, file_file) := file.m_file.move_construct ⟨id⟩
  let (m_buffer, file_buffer) := file.m_buffer.move_construct ⟨id⟩
  (⟨m_file, m_buffer, file.m_options⟩, ⟨file_file, file_buffer, file.m_options⟩)

/-- `operator=(File&& file)` from another file. -/
def move_assign (this file : File) : List FileEvent × File × File :=
  let (closed, m_file, file_file) := this.m_file.move_assign ⟨id⟩ file.m_file
  let (freed, m_buffer, file_buffer) := this.m_buffer.move_assign ⟨id⟩ file.m_buffer
  (closed.closing ++ freed.freeing, ⟨m_file, m_buffer, file.m_options⟩,
    ⟨file_file, file_buffer, file.m_options⟩)

/-- `~File()`: the members go in reverse order of their declaration. -/
def destructor (this : File) : List FileEvent × File :=
  let (freed, m_buffer) := this.m_buffer.destructor
  let (closed, m_file) := this.m_file.destructor
  (freed.freeing ++ closed.closing, ⟨m_file, m_buffer, this.m_options⟩)

/-- What the C library answers to `open`. -/
structure Answers where
  fopen : Bool
  setvbuf : Bool

/--
`open(path, open_options, buffer_size)`.  A stream opened and the buffer made for it get
the number `n`; on the way out the `File` is moved into the result once.
-/
def open' (n : Nat) (answers : Answers) (open_options : OpenOptions) (buffer_size : Nat) :
    List FileEvent × Except OpenError File :=
  match validate_open_options open_options with
  | .error e => ([], .error e)
  | .ok options =>
      if answers.fopen = false then ([], .error .last_error)
      else
        let file := Stream.opened n
        let buffer : UniquePtr Nat DefaultDeleter := ⟨some n, .mk⟩
        let attach := [.fopen file options, .setvbuf file n buffer_size]
        if answers.setvbuf = false then
          (attach ++ [.fclose file] ++ buffer.destructor.1.freeing, .error .last_error)
        else
          let (temporary, buffer) := of_buffer (some file) buffer open_options
          let (result, temporary) := temporary.move_construct
          (attach ++ temporary.destructor.1 ++ buffer.destructor.1.freeing, .ok result)

end File

/-! ### Programs -/

/-- The files of a program, the next number not in use, and what happened so far. -/
structure Files where
  objects : Nat → Life File
  next : Nat
  trace : List FileEvent

namespace Files

/-- Nothing was opened yet. -/
def start : Files := ⟨Objects.start, 0, []⟩

/-- One statement. -/
inductive Op
  | standard (j : Nat) (file : Stream) (options : OpenOptions)
  | open' (j : Nat) (answers : File.Answers) (open_options : OpenOptions) (buffer_size : Nat)
  | move_construct (j i : Nat)
  | move_assign (j i : Nat)
  | destroy (j : Nat)

/-- One statement; a stream that `fopen` gave stays with the `File` that `open` made of it. -/
def step (h : Files) : Op → Option (Unit × Files)
  | .standard j file options =>
      if Objects.free h.objects j ∧ (file = .stdout ∨ file = .stderr) then
        some ((), { h with
          objects := Objects.put h.objects j (File.of_stream (some file) options) })
      else none
  | .open' j answers open_options buffer_size =>
      if Objects.free h.objects j then
        let (events, result) := File.open' h.next answers open_options buffer_size
        some ((), {
          objects := match result with
            | .ok file => Objects.put h.objects j file
            | .error _ => h.objects
          next := h.next + 1
          trace := h.trace ++ events })
      else none
  | .move_construct j i =>
      if Objects.free h.objects j then
        (Objects.get h.objects i).map fun file =>
          let (this, file) := file.move_construct
          ((), { h with objects := Objects.put (Objects.put h.objects i file) j this })
      else none
  | .move_assign j i =>
      if j = i then (Objects.get h.objects i).map fun _ => ((), h)
      else
        (Objects.get h.objects j).bind fun this => (Objects.get h.objects i).map fun file =>
          let (events, this, file) := this.move_assign file
          ((), { h with
            objects := Objects.put (Objects.put h.objects i file) j this
            trace := h.trace ++ events })
  | .destroy j =>
      (Objects.get h.objects j).map fun this =>
        let (events, this) := this.destructor
        ((), { h with
          objects := Function.update h.objects j (.ended this)
          trace := h.trace ++ events })

/-- What releases a stream or the buffer, in order. -/
def releases (h : Files) (stream : Stream) (buffer : Nat) : List FileEvent :=
  h.trace.filter fun e => e = .fclose stream ∨ e = .free buffer

/-- One `File` owns the stream and the buffer, and no other owns either. -/
def Kept (h : Files) (stream : Stream) (buffer : Nat) : Prop :=
  ∃ i f, Objects.get h.objects i = some f ∧ f.m_file.first = some stream ∧
    f.m_buffer.first = some buffer ∧
    ∀ j g, Objects.get h.objects j = some g →
      g.m_file.first = some stream ∨ g.m_buffer.first = some buffer → j = i

/--
A buffer attached to a stream is still kept with it, and neither was released; or the
stream was closed once and the buffer was freed once, after it.
-/
def BufferOutlives (h : Files) : Prop :=
  ∀ stream buffer buffer_size, FileEvent.setvbuf stream buffer buffer_size ∈ h.trace →
    (h.Kept stream buffer ∧ h.releases stream buffer = []) ∨
      h.releases stream buffer = [.fclose stream, .free buffer]

end Files

end Hyperion
