/-
The domains of status codes under `Hyperion/error/`, and the ones the macro
`STATUS_CODE_DOMAIN` makes of its arguments.

The codes of every domain are integers of a fixed width, and enumerators are their values.
A switch of the source is a table of its cases, in their order; a code that no case has is
its default.
-/
import Hyperion.Error.Errno
import Hyperion.Error.StatusCode
import Hyperion.Error.Uuid

namespace Hyperion

/-- What a switch over `code` makes of the first case that has it. -/
def switch {ν γ : Type} [DecidableEq ν] (cases : List (ν × γ)) (default : γ) (code : ν) : γ :=
  match cases.find? fun c => c.1 = code with
  | some c => c.2
  | none => default

@[simp] theorem switch_cons {ν γ : Type} [DecidableEq ν] (c : ν × γ) (cases : List (ν × γ))
    (default : γ) (code : ν) :
    switch (c :: cases) default code = if c.1 = code then c.2 else switch cases default code := by
  unfold switch
  rw [List.find?_cons]
  by_cases h : c.1 = code <;> simp [h]

/-- A switch gives the default or what some case gives. -/
theorem switch_cases {ν γ : Type} [DecidableEq ν] (cases : List (ν × γ)) (default : γ)
    (code : ν) : switch cases default code = default ∨
      ∃ c ∈ cases, c.1 = code ∧ switch cases default code = c.2 := by
  unfold switch
  cases hfind : cases.find? fun c => c.1 = code with
  | none => exact .inl rfl
  | some c =>
      have hcode := List.find?_some hfind
      exact .inr ⟨c, List.mem_of_find?_eq_some hfind, of_decide_eq_true hcode, rfl⟩

/-! ### `GenericDomain` -/

namespace GenericDomain

/-- `ID` -/
def ID : BitVec 64 := uuid_of "bb14ea47-2e32-4296-8ff8-1f9e2660ccc6"

/-- `is_error(code)` -/
def is_error (P : Platform) (code : BitVec 32) : Bool := code != Errno.Success.value P

/-- `is_success(code)` -/
def is_success (P : Platform) (code : BitVec 32) : Bool := code == Errno.Success.value P

/-- The domain of `GenericStatusCode`, with its enumeration `Errno`. -/
def codes (P : Platform) : CodeDomain (BitVec 64) (BitVec 32) Errno where
  make_status_code_domain := ID
  is_error _ code := is_error P code.m_code
  is_success _ code := is_success P code.m_code
  success_value := Errno.Success.value P
  of_enum := Errno.value P
  move_domain := .scalar
  move_code := .scalar

end GenericDomain

/-! ### `PosixDomain` -/

namespace PosixDomain

/-- `ID` -/
def ID : BitVec 64 := uuid_of "4a6a9b0f-c335-473e-bc42-d23974a25bb0"

/-- `is_error(code)` -/
def is_error (code : BitVec 64) : Bool := code != 0

/-- `is_success(code)` -/
def is_success (code : BitVec 64) : Bool := code == 0

/-- The domain of `PosixStatusCode`, which has no enumeration. -/
def codes : CodeDomain (BitVec 64) (BitVec 64) Empty where
  make_status_code_domain := ID
  is_error _ code := is_error code.m_code
  is_success _ code := is_success code.m_code
  success_value := 0
  of_enum := Empty.elim
  move_domain := .scalar
  move_code := .scalar

/-- The cases of `to_generic_code` after that of zero. -/
def cases : List (CErrno × Errno) := [
    (.EAFNOSUPPORT, .AddressFamilyNotSupported), (.EADDRINUSE, .AddressInUse),
    (.EADDRNOTAVAIL, .AddressNotAvailable), (.EISCONN, .AlreadyConnected),
    (.E2BIG, .ArgumentListTooLong), (.EDOM, .ArgumentOutOfDomain), (.EFAULT, .BadAddress),
    (.EBADF, .BadFileDescriptor), (.EBADMSG, .BadMessage), (.EPIPE, .BrokenPipe),
    (.ECONNABORTED, .ConnectionAborted), (.EALREADY, .ConnectionAlreadyInProgress),
    (.ECONNREFUSED, .ConnectionRefused), (.ECONNRESET, .ConnectionReset),
    (.EXDEV, .CrossDeviceLink), (.EDESTADDRREQ, .DestinationAddressRequired),
    (.EBUSY, .DeviceOrResourceBusy), (.ENOTEMPTY, .DirectoryNotEmpty),
    (.ENOEXEC, .ExecutableFormatError), (.EEXIST, .FileExists), (.EFBIG, .FileTooLarge),
    (.ENAMETOOLONG, .FilenameTooLong), (.ENOSYS, .FunctionNotSupported),
    (.EHOSTUNREACH, .HostUnreachable), (.EIDRM, .IdentifierRemoved),
    (.EILSEQ, .IllegalByteSequence), (.ENOTTY, .InappropriateIOControlOperation),
    (.EINTR, .Interrupted), (.EINVAL, .InvalidArgument), (.ESPIPE, .InvalidSeek),
    ( CErrno.EIO, .IOError), (.EISDIR, .IsADirectory), (.EMSGSIZE, .MessageSize),
    (.ENETDOWN, .NetworkDown), (.ENETRESET, .NetworkReset), (.ENETUNREACH, .NetworkUnreachable),
    (.ENOBUFS, .NoBufferSpace), (.ECHILD, .NoChildProcess), (.ENOLINK, .NoLink),
    (.ENOLCK, .NoLockAvailable), (.ENODATA, .NoMessageAvailable), (.ENOMSG, .NoMessage),
    (.ENOPROTOOPT, .NoProtocolOption), (.ENOSPC, .NoSpaceOnDevice), (.ENOSR, .NoStreamResources),
    ( CErrno.ENXIO, .NoSuchDeviceOrAddress), (.ENODEV, .NoSuchDevice),
    (.ENOENT, .NoSuchFileOrDirectory), (.ESRCH, .NoSuchProcess), (.ENOTDIR, .NotADirectory),
    (.ENOTSOCK, .NotASocket), (.ENOSTR, .NotAStream), (.ENOTCONN, .NotConnected),
    (.ENOMEM, .NotEnoughMemory), (.ENOTSUP, .NotSupported), (.ECANCELED, .OperationCanceled),
    (.EINPROGRESS, .OperationInProgress), (.EPERM, .OperationNotPermitted),
    (.EOPNOTSUPP, .OperationNotSupported), (.EWOULDBLOCK, .OperationWouldBlock),
    (.EOWNERDEAD, .OwnerDead), (.EACCES, .PermissionDenied), (.EPROTO, .ProtocolError),
    (.EPROTONOSUPPORT, .ProtocolNotSupported), (.EROFS, .ReadOnlyFileSystem),
    (.EDEADLK, .ResourceDeadlockWouldOccur), (.EAGAIN, .ResourceUnavailableTryAgain),
    (.ERANGE, .ResultOutOfRange), (.ENOTRECOVERABLE, .StateNotRecoverable),
    (.ETIME, .StreamTimeout), (.ETXTBSY, .TextFileBusy), (.ETIMEDOUT, .TimedOut),
    (.ENFILE, .TooManyFilesOpenInSystem), (.EMFILE, .TooManyFilesOpen), (.EMLINK, .TooManyLinks),
    (.ELOOP, .TooManySymbolicLinkLevels), (.EOVERFLOW, .ValueTooLarge),
    (.EPROTOTYPE, .WrongProtocolType)]

/-- A case under an `#if` is left out where its name has the value of another. -/
def included (P : Platform) (c : CErrno × Errno) : Bool :=
  match c.1 with
  | .ENOTSUP => P.value .ENOTSUP != P.value .EOPNOTSUPP
  | .EWOULDBLOCK => P.value .EWOULDBLOCK != P.value .EAGAIN
  | _ => true

/-- `to_generic_code(code)`; the `int`s that the names stand for are compared as an `i64`. -/
def to_generic_code (P : Platform) (code : BitVec 64) : Errno :=
  switch ((0, .Success) ::
    (cases.filter (included P)).map fun c => ((P.value c.1).signExtend 64, c.2)) .Unknown code

end PosixDomain

/-! ### `Win32Domain` -/

namespace Win32Domain

/-- `ID` -/
def ID : BitVec 64 := uuid_of "53b43298-f1f6-4a7b-a998-49dfa96c7159"

/-- `is_error(code)` of a `DWORD` -/
def is_error (code : BitVec 32) : Bool := code != 0

/-- `is_success(code)` -/
def is_success (code : BitVec 32) : Bool := code == 0

/-- The domain of `Win32StatusCode`. -/
def codes : CodeDomain (BitVec 64) (BitVec 32) Empty where
  make_status_code_domain := ID
  is_error _ code := is_error code.m_code
  is_success _ code := is_success code.m_code
  success_value := 0
  of_enum := Empty.elim
  move_domain := .scalar
  move_code := .scalar

/-- The cases of `to_generic_code`. -/
def cases : List (BitVec 32 × Errno) := [
    (0, .Success), (0x1, .FunctionNotSupported), (0x2, .NoSuchFileOrDirectory),
    (0x3, .NoSuchFileOrDirectory), (0x4, .TooManyFilesOpen), (0x5, .PermissionDenied),
    (0x6, .InvalidArgument), (0x8, .NotEnoughMemory), (0xc, .PermissionDenied),
    (0xe, .NotEnoughMemory), (0xf, .NoSuchDevice), (0x10, .PermissionDenied),
    (0x11, .CrossDeviceLink), (0x13, .PermissionDenied), (0x14, .NoSuchDevice),
    (0x15, .ResourceUnavailableTryAgain), (0x19, .IOError), (0x1d, .IOError), (0x1e, .IOError),
    (0x20, .PermissionDenied), (0x21, .NoLockAvailable), (0x27, .NoSpaceOnDevice),
    (0x37, .NoSuchDevice), (0x50, .FileExists), (0x52, .PermissionDenied),
    (0x57, .InvalidArgument), (0x6e, .IOError), (0x6f, .FilenameTooLong),
    (0x70, .NoSpaceOnDevice), (0x7b, .InvalidArgument), (0x83, .InvalidArgument),
    (0x8e, .DeviceOrResourceBusy), (0x91, .DirectoryNotEmpty), (0xaa, .DeviceOrResourceBusy),
    (0xb7, .FileExists), (0xd4, .NoLockAvailable), (0x10b, .InvalidArgument),
    (0x3e3, .OperationCanceled), (0x3e6, .PermissionDenied), (0x3f3, .IOError),
    (0x3f4, .IOError), (0x3f5, .IOError), (0x4d5, .ResourceUnavailableTryAgain),
    (0x961, .DeviceOrResourceBusy), (0x964, .DeviceOrResourceBusy), (0x2714, .Interrupted),
    (0x2719, .BadFileDescriptor), (0x271d, .PermissionDenied), (0x271e, .BadAddress),
    (0x2726, .InvalidArgument), (0x2728, .TooManyFilesOpen), (0x2733, .OperationWouldBlock),
    (0x2734, .OperationInProgress), (0x2735, .ConnectionAlreadyInProgress),
    (0x2736, .NotASocket), (0x2737, .DestinationAddressRequired), (0x2738, .MessageSize),
    (0x2739, .WrongProtocolType), (0x273a, .NoProtocolOption), (0x273b, .ProtocolNotSupported),
    (0x273d, .NotSupported), (0x273f, .AddressFamilyNotSupported), (0x2740, .AddressInUse),
    (0x2741, .AddressNotAvailable), (0x2742, .NetworkDown), (0x2743, .NetworkUnreachable),
    (0x2744, .NetworkReset), (0x2745, .ConnectionAborted), (0x2746, .ConnectionReset),
    (0x2747, .NoBufferSpace), (0x2748, .AlreadyConnected), (0x2749, .NotConnected),
    (0x274c, .TimedOut), (0x274d, .ConnectionRefused), (0x274f, .FilenameTooLong),
    (0x2751, .HostUnreachable)]

/-- `to_generic_code(code)` -/
def to_generic_code (code : BitVec 32) : Errno := switch cases .Unknown code

end Win32Domain

/-! ### `NTDomain` -/

namespace NTDomain

/-- `ID` -/
def ID : BitVec 64 := uuid_of "2045f27b-499a-4bf8-9b12-3bd13a81bbb0"

/-- `is_error(code)` of an `NTSTATUS`, which is a signed `long` of 32 bits -/
def is_error (code : BitVec 32) : Bool := code != 0

/-- `is_success(code)` -/
def is_success (code : BitVec 32) : Bool := code == 0

/-- The domain of `NTStatusCode`. -/
def codes : CodeDomain (BitVec 64) (BitVec 32) Empty where
  make_status_code_domain := ID
  is_error _ code := is_error code.m_code
  is_success _ code := is_success code.m_code
  success_value := 0
  of_enum := Empty.elim
  move_domain := .scalar
  move_code := .scalar

/-- The cases of `to_generic_code`, of 64 bits. -/
def cases : List (BitVec 64 × Errno) := [
    (0x80000002, .PermissionDenied), (0x8000000f, .ResourceUnavailableTryAgain),
    (0x80000010, .ResourceUnavailableTryAgain), (0x80000011, .DeviceOrResourceBusy),
    (0xc0000002, .FunctionNotSupported), (0xc0000005, .PermissionDenied),
    (0xc0000008, .InvalidArgument), (0xc000000e, .NoSuchFileOrDirectory),
    (0xc000000f, .NoSuchFileOrDirectory), (0xc0000010, .FunctionNotSupported),
    (0xc0000013, .ResourceUnavailableTryAgain), (0xc0000017, .NotEnoughMemory),
    (0xc000001c, .FunctionNotSupported), (0xc000001e, .PermissionDenied),
    (0xc000001f, .PermissionDenied), (0xc0000021, .PermissionDenied),
    (0xc0000022, .PermissionDenied), (0xc0000024, .InvalidArgument),
    (0xc0000033, .InvalidArgument), (0xc0000034, .NoSuchFileOrDirectory),
    (0xc0000035, .FileExists), (0xc0000037, .InvalidArgument),
    (0xc000003a, .NoSuchFileOrDirectory), (0xc0000040, .NotEnoughMemory),
    (0xc0000041, .PermissionDenied), (0xc0000042, .InvalidArgument),
    (0xc0000043, .PermissionDenied), (0xc000004b, .PermissionDenied),
    (0xc0000054, .NoLockAvailable), (0xc0000055, .NoLockAvailable),
    (0xc0000056, .PermissionDenied), (0xc000007f, .NoSpaceOnDevice),
    (0xc0000087, .NotEnoughMemory), (0xc0000097, .NotEnoughMemory),
    (0xc000009b, .NoSuchFileOrDirectory), (0xc000009e, .ResourceUnavailableTryAgain),
    (0xc00000a2, .PermissionDenied), (0xc00000a3, .ResourceUnavailableTryAgain),
    (0xc00000af, .FunctionNotSupported), (0xc00000ba, .PermissionDenied),
    (0xc00000c0, .NoSuchDevice), (0xc00000d4, .CrossDeviceLink), (0xc00000d5, .PermissionDenied),
    (0xc00000fb, .NoSuchFileOrDirectory), (0xc0000101, .DirectoryNotEmpty),
    (0xc0000103, .InvalidArgument), (0xc0000107, .DeviceOrResourceBusy),
    (0xc0000108, .DeviceOrResourceBusy), (0xc000010a, .PermissionDenied),
    (0xc000011f, .TooManyFilesOpen), (0xc0000120, .OperationCanceled),
    (0xc0000121, .PermissionDenied), (0xc0000123, .PermissionDenied),
    (0xc0000128, .InvalidArgument), (0xc0000189, .PermissionDenied),
    (0xc00001ad, .NotEnoughMemory), (0xc000022d, .ResourceUnavailableTryAgain),
    (0xc0000235, .InvalidArgument), (0xc000026e, .ResourceUnavailableTryAgain),
    (0xc000028a, .PermissionDenied), (0xc000028b, .PermissionDenied),
    (0xc000028d, .PermissionDenied), (0xc000028e, .PermissionDenied),
    (0xc000028f, .PermissionDenied), (0xc0000290, .PermissionDenied),
    (0xc000029c, .FunctionNotSupported), (0xc00002c5, .PermissionDenied),
    (0xc00002d3, .ResourceUnavailableTryAgain), (0xc00002ea, .PermissionDenied),
    (0xc00002f0, .NoSuchFileOrDirectory), (0xc0000373, .NotEnoughMemory),
    (0xc0000416, .NotEnoughMemory), (0xc0000433, .DeviceOrResourceBusy),
    (0xc0000434, .DeviceOrResourceBusy), (0xc0000455, .InvalidArgument),
    (0xc0000467, .PermissionDenied), (0xc0000491, .NoSuchFileOrDirectory),
    (0xc0000495, .ResourceUnavailableTryAgain), (0xc0000503, .ResourceUnavailableTryAgain),
    (0xc0000507, .DeviceOrResourceBusy), (0xc0000512, .PermissionDenied),
    (0xc000070a, .InvalidArgument), (0xc000070b, .InvalidArgument),
    (0xc000070c, .InvalidArgument), (0xc000070d, .InvalidArgument),
    (0xc000070e, .InvalidArgument), (0xc000070f, .InvalidArgument),
    (0xc0000710, .FunctionNotSupported), (0xc0000711, .FunctionNotSupported),
    (0xc0000716, .InvalidArgument), (0xc000071b, .FunctionNotSupported),
    (0xc000071d, .FunctionNotSupported), (0xc000071e, .FunctionNotSupported),
    (0xc000071f, .FunctionNotSupported), (0xc0000720, .FunctionNotSupported),
    (0xc0000721, .FunctionNotSupported), (0xc000080f, .ResourceUnavailableTryAgain),
    (0xc000a203, .PermissionDenied)]

/-- `to_generic_code(code)`: `static_cast<u64>` of a negative code extends its sign. -/
def to_generic_code (code : BitVec 32) : Errno :=
  if (0#32).sle code then .Success else switch cases .Unknown (code.signExtend 64)

end NTDomain

/-! ### `STATUS_CODE_DOMAIN` -/

/-- The arguments of the macro, of a value type `ν`. -/
structure MacroDomain (ν : Type) where
  IsConvertibleToGenericStatusCode : Bool
  uuid_string : String
  success_value : ν
  unknown_value : ν
  to_generic_code_function : ν → BitVec 32

namespace MacroDomain

variable {ν : Type}

/-- `ID` -/
def ID (M : MacroDomain ν) : BitVec 64 := uuid_of M.uuid_string

variable [DecidableEq ν]

/-- `is_error(code)` -/
def is_error (M : MacroDomain ν) (code : ν) : Bool := code != M.success_value

/-- `is_success(code)` -/
def is_success (M : MacroDomain ν) (code : ν) : Bool := code == M.success_value

/-- The domain of its status codes, for an enumeration with integers for values. -/
def codes (M : MacroDomain ν) : CodeDomain (BitVec 64) ν ν where
  make_status_code_domain := M.ID
  is_error _ code := M.is_error code.m_code
  is_success _ code := M.is_success code.m_code
  success_value := M.success_value
  of_enum := id
  move_domain := .scalar
  move_code := .scalar

end MacroDomain

namespace QueueErrorCategory

def Success : BitVec 8 := 0
def QueueIsFull : BitVec 8 := 1
def QueueIsEmpty : BitVec 8 := 2
def Unknown : BitVec 8 := -1

end QueueErrorCategory

namespace LoggerErrorCategory

def Success : BitVec 8 := 0
def QueueingError : BitVec 8 := 1
def LevelError : BitVec 8 := 2
def LoggerNotInitialized : BitVec 8 := 3
def Unknown : BitVec 8 := -1

end LoggerErrorCategory

/-- The conversion that both enumerations are given: success stays, and all else is unknown. -/
def to_generic_category (P : Platform) (success unknown code : BitVec 8) : BitVec 32 :=
  if code = success ∨ code = unknown then code.signExtend 32 else Errno.Unknown.value P

/-- `QueueErrorDomain` -/
def QueueErrorDomain (P : Platform) : MacroDomain (BitVec 8) where
  IsConvertibleToGenericStatusCode := true
  uuid_string := "045dd371-9552-4ce1-bd4d-8e95b654fbe0"
  success_value := QueueErrorCategory.Success
  unknown_value := QueueErrorCategory.Unknown
  to_generic_code_function :=
    to_generic_category P QueueErrorCategory.Success QueueErrorCategory.Unknown

/-- `LoggerErrorDomain` -/
def LoggerErrorDomain (P : Platform) : MacroDomain (BitVec 8) where
  IsConvertibleToGenericStatusCode := true
  uuid_string := "045dd371-9552-4ce1-bd4d-8e95b654fbe0"
  success_value := LoggerErrorCategory.Success
  unknown_value := LoggerErrorCategory.Unknown
  to_generic_code_function :=
    to_generic_category P LoggerErrorCategory.Success LoggerErrorCategory.Unknown

end Hyperion
