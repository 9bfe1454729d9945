/-
The codes of `Hyperion/error/GenericDomain.h`: the errors of the C library by name.

The values of the `E` names are the platform's; all that is asked of them is that they
are positive, as the C library has them.
-/
import Mathlib.Data.BitVec

namespace Hyperion

/-- The names that `<cerrno>` defines. -/
inductive CErrno
  | EAFNOSUPPORT | EADDRINUSE | EADDRNOTAVAIL | EISCONN | E2BIG | EDOM | EFAULT | EBADF | EBADMSG
  | EPIPE | ECONNABORTED | EALREADY | ECONNREFUSED | ECONNRESET | EXDEV | EDESTADDRREQ | EBUSY
  | ENOTEMPTY | ENOEXEC | EEXIST | EFBIG | ENAMETOOLONG | ENOSYS | EHOSTUNREACH | EIDRM | EILSEQ
  | ENOTTY | EINTR | EINVAL | ESPIPE | EIO | EISDIR | EMSGSIZE | ENETDOWN | ENETRESET
  | ENETUNREACH | ENOBUFS | ECHILD | ENOLINK | ENOLCK | ENODATA | ENOMSG | ENOPROTOOPT | ENOSPC
  | ENOSR | ENXIO | ENODEV | ENOENT | ESRCH | ENOTDIR | ENOTSOCK | ENOSTR | ENOTCONN | ENOMEM
  | ENOTSUP | ECANCELED | EINPROGRESS | EPERM | EOPNOTSUPP | EWOULDBLOCK | EOWNERDEAD | EACCES
  | EPROTO | EPROTONOSUPPORT | EROFS | EDEADLK | EAGAIN | ERANGE | ENOTRECOVERABLE | ETIME
  | ETXTBSY | ETIMEDOUT | ENFILE | EMFILE | EMLINK | ELOOP | EOVERFLOW | EPROTOTYPE
deriving DecidableEq

/-- What a platform's `<cerrno>` defines them as. -/
structure Platform where
  value : CErrno → BitVec 32
  positive : ∀ e, (0#32).slt (value e) = true

/-- The enumerators of `Errno`. -/
inductive Errno
  | Success | AddressFamilyNotSupported | AddressInUse | AddressNotAvailable | AlreadyConnected
  | ArgumentListTooLong | ArgumentOutOfDomain | BadAddress | BadFileDescriptor | BadMessage
  | BrokenPipe | ConnectionAborted | ConnectionAlreadyInProgress | ConnectionRefused
  | ConnectionReset | CrossDeviceLink | DestinationAddressRequired | DeviceOrResourceBusy
  | DirectoryNotEmpty | ExecutableFormatError | FileExists | FileTooLarge | FilenameTooLong
  | FunctionNotSupported | HostUnreachable | IdentifierRemoved | IllegalByteSequence
  | InappropriateIOControlOperation | Interrupted | InvalidArgument | InvalidSeek | IOError
  | IsADirectory | MessageSize | NetworkDown | NetworkReset | NetworkUnreachable | NoBufferSpace
  | NoChildProcess | NoLink | NoLockAvailable | NoMessageAvailable | NoMessage | NoProtocolOption
  | NoSpaceOnDevice | NoStreamResources | NoSuchDeviceOrAddress | NoSuchDevice
  | NoSuchFileOrDirectory | NoSuchProcess | NotADirectory | NotASocket | NotAStream
  | NotConnected | NotEnoughMemory | NotSupported | OperationCanceled | OperationInProgress
  | OperationNotPermitted | OperationNotSupported | OperationWouldBlock | OwnerDead
  | PermissionDenied | ProtocolError | ProtocolNotSupported | ReadOnlyFileSystem
  | ResourceDeadlockWouldOccur | ResourceUnavailableTryAgain | ResultOutOfRange
  | StateNotRecoverable | StreamTimeout | TextFileBusy | TimedOut | TooManyFilesOpenInSystem
  | TooManyFilesOpen | TooManyLinks | TooManySymbolicLinkLevels | ValueTooLarge
  | WrongProtocolType | Unknown
deriving DecidableEq

namespace Errno

/-- What an enumerator is defined as; `Success` and `Unknown` are numbers. -/
def definition : Errno → Option CErrno
  | .Success => none
  | .AddressFamilyNotSupported => some .EAFNOSUPPORT
  | .AddressInUse => some .EADDRINUSE
  | .AddressNotAvailable => some .EADDRNOTAVAIL
  | .AlreadyConnected => some .EISCONN
  | .ArgumentListTooLong => some .E2BIG
  | .ArgumentOutOfDomain => some .EDOM
  | .BadAddress => some .EFAULT
  | .BadFileDescriptor => some .EBADF
  | .BadMessage => some .EBADMSG
  | .BrokenPipe => some .EPIPE
  | .ConnectionAborted => some .ECONNABORTED
  | .ConnectionAlreadyInProgress => some .EALREADY
  | .ConnectionRefused => some .ECONNREFUSED
  | .ConnectionReset => some .ECONNRESET
  | .CrossDeviceLink => some .EXDEV
  | .DestinationAddressRequired => some .EDESTADDRREQ
  | .DeviceOrResourceBusy => some .EBUSY
  | .DirectoryNotEmpty => some .ENOTEMPTY
  | .ExecutableFormatError => some .ENOEXEC
  | .FileExists => some .EEXIST
  | .FileTooLarge => some .EFBIG
  | .FilenameTooLong => some .ENAMETOOLONG
  | .FunctionNotSupported => some .ENOSYS
  | .HostUnreachable => some .EHOSTUNREACH
  | .IdentifierRemoved => some .EIDRM
  | .IllegalByteSequence => some .EILSEQ
  | .InappropriateIOControlOperation => some .ENOTTY
  | .Interrupted => some .EINTR
  | .InvalidArgument => some .EINVAL
  | .InvalidSeek => some .ESPIPE
  | .IOError => some CErrno.EIO
  | .IsADirectory => some .EISDIR
  | .MessageSize => some .EMSGSIZE
  | .NetworkDown => some .ENETDOWN
  | .NetworkReset => some .ENETRESET
  | .NetworkUnreachable => some .ENETUNREACH
  | .NoBufferSpace => some .ENOBUFS
  | .NoChildProcess => some .ECHILD
  | .NoLink => some .ENOLINK
  | .NoLockAvailable => some .ENOLCK
  | .NoMessageAvailable => some .ENODATA
  | .NoMessage => some .ENOMSG
  | .NoProtocolOption => some .ENOPROTOOPT
  | .NoSpaceOnDevice => some .ENOSPC
  | .NoStreamResources => some .ENOSR
  | .NoSuchDeviceOrAddress => some CErrno.ENXIO
  | .NoSuchDevice => some .ENODEV
  | .NoSuchFileOrDirectory => some .ENOENT
  | .NoSuchProcess => some .ESRCH
  | .NotADirectory => some .ENOTDIR
  | .NotASocket => some .ENOTSOCK
  | .NotAStream => some .ENOSTR
  | .NotConnected => some .ENOTCONN
  | .NotEnoughMemory => some .ENOMEM
  | .NotSupported => some .ENOTSUP
  | .OperationCanceled => some .ECANCELED
  | .OperationInProgress => some .EINPROGRESS
  | .OperationNotPermitted => some .EPERM
  | .OperationNotSupported => some .EOPNOTSUPP
  | .OperationWouldBlock => some .EWOULDBLOCK
  | .OwnerDead => some .EOWNERDEAD
  | .PermissionDenied => some .EACCES
  | .ProtocolError => some .EPROTO
  | .ProtocolNotSupported => some .EPROTONOSUPPORT
  | .ReadOnlyFileSystem => some .EROFS
  | .ResourceDeadlockWouldOccur => some .EDEADLK
  | .ResourceUnavailableTryAgain => some .EAGAIN
  | .ResultOutOfRange => some .ERANGE
  | .StateNotRecoverable => some .ENOTRECOVERABLE
  | .StreamTimeout => some .ETIME
  | .TextFileBusy => some .ETXTBSY
  | .TimedOut => some .ETIMEDOUT
  | .TooManyFilesOpenInSystem => some .ENFILE
  | .TooManyFilesOpen => some .EMFILE
  | .TooManyLinks => some .EMLINK
  | .TooManySymbolicLinkLevels => some .ELOOP
  | .ValueTooLarge => some .EOVERFLOW
  | .WrongProtocolType => some .EPROTOTYPE
  | .Unknown => none

/-- The value of an enumerator, an `i32`. -/
def value (P : Platform) : Errno → BitVec 32
  | .Success => 0
  | .Unknown => -1
  | e => match e.definition with
    | some name => P.value name
    | none => -1

theorem value_definition {P : Platform} {e : Errno} {name : CErrno}
    (h : e.definition = some name) : e.value P = P.value name := by
  cases e <;> cases h <;> rfl

/-- An enumerator that no name defines is one of the two that are numbers. -/
theorem number_of_definition {e : Errno} (h : e.definition = none) :
    e = .Success ∨ e = .Unknown := by
  cases e with
  | Success => exact .inl rfl
  | Unknown => exact .inr rfl
  | _ => cases h

/-- A number is the value of no other enumerator: the values of names are positive. -/
theorem value_eq_number (P : Platform) {number : Errno} (hnumber : number.definition = none)
    (e : Errno) : e.value P = number.value P ↔ e = number := by
  cases hdefinition : e.definition with
  | none =>
      rcases number_of_definition hdefinition with rfl | rfl <;>
        rcases number_of_definition hnumber with rfl | rfl
      · exact iff_of_true rfl rfl
      · exact iff_of_false (show ¬ (0 : BitVec 32) = -1 by decide) (by decide)
      · exact iff_of_false (show ¬ (-1 : BitVec 32) = 0 by decide) (by decide)
      · exact iff_of_true rfl rfl
  | some name =>
      have hpositive := P.positive name
      refine iff_of_false (fun heq => ?_) ?_
      · rw [← value_definition hdefinition, heq] at hpositive
        rcases number_of_definition hnumber with rfl | rfl <;> cases hpositive
      · rintro rfl
        rw [hnumber] at hdefinition
        cases hdefinition

/-- **`Success` is the only enumerator that is zero.** -/
theorem value_eq_zero (P : Platform) (e : Errno) : e.value P = 0 ↔ e = .Success :=
  value_eq_number P (show definition .Success = none from rfl) e

/-- **`Unknown` is the only enumerator that is -1.** -/
theorem value_eq_unknown (P : Platform) (e : Errno) : e.value P = -1 ↔ e = .Unknown :=
  value_eq_number P (show definition .Unknown = none from rfl) e

end Errno

namespace Platform

/-- What Linux defines the names as. -/
def linux_value : CErrno → BitVec 32
  | .EAFNOSUPPORT => 97
  | .EADDRINUSE => 98
  | .EADDRNOTAVAIL => 99
  | .EISCONN => 106
  | .E2BIG => 7
  | .EDOM => 33
  | .EFAULT => 14
  | .EBADF => 9
  | .EBADMSG => 74
  | .EPIPE => 32
  | .ECONNABORTED => 103
  | .EALREADY => 114
  | .ECONNREFUSED => 111
  | .ECONNRESET => 104
  | .EXDEV => 18
  | .EDESTADDRREQ => 89
  | .EBUSY => 16
  | .ENOTEMPTY => 39
  | .ENOEXEC => 8
  | .EEXIST => 17
  | .EFBIG => 27
  | .ENAMETOOLONG => 36
  | .ENOSYS => 38
  | .EHOSTUNREACH => 113
  | .EIDRM => 43
  | .EILSEQ => 84
  | .ENOTTY => 25
  | .EINTR => 4
  | .EINVAL => 22
  | .ESPIPE => 29
  | CErrno.EIO => 5
  | .EISDIR => 21
  | .EMSGSIZE => 90
  | .ENETDOWN => 100
  | .ENETRESET => 102
  | .ENETUNREACH => 101
  | .ENOBUFS => 105
  | .ECHILD => 10
  | .ENOLINK => 67
  | .ENOLCK => 37
  | .ENODATA => 61
  | .ENOMSG => 42
  | .ENOPROTOOPT => 92
  | .ENOSPC => 28
  | .ENOSR => 63
  | CErrno.ENXIO => 6
  | .ENODEV => 19
  | .ENOENT => 2
  | .ESRCH => 3
  | .ENOTDIR => 20
  | .ENOTSOCK => 88
  | .ENOSTR => 60
  | .ENOTCONN => 107
  | .ENOMEM => 12
  | .ENOTSUP => 95
  | .ECANCELED => 125
  | .EINPROGRESS => 115
  | .EPERM => 1
  | .EOPNOTSUPP => 95
  | .EWOULDBLOCK => 11
  | .EOWNERDEAD => 130
  | .EACCES => 13
  | .EPROTO => 71
  | .EPROTONOSUPPORT => 93
  | .EROFS => 30
  | .EDEADLK => 35
  | .EAGAIN => 11
  | .ERANGE => 34
  | .ENOTRECOVERABLE => 131
  | .ETIME => 62
  | .ETXTBSY => 26
  | .ETIMEDOUT => 110
  | .ENFILE => 23
  | .EMFILE => 24
  | .EMLINK => 31
  | .ELOOP => 40
  | .EOVERFLOW => 75
  | .EPROTOTYPE => 91

/-- Linux. -/
def linux : Platform := ⟨linux_value, by intro e; cases e <;> decide⟩

end Platform

end Hyperion
