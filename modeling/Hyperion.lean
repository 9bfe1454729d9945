import Hyperion.RingBuffer.Contents
import Hyperion.RingBuffer.ElementTypes
import Hyperion.Result.Handled
import Hyperion.Result.Consumed
import Hyperion.Result.Chains
import Hyperion.LockFreeQueue.Sequential
import Hyperion.LockFreeQueue.Lifetimes
import Hyperion.LockFreeQueue.Refusals
import Hyperion.LockFreeQueue.Order
import Hyperion.LockFreeQueue.Progress
import Hyperion.Logger.Synchronous
import Hyperion.Logger.Wakeup
import Hyperion.Logger.Permits
import Hyperion.RingBuffer.Lifetimes
import Hyperion.Enum.Programs
import Hyperion.Error.Equivalence
import Hyperion.Error.GenericCodes
import Hyperion.Error.ErrorCode
import Hyperion.Error.AnyError
import Hyperion.Memory.Deletions
import Hyperion.Filesystem.Buffers
import Hyperion.RingBuffer.Growth
import Hyperion.RingBuffer.Erasure
import Hyperion.RingBuffer.Emplacement
import Hyperion.RingBuffer.AsList
import Hyperion.RingBuffer.Moves
import Hyperion.LockFreeQueue.Front
import Hyperion.LockFreeQueue.Forced
import Hyperion.LockFreeQueue.Reserve
import Hyperion.LockFreeQueue.Moves
import Hyperion.Error.NTDomain
import Hyperion.Filesystem.Reading
import Hyperion.Filesystem.OpenModes
import Hyperion.Mpl.CallWithIndex
import Hyperion.Error.UuidDigits
import Hyperion.RingBuffer.Retreat
import Hyperion.LockFreeQueue.SingleProducer
import Hyperion.LockFreeQueue.Slots
import Hyperion.Logger.MultiThreaded
import Hyperion.Filesystem.WriteOnly
import Hyperion.Logger.Records
import Hyperion.Logger.Directory
import Hyperion.Logger.ManyCallers
import Hyperion.Logger.Asleep
