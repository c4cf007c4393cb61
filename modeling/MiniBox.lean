import MiniBox.BestFit
import MiniBox.BlockCanvas
import MiniBox.BlockRegistry
import MiniBox.BlockTwins
import MiniBox.CarefulRuns
import MiniBox.Coroutines
import MiniBox.ElfLoader
import MiniBox.FailedLoads
import MiniBox.FailedSyscalls
import MiniBox.FileDeterminism
import MiniBox.FileProbes
import MiniBox.FileRefinement
import MiniBox.FipsDigest
import MiniBox.FlatObjects
import MiniBox.FreePages
import MiniBox.FutexLocks
import MiniBox.FutexRequeue
import MiniBox.GreenThreads
import MiniBox.GuestHeaps
import MiniBox.HeaderRejection
import MiniBox.HostRuns
import MiniBox.ImageBounds
import MiniBox.InteropCode
import MiniBox.Jsmn
import MiniBox.KernelLockstep
import MiniBox.LayoutSoundness
import MiniBox.LoadProtection
import MiniBox.LoadedImage
import MiniBox.LoaderCalls
import MiniBox.NestedCalls
import MiniBox.PlainRuns
import MiniBox.ProgramBreak
import MiniBox.RangeContainment
import MiniBox.Remapping
import MiniBox.Rewind
import MiniBox.RoundRobin
import MiniBox.SavedFiles
import MiniBox.SealedImage
import MiniBox.Settings
import MiniBox.Sha256Streaming
import MiniBox.StackSweep
import MiniBox.StackWrites
import MiniBox.StreamCuts
import MiniBox.ThreadRecords
import MiniBox.ThreadRuns
import MiniBox.ThreadScans
import MiniBox.ThreadSwitches
import MiniBox.Thunks
import MiniBox.Transitions
import MiniBox.VectoredFiles
import MiniBox.WindowsBlock
import MiniBox.WindowsMoves
import MiniBox.WordMemory
import MiniBox.X86
