import Sosis.AddressSpaces
import Sosis.ArgumentLoops
import Sosis.AtaDrive
import Sosis.ByteRecords
import Sosis.CommandArguments
import Sosis.CommandBadArguments
import Sosis.CommandCopy
import Sosis.CommandCopyPath
import Sosis.CommandFileNames
import Sosis.CommandKill
import Sosis.CommandLine
import Sosis.CommandMove
import Sosis.CommandMoveKeeps
import Sosis.CommandMovePlan
import Sosis.CommandNowhere
import Sosis.CommandPrompt
import Sosis.CommandRemove
import Sosis.CommandShell
import Sosis.CommandStrings
import Sosis.CommandWords
import Sosis.ContextSwitch
import Sosis.CyclicOrder
import Sosis.DirectoryPool
import Sosis.Disk
import Sosis.DiskBlocks
import Sosis.Fat32Abstraction
import Sosis.Fat32AnyName
import Sosis.Fat32Contents
import Sosis.Fat32Driver
import Sosis.Fat32Effects
import Sosis.Fat32Failure
import Sosis.Fat32Find
import Sosis.Fat32History
import Sosis.Fat32Layout
import Sosis.Fat32Lookup
import Sosis.Fat32Names
import Sosis.Fat32Parents
import Sosis.Fat32Placement
import Sosis.Fat32PowerCut
import Sosis.Fat32ReadBack
import Sosis.Fat32Refinement
import Sosis.Fat32Requests
import Sosis.Fat32Storage
import Sosis.Fat32Tree
import Sosis.Fat32Volume
import Sosis.Fat32Walks
import Sosis.Fat32WellFormed
import Sosis.FirstFit
import Sosis.FolderStore
import Sosis.Ia32
import Sosis.Ia32Gates
import Sosis.Ia32Paging
import Sosis.Ia32Windows
import Sosis.Inserter
import Sosis.IntegerText
import Sosis.InterruptControllers
import Sosis.InterruptFrames
import Sosis.InterruptGates
import Sosis.KernelHalf
import Sosis.KernelLoader
import Sosis.KernelRuns
import Sosis.KeyBuffer
import Sosis.Keyboard
import Sosis.LinkedCells
import Sosis.MemoryAccess
import Sosis.MemoryIsolation
import Sosis.MemorySeparation
import Sosis.Paging
import Sosis.PagingFrames
import Sosis.PagingHistory
import Sosis.PathLoops
import Sosis.PathWalk
import Sosis.Pic8259
import Sosis.Preemption
import Sosis.PrefixFill
import Sosis.Process
import Sosis.ProcessContext
import Sosis.ProcessDestroy
import Sosis.ProcessFrames
import Sosis.ProcessIndices
import Sosis.ProcessLoad
import Sosis.ProcessMemory
import Sosis.ProcessReturns
import Sosis.ProcessSteps
import Sosis.ProcessTable
import Sosis.ProcessWaiting
import Sosis.ProgramImage
import Sosis.QueueWalk
import Sosis.RootedLinks
import Sosis.RoundRobin
import Sosis.RowLayout
import Sosis.ScreenBounds
import Sosis.ScreenCells
import Sosis.ScreenGrid
import Sosis.ScreenScroll
import Sosis.ShellPath
import Sosis.StringLoops
import Sosis.StringMemory
import Sosis.StringWords
import Sosis.SystemCalls
import Sosis.SystemFiles
import Sosis.SystemRuns
import Sosis.Terminal
import Sosis.TokenRuns
import Sosis.TornWrites
import Sosis.TracedMemory
import Sosis.TransitionRuns
