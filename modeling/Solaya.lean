import Solaya.Core.Loop
import Solaya.Core.Machine
import Solaya.Core.Vec
import Solaya.Klibc.Util
import Solaya.Memory.PageAllocator
import Solaya.Memory.PageAllocatorInvariant
import Solaya.Memory.PageTableEntry
import Solaya.Memory.PageTables
import Solaya.Memory.PageTableWalk
import Solaya.Memory.PageTableMap
import Solaya.Memory.PageTableRefinement
import Solaya.Memory.PageTableUnmap
import Solaya.Memory.PageTableBookkeeping
import Solaya.Headers
import Solaya.Processes.Process
import Solaya.Memory.PageTableProgress
import Solaya.Memory.PageTableRanges
import Solaya.Syscalls.MmOps
import Solaya.Syscalls.MmOpsSafety
import Solaya.Memory.Heap
import Solaya.Core.Bytes
import Solaya.Core.OnesComplement
import Solaya.Net.Checksum
import Solaya.Net.Packets
import Solaya.Net.Receive
import Solaya.Net.TcpConnection
import Solaya.Net.TcpEndpoints
import Solaya.Net.Sockets
import Solaya.Processes.Signal
import Solaya.Processes.Thread
import Solaya.Processes.ProcessTable
import Solaya.Processes.Scheduler
import Solaya.Processes.Futex
import Solaya.Processes.KernelTasks
import Solaya.Core.FirstFree
import Solaya.Core.Fallible
import Solaya.Processes.FdTable
import Solaya.Syscalls.IoOps
import Solaya.Processes.WaitChild
import Solaya.Io.Pipe
import Solaya.Klibc.ConsumableBuffer
import Solaya.Syscalls.ExecOps
import Solaya.Io.TtyDevice
import Solaya.Klibc.WritableBuffer
import Solaya.Processes.Loader
import Solaya.Processes.LoaderImage
import Solaya.Klibc.Elf
import Solaya.Core.Ring
import Solaya.Drivers.VirtQueue
import Solaya.Drivers.VirtQueueSystem
import Solaya.Drivers.Block
import Solaya.Processes.Timer
import Solaya.Core.Leb128
import Solaya.Klibc.Leb128
import Solaya.Fs.Ext2
import Solaya.Core.Simulation
import Solaya.Fs.Tmpfs
import Solaya.Fs.OpenFile
import Solaya.Fs.Vfs
import Solaya.Syscalls.FsOps
import Solaya.Syscalls.FileDescriptors
import Solaya.Klibc.ArrayVec
import Solaya.Debugging.EhFrameParser
import Solaya.Debugging.Unwinder
import Solaya.Debugging.CallFrameTable
import Solaya.Debugging.UnwinderRefinement
import Solaya.DeviceTree.Node
import Solaya.DeviceTree.Flattened
import Solaya.DeviceTree.Search
