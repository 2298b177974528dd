import RtThread.Lib.Transition
import RtThread.Lib.Tiling
import RtThread.Lib.Bitmap
import RtThread.Kernel.State
import RtThread.Kernel.Scheduler
import RtThread.Kernel.Thread
import RtThread.Kernel.Ipc
import RtThread.Kernel.Machine
import RtThread.Kernel.Frame
import RtThread.Kernel.Lists
import RtThread.Kernel.ReadyQueue
import RtThread.Kernel.SmpQueues
import RtThread.Kernel.View
import RtThread.Kernel.Calls
import RtThread.Kernel.Refinement
import RtThread.Kernel.ReadyLists
import RtThread.Kernel.Waiting
import RtThread.Kernel.Semaphore
import RtThread.Kernel.Finished
import RtThread.Kernel.Mutex
import RtThread.Kernel.Inheritance
import RtThread.Kernel.Preemption
import RtThread.Lib.Arrivals
import RtThread.Kernel.PriorityOrder
import RtThread.Mem.Heap
import RtThread.Mem.Blocks
import RtThread.Mem.Invariant
import RtThread.Mem.Runs
import RtThread.Lib.SkipList
import RtThread.Timer.Timers
import RtThread.Timer.Rows
import RtThread.Timer.Machine
import RtThread.Timer.Activation
import RtThread.Timer.Order
import RtThread.Timer.Check
import RtThread.Timer.SoftCheck
import RtThread.Ipc.WaitList
import RtThread.Ipc.Event
import RtThread.Lib.Ring
import RtThread.Ipc.Mailbox
import RtThread.Ipc.Delivery
import RtThread.Lib.AtLeast
import RtThread.Ipc.Wakeups
import RtThread.Lib.Linked
import RtThread.Ipc.MessageQueue
import RtThread.Ipc.Messages
import RtThread.Ipc.MessageRuns
import RtThread.Ipc.PriorityOrder
import RtThread.Drivers.RingBuffer
import RtThread.Drivers.RingBufferForce
import RtThread.Drivers.RtcAlarm
import RtThread.Drivers.RtcAlarmRuns
import RtThread.Drivers.Pipe
import RtThread.Drivers.DataQueue
import RtThread.Drivers.DataQueueFifo
import RtThread.Lib.Rounds
import RtThread.Drivers.BlockBuffer
import RtThread.Drivers.BlockPlacement
import RtThread.Drivers.BlockQueue
import RtThread.Signal.Signals
import RtThread.Signal.Moves
import RtThread.Signal.Permits
import RtThread.Mem.MemPool
import RtThread.Mem.PoolBlocks
import RtThread.Mem.PoolWaiters
import RtThread.Vbus.PrioQueue
import RtThread.Vbus.PrioQueueCreate
import RtThread.Vbus.PrioQueueOrder
import RtThread.Vbus.PrioQueueRuns
import RtThread.Vbus.WatermarkQueue
import RtThread.Drivers.Completion
import RtThread.Drivers.WaitQueue
import RtThread.Drivers.WorkQueue
import RtThread.Vbus.Ring
import RtThread.Vbus.Channels
import RtThread.Vbus.ChannelRuns
import RtThread.Lib.Circle
import RtThread.Lib.Segments
import RtThread.Mem.Memheap
import RtThread.Mem.MemheapBlocks
import RtThread.Mem.MemheapCalls
import RtThread.Ipc.WaitingCalls
import RtThread.Signal.Pending
import RtThread.Signal.Masking
import RtThread.Kernel.Printf
import RtThread.Kernel.PrintfTruncation
import RtThread.Kernel.PrintfBounds
import RtThread.Kernel.NumberText
import RtThread.Kernel.IntegerConversion
import RtThread.Lib.Traces
import RtThread.Lib.InPlace
import RtThread.Dfs.FileOpen
import RtThread.Dfs.Poll
import RtThread.Dfs.Select
import RtThread.Dfs.RamfsFile
import RtThread.Dfs.RamfsNames
import RtThread.Drivers.SerialRx
import RtThread.Drivers.SerialTx
import RtThread.Drivers.SerialOpen
import RtThread.Pthreads.RwLockWakes
import RtThread.Pthreads.Barrier
import RtThread.Pthreads.BarrierRuns
import RtThread.Pthreads.Resources
import RtThread.Pthreads.ResourcesRuns
import RtThread.Pthreads.ThreadKeys
import RtThread.Pthreads.ThreadKeysRuns
import RtThread.Dfs.FdRuns
import RtThread.Ymodem.Receive
import RtThread.Finsh.ParserComplete
import RtThread.Finsh.Line
import RtThread.Finsh.LineRuns
import RtThread.Finsh.LineEditor
import RtThread.Finsh.MshSplit
import RtThread.Finsh.Heap
import RtThread.Finsh.HeapBlocks
import RtThread.Finsh.HeapRuns
import RtThread.Finsh.Literals
import RtThread.Drivers.PosixPipeRuns
import RtThread.At.Client
import RtThread.At.ClientRuns
import RtThread.At.RecvList
import RtThread.At.Socket
import RtThread.At.SocketAlloc
import RtThread.At.Getchar
import RtThread.Applications.OledMenu
import RtThread.Applications.MorphDigit
import RtThread.Applications.MorphDigitRuns
import RtThread.Timer.Termination
import RtThread.Timer.Clock
import RtThread.Mem.Effects
import RtThread.Mem.LowestFree
import RtThread.Mem.Requests
import RtThread.Mem.Regions
import RtThread.Mem.UsedMem
import RtThread.Lib.FirstFit
import RtThread.Mem.SlabPages
import RtThread.Mem.SlabPagesRuns
import RtThread.Mem.MemheapAlloc
import RtThread.Mem.MemheapRealloc
import RtThread.Mem.MemheapRuns
import RtThread.Lib.Crc
import RtThread.Ymodem.Check
import RtThread.At.Overflow
import RtThread.Drivers.BlockGets
import RtThread.Drivers.Device
import RtThread.Drivers.PipeLifetime
import RtThread.Lib.ByteMemory
import RtThread.Kernel.MemoryCopy
import RtThread.Mem.MallocAlign
import RtThread.Lib.Numeral
import RtThread.Lib.Carving
import RtThread.Mem.SlabZones
import RtThread.Mem.SlabSizes
import RtThread.Mem.SlabLists
import RtThread.Mem.SlabInv
import RtThread.Mem.SlabMalloc
import RtThread.Mem.SlabFree
import RtThread.Mem.SlabRuns
import RtThread.Mem.SlabAlignment
import RtThread.Mem.SlabZoneLaw
import RtThread.Drivers.Calendar
import RtThread.Finsh.Collector
