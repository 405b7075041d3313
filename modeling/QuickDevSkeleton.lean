import QuickDevSkeleton.Foundations.AppendLog
import QuickDevSkeleton.Foundations.BoundedQueue
import QuickDevSkeleton.Foundations.CountingLoop
import QuickDevSkeleton.Foundations.DigitTree
import QuickDevSkeleton.Foundations.Exec
import QuickDevSkeleton.Foundations.Heap
import QuickDevSkeleton.Foundations.IdPool
import QuickDevSkeleton.Foundations.LinkedList
import QuickDevSkeleton.Foundations.Memory
import QuickDevSkeleton.Foundations.Numerals
import QuickDevSkeleton.Foundations.Parties
import QuickDevSkeleton.Foundations.Printing
import QuickDevSkeleton.Foundations.RingBuffer
import QuickDevSkeleton.Foundations.System
import QuickDevSkeleton.Kernel.Parser
import QuickDevSkeleton.Kernel.Platform
import QuickDevSkeleton.Kernel.Slab
import QuickDevSkeleton.Kernel.UserCopy
import QuickDevSkeleton.Pipe.Refinement
import QuickDevSkeleton.Pipe.Wakeup
import QuickDevSkeleton.Pipe.Balance
import QuickDevSkeleton.Pipe.Linear
import QuickDevSkeleton.Pipe.Openers
import QuickDevSkeleton.MultiMem.Writers
import QuickDevSkeleton.MultiMem.Undo
import QuickDevSkeleton.MultiMem.SeekEnd
import QuickDevSkeleton.KeyBuffer.Readers
import QuickDevSkeleton.KeyQueue.Delivery
import QuickDevSkeleton.Wait.Readers
import QuickDevSkeleton.Wait.Seeks
import QuickDevSkeleton.Mychar.Reads
import QuickDevSkeleton.ChunkedRead.Switch
import QuickDevSkeleton.ChunkedRead.OneFile
import QuickDevSkeleton.Timer.Chains
import QuickDevSkeleton.Deferred.Lifetime
import QuickDevSkeleton.ProcText.Ownership
import QuickDevSkeleton.ProcText.RoundTrip
import QuickDevSkeleton.RadixTree.Report
import QuickDevSkeleton.ProcPage.Contiguous
import QuickDevSkeleton.ProcPage.Fits
import QuickDevSkeleton.Pci.Lifetime
import QuickDevSkeleton.Pci.Undo
import QuickDevSkeleton.Pci.Independence
import QuickDevSkeleton.Pci.Session
import QuickDevSkeleton.AnyPci.Ledger
import QuickDevSkeleton.AnyPci.Window
import QuickDevSkeleton.IoPort.Reads
import QuickDevSkeleton.Platform.Ledger
import QuickDevSkeleton.Atomic.Sums
import QuickDevSkeleton.IrqDisable.Count
import QuickDevSkeleton.Pata.Texts
import QuickDevSkeleton.Pata.Transfer
import QuickDevSkeleton.Pata.Stream
import QuickDevSkeleton.Pata.Agreement
import QuickDevSkeleton.BlockRead.Sleep
import QuickDevSkeleton.BlockRead.Data
import QuickDevSkeleton.Journal.Balance
import QuickDevSkeleton.Journal.Calls
import QuickDevSkeleton.Journal.Contents
import QuickDevSkeleton.Journal.Order
import QuickDevSkeleton.Journal.Isolation
import QuickDevSkeleton.Journal.Writepage
import QuickDevSkeleton.Journal.Credits
import QuickDevSkeleton.Journal.Lookup
import QuickDevSkeleton.Journal.Sync
import QuickDevSkeleton.FileSystem.References
import QuickDevSkeleton.Mount.Matched
import QuickDevSkeleton.Mount.References
import QuickDevSkeleton.Mount.Failures
import QuickDevSkeleton.PageCache.Lookup
import QuickDevSkeleton.PageCache.Readpage
import QuickDevSkeleton.FirstBlock.Readpage
import QuickDevSkeleton.UsbSkel.Errors
import QuickDevSkeleton.UsbSkel.Interface
import QuickDevSkeleton.UsbSkel.Probe
import QuickDevSkeleton.UsbSkel.Progress
import QuickDevSkeleton.Devpts.Allocator
import QuickDevSkeleton.Devpts.Directory
import QuickDevSkeleton.Devpts.RoundTrip
