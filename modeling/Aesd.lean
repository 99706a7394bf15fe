import Aesd.CyclicWindowProofs
import Aesd.BlockLookupProofs
import Aesd.SlidingReadProofs
import Aesd.SlotQueueProofs
import Aesd.TransitionProofs
import Aesd.DescriptorTableProofs
import Aesd.ScannerProofs
import Aesd.BufferedStreamProofs
import Aesd.MachineProofs
import Aesd.TemperaryBufferProofs
import Aesd.CircularBufferProofs
import Aesd.LookupProofs
import Aesd.DriverProofs
import Aesd.HistoryProofs
import Aesd.CheckedHeapProofs
import Aesd.KernelMemoryProofs
import Aesd.KernelDriverProofs
import Aesd.ModuleLifeProofs
import Aesd.SeekProofs
import Aesd.AtomicityProofs
import Aesd.ReaderProofs
import Aesd.EvictionProofs
import Aesd.RingRunsProofs
import Aesd.PositionProofs
import Aesd.LlseekProofs
import Aesd.CommandParserProofs
import Aesd.CommandGrammarProofs
import Aesd.CommandReadsProofs
import Aesd.ClientHandlerProofs
import Aesd.SegmentationProofs
import Aesd.ServerProofs
import Aesd.LockProofs
import Aesd.ThreadTableProofs
import Aesd.ShutdownProofs
import Aesd.OwnershipProofs
import Aesd.StartupProofs
import Aesd.DescriptorLedgerProofs
import Aesd.IsolationProofs
import Aesd.ReceiveCopyProofs
import Aesd.HandlerMemoryProofs
import Aesd.ReadBackProofs
import Aesd.TerminationProofs
import Aesd.ServerLogProofs
import Aesd.ServiceProofs
import Aesd.SeekAnswerProofs
