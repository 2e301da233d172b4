import MartCommon.Library.StepSystem
import MartCommon.Mt.Mailbox
import MartCommon.Mt.TrippleBuffer
import MartCommon.Mt.TrippleBufferHistory
import MartCommon.Library.Fifo
import MartCommon.Mt.Channel
import MartCommon.Mt.FastMutex
import MartCommon.Common.StringView
import MartCommon.Common.ToIntegral
import MartCommon.Netlib.ByteOrder
import MartCommon.Netlib.AddressGrammar
import MartCommon.Netlib.EndpointText
import MartCommon.Library.Ownership
import MartCommon.Netlib.PortLayer
import MartCommon.Netlib.RaiiSocket
import MartCommon.Netlib.RaiiSocketOwnership
import MartCommon.Netlib.Acceptor
import MartCommon.Netlib.AcceptorStages
import MartCommon.Library.Pool
import MartCommon.Library.RefCount
import MartCommon.Library.RefCountMachine
import MartCommon.Library.RefCountLedger
import MartCommon.Library.RefCountSafety
import MartCommon.Mba.ImStr
import MartCommon.Mba.Operations
import MartCommon.Mba.Origins
import MartCommon.Mba.RefCounting
import MartCommon.Mba.Dangling
import MartCommon.Mba.ZeroTermination
import MartCommon.Netlib.RaiiSocketFrame
import MartCommon.Common.ArrayView
import MartCommon.Netlib.EndpointGrammar
import MartCommon.Library.Lexicographic
import MartCommon.Mba.StringViewMixin
import MartCommon.Netlib.AcceptResult
import MartCommon.Netlib.TcpSend
import MartCommon.Library.Cutting
import MartCommon.Library.RefCountReturns
import MartCommon.Mba.Shown
import MartCommon.Mba.SplitFull
import MartCommon.Mba.SplitOn
import MartCommon.Experimental.Link
import MartCommon.Experimental.LinkConsistency
import MartCommon.Experimental.LinkTracking
import MartCommon.Experimental.LinkAssignment
import MartCommon.Experimental.LinkTargetAssignment
import MartCommon.Experimental.LinkLifetime
import MartCommon.Experimental.CircularBuffer
import MartCommon.Experimental.CircularBufferOverrun
import MartCommon.Experimental.RcPtr
import MartCommon.Library.SlotLedger
import MartCommon.Experimental.StoragePool
import MartCommon.Experimental.StoragePoolShares
import MartCommon.Experimental.StoragePoolOperations
import MartCommon.Experimental.StorageLifecycle
import MartCommon.Experimental.StorageRun
import MartCommon.Experimental.StorageSafety
import MartCommon.Experimental.StorageConstruction
import MartCommon.Experimental.StorageLeaks
import MartCommon.Library.Integral
import MartCommon.Library.CountedLoop
import MartCommon.Common.MartVec
import MartCommon.Common.MatrixProduct
import MartCommon.Common.MatrixBlocks
import MartCommon.Common.VecOrder
import MartCommon.Library.BoundedWrites
import MartCommon.Mba.CharBuffer
import MartCommon.Mba.Concatenation
import MartCommon.Library.RefCountServing
import MartCommon.Mba.CreateZstr
import MartCommon.Experimental.LinAlg.Matrix
import MartCommon.Library.OutputStream
import MartCommon.Log.Logger
import MartCommon.Common.Narrow
import MartCommon.Common.PrintWrappers
import MartCommon.Log.Indentation
import MartCommon.Library.IteratorLoop
import MartCommon.Common.Ranges
import MartCommon.Experimental.VRange
import MartCommon.Log.HexDump
import MartCommon.Experimental.DynLimArray
import MartCommon.Library.Lifetime
import MartCommon.Netlib.NonTrivialReturnValue
import MartCommon.Experimental.DynArrayTriv
import MartCommon.Library.Blocks
import MartCommon.Netlib.DgramSocket
import MartCommon.Library.CString
import MartCommon.Netlib.InetNetToPres
import MartCommon.Netlib.UnixEndpoint
import MartCommon.Mba.DynamicArray
import MartCommon.Mba.DynamicArrayRuns
import MartCommon.Common.ArrayViewCopy
import MartCommon.Experimental.Ip
import MartCommon.Common.Algorithm
import MartCommon.Netlib.Datagram
import MartCommon.Netlib.DatagramEndpoints
import MartCommon.Netlib.DatagramInbox
import MartCommon.Library.RefCountAtomic
import MartCommon.Mba.TextSemantics
import MartCommon.Log.Sink
import MartCommon.Log.SinkSafety
import MartCommon.Log.SinkDelivery
import MartCommon.Library.Monitor
import MartCommon.Mt.ChannelWaiting
import MartCommon.Mt.ChannelWakeups
import MartCommon.Mt.FastMutexProgress
import MartCommon.Common.MartTime
import MartCommon.Mt.Thread
import MartCommon.Netlib.TcpStream
import MartCommon.Netlib.TcpSocket
import MartCommon.Experimental.IpEndpoint
