import NcclExts.Foundation.Packing
import NcclExts.Foundation.RoundRobin
import NcclExts.Foundation.Interleaving
import NcclExts.Foundation.Nearest
import NcclExts.Foundation.Finishing
import NcclExts.Foundation.FirstByKey
import NcclExts.Foundation.Occupancy
import NcclExts.Ucommd.UnetPerf
import NcclExts.Foundation.Chunks
import NcclExts.Foundation.EarlyExit
import NcclExts.Unet.Comm
import NcclExts.Unet.MrOrder
import NcclExts.Unet.MrFailures
import NcclExts.Unet.MrSharing
import NcclExts.Unet.QpCount
import NcclExts.Unet.RegAtomicity
import NcclExts.Unet.MultiSend
import NcclExts.Unet.Test
import NcclExts.Unet.Irecv
import NcclExts.Unet.Accounting
import NcclExts.Unet.Sending
import NcclExts.Unet.Receiving
import NcclExts.Unet.Completions
import NcclExts.Unet.FatalErrors
import NcclExts.Unet.Charging
import NcclExts.Unet.ChunkBytes
import NcclExts.Unet.ChunkRange
import NcclExts.Unet.Bandwidth
import NcclExts.Unet.Connection
import NcclExts.Unet.Capacity
import NcclExts.Unet.Linked
import NcclExts.Unet.Lockstep
import NcclExts.Foundation.Traced
import NcclExts.Foundation.Records
import NcclExts.Foundation.Text
import NcclExts.Unet.Gid
import NcclExts.Unet.GidPrefix
import NcclExts.Unet.Matching
import NcclExts.Unet.MergedDevs
import NcclExts.Unet.StringList
import NcclExts.Unet.HcaFilter
import NcclExts.Unet.TableBounds
import NcclExts.Unet.PdLifetime
import NcclExts.Unet.Handshake
import NcclExts.Unet.Pairing
import NcclExts.Unet.KeyValidity
import NcclExts.Unet.Attempt
import NcclExts.Unet.ConnectAccept
import NcclExts.Unet.AttemptRules
import NcclExts.Unet.Cleanup
import NcclExts.Unet.PortPairing
import NcclExts.Unet.ProcessCalls
import NcclExts.Unet.Gauges
import NcclExts.Unet.Host
import NcclExts.Unet.SocketMachine
import NcclExts.Unet.SocketRuns
import NcclExts.Unet.Strangers
import NcclExts.Utuner.Plugin
import NcclExts.Utuner.Choice
import NcclExts.Ucommd.BwPrint
import NcclExts.Ucommd.StatsShm
import NcclExts.Ucommd.StatAllocation
import NcclExts.Ucommd.Segment
import NcclExts.Ucommd.Monitor
import NcclExts.Ucommd.RoundTrip
import NcclExts.Ucommd.Robustness
import NcclExts.Ucommd.Refresh
import NcclExts.Ucommd.GenVtopo
import NcclExts.Ucommd.Liveness
import NcclExts.Unet.CtsFifo
import NcclExts.Unet.DataCoverage
import NcclExts.Foundation.SortedMap
import NcclExts.Unet.Immediates
import NcclExts.Unet.InitFailure
import NcclExts.Unet.SizesFifo
import NcclExts.Ucommd.SampleInterval
import NcclExts.Ucommd.TableDisplay
import NcclExts.Ucommd.Throughput
import NcclExts.Ucommd.ShmLifecycle
import NcclExts.Ucommd.MonitorLock
import NcclExts.Unet.AdaptiveRouting
import NcclExts.Unet.Interfaces
import NcclExts.Unet.AddrString
import NcclExts.Unet.Phases
import NcclExts.Unet.Transfers
import NcclExts.Unet.Resumption
import NcclExts.Unet.Conversation
import NcclExts.Foundation.Refinement
import NcclExts.Foundation.TagQueues
import NcclExts.Unet.TagOrder
import NcclExts.Foundation.Recording
import NcclExts.Unet.CallRequests
import NcclExts.Unet.Delivery
import NcclExts.Foundation.Draining
import NcclExts.Unet.Progress
import NcclExts.Foundation.LazyCells
import NcclExts.Unet.Params
import NcclExts.Unet.InitThreads
import NcclExts.Foundation.Copies
import NcclExts.Unet.SourceImages
import NcclExts.Unet.Memory
import NcclExts.Foundation.SortedUpdate
import NcclExts.Foundation.Xml
import NcclExts.Ucommd.VtopoFile
import NcclExts.Ucommd.VtopoReading
