import Wave300.Addba.Aggregation
import Wave300.Addba.Delba
import Wave300.Addba.Frame
import Wave300.Addba.Grants
import Wave300.Addba.Handlers
import Wave300.Addba.Letters
import Wave300.Addba.Locking
import Wave300.Addba.Messages
import Wave300.Addba.Receiver
import Wave300.Addba.Rejects
import Wave300.Addba.Reordering
import Wave300.Addba.Retransmission
import Wave300.Addba.Steps
import Wave300.Addba.System
import Wave300.Addba.Tid
import Wave300.Addba.Transmitter
import Wave300.Addba.Waiting
import Wave300.Addba.Window
import Wave300.Cache.Entries
import Wave300.Cache.Iteration
import Wave300.Cache.Order
import Wave300.Cache.Persistence
import Wave300.Config.Acl
import Wave300.Config.AddbaCfg
import Wave300.Config.CoreCfg
import Wave300.Core.Activation
import Wave300.Core.Bookkeeping
import Wave300.Core.Disconnect
import Wave300.Core.Preactivation
import Wave300.Core.ScanReport
import Wave300.Flow.Control
import Wave300.Flow.Exact
import Wave300.Frame.Bounds
import Wave300.Frame.Elements
import Wave300.Frame.Handlers
import Wave300.Frame.Storage
import Wave300.Frame.VendorSpecific
import Wave300.Frame.Walk
import Wave300.Hash.Enumeration
import Wave300.Hash.Map
import Wave300.Hash.Table
import Wave300.Hstdb.Default
import Wave300.Hstdb.Hosts
import Wave300.Hstdb.References
import Wave300.L2nat.Datapath
import Wave300.L2nat.DhcpOptions
import Wave300.L2nat.DhcpRequest
import Wave300.L2nat.DhcpSound
import Wave300.L2nat.Frames
import Wave300.L2nat.Hosts
import Wave300.L2nat.Map
import Wave300.L2nat.Sound
import Wave300.L2nat.Table
import Wave300.Lib.Accounts
import Wave300.Lib.BigEndian
import Wave300.Lib.Bits
import Wave300.Lib.Buckets
import Wave300.Lib.Checked
import Wave300.Lib.Circular
import Wave300.Lib.Columns
import Wave300.Lib.Endian
import Wave300.Lib.Fifo
import Wave300.Lib.FixedPoint
import Wave300.Lib.Keyed
import Wave300.Lib.Locks
import Wave300.Lib.Mailbox
import Wave300.Lib.Memory
import Wave300.Lib.Options
import Wave300.Lib.Reorder
import Wave300.Lib.Rings
import Wave300.Lib.Routine
import Wave300.Lib.Slots
import Wave300.Lib.Stages
import Wave300.Lib.Strings
import Wave300.Lib.Tlv
import Wave300.Lib.Tokens
import Wave300.Lib.Trace
import Wave300.Lib.Undo
import Wave300.Mcast.Groups
import Wave300.Mcast.Membership
import Wave300.Mcast.Messages
import Wave300.Mcast.Records
import Wave300.Mcast.RestoreMac
import Wave300.Mmb.Card
import Wave300.Mmb.CardFrame
import Wave300.Mmb.CardTable
import Wave300.Mmb.DataRings
import Wave300.Mmb.Download
import Wave300.Mmb.IndRing
import Wave300.Mmb.Memory
import Wave300.Mmb.Ownership
import Wave300.Mmb.Pending
import Wave300.Mmb.Restore
import Wave300.Mmb.Retry
import Wave300.Mmb.RxSlots
import Wave300.Mmb.RxSound
import Wave300.Mmb.Slots
import Wave300.Mmb.Statistics
import Wave300.Mmb.TxPool
import Wave300.Osal.Timer
import Wave300.ParamDb.Strings
import Wave300.Power.Atomic
import Wave300.Power.Coc
import Wave300.Power.Pcoc
import Wave300.Ps.Counter
import Wave300.Ps.Indications
import Wave300.Recovery.Bookkeeping
import Wave300.Recovery.Escalation
import Wave300.Recovery.Pace
import Wave300.Recovery.Rendezvous
import Wave300.Recovery.Rounds
import Wave300.Recovery.Termination
import Wave300.Recv.Buffers
import Wave300.Recv.Conservation
import Wave300.Recv.Frame
import Wave300.Recv.Hosts
import Wave300.Recv.Spending
import Wave300.Recv.Traffic
import Wave300.Recv.Transmit
import Wave300.Replay.Detection
import Wave300.Replay.Protection
import Wave300.Replay.Reordering
import Wave300.Requests.Abilities
import Wave300.Requests.Answers
import Wave300.Requests.Front
import Wave300.Requests.Progress
import Wave300.Rod.Bookkeeping
import Wave300.Rod.Ideal
import Wave300.Rod.Lifetime
import Wave300.Rod.Order
import Wave300.Rod.Ownership
import Wave300.Rod.Queue
import Wave300.Rod.Refinement
import Wave300.Rx.Bounds
import Wave300.Rx.Conversion
import Wave300.Rx.Deaggregation
import Wave300.Rx.Ethernet
import Wave300.Rx.Exact
import Wave300.Rx.Links
import Wave300.Rx.Subframes
import Wave300.Scanning.Balance
import Wave300.Scanning.Results
import Wave300.Scanning.Sequence
import Wave300.Scanning.Steps
import Wave300.Scanning.Termination
import Wave300.Scanning.Waiting
import Wave300.Security.Invariant
import Wave300.Security.ReadBack
import Wave300.Security.Recovery
import Wave300.Security.Replica
import Wave300.Security.Requests
import Wave300.Security.State
import Wave300.Serializer.Completion
import Wave300.Serializer.Queues
import Wave300.Serializer.Visibility
import Wave300.Serializer.Wakeup
import Wave300.Serializer.Worker
import Wave300.Sq.Accounting
import Wave300.Sq.Admission
import Wave300.Sq.Conservation
import Wave300.Sq.Flush
import Wave300.Sq.InFlight
import Wave300.Sq.Limits
import Wave300.Sq.NullPacket
import Wave300.Sq.Queue
import Wave300.Sq.Rounds
import Wave300.Sq.Sound
import Wave300.Sta.Entry
import Wave300.Sta.Revival
import Wave300.Startup.Driver
import Wave300.Startup.Refinement
import Wave300.Startup.Runs
import Wave300.Startup.Slots
import Wave300.Startup.Steps
import Wave300.Startup.Vaps
import Wave300.Ta.Criteria
import Wave300.Ta.Intervals
import Wave300.Ta.Measure
import Wave300.Ta.Reports
import Wave300.Ta.Schedule
import Wave300.Ta.Stations
import Wave300.Txmm.Base
import Wave300.Txmm.Callbacks
import Wave300.Txmm.Conserving
import Wave300.Txmm.Handover
import Wave300.Txmm.Partition
import Wave300.Txmm.Restore
import Wave300.Txmm.Submission
import Wave300.Txmm.Timeouts
import Wave300.Wds.Deletion
import Wave300.Wds.OnBeacon
import Wave300.Wds.Peers
import Wave300.Wds.Progress
import Wave300.Wds.Reactions
import Wave300.Wds.References
import Wave300.Wss.Chain
import Wave300.Wss.Counting
import Wave300.Wss.Merge
import Wave300.Wss.Tree
