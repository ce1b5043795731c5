import Xty.Message.RoundTrip
import Xty.Message.Bounds
import Xty.Message.WellFormed
import Xty.RbTree.InsertFixUp
import Xty.RbTree.DeleteFixUp
import Xty.RbTree.Unlink
import Xty.General.RedBlack.Search
import Xty.RbTree.Tree
import Xty.RbTree.Elements
import Xty.RbTree.Runs
import Xty.Map.Operations
import Xty.Map.Refinement
import Xty.Map.Runs
import Xty.General.Counting
import Xty.General.Runs
import Xty.Queues.Queue
import Xty.Queues.ThreadQueue
import Xty.Queues.ProcessQueue
import Xty.Facility.Numerals
import Xty.General.SortedTable
import Xty.Server.ClientTable
import Xty.Server.Entities
import Xty.Server.State
import Xty.Server.ActiveClients
import Xty.Server.Delivery
import Xty.Server.Ownership
import Xty.Server.Framing
import Xty.Server.Chunks
import Xty.Session.Forwarding
import Xty.Server.Values
import Xty.Server.DataOrder
import Xty.Server.EntityPools
import Xty.Server.Interference
import Xty.Server.Schedules
import Xty.Server.SendPass
import Xty.Server.Accounting
import Xty.General.Blocks
import Xty.Pools.Allocation
import Xty.Session.Delivered
import Xty.Session.Sending
import Xty.General.RedBlack.Traversal
import Xty.RbTree.Iterator
import Xty.Map.Iterator
import Xty.RbTree.Sentinel
import Xty.RbTree.Identity
import Xty.Map.Identity
import Xty.Server.Descriptors
import Xty.Server.Dispatch
import Xty.Session.Receiving
import Xty.General.Frames
import Xty.Server.Sockets
import Xty.Server.MessageLoop
import Xty.Server.Process
import Xty.Server.Failures
import Xty.Server.Dispatching
import Xty.Facility.ConfGrammar
import Xty.General.Monitor
import Xty.Server.WakeUps
import Xty.Server.Losses
import Xty.Server.TableMemory
import Xty.Queues.LinkedQueue
import Xty.Queues.ProcessEvent
import Xty.Pools.CleanUp
import Xty.Pools.SharedPool
import Xty.Session.RecvThread
import Xty.Session.SendThread
import Xty.Facility.ConfBounds
import Xty.Server.ClientKeys
import Xty.Facility.Strings
import Xty.Facility.ServerConf
import Xty.Facility.ConfText
import Xty.RbTree.Checked
import Xty.General.Objects
import Xty.Arrays.Operations
import Xty.Arrays.Contents
import Xty.Arrays.Runs
import Xty.Network.Accounts
import Xty.Network.Addressing
import Xty.Queues.LockedQueue
import Xty.RbTree.Visit
import Xty.Facility.LogFile
import Xty.Facility.SharedMemory
import Xty.Facility.Singletons
import Xty.Pools.SharedBlocks
import Xty.Network.Rest
