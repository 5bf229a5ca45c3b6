import Stakan.Library.LabelledRun
import Stakan.Library.History
import Stakan.Library.MultiIndex
import Stakan.Library.WordSum
import Stakan.Library.Grouping
import Stakan.Library.Alternating
import Stakan.Library.Delimited
import Stakan.Library.FixedWidth
import Stakan.Library.SelfDelimiting
import Stakan.Library.LockedObject
import Stakan.WireFormat
import Stakan.ToString
import Stakan.OrderBook.Invariant
import Stakan.OrderBook.Refinement
import Stakan.OrderBook.Interleaving
import Stakan.OrderBook.TopSnapshot
import Stakan.OrderBook.SnapshotRounds
import Stakan.OrderBook.Sequential
import Stakan.OrderBook.AuditLog
import Stakan.OrderBook.Best
import Stakan.OrderBook.Levels
import Stakan.OrderBook.Observations
import Stakan.OrderBook.Commutation
import Stakan.OrderBook.IntQuantities
import Stakan.OrderBook.Replacement
import Stakan.OrderBook.LockStep
import Stakan.OrderBook.Reflection
import Stakan.ClientList.Sessions
import Stakan.ClientList.Broadcast
import Stakan.ClientList.Frame
import Stakan.ClientList.HeldOrders
import Stakan.ClientList.Concurrent
import Stakan.TCPServer.HandleMessage
import Stakan.TCPServer.Takeover
import Stakan.TCPServer.Server
import Stakan.TCPServer.Delivery
import Stakan.TCPServer.Numbers
import Stakan.TCPServer.SessionWrites
import Stakan.TCPServer.SessionSilence
import Stakan.TCPServer.Exchange
import Stakan.TCPServer.Framing
import Stakan.TcpClient.ReadLoop
import Stakan.TcpClient.Protocol
import Stakan.TcpClient.Subscribe
import Stakan.TcpClient.Injection
import Stakan.TcpClient.Alternation
import Stakan.TcpClient.Joining
import Stakan.DOMManager.BroadcastLoop
import Stakan.DOMManager.Restart
import Stakan.DOMManager.Drains
import Stakan.ClientLib.State
import Stakan.ClientLib.Tickers
import Stakan.Broadcaster.QueueHistory
import Stakan.Broadcaster.QueueMonitor
import Stakan.Broadcaster.Threading
import Stakan.Broadcaster.Absorption
import Stakan.Broadcaster.Payload
import Stakan.Broadcaster.Shutdown
import Stakan.Broadcaster.Escapes
