import SerialMux.Library.Search
import SerialMux.Library.FlagFraming
import SerialMux.Library.TableCrc
import SerialMux.Library.BitCrc
import SerialMux.Library.Machine
import SerialMux.Library.FamilyLoop
import SerialMux.Library.NumberedLog
import SerialMux.Library.DigitRuns
import SerialMux.Library.RollingWindow
import SerialMux.Common
import SerialMux.FilterCodec
import SerialMux.Characters
import SerialMux.BoostLog
import SerialMux.LogRotation
import SerialMux.MuxMessageParser
import SerialMux.MuxStream
import SerialMux.InputBound
import SerialMux.Hdlc
import SerialMux.HdlcStream
import SerialMux.HdlcIntegrity
import SerialMux.BasePicard
import SerialMux.Handshake
import SerialMux.NotificationFilter
import SerialMux.Client
import SerialMux.Connection
import SerialMux.SerialMuxOptions
import SerialMux.HexToken
import SerialMux.AuthToken
import SerialMux.AuthenticationGate
import SerialMux.ClientManager
import SerialMux.Teardown
import SerialMux.Registry
import SerialMux.Steps
import SerialMux.NotificationRouting
import SerialMux.Invariant
import SerialMux.Responses
import SerialMux.Shutdown
import SerialMux.Departures
import SerialMux.FailedSubscribe
import SerialMux.Process
import SerialMux.FilterCommit
import SerialMux.World
import SerialMux.Retransmission
import SerialMux.Transparency
import SerialMux.Acknowledgement
import SerialMux.SubscribeBounds
import SerialMux.Attribution
import SerialMux.Agreement
import SerialMux.Library.ConditionVariable
import SerialMux.SyncQueue
import SerialMux.LogThread
import SerialMux.LogRecord
import SerialMux.LogFailures
import SerialMux.SerialRead
import SerialMux.Transport
import SerialMux.Transactions
import SerialMux.Streams
import SerialMux.Session
import SerialMux.Lifecycle
import SerialMux.ResetThreads
import SerialMux.ResetProgress
import SerialMux.Deadlock
import SerialMux.Listening
import SerialMux.HelloLoop
