import Qpid.Broker.Framing
import Qpid.Broker.Session
import Qpid.Broker.SessionSpec
import Qpid.Broker.ExecutionSync
import Qpid.Broker.Accept
import Qpid.Broker.Threads
import Qpid.Broker.Invariant
import Qpid.Broker.Completion
import Qpid.Broker.WellFramed
import Qpid.Broker.Registry
import Qpid.Broker.SyncQueue
import Qpid.Client.Options
import Qpid.Client.Urls
import Qpid.Client.Connect
import Qpid.Broker.Faults
import Qpid.Client.Sessions
