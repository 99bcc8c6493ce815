import Krabka.FetchSession.Agreement
import Krabka.Producer.Queue
import Krabka.Producer.Order
import Krabka.Producer.Sequences
import Krabka.Producer.Commit
import Krabka.Coordination.RecordCodec
import Krabka.Coordination.RoleState
import Krabka.Consumer.CommitAsync
import Krabka.Consumer.ReadCommitted
import Krabka.Consumer.Ownership
import Krabka.Consumer.Rejoin
import Krabka.Consumer.Truncation
import Krabka.Consumer.CommitSync
import Krabka.Consumer.CommitTasks
import Krabka.Assignor.Rounds
import Krabka.Assignor.Cyclic
import Krabka.Share.Records
import Krabka.Share.Session
import Krabka.Producer.Recoverability
import Krabka.Producer.Guards
import Krabka.Consumer.TargetAssignment
import Krabka.Consumer.Membership
import Krabka.Connection.Routing
import Krabka.Connection.Closing
import Krabka.Connection.Reauthentication
import Krabka.Core.MetadataTopics
import Krabka.Core.PoolAddresses
import Krabka.Assignor.Stickiness
import Krabka.Consumer.HeartbeatFields
import Krabka.Core.Telemetry
