import NodeManagement.RegistryConsistency
import NodeManagement.Reregistration
import NodeManagement.HealthVerdict
import NodeManagement.Serialisability
import NodeManagement.Encoding
import NodeManagement.ReceivePipeline
import NodeManagement.PacketOwnership
import NodeManagement.QueueContract
import NodeManagement.Downcasts
import NodeManagement.Broadcast
import NodeManagement.MeaninglessDatagrams
import NodeManagement.DecodeBounds
import NodeManagement.MessageIdentity
import NodeManagement.PortIsolation
import NodeManagement.CaughtExceptions
import NodeManagement.NodeLocks
import NodeManagement.StateRequests
import NodeManagement.FieldSequences
import NodeManagement.SentDatagrams
import NodeManagement.TimeStamps
import NodeManagement.FailureDetector
import NodeManagement.SilentClient
import NodeManagement.SendLiveness
import NodeManagement.ReceiveLiveness
import NodeManagement.Quit
import NodeManagement.DeploymentSafety
import NodeManagement.QueueLinearization
