import RemoteCall.Client.Reading
import RemoteCall.Cluster
import RemoteCall.Context
import RemoteCall.Decimal.Shortest
import RemoteCall.Logging.Setup
import RemoteCall.Proofs.Balance.Activity
import RemoteCall.Proofs.Balance.Anchors
import RemoteCall.Proofs.Balance.Caching
import RemoteCall.Proofs.Balance.Eligible
import RemoteCall.Proofs.Balance.Relocation
import RemoteCall.Proofs.Balance.Sessions
import RemoteCall.Proofs.Balance.Turns
import RemoteCall.Proofs.Blob.Delimited
import RemoteCall.Proofs.Client.Isolation
import RemoteCall.Proofs.Client.Pooling
import RemoteCall.Proofs.Client.Reading
import RemoteCall.Proofs.Directory.Clearing
import RemoteCall.Proofs.Directory.Delivery
import RemoteCall.Proofs.Directory.RegisteredWeights
import RemoteCall.Proofs.Directory.Routing
import RemoteCall.Proofs.Extension.Instances
import RemoteCall.Proofs.Frame.Bounded
import RemoteCall.Proofs.Frame.RoundTrip
import RemoteCall.Proofs.Frame.Stream
import RemoteCall.Proofs.Server.Answers
import RemoteCall.Proofs.Service.Calls
import RemoteCall.Proofs.Service.Identities
import RemoteCall.Proofs.Settings.Roots
import RemoteCall.Proofs.Settings.Saved
import RemoteCall.Proofs.Workers.Names
import RemoteCall.Proofs.Workers.Settling
import RemoteCall.Server.Connection
import RemoteCall.Settings.Document
import RemoteCall.Settings.Environment
import RemoteCall.Blob.Shape
