import NuLinkCore.Lib.KeyedSet
import NuLinkCore.Lib.Numeral
import NuLinkCore.Acumen.FleetState
import NuLinkCore.Acumen.FleetSensor
import NuLinkCore.Network.Learner
import NuLinkCore.Network.LearningRound
import NuLinkCore.Network.LearningLoop
import NuLinkCore.Lib.Split
import NuLinkCore.Network.Framing
import NuLinkCore.Network.Verification
import NuLinkCore.Network.Server
import NuLinkCore.Network.FleetMerge
import NuLinkCore.Network.FleetExchange
import NuLinkCore.Lib.Execution
import NuLinkCore.Utilities.WorkerPool.Model
import NuLinkCore.Utilities.WorkerPool.Counting
import NuLinkCore.Utilities.WorkerPool.Progress
import NuLinkCore.Utilities.WorkerPool.Results
import NuLinkCore.Utilities.WorkerPool.Attempt
import NuLinkCore.Network.Retrieval.Plan
import NuLinkCore.Utilities.WorkerPool.Termination
import NuLinkCore.Network.Retrieval.Client
import NuLinkCore.Network.Retrieval.Results
import NuLinkCore.Characters.Bob
import NuLinkCore.Lib.StepFunction
import NuLinkCore.Lib.Primality
import NuLinkCore.Lib.Program
import NuLinkCore.Lib.MixedAddition
import NuLinkCore.Contracts.Evm
import NuLinkCore.Contracts.UmbralDeserializer
import NuLinkCore.Contracts.SignatureVerifier
import NuLinkCore.Contracts.ReEncryption.Curve
import NuLinkCore.Contracts.ReEncryption.PointAddition
import NuLinkCore.Contracts.ReEncryption.Multiplication
import NuLinkCore.Contracts.ReEncryption.Validator
import NuLinkCore.Contracts.ReEncryption.Soundness
import NuLinkCore.Contracts.Proxy.Dispatcher
import NuLinkCore.Contracts.Proxy.History
import NuLinkCore.Contracts.Snapshot
import NuLinkCore.Blockchain.WorkTracker.Model
import NuLinkCore.Blockchain.WorkTracker.Discipline
import NuLinkCore.Blockchain.WorkTracker.Tracking
import NuLinkCore.Policy.Reservoir
import NuLinkCore.Policy.Sampling
import NuLinkCore.Policy.Policies
import NuLinkCore.Characters.Alice
import NuLinkCore.Datastore.Key
import NuLinkCore.Datastore.Record
import NuLinkCore.Datastore.Describe
import NuLinkCore.Lib.Scan
import NuLinkCore.Datastore.Written
import NuLinkCore.Datastore.Query
import NuLinkCore.Lib.Hex
import NuLinkCore.Lib.Json.Lexer
import NuLinkCore.Lib.Json.Literal
import NuLinkCore.Lib.Json.Value
import NuLinkCore.Crypto.Keystore
import NuLinkCore.Lib.Base64
import NuLinkCore.Policy.Identity
import NuLinkCore.Characters.TreasureMaps
import NuLinkCore.Blockchain.Interface.Web3
import NuLinkCore.Blockchain.Interface.Send
import NuLinkCore.Blockchain.Interface.Nonces
import NuLinkCore.Blockchain.Agents.WeightedSampler
import NuLinkCore.Policy.ReservoirStream
import NuLinkCore.Blockchain.Agents.Pagination
import NuLinkCore.Utilities.Porter
import NuLinkCore.Characters.Revocation
import NuLinkCore.Acumen.Archive
import NuLinkCore.Network.HostileFrames
import NuLinkCore.Network.Refusal
import NuLinkCore.Blockchain.Interface.Receipts
import NuLinkCore.Characters.Ursula.Announcement
import NuLinkCore.Characters.Ursula.Services
import NuLinkCore.Network.BondedTracker
import NuLinkCore.Lib.Location
import NuLinkCore.Network.CertificateCache
import NuLinkCore.Lib.Fallback
import NuLinkCore.Lib.IpAddress
import NuLinkCore.Utilities.ExternalAddress
import NuLinkCore.Network.Remembered
import NuLinkCore.Network.Retrieval.Availability
import NuLinkCore.Network.Retrieval.PlanRuns
import NuLinkCore.Network.Retrieval.Targets
import NuLinkCore.Utilities.WorkerPool.InOrder
import NuLinkCore.Network.Retrieval.HandOut
import NuLinkCore.Policy.Payment
import NuLinkCore.Blockchain.Agents.Timeouts
import NuLinkCore.Blockchain.Agents.SamplingRuns
import NuLinkCore.Datastore.RoundTrip
import NuLinkCore.Blockchain.WorkTracker.Retries
import NuLinkCore.Lib.Json.Encoder
import NuLinkCore.Blockchain.Registry.Local
import NuLinkCore.Blockchain.Registry.Classes
import NuLinkCore.Blockchain.Registry.ContentHash
import NuLinkCore.Config.Base
import NuLinkCore.Config.Character
import NuLinkCore.Config.Persistence
import NuLinkCore.Config.RoundTrip
import NuLinkCore.Lib.Lowercase
import NuLinkCore.Policy.CardLookup
import NuLinkCore.Crypto.KeystoreName
import NuLinkCore.Contracts.Words
import NuLinkCore.Lib.Ecdsa
import NuLinkCore.Contracts.ReEncryption.RecoveredSigner
import NuLinkCore.Lib.Cells
import NuLinkCore.Contracts.UmbralSerialization
import NuLinkCore.Contracts.Memory
import NuLinkCore.Contracts.UmbralMemory
import NuLinkCore.Lib.Tiling
import NuLinkCore.Blockchain.Events
import NuLinkCore.Contracts.AdditionalMath
import NuLinkCore.Contracts.Erc20
import NuLinkCore.Contracts.Allowances
import NuLinkCore.Datastore.WorkOrders
import NuLinkCore.Lib.Uuid
import NuLinkCore.Network.Reencryption
import NuLinkCore.Network.Retrieval.Served
import NuLinkCore.Characters.Delivery
import NuLinkCore.Lib.Replication
import NuLinkCore.Network.Gossip.Directory
import NuLinkCore.Network.Gossip.Latest
import NuLinkCore.Network.Gossip.News
