import FrostSubstrate.Lib.Saturating
import FrostSubstrate.Lib.Weighted
import FrostSubstrate.Lib.Ancestry
import FrostSubstrate.Lib.Traced
import FrostSubstrate.Lib.Checked
import FrostSubstrate.Lib.Windows
import FrostSubstrate.Lib.DueQueue
import FrostSubstrate.Lib.Runs
import FrostSubstrate.Lib.MerkleTree
import FrostSubstrate.Lib.Parties
import FrostSubstrate.Lib.PrefixCode
import FrostSubstrate.Lib.FairRuns
import FrostSubstrate.Lib.Polling
import FrostSubstrate.Lib.Separated
import FrostSubstrate.Lib.SharedLock
import FrostSubstrate.Lib.Infixes
import FrostSubstrate.External.Primitives
import FrostSubstrate.External.Substrate
import FrostSubstrate.External.FrostProtocol
import FrostSubstrate.Finality.Errors
import FrostSubstrate.Finality.Status
import FrostSubstrate.Finality.Verdict
import FrostSubstrate.Finality.ChainSafety
import FrostSubstrate.Finality.Authorities
import FrostSubstrate.Finality.Quorum
import FrostSubstrate.Finality.Payload
import FrostSubstrate.Finality.Irrevocability
import FrostSubstrate.Finality.ExactConfidence
import FrostSubstrate.Finality.ExactVerdict
import FrostSubstrate.Finality.OneMoment
import FrostSubstrate.Finality.AuthorityManager
import FrostSubstrate.Finality.VoterCopies
import FrostSubstrate.Finality.AuthoritySchedule
import FrostSubstrate.Finality.AuthorityAdmission
import FrostSubstrate.Finality.StatusCache
import FrostSubstrate.Finality.CacheRuns
import FrostSubstrate.Finality.CacheFinality
import FrostSubstrate.Finality.CacheParticipation
import FrostSubstrate.Finality.BlockNumbers
import FrostSubstrate.Finality.ManagerRuns
import FrostSubstrate.Finality.Tally
import FrostSubstrate.Finality.CacheAges
import FrostSubstrate.Finality.WaitForFinality
import FrostSubstrate.Finality.ChainIds
import FrostSubstrate.Finality.VoterLock
import FrostSubstrate.Finality.AcceptanceWindow
import FrostSubstrate.Finality.Configurations
import FrostSubstrate.Finality.Queries
import FrostSubstrate.Finality.VerdictErrors
import FrostSubstrate.Proof.Generator
import FrostSubstrate.Proof.ObservedTransition
import FrostSubstrate.Proof.Dispatch
import FrostSubstrate.Proof.MerkleRoot
import FrostSubstrate.Proof.Lifetime
import FrostSubstrate.Proof.RegistrationOrder
import FrostSubstrate.Proof.Contents
import FrostSubstrate.Proof.SizeLimit
import FrostSubstrate.Routing.RouterAdapter
import FrostSubstrate.Observer.Target
import FrostSubstrate.Observer.Transition
import FrostSubstrate.Observer.TransitionIdentity
import FrostSubstrate.Observer.Handler
import FrostSubstrate.Observer.FinalizedHead
import FrostSubstrate.Observer.Stream
import FrostSubstrate.Observer.Routing
import FrostSubstrate.Observer.Redelivery
import FrostSubstrate.Observer.Destination
import FrostSubstrate.Observer.Interleaving
import FrostSubstrate.Observer.RoutingOrder
import FrostSubstrate.Observer.StreamRefinement
import FrostSubstrate.Observer.EntryPoint
import FrostSubstrate.Observer.ConcurrentWorkers
import FrostSubstrate.Observer.MerkleObserver
import FrostSubstrate.Observer.Agreement
import FrostSubstrate.Observer.FairWorkers
import FrostSubstrate.Observer.Matching
import FrostSubstrate.Observer.Startup
import FrostSubstrate.Pallet.WatchTargets
import FrostSubstrate.Pallet.Singleton
import FrostSubstrate.Pallet.Registry
import FrostSubstrate.Pallet.Transitions
import FrostSubstrate.Pallet.TransitionHistory
import FrostSubstrate.Pallet.AnnouncedProofs
import FrostSubstrate.Pallet.TargetCodec
