import Raspen.Consensus.Equivocation
import Raspen.Consensus.LogChain
import Raspen.Consensus.Rounds
import Raspen.Network.Checkpoint
import Raspen.Network.Durability
import Raspen.Network.Refinement
import Raspen.Consensus.CommittedPrefix
import Raspen.Network.RepairEntry
import Raspen.Consensus.AppendOnly
import Raspen.Consensus.NoGhosts
import Raspen.Consensus.CatchUp
import Raspen.Consensus.SpeculativeReplies
import Raspen.Consensus.Wakeup
import Raspen.Transition.Lockstep
import Raspen.Consensus.Storing
import Raspen.Consensus.PastRounds
import Raspen.Consensus.VoteOrder
import Raspen.Consensus.Redelivery
import Raspen.Consensus.SyncQuorum
import Raspen.Consensus.AlignmentEntry
import Raspen.Consensus.LeaderVotes
import Raspen.Consensus.SpecListeners
import Raspen.Consensus.Overflow
import Raspen.Consensus.CommittedReplies
import Raspen.Consensus.ProofRelay
import Raspen.Consensus.RebuiltChain
import Raspen.Consensus.EtaStar
import Raspen.Consensus.SyncThreshold
import Raspen.Consensus.Restart
import Raspen.Consensus.LogGrowth
import Raspen.Network.Proposal
import Raspen.Network.StateTransfer
import Raspen.Storage.Backends
import Raspen.Storage.FailedRebuild
import Raspen.Sequencer.Order
import Raspen.Node.Serial
import Raspen.Node.Network
import Raspen.Network.Deadlock
import Raspen.Network.Completion
import Raspen.Network.RoundLog
import Raspen.Aspen.Log
import Raspen.Network.Conformance
import Raspen.Storage.CheckpointMeta
