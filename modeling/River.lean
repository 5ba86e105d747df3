import River.Contracts.ChannelRoles
import River.Contracts.ClaimerBridge
import River.Contracts.DelegationLock
import River.Contracts.Delegators
import River.Contracts.Diamond
import River.Contracts.Entitled
import River.Contracts.EntitlementChecker
import River.Contracts.GenesisBytes
import River.Contracts.JoinSettlement
import River.Contracts.Prepay
import River.Contracts.Referrals
import River.Contracts.RegistryPlacement
import River.Contracts.RewardClaims
import River.Contracts.RewardConservation
import River.Contracts.RuleRequests
import River.Contracts.Solvency
import River.Contracts.StreamPages
import River.Contracts.SupplyLimit
import River.Contracts.TieredPricing
import River.Contracts.VotingPower
import River.Contracts.WalletLinkSignatures
import River.Node.Auth.MembershipChecks
import River.Node.Auth.Wallets
import River.Node.Crypto.ChainMonitor
import River.Node.Crypto.OnChainConfig
import River.Node.Crypto.PricePolicy
import River.Node.Crypto.TransactionPool
import River.Node.Events.DeviceLists
import River.Node.Events.SortedSnapshots
import River.Node.Nodes.Placement
import River.Node.Rpc.AddParsedEvent
import River.Node.Rpc.Archiver
import River.Node.Rpc.ArchiverTasks
import River.Node.Rpc.HeaderChain
import River.Node.Rpc.MembershipAgreement
import River.Node.Rpc.QuorumPool
import River.Node.Rpc.Reload
import River.Node.Rpc.RemoteStreams
import River.Node.Rpc.SyncLocks
import River.Node.Rpc.SyncStreams
import River.Node.Rules.GroupMembers
import River.Node.Rules.Invites
import River.Node.Rules.KeyExchange
import River.Node.Rules.RuleBuilder
import River.Sdk.Members
import River.Sdk.SyncLoop
import River.Web3.Conjunction
import River.Web3.RoundTrip
import River.Xchain.Evaluate
import River.Xchain.Pipeline
