import CodingAgent.Core.Lts
import CodingAgent.L1Domain.Timestamp
import CodingAgent.L2Store.Contract
import CodingAgent.L2Store.Atomicity
import CodingAgent.L2Store.Chains
import CodingAgent.L2Store.Identity
import CodingAgent.L2Store.Readable
import CodingAgent.L5Web.Session
import CodingAgent.L5Web.Composer
import CodingAgent.L5Web.SseParser
import CodingAgent.L5Web.Delivery
import CodingAgent.L5Web.ServiceConvergence
import CodingAgent.L3Api.Replay
import CodingAgent.L4App.Dispatcher
import CodingAgent.L4App.Authorization
import CodingAgent.L4App.Scheduling
import CodingAgent.L4App.CleanShutdown
import CodingAgent.L4App.Attribution
import CodingAgent.L4App.GateContract
import CodingAgent.L4App.QuitRace
import CodingAgent.L4App.StoreWriter
import CodingAgent.L4App.DegradedRecovery
import CodingAgent.L4App.Cancel
import CodingAgent.L4App.RepositoryDiscovery
import CodingAgent.L4App.SingleInstance
import CodingAgent.L4App.Shutdown
import CodingAgent.L4App.Clock
import CodingAgent.L4App.TaskOrder
import CodingAgent.L5Web.SseDecode
import CodingAgent.L4App.Descriptor
import CodingAgent.L4App.StaticAssets
import CodingAgent.L5Web.RetryChain
import CodingAgent.L5Web.CancelCommands
import CodingAgent.L4App.Authenticated
import CodingAgent.L5Web.ApiAgreement
import CodingAgent.L5Web.ApiReplies
import CodingAgent.L5Web.Launch
import CodingAgent.L5Web.StreamRead
import CodingAgent.L4App.Launches
import CodingAgent.L5Web.Creation
