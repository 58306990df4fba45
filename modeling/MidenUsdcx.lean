import MidenUsdcx.Lib.Prog
import MidenUsdcx.Lib.Trace
import MidenUsdcx.Lib.Table
import MidenUsdcx.Attester.Burn
import MidenUsdcx.Attester.Config
import MidenUsdcx.Attester.Verify
import MidenUsdcx.Attester.Submission
import MidenUsdcx.Attester.Payout
import MidenUsdcx.Attester.Store
import MidenUsdcx.Attester.World
import MidenUsdcx.Attester.Service
import MidenUsdcx.Attester.StoreSpec
import MidenUsdcx.Attester.Protocol
import MidenUsdcx.Attester.Invariant
import MidenUsdcx.Attester.Worklists
import MidenUsdcx.Attester.Rules
import MidenUsdcx.Attester.Conversation
import MidenUsdcx.Attester.Refinement
import MidenUsdcx.Attester.Cycle
import MidenUsdcx.Attester.History
import MidenUsdcx.Attester.Reopen
import MidenUsdcx.Attester.Limit
import MidenUsdcx.Attester.Discovery
import MidenUsdcx.Attester.Record
import MidenUsdcx.Attester.Holds
import MidenUsdcx.Attester.Republish
import MidenUsdcx.Attester.Prepare
import MidenUsdcx.Attester.Divergence
import MidenUsdcx.Attester.Upgrade
import MidenUsdcx.Attester.Truthful
import MidenUsdcx.Attester.TooSmall
import MidenUsdcx.Attester.Encoding
import MidenUsdcx.Attester.Binding
import MidenUsdcx.Attester.RateLimit
import MidenUsdcx.Attester.Offline
import MidenUsdcx.Attester.Listing
import MidenUsdcx.Attester.Progress
import MidenUsdcx.Attester.HoldList
import MidenUsdcx.Attester.Lifecycle
import MidenUsdcx.Attester.AdminWire
import MidenUsdcx.Attester.Signer
import MidenUsdcx.Relayer.Deposits
import MidenUsdcx.Relayer.Inclusion
import MidenUsdcx.Relayer.Waiting
import MidenUsdcx.Relayer.CatchUp
import MidenUsdcx.Relayer.Sizes
import MidenUsdcx.Relayer.StateFile
import MidenUsdcx.Listener.Claims
import MidenUsdcx.Listener.Attribution
import MidenUsdcx.Listener.Exact
import MidenUsdcx.Listener.Gate
import MidenUsdcx.Listener.Keys
import MidenUsdcx.Listener.Outcomes
import MidenUsdcx.Listener.Rate
import MidenUsdcx.Listener.Codecs
import MidenUsdcx.Listener.Quorum
import MidenUsdcx.Attester.AdminServer
import MidenUsdcx.Attester.Pacing
import MidenUsdcx.Bridge.Supervisor
import MidenUsdcx.Circle.Bodies
