import Kitty.Ap2p.BootMessage
import Kitty.Ap2p.Bootstrap
import Kitty.Ap2p.BrokerConfig
import Kitty.Ap2p.CredentialMessages
import Kitty.Ap2p.Credentials
import Kitty.Ap2p.Dispatch
import Kitty.Ap2p.Failover
import Kitty.Ap2p.Heartbeat
import Kitty.Ap2p.HttpsResponse
import Kitty.Ap2p.Ota
import Kitty.Ap2p.Payloads
import Kitty.Ap2p.Rejection
import Kitty.Ap2p.Reload
import Kitty.Ap2p.Responses
import Kitty.Branding.Verify
import Kitty.Flash.Recipe
import Kitty.Flash.Telnet
import Kitty.Flv.Android
import Kitty.Flv.Replay
import Kitty.Forwarding.Ownership
import Kitty.Http.Replies
import Kitty.Launcher.ConfPush
import Kitty.Launcher.Rotation
import Kitty.Launcher.Supervisor
import Kitty.Migration.Cutover
import Kitty.Migration.Fleet
import Kitty.Migration.Retained
import Kitty.P2p.Backpressure
import Kitty.P2p.Bounds
import Kitty.P2p.Coverage
import Kitty.P2p.Gap
import Kitty.P2p.Keepalive
import Kitty.P2p.Perfect
import Kitty.P2p.QueueRuns
import Kitty.P2p.Sessions
import Kitty.P2p.Uplink
import Kitty.Provider.MessageType
import Kitty.Provider.Reconnect
import Kitty.Provider.Sections
import Kitty.Sdp.Candidates
import Kitty.Sdp.Fidelity
import Kitty.Signal.Capacity
import Kitty.Signal.ConsumerFlag
import Kitty.Signal.Exchange
import Kitty.Signal.Framing
import Kitty.Signal.Liveness
import Kitty.Signal.Outage
import Kitty.Signal.Rendezvous
import Kitty.Signal.Robust
import Kitty.Signal.RoundTrip
import Kitty.Signal.Sizes
import Kitty.Signal.Sockets
import Kitty.Signal.StaleForward
import Kitty.Signal.StatsRuns
import Kitty.Srt.Lookup
import Kitty.Srt.Mapping
import Kitty.Srt.NewestViewer
import Kitty.Srt.SameNat
import Kitty.Srt.Stun
import Kitty.Viewer.HeaderPatch
import Kitty.Viewer.Lossless
import Kitty.Vms.Dispatchers
import Kitty.Vms.Identity
import Kitty.Vms.Released
import Kitty.Vms.Watchdog
import Kitty.Web.Router
