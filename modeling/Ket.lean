import Ket.Android.BypassAgreement
import Ket.Android.BypassEntries
import Ket.Android.Routes
import Ket.Client.DnsRecovery
import Ket.Client.FullRoute
import Ket.Client.NetworkMoves
import Ket.Client.Networks
import Ket.Client.Ownership
import Ket.Client.SealedClock
import Ket.Client.SystemDns
import Ket.Core.Allowance
import Ket.Core.Calendar
import Ket.Core.Contract
import Ket.Core.Grant
import Ket.Core.Periods
import Ket.Invite.Capsule
import Ket.Invite.Cbor
import Ket.Invite.Enrollment
import Ket.Invite.KetProfile
import Ket.Invite.Locator
import Ket.Invite.Manual
import Ket.Invite.ManualForm
import Ket.Invite.PublicUrl
import Ket.Invite.Signed
import Ket.Invite.Text
import Ket.Invite.UrlRoundTrip
import Ket.Lib.Counter
import Ket.Lib.Numeral
import Ket.Lib.Disk
import Ket.Lib.Head
import Ket.Lib.IpText
import Ket.Lib.Octets
import Ket.Lib.Parser
import Ket.Lib.Slice
import Ket.Lib.Str
import Ket.Lib.System
import Ket.Lib.Text
import Ket.Lib.Url
import Ket.Lib.Word
import Ket.Server.Access
import Ket.Server.Activity
import Ket.Server.Admission
import Ket.Server.Allowance
import Ket.Server.Batch
import Ket.Server.Charging
import Ket.Server.ControlPlane
import Ket.Server.Counters
import Ket.Server.CountStart
import Ket.Server.DeviceLimit
import Ket.Server.EarlyTraffic
import Ket.Server.Engines
import Ket.Server.Enrollment
import Ket.Server.GrantAdmin
import Ket.Server.GrantChanges
import Ket.Server.Ledger
import Ket.Server.Locks
import Ket.Server.Meter
import Ket.Server.Model
import Ket.Server.Node
import Ket.Server.Orphans
import Ket.Server.Recording
import Ket.Server.Removal
import Ket.Server.Sealed
import Ket.Server.Service
import Ket.Server.Serving
import Ket.Server.SlotReuse
import Ket.Server.Slots
import Ket.Server.StateInvariant
import Ket.Server.Storage
import Ket.Server.Validity
import Ket.Server.WireGuardAgent
import Ket.Share.DnsExact
import Ket.Share.Forwarding
import Ket.Share.Guessing
import Ket.Share.HeadReading
import Ket.Share.Http
import Ket.Share.Limiter
import Ket.Share.Password
import Ket.Share.Policy
import Ket.Share.Reach
import Ket.Share.Server
import Ket.Share.SignInWindow
import Ket.Share.Socks5
import Ket.Share.Socks5Grammar
import Ket.Share.Target
import Ket.Tunnel.Broker
import Ket.Tunnel.Bypass
import Ket.Tunnel.OneTunnel
import Ket.Update.Installation
import Ket.Update.Manifest
import Ket.Update.Policy
import Ket.Update.Urgency
