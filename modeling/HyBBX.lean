import HyBBX.Circuit.LinkClient
import HyBBX.Circuit.LinkIdentity
import HyBBX.Circuit.BalancePause
import HyBBX.Circuit.HubThrottleRun
import HyBBX.Circuit.HubFlow
import HyBBX.Broadcast.Spacing
import HyBBX.Websocket.WsReadFrames
import HyBBX.Mains.Containment
import HyBBX.Security.Admission
import HyBBX.Security.Permanent
import HyBBX.Mail.Bound
import HyBBX.Mail.Delivery
import HyBBX.Command.Revocation
import HyBBX.Command.SingleLogin
import HyBBX.Command.Writeback
import HyBBX.Radio.AirPath
import HyBBX.Config.SaveLoad
import HyBBX.Storage.StoreRun
import HyBBX.Storage.AllOrNothing
import HyBBX.Storage.LegacyMigration
import HyBBX.Storage.CallsKept
import HyBBX.Command.MailPrivacy
import HyBBX.Command.ConferencePairs
import HyBBX.Mail.Reading
import HyBBX.Mail.RecycleMove
import HyBBX.Telnet.ClientThread
import HyBBX.Telnet.Output
import HyBBX.Telnet.Negotiation
import HyBBX.Config.Handoff
import HyBBX.Session.LoginFailure
import HyBBX.Session.Visits
import HyBBX.Circuit.Ax25Ui
import HyBBX.Radio.Kiss
import HyBBX.Radio.TncHost
import HyBBX.Mail.ListRange
import HyBBX.Circuit.BalanceAge
import HyBBX.Config.Paths
import HyBBX.Circuit.LinkRegistry
import HyBBX.Session.HistoryKeys
import HyBBX.Session.LineScreen
import HyBBX.Client.Lockstep
import HyBBX.Telnet.TrafficText
import HyBBX.Broadcast.DeadLink
import HyBBX.Ardop.Streams
import HyBBX.Ardop.Sockets
import HyBBX.Mains.Mesh
import HyBBX.Circuit.Resync
import HyBBX.Security.BanSound
import HyBBX.Telnet.Transparency
import HyBBX.SessionCore.AreaRun
import HyBBX.SessionCore.SwitchUser
import HyBBX.SessionCore.BandwidthFinal
import HyBBX.Client.PasswordHistory
import HyBBX.Circuit.SacrificeRun
import HyBBX.Circuit.BalanceIdle
import HyBBX.Circuit.LinkAuthWait
import HyBBX.Circuit.LinkAuthRoundTrip
import HyBBX.Command.AliasSpelling
import HyBBX.SessionCore.NestedProxymail
import HyBBX.Command.BracketList
import HyBBX.Command.AreasApart
import HyBBX.Command.HelpShown
import HyBBX.Command.InviteLimit
import HyBBX.Command.InviteLive
import HyBBX.Command.RecordRoundTrip
import HyBBX.Config.Respacing
import HyBBX.Circuit.LinkRegistryRun
import HyBBX.Session.InsertRollback
import HyBBX.Session.GuestNames
import HyBBX.Session.TextExpand
import HyBBX.Circuit.BalanceRecord
import HyBBX.Command.FallbackRegistry
import HyBBX.Core.Md5
import HyBBX.Lib.Sha
import HyBBX.Core.Sha256
import HyBBX.Websocket.Sha1
import HyBBX.Lib.Base64
import HyBBX.Websocket.Handshake
import HyBBX.Lib.Utf8
import HyBBX.Websocket.Writing
import HyBBX.Lib.Crc
import HyBBX.Ardop.Checksum
import HyBBX.Radio.Checksum
import HyBBX.Storage.Sql
import HyBBX.Storage.SqlHistory
import HyBBX.Storage.SqlAgrees
import HyBBX.SessionCore.Rooms
import HyBBX.Config.Transports
