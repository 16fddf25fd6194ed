import ZoomClone.Keyed
import ZoomClone.Runs
import ZoomClone.Keyset
import ZoomClone.Trim
import ZoomClone.Text
import ZoomClone.Models
import ZoomClone.MeetingService
import ZoomClone.AuthService
import ZoomClone.ParticipantService
import ZoomClone.SignalingService
import ZoomClone.Calendar
import ZoomClone.Listing
import ZoomClone.DayStrip
import ZoomClone.Queries
import ZoomClone.Operations
import ZoomClone.Rows
import ZoomClone.Phantom
import ZoomClone.Registry
import ZoomClone.Protocol
import ZoomClone.Router
import ZoomClone.Server
import ZoomClone.MeshCap
import ZoomClone.ConcurrentJoins
import ZoomClone.Departed
import ZoomClone.Eviction
import ZoomClone.MeetingStore
import ZoomClone.PeerManager
import ZoomClone.PeerConnection
import ZoomClone.Convergence
import ZoomClone.SignalingClient
import ZoomClone.MeetingRoom
import ZoomClone.SocketClient
import ZoomClone.SocketRefinement
import ZoomClone.OutboundQueue
import ZoomClone.Microphone
import ZoomClone.RoomVisit
import ZoomClone.Reconcile
import ZoomClone.JoinFlow
import ZoomClone.OneJoin
import ZoomClone.Network
import ZoomClone.NetworkValid
import ZoomClone.SocketSteps
import ZoomClone.Resume
import ZoomClone.Mesh
import ZoomClone.Scripts
import ZoomClone.Glare
import ZoomClone.Quiet
import ZoomClone.Negotiation
import ZoomClone.Lifecycle
import ZoomClone.People
import ZoomClone.Accounts
import ZoomClone.TwoEndings
import ZoomClone.StatusRaces
import ZoomClone.Authorization
import ZoomClone.Isolation
import ZoomClone.MessageLoop
import ZoomClone.Admission
import ZoomClone.SocketExits
import ZoomClone.Broadcasts
import ZoomClone.MuteFlag
import ZoomClone.Rosters
import ZoomClone.Departures
import ZoomClone.RoomLog
import ZoomClone.Announcements
import ZoomClone.ChatDrawer
import ZoomClone.AuditTrail
import ZoomClone.MeetingNumbers
import ZoomClone.PersonalRoom
import ZoomClone.JoinAdmission
import ZoomClone.Credentials
import ZoomClone.HostListing
import ZoomClone.Pagination
import ZoomClone.StablePages
import ZoomClone.HostActions
import ZoomClone.RowOwnership
import ZoomClone.IceCandidates
import ZoomClone.Backoff
import ZoomClone.Latest
import ZoomClone.ChatHistory
import ZoomClone.PyText
import ZoomClone.ChatFrames
import ZoomClone.Transaction
import ZoomClone.InSession
import ZoomClone.MeetingEdits
import ZoomClone.EditAgreement
import ZoomClone.Machines
import ZoomClone.TtlMap
import ZoomClone.MemoryCache
import ZoomClone.HostTabs
import ZoomClone.Decimals
import ZoomClone.MeetingIds
import ZoomClone.RegistryRooms
import ZoomClone.ClientSession
import ZoomClone.JsDate
import ZoomClone.DateControls
import ZoomClone.JsonText
import ZoomClone.RecentlyUsed
import ZoomClone.RecentIds
import ZoomClone.RoomStore
import ZoomClone.OrderedSelector
import ZoomClone.EffectRequests
import ZoomClone.MeetingsView
import ZoomClone.DayStripRequests
import ZoomClone.Preferences
import ZoomClone.SettingsModal
import ZoomClone.ForeignKeys
import ZoomClone.JsonWriter
import ZoomClone.IsoFormat
import ZoomClone.WireText
import ZoomClone.WireFormat
import ZoomClone.WireRuns
import ZoomClone.ScheduleForm
import ZoomClone.StoredMeetings
import ZoomClone.ScheduleRoundTrip
import ZoomClone.ScheduleVisit
import ZoomClone.InviteLinks
import ZoomClone.ErrorEnvelope
