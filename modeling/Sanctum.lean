import Sanctum.Symbolic
import Sanctum.Network
import Sanctum.RatchetReject
import Sanctum.SkippedKeys
import Sanctum.ReplayWindow
import Sanctum.Session
import Sanctum.MessageService
import Sanctum.RatchetMoves
import Sanctum.KeySlots
import Sanctum.KeyUse
import Sanctum.ForwardSecrecy
import Sanctum.Agreement
import Sanctum.PostCompromise
import Sanctum.RootTrace
import Sanctum.HeaderIntegrity
import Sanctum.E2eSession
import Sanctum.ChatLoop
import Sanctum.Dialogue
import Sanctum.DialogueRatchet
import Sanctum.HonestRun
import Sanctum.Delivery
import Sanctum.Room
import Sanctum.Runs
import Sanctum.HostService
import Sanctum.Protobuf
import Sanctum.Wire
import Sanctum.AuthService
import Sanctum.Histories
import Sanctum.AuthHistory
import Sanctum.RoomHistory
import Sanctum.RoomService
import Sanctum.HostListener
import Sanctum.ListenerSteps
import Sanctum.ListenerTasks
import Sanctum.ListenerTables
import Sanctum.RelayOrder
import Sanctum.Admission
import Sanctum.Framing
import Sanctum.Codec
import Sanctum.Transport
import Sanctum.NoiseTransport
import Sanctum.NoiseLink
import Sanctum.RelayCleanup
import Sanctum.Registration
import Sanctum.RelayReach
import Sanctum.RelayDeadlock
import Sanctum.JoinHistory
import Sanctum.PresenceNotices
import Sanctum.Revocation
import Sanctum.FrameAuthenticity
import Sanctum.OneTimePrekeys
import Sanctum.Text
import Sanctum.SignedData
import Sanctum.Selection
import Sanctum.Storage
import Sanctum.StorageAgreement
import Sanctum.Retention
import Sanctum.Join
import Sanctum.ProtoMessages
import Sanctum.WireMessage
import Sanctum.SenderAuthenticity
import Sanctum.ForgedEnvelopes
import Sanctum.FanOut
import Sanctum.Looping
import Sanctum.TorControl
import Sanctum.SocksProxy
import Sanctum.Slices
import Sanctum.Serde
import Sanctum.InviteDecoding
import Sanctum.RatchetChecks
import Sanctum.FrameHandling
import Sanctum.InviteLifetime
import Sanctum.Padding
import Sanctum.SkipLimit
import Sanctum.MissingKeys
import Sanctum.HiddenServices
import Sanctum.Words
import Sanctum.InputParser
import Sanctum.DeliveryOrder
import Sanctum.X3dhSecrecy
import Sanctum.PayloadBlindness
import Sanctum.NoiseHandshake
import Sanctum.AuthDialogue
import Sanctum.BacklogExpiry
import Sanctum.KeyedTable
import Sanctum.SqliteHistory
import Sanctum.ExpiryAgreement
import Sanctum.Broadcast
import Sanctum.ChatSession
import Sanctum.Resumable
import Sanctum.Cancellation
import Sanctum.ChatInput
import Sanctum.TypedText
import Sanctum.Base64
import Sanctum.InviteText
import Sanctum.IdentityStore
import Sanctum.SealedChat
import Sanctum.KeyboardModes
import Sanctum.Introductions
import Sanctum.ShownNames
import Sanctum.ChatRoom
