import CommPlatform.L3Protocol.SignedMessages
import CommPlatform.L3Protocol.SingleEmoji
import CommPlatform.L3Protocol.AttachmentTransfer
import CommPlatform.L3Protocol.Replay
import CommPlatform.L3Protocol.Repair
import CommPlatform.L3Protocol.Framing
import CommPlatform.L3Protocol.SkippedBounds
import CommPlatform.L4Store.Crossing
import CommPlatform.L4Store.InitialReplay
import CommPlatform.L4Store.SealedOnce
import CommPlatform.L4Server.Claims
import CommPlatform.L5Sync.Acceptance
import CommPlatform.L5Contacts.TrustRuns
import CommPlatform.L5Contacts.MissedRotations
import CommPlatform.L5Contacts.PresencePeers
import CommPlatform.L5Devices.LogChain
import CommPlatform.L5Devices.Posture
import CommPlatform.L5Groups.Delivery
import CommPlatform.L5Groups.Limits
import CommPlatform.L5Rooms.RoomRosters
import CommPlatform.L5Rooms.VoiceSignal
import CommPlatform.L4Server.Allowance
import CommPlatform.L4Server.AttachmentSweep
import CommPlatform.L4Server.Gateway
import CommPlatform.L5Devices.RecoverySecret
