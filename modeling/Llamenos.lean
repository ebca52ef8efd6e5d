import Llamenos.Crypto.Shamir
import Llamenos.Crypto.Encryption
import Llamenos.Crypto.Sframe
import Llamenos.Crypto.Sigchain.Devices
import Llamenos.Worker.CryptoKeys.Writers
import Llamenos.Worker.PukEnvelopes
import Llamenos.Worker.MlsMessages
import Llamenos.Worker.Audit.Tamper
import Llamenos.Worker.CircuitBreaker
import Llamenos.Worker.RateLimiter
import Llamenos.Worker.Calls.History
import Llamenos.Worker.Outbox
import Llamenos.Worker.Erasure.Requests
import Llamenos.Worker.Erasure.Envelopes
import Llamenos.Worker.Blasts.Lifecycle
import Llamenos.Worker.Blasts.Outcomes
import Llamenos.Worker.Blasts.Contents
import Llamenos.Worker.Subscribers.Unsubscribe
import Llamenos.Worker.Subscribers.Isolation
import Llamenos.Worker.Cases.Merges
import Llamenos.Worker.Contacts.Groups
import Llamenos.Worker.Contacts.Relationships
import Llamenos.Worker.Conversations.Claims
import Llamenos.Worker.Conversations.Receipts
import Llamenos.Worker.Conversations.Inbound
import Llamenos.Worker.Bans
import Llamenos.Worker.Webhooks
import Llamenos.Worker.Sessions
import Llamenos.Worker.Users.Admins
import Llamenos.Worker.Users.Invites
import Llamenos.Worker.Devices.Cap
import Llamenos.Worker.Provisioning
import Llamenos.Worker.Signal.Identity
import Llamenos.Worker.Signal.Queue
import Llamenos.Worker.Signal.Failover
import Llamenos.Worker.Settings.HubKeys
import Llamenos.Worker.Settings.HubSettings
import Llamenos.Worker.Settings.CaseNumbers
import Llamenos.Worker.Settings.Captchas
import Llamenos.Worker.Settings.ReportTypes
import Llamenos.Worker.Settings.Roles
import Llamenos.Worker.Settings.PurgedHub
import Llamenos.Worker.RecoveryGroup.Guesses
import Llamenos.Worker.RecoveryGroup.Contributions
import Llamenos.Worker.EntryHash
import Llamenos.Worker.ShiftRequests
import Llamenos.Worker.Relay.Evictions
import Llamenos.Worker.Retention.Chains
import Llamenos.Shared.Migrations
import Llamenos.Worker.DeviceWipe
import Llamenos.Orchestrator.Lock
import Llamenos.Orchestrator.Tick.Laws
import Llamenos.Client.OfflineQueue
import Llamenos.Client.RelayConnection
import Llamenos.Crypto.Puk.Walks
import Llamenos.Worker.Erasure.CoApprovals
import Llamenos.Worker.Templates.Inherited
import Llamenos.Worker.Padding
import Llamenos.Worker.Uploads
import Llamenos.SipBridge.EslClient.Replies
import Llamenos.Worker.Ringing
import Llamenos.Worker.EnvelopeRecipients
import Llamenos.Worker.Notes
import Llamenos.Worker.Contacts.Bulk
import Llamenos.Worker.Settings.EntityTypes
import Llamenos.Worker.RecoveryGroup.Envelopes
