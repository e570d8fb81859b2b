import BackendFoundation.Outbox.NoLostRun
import BackendFoundation.Outbox.Recorded
import BackendFoundation.Idempotency.Canonical
import BackendFoundation.Idempotency.Safety
import BackendFoundation.Idempotency.Transaction
import BackendFoundation.Stripe.Resume
import BackendFoundation.Auth.SessionSafety
import BackendFoundation.Auth.Provenance
import BackendFoundation.Stripe.Refunds
import BackendFoundation.Audit.Integrity
import BackendFoundation.Tenancy.Isolation
import BackendFoundation.Chat.CatchUp
import BackendFoundation.Chat.Duplicates
import BackendFoundation.Lib.Services
import BackendFoundation.Lib.Schema
import BackendFoundation.Organizations.Invitations
import BackendFoundation.Organizations.Login
import BackendFoundation.Organizations.Owners
import BackendFoundation.Stripe.PaymentOrder
import BackendFoundation.Scheduler.Exclusion
import BackendFoundation.Stripe.RefundFinal
import BackendFoundation.Stripe.SubscriptionOrder
import BackendFoundation.Stripe.CardOrder
import BackendFoundation.Stripe.Convergence
import BackendFoundation.Uploads.Verdicts
import BackendFoundation.Auth.StaleSessions
import BackendFoundation.Auth.GuessBound
import BackendFoundation.Audit.Evidence
import BackendFoundation.Chat.Conversations
import BackendFoundation.Chat.Gateway
import BackendFoundation.Chat.ReadMarkers
import BackendFoundation.Chat.OnePerPair
import BackendFoundation.Http.Buckets
import BackendFoundation.Http.Csrf
import BackendFoundation.Http.TrustAgreement
import BackendFoundation.Uploads.PendingSweep
import BackendFoundation.Uploads.ScanRequests
import BackendFoundation.Chat.Attachments
import BackendFoundation.Crypto.Rotation
import BackendFoundation.Lib.Sweep
import BackendFoundation.Maintenance.Retention
import BackendFoundation.Notifications.Unsubscribe
import BackendFoundation.Tenancy.AuditVerdicts
import BackendFoundation.Tenancy.RuntimeKeys
import BackendFoundation.Uploads.Downloads
import BackendFoundation.Uploads.Quota
import BackendFoundation.Uploads.StoredObjects
import BackendFoundation.Accounts.Erasure
import BackendFoundation.Auth.PhoneMarks
import BackendFoundation.Auth.ResetChain
import BackendFoundation.Stripe.DefaultCard
import BackendFoundation.Stripe.LastCard
import BackendFoundation.Http.RateLimit
import BackendFoundation.Http.CursorPagination
import BackendFoundation.Maintenance.Drain
import BackendFoundation.Lib.Extend
import BackendFoundation.Access.CachedGrants
import BackendFoundation.Access.Commits
import BackendFoundation.Access.Epochs
import BackendFoundation.Access.Holders
import BackendFoundation.Access.Log
import BackendFoundation.Access.Model
import BackendFoundation.Access.Rejoin
import BackendFoundation.Access.Roles
import BackendFoundation.Access.Scopes
import BackendFoundation.Chat.Broadcasts
import BackendFoundation.Http.Backstops
import BackendFoundation.Stripe.OneCustomer
import BackendFoundation.Notifications.DeviceOwners
import BackendFoundation.Notifications.EmailPolicy
import BackendFoundation.Stripe.CancelAll
