import Trellis.Payments.Absorbing
import Trellis.RateLimiting.Agreement
import Trellis.DistributedLock.MutualExclusion
import Trellis.Idempotency.AtMostOnce
import Trellis.Backfill.WriteAhead
import Trellis.Backfill.Rollback
import Trellis.Events.LedgerReplay
import Trellis.Audit.MemberOrder
import Trellis.Audit.AllOrNothing
import Trellis.Approvals.Lifecycle
import Trellis.PauseControl.NeverLost
import Trellis.Reconciliation.ExactlyOnce
import Trellis.Reconciliation.Matching
import Trellis.Trading.AtMostOnce
import Trellis.Portfolio.References
import Trellis.Investment.RowAgreement
import Trellis.Investment.EventLifecycle
import Trellis.Oracle.OneBroadcast
import Trellis.Oracle.BatchIdempotence
import Trellis.Oracle.NonceAllocation
import Trellis.Snapshot.Soundness
import Trellis.Dashboard.SingleUse
import Trellis.Ownership.Decision
import Trellis.Ownership.OneLive
import Trellis.Policy.Rollback
import Trellis.Billing.FailedChange
import Trellis.Billing.Ledger
import Trellis.RateLimiting.RetryAfter
import Trellis.Webhooks.Duplicates
import Trellis.Core.Keyset
import Trellis.Pagination.Keyset
import Trellis.Policy.Enforcement
import Trellis.Portfolio.Settlement
import Trellis.Auth.TokenBlacklist
import Trellis.Auth.TwoFactor
import Trellis.Auth.TwoFactorLimits
import Trellis.Common.CanonicalText
import Trellis.Common.StateMachine
import Trellis.Idempotency.Scopes
import Trellis.Reconciliation.Exactness
