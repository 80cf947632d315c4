import Mathlib.Data.List.Basic

/-!
# The catalogue of sensitive actions

`SensitiveAction`, `SensitiveActionScope` and `SENSITIVE_ACTION_CATALOGUE`.  The descriptions,
which nothing reads, are left out.
-/

namespace Trellis.Audit

inductive SensitiveActionScope where
  | authentication
  | accessControl
  | identity
  | treasury
  | billing
  | reconciliation
  | dataExport
  | protocolConfig
  | compliance
  | portfolio
  | approval

def SensitiveActionScope.value : SensitiveActionScope → String
  | .authentication => "authentication"
  | .accessControl => "access-control"
  | .identity => "identity"
  | .treasury => "treasury"
  | .billing => "billing"
  | .reconciliation => "reconciliation"
  | .dataExport => "data-export"
  | .protocolConfig => "protocol-config"
  | .compliance => "compliance"
  | .portfolio => "portfolio"
  | .approval => "approval"

inductive SensitiveAction where
  | loginSucceeded
  | loginFailed
  | logoutAllSessions
  | passwordChanged
  | mfaEnrolled
  | mfaReset
  | roleAssigned
  | roleRevoked
  | apiKeyCreated
  | apiKeyRevoked
  | impersonationStarted
  | impersonationStopped
  | userSuspended
  | userReactivated
  | userDeleted
  | kycDecisionRecorded
  | withdrawalApproved
  | withdrawalRejected
  | payoutInitiated
  | walletWhitelisted
  | invoiceMarkedPaid
  | invoiceVoided
  | refundIssued
  | creditAdjusted
  | reconciliationOverridden
  | reconciliationInvoiceUpdated
  | auditLogExported
  | userDataExported
  | retentionHoldPlaced
  | evidenceBundleExported
  | featureFlagChanged
  | emergencyPauseToggled
  | contractUpgraded
  | maintenanceWindowChanged
  | componentDegradationChanged
  | portfolioRecordChanged
  | lifecycleStateTransition
  | portfolioStateTransition
  | positionStateTransition
  | transactionStateTransition
  | maintainerActionProposed
  | maintainerActionCancelled
  | maintainerActionExecuted
deriving DecidableEq

namespace SensitiveAction

def value : SensitiveAction → String
  | .loginSucceeded => "auth.login.succeeded"
  | .loginFailed => "auth.login.failed"
  | .logoutAllSessions => "auth.sessions.revoked"
  | .passwordChanged => "auth.password.changed"
  | .mfaEnrolled => "auth.mfa.enrolled"
  | .mfaReset => "auth.mfa.reset"
  | .roleAssigned => "access.role.assigned"
  | .roleRevoked => "access.role.revoked"
  | .apiKeyCreated => "access.api-key.created"
  | .apiKeyRevoked => "access.api-key.revoked"
  | .impersonationStarted => "access.impersonation.started"
  | .impersonationStopped => "access.impersonation.stopped"
  | .userSuspended => "identity.user.suspended"
  | .userReactivated => "identity.user.reactivated"
  | .userDeleted => "identity.user.deleted"
  | .kycDecisionRecorded => "identity.kyc.decision"
  | .withdrawalApproved => "treasury.withdrawal.approved"
  | .withdrawalRejected => "treasury.withdrawal.rejected"
  | .payoutInitiated => "treasury.payout.initiated"
  | .walletWhitelisted => "treasury.wallet.whitelisted"
  | .invoiceMarkedPaid => "billing.invoice.marked-paid"
  | .invoiceVoided => "billing.invoice.voided"
  | .refundIssued => "billing.refund.issued"
  | .creditAdjusted => "billing.credit.adjusted"
  | .reconciliationOverridden => "reconciliation.override"
  | .reconciliationInvoiceUpdated => "reconciliation.invoice.updated"
  | .auditLogExported => "data.audit.exported"
  | .userDataExported => "data.user.exported"
  | .retentionHoldPlaced => "compliance.retention-hold.placed"
  | .evidenceBundleExported => "compliance.evidence-bundle.exported"
  | .featureFlagChanged => "config.feature-flag.changed"
  | .emergencyPauseToggled => "config.emergency-pause.toggled"
  | .contractUpgraded => "config.contract.upgraded"
  | .maintenanceWindowChanged => "config.maintenance-window.changed"
  | .componentDegradationChanged => "config.status-degradation.changed"
  | .portfolioRecordChanged => "portfolio.record.changed"
  | .lifecycleStateTransition => "lifecycle.state.transition"
  | .portfolioStateTransition => "portfolio.state.transition"
  | .positionStateTransition => "defi.position.state.transition"
  | .transactionStateTransition => "transaction.state.transition"
  | .maintainerActionProposed => "maintainer.action.proposed"
  | .maintainerActionCancelled => "maintainer.action.cancelled"
  | .maintainerActionExecuted => "maintainer.action.executed"

def all : List SensitiveAction :=
  [.loginSucceeded, .loginFailed, .logoutAllSessions, .passwordChanged, .mfaEnrolled,
    .mfaReset, .roleAssigned, .roleRevoked, .apiKeyCreated, .apiKeyRevoked,
    .impersonationStarted, .impersonationStopped, .userSuspended, .userReactivated,
    .userDeleted, .kycDecisionRecorded, .withdrawalApproved, .withdrawalRejected,
    .payoutInitiated, .walletWhitelisted, .invoiceMarkedPaid, .invoiceVoided, .refundIssued,
    .creditAdjusted, .reconciliationOverridden, .reconciliationInvoiceUpdated,
    .auditLogExported, .userDataExported, .retentionHoldPlaced, .evidenceBundleExported,
    .featureFlagChanged, .emergencyPauseToggled, .contractUpgraded, .maintenanceWindowChanged,
    .componentDegradationChanged, .portfolioRecordChanged, .lifecycleStateTransition,
    .portfolioStateTransition, .positionStateTransition, .transactionStateTransition,
    .maintainerActionProposed, .maintainerActionCancelled, .maintainerActionExecuted]

end SensitiveAction

structure SensitiveActionDefinition where
  scope : SensitiveActionScope
  reasonRequired : Bool
  capturesState : Bool

def describeSensitiveAction : SensitiveAction → SensitiveActionDefinition
  | .loginSucceeded => ⟨.authentication, false, false⟩
  | .loginFailed => ⟨.authentication, false, false⟩
  | .logoutAllSessions => ⟨.authentication, false, false⟩
  | .passwordChanged => ⟨.authentication, false, false⟩
  | .mfaEnrolled => ⟨.authentication, false, false⟩
  | .mfaReset => ⟨.authentication, true, false⟩
  | .roleAssigned => ⟨.accessControl, true, true⟩
  | .roleRevoked => ⟨.accessControl, true, true⟩
  | .apiKeyCreated => ⟨.accessControl, false, false⟩
  | .apiKeyRevoked => ⟨.accessControl, true, false⟩
  | .impersonationStarted => ⟨.accessControl, true, false⟩
  | .impersonationStopped => ⟨.accessControl, false, false⟩
  | .userSuspended => ⟨.identity, true, true⟩
  | .userReactivated => ⟨.identity, true, true⟩
  | .userDeleted => ⟨.identity, true, true⟩
  | .kycDecisionRecorded => ⟨.identity, true, true⟩
  | .withdrawalApproved => ⟨.treasury, true, true⟩
  | .withdrawalRejected => ⟨.treasury, true, true⟩
  | .payoutInitiated => ⟨.treasury, false, true⟩
  | .walletWhitelisted => ⟨.treasury, true, true⟩
  | .invoiceMarkedPaid => ⟨.billing, true, true⟩
  | .invoiceVoided => ⟨.billing, true, true⟩
  | .refundIssued => ⟨.billing, true, true⟩
  | .creditAdjusted => ⟨.billing, true, true⟩
  | .reconciliationOverridden => ⟨.reconciliation, true, true⟩
  | .reconciliationInvoiceUpdated => ⟨.reconciliation, true, true⟩
  | .auditLogExported => ⟨.dataExport, true, false⟩
  | .userDataExported => ⟨.dataExport, true, false⟩
  | .retentionHoldPlaced => ⟨.compliance, true, false⟩
  | .evidenceBundleExported => ⟨.compliance, true, true⟩
  | .featureFlagChanged => ⟨.protocolConfig, true, true⟩
  | .emergencyPauseToggled => ⟨.protocolConfig, true, true⟩
  | .contractUpgraded => ⟨.protocolConfig, true, true⟩
  | .maintenanceWindowChanged => ⟨.protocolConfig, true, true⟩
  | .componentDegradationChanged => ⟨.protocolConfig, true, true⟩
  | .portfolioRecordChanged => ⟨.portfolio, false, true⟩
  | .lifecycleStateTransition => ⟨.compliance, false, true⟩
  | .portfolioStateTransition => ⟨.portfolio, false, true⟩
  | .positionStateTransition => ⟨.protocolConfig, false, true⟩
  | .transactionStateTransition => ⟨.treasury, false, true⟩
  | .maintainerActionProposed => ⟨.approval, true, true⟩
  | .maintainerActionCancelled => ⟨.approval, true, false⟩
  | .maintainerActionExecuted => ⟨.approval, false, true⟩

/-- The action with a text; a text of no action is not in the catalogue. -/
def SensitiveAction.ofValue (text : String) : Option SensitiveAction :=
  SensitiveAction.all.find? (·.value = text)

theorem ofValue_value (action : SensitiveAction) :
    SensitiveAction.ofValue action.value = some action := by
  cases action <;> decide +kernel

end Trellis.Audit
