import Ren2Hub.Billing.Calls

namespace Ren2Hub.Billing
open Ren2Hub.Lib

structure PassResult where
  status : Option RecoveryStatus
  error : Option BillingError := none

variable (rid : RequestID)

def recoverBillingSettlement (status : RecoveryStatus) : Process PassResult := do
  match ← Db.findRecovery rid with
  | .error e => return ⟨status, some e⟩
  | .ok r =>
  if let .error e ← onlyIf (r.fundingSettlement ≠ .completed)
    (Db.applyAdjustment rid .funding .settle) then
    return ⟨r.status, some e⟩
  match ← Db.findRecovery rid with
  | .error e => return ⟨r.status, some e⟩
  | .ok r =>
  if let .error e ← onlyIf (r.tokenSettlement ≠ .completed)
    (Db.applyAdjustment rid .token .settle) then
    return ⟨r.status, some e⟩
  match ← Db.findRecovery rid with
  | .error e => return ⟨r.status, some e⟩
  | .ok current =>
  if !billingRecoverySettlementComplete current then
    return ⟨current.status, some .settlementIncomplete⟩
  if let .error e ← Db.markSettled rid then
    return ⟨current.status, some e⟩
  return ⟨some .settled, none⟩

def recoverBillingRefund (status : RecoveryStatus) : Process PassResult := do
  if let .error e ← Db.markRefundPending rid then
    return ⟨status, some e⟩
  match ← Db.findRecovery rid with
  | .error e => return ⟨some .refundPending, some e⟩
  | .ok r =>
  if let .error e ← onlyIf (r.fundingRefund ≠ .completed)
    (Db.applyAdjustment rid .funding .refund) then
    return ⟨some .refundPending, some e⟩
  match ← Db.findRecovery rid with
  | .error e => return ⟨some .refundPending, some e⟩
  | .ok r =>
  if let .error e ← onlyIf (r.extraAmount > 0 ∧ r.extraRefund ≠ .completed)
    (Db.applyAdjustment rid .extra .refund) then
    return ⟨some .refundPending, some e⟩
  match ← Db.findRecovery rid with
  | .error e => return ⟨some .refundPending, some e⟩
  | .ok r =>
  if let .error e ← onlyIf (r.tokenAmount > 0 ∧ r.tokenRefund ≠ .completed)
    (Db.applyAdjustment rid .token .refund) then
    return ⟨some .refundPending, some e⟩
  match ← Db.findRecovery rid with
  | .error e => return ⟨some .refundPending, some e⟩
  | .ok current =>
  if !billingRecoveryRefundComplete current then
    return ⟨current.status, some .refundIncomplete⟩
  if let .error e ← Db.markRefunded rid then
    return ⟨current.status, some e⟩
  return ⟨some .refunded, none⟩

def recoverOneBillingRecovery : Process PassResult := do
  match ← Db.findRecovery rid with
  | .error e => return ⟨none, some e⟩
  | .ok r =>
  match r.status with
  | .settlementPending => recoverBillingSettlement rid r.status
  | .active | .refundPending => recoverBillingRefund rid r.status
  | status => return ⟨status, none⟩

def workerPass : Process Unit := do
  let _ ← recoverOneBillingRecovery rid

end Ren2Hub.Billing
