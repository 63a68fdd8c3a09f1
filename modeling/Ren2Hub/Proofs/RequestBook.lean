import Ren2Hub.Proofs.CallSpec
import Ren2Hub.Lib.Rules
import Ren2Hub.Billing.Session
import Ren2Hub.Billing.Worker

namespace Ren2Hub.Proofs.RequestBook
open Lib Billing Ledger RecoverySpec CallSpec BillingRecovery

/-- What the database knows about one request: its row and its markers. -/
@[ext] structure Book where
  row : Option BillingRecovery
  marks : Component → Operation → Option Int

def book (rid : RequestID) (s : Store) : Book := ⟨s.recoveries rid, s.adjustments rid⟩

namespace Book

variable (b : Book)

def write (r : BillingRecovery) : Book := { b with row := some r }

def mark (c : Component) (op : Operation) (amount : Int) : Book :=
  { b with marks := fun c' op' => if c' = c ∧ op' = op then some amount else b.marks c' op' }

@[simp] theorem write_row (r : BillingRecovery) : (b.write r).row = some r := rfl

@[simp] theorem write_marks (r : BillingRecovery) : (b.write r).marks = b.marks := rfl

@[simp] theorem mark_row (c : Component) (op : Operation) (a : Int) :
    (b.mark c op a).row = b.row := rfl

@[simp] theorem mark_marks (c : Component) (op : Operation) (a : Int) (c' : Component)
    (op' : Operation) :
    (b.mark c op a).marks c' op' = if c' = c ∧ op' = op then some a else b.marks c' op' := rfl

end Book

section
variable (r : BillingRecovery)

theorem withRecord_eq (record : Option SubscriptionPreConsumeRecord) :
    ∃ sub f t p, r.withRecord record =
      { r with subscriptionID := sub, fundingAmount := f, tokenAmount := t, preConsumeState :=
        p } := by
  unfold withRecord
  split
  · split
    · split
      · exact ⟨_, _, _, _, rfl⟩
      · exact ⟨_, _, _, _, rfl⟩
    · exact ⟨_, _, _, _, rfl⟩
  · exact ⟨_, _, _, _, rfl⟩

theorem withRecord_committed {r : BillingRecovery} (hp : r.preConsumeState = .committed)
    (record : Option SubscriptionPreConsumeRecord) : r.withRecord record = r := by
  simp [withRecord, hp]

theorem extend_eq (d : Int) :
    ∃ f x t, r.extend d = { r with fundingAmount := f, extraAmount := x, tokenAmount := t } := by
  unfold extend
  cases r.source <;> simp only <;> split <;> exact ⟨_, _, _, rfl⟩

theorem complete_eq (c : Component) (op : Operation) : ∃ f x t f' t', r.complete c op =
      { r with
        fundingRefund := f, extraRefund := x, tokenRefund := t
        fundingSettlement := f', tokenSettlement := t' } := by
  cases op <;> cases c <;> exact ⟨_, _, _, _, _, rfl⟩

theorem complete_refund_eq (c : Component) : ∃ f x t, r.complete c .refund =
      { r with fundingRefund := f, extraRefund := x, tokenRefund := t } := by
  cases c <;> exact ⟨_, _, _, rfl⟩

theorem complete_settle_eq (c : Component) :
    ∃ f t, r.complete c .settle = { r with fundingSettlement := f, tokenSettlement := t } := by
  cases c <;> exact ⟨_, _, rfl⟩

end

/-- What the book says the wallet has lost or got back. -/
def walletDue (b : Book) : Int :=
  -(b.row.elim 0 fundingAmount) + (b.marks .funding .refund).getD 0 -
    (b.marks .funding .settle).getD 0

/-- The same for the token. -/
def tokenDue (b : Book) : Int :=
  -(b.row.elim 0 tokenAmount) + (b.marks .token .refund).getD 0 -
    (b.marks .token .settle).getD 0

theorem dues_write (hr : b.row = some r) (r' : BillingRecovery) :
    walletDue (b.write r') = walletDue b + (r.fundingAmount - r'.fundingAmount) ∧
      tokenDue (b.write r') = tokenDue b + (r.tokenAmount - r'.tokenAmount) := by
  simp only [walletDue, tokenDue, Book.write_row, Book.write_marks, hr, Option.elim_some]
  omega

theorem dues_mark (hn : b.marks c op = none)
    (hop : (op = .settle ∧ (c = .funding ∨ c = .token)) ∨
      (op = .refund ∧ (c = .funding ∨ c = .extra ∨ c = .token))) :
    walletDue (b.mark c op a) = walletDue b + (if c = .funding then a * Operation.sign op else 0) ∧
      tokenDue (b.mark c op a) =
        tokenDue b + (if c = .token then a * Operation.sign op else 0) := by
  rcases hop with ⟨rfl, rfl | rfl⟩ | ⟨rfl, rfl | rfl | rfl⟩ <;>
    simp [walletDue, tokenDue, Operation.sign, hn] <;> omega

/-- What a call can do to the book of one request. `record` is its pre-consume record then. -/
inductive BookStep (rid : RequestID) (record : Option SubscriptionPreConsumeRecord) :
    Call → Book → Book → Prop
  | same : BookStep rid record c b b
  | create (hi : input.requestID = rid) (hr : b.row = none) :
      BookStep rid record (.createRecovery input) b (b.write input.row)
  | rebind (hi : input.requestID = rid) (hr : b.row = some r) (hid : input.sameIdentity r = true)
      (hre : billingRecoveryIsReusable r = true) :
      BookStep rid record (.rebindRecovery input) b
        (b.write { r with source := input.source, status := .active })
  | abort (hr : b.row = some r) (ha : r.status = .active) (hp : r.preConsumeState = .prepared)
      (hf : r.fundingAmount = 0) (hx : r.extraAmount = 0) (ht : r.tokenAmount = 0) :
      BookStep rid record (.abortPrepared rid) b (b.write { r with status := .refunded })
  | amounts (hr : b.row = some r) (ha : r.status = .active)
      (hf : 0 ≤ f) (hx : 0 ≤ x) (ht : 0 ≤ t) :
      BookStep rid record (.updateAmounts rid sub f x t) b (b.write
        { r with subscriptionID := sub, fundingAmount := f, extraAmount := x, tokenAmount := t,
                 preConsumeState := .committed })
  | settlement (hr : b.row = some r) (ha : r.status = .active ∨ r.status = .settlementPending) :
      BookStep rid record (.writeSettlement rid delta) b
        (b.write { r with settlementDelta := delta, status := .settlementPending })
  | refundPending (hr : b.row = some r) (ha : r.status = .active ∨ r.status = .refundPending) :
      BookStep rid record (.markRefundPending rid) b
        (b.write { r.withRecord record with status := .refundPending })
  | settled (hr : b.row = some r) (ha : r.status = .settlementPending)
      (hf : r.fundingSettlement = .completed) (ht : r.tokenSettlement = .completed) :
      BookStep rid record (.markSettled rid) b (b.write { r with status := .settled })
  | refunded (hr : b.row = some r) (ha : r.status = .refundPending)
      (hc : billingRecoveryRefundComplete r = true) :
      BookStep rid record (.markRefunded rid) b (b.write { r with status := .refunded })
  | charge (hr : b.row = some r) (hw : r.source = .wallet) (ha : r.status = .active)
      (hp : r.preConsumeState = .prepared) (hq : 0 ≤ quota) :
      BookStep rid record (.preConsumeWallet rid quota unlimited) b (b.write (r.charged quota))
  | extend (hr : b.row = some r) (ha : r.status = .active) (hp : r.preConsumeState = .committed)
      (hd : 0 < target - r.reserved) :
      BookStep rid record (.reserve rid target delta unlimited) b
        ((b.write (r.extend (target - r.reserved))).mark (.reserve target) .reserve
          (target - r.reserved))
  | adjust (hr : b.row = some r) (hn : b.marks c op = none)
      (ha : (op = .settle ∧ (c = .funding ∨ c = .token) ∧ r.status = .settlementPending) ∨
        (op = .refund ∧ (c = .funding ∨ c = .extra ∨ c = .token) ∧
          (r.status = .active ∨ r.status = .refundPending))) :
      BookStep rid record (.applyAdjustment rid c op) b
        ((b.mark c op (r.adjustmentAmount c op)).write (r.complete c op))

section
variable {s s' s₁ : Store} {rid q : RequestID}

theorem book_same (hrec : s'.recoveries rid = s.recoveries rid)
    (hadj : s'.adjustments rid = s.adjustments rid) : book rid s' = book rid s := by
  simp only [book, hrec, hadj]

theorem book_flushed (hf : Flushed q s s') : book rid s' = book rid s :=
  book_same (by rw [hf.rows.recoveries]) (by rw [hf.rows.adjustments])

variable (hadj : s₁.adjustments = s.adjustments)
include hadj

theorem book_write : book rid (s₁.setRecovery rid r) = (book rid s).write r := by
  simp [book, Book.write, hadj]

theorem book_mark_write : book rid ((s₁.setAdjustment rid c op a).setRecovery rid r) =
      ((book rid s).mark c op a).write r := by
  ext c' op'
  · simp [book]
  · simp [book, setAdjustment_self, hadj]

theorem book_write_mark : book rid ((s₁.setRecovery rid r).setAdjustment rid c op a) =
      ((book rid s).write r).mark c op a := by
  ext c' op'
  · simp [book]
  · simp [book, setAdjustment_self, hadj]

end

theorem Change.book (rid : RequestID) (h : Change c s s') :
    BookStep rid (s.records rid) c (book rid s) (book rid s') := by
  by_cases hc : request c = some rid
  · cases h with
    | same => exact .same
    | flushed _ hf =>
      rw [book_flushed hf]
      exact .same
    | direct _ hrec hadj =>
      rw [book_same (by rw [hrec]) (by rw [hadj])]
      exact .same
    | create hr =>
      cases hc
      rw [book_write rfl]
      exact .create rfl hr
    | rebind hr hid hre =>
      cases hc
      rw [book_write rfl]
      exact .rebind rfl hr hid hre
    | abort hr ha hp hf hx ht =>
      cases hc
      rw [book_write rfl]
      exact .abort hr ha hp hf hx ht
    | amounts hr ha hf hx ht =>
      cases hc
      rw [book_write rfl]
      exact .amounts hr ha hf hx ht
    | settlement hr ha =>
      cases hc
      rw [book_write rfl]
      exact .settlement hr ha
    | refundPending hr ha =>
      cases hc
      rw [book_write rfl]
      exact .refundPending hr ha
    | settled hr ha hf ht =>
      cases hc
      rw [book_write rfl]
      exact .settled hr ha hf ht
    | refunded hr ha hcomp =>
      cases hc
      rw [book_write rfl]
      exact .refunded hr ha hcomp
    | charge hr hw ha hp hq hs hrows =>
      cases hc
      rw [book_write hrows.adjustments]
      exact .charge hr hw ha hp hq
    | extend hr ha hp hd hs hrec hadj =>
      cases hc
      rw [book_write_mark hadj]
      exact .extend hr ha hp hd
    | adjust hr hn ha hf he =>
      cases hc
      rw [book_mark_write ((effect_spec he).2.2.1.trans hf.rows.adjustments)]
      exact .adjust hr hn ha
  · obtain ⟨hrec, hadj⟩ := h.other hc
    rw [book_same hrec hadj]
    exact .same

theorem exec_book (cal : Calendar) (rid : RequestID) (c : Call) (s : Store) :
    BookStep rid (s.records rid) c (book rid s) (book rid (Call.exec cal c s).1) :=
  Change.book rid (exec_change cal c s)

/-- No trace of the request yet. -/
def Fresh (rid : RequestID) (s : Store) : Prop :=
  s.recoveries rid = none ∧ ∀ c op, s.adjustments rid c op = none

def WorkerCall (rid : RequestID) : Call → Prop
  | .findRecovery q | .markRefundPending q | .markSettled q | .markRefunded q |
    .applyAdjustment q _ _ => q = rid
  | _ => False

/-- Those of the settling half. -/
def SettleCall (rid : RequestID) : Call → Prop
  | .findRecovery q | .markSettled q | .applyAdjustment q _ .settle => q = rid
  | _ => False

theorem SettleCall.worker (h : SettleCall rid call) : WorkerCall rid call := by
  unfold SettleCall at h
  split at h <;> first | exact h | cases h

theorem onlyIf_uses (cond : Bool) (hp : p.Uses P) : (onlyIf cond p).Uses P := by
  unfold onlyIf
  split
  · exact hp
  · trivial

variable (rid : RequestID)

theorem find_uses : (Db.findRecovery rid).Uses (WorkerCall rid) :=
  ⟨rfl, fun _ => trivial⟩

theorem adjust_uses (cond : Bool) (c : Component) (op : Operation) :
    (onlyIf cond (Db.applyAdjustment rid c op)).Uses (WorkerCall rid) :=
  onlyIf_uses cond ⟨rfl, fun _ => trivial⟩

theorem recoverBillingSettlement_uses (status : RecoveryStatus) :
    (recoverBillingSettlement rid status).Uses (SettleCall rid) := by
  have find : (Db.findRecovery rid).Uses (SettleCall rid) := ⟨rfl, fun _ => trivial⟩
  have adjust : ∀ cond c, (onlyIf cond (Db.applyAdjustment rid c .settle)).Uses (SettleCall rid) :=
    fun cond c => onlyIf_uses cond ⟨rfl, fun _ => trivial⟩
  refine .bindExcept find (fun _ => trivial) fun r => ?_
  refine .bindExcept (adjust _ .funding) (fun _ => trivial) fun _ => ?_
  refine .bindExcept find (fun _ => trivial) fun r => ?_
  refine .bindExcept (adjust _ .token) (fun _ => trivial) fun _ => ?_
  refine .bindExcept find (fun _ => trivial) fun r => ?_
  simp only []
  split
  · trivial
  · exact .bindExcept ⟨rfl, fun _ => trivial⟩ (fun _ => trivial) fun _ => trivial

theorem recoverBillingRefund_uses (status : RecoveryStatus) :
    (recoverBillingRefund rid status).Uses (WorkerCall rid) := by
  refine .bindExcept ⟨rfl, fun _ => trivial⟩ (fun _ => trivial) fun _ => ?_
  refine .bindExcept (find_uses rid) (fun _ => trivial) fun r => ?_
  refine .bindExcept (adjust_uses rid _ .funding .refund) (fun _ => trivial) fun _ => ?_
  refine .bindExcept (find_uses rid) (fun _ => trivial) fun r => ?_
  refine .bindExcept (adjust_uses rid _ .extra .refund) (fun _ => trivial) fun _ => ?_
  refine .bindExcept (find_uses rid) (fun _ => trivial) fun r => ?_
  refine .bindExcept (adjust_uses rid _ .token .refund) (fun _ => trivial) fun _ => ?_
  refine .bindExcept (find_uses rid) (fun _ => trivial) fun r => ?_
  simp only []
  split
  · trivial
  · exact .bindExcept ⟨rfl, fun _ => trivial⟩ (fun _ => trivial) fun _ => trivial

theorem workerPass_uses : (workerPass rid).Uses (WorkerCall rid) := by
  refine Program.Uses.bind ?_ fun _ => trivial
  refine .bindExcept (find_uses rid) (fun _ => trivial) fun r => ?_
  simp only []
  split
  · exact (recoverBillingSettlement_uses rid _).mono fun _ hc => hc.worker
  · exact recoverBillingRefund_uses rid _
  · exact recoverBillingRefund_uses rid _
  · trivial

def sampleStore : Store where
  users := fun id => if id = 1 then some ⟨100⟩ else none
  tokens := fun id => if id = 1 then some { remainQuota := 100 } else none
  subscriptions := fun _ => none
  subscriptionIDs := []
  plans := fun _ => none
  records := fun _ => none
  recoveries := fun _ => none
  adjustments := fun _ _ _ => none
  userPending := fun _ => 0
  tokenPending := fun _ => 0

def sampleCalendar : Calendar := ⟨fun t => t + 1, fun t => t + 7, fun t => t + 30⟩

def sampleRequest : RequestID := ⟨"req", by decide⟩

def sampleRelay : RelayInfo := { requestId := sampleRequest, userId := 1, tokenId := 1 }

theorem sampleStore_fresh : Fresh sampleRequest sampleStore := ⟨rfl, fun _ _ => rfl⟩

end Ren2Hub.Proofs.RequestBook
