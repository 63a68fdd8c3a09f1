import Ren2Hub.Proofs.Rebind
import Ren2Hub.Proofs.SessionCalls
import Ren2Hub.Proofs.SubscriptionSpec

namespace Ren2Hub.Proofs.SubscriptionStates
open Lib Billing Ledger RecoverySpec CallSpec RequestBook Settlement Rebind SubscriptionSpec
  SessionCalls Call

/-- The part of a charge that goes to the token; a playground request has none. -/
def share (info : RelayInfo) (quota : Int) : Int := if info.isPlayground then 0 else quota

/-- What the token has lost or got back. Without a token id the markers stand for nothing. -/
def tokenMoved (info : RelayInfo) (b : Book) : Int := if 0 < info.tokenId then tokenDue b else 0

/-- A request either charges an existing token or is a playground request. -/
def TokenKnown (info : RelayInfo) (s : Store) : Prop :=
  info.isPlayground = true ∨ (0 < info.tokenId ∧ (s.tokens info.tokenId).isSome)

theorem TokenKnown.positive (h : TokenKnown info s) : TokenNamed info := h.imp_right And.left

/-- The row, if there is one, belongs to the subscription request. -/
structure RowOf (info : RelayInfo) (b : Book) : Prop where
  token : ∀ r, b.row = some r → r.tokenID = info.tokenId
  source : ∀ r, b.row = some r → r.source = .subscription
  required : ∀ r, b.row = some r → r.tokenRequired = !info.isPlayground

/-- A row that never stored an amount and is not being settled. -/
structure Blank (r : BillingRecovery) : Prop where
  prepared : r.preConsumeState = .prepared
  funding : r.fundingAmount = 0
  extra : r.extraAmount = 0
  token : r.tokenAmount = 0
  unsettled : Unsettled r

section States
variable (cal : Calendar) (info : RelayInfo) (now : Int) (s0 : Store)

/-- The request took `t` from the token and nothing from a subscription, and its
row knows of neither. -/
structure Untouched (t : Int) (s : Store) : Prop where
  row : RowOf info (book info.rid s)
  settle : SettleShape (book info.rid s)
  fresh : s.recoveries info.rid = none → ∀ c op, s.adjustments info.rid c op = none
  blank : ∀ r, s.recoveries info.rid = some r → Blank r
  record : s.records info.rid = none
  subscriptions : s.subscriptions = s0.subscriptions
  plans : s.plans = s0.plans
  token : Shift s0 s 0 (point info.tokenId (-t))

/-- No refund has touched the row yet, so the request may still take something. -/
structure Open (t : Int) (s : Store) : Prop extends Untouched info s0 t s where
  refund : RefundShape (book info.rid s)
  alive : ∀ r, s.recoveries info.rid = some r → r.status ≠ .refunded

/-- Token and subscription are charged, but the amounts are only in the record. -/
structure Taken (p : Int) (s : Store) : Prop where
  row : RowOf info (book info.rid s)
  settle : SettleShape (book info.rid s)
  refund : RefundShape (book info.rid s)
  blank : ∃ r, s.recoveries info.rid = some r ∧ Blank r ∧ r.status ≠ .refunded
  positive : 0 < p
  keyed : Keyed s
  token : Shift s0 s 0 (point info.tokenId (-share info p))
  used : ∃ record, s.records info.rid = some record ∧ record.status = .consumed ∧
    record.preConsumed = p ∧ (s.subscriptions record.userSubscriptionId).isSome ∧
    UsedBeyond cal now s0 (point record.userSubscriptionId p) s

/-- What the record of the request still holds of a subscription. -/
def recordHeld : Option SubscriptionPreConsumeRecord → Int → Int
  | some record => point record.userSubscriptionId
      (if record.status = .consumed then record.preConsumed else 0)
  | none => 0

/-- What later reservations still hold of it. -/
def extraHeld (r : BillingRecovery) (b : Book) : Int → Int :=
  point r.subscriptionID (if 0 < r.subscriptionID then
    r.extraAmount - (b.marks .extra .refund).getD 0 else 0)

/-- Record, row and markers agree on what the request holds of subscriptions. -/
structure Funded (r : BillingRecovery) (s : Store) : Prop where
  record : (s.records info.rid = none ∧ r.fundingAmount = 0) ∨
    ∃ record, s.records info.rid = some record ∧ 0 < record.preConsumed ∧
      r.fundingAmount = record.preConsumed ∧
      (s.subscriptions record.userSubscriptionId).isSome ∧
      (record.status = .refunded ↔ (s.adjustments info.rid .funding .refund).isSome)
  used : UsedBeyond cal now s0
    (recordHeld (s.records info.rid) + extraHeld r (book info.rid s)) s

/-- The row knows what the request took. -/
structure Live (s : Store) : Prop where
  row : RowOf info (book info.rid s)
  settle : SettleShape (book info.rid s)
  refund : RefundShape (book info.rid s)
  stored : ∃ r, s.recoveries info.rid = some r ∧ r.preConsumeState = .committed ∧
    0 ≤ r.extraAmount ∧ 0 ≤ r.tokenAmount
  keyed : Keyed s
  token : Shift s0 s 0 (point info.tokenId (tokenMoved info (book info.rid s)))
  funded : ∀ r, s.recoveries info.rid = some r → Unsettled r → Funded cal info now s0 r s

end States

/-- The refund of the row was announced, or the row is beyond that. -/
def Closing (rid : RequestID) (s : Store) : Prop :=
  ∃ r, s.recoveries rid = some r ∧ r.status ≠ .active

/-- A refund marker stands on the row. -/
def refundMarked (rid : RequestID) (s : Store) : Bool :=
  (s.adjustments rid .funding .refund).isSome || (s.adjustments rid .extra .refund).isSome ||
    (s.adjustments rid .token .refund).isSome

/-- Quota is taken only while nothing of the row was refunded, and a row without amounts is only
refunded while nothing was taken. -/
def TakesInTime (info : RelayInfo) (s0 : Store) (call : Call) (s : Store) : Prop :=
  match call, s.recoveries info.rid with
  | .tryReserveTokenQuota _ _ _, _ | .preConsumeUserSubscription _ _ _ _, _ =>
    refundMarked info.rid s = false
  | .applyAdjustment rid _ .refund, some r =>
    rid = info.rid → r.preConsumeState = .prepared →
      tokenTotal s info.tokenId = tokenTotal s0 info.tokenId ∧
      (s.records info.rid).all (fun record => record.status ≠ .consumed)
  | _, _ => True

instance (info : RelayInfo) (s0 : Store) (call : Call) (s : Store) :
    Decidable (TakesInTime info s0 call s) := by
  unfold TakesInTime
  cases call with
  | applyAdjustment _ _ operation =>
    cases operation <;> cases s.recoveries info.rid <;> infer_instance
  | _ => infer_instance

theorem tokenMoved_write (info : RelayInfo) (hr : b.row = some r) (r' : BillingRecovery) :
    tokenMoved info (b.write r') = tokenMoved info b +
      (if 0 < info.tokenId then r.tokenAmount - r'.tokenAmount else 0) := by
  unfold tokenMoved
  split
  · exact (dues_write hr r').2
  · rfl

/-- The fields of a row that no transaction but a rebind changes. -/
abbrev SameRequest (r r' : BillingRecovery) : Prop :=
  r'.tokenID = r.tokenID ∧ r'.source = r.source ∧ r'.tokenRequired = r.tokenRequired

theorem RowOf.next (h : RowOf info b) (hr : b.row = some r) (hr' : b'.row = some r')
    (hsame : SameRequest r r') : RowOf info b' := by
  obtain ⟨ht, hs, hq⟩ := hsame
  refine ⟨?_, ?_, ?_⟩ <;> intro q hrow <;> rw [hr'] at hrow <;> cases hrow
  · rw [ht, h.token r hr]
  · rw [hs, h.source r hr]
  · rw [hq, h.required r hr]

/-- The markers of a book fit its row. -/
structure Shaped (b : Book) : Prop where
  settle : SettleShape b
  refund : RefundShape b

theorem Shaped.step (h : Shaped b) (hb : BookStep rid record call b b')
    (hd : RefundsDuly rid call b) : Shaped b' :=
  ⟨(step_settle hb h.settle).1, step_refund hb h.refund hd⟩

theorem extend_subscription {r : BillingRecovery} (hs : r.source = .subscription) (d : Int) :
    r.extend d = { r with extraAmount := r.extraAmount + d
                          tokenAmount := r.tokenAmount + tokenShare r d } := by
  unfold BillingRecovery.extend tokenShare
  simp only [hs]
  split
  · rfl
  · simp

section Steps
variable {cal : Calendar} {info : RelayInfo} {now : Int} {s0 : Store}

theorem Funded.move (h : Funded cal info now s0 r s) (hc : Consumed s s' u)
    (hf : r'.fundingAmount = r.fundingAmount)
    (hm : s'.adjustments info.rid .funding .refund =
      s.adjustments info.rid .funding .refund)
    (hx : extraHeld r' (book info.rid s') = extraHeld r (book info.rid s) + u) :
    Funded cal info now s0 r' s' := by
  refine ⟨?_, ?_⟩
  · rw [hc.records, hf, hm]
    rcases h.record with hnone | ⟨record, hrec, hpos, hamt, hsub, hiff⟩
    · exact .inl hnone
    · exact .inr ⟨record, hrec, hpos, hamt, (hc.rows _).trans hsub, hiff⟩
  · rw [hc.records, hx, ← add_assoc]
    exact h.used.consumed hc

section
variable (h : Live cal info now s0 s)
include h

theorem Live.shaped : Shaped (book info.rid s) := ⟨h.settle, h.refund⟩

theorem Live.move (hr : s.recoveries info.rid = some r) (hr' : s'.recoveries info.rid = some r')
    (hsame : r'.preConsumeState = r.preConsumeState ∧ SameRequest r r')
    (hx : r.extraAmount ≤ r'.extraAmount) (ht : r.tokenAmount ≤ r'.tokenAmount)
    (hshape : Shaped (book info.rid s')) (hk : Keyed s')
    (hs : Shift s s' 0 (point info.tokenId m))
    (hm : tokenMoved info (book info.rid s') = tokenMoved info (book info.rid s) + m)
    (hu : Unsettled r' → Funded cal info now s0 r' s') : Live cal info now s0 s' := by
  obtain ⟨q, hq, hcom, hx0, ht0⟩ := h.stored
  rw [hr] at hq
  cases hq
  refine ⟨h.row.next hr hr' hsame.2, hshape.settle, hshape.refund,
    ⟨r', hr', hsame.1.trans hcom, by omega, by omega⟩, hk, ?_, ?_⟩
  · rw [hm, ← point_add]
    simpa using h.token.trans hs
  intro q hq
  rw [hr'] at hq
  cases hq
  exact hu

theorem Live.flush (hf : Flushed info.rid s s') : Live cal info now s0 s' := by
  have hb : book info.rid s' = book info.rid s := book_flushed hf
  obtain ⟨r, hr, _⟩ := h.stored
  have hc := Consumed.of_same h.keyed hf.rows.subscriptionSide
  refine h.move (m := 0) hr (hf.rows.recoveries ▸ hr) ⟨rfl, rfl, rfl, rfl⟩ le_rfl le_rfl
    (hb ▸ h.shaped) hc.keyed (by simpa using hf.shift) (by rw [hb]; omega) ?_
  intro hu
  exact (h.funded r hr hu).move hc rfl (by rw [hf.rows.adjustments]) (by rw [hb, add_zero])

theorem Live.restatus (hr : s.recoveries info.rid = some r)
    (hs' : s' = s.setRecovery info.rid { r with settlementDelta := d, status := st })
    (hshape : Shaped (book info.rid s'))
    (hu : st = .refundPending ∨ st = .refunded → Unsettled r) (hst : st ≠ .active) :
    Live cal info now s0 s' := by
  subst hs'
  have hrow : (book info.rid s).row = some r := hr
  have hc : Consumed s (s.setRecovery info.rid { r with settlementDelta := d, status := st })
      0 := .of_same h.keyed ⟨rfl, rfl, rfl⟩
  refine h.move (m := 0) hr (setRecovery_self _ _ _) ⟨rfl, rfl, rfl, rfl⟩ le_rfl le_rfl hshape
    hc.keyed (by simpa using setRecovery_shift _ _ _) ?_ ?_
  · rw [book_write rfl, tokenMoved_write info hrow]
    simp
  rintro (hact | hpend)
  · exact absurd hact hst
  refine (h.funded r hr (hu hpend)).move hc rfl rfl ?_
  rw [book_write rfl, add_zero]
  rfl

/-- What a reservation takes from the subscription is extra, and the token amount grows alike. -/
theorem Live.extend (hr : s.recoveries info.rid = some r) (hact : r.status = .active) (hd : 0 < d)
    (hs : Shift s s1 (point r.userID (-walletShare r d)) (point r.tokenID (-tokenShare r d)))
    (hadj : s1.adjustments = s.adjustments) (hfund : Reserved r d s s1)
    (hs' : s' = (s1.setRecovery info.rid (r.extend d)).setAdjustment info.rid
      (.reserve target) .reserve d) (hshape : Shaped (book info.rid s')) :
    Live cal info now s0 s' := by
  have hrow : (book info.rid s).row = some r := hr
  have hsrc := h.row.source r hr
  have htid := h.row.token r hr
  have hwal : walletShare r d = 0 := by simp [walletShare, hsrc]
  rw [hwal, htid, neg_zero, point_zero] at hs
  have hb : book info.rid s' =
      ((book info.rid s).write (r.extend d)).mark (.reserve target) .reserve d := by
    rw [hs']
    exact book_write_mark hadj
  have hshare : 0 ≤ tokenShare r d := by
    unfold tokenShare
    split <;> omega
  have h0 := h.keyed.usedAmount_nonneg r.subscriptionID
  have hc : Consumed s s' (point r.subscriptionID (if 0 < r.subscriptionID then d else 0)) := by
    rw [hs']
    exact (Reserved.consumed hfund h.keyed hsrc (by omega)).trans_same ⟨rfl, rfl, rfl⟩
  rw [extend_subscription hsrc] at hb hs'
  have hr' : s'.recoveries info.rid = some { r with
      extraAmount := r.extraAmount + d, tokenAmount := r.tokenAmount + tokenShare r d } := by
    rw [hs']
    simp
  refine h.move hr hr' ⟨rfl, rfl, rfl, rfl⟩ ?_ ?_ hshape hc.keyed ?_ ?_ ?_ (m := -tokenShare r d)
  · show r.extraAmount ≤ r.extraAmount + d
    omega
  · show r.tokenAmount ≤ r.tokenAmount + tokenShare r d
    omega
  · rw [hs']
    exact (hs.trans_same (setRecovery_shift _ _ _)).trans_same (setAdjustment_shift _ _ _ _ _)
  · have hw := tokenMoved_write info hrow
      { r with extraAmount := r.extraAmount + d, tokenAmount := r.tokenAmount + tokenShare r d }
    rw [hb]
    refine Eq.trans ?_ (hw.trans ?_)
    · simp [tokenMoved, tokenDue]
    by_cases hid : 0 < info.tokenId
    · simp [hid]
    · have hz : tokenShare r d = 0 := if_neg fun hc => hid (htid ▸ hc.2)
      simp [hid, hz]
  · intro _
    refine (h.funded r hr (.inl hact)).move hc rfl ?_ ?_
    · rw [hs', setAdjustment_self, setRecovery_adjustments, hadj]
      simp
    rw [hb]
    simp only [extraHeld, Book.mark_marks, Book.write_marks, point_add]
    by_cases hpos : 0 < r.subscriptionID
    · simp only [hpos, if_true]
      exact congrArg _ (sub_add_eq_add_sub _ _ _).symm
    · simp [hpos]

end

theorem adjust_moved (hr : b.row = some r) (hn : b.marks c op = none)
    (hop : (op = .settle ∧ (c = .funding ∨ c = .token)) ∨
      (op = .refund ∧ (c = .funding ∨ c = .extra ∨ c = .token)))
    (htid : r.tokenID = info.tokenId) :
    tokenMoved info ((b.mark c op a).write (r.complete c op)) =
      tokenMoved info b + tokenEffect r c op a := by
  have hmark : (b.mark c op a).row = some r := hr
  have hm := (dues_mark (a := a) hn hop).2
  have hw := (dues_write hmark (r.complete c op)).2
  obtain ⟨_, _, _, _, _, he⟩ := complete_eq r c op
  have hsame : (r.complete c op).tokenAmount = r.tokenAmount := by rw [he]
  rw [hsame] at hw
  unfold tokenMoved tokenEffect
  rw [htid]
  by_cases hid : 0 < info.tokenId
  · simp only [hid, if_true, and_true]
    omega
  · simp [hid]

theorem Live.adjust (h : Live cal info now s0 s) (hr : s.recoveries info.rid = some r)
    (hn : s.adjustments info.rid c op = none)
    (hop : (op = .settle ∧ (c = .funding ∨ c = .token)) ∨
      (op = .refund ∧ (c = .funding ∨ c = .extra ∨ c = .token)))
    (hf : Flushed info.rid s s1)
    (he : applyBillingRecoveryEffect info.rid r c op a s1 = .ok s2)
    (hs' : s' = (s2.setAdjustment info.rid c op a).setRecovery info.rid (r.complete c op))
    (hshape : Shaped (book info.rid s')) (hk : Keyed s')
    (hu : Unsettled (r.complete c op) → Funded cal info now s0 (r.complete c op) s') :
    Live cal info now s0 s' := by
  obtain ⟨hs, _, hadj, _⟩ := effect_spec he
  obtain ⟨_, _, _, _, _, hc⟩ := complete_eq r c op
  have htid := h.row.token r hr
  have hwal : walletEffect r c op a = 0 := by simp [walletEffect, h.row.source r hr]
  rw [hwal, htid, point_zero] at hs
  refine h.move hr (by rw [hs']; simp) (by rw [hc]; exact ⟨rfl, rfl, rfl, rfl⟩) (by rw [hc])
    (by rw [hc]) hshape hk ?_ ?_ hu (m := tokenEffect r c op a)
  · rw [hs']
    exact ((hf.shift.same_trans hs).trans_same (setAdjustment_shift _ _ _ _ _)).trans_same
      (setRecovery_shift _ _ _)
  · rw [hs', book_mark_write (hadj.trans hf.rows.adjustments)]
    exact adjust_moved hr hn hop htid

theorem recordHeld_nonneg (h : ∀ record, o = some record → 0 ≤ record.preConsumed) (k : Int) :
    0 ≤ recordHeld o k := by
  cases o with
  | none => exact le_refl 0
  | some record =>
    have hp := h record rfl
    simp only [recordHeld, point]
    repeat' split
    all_goals omega

theorem Live.extraHeld_nonneg (h : Live cal info now s0 s)
    (hr : s.recoveries info.rid = some r) (k : Int) :
    0 ≤ extraHeld r (book info.rid s) k := by
  obtain ⟨q, hq, _, hx, _⟩ := h.stored
  rw [hr] at hq
  cases hq
  have hmark : 0 ≤ r.extraAmount - ((book info.rid s).marks .extra .refund).getD 0 := by
    cases hm : (book info.rid s).marks .extra .refund with
    | none => simpa using hx
    | some a =>
      have ha : a = r.extraAmount := (h.refund.marked r _ a hr hm).2.2
      simp [ha]
  unfold extraHeld point
  repeat' split
  all_goals omega

theorem Funded.held_nonneg (h : Funded cal info now s0 r s) (k : Int) :
    0 ≤ recordHeld (s.records info.rid) k := by
  refine recordHeld_nonneg (fun record hrec => ?_) k
  rcases h.record with ⟨hn, _⟩ | ⟨q, hq, hpos, _⟩
  · rw [hn] at hrec
    cases hrec
  rw [hq] at hrec
  cases hrec
  omega

section
variable (h : Live cal info now s0 s)
include h

section
variable (hr : s.recoveries info.rid = some r)
include hr

theorem Live.refund_funding (hu : Unsettled r)
    (hn : s.adjustments info.rid .funding .refund = none) (hf : Flushed info.rid s s1)
    (he : applyBillingRecoveryEffect info.rid r .funding .refund r.fundingAmount s1 = .ok s2)
    (hs' : s' = (s2.setAdjustment info.rid .funding .refund a).setRecovery info.rid
      { r with fundingRefund := .completed }) :
    Keyed s' ∧ Funded cal info now s0 { r with fundingRefund := .completed } s' := by
  obtain ⟨_, _, hadj, _⟩ := effect_spec he
  have hfd := h.funded r hr hu
  have hk1 := h.keyed.of_same hf.rows.subscriptions
  have hb : book info.rid s' = ((book info.rid s).mark .funding .refund a).write
      { r with fundingRefund := .completed } := by
    rw [hs']
    exact book_mark_write (hadj.trans hf.rows.adjustments)
  have hmark : s'.adjustments info.rid .funding .refund = some a := by
    rw [hs', setRecovery_adjustments, setAdjustment_self]
    simp
  have hextra : extraHeld { r with fundingRefund := .completed } (book info.rid s') =
      extraHeld r (book info.rid s) := by
    simp [extraHeld, hb]
  rcases hfd.record with ⟨hnone, hzero⟩ | ⟨record, hrec, hpos, hamt, hsub, hiff⟩
  · -- No record and no amount: the adjustment is empty.
    rw [hzero] at he
    have hsame : SameSubscriptions s s' := by
      rw [hs', effect_zero he]
      exact hf.rows.subscriptionSide.trans ⟨rfl, rfl, rfl⟩
    have hc := Consumed.of_same h.keyed hsame
    refine ⟨hc.keyed, .inl ⟨hsame.records ▸ hnone, hzero⟩, ?_⟩
    rw [hsame.records, hextra]
    simpa using hfd.used.consumed hc
  · have hst : record.status = .consumed := by
      cases hs : record.status with
      | consumed => rfl
      | refunded =>
        have hsome := hiff.mp hs
        rw [hn] at hsome
        cases hsome
    have hrec1 : s1.records info.rid = some record := hf.rows.records ▸ hrec
    obtain ⟨s3, hpost, rfl⟩ := effect_funding_consumed he (h.row.source r hr) (by omega) hrec1 hst
      hpos (hf.rows.subscriptions ▸ hsub)
    -- The subscription holds at least what the record says, so nothing is clipped.
    have hle := hfd.used.le record.userSubscriptionId
    have hx := h.extraHeld_nonneg hr record.userSubscriptionId
    have hheld : recordHeld (s.records info.rid) record.userSubscriptionId =
        record.preConsumed := by
      simp [hrec, recordHeld, hst]
    rw [Pi.add_apply, hheld] at hle
    have hc1 := postConsumeTx_consumed hpost hk1 (by
      rw [usedAmount_same hf.rows.subscriptions]
      omega)
    have hc := Consumed.same_trans hf.rows.subscriptionSide hc1
    have hsubs : s'.subscriptions = s3.subscriptions := by rw [hs']; rfl
    have hrec' : s'.records info.rid = some { record with status := .refunded } := by
      rw [hs']
      simp [Store.setRecovery, Store.setAdjustment, Store.setRecord]
    refine ⟨hc.keyed.of_same hsubs, .inr ⟨_, hrec', hpos, hamt, ?_, ?_⟩, ?_⟩
    · rw [hsubs, hc.rows]
      exact hsub
    · simp [hmark]
    rw [hrec', hextra]
    obtain ⟨base, hbase, hused⟩ := hfd.used.consumed hc
    refine ⟨base, hbase, fun k => ?_⟩
    rw [usedAmount_same hsubs, hused]
    simp only [hrec, recordHeld, hst, Pi.add_apply, point]
    split <;> simp

theorem Live.refund_extra (hu : Unsettled r)
    (hn : s.adjustments info.rid .extra .refund = none) (hf : Flushed info.rid s s1)
    (he : applyBillingRecoveryEffect info.rid r .extra .refund r.extraAmount s1 = .ok s2)
    (hs' : s' = (s2.setAdjustment info.rid .extra .refund r.extraAmount).setRecovery
      info.rid { r with extraRefund := .completed }) :
    Keyed s' ∧ Funded cal info now s0 { r with extraRefund := .completed } s' := by
  obtain ⟨_, _, hadj, _⟩ := effect_spec he
  have hfd := h.funded r hr hu
  rw [effect_extra_eq] at he
  have hle := hfd.used.le r.subscriptionID
  have hrec := hfd.held_nonneg r.subscriptionID
  have hnone : (book info.rid s).marks .extra .refund = none := hn
  have hc1 := applySubscriptionDelta_consumed he (h.keyed.of_same hf.rows.subscriptions) (by
    intro hpos
    rw [usedAmount_same hf.rows.subscriptions]
    rw [Pi.add_apply] at hle
    simp only [extraHeld, hpos, if_true, hnone, Option.getD_none, point_self] at hle
    omega)
  have hc : Consumed s s' (point r.subscriptionID
      (if 0 < r.subscriptionID then -r.extraAmount else 0)) := by
    rw [hs']
    exact (Consumed.same_trans hf.rows.subscriptionSide hc1).trans_same ⟨rfl, rfl, rfl⟩
  refine ⟨hc.keyed, hfd.move hc rfl ?_ ?_⟩
  · rw [hs', setRecovery_adjustments, setAdjustment_self, hadj, hf.rows.adjustments]
    simp
  rw [hs', book_mark_write (hadj.trans hf.rows.adjustments)]
  simp only [extraHeld, Book.write_marks, Book.mark_marks, hnone, point_add]
  by_cases hpos : 0 < r.subscriptionID <;> simp [hpos]

theorem Live.refund_token (hu : Unsettled r) (hf : Flushed info.rid s s1)
    (he : applyBillingRecoveryEffect info.rid r .token .refund a s1 = .ok s2)
    (hs' : s' = (s2.setAdjustment info.rid .token .refund a).setRecovery info.rid
      { r with tokenRefund := .completed }) :
    Keyed s' ∧ Funded cal info now s0 { r with tokenRefund := .completed } s' := by
  obtain ⟨_, _, hadj, _⟩ := effect_spec he
  have hsame : SameSubscriptions s s' := by
    rw [hs']
    exact (hf.rows.subscriptionSide.trans (effect_token_side he)).trans ⟨rfl, rfl, rfl⟩
  have hc := Consumed.of_same h.keyed hsame
  refine ⟨hc.keyed, (h.funded r hr hu).move hc rfl ?_ ?_⟩
  · rw [hs', setRecovery_adjustments, setAdjustment_self, hadj, hf.rows.adjustments]
    simp
  · rw [hs', book_mark_write (hadj.trans hf.rows.adjustments), add_zero]
    simp [extraHeld]

end

theorem Live.duly (hK : ∀ c, call = .applyAdjustment info.rid c .refund → Closing info.rid s) :
    RefundsDuly info.rid call (book info.rid s) := by
  unfold RefundsDuly
  split
  · rename_i q c r hr
    rintro rfl _ hst
    obtain ⟨r1, hr1, hp, _⟩ := h.stored
    obtain ⟨r2, hr2, hne⟩ := hK c rfl
    have hrow : s.recoveries info.rid = some r := hr
    rw [hrow] at hr1 hr2
    cases hr1
    cases hr2
    exact ⟨hst.resolve_left hne, hp⟩
  · trivial

end

/-- Once the row knows what was taken, every call keeps it in step with token and subscription. -/
theorem live_step (cal : Calendar) (call : Call) (s : Store) (hc : SessionStep info.rid call)
    (hK : ∀ c, call = .applyAdjustment info.rid c .refund → Closing info.rid s)
    (h : Live cal info now s0 s) : Live cal info now s0 (exec cal call s).1 := by
  have hshape := h.shaped.step (exec_book cal info.rid call s) (h.duly hK)
  have hch := exec_change cal call s
  generalize (exec cal call s).1 = s' at hch hshape ⊢
  obtain ⟨r0, hr0, hp0, _⟩ := h.stored
  cases hch with
  | same => exact h
  | flushed hreq hf =>
    have hq := SessionStep.request hc
    rw [hreq] at hq
    cases hq
    exact h.flush hf
  | create | rebind | abort | amounts | charge => cases hc
  | direct hd => rw [SessionStep.not_direct hc] at hd; cases hd
  | settlement hr | settled hr =>
    cases hc
    exact h.restatus hr rfl hshape (by simp) (by simp)
  | refunded hr ha =>
    cases hc
    exact h.restatus hr rfl hshape (fun _ => .inr (.inl ha)) (by simp)
  | refundPending hr ha =>
    cases hc
    rw [hr] at hr0
    cases hr0
    rw [withRecord_committed hp0] at hshape ⊢
    exact h.restatus hr rfl hshape (fun _ => ha.imp_right .inl) (by simp)
  | extend hr ha _ hd hs _ hadj _ hfund =>
    cases hc
    exact h.extend hr ha hd hs hadj hfund rfl hshape
  | adjust hr hn ha hf he =>
    cases hc
    rcases ha with ⟨rfl, hc, hst⟩ | ⟨rfl, hc, hst⟩
    · have hk := effect_settle_keyed he (h.keyed.of_same hf.rows.subscriptions)
      refine h.adjust hr hn (.inl ⟨rfl, hc⟩) hf he rfl hshape (hk.of_same rfl) fun hu => ?_
      obtain ⟨_, _, heq⟩ := complete_settle_eq _ _
      rw [heq] at hu
      rcases hu with hu | hu | hu <;> exact absurd (hst.symm.trans hu) (by simp)
    · have hu : Unsettled _ := hst.imp_right .inl
      rcases hc with rfl | rfl | rfl
      · obtain ⟨hk, hfd⟩ := h.refund_funding hr hu hn hf he rfl
        exact h.adjust hr hn (.inr ⟨rfl, .inl rfl⟩) hf he rfl hshape hk fun _ => hfd
      · obtain ⟨hk, hfd⟩ := h.refund_extra hr hu hn hf he rfl
        exact h.adjust hr hn (.inr ⟨rfl, .inr (.inl rfl)⟩) hf he rfl hshape hk fun _ => hfd
      · obtain ⟨hk, hfd⟩ := h.refund_token hr hu hf he rfl
        exact h.adjust hr hn (.inr ⟨rfl, .inr (.inr rfl)⟩) hf he rfl hshape hk fun _ => hfd

theorem Blank.refund_amount (h : Blank r) (c : Component) : r.adjustmentAmount c .refund = 0 := by
  cases c with
  | funding => exact h.funding
  | extra => exact h.extra
  | token => exact h.token
  | reserve => rfl

theorem Blank.restatus (h : Blank r) (hu : Unsettled { r with status := st }) :
    Blank { r with status := st } :=
  ⟨h.prepared, h.funding, h.extra, h.token, hu⟩

theorem Blank.complete (h : Blank r) (c : Component) : Blank (r.complete c .refund) := by
  obtain ⟨_, _, _, he⟩ := complete_refund_eq r c
  rw [he]
  exact ⟨h.prepared, h.funding, h.extra, h.token, h.unsettled⟩

theorem withRecord_none (r : BillingRecovery) : r.withRecord none = r := by
  unfold BillingRecovery.withRecord
  split <;> rfl

theorem Untouched.move (h : Untouched info s0 t s) (hr : s.recoveries info.rid = some r)
    (hr' : s'.recoveries info.rid = some r') (hb : Blank r')
    (hsame : SameRequest r r') (hset : SettleShape (book info.rid s')) (hs : Shift s s' 0 0)
    (hside : SameSubscriptions s s') : Untouched info s0 t s' := by
  refine ⟨h.row.next hr hr' hsame, hset, ?_, ?_, hside.records ▸ h.record,
    hside.subscriptions.trans h.subscriptions, hside.plans.trans h.plans, h.token.trans_same hs⟩
  · intro hn
    rw [hr'] at hn
    cases hn
  intro q hq
  rw [hr'] at hq
  cases hq
  exact hb

theorem Untouched.flush (h : Untouched info s0 t s) (hf : Flushed info.rid s s') :
    Untouched info s0 t s' := by
  have hb : book info.rid s' = book info.rid s := book_flushed hf
  refine ⟨hb ▸ h.row, hb ▸ h.settle, ?_, ?_, hf.rows.records ▸ h.record,
    hf.rows.subscriptions.trans h.subscriptions, hf.rows.plans.trans h.plans,
    h.token.trans_same hf.shift⟩
  · rw [hf.rows.recoveries, hf.rows.adjustments]
    exact h.fresh
  · rw [hf.rows.recoveries]
    exact h.blank

/-- The calls that leave a request without amounts as it is. -/
def ClosingCall (rid : RequestID) : Call → Prop
  | .abortPrepared q => q = rid
  | c => WorkerCall rid c

theorem WorkerCall.closing (h : WorkerCall rid call) : ClosingCall rid call := by
  cases call <;> first | exact h | cases h

theorem ClosingCall.request (h : ClosingCall rid call) : request call = some rid := by
  cases call <;> cases h <;> rfl

theorem ClosingCall.not_direct (h : ClosingCall rid call) : direct call = false := by
  cases call <;> cases h <;> rfl

theorem Blank.not_settling (h : Blank r) (hs : r.status = .settlementPending) : False := by
  rcases h.unsettled with hu | hu | hu <;> exact absurd (hs.symm.trans hu) (by simp)

theorem untouched_step (cal : Calendar) (call : Call) (s : Store) (hc : ClosingCall info.rid call)
    (h : Untouched info s0 t s) : Untouched info s0 t (exec cal call s).1 := by
  have hset := (step_settle (exec_book cal info.rid call s) h.settle).1
  have hch := exec_change cal call s
  generalize (exec cal call s).1 = s' at hch hset ⊢
  cases hch with
  | same => exact h
  | flushed hreq hf =>
    have hq := hc.request
    rw [hreq] at hq
    cases hq
    exact h.flush hf
  | direct hd => rw [hc.not_direct] at hd; cases hd
  | create | rebind | amounts | charge | settlement | extend => cases hc
  | abort hr | refunded hr =>
    cases hc
    exact h.move hr (setRecovery_self _ _ _) ((h.blank _ hr).restatus (.inr (.inr rfl)))
      ⟨rfl, rfl, rfl⟩ hset (setRecovery_shift _ _ _) ⟨rfl, rfl, rfl⟩
  | refundPending hr =>
    cases hc
    rw [h.record, withRecord_none] at hset ⊢
    exact h.move hr (setRecovery_self _ _ _) ((h.blank _ hr).restatus (.inr (.inl rfl)))
      ⟨rfl, rfl, rfl⟩ hset (setRecovery_shift _ _ _) ⟨rfl, rfl, rfl⟩
  | settled hr ha =>
    cases hc
    exact ((h.blank _ hr).not_settling ha).elim
  | adjust hr hn ha hf he =>
    cases hc
    rcases ha with ⟨rfl, _, hst⟩ | ⟨rfl, _, _⟩
    · exact ((h.blank _ hr).not_settling hst).elim
    -- A row without amounts has nothing to give back.
    have hz := (h.blank _ hr).refund_amount
    rw [hz] at he hset ⊢
    rw [effect_zero he] at hset ⊢
    obtain ⟨_, _, _, hc⟩ := complete_refund_eq _ _
    refine h.move hr (setRecovery_self _ _ _) ((h.blank _ hr).complete _)
      (by rw [hc]; exact ⟨rfl, rfl, rfl⟩) hset ?_ ?_
    · exact (hf.shift.trans_same (setAdjustment_shift _ _ _ _ _)).trans_same
        (setRecovery_shift _ _ _)
    · exact hf.rows.subscriptionSide.trans ⟨rfl, rfl, rfl⟩

theorem marks_kept (h : BookStep rid record call b b') (hm : (b.marks c op).isSome) :
    (b'.marks c op).isSome := by
  cases h with
  | extend | adjust =>
    simp only [Book.mark_marks, Book.write_marks]
    split
    · rfl
    · exact hm
  | _ => exact hm

theorem refundMarked_kept (cal : Calendar) (call : Call) (h : refundMarked rid s = true) :
    refundMarked rid (exec cal call s).1 = true := by
  have hk : ∀ c, (s.adjustments rid c .refund).isSome →
      ((exec cal call s).1.adjustments rid c .refund).isSome :=
    fun c hm => marks_kept (exec_book cal rid call s) hm
  simp only [refundMarked, Bool.or_eq_true] at h ⊢
  rcases h with (h | h) | h
  · exact .inl (.inl (hk _ h))
  · exact .inl (.inr (hk _ h))
  · exact .inr (hk _ h)

theorem refundMarked_of_mark (hc : c = .funding ∨ c = .extra ∨ c = .token)
    (h : (s.adjustments rid c .refund).isSome) : refundMarked rid s = true := by
  rcases hc with rfl | rfl | rfl <;> simp [refundMarked, h]

theorem closing_kept (h : BookStep rid record call (book rid s) (book rid s'))
    (hne : ∀ input, call ≠ .rebindRecovery input) (hk : Closing rid s) : Closing rid s' := by
  obtain ⟨r, hr, hst⟩ := hk
  have hrow : (book rid s).row = some r := hr
  have key : ∀ r', (book rid s').row = some r' → r'.status ≠ .active → Closing rid s' :=
    fun r' hr' hst' => ⟨r', hr', hst'⟩
  generalize book rid s' = b' at h key
  cases h with
  | same => exact key r hrow hst
  | create _ hn => rw [hrow] at hn; cases hn
  | rebind => exact absurd rfl (hne _)
  | amounts hq ha | charge hq _ ha | extend hq ha => rw [hrow] at hq; cases hq; exact absurd ha hst
  | adjust hq =>
    rw [hrow] at hq
    cases hq
    refine key _ rfl ?_
    obtain ⟨_, _, _, _, _, he⟩ := complete_eq r _ _
    rw [he]
    exact hst
  | _ => exact key _ rfl (by simp)

/-- Only before the request took anything that no row records may a refund close the row. -/
theorem open_step (cal : Calendar) (call : Call) (s : Store) (hc : WorkerCall info.rid call)
    (hg : TakesInTime info s0 call s) (h : Open info s0 t s) :
    Open info s0 t (exec cal call s).1 ∨
      (t = 0 ∧ refundMarked info.rid (exec cal call s).1 = true) := by
  have hun := untouched_step cal call s (WorkerCall.closing hc) h.toUntouched
  have href : RefundsDuly info.rid call (book info.rid s) →
      RefundShape (book info.rid (exec cal call s).1) :=
    step_refund (exec_book cal info.rid call s) h.refund
  have hch := exec_change cal call s
  generalize (exec cal call s).1 = s' at hch href hun ⊢
  -- As long as the row has no marker it cannot be refunded.
  have halive : ∀ r, s.recoveries info.rid = some r →
      billingRecoveryRefundComplete r = true → False := by
    intro r hr hcomp
    simp only [billingRecoveryRefundComplete, decide_eq_true_eq] at hcomp
    have hsome := h.refund.funding r hr hcomp.1
    rw [h.refund.unmarked hr (.inl (h.blank r hr).prepared)] at hsome
    cases hsome
  cases hch with
  | same => exact .inl h
  | flushed hreq hf =>
    have hq := (WorkerCall.closing hc).request
    rw [hreq] at hq
    cases hq
    refine .inl ⟨hun, ?_, hf.rows.recoveries ▸ h.alive⟩
    rw [book_flushed hf]
    exact h.refund
  | direct hd => rw [(WorkerCall.closing hc).not_direct] at hd; cases hd
  | refundPending =>
    cases hc
    refine .inl ⟨hun, href trivial, fun r hr' => ?_⟩
    rw [setRecovery_self] at hr'
    cases hr'
    simp
  | refunded hr _ hcomp => exact (halive _ (by cases hc; exact hr) hcomp).elim
  | settled hr ha => exact ((h.blank _ (by cases hc; exact hr)).not_settling ha).elim
  | adjust hr hn ha =>
    cases hc
    rcases ha with ⟨rfl, _, hst⟩ | ⟨rfl, hcomp, _⟩
    · exact ((h.blank _ hr).not_settling hst).elim
    right
    simp only [TakesInTime, hr] at hg
    have htok := (hg trivial (h.blank _ hr).prepared).1
    have hsh := h.token.token info.tokenId
    rw [point_self] at hsh
    refine ⟨by omega, refundMarked_of_mark hcomp ?_⟩
    rw [setRecovery_adjustments, setAdjustment_self]
    simp
  | _ => cases hc

theorem Open.shaped (h : Open info s0 t s) : Shaped (book info.rid s) :=
  ⟨h.settle, h.refund⟩

theorem Taken.shaped (h : Taken cal info now s0 p s) : Shaped (book info.rid s) :=
  ⟨h.settle, h.refund⟩

theorem Live.start (hrow : RowOf info (book info.rid s))
    (hr : s.recoveries info.rid = some r) (hb : Blank r)
    (hold : Shaped (book info.rid s)) (hk : Keyed s)
    (htok : Shift s0 s 0 (point info.tokenId (-x))) (hx : 0 ≤ x) (hid : 0 < info.tokenId ∨ x = 0)
    (hs' : s' = s.setRecovery info.rid r') (hsame : SameRequest r r')
    (hp : r'.preConsumeState = .committed) (hextra : r'.extraAmount = 0) (ht : r'.tokenAmount = x)
    (hnew : Shaped (book info.rid s')) (hf : Funded cal info now s0 r' s') :
    Live cal info now s0 s' := by
  subst hs'
  refine ⟨?_, hnew.settle, hnew.refund, ⟨r', setRecovery_self _ _ _, hp, hextra.ge, ht ▸ hx⟩,
    hk.of_same rfl, ?_, ?_⟩
  · rw [book_write rfl]
    exact hrow.next hr rfl hsame
  · have hm1 := hold.refund.unmarked hr (.inl hb.prepared) .token
    have hm2 := hold.settle.unmarked hr hb.unsettled .token
    have hmoved : tokenMoved info (book info.rid (s.setRecovery info.rid r')) = -x := by
      rw [book_write rfl]
      simp only [tokenMoved, tokenDue, Book.write_row, Book.write_marks, hm1, hm2, Option.elim_some,
        Option.getD_none, ht]
      split <;> omega
    rw [hmoved]
    exact htok.trans_same (setRecovery_shift _ _ _)
  · intro q hq _
    rw [setRecovery_self] at hq
    cases hq
    exact hf

theorem share_nonneg (h : 0 ≤ q) : 0 ≤ share info q := by
  unfold share
  split
  · exact le_refl 0
  · exact h

theorem Taken.commit (h : Taken cal info now s0 p s) (hid : TokenNamed info)
    (hr : s.recoveries info.rid = some r) (hb : Blank r)
    (hs' : s' = s.setRecovery info.rid r') (hsame : SameRequest r r')
    (hp : r'.preConsumeState = .committed) (hf : r'.fundingAmount = p) (hextra : r'.extraAmount = 0)
    (ht : r'.tokenAmount = share info p) (hshape : Shaped (book info.rid s')) :
    Live cal info now s0 s' := by
  obtain ⟨record, hrec, hst, hpre, hsub, hused⟩ := h.used
  have hpos := h.positive
  have hnone : ∀ c, s.adjustments info.rid c .refund = none :=
    h.refund.unmarked hr (.inl hb.prepared)
  refine Live.start h.row hr hb h.shaped h.keyed h.token (share_nonneg hpos.le) ?_ hs' hsame hp
    hextra ht hshape ?_
  · rcases hid with hplay | hid
    · exact .inr (if_pos hplay)
    · exact .inl hid
  subst hs'
  refine ⟨.inr ⟨record, hrec, by omega, by omega, hsub, ?_⟩, ?_⟩
  · simp [hst, hnone]
  have hheld : recordHeld (s.records info.rid) = point record.userSubscriptionId p := by
    simp [hrec, recordHeld, hst, hpre]
  have hx : extraHeld r' (book info.rid (s.setRecovery info.rid r')) = 0 := by
    rw [book_write rfl]
    simp [extraHeld, hextra, show (book info.rid s).marks .extra .refund =
      none from hnone _]
  rw [setRecovery_records, hheld, hx, add_zero]
  exact hused

theorem taken_step (cal : Calendar) (call : Call) (s : Store) (hc : WorkerCall info.rid call)
    (hid : TokenNamed info) (hg : TakesInTime info s0 call s) (h : Taken cal info now s0 p s) :
    Taken cal info now s0 p (exec cal call s).1 ∨
      (Live cal info now s0 (exec cal call s).1 ∧
        Closing info.rid (exec cal call s).1) := by
  have hshape := h.shaped.step (exec_book cal info.rid call s)
  obtain ⟨r, hr, hb, halive⟩ := h.blank
  obtain ⟨record, hrec, hst, hpre, hsub, hused⟩ := h.used
  have hch := exec_change cal call s
  generalize (exec cal call s).1 = s' at hch hshape ⊢
  cases hch with
  | same => exact .inl h
  | flushed hreq hf =>
    have hq := (WorkerCall.closing hc).request
    rw [hreq] at hq
    cases hq
    have hbook : book info.rid s' = book info.rid s := book_flushed hf
    refine .inl ⟨hbook ▸ h.row, hbook ▸ h.settle, hbook ▸ h.refund, ?_, h.positive,
      h.keyed.of_same hf.rows.subscriptions, h.token.trans_same hf.shift, ?_⟩
    · rw [hf.rows.recoveries]
      exact h.blank
    have hc := Consumed.of_same h.keyed hf.rows.subscriptionSide
    refine ⟨record, hf.rows.records ▸ hrec, hst, hpre, hf.rows.subscriptions ▸ hsub, ?_⟩
    simpa using hused.consumed hc
  | direct hd => rw [(WorkerCall.closing hc).not_direct] at hd; cases hd
  | refundPending hq =>
    cases hc
    rw [hr] at hq
    cases hq
    -- The record stands in for the amounts the session never stored.
    have hreq := h.row.required r hr
    have htok : (if r.tokenRequired then p else r.tokenAmount) = share info p := by
      rw [hreq, hb.token]
      unfold share
      cases info.isPlayground <;> simp
    have hwith : r.withRecord (s.records info.rid) =
        { r with subscriptionID := record.userSubscriptionId, fundingAmount := p
                 tokenAmount := share info p, preConsumeState := .committed } := by
      rw [hrec]
      simp only [BillingRecovery.withRecord, h.row.source r hr, hb.prepared, hst, hpre, htok,
        and_self, if_true]
    have hnew := hshape trivial
    rw [hwith] at hnew ⊢
    refine .inr ⟨?_, _, setRecovery_self _ _ _, by simp⟩
    exact h.commit hid hr hb rfl ⟨rfl, rfl, rfl⟩ rfl rfl hb.extra rfl hnew
  | refunded hq _ hcomp =>
    cases hc
    rw [hr] at hq
    cases hq
    simp only [billingRecoveryRefundComplete, decide_eq_true_eq] at hcomp
    have hsome := h.refund.funding r hr hcomp.1
    rw [h.refund.unmarked hr (.inl hb.prepared)] at hsome
    cases hsome
  | settled hq ha =>
    cases hc
    rw [hr] at hq
    cases hq
    exact (hb.not_settling ha).elim
  | adjust hq hn ha =>
    cases hc
    rw [hr] at hq
    cases hq
    rcases ha with ⟨rfl, _, hst⟩ | ⟨rfl, hcomp, _⟩
    · exact (hb.not_settling hst).elim
    simp only [TakesInTime, hr] at hg
    have hbad := (hg trivial hb.prepared).2
    rw [hrec] at hbad
    simp [hst] at hbad
  | _ => cases hc

/-- What the session asks `EnsureBillingRecovery` for. -/
structure SubscriptionInput (info : RelayInfo) (input : BillingRecoveryInput) : Prop where
  request : input.requestID = info.rid
  token : input.tokenID = info.tokenId
  source : input.source = .subscription
  funding : input.fundingAmount = 0
  amount : input.tokenAmount = 0
  required : input.tokenRequired = !info.isPlayground

theorem Open.create (h : Open info s0 t s) (hin : SubscriptionInput info input)
    (hr : s.recoveries info.rid = none) :
    Open info s0 t (s.setRecovery info.rid input.row) := by
  have hrow : (book info.rid s).row = none := hr
  have hb : book info.rid (s.setRecovery info.rid input.row) =
      (book info.rid s).write input.row := book_write rfl
  have hset := (h.settle.fresh_row hrow input.row rfl rfl (by simp [BillingRecoveryInput.row])).1
  have href := h.refund.fresh_row hrow input
  refine ⟨⟨?_, hb ▸ hset, ?_, ?_, h.record, h.subscriptions, h.plans,
    h.token.trans_same (setRecovery_shift _ _ _)⟩, hb ▸ href, ?_⟩
  · rw [hb]
    refine ⟨?_, ?_, ?_⟩ <;> rintro r ⟨⟩
    · exact hin.token
    · exact hin.source
    · exact hin.required
  · intro hn
    rw [setRecovery_self] at hn
    cases hn
  · intro r hr'
    rw [setRecovery_self] at hr'
    cases hr'
    exact ⟨rfl, hin.funding, rfl, hin.amount, .inl rfl⟩
  · intro r hr'
    rw [setRecovery_self] at hr'
    cases hr'
    simp [BillingRecoveryInput.row]

theorem Open.charge (h : Open info s0 t s) (he : (s0.tokens info.tokenId).isSome) (d : Int) :
    Open info s0 (t - d) (updateToken info.tokenId d s) := by
  have hrows := updateToken_rows info.tokenId d s
  have hb : book info.rid (updateToken info.tokenId d s) = book info.rid s :=
    book_same (by rw [hrows.recoveries]) (by rw [hrows.adjustments])
  have hsome : (s.tokens info.tokenId).isSome := by
    rw [h.token.tokenRows]
    exact he
  refine ⟨⟨hb ▸ h.row, hb ▸ h.settle, ?_, ?_, hrows.records ▸ h.record,
    hrows.subscriptions.trans h.subscriptions, hrows.plans.trans h.plans, ?_⟩, hb ▸ h.refund, ?_⟩
  · rw [hrows.recoveries, hrows.adjustments]
    exact h.fresh
  · rw [hrows.recoveries]
    exact h.blank
  · have hs := h.token.trans (updateToken_shift hsome d)
    rw [point_add, add_zero] at hs
    rw [show -(t - d) = -t + d by omega]
    exact hs
  · rw [hrows.recoveries]
    exact h.alive

theorem Open.take (h : Open info s0 (share info p) s) (hk : Keyed s0)
    (hr : s.recoveries info.rid = some r)
    (hx : preConsumeUserSubscription cal info.rid userId p now s = .ok (res, s')) :
    res.preConsumed = p ∧ Taken cal info now s0 p s' := by
  obtain ⟨hpos, hres, hrec, hk', hsub, hused⟩ := preConsumeSubscription_spec
    (hk.of_same h.subscriptions) h.subscriptions h.plans h.record hx
  have hframe := preConsumeSubscription_frame hx
  have hb : book info.rid s' = book info.rid s :=
    book_same (by rw [hframe.recoveries]) (by rw [hframe.adjustments])
  refine ⟨hres, hb ▸ h.row, hb ▸ h.settle, hb ▸ h.refund,
    ⟨r, hframe.recoveries ▸ hr, h.blank r hr, h.alive r hr⟩, hpos, hk',
    h.token.trans_same hframe.shift, ?_⟩
  exact ⟨_, hrec, rfl, rfl, hsub, hused⟩

theorem Open.strand (h : Open info s0 t s) (hk : Keyed s0) (ht : 0 ≤ t)
    (hid : 0 < info.tokenId ∨ t = 0) (hr : s.recoveries info.rid = some r)
    (hs' : s' = s.setRecovery info.rid
      { r with subscriptionID := sub, fundingAmount := 0, extraAmount := 0, tokenAmount := t
               preConsumeState := .committed })
    (hshape : Shaped (book info.rid s')) : Live cal info now s0 s' := by
  have hb := h.blank r hr
  have hnone := h.refund.unmarked hr (.inl hb.prepared) .extra
  refine Live.start h.row hr hb h.shaped (hk.of_same h.subscriptions) h.token ht hid hs'
    ⟨rfl, rfl, rfl⟩ rfl rfl rfl hshape ?_
  subst hs'
  refine ⟨.inl ⟨h.record, rfl⟩, ?_⟩
  have hx : recordHeld (s.records info.rid) = 0 := by rw [h.record]; rfl
  rw [book_write rfl, setRecovery_records, hx]
  simp only [extraHeld, Book.write_marks, hnone, Option.getD_none, sub_zero, ite_self, point_zero,
    add_zero]
  exact UsedBeyond.start (hk.of_same h.subscriptions) h.subscriptions

end Steps

end Ren2Hub.Proofs.SubscriptionStates
