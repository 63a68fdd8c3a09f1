import Ren2Hub.Proofs.SessionOpening

namespace Ren2Hub.Proofs.SessionRefund
open Lib Machine Billing Ledger RecoverySpec CallSpec RequestBook SessionCalls SubscriptionSpec
  BillingSession
open SessionOpening

theorem tokenPart_idle (h : Idle info s) (d : Int) :
    tokenPart s.relayInfo d = tokenPart info d := by
  unfold tokenPart
  rw [h.isPlayground]

theorem Bound.token_share (hid : TokenNamed info) (hb : Bound info src r) (d : Int) :
    (if r.tokenRequired ∧ r.tokenID > 0 then r.tokenAmount + d else r.tokenAmount) =
      r.tokenAmount + tokenPart info d := by
  have hreq := hb.tokenRequired
  rw [hb.tokenID]
  unfold tokenPart
  cases hp : info.isPlayground <;> simp_all [TokenNamed]

theorem Bound.extend (hid : TokenNamed info) (hb : Bound info src r) (d : Int) :
    r.extend d =
      match src with
      | .wallet => { r with fundingAmount := r.fundingAmount + d
                            tokenAmount := r.tokenAmount + tokenPart info d }
      | .subscription => { r with extraAmount := r.extraAmount + d
                                  tokenAmount := r.tokenAmount + tokenPart info d } := by
  rw [← Bound.token_share hid hb]
  unfold BillingRecovery.extend
  cases src <;> simp only [hb.source] <;> split <;> rfl

theorem Opened.bound (h : Opened info s0 s st) (hr : st.recoveries info.rid = some r) :
    Bound info s.funding.source r := by
  obtain ⟨r', hr', hb⟩ := h.row
  rw [hr] at hr'
  cases hr'
  exact hb

theorem Lends.reserve (h : Lends rid r.subscriptionID taken extra st) (hd : 0 < d)
    (hx : 0 ≤ taken + extra) (hsrc : r.source = .subscription) (hr : Reserved r d st st') :
    Lends rid r.subscriptionID taken (extra + d) st' := by
  obtain ⟨sa, sb, hsa, hfund, hsb⟩ := hr
  have ha := h.of_same hsa
  obtain ⟨sub, hsub, hsid, hused, htotal⟩ := ha.used
  have hpos := h.positive
  simp only [reserveFunding, hsrc, applySubscriptionDeltaTx] at hfund
  rw [if_neg (by omega)] at hfund
  obtain ⟨sub', hsub', hmax, rfl⟩ := postConsumeTx_ok hfund
  rw [hsub] at hsub'
  cases hsub'
  have hm : max 0 (sub.amountUsed + d) = sub.amountUsed + d := max_eq_right (by omega)
  rw [hm] at hmax hsb
  have hb : Lends rid r.subscriptionID taken (extra + d)
      (sa.saveSubscription { sub with amountUsed := sub.amountUsed + d }) := by
    refine ⟨hpos, ha.record, { sub with amountUsed := sub.amountUsed + d }, ?_, hsid, ?_, hmax⟩
    · simp [Store.saveSubscription, hsid]
    · show taken + (extra + d) ≤ sub.amountUsed + d
      omega
  exact hb.of_same hsb

theorem Opened.reserve (hid : TokenNamed info)
    (h : Opened info s0 s st) (hr : st.recoveries info.rid = some r) (hd : 0 < d)
    (hs : Shift st st1 w t) (hadj : st1.adjustments = st.adjustments) (hres : Reserved r d st st1) :
    Opened info s0 (reserved s d) ((st1.setRecovery info.rid (r.extend d)).setAdjustment
      info.rid (.reserve target) .reserve d) := by
  have hag := h.agrees r hr
  have hb := Opened.bound h hr
  have hmarks : ∀ r' c, ((st1.setRecovery info.rid r').setAdjustment
      info.rid (.reserve target) .reserve d).adjustments info.rid c .refund = none := by
    intro r' c
    rw [setAdjustment_self, if_neg (by simp), setRecovery_adjustments, hadj]
    exact h.marks c
  have htokens : ∀ k, (st1.tokens k).isSome = (s0.tokens k).isSome :=
    fun k => (hs.tokenRows k).trans (h.tokens k)
  have htoken : r.tokenAmount + tokenPart info d =
      if info.isPlayground then 0 else s.tokenConsumed + tokenPart info d := by
    rw [hag.token, tokenPart]
    split <;> simp_all
  have ham := h.amounts
  unfold Amounts at ham
  cases hf : s.funding with
  | wallet c =>
    simp only [hf, Funding.source] at ham hb
    have hfund : r.fundingAmount = c := by rw [hag.funding, hf]; rfl
    rw [reserved_wallet hf, tokenPart_idle h.idle, Bound.extend hid hb]
    refine ⟨⟨{ h.idle with }, ⟨?_, ham.2.1, ?_⟩, ⟨_, setRecovery_self _ _ _, ?_⟩, hmarks _, htokens,
      fun hk hn => ?_⟩, fun q hq => ?_⟩
    · omega
    · show s.tokenConsumed + tokenPart info d = _
      rw [ham.2.2, tokenPart]
      split <;> omega
    · exact ⟨hb.source, hb.userID, hb.tokenID, hb.tokenRequired⟩
    · have hback := h.backed hk hn
      simp only [Backed, hf] at hback
      show (st1.users info.userId).isSome
      rw [hs.userRows]
      exact hback
    · rw [setAdjustment_recoveries, setRecovery_self] at hq
      cases hq
      exact ⟨hag.status, hag.committed, congrArg (· + d) hfund, hag.extra, htoken, nofun⟩
  | subscription own k p =>
    simp only [hf, Funding.source] at ham hb
    have hk' : r.subscriptionID = k := hag.subscription own k p hf
    rw [reserved_subscription hf, tokenPart_idle h.idle, Bound.extend hid hb]
    refine ⟨⟨{ h.idle with }, ?_, ⟨_, setRecovery_self _ _ _, ?_⟩, hmarks _, htokens,
      fun hk hn => ?_⟩, fun q hq => ?_⟩
    · simp only [Amounts, hf]
      have hpart : 0 ≤ tokenPart info d := by
        unfold tokenPart
        split <;> omega
      exact ⟨ham.1, by omega, by omega, trivial⟩
    · simp only [hf]
      exact ⟨hb.source, hb.userID, hb.tokenID, hb.tokenRequired⟩
    · have hback := h.backed hk hn
      simp only [Backed, hf] at hback ⊢
      rw [← hk'] at hback ⊢
      exact (Lends.reserve hback hd (by omega) hb.source hres).of_same ⟨rfl, rfl, rfl⟩
    · rw [setAdjustment_recoveries, setRecovery_self] at hq
      cases hq
      exact ⟨hag.status, hag.committed, hag.funding, congrArg (· + d) hag.extra, htoken,
        hag.subscription⟩

theorem reserve_opened (hid : TokenNamed info) (h : Opened info s0 s st) (target : Int) :
    (database cal).Ensures (fun x st' => Opened info s0 x.2 st') (s.reserve target) st := by
  unfold reserve
  split
  · exact h
  rw [h.idle.recoveryID]
  refine ask (fun applied st' hx => ?_) fun e => h
  obtain ⟨r, hr, _, _, ⟨rfl, hf⟩ | ⟨_, hpos, _, st1, hs, _, hadj, _, hres, rfl⟩⟩ :=
    reserve_ok (commit_ok hx)
  · exact h.flush hf
  simp only [Program.bind]
  rw [if_neg (by omega)]
  exact Opened.reserve hid h hr hpos hs hadj hres

theorem reserves_opened (hid : TokenNamed info) (h : Opened info s0 s st) (targets : List Int) :
    (database cal).Ensures (Opened info s0) (s.performAll (targets.map .reserve)) st := by
  induction targets generalizing s st with
  | nil => exact h
  | cons target targets ih =>
    refine Ensures.bind (Ensures.bind (reserve_opened hid h target) fun x st' h' => ?_)
      fun s' st' h' => ih h'
    exact h'

section
variable {st : Store} {rid : RequestID} {r : BillingRecovery}

theorem addUserQuota_goes (h : (st.users k).isSome) (d : Int) :
    ∃ st', st.addUserQuota k d = .ok st' := by
  obtain ⟨u, hu⟩ := Option.isSome_iff_exists.mp h
  simp [Store.addUserQuota, hu]

theorem addTokenQuota_goes (h : (st.tokens k).isSome) (d : Int) :
    ∃ st', st.addTokenQuota k d = .ok st' := by
  obtain ⟨t, ht⟩ := Option.isSome_iff_exists.mp h
  simp [Store.addTokenQuota, ht]

/-- The rows a flush or a refund of the request writes to. -/
structure Rows (r : BillingRecovery) (st : Store) : Prop where
  user : r.source = .wallet → (st.users r.userID).isSome
  token : r.tokenRequired = true → (st.tokens r.tokenID).isSome

theorem Rows.shift (h : Rows r st) (hs : Shift st st' w t) : Rows r st' :=
  ⟨fun hw => by rw [hs.userRows]; exact h.user hw, fun ht => by rw [hs.tokenRows]; exact h.token ht⟩

theorem applyPendingDeltas_goes {m : QuotaMutation}
    (hu : m.userPendingDelta ≠ 0 → (st.users m.userID).isSome)
    (ht : m.tokenPendingDelta ≠ 0 → (st.tokens m.tokenID).isSome) :
    ∃ st', m.applyPendingDeltas st = .ok st' := by
  have huser : ∃ st1, (if m.userPendingDelta ≠ 0 then st.addUserQuota m.userID m.userPendingDelta
      else .ok st) = .ok st1 ∧ st1.tokens = st.tokens := by
    split
    · rename_i h
      obtain ⟨st1, h1⟩ := addUserQuota_goes (hu h) m.userPendingDelta
      exact ⟨st1, h1, (addUserQuota_spec h1).2.2⟩
    · exact ⟨st, rfl, rfl⟩
  obtain ⟨st1, h1, htok⟩ := huser
  unfold QuotaMutation.applyPendingDeltas
  rw [h1]
  split
  · rename_i h
    apply addTokenQuota_goes
    rw [htok]
    exact ht h
  · exact ⟨st1, rfl⟩

theorem pendingQuotaDelta_zero (queue : Int → Int) : pendingQuotaDelta queue 0 = 0 := rfl

theorem flush_goes (hr : st.recoveries rid = some r) (h : Rows r st) (fu ft : Bool) :
    ∃ st', flushPendingDeltas rid fu ft st = .ok st' := by
  unfold flushPendingDeltas beginBillingRecoveryQuotaMutation
  rw [recovery_ok.mpr hr]
  apply applyPendingDeltas_goes
  · intro hne
    simp only at hne ⊢
    split at hne
    · rename_i hc
      rw [if_pos hc]
      exact h.user hc.2
    · exact absurd (pendingQuotaDelta_zero _) hne
  · intro hne
    simp only at hne ⊢
    split at hne
    · rename_i hc
      rw [if_pos hc]
      exact h.token hc.2.1
    · exact absurd (pendingQuotaDelta_zero _) hne

theorem mark_goes (cal : Calendar) (hr : st.recoveries rid = some r) (ha : r.status = .active)
    (hc : r.preConsumeState = .committed) :
    Call.exec cal (.markRefundPending rid) st =
      (st.setRecovery rid { r with status := .refundPending }, .ok ()) := by
  have hx : markBillingRecoveryRefundPending rid st =
      .ok (st.setRecovery rid { r with status := .refundPending }) := by
    unfold markBillingRecoveryRefundPending
    rw [recovery_ok.mpr hr]
    simp [bind, Except.bind, pure, Except.pure, ha, withRecord_committed hc]
  exact commitUnit_of_ok st hx

theorem close_goes (cal : Calendar) (hr : st.recoveries rid = some r)
    (hp : r.status = .refundPending) (hc : billingRecoveryRefundComplete r = true) :
    Call.exec cal (.markRefunded rid) st =
      (st.setRecovery rid { r with status := .refunded }, .ok ()) := by
  have hx : markBillingRecoveryRefunded rid st =
      .ok (st.setRecovery rid { r with status := .refunded }) := by
    unfold markBillingRecoveryRefunded
    rw [recovery_ok.mpr hr]
    simp [bind, Except.bind, pure, Except.pure, hp, hc]
  exact commitUnit_of_ok st hx

/-- What a first refund of a component leaves behind. `st1` is the store right
after its effect. -/
structure Adjusted (rid : RequestID) (r : BillingRecovery) (c : Component) (st st₁ st' : Store) :
    Prop where
  row : st'.recoveries rid = some (r.complete c .refund)
  marks : ∀ c', c' ≠ c → st'.adjustments rid c' .refund = st.adjustments rid c' .refund
  side : SameSubscriptions st₁ st'
  shift : Shift st st'
    (point r.userID (walletEffect r c .refund (r.adjustmentAmount c .refund)))
    (point r.tokenID (tokenEffect r c .refund (r.adjustmentAmount c .refund)))

theorem adjust_goes {P : Store → Prop} (cal : Calendar) (hr : st.recoveries rid = some r)
    (hp : r.status = .refundPending)
    (hn : st.adjustments rid c .refund = none) (hc : c = .funding ∨ c = .extra ∨ c = .token)
    (hrows : Rows r st)
    (heff : ∀ st0, Flushed rid st st0 → ∃ st1, applyBillingRecoveryEffect rid r c .refund
      (r.adjustmentAmount c .refund) st0 = .ok st1 ∧ P st1) :
    ∃ st1 st', P st1 ∧ Call.exec cal (.applyAdjustment rid c .refund) st = (st', .ok ()) ∧
      Adjusted rid r c st st1 st' := by
  obtain ⟨st0, hflush⟩ := flush_goes hr hrows (c = .funding) (c = .token)
  have hf := flush_ok hflush
  obtain ⟨st1, h1, hpost⟩ := heff st0 hf
  have hr0 : st0.recovery rid = .ok r := by
    rw [recovery_ok, hf.rows.recoveries]
    exact hr
  have hadmit : r.admits c .refund = .ok true := by
    simp [BillingRecovery.admits, hp]
  have hx : applyBillingRecoveryAdjustment rid c .refund st =
      .ok ((st1.setAdjustment rid c .refund (r.adjustmentAmount c .refund)).setRecovery rid
        (r.complete c .refund)) := by
    unfold applyBillingRecoveryAdjustment
    rw [if_neg (by tauto), if_neg (by simp), hflush]
    show applyAdjustmentTx rid c .refund st0 = _
    unfold applyAdjustmentTx
    rw [hr0]
    simp [bind, Except.bind, pure, Except.pure, hp, hf.rows.adjustments, hn, hadmit, h1]
  obtain ⟨hs, _, hadj, _⟩ := effect_spec h1
  refine ⟨st1, _, hpost, commitUnit_of_ok st hx, ?_⟩
  refine ⟨setRecovery_self _ _ _, fun c' hne => ?_, ⟨rfl, rfl, rfl⟩, ?_⟩
  · rw [setRecovery_adjustments, setAdjustment_self, if_neg (by simp [hne]), hadj,
      hf.rows.adjustments]
  · exact (hf.shift.same_trans hs).trans_same (.of_same rfl rfl rfl rfl)

end

theorem Carries.give (h : Carries k n st) (hd : 0 ≤ d) (hn : d ≤ n) :
    ∃ st', postConsumeUserSubscriptionDeltaTx k (-d) st = .ok st' ∧ Carries k (n - d) st' ∧
      (∀ i, usedAmount st' i = usedAmount st i - point k d i) ∧ st'.records = st.records := by
  obtain ⟨sub, hs, rfl, hused, htotal⟩ := h
  have hnew : (if sub.amountUsed + -d < 0 then 0 else sub.amountUsed + -d) =
      sub.amountUsed - d := by
    omega
  refine ⟨st.saveSubscription { sub with amountUsed := sub.amountUsed - d }, ?_, ?_, fun i => ?_,
    rfl⟩
  · unfold postConsumeUserSubscriptionDeltaTx
    simp only [hs, hnew]
    rw [if_neg (by omega)]
  · refine ⟨{ sub with amountUsed := sub.amountUsed - d }, by simp [Store.saveSubscription], rfl,
      ?_, ?_⟩
    · show n - d ≤ sub.amountUsed - d
      omega
    · show 0 < sub.amountTotal → sub.amountUsed - d ≤ sub.amountTotal
      omega
  · rw [usedAmount_save]
    by_cases hi : i = sub.id
    · subst hi
      simp [usedAmount_some hs]
    · simp [point, hi]

/-- The parts of the amounts on the two funding sides. -/
def walletPart (r : BillingRecovery) : Int := if r.source = .wallet then r.fundingAmount else 0

def sourcePart (r : BillingRecovery) : Int := if r.source = .wallet then 0 else r.fundingAmount

/-- The row while its components are given back. -/
def refunding (r : BillingRecovery) (a b c : ComponentState) : BillingRecovery :=
  { r with status := .refundPending, fundingRefund := a, extraRefund := b, tokenRefund := c }

/-- The components with a true flag were given back since `st₀`, the others are still to come. -/
structure Returning (rid : RequestID) (r : BillingRecovery) (df dx dt : Bool) (st₀ st : Store) :
    Prop where
  row : ∃ a b c, st.recoveries rid = some (refunding r a b c) ∧
    (df = true → a = .completed) ∧ (dx = true → b = .completed) ∧ (dt = true → c = .completed)
  fundingMark : df = false → st.adjustments rid .funding .refund = none
  extraMark : dx = false → st.adjustments rid .extra .refund = none
  tokenMark : dt = false → st.adjustments rid .token .refund = none
  shift : Shift st₀ st (point r.userID (if df then walletPart r else 0))
    (point r.tokenID (if dt then r.tokenAmount else 0))
  used : ∀ k, usedAmount st k = usedAmount st₀ k -
    point r.subscriptionID ((if df then sourcePart r else 0) + if dx then r.extraAmount else 0) k
  rows : Rows r st
  record : r.source = .subscription → df = false → ∃ record, st.records rid = some record ∧
    record.userSubscriptionId = r.subscriptionID ∧ record.preConsumed = r.fundingAmount ∧
    record.status = .consumed
  carries : r.source = .subscription → Carries r.subscriptionID
    ((if df then 0 else r.fundingAmount) + if dx then 0 else r.extraAmount) st

/-- What a component gives back to a subscription. -/
def lentPart (r : BillingRecovery) : Component → Int
  | .funding => sourcePart r
  | .extra => r.extraAmount
  | _ => 0

theorem Returning.give (cal : Calendar) {c : Component} (h : Returning rid r df dx dt st0 st)
    (hc : c = .funding ∧ df = false ∨ c = .extra ∧ dx = false ∨
      c = .token ∧ dt = false ∧ 0 < r.tokenID)
    (heff : ∀ a b e stf, Flushed rid st stf → ∃ st1,
      applyBillingRecoveryEffect rid (refunding r a b e) c .refund (r.adjustmentAmount c .refund)
        stf = .ok st1 ∧
      (∀ k, usedAmount st1 k = usedAmount st k - point r.subscriptionID (lentPart r c) k) ∧
      (c ≠ .funding → st1.records = st.records) ∧
      (r.source = .subscription → Carries r.subscriptionID
        ((if c = .funding || df then 0 else r.fundingAmount) +
          if c = .extra || dx then 0 else r.extraAmount) st1)) :
    ∃ st', Call.exec cal (.applyAdjustment rid c .refund) st = (st', .ok ()) ∧
      Returning rid r (c = .funding || df) (c = .extra || dx) (c = .token || dt) st0 st' := by
  obtain ⟨a, b, e, hr, ha, hb, he⟩ := h.row
  have hn : st.adjustments rid c .refund = none := by
    rcases hc with ⟨rfl, hz⟩ | ⟨rfl, hz⟩ | ⟨rfl, hz, _⟩
    exacts [h.fundingMark hz, h.extraMark hz, h.tokenMark hz]
  obtain ⟨st1, st', ⟨hused, hrec, hcar⟩, hexec, had⟩ := adjust_goes cal hr rfl hn (by tauto)
    ⟨h.rows.user, h.rows.token⟩ (heff a b e)
  have hmark : ∀ c' b', (decide (c = c') || b') = false → c' ≠ c ∧ b' = false := by
    intro c' b' hz
    obtain ⟨h1, h2⟩ := Bool.or_eq_false_iff.mp hz
    exact ⟨fun he => of_decide_eq_false h1 he.symm, h2⟩
  refine ⟨st', hexec, ?_, fun hz => ?_, fun hz => ?_, fun hz => ?_, ?_, fun k => ?_,
    h.rows.shift had.shift, fun hs hz => ?_, fun hs => (hcar hs).of_same had.side.subscriptions⟩
  · rcases hc with ⟨rfl, _⟩ | ⟨rfl, _⟩ | ⟨rfl, _⟩
    exacts [⟨_, _, _, had.row, fun _ => rfl, hb, he⟩, ⟨_, _, _, had.row, ha, fun _ => rfl, he⟩,
      ⟨_, _, _, had.row, ha, hb, fun _ => rfl⟩]
  · exact (had.marks _ (hmark _ _ hz).1).trans (h.fundingMark (hmark _ _ hz).2)
  · exact (had.marks _ (hmark _ _ hz).1).trans (h.extraMark (hmark _ _ hz).2)
  · exact (had.marks _ (hmark _ _ hz).1).trans (h.tokenMark (hmark _ _ hz).2)
  · have hs := h.shift.trans had.shift
    simp only [walletEffect, tokenEffect, refunding, BillingRecovery.adjustmentAmount,
      Operation.sign] at hs
    rcases hc with ⟨rfl, rfl⟩ | ⟨rfl, rfl⟩ | ⟨rfl, rfl, hid⟩
    · simpa [walletPart] using hs
    · simpa using hs
    · simpa [hid] using hs
  · rw [usedAmount_same had.side.subscriptions, hused, h.used, sub_sub, ← Pi.add_apply, point_add]
    rcases hc with ⟨rfl, rfl⟩ | ⟨rfl, rfl⟩ | ⟨rfl, rfl, _⟩ <;> simp [lentPart, add_comm]
  · rw [had.side.records, hrec (hmark _ _ hz).1.symm]
    exact h.record hs (hmark _ _ hz).2

theorem Returning.token (cal : Calendar) (h : Returning rid r df dx false st0 st)
    (hreq : r.tokenRequired = true) (hid : 0 < r.tokenID) :
    ∃ st', Call.exec cal (.applyAdjustment rid .token .refund) st = (st', .ok ()) ∧
      Returning rid r df dx true st0 st' := by
  refine h.give cal (.inr (.inr ⟨rfl, rfl, hid⟩)) fun a b e stf hf => ?_
  have hgoes : ∃ st1, applyBillingRecoveryEffect rid (refunding r a b e) .token .refund
      r.tokenAmount stf = .ok st1 := by
    unfold applyBillingRecoveryEffect
    rw [if_neg (by simp [refunding]; omega)]
    split
    · exact ⟨_, rfl⟩
    · exact addTokenQuota_goes ((h.rows.shift hf.shift).token hreq) _
  obtain ⟨st1, he⟩ := hgoes
  have hside := hf.rows.subscriptionSide.trans (effect_token_side he)
  refine ⟨st1, he, fun k => ?_, fun _ => hside.records, fun hs => ?_⟩
  · simp [lentPart, usedAmount_same hside.subscriptions]
  · exact (h.carries hs).of_same hside.subscriptions

theorem Returning.extra (cal : Calendar) (h : Returning rid r df false dt st0 st)
    (hsrc : r.source = .subscription) (hk : 0 < r.subscriptionID) (hx : 0 < r.extraAmount)
    (hfund : 0 ≤ r.fundingAmount) :
    ∃ st', Call.exec cal (.applyAdjustment rid .extra .refund) st = (st', .ok ()) ∧
      Returning rid r df true dt st0 st' := by
  refine h.give cal (.inr (.inl ⟨rfl, rfl⟩)) fun a b e stf hf => ?_
  have hcar := (h.carries hsrc).of_same hf.rows.subscriptions
  obtain ⟨st1, h1, hc1, hu1, hrec⟩ := Carries.give (d := r.extraAmount) hcar (by omega)
    (by simp; split <;> omega)
  refine ⟨st1, ?_, fun k => ?_, fun _ => hrec.trans hf.rows.records, fun _ => ?_⟩
  · rw [effect_extra_eq]
    show applySubscriptionDeltaTx r.subscriptionID (-r.extraAmount) stf = _
    unfold applySubscriptionDeltaTx
    rw [if_neg (by omega)]
    exact h1
  · rw [hu1, usedAmount_same hf.rows.subscriptions]
    rfl
  · simpa using hc1

theorem Returning.wallet (cal : Calendar) (h : Returning rid r false dx dt st0 st)
    (hsrc : r.source = .wallet) :
    ∃ st', Call.exec cal (.applyAdjustment rid .funding .refund) st = (st', .ok ()) ∧
      Returning rid r true dx dt st0 st' := by
  refine h.give cal (.inl ⟨rfl, rfl⟩) fun a b e stf hf => ?_
  have hgive : ∃ st1, applyBillingRecoveryEffect rid (refunding r a b e) .funding .refund
      r.fundingAmount stf = .ok st1 ∧ SameSubscriptions stf st1 := by
    unfold applyBillingRecoveryEffect
    rw [if_neg (by simp)]
    split
    · exact ⟨stf, rfl, rfl, rfl, rfl⟩
    obtain ⟨st1, h1⟩ := addUserQuota_goes ((h.rows.shift hf.shift).user hsrc) (r.fundingAmount * 1)
    refine ⟨st1, ?_, (addUserQuota_spec h1).2.1.subscriptionSide⟩
    simp only [refunding, hsrc]
    exact h1
  obtain ⟨st1, he, hside⟩ := hgive
  refine ⟨st1, he, fun k => ?_, fun hne => absurd rfl hne, fun hs => ?_⟩
  · simp [lentPart, sourcePart, hsrc, usedAmount_same
      (hf.rows.subscriptionSide.trans hside).subscriptions]
  · rw [hsrc] at hs
    cases hs

theorem Returning.subscription (cal : Calendar) (h : Returning rid r false dx dt st0 st)
    (hsrc : r.source = .subscription) (hfund : 0 < r.fundingAmount) (hx : 0 ≤ r.extraAmount) :
    ∃ st', Call.exec cal (.applyAdjustment rid .funding .refund) st = (st', .ok ()) ∧
      Returning rid r true dx dt st0 st' := by
  refine h.give cal (.inl ⟨rfl, rfl⟩) fun a b e stf hf => ?_
  obtain ⟨record, hrec, hsub, hpre, hcons⟩ := h.record hsrc rfl
  have hcar := (h.carries hsrc).of_same hf.rows.subscriptions
  obtain ⟨st1, h1, hc1, hu1, _⟩ := Carries.give (d := r.fundingAmount) hcar (by omega)
    (by simp; split <;> omega)
  refine ⟨st1.setRecord rid { record with status := .refunded }, ?_, fun k => ?_,
    fun hne => absurd rfl hne, fun _ => ?_⟩
  · show applyBillingRecoveryEffect rid (refunding r a b e) .funding .refund r.fundingAmount stf = _
    unfold applyBillingRecoveryEffect refundBillingRecoverySubscriptionPreConsumeTx
    rw [if_neg (by simp), if_neg (by omega)]
    simp only [refunding, hsrc, if_true, hf.rows.records, hrec, hcons, hsub, hpre]
    rw [if_neg (by simp), if_pos hfund, h1]
    rfl
  · rw [usedAmount_setRecord, hu1, usedAmount_same hf.rows.subscriptions]
    simp [lentPart, sourcePart, hsrc]
  · refine Carries.of_same ?_ (rfl : _ = st1.subscriptions)
    simpa using hc1

section
variable {s : BillingSession} {rid : RequestID} {cal : Calendar}

theorem alone_exec (h : Call.exec cal c st = (st', a)) :
    (database cal).alone (.call c next) [] st = (database cal).alone (next a) [] st' := by
  show (database cal).alone (next (Call.exec cal c st).2) [] (Call.exec cal c st).1 = _
  rw [h]

section
variable (hid : s.recoveryID = some rid)
include hid

theorem markPending_alone (h : Call.exec cal (.markRefundPending rid) st = (st', .ok ())) :
    (database cal).alone s.markPending [] st = (none, st') := by
  unfold markPending
  rw [hid]
  exact alone_exec h

theorem refundFunding_alone (hf : s.fundingRefunded = false) (hs : s.fundingSettled = false)
    (h : Call.exec cal (.applyAdjustment rid .funding .refund) st = (st', .ok ())) :
    (database cal).alone (s.refundFunding none) [] st = ((true, none), st') := by
  unfold refundFunding
  rw [hid, hf, hs]
  exact alone_exec h

/-- A component that is owed is given back, and nothing happens otherwise. -/
def Gives (cal : Calendar) (rid : RequestID) (c : Component) (owed : Prop) (st st' : Store) :
    Prop :=
  (owed ∧ Call.exec cal (.applyAdjustment rid c .refund) st = (st', .ok ())) ∨ (¬ owed ∧ st' = st)

/-- Whether `Refund` still has an extra reserve to give back. -/
def owesExtra (s : BillingSession) : Prop :=
  0 < s.extraReserved ∧ s.funding.source = .subscription ∧ 0 < s.relayInfo.subscriptionId

theorem refundExtra_alone (hx : s.extraRefunded = false)
    (h : Gives cal rid .extra (owesExtra s) st st') :
    ∃ b, (database cal).alone (s.refundExtra none) [] st = ((b, none), st') ∧
      (owesExtra s → b = true) := by
  unfold refundExtra
  rw [hid, hx]
  rcases h with ⟨ho, h⟩ | ⟨ho, rfl⟩
  · rw [if_pos (by simpa [owesExtra, and_assoc] using ho)]
    exact ⟨true, alone_exec h, fun _ => rfl⟩
  · rw [if_neg (by simpa [owesExtra, and_assoc] using ho)]
    exact ⟨false, rfl, fun h => absurd h ho⟩

def owesToken (s : BillingSession) : Prop := 0 < s.tokenConsumed ∧ s.relayInfo.isPlayground = false

theorem refundToken_alone (ht : s.tokenRefunded = false)
    (h : Gives cal rid .token (owesToken s) st st') :
    ∃ b, (database cal).alone (s.refundToken none) [] st = ((b, none), st') ∧
      (owesToken s → b = true) := by
  unfold refundToken
  rw [hid, ht]
  rcases h with ⟨ho, h⟩ | ⟨ho, rfl⟩
  · rw [if_pos (by simpa [owesToken] using ho)]
    exact ⟨true, alone_exec h, fun _ => rfl⟩
  · rw [if_neg (by simpa [owesToken] using ho)]
    exact ⟨false, rfl, fun h => absurd h ho⟩

end

theorem finishRefund_alone (hid : s.recoveryID = some rid) (he : s.refundErr = none)
    (hc : s.refundComponentsCompleteLocked = true)
    (h : Call.exec cal (.markRefunded rid) st = (st', .ok ())) :
    ∃ s', (database cal).alone s.finishRefund [] st = (s', st') ∧ s'.refunded = true := by
  rw [finishRefund_eq hid he, hc]
  exact ⟨finished s, alone_exec h, by simp [finished, hc]⟩

theorem refund_alone (hs : Idle info s) (hneeds : s.needsRefundLocked = true)
    (hpos : 0 < s.extraReserved → s.funding.source = .subscription → 0 < s.relayInfo.subscriptionId)
    (hmark : Call.exec cal (.markRefundPending info.rid) st = (st1, .ok ()))
    (hfund : Call.exec cal (.applyAdjustment info.rid .funding .refund) st1 = (st2, .ok ()))
    (hextra : Gives cal info.rid .extra (owesExtra s) st2 st3)
    (htoken : Gives cal info.rid .token (owesToken s) st3 st4)
    (hclose : Call.exec cal (.markRefunded info.rid) st4 = (st₅, .ok ())) :
    ∃ s', (database cal).alone s.refund [] st = (s', st₅) ∧ s'.refunded = true := by
  have hgo : (s.settled || s.refunded || s.refundInProgress || !s.needsRefundLocked) = false := by
    rw [hs.settled, hs.refunded, hs.inProgress, hneeds]
    rfl
  obtain ⟨bx, hx, hbx⟩ := refundExtra_alone hs.recoveryID hs.extraRefunded hextra
  obtain ⟨bt, ht, hbt⟩ := refundToken_alone hs.recoveryID hs.tokenRefunded htoken
  rw [refund_eq, hgo]
  simp only [Bool.false_eq_true, if_false]
  rw [alone_bind, markPending_alone hs.recoveryID hmark]
  unfold afterMark
  rw [alone_bind, refundFunding_alone hs.recoveryID hs.fundingRefunded hs.fundingSettled hfund,
    alone_bind, hx, alone_bind, ht]
  refine finishRefund_alone hs.recoveryID rfl ?_ hclose
  have hextra' : (s.extraReserved > 0 && s.funding.source = .subscription && !bx) = false := by
    by_contra hne
    simp only [Bool.not_eq_false, Bool.and_eq_true, decide_eq_true_eq, Bool.not_eq_true'] at hne
    obtain ⟨⟨h1, h2⟩, h3⟩ := hne
    rw [hbx ⟨h1, h2, hpos h1 h2⟩] at h3
    cases h3
  have htoken' : (s.relayInfo.isPlayground || s.tokenConsumed ≤ 0 || bt) = true := by
    by_contra hne
    simp only [Bool.not_eq_true, Bool.or_eq_false_iff, decide_eq_false_iff_not, not_le] at hne
    obtain ⟨⟨h1, h2⟩, h3⟩ := hne
    rw [hbt ⟨h2, h1⟩] at h3
    cases h3
  simp only [refundComponentsCompleteLocked, hextra', htoken', Bool.not_true,
    Bool.and_false, Bool.false_eq_true, if_false, Bool.or_true]

end

/-- The row is closed and every amount it names went back where it came from. -/
structure Returned (rid : RequestID) (r : BillingRecovery) (st st' : Store) : Prop where
  closed : ∃ r', st'.recoveries rid = some r' ∧ r'.status = .refunded
  balances : Shift st st' (point r.userID (walletPart r)) (point r.tokenID r.tokenAmount)
  used : ∀ k, usedAmount st' k =
    usedAmount st k - point r.subscriptionID (sourcePart r + r.extraAmount) k

section
variable (cal : Calendar)

/-- If no call fails whatever the row holds goes back, and again changes nothing. -/
def RefundEffective (rid : RequestID) (s : BillingSession) (st : Store) : Prop :=
  let (s', st') := (database cal).alone s.refund [] st
  (∃ r, st.recoveries rid = some r ∧
    (0 < r.fundingAmount ∨ 0 < r.extraAmount ∨ 0 < r.tokenAmount → Returned rid r st st')) ∧
  ∀ faults, (database cal).alone s'.refund faults st' = (s', st')

theorem refund_idle {s : BillingSession} (cal : Calendar) (h : (s.settled || s.refunded ||
      s.refundInProgress || !s.needsRefundLocked) = true) (faults : List Bool) (st : Store) :
    (database cal).alone s.refund faults st = (s, st) := by
  rw [refund_eq, if_pos h]
  rfl

theorem Returning.close (h : Returning rid r true dx dt st0 st)
    (hx : dx = false → r.extraAmount = 0) (ht : dt = false → r.tokenAmount = 0) :
    ∃ st', Call.exec cal (.markRefunded rid) st = (st', .ok ()) ∧ Returned rid r st0 st' := by
  obtain ⟨a, b, c, hr, ha, hb, hc⟩ := h.row
  have hextra : (if dx then r.extraAmount else 0) = r.extraAmount := by
    cases hd : dx with
    | true => rfl
    | false => exact (hx hd).symm
  have htoken : (if dt then r.tokenAmount else 0) = r.tokenAmount := by
    cases hd : dt with
    | true => rfl
    | false => exact (ht hd).symm
  have hcomplete : billingRecoveryRefundComplete (refunding r a b c) = true := by
    apply decide_eq_true
    refine ⟨ha rfl, ?_, ?_⟩
    · rintro ⟨hpos, hne⟩
      cases hd : dx with
      | true => exact hne (hb hd)
      | false => exact absurd (hx hd) (ne_of_gt hpos)
    · rintro ⟨hpos, hne⟩
      cases hd : dt with
      | true => exact hne (hc hd)
      | false => exact absurd (ht hd) (ne_of_gt hpos)
  refine ⟨_, close_goes cal hr rfl hcomplete, ⟨_, setRecovery_self _ _ _, rfl⟩, ?_, ?_⟩
  · have hs := h.shift
    rw [htoken] at hs
    exact hs.trans_same (setRecovery_shift _ _ _)
  intro k
  show usedAmount st k = _
  rw [h.used, hextra]
  rfl

theorem Opened.returning (h : Opened info s0 s st) (hback : Backed info s st)
    (htok : info.isPlayground = false → (st.tokens info.tokenId).isSome)
    (hr : st.recoveries info.rid = some r) :
    Returning info.rid r false false false st
      (st.setRecovery info.rid { r with status := .refundPending }) := by
  have hb := Opened.bound h hr
  have hag := h.agrees r hr
  have hlent : r.source = .subscription → ∃ own k p, s.funding = .subscription own k p ∧
      Lends info.rid k p s.extraReserved st := by
    intro hsub
    cases hf : s.funding with
    | wallet => simp [hb.source, hf, Funding.source] at hsub
    | subscription own k p =>
      simp only [Backed, hf] at hback
      exact ⟨own, k, p, rfl, hback⟩
  refine ⟨⟨_, _, _, setRecovery_self _ _ _, nofun, nofun, nofun⟩, fun _ => h.marks _,
    fun _ => h.marks _, fun _ => h.marks _, ?_, fun k => ?_, ⟨fun hw => ?_, fun hq => ?_⟩,
    fun hsub _ => ?_, fun hsub => ?_⟩
  · simpa using setRecovery_shift st info.rid { r with status := .refundPending }
  · show usedAmount st k = _
    simp
  · show (st.users r.userID).isSome
    cases hf : s.funding with
    | wallet =>
      simp only [Backed, hf] at hback
      rw [hb.userID]
      exact hback
    | subscription => simp [hb.source, hf, Funding.source] at hw
  · show (st.tokens r.tokenID).isSome
    simp only [hb.tokenRequired, Bool.and_eq_true, Bool.not_eq_true'] at hq
    rw [hb.tokenID]
    exact htok hq.1
  · obtain ⟨own, k, p, hf, hlends⟩ := hlent hsub
    rw [hag.subscription own k p hf, hag.funding, hf]
    exact hlends.record
  · obtain ⟨own, k, p, hf, hlends⟩ := hlent hsub
    rw [hag.subscription own k p hf, hag.funding, hag.extra, hf]
    exact Carries.of_same hlends.used rfl

/-- The amounts of an open session's row, as far as a refund needs them. -/
structure Sizes (s : BillingSession) (r : BillingRecovery) : Prop where
  source : r.source = s.funding.source
  extra : 0 ≤ s.extraReserved
  token : 0 ≤ s.tokenConsumed
  wallet : r.source = .wallet → s.extraReserved = 0
  funding : r.source = .subscription → 0 < r.fundingAmount
  positive : r.source = .subscription → 0 < r.subscriptionID
  same : r.source = .subscription → s.relayInfo.subscriptionId = r.subscriptionID

theorem Opened.sizes (h : Opened info s0 s st) (hback : Backed info s st)
    (hr : st.recoveries info.rid = some r) (hb : Bound info s.funding.source r) :
    Sizes s r := by
  have hag := h.agrees r hr
  have ham := h.amounts
  have hsrc := hb.source
  unfold Amounts at ham
  cases hf : s.funding with
  | wallet =>
    simp only [hf] at ham hsrc
    have hne : ∀ {P : Prop}, r.source = .subscription → P := fun he => by
      rw [hsrc] at he
      cases he
    refine ⟨by rw [hsrc, hf], le_of_eq ham.2.1.symm, ?_, fun _ => ham.2.1, hne, hne, hne⟩
    rw [ham.2.2]
    split <;> omega
  | subscription own k p =>
    simp only [Backed, hf] at ham hback hsrc
    have hk := hag.subscription own k p hf
    refine ⟨by rw [hsrc, hf], ham.2.1, le_of_lt ham.2.2.1, fun he => ?_, fun _ => ?_, fun _ => ?_,
      fun _ => ?_⟩
    · rw [hsrc] at he
      cases he
    · rw [hag.funding, hf]
      exact ham.1
    · rw [hk]
      exact hback.positive
    · rw [hk]
      exact ham.2.2.2

theorem Returning.funding_step (h : Returning rid r false false false st0 st) (hz : Sizes s r)
    (hx : 0 ≤ r.extraAmount) :
    ∃ st', Call.exec cal (.applyAdjustment rid .funding .refund) st = (st', .ok ()) ∧
      Returning rid r true false false st0 st' := by
  cases hsrc : r.source with
  | wallet => exact h.wallet cal hsrc
  | subscription => exact h.subscription cal hsrc (hz.funding hsrc) hx

theorem Returning.extra_step (h : Returning rid r true false false st0 st) (hz : Sizes s r)
    (hx : r.extraAmount = s.extraReserved) :
    ∃ st' dx, Gives cal rid .extra (owesExtra s) st st' ∧ Returning rid r true dx false st0 st' ∧
      (dx = false → r.extraAmount = 0) := by
  by_cases ho : owesExtra s
  · have hsrc : r.source = .subscription := hz.source.trans ho.2.1
    obtain ⟨st', he, h'⟩ := h.extra cal hsrc (hz.positive hsrc) (by rw [hx]; exact ho.1)
      (le_of_lt (hz.funding hsrc))
    exact ⟨st', true, .inl ⟨ho, he⟩, h', nofun⟩
  · refine ⟨st, false, .inr ⟨ho, rfl⟩, h, fun _ => ?_⟩
    rw [hx]
    cases hsrc : r.source with
    | wallet => exact hz.wallet hsrc
    | subscription =>
      have hpos := hz.positive hsrc
      rw [← hz.same hsrc] at hpos
      have hnn := hz.extra
      have hno : ¬ 0 < s.extraReserved := fun hx => ho ⟨hx, hz.source.symm.trans hsrc, hpos⟩
      omega

theorem Returning.token_step (h : Returning rid r true dx false st0 st) (hz : Sizes s r)
    (hs : Idle info s) (hb : Bound info src r) (hid : TokenNamed info)
    (ht : r.tokenAmount = if info.isPlayground then 0 else s.tokenConsumed) :
    ∃ st' dt, Gives cal rid .token (owesToken s) st st' ∧ Returning rid r true dx dt st0 st' ∧
      (dt = false → r.tokenAmount = 0) := by
  by_cases ho : owesToken s
  · have hp : info.isPlayground = false := hs.isPlayground.symm.trans ho.2
    have hpos : 0 < info.tokenId := by simpa [TokenNamed, hp] using hid
    obtain ⟨st', he, h'⟩ := h.token cal (by rw [hb.tokenRequired]; simp [hp, hpos])
      (by rw [hb.tokenID]; exact hpos)
    exact ⟨st', true, .inl ⟨ho, he⟩, h', nofun⟩
  · refine ⟨st, false, .inr ⟨ho, rfl⟩, h, fun _ => ?_⟩
    rw [ht]
    split
    · rfl
    rename_i hp
    have hnn := hz.token
    have hno : ¬ 0 < s.tokenConsumed :=
      fun hx => ho ⟨hx, hs.isPlayground.trans (by simpa using hp)⟩
    omega

theorem Opened.refund_returns (h : Opened info s0 s st) (hback : Backed info s st)
    (hid : info.isPlayground = true ∨ (0 < info.tokenId ∧ (st.tokens info.tokenId).isSome))
    (hr : st.recoveries info.rid = some r) (hneeds : s.needsRefundLocked = true) :
    ∃ s' st', (database cal).alone s.refund [] st = (s', st') ∧ s'.refunded = true ∧
      Returned info.rid r st st' := by
  have hb := Opened.bound h hr
  have hag := h.agrees r hr
  have hz := Opened.sizes h hback hr hb
  have hmark := mark_goes cal hr hag.status hag.committed
  have h1 := Opened.returning h hback (by rcases hid with hp | hp <;> simp_all) hr
  obtain ⟨st2, hfund, h2⟩ := h1.funding_step cal hz (by rw [hag.extra]; exact hz.extra)
  obtain ⟨st3, dx, hextra, h3, hdx⟩ := h2.extra_step cal hz hag.extra
  obtain ⟨st4, dt, htoken, h4, hdt⟩ := h3.token_step cal hz h.idle hb
    (hid.imp id And.left) hag.token
  obtain ⟨st₅, hclose, hdone⟩ := h4.close cal hdx hdt
  have hpos : 0 < s.extraReserved → s.funding.source = .subscription →
      0 < s.relayInfo.subscriptionId := by
    intro _ hsub
    have hsrc := hz.source.trans hsub
    rw [hz.same hsrc]
    exact hz.positive hsrc
  obtain ⟨s', hrun, href⟩ := refund_alone h.idle hneeds hpos hmark hfund hextra htoken hclose
  exact ⟨s', st₅, hrun, href, hdone⟩

theorem needs_wallet (hs : Idle info s) (hf : s.funding = .wallet c) :
    s.needsRefundLocked = decide (0 < s.tokenConsumed) := by
  unfold needsRefundLocked
  simp only [hs.settled, hs.refunded, hs.fundingSettled, hs.fundingRefunded, hf, Funding.source]
  by_cases ht : 0 < s.tokenConsumed <;> simp [ht]

theorem needs_subscription (hs : Idle info s) (hf : s.funding = .subscription own k p)
    (hp : 0 < p) :
    s.needsRefundLocked = true := by
  unfold needsRefundLocked
  simp [hs.settled, hs.refunded, hs.fundingSettled, hs.fundingRefunded, hf, hp]

theorem Opened.effective (h : Opened info s0 s st) (hback : Backed info s st)
    (hid : info.isPlayground = true ∨ (0 < info.tokenId ∧ (st.tokens info.tokenId).isSome))
    (hneeds : s.needsRefundLocked = true) : RefundEffective cal info.rid s st := by
  obtain ⟨r, hr, _⟩ := h.row
  obtain ⟨s', st', hrun, href, hdone⟩ := Opened.refund_returns cal h hback hid hr hneeds
  unfold RefundEffective
  rw [hrun]
  refine ⟨⟨r, hr, fun _ => hdone⟩, fun faults => refund_idle cal ?_ faults st'⟩
  simp [href]

theorem Opened.effective_iff (h : Opened info s0 s st)
    (hr : st.recoveries info.rid = some r) (hneeds : s.needsRefundLocked = false) :
    RefundEffective cal info.rid s st ↔
      ¬ (0 < r.fundingAmount ∨ 0 < r.extraAmount ∨ 0 < r.tokenAmount) := by
  have hidle : (s.settled || s.refunded || s.refundInProgress || !s.needsRefundLocked) = true := by
    simp [hneeds]
  unfold RefundEffective
  rw [refund_idle cal hidle [] st]
  constructor
  · rintro ⟨⟨r', hr', hback⟩, _⟩ hpos
    rw [hr] at hr'
    cases hr'
    obtain ⟨q, hq, hst⟩ := (hback hpos).closed
    rw [hr] at hq
    cases hq
    rw [(h.agrees r hr).status] at hst
    cases hst
  · intro hnone
    exact ⟨⟨r, hr, fun hpos => absurd hpos hnone⟩, fun faults => refund_idle cal hidle faults st⟩

end

/-- A refund takes effect on every session but one with wallet funding and no token to bill. -/
theorem refund_effective_iff (info : RelayInfo) {targets : List Int}
    (hid : info.isPlayground = true ∨ (0 < info.tokenId ∧ (s0.tokens info.tokenId).isSome))
    (hk : Keyed s0) (hn : Numbered s0) (hf : Fresh info.rid s0)
    (hrec : s0.records info.rid = none)
    (hnew : (database cal).alone (newBillingSession info quota now) faults s0 = (.ok s₁, st₁))
    (hres : (database cal).alone (s₁.performAll (targets.map .reserve)) faults' st₁ = (s, st)) :
    RefundEffective cal info.rid s st ↔
      ¬ (info.isPlayground = true ∧ s.funding.source = .wallet ∧
        ∃ r, st.recoveries info.rid = some r ∧ 0 < r.fundingAmount) := by
  have h₁ : Opened info s0 s₁ st₁ := (newBillingSession_opens hf hrec).result hnew
  have h : Opened info s0 s st :=
    (reserves_opened (hid.imp id And.left) h₁ targets).result hres
  have hback := h.backed hk hn
  rw [← h.tokens info.tokenId] at hid
  have ham := h.amounts
  obtain ⟨r, hr, _⟩ := h.row
  have hag := h.agrees r hr
  unfold Amounts at ham
  cases hfund : s.funding with
  | subscription =>
    simp only [hfund] at ham
    have heff := Opened.effective cal h hback hid (needs_subscription h.idle hfund ham.1)
    exact iff_of_true heff fun hc => by cases hc.2.1
  | wallet c =>
    simp only [hfund] at ham
    have hneeds := needs_wallet h.idle hfund
    have hamount : r.fundingAmount = c := by rw [hag.funding, hfund]; rfl
    by_cases ht : 0 < s.tokenConsumed
    · -- A token that was charged makes the session ask for its refund.
      have heff := Opened.effective cal h hback hid (by rw [hneeds]; exact decide_eq_true ht)
      refine iff_of_true heff fun hc => ?_
      rw [ham.2.2, if_pos hc.1] at ht
      exact absurd ht (lt_irrefl 0)
    · rw [Opened.effective_iff cal h hr (by rw [hneeds]; exact decide_eq_false ht)]
      refine not_congr ⟨fun hpos => ?_, fun ⟨_, _, r', hr', hpos⟩ => ?_⟩
      · have hextra : r.extraAmount = 0 := by rw [hag.extra]; exact ham.2.1
        have htoken := hag.token
        by_cases hp : info.isPlayground = true
        · rw [if_pos hp] at htoken
          exact ⟨hp, rfl, r, hr, by omega⟩
        rw [if_neg hp] at htoken
        rw [ham.2.2, if_neg hp] at ht
        omega
      · rw [hr] at hr'
        cases hr'
        exact .inl hpos

theorem refund_effective_after_reserve :
    ∃ s₁ st₁ s st,
      (database sampleCalendar).alone (newBillingSession sampleRelay 10 0) [] sampleStore =
        (.ok s₁, st₁) ∧
      (database sampleCalendar).alone (s₁.performAll ([15].map .reserve)) [] st₁ = (s, st) ∧
      RefundEffective sampleCalendar sampleRequest s st := by
  obtain ⟨s₁, st₁, hnew⟩ : ∃ s₁ st₁, (database sampleCalendar).alone
      (newBillingSession sampleRelay 10 0) [] sampleStore = (.ok s₁, st₁) := ⟨_, _, rfl⟩
  obtain ⟨s, st, hres⟩ : ∃ s st, (database sampleCalendar).alone
      (s₁.performAll ([15].map .reserve)) [] st₁ = (s, st) := ⟨_, _, rfl⟩
  refine ⟨s₁, st₁, s, st, hnew, hres, (refund_effective_iff sampleRelay (.inr ⟨by decide, rfl⟩)
    ⟨fun _ _ h => (by cases h), fun _ _ h => (by cases h)⟩ (fun _ _ h => (by cases h))
    sampleStore_fresh rfl hnew hres).mpr ?_⟩
  rintro ⟨hp, _⟩
  cases hp

/-- Refunding a playground session leaves the wallet charged. -/
theorem playgroundRefund_keeps_the_money :
    ∃ s st,
      (database sampleCalendar).alone
        (newBillingSession { sampleRelay with isPlayground := true, tokenId := 0 } 10 0) []
        sampleStore = (.ok s, st) ∧
      getUserQuota 1 ((database sampleCalendar).alone s.refund [] st).2 = 90 ∧
      ¬ RefundEffective sampleCalendar sampleRequest s st := by
  refine ⟨_, _, rfl, by decide, ?_⟩
  rintro ⟨⟨r, hr, h⟩, _⟩
  cases hr
  obtain ⟨q, hq, hst⟩ := (h (by decide)).closed
  cases hq
  cases hst

end Ren2Hub.Proofs.SessionRefund
