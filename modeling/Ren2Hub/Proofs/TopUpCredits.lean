import Ren2Hub.Proofs.TopUpRuns

namespace Ren2Hub.Proofs.TopUpCredits
open Lib Lib.Transaction Payment

variable {cfg : Settings} {now : Int} {s s' : Store} {t : String} {o : TopUp}

def plain (user : User) : User := { user with stripeCustomer := "", email := "" }

/-- The rows without the orders and without the columns a credit writes besides the
quota. -/
def money (s : Store) : Store :=
  { s with topUps := fun _ => none, users := fun u => (s.users u).map plain }

theorem wallet_money (s : Store) (u : Int) : (money s).wallet u = s.wallet u := by
  have hu : (money s).users u = (s.users u).map plain := rfl
  unfold Store.wallet
  rw [hu]
  cases s.users u with
  | none | some => rfl

theorem money_ledger (h : money s = money s') : s.ledger = s'.ledger := by
  have hl : (money s).ledger = (money s').ledger := by rw [h]
  exact hl

theorem money_users (h : money s = money s') (u : Int) :
    (s.users u).map plain = (s'.users u).map plain := by
  have hu : (money s).users u = (money s').users u := by rw [h]
  exact hu

theorem plain_fields (h : plain a = plain b) :
    a.quota = b.quota ∧ a.affQuota = b.affQuota ∧ a.affFrozenQuota = b.affFrozenQuota ∧
      a.affHistoryQuota = b.affHistoryQuota := by
  simp only [plain, User.mk.injEq] at h
  obtain ⟨hq, -, -, -, -, -, -, -, ha, hf, hh⟩ := h
  exact ⟨hq, ha, hf, hh⟩

theorem users_cases (h : money s = money s') (u : Int) :
    (s.users u = none ∧ s'.users u = none) ∨
      ∃ a b, s.users u = some a ∧ s'.users u = some b ∧ plain a = plain b := by
  have hu := money_users h u
  cases ha : s.users u with
  | none =>
    cases hb : s'.users u with
    | none => exact .inl ⟨rfl, rfl⟩
    | some b => simp [ha, hb] at hu
  | some a =>
    cases hb : s'.users u with
    | none => simp [ha, hb] at hu
    | some b => exact .inr ⟨a, b, rfl, rfl, by simpa [ha, hb] using hu⟩

theorem money_saveUser (h : money s = money s') (hab : plain a = plain b) (u : Int) :
    money (s.saveUser u a) = money (s'.saveUser u b) := by
  have hsave : ∀ (s : Store) (user : User),
      money (s.saveUser u user) = (money s).saveUser u (plain user) := by
    intro s user
    have hu : (fun v => (Function.update s.users u (some user) v).map plain) =
        Function.update (fun v => (s.users v).map plain) u (some (plain user)) := by
      funext v
      by_cases hv : v = u
      · simp [hv]
      · simp [hv]
    unfold money Store.saveUser
    rw [hu]
  rw [hsave, hsave, h, hab]

def plainOutcome : AffiliateOutcome → AffiliateOutcome
  | .skip inviterId reason => .skip inviterId reason
  | .accrue inviterId inviter rateBps reward => .accrue inviterId (plain inviter) rateBps reward

theorem plain_rewardWithin (inviterId : Int) (inviter : User) (rateBps full accrued : Int)
    (cap : Option Int) :
    affiliateRewardWithin inviterId (plain inviter) rateBps full accrued cap =
      plainOutcome (affiliateRewardWithin inviterId inviter rateBps full accrued cap) := by
  have hh : (plain inviter).affHistoryQuota = inviter.affHistoryQuota := rfl
  have ha : (plain inviter).affQuota = inviter.affQuota := rfl
  have hf : (plain inviter).affFrozenQuota = inviter.affFrozenQuota := rfl
  unfold affiliateRewardWithin
  simp only [hh, ha, hf]
  split
  · rfl
  split
  · rfl
  · rfl

theorem plain_outcome (cfg : Settings) (source : AffiliateRewardSource) (invitee : User)
    (s : Store) :
    affiliateOutcome cfg source (plain invitee) (money s) =
      (affiliateOutcome cfg source invitee s).map plainOutcome := by
  have hexpired : affiliateDurationExpired cfg (plain invitee) source =
      affiliateDurationExpired cfg invitee source := rfl
  have hid : (plain invitee).inviterId = invitee.inviterId := rfl
  unfold affiliateOutcome
  rw [hid, hexpired]
  split
  · rfl
  split
  · rfl
  split
  · rfl
  have husers : (money s).users invitee.inviterId = (s.users invitee.inviterId).map plain := rfl
  rw [husers]
  cases s.users invitee.inviterId with
  | none => rfl
  | some inviter =>
    simp only [Option.map_some]
    have hactive : (!(plain inviter).enabled ∨ !(plain inviter).affCodeEnabled) ↔
        (!inviter.enabled ∨ !inviter.affCodeEnabled) := Iff.rfl
    have hrate : effectiveAffiliateRateBps cfg (plain inviter) =
        effectiveAffiliateRateBps cfg inviter := rfl
    have hledger : (money s).ledger = s.ledger := rfl
    simp only [hactive, hrate, hledger]
    split
    · rfl
    cases affiliateDurationExpired cfg invitee source with
    | error e => rfl
    | ok expired =>
      change (if expired then _ else _) = Except.map _ (if expired then _ else _)
      split
      · rfl
      split
      · rfl
      cases affiliateCap cfg with
      | error e => rfl
      | ok cap => exact congrArg Except.ok (plain_rewardWithin _ _ _ _ _ _)

theorem createAffiliateLedger_alike (row : AffiliateLedger) :
    Alike money (createAffiliateLedger row) (createAffiliateLedger row) := by
  refine alike_get fun s s' hs => ?_
  rw [money_ledger hs]
  refine alike_bind (alike_require _ _) fun _ => alike_modify fun s s' hs => ?_
  have happend : ∀ s : Store, money { s with ledger := s.ledger ++ [row] } =
      { money s with ledger := (money s).ledger ++ [row] } := fun _ => rfl
  rw [happend, happend, hs]

theorem plain_reward (cfg : Settings) (reward : Int) (user : User) :
    plain (user.reward cfg reward) = (plain user).reward cfg reward := by
  unfold User.reward
  split <;> rfl

theorem accrueAffiliateReward_alike (hab : plain a = plain b) :
    Alike money (accrueAffiliateReward cfg now source inviterId a rateBps reward)
      (accrueAffiliateReward cfg now source inviterId b rateBps reward) := by
  have hr : plain (a.reward cfg reward) = plain (b.reward cfg reward) := by
    rw [plain_reward, plain_reward, hab]
  refine alike_bind (alike_lift _) fun frozen => ?_
  refine alike_bind (alike_modify fun s s' hs => money_saveUser hs hr inviterId) fun _ => ?_
  obtain ⟨-, hq, hf, hh⟩ := plain_fields hr
  rw [hq, hf, hh]
  exact createAffiliateLedger_alike _

/-- The ledger row of an outcome. -/
def bookOutcome (cfg : Settings) (now : Int) (source : AffiliateRewardSource) :
    AffiliateOutcome → Tx Unit
  | .skip inviterId reason => createAffiliateSkip source inviterId reason
  | .accrue inviterId inviter rateBps reward =>
    accrueAffiliateReward cfg now source inviterId inviter rateBps reward

theorem bookOutcome_alike (h : plainOutcome x = plainOutcome y) (source : AffiliateRewardSource) :
    Alike money (bookOutcome cfg now source x) (bookOutcome cfg now source y) := by
  cases x with
  | skip =>
    cases y with
    | skip =>
      cases h
      exact createAffiliateLedger_alike _
    | accrue => cases h
  | accrue =>
    cases y with
    | skip => cases h
    | accrue =>
      obtain ⟨rfl, hu, rfl, rfl⟩ := AffiliateOutcome.accrue.inj h
      exact accrueAffiliateReward_alike hu

/-- The reward of the inviter does not see the orders, nor a mail address or a customer
number. -/
theorem applyAffiliateReward_alike (cfg : Settings) (now : Int) (source : AffiliateRewardSource) :
    Alike money (applyAffiliateReward cfg now source) (applyAffiliateReward cfg now source) := by
  refine alike_get fun s s' hs => ?_
  rw [money_ledger hs]
  split
  · exact alike_pure ()
  split
  · exact alike_pure ()
  rcases users_cases hs source.inviteeId with ⟨ha, hb⟩ | ⟨a, b, ha, hb, hab⟩
  · rw [ha, hb]
    exact alike_throw _
  rw [ha, hb]
  have h : (affiliateOutcome cfg source a s).map plainOutcome =
      (affiliateOutcome cfg source b s').map plainOutcome := by
    rw [← plain_outcome, ← plain_outcome, hs, hab]
  exact alike_lift_map h fun x y hxy => bookOutcome_alike hxy source

theorem applyTopUpAffiliateReward_alike (cfg : Settings) (now : Int) (t : String) (o : TopUp) :
    Alike money (applyTopUpAffiliateReward cfg now t o)
      (applyTopUpAffiliateReward cfg now t o) := by
  unfold applyTopUpAffiliateReward
  split
  · exact alike_pure ()
  · exact applyAffiliateReward_alike cfg now _

theorem creditTopUpQuota_alike (userId quota : Int) (updates updates' : UserUpdates) :
    Alike money (creditTopUpQuota userId quota updates)
      (creditTopUpQuota userId quota updates') := by
  refine alike_bind (alike_lift _) fun maxCurrent => alike_get fun s s' hs => ?_
  rcases users_cases hs userId with ⟨ha, hb⟩ | ⟨a, b, ha, hb, hab⟩
  · rw [ha, hb]
    exact alike_throw _
  rw [ha, hb]
  have hq : a.quota = b.quota := (plain_fields hab).1
  simp only [hq]
  split
  · refine alike_modify fun s s' hs => money_saveUser hs ?_ userId
    have hset : ∀ (user : User) (q : Int) (us : UserUpdates),
        plain { us.apply user with quota := q } = { plain user with quota := q } := fun _ _ _ => rfl
    rw [hset, hset, hab]
  · exact alike_throw _

/-- A quota that may be added. -/
def creditable (quota : Option Int) : Option Int := quota.filter fun q => 0 < q

/-- The credit and the reward of an order, and nothing else. -/
def payOut (cfg : Settings) (now : Int) (t : String) (o : TopUp) (quota : Option Int) :
    Tx Bool := do
  let q ← requireQuota quota
  creditTopUpQuota o.userId q {}
  applyTopUpAffiliateReward cfg now t o
  pure false

theorem requireQuota_eq (quota : Option Int) :
    requireQuota quota = match creditable quota with
      | none => throw .invalidTopUpQuota
      | some q => pure q := by
  cases quota with
  | none => rfl
  | some q =>
    by_cases hq : 0 < q
    · have hc : creditable (some q) = some q := by simp [creditable, hq]
      simp [requireQuota, Transaction.require, hq, hc]
    have hc : creditable (some q) = none := by simp [creditable, Int.not_lt.mp hq]
    simp only [requireQuota, Transaction.require, hq, hc, ↓reduceIte]
    rfl

theorem requireQuota_alike (quota : Option Int) :
    Alike money (requireQuota quota) (requireQuota quota) := by
  rw [requireQuota_eq]
  split
  · exact alike_throw _
  · exact alike_pure _

theorem payOut_congr (h : creditable quota = creditable quota') :
    payOut cfg now t o quota = payOut cfg now t o quota' := by
  unfold payOut
  rw [requireQuota_eq, requireQuota_eq, h]

/-- A credit and a reward end alike, whatever else the credit writes and however the
order was saved. -/
theorem settled_alike (cfg : Settings) (now : Int) (t : String) (o o' : TopUp) (q : Int)
    (updates : UserUpdates)
    (hreward : applyTopUpAffiliateReward cfg now t o' = applyTopUpAffiliateReward cfg now t o) :
    Alike money
      (do creditTopUpQuota o.userId q updates
          applyTopUpAffiliateReward cfg now t o'
          pure false)
      (do creditTopUpQuota o.userId q {}
          applyTopUpAffiliateReward cfg now t o
          pure false) := by
  rw [hreward]
  refine alike_bind (creditTopUpQuota_alike _ _ _ _) fun _ => ?_
  exact alike_bind (applyTopUpAffiliateReward_alike cfg now t o) fun _ => alike_pure false

/-- The rows on which the routines of a pending order are compared. -/
structure Awaits (s : Store) (t : String) (o : TopUp) : Prop where
  named : t ≠ ""
  row : s.topUps t = some o
  pending : o.status = .pending

theorem Awaits.unpaid (h : Awaits s t o) : o.status ≠ .success := by
  rw [h.pending]
  simp

theorem lockTopUp_run (h : Awaits s t o) (e : TopUpError) :
    (lockTopUp t e >>= k).run s = (k o).run s := by
  have hlock : (lockTopUp t e).run s = .ok (o, s) := by
    rw [lockTopUp, run_get, h.row]
    rfl
  rw [StateT.run_bind, hlock]
  rfl

theorem complete_reward (cfg : Settings) (now : Int) (t : String) (o : TopUp) :
    applyTopUpAffiliateReward cfg now t (o.complete now) = applyTopUpAffiliateReward cfg now t o :=
  rfl

theorem saveTopUp_left (h : Alike money u u') (t : String) (o : TopUp) :
    Alike money (saveTopUp t o >>= fun _ => u) u' :=
  alike_modify_left (fun _ => rfl) h

/-- What both routines of an order are compared with. -/
def Pays (s : Store) (u : Tx Bool) (cfg : Settings) (now : Int) (t : String) (o : TopUp)
    (quota : Option Int) : Prop :=
  (u.run s).map (Prod.map id money) = ((payOut cfg now t o quota).run s).map (Prod.map id money)

theorem Pays.of_completed (o' : TopUp)
    (hrun : u.run s = (do let q ← requireQuota quota
                          completeOrder cfg now t o' q
                          pure false : Tx Bool).run s)
    (hid : o'.userId = o.userId)
    (hreward : applyTopUpAffiliateReward cfg now t o' = applyTopUpAffiliateReward cfg now t o) :
    Pays s u cfg now t o quota := by
  unfold Pays
  rw [hrun]
  refine alike_bind (requireQuota_alike quota) (fun q => ?_) s s rfl
  have h := saveTopUp_left (settled_alike cfg now t o (o'.complete now) q {} hreward) t
    (o'.complete now)
  simpa only [completeOrder, bind_assoc, hid] using h

theorem manual_pays (h : Awaits s t o) (cfg : Settings) (now : Int) :
    Pays s (transactionOf cfg now (.manualCompleteTopUp t)) cfg now t o
      (if o.paymentProvider = some .stripe then o.moneyQuota cfg else o.amountQuota cfg) := by
  refine .of_completed o ?_ rfl rfl
  simp only [transactionOf, manualCompleteTopUp, require_of h.named, pure_bind, bind_assoc]
  rw [lockTopUp_run h]
  simp only [h.unpaid, require_of h.pending, pure_bind, bind_assoc, ↓reduceIte]

theorem epay_pays (h : Awaits s t o) (hp : o.paymentProvider = some .epay) (cfg : Settings)
    (now : Int) (method : String) :
    Pays s (transactionOf cfg now (.rechargeEpay t method)) cfg now t o (o.amountQuota cfg) := by
  have hquota : TopUp.amountQuota cfg
      (if method ≠ "" then { o with paymentMethod := method } else o) = o.amountQuota cfg := by
    split <;> rfl
  refine .of_completed (if method ≠ "" then { o with paymentMethod := method } else o) ?_ ?_ ?_
  · simp only [transactionOf, rechargeEpay, require_of h.named, pure_bind]
    rw [lockTopUp_run h]
    simp only [h.unpaid, require_of h.pending, require_of hp, pure_bind, hquota, ↓reduceIte]
  · split <;> rfl
  · split <;> rfl

theorem idempotent_pays (h : Awaits s t o) (hp : o.paymentProvider = some p) (cfg : Settings)
    (now : Int) :
    Pays s (do rechargeIdempotent p cfg now t; pure false) cfg now t o (o.amountQuota cfg) := by
  refine .of_completed o ?_ rfl rfl
  simp only [rechargeIdempotent, require_of h.named, pure_bind, bind_assoc]
  rw [lockTopUp_run h]
  simp only [h.unpaid, require_of h.pending, require_of hp, pure_bind, bind_assoc, ↓reduceIte]

theorem stripe_pays (h : Awaits s t o) (hp : o.paymentProvider = some .stripe) (cfg : Settings)
    (now : Int) (customer : String) :
    Pays s (transactionOf cfg now (.recharge t customer)) cfg now t o (o.moneyQuota cfg) := by
  have hrun : (transactionOf cfg now (.recharge t customer)).run s =
      (do saveTopUp t (o.complete now)
          let q ← requireQuota (o.moneyQuota cfg)
          creditTopUpQuota o.userId q { stripeCustomer := some customer }
          applyTopUpAffiliateReward cfg now t (o.complete now)
          pure false : Tx Bool).run s := by
    simp only [transactionOf, recharge, require_of h.named, pure_bind, bind_assoc]
    rw [lockTopUp_run h]
    simp only [require_of h.pending, require_of hp, pure_bind]
  unfold Pays
  rw [hrun]
  refine saveTopUp_left (alike_bind (requireQuota_alike _) fun q => ?_) t _ s s rfl
  exact settled_alike cfg now t o (o.complete now) q _ (complete_reward cfg now t o)

theorem quotaFromDecimalStrict_lt (h : quotaFromDecimalStrict d = some q) : q < maxQuota := by
  unfold quotaFromDecimalStrict at h
  split at h
  · cases h
  · cases h
    omega

theorem creemUpdates_run (userId : Int) (email : String) (s : Store) :
    (∃ updates, (creemUpdates userId email).run s = .ok (updates, s)) ∨
      s.users userId = none ∧ (creemUpdates userId email).run s = .error .recordNotFound := by
  unfold creemUpdates
  split
  · exact .inl ⟨{}, rfl⟩
  rw [run_get]
  cases s.users userId with
  | none => exact .inr ⟨rfl, rfl⟩
  | some user => exact .inl ⟨_, rfl⟩

theorem creditTopUpQuota_missing (hpos : 0 < q) (hmax : q < maxQuota) (h : s.users userId = none)
    (updates : UserUpdates) :
    (creditTopUpQuota userId q updates).run s = .error .recordNotFound := by
  have hbound : ¬ (q ≤ 0 ∨ q ≥ maxQuota) := by omega
  simp only [creditTopUpQuota, topUpQuotaMaxCurrent, hbound, ↓reduceIte]
  rw [run_lift, run_get, h]
  rfl

theorem creemUpdates_alike (email : String) (o : TopUp) (hpos : 0 < q) (hmax : q < maxQuota) :
    Alike money
      (do let updates ← creemUpdates o.userId email
          creditTopUpQuota o.userId q updates
          applyTopUpAffiliateReward cfg now t (o.complete now)
          pure false)
      (do creditTopUpQuota o.userId q {}
          applyTopUpAffiliateReward cfg now t o
          pure false) := by
  intro s s' hs
  rw [StateT.run_bind]
  rcases creemUpdates_run o.userId email s with ⟨updates, h⟩ | ⟨hmissing, h⟩
  · rw [h]
    exact settled_alike cfg now t o (o.complete now) q updates (complete_reward cfg now t o) s s' hs
  have hmissing' : s'.users o.userId = none := by
    simpa [hmissing] using (money_users hs o.userId).symm
  rw [h, StateT.run_bind, creditTopUpQuota_missing hpos hmax hmissing']
  rfl

theorem creem_pays (h : Awaits s t o) (hp : o.paymentProvider = some .creem) (cfg : Settings)
    (now : Int) (email : String) :
    Pays s (transactionOf cfg now (.rechargeCreem t email)) cfg now t o
      (quotaFromDecimalStrict ⟨o.amount, 0⟩) := by
  have hrun : (transactionOf cfg now (.rechargeCreem t email)).run s =
      (do saveTopUp t (o.complete now)
          let q ← requireQuota (quotaFromDecimalStrict ⟨o.amount, 0⟩)
          let updates ← creemUpdates o.userId email
          creditTopUpQuota o.userId q updates
          applyTopUpAffiliateReward cfg now t (o.complete now)
          pure false : Tx Bool).run s := by
    simp only [transactionOf, rechargeCreem, require_of h.named, pure_bind, bind_assoc]
    rw [lockTopUp_run h]
    simp only [require_of h.pending, require_of hp, pure_bind]
  unfold Pays payOut
  rw [hrun]
  refine saveTopUp_left ?_ t _ s s rfl
  rw [requireQuota_eq]
  cases hq : creditable (quotaFromDecimalStrict ⟨o.amount, 0⟩) with
  | none => exact alike_throw _
  | some q =>
    obtain ⟨hquota, hpos⟩ := Option.filter_eq_some_iff.mp hq
    exact creemUpdates_alike email o (of_decide_eq_true hpos) (quotaFromDecimalStrict_lt hquota)

/-- The quota an order is worth to a routine. -/
def quotaOf (cfg : Settings) (o : TopUp) : Call → Option Int
  | .manualCompleteTopUp _ =>
    if o.paymentProvider = some .stripe then o.moneyQuota cfg else o.amountQuota cfg
  | .recharge .. => o.moneyQuota cfg
  | .rechargeCreem .. => quotaFromDecimalStrict ⟨o.amount, 0⟩
  | .rechargeEpay .. | .rechargeWaffo _ | .rechargeWaffoPancake _ => o.amountQuota cfg
  | .updatePendingTopUpStatus .. => none

theorem transaction_pays (h : Awaits s c.tradeNo o)
    (hp : ∀ p, c.provider = some p → o.paymentProvider = some p) (hc : TopUpRuns.asked c = none)
    (cfg : Settings) (now : Int) :
    Pays s (transactionOf cfg now c) cfg now c.tradeNo o (quotaOf cfg o c) := by
  cases c with
  | updatePendingTopUpStatus => cases hc
  | manualCompleteTopUp => exact manual_pays h cfg now
  | rechargeEpay t method => exact epay_pays h (hp _ rfl) cfg now method
  | recharge t customer => exact stripe_pays h (hp _ rfl) cfg now customer
  | rechargeCreem t email => exact creem_pays h (hp _ rfl) cfg now email
  | rechargeWaffo | rechargeWaffoPancake => exact idempotent_pays h (hp _ rfl) cfg now

theorem quotaOf_lt (h : quotaOf cfg o c = some q) : q < maxQuota := by
  cases c with
  | updatePendingTopUpStatus => cases h
  | manualCompleteTopUp =>
    simp only [quotaOf] at h
    split at h
    · exact quotaFromDecimalStrict_lt h
    · exact quotaFromDecimalStrict_lt h
  | rechargeEpay | recharge | rechargeCreem | rechargeWaffo | rechargeWaffoPancake =>
    exact quotaFromDecimalStrict_lt h

/-- The call a callback of the provider makes for an order. -/
def Webhook (p : PaymentProvider) (t : String) : Call → Prop
  | .rechargeEpay u _ => p = .epay ∧ u = t
  | .recharge u _ => p = .stripe ∧ u = t
  | .rechargeCreem u _ => p = .creem ∧ u = t
  | .rechargeWaffo u => p = .waffo ∧ u = t
  | .rechargeWaffoPancake u => p = .waffoPancake ∧ u = t
  | .manualCompleteTopUp _ | .updatePendingTopUpStatus .. => False

theorem Webhook.call (h : Webhook p t c) :
    c.tradeNo = t ∧ c.provider = some p ∧ TopUpRuns.asked c = none := by
  cases c with
  | updatePendingTopUpStatus | manualCompleteTopUp => cases h
  | rechargeEpay | recharge | rechargeCreem | rechargeWaffo | rechargeWaffoPancake =>
    exact ⟨h.2, congrArg some h.1.symm, rfl⟩

theorem webhook_pays (h : Awaits s t o) (hp : o.paymentProvider = some p) (hc : Webhook p t c)
    (cfg : Settings) (now : Int) :
    Pays s (transactionOf cfg now c) cfg now t o (quotaOf cfg o c) := by
  obtain ⟨rfl, hprovider, hasked⟩ := hc.call
  refine transaction_pays h (fun q hq => ?_) hasked cfg now
  cases hprovider.symm.trans hq
  exact hp

/-- What a call adds to a wallet. -/
def credited (cfg : Settings) (now : Int) (c : Call) (s : Store) (userId : Int) : Int :=
  (c.exec cfg now s).2.wallet userId - s.wallet userId

/-- A quota is out of range, that of the order or that of the wallet afterwards. -/
def OutOfRange (cfg : Settings) (now : Int) (c : Call) (s : Store) : Prop :=
  (commit (transactionOf cfg now c) s).1 = .error .invalidTopUpQuota ∨
    (commit (transactionOf cfg now c) s).1 = .error .topUpQuotaLimitExceeded

/-- Both calls add the same and refuse the same. -/
def SameCredit (cfg : Settings) (now : Int) (c c' : Call) (s : Store) (userId : Int) : Prop :=
  credited cfg now c s userId = credited cfg now c' s userId ∧
    (OutOfRange cfg now c s ↔ OutOfRange cfg now c' s)

theorem sameCredit_of_pays (h : Pays s (transactionOf cfg now c) cfg now t o quota)
    (h' : Pays s (transactionOf cfg now c') cfg now t o quota')
    (hq : creditable quota = creditable quota') (userId : Int) :
    SameCredit cfg now c c' s userId := by
  unfold Pays at h h'
  rw [payOut_congr hq] at h
  obtain ⟨hanswer, hmoney⟩ := commit_alike (h.trans h'.symm)
  unfold SameCredit OutOfRange credited Call.exec
  rw [hanswer]
  refine ⟨?_, Iff.rfl⟩
  rw [← wallet_money, hmoney, wallet_money]

theorem createAffiliateLedger_run (hl : s.ledger = []) (row : AffiliateLedger) :
    ∃ s', (createAffiliateLedger row).run s = .ok ((), s') := by
  refine ⟨{ s with ledger := s.ledger ++ [row] }, ?_⟩
  rw [createAffiliateLedger, run_get, require_of (by simp [hl])]
  rfl

theorem reward_without_inviter (hu : s.users source.inviteeId = some user)
    (hi : user.inviterId ≤ 0) (hl : s.ledger = []) (cfg : Settings) (now : Int) :
    ∃ s', (applyAffiliateReward cfg now source).run s = .ok ((), s') := by
  have ho : affiliateOutcome cfg source user s = .ok (.skip 0 .noInviter) := by
    simp [affiliateOutcome, hi]
  simp only [applyAffiliateReward, run_get]
  split
  · exact ⟨s, rfl⟩
  rw [if_neg (by simp [hl]), hu]
  dsimp only
  rw [ho]
  exact createAffiliateLedger_run hl _

/-- A buyer with nothing in the wallet and without an inviter. -/
def freshBuyer (t : String) (o : TopUp) : Store where
  topUps := Function.update (fun _ => none) t (some o)
  users := Function.update (fun _ => none) o.userId (some { quota := 0 })

theorem wallet_freshBuyer (t : String) (o : TopUp) : (freshBuyer t o).wallet o.userId = 0 := by
  simp [Store.wallet, freshBuyer]

theorem creditTopUpQuota_freshBuyer (hpos : 0 < q) (hmax : q < maxQuota) :
    (creditTopUpQuota o.userId q {}).run (freshBuyer t o) =
      .ok ((), (freshBuyer t o).saveUser o.userId { quota := q }) := by
  have hbound : ¬ (q ≤ 0 ∨ q ≥ maxQuota) := by omega
  have huser : (freshBuyer t o).users o.userId = some { quota := 0 } := by simp [freshBuyer]
  have hroom : (0 : Int) ≤ maxQuota - 1 - q := by omega
  simp only [creditTopUpQuota, topUpQuotaMaxCurrent, hbound, ↓reduceIte]
  rw [run_lift, run_get, huser]
  simp only [hroom, ↓reduceIte, Int.zero_add]
  rfl

theorem payOut_freshBuyer (hmax : ∀ q, quota = some q → q < maxQuota) :
    ((commit (payOut cfg now t o quota) (freshBuyer t o)).2).wallet o.userId =
      (creditable quota).getD 0 := by
  unfold payOut
  rw [requireQuota_eq]
  cases hq : creditable quota with
  | none => exact wallet_freshBuyer t o
  | some q =>
    obtain ⟨hquota, hpos⟩ := Option.filter_eq_some_iff.mp hq
    have hcredit := creditTopUpQuota_freshBuyer (t := t) (o := o) (of_decide_eq_true hpos)
      (hmax q hquota)
    have hreward : ∃ s', (applyTopUpAffiliateReward cfg now t o).run
        ((freshBuyer t o).saveUser o.userId { quota := q }) = .ok ((), s') := by
      unfold applyTopUpAffiliateReward
      split
      · exact ⟨_, rfl⟩
      have huser : ((freshBuyer t o).saveUser o.userId { quota := q }).users o.userId =
          some { quota := q } := by simp [Store.saveUser]
      exact reward_without_inviter huser (Int.le_refl 0) rfl cfg now
    obtain ⟨s', hreward⟩ := hreward
    have hrun : (do creditTopUpQuota o.userId q {}
                    applyTopUpAffiliateReward cfg now t o
                    pure false : Tx Bool).run (freshBuyer t o) = .ok (false, s') := by
      rw [StateT.run_bind, hcredit]
      change ((applyTopUpAffiliateReward cfg now t o >>= fun _ => pure false : Tx Bool).run _) = _
      rw [StateT.run_bind, hreward]
      rfl
    have hleft := TopUpRuns.applyTopUpAffiliateReward_leaves cfg now t o _ _ s' hreward
    have hwallet := hleft.2 o.userId
    rw [TopUpRuns.wallet_saveUser, if_pos rfl] at hwallet
    simp only [pure_bind, commit, hrun]
    exact hwallet

theorem creditable_inj (h : (creditable a).getD 0 = (creditable b).getD 0) :
    creditable a = creditable b := by
  cases ha : creditable a with
  | none =>
    cases hb : creditable b with
    | none => rfl
    | some y =>
      have hy := of_decide_eq_true (Option.filter_eq_some_iff.mp hb).2
      simp only [ha, hb, Option.getD_none, Option.getD_some] at h
      omega
  | some x =>
    have hx := of_decide_eq_true (Option.filter_eq_some_iff.mp ha).2
    cases hb : creditable b with
    | none =>
      simp only [ha, hb, Option.getD_none, Option.getD_some] at h
      omega
    | some y =>
      simp only [ha, hb, Option.getD_some] at h
      rw [h]

theorem credited_freshBuyer (h : Pays (freshBuyer t o) (transactionOf cfg now c) cfg now t o quota)
    (hmax : ∀ q, quota = some q → q < maxQuota) :
    credited cfg now c (freshBuyer t o) o.userId = (creditable quota).getD 0 := by
  obtain ⟨-, hmoney⟩ := commit_alike h
  unfold credited Call.exec
  rw [wallet_freshBuyer, ← wallet_money, hmoney, wallet_money, payOut_freshBuyer hmax, Int.sub_zero]

theorem quotaOf_webhook (hp : o.paymentProvider = some p) (hc : Webhook p t c) (h : p = .creem →
      creditable (o.amountQuota cfg) = creditable (quotaFromDecimalStrict ⟨o.amount, 0⟩)) :
    creditable (quotaOf cfg o (.manualCompleteTopUp t)) = creditable (quotaOf cfg o c) := by
  have hmanual : p ≠ .stripe → quotaOf cfg o (.manualCompleteTopUp t) = o.amountQuota cfg := by
    intro hne
    exact if_neg fun hs => hne (Option.some.inj (hp.symm.trans hs))
  cases c with
  | updatePendingTopUpStatus | manualCompleteTopUp => cases hc
  | recharge =>
    obtain ⟨rfl, rfl⟩ := hc
    exact congrArg creditable (if_pos hp)
  | rechargeCreem =>
    obtain ⟨rfl, rfl⟩ := hc
    rw [hmanual nofun]
    exact h rfl
  | rechargeEpay | rechargeWaffo | rechargeWaffoPancake =>
    obtain ⟨rfl, rfl⟩ := hc
    rw [hmanual nofun]
    rfl

/-- For every pending order, an administrator adds and refuses what the callback of the provider
does, on all rows, exactly if the order is not of Creem or its amount is worth the same as a number
of units and as a quota. -/
theorem manual_credits_as_webhook_iff (cfg : Settings) (hs : o.status = .pending)
    (hp : o.paymentProvider = some p) :
    (∀ s t now c, t ≠ "" → s.topUps t = some o → Webhook p t c →
      SameCredit cfg now (.manualCompleteTopUp t) c s o.userId) ↔
    (p = .creem →
      creditable (o.amountQuota cfg) = creditable (quotaFromDecimalStrict ⟨o.amount, 0⟩)) := by
  constructor
  · rintro h rfl
    have hsame := h (freshBuyer "ref" o) "ref" 0 (.rechargeCreem "ref" "") (by decide)
      (by simp [freshBuyer]) ⟨rfl, rfl⟩
    have hawaits : Awaits (freshBuyer "ref" o) "ref" o := ⟨by decide, by simp [freshBuyer], hs⟩
    have hmanual := credited_freshBuyer (manual_pays hawaits cfg 0)
      fun _ => quotaOf_lt (c := .manualCompleteTopUp "ref")
    have hcreem := credited_freshBuyer (creem_pays hawaits hp cfg 0 "")
      fun _ => quotaFromDecimalStrict_lt
    rw [if_neg (by rw [hp]; decide)] at hmanual
    exact creditable_inj (hmanual.symm.trans (hsame.1.trans hcreem))
  · intro h s t now c ht ho hc
    have hawaits : Awaits s t o := ⟨ht, ho, hs⟩
    exact sameCredit_of_pays (manual_pays hawaits cfg now) (webhook_pays hawaits hp hc cfg now)
      (quotaOf_webhook hp hc h) _

/-- An order as the checkout of a provider leaves it, for a hundred units or a quota of
a hundred. -/
def hundred (p : PaymentProvider) : TopUp :=
  { id := 1, userId := 7, amount := 100, money := ⟨1990, 2⟩, paymentMethod := "card"
    paymentProvider := some p, createTime := 50 }

theorem waffo_order_credits_alike :
    SameCredit {} 60 (.manualCompleteTopUp "T1") (.rechargeWaffo "T1")
      (freshBuyer "T1" (hundred .waffo)) 7 :=
  (manual_credits_as_webhook_iff (o := hundred .waffo) (p := .waffo) {} rfl rfl).mpr nofun
    _ "T1" 60 (.rechargeWaffo "T1") (by decide) rfl ⟨rfl, rfl⟩

/-- The administrator gives half a million times what the buyer paid Creem for. -/
theorem creem_order_credited_in_units :
    credited {} 60 (.rechargeCreem "T1" "") (freshBuyer "T1" (hundred .creem)) 7 = 100 ∧
    credited {} 60 (.manualCompleteTopUp "T1") (freshBuyer "T1" (hundred .creem)) 7 = 50000000 := by
  decide +kernel

end Ren2Hub.Proofs.TopUpCredits
