import Ren2Hub.Proofs.SessionCalls
import Ren2Hub.Proofs.SubscriptionSpec
import Ren2Hub.Lib.Alone

namespace Ren2Hub.Proofs.SessionOpening
open Lib Machine Billing Ledger RecoverySpec CallSpec RequestBook SessionCalls SubscriptionSpec
  BillingSession

theorem ask (hok : ∀ v st', Call.exec cal c st = (st', .ok v) →
      (database cal).Ensures Q (next (.ok v)) st')
    (herror : ∀ e, (database cal).Ensures Q (next (.error e)) st) :
    (database cal).Ensures Q (Program.call c next) st := by
  constructor
  · show (database cal).Ensures Q (next (Call.exec cal c st).2) (Call.exec cal c st).1
    cases hx : (Call.exec cal c st).2 with
    | error e =>
      rw [exec_error cal c st hx]
      exact herror e
    | ok v => exact hok v _ (Prod.ext rfl hx)
  · intro r hr
    cases hr
    exact herror .database

/-- What a step that succeeded leaves behind. -/
def IfOk (P : Store → Prop) : Except BillingError α → Store → Prop
  | .ok _, st => P st
  | .error _, _ => True

/-- What a try leaves alone until it takes something: the subscription side, which balance rows
there are. -/
structure Aside (s0 st : Store) : Prop where
  side : SameSubscriptions s0 st
  users : ∀ k, (st.users k).isSome = (s0.users k).isSome
  tokens : ∀ k, (st.tokens k).isSome = (s0.tokens k).isSome

theorem Aside.refl (s : Store) : Aside s s := ⟨⟨rfl, rfl, rfl⟩, fun _ => rfl, fun _ => rfl⟩

theorem Aside.shift (h : Aside s0 st) (hs : Shift st st' w t) (hside : SameSubscriptions st st') :
    Aside s0 st' :=
  ⟨h.side.trans hside, fun k => (hs.userRows k).trans (h.users k),
    fun k => (hs.tokenRows k).trans (h.tokens k)⟩

theorem Aside.updateToken (h : Aside s0 st) (k d : Int) : Aside s0 (updateToken k d st) :=
  ⟨h.side.trans (updateToken_rows k d st).subscriptionSide,
    fun i => by rw [updateToken_users]; exact h.users i,
    fun i => (updateToken_isSome k d st i).trans (h.tokens i)⟩

/-- A row that belongs to the request and is bound to the source. -/
structure Bound (info : RelayInfo) (src : Source) (r : BillingRecovery) : Prop where
  source : r.source = src
  userID : r.userID = info.userId
  tokenID : r.tokenID = info.tokenId
  tokenRequired : r.tokenRequired = (!info.isPlayground && decide (info.tokenId > 0))

/-- Nothing was taken or refunded yet, and a row left over from another try has another source. -/
structure Unspent (info : RelayInfo) (src : Source) (s0 st : Store) : Prop where
  row : ∀ r, st.recoveries info.rid = some r → r.source ≠ src
  marks : ∀ c, st.adjustments info.rid c .refund = none
  aside : Aside s0 st

/-- A try with this source has its row. -/
structure Started (info : RelayInfo) (src : Source) (s0 st : Store) : Prop where
  row : ∃ r, st.recoveries info.rid = some r ∧ Bound info src r
  marks : ∀ c, st.adjustments info.rid c .refund = none
  aside : Aside s0 st

section
variable (h : Started info src s0 st)
include h

theorem Started.unspent (hne : other ≠ src) :
    Unspent info other s0 st := by
  obtain ⟨r, hr, hb⟩ := h.row
  refine ⟨fun r' hr' => ?_, h.marks, h.aside⟩
  rw [hr] at hr'
  cases hr'
  rw [hb.source]
  exact hne.symm

omit h in
theorem Bound.withRecord (h : Bound info src r) (record : Option SubscriptionPreConsumeRecord)
    (status : RecoveryStatus) : Bound info src { r.withRecord record with status := status } := by
  obtain ⟨_, _, _, _, he⟩ := withRecord_eq r record
  rw [he]
  exact ⟨h.source, h.userID, h.tokenID, h.tokenRequired⟩

theorem Started.write (hb : Bound info src r) :
    Started info src s0 (st.setRecovery info.rid r) :=
  ⟨⟨r, setRecovery_self _ _ _, hb⟩, h.marks,
    h.aside.shift (setRecovery_shift _ _ _) ⟨rfl, rfl, rfl⟩⟩

theorem Started.bound (hr : st.recoveries info.rid = some r) : Bound info src r := by
  obtain ⟨r', hr', hb⟩ := h.row
  rw [hr] at hr'
  cases hr'
  exact hb

theorem Started.updateToken (k d : Int) :
    Started info src s0 (updateToken k d st) := by
  have hrows := updateToken_rows k d st
  refine ⟨?_, ?_, h.aside.updateToken k d⟩
  · rw [hrows.recoveries]
    exact h.row
  · rw [hrows.adjustments]
    exact h.marks

end

/-- The calls of a try that take nothing from the funding source. -/
def TryCall (rid : RequestID) : Call → Prop
  | .abortPrepared q | .updateAmounts q _ _ _ _ | .markRefundPending q => q = rid
  | .tryReserveTokenQuota _ _ _ | .increaseTokenQuota _ _ => True
  | _ => False

theorem started_step (cal : Calendar) (c : Call) (st : Store) (hc : TryCall info.rid c)
    (h : Started info src s0 st) : Started info src s0 (Call.exec cal c st).1 := by
  cases c with
  | abortPrepared =>
    cases hc
    refine commitUnit_keeps h fun st' hx => ?_
    rcases abort_ok hx with rfl | ⟨r, hr, _, _, _, _, _, rfl⟩
    · exact h
    · have hb := h.bound hr
      exact h.write ⟨hb.source, hb.userID, hb.tokenID, hb.tokenRequired⟩
  | updateAmounts =>
    cases hc
    refine commitUnit_keeps h fun st' hx => ?_
    obtain ⟨_, _, _, r, hr, _, rfl⟩ := updateAmounts_ok hx
    have hb := h.bound hr
    exact h.write ⟨hb.source, hb.userID, hb.tokenID, hb.tokenRequired⟩
  | markRefundPending =>
    cases hc
    refine commitUnit_keeps h fun st' hx => ?_
    obtain ⟨r, hr, ⟨_, rfl⟩ | ⟨_, rfl⟩⟩ := markRefundPending_ok hx
    · exact h
    · exact h.write ((h.bound hr).withRecord _ _)
  | tryReserveTokenQuota k =>
    refine commit_keeps h fun b st' hx => ?_
    obtain ⟨_, ⟨_, rfl⟩ | ⟨_, _, rfl⟩ | ⟨_, _, rfl⟩⟩ := tryReserveTokenQuota_ok hx
    · exact h
    · exact h
    · exact h.updateToken k _
  | increaseTokenQuota k =>
    refine commitUnit_keeps h fun st' hx => ?_
    rw [(quota_ok hx).2]
    exact h.updateToken k _
  | _ => cases hc

/-- A session of the request on which nothing was settled or refunded. -/
structure Idle (info : RelayInfo) (s : BillingSession) : Prop where
  recoveryID : s.recoveryID = some info.rid
  requestId : s.relayInfo.rid = info.rid
  userId : s.relayInfo.userId = info.userId
  tokenId : s.relayInfo.tokenId = info.tokenId
  isPlayground : s.relayInfo.isPlayground = info.isPlayground
  settled : s.settled = false
  refunded : s.refunded = false
  inProgress : s.refundInProgress = false
  fundingSettled : s.fundingSettled = false
  fundingRefunded : s.fundingRefunded = false
  extraRefunded : s.extraRefunded = false
  tokenRefunded : s.tokenRefunded = false

def Funding.held : Funding → Int
  | .wallet consumed => consumed
  | .subscription _ _ preConsumed => preConsumed

/-- How the amounts of a session go together. With a subscription the playground counts a token
charge it never made. -/
def Amounts (info : RelayInfo) (s : BillingSession) : Prop :=
  match s.funding with
  | .wallet consumed =>
    0 ≤ consumed ∧ s.extraReserved = 0 ∧
      s.tokenConsumed = if info.isPlayground then 0 else consumed
  | .subscription _ k preConsumed =>
    0 < preConsumed ∧ 0 ≤ s.extraReserved ∧ 0 < s.tokenConsumed ∧ s.relayInfo.subscriptionId = k

/-- The subscription has used at least `n`, and no more than it has. -/
def Carries (k n : Int) (st : Store) : Prop :=
  ∃ sub, st.subscriptions k = some sub ∧ sub.id = k ∧ n ≤ sub.amountUsed ∧
    (0 < sub.amountTotal → sub.amountUsed ≤ sub.amountTotal)

theorem Carries.of_same (h : Carries k n st) (hs : st'.subscriptions = st.subscriptions) :
    Carries k n st' := by
  unfold Carries
  rw [hs]
  exact h

/-- The subscription holds what the record and the later reserves took. -/
structure Lends (rid : RequestID) (k taken extra : Int) (st : Store) : Prop where
  positive : 0 < k
  record : ∃ record, st.records rid = some record ∧ record.userSubscriptionId = k ∧
    record.preConsumed = taken ∧ record.status = .consumed
  used : Carries k (taken + extra) st

/-- What a refund finds on the side of the funding source. -/
def Backed (info : RelayInfo) (s : BillingSession) (st : Store) : Prop :=
  match s.funding with
  | .wallet _ => (st.users info.userId).isSome
  | .subscription _ k preConsumed => Lends info.rid k preConsumed s.extraReserved st

theorem Lends.of_same (h : Lends rid k taken extra st) (hs : SameSubscriptions st st') :
    Lends rid k taken extra st' :=
  ⟨h.positive, by rw [hs.records]; exact h.record, Carries.of_same h.used hs.subscriptions⟩

theorem Backed.of_same (h : Backed info s st) (hs : SameSubscriptions st st')
    (hu : ∀ k, (st'.users k).isSome = (st.users k).isSome) : Backed info s st' := by
  unfold Backed at h ⊢
  cases hf : s.funding with
  | wallet =>
    simp only [hf] at h ⊢
    rw [hu]
    exact h
  | subscription =>
    simp only [hf] at h ⊢
    exact h.of_same hs

/-- Subscription keys count up from one. -/
def Numbered (s : Store) : Prop := ∀ k sub, s.subscriptions k = some sub → 0 < k

/-- Everything the session needs is charged; its row is there. -/
structure Charged (info : RelayInfo) (s0 : Store) (s : BillingSession) (st : Store) : Prop where
  idle : Idle info s
  amounts : Amounts info s
  row : ∃ r, st.recoveries info.rid = some r ∧ Bound info s.funding.source r
  marks : ∀ c, st.adjustments info.rid c .refund = none
  tokens : ∀ k, (st.tokens k).isSome = (s0.tokens k).isSome
  backed : Keyed s0 → Numbered s0 → Backed info s st

/-- The row says what the session says. -/
structure Agrees (info : RelayInfo) (s : BillingSession) (r : BillingRecovery) : Prop where
  status : r.status = .active
  committed : r.preConsumeState = .committed
  funding : r.fundingAmount = Funding.held s.funding
  extra : r.extraAmount = s.extraReserved
  token : r.tokenAmount = if info.isPlayground then 0 else s.tokenConsumed
  subscription : ∀ own k p, s.funding = .subscription own k p → r.subscriptionID = k

/-- A session as its creator hands it out. -/
structure Opened (info : RelayInfo) (s0 : Store) (s : BillingSession) (st : Store) : Prop
    extends Charged info s0 s st where
  agrees : ∀ r, st.recoveries info.rid = some r → Agrees info s r

theorem Opened.flush (h : Opened info s0 s st) (hf : Flushed rid st st') :
    Opened info s0 s st' := by
  refine ⟨⟨h.idle, h.amounts, ?_, ?_, fun k => ?_, fun hk hn => ?_⟩, ?_⟩
  · rw [hf.rows.recoveries]
    exact h.row
  · rw [hf.rows.adjustments]
    exact h.marks
  · exact (hf.shift.tokenRows k).trans (h.tokens k)
  · exact Backed.of_same (h.backed hk hn) hf.rows.subscriptionSide hf.shift.userRows
  · rw [hf.rows.recoveries]
    exact h.agrees

theorem Charged.write (h : Charged info s0 s st) (hb : Bound info s.funding.source r) :
    Charged info s0 s (st.setRecovery info.rid r) := by
  refine ⟨h.idle, h.amounts, ⟨r, setRecovery_self _ _ _, hb⟩, h.marks, h.tokens, fun hk hn => ?_⟩
  exact Backed.of_same (h.backed hk hn) ⟨rfl, rfl, rfl⟩ fun _ => rfl

theorem sync_opens (h : Charged info s0 s st) :
    (database cal).Ensures (IfOk (Opened info s0 s)) s.syncRecovery st := by
  have hwrite : ∀ sub token, (token = if info.isPlayground then 0 else s.tokenConsumed) →
      (∀ own k p, s.funding = .subscription own k p → sub = k) →
      (database cal).Ensures (IfOk (Opened info s0 s))
        (Db.updateAmounts info.rid sub (Funding.held s.funding) s.extraReserved token) st := by
    intro sub token htok hsub
    refine ask (fun v st' hx => ?_) fun e => trivial
    obtain ⟨_, _, _, r, hr, hst, rfl⟩ := updateAmounts_ok (commitUnit_ok hx)
    obtain ⟨r', hr', hb⟩ := h.row
    rw [hr] at hr'
    cases hr'
    refine ⟨h.write ⟨hb.source, hb.userID, hb.tokenID, hb.tokenRequired⟩, fun r1 hr1 => ?_⟩
    rw [setRecovery_self] at hr1
    cases hr1
    exact ⟨hst, rfl, rfl, rfl, htok, hsub⟩
  unfold syncRecovery
  simp only [h.idle.recoveryID, h.idle.isPlayground]
  cases hf : s.funding with
  | wallet =>
    rw [hf] at hwrite
    exact hwrite _ _ rfl nofun
  | subscription own k =>
    rw [hf] at hwrite
    exact hwrite k _ rfl (by simp)

/-- An input that makes a row of the request. -/
structure InputOf (info : RelayInfo) (src : Source) (input : BillingRecoveryInput) : Prop where
  requestID : input.requestID = info.rid
  row : Bound info src input.row

theorem Idle.input (h : Idle info s) :
    InputOf info s.funding.source (s.recoveryInput info.rid) := by
  refine ⟨rfl, rfl, h.userId, h.tokenId, ?_⟩
  simp [BillingRecoveryInput.row, recoveryInput, h.isPlayground, h.tokenId]

theorem reconcile_starts (h : Unspent info src s0 st) (hin : InputOf info src input)
    (hr : st.recoveries info.rid = some r) :
    (database cal).Ensures (IfOk (Started info src s0))
      (reconcileBillingRecoveryInput r input) st := by
  unfold reconcileBillingRecoveryInput
  split
  · trivial
  split
  · rename_i hsame
    exact absurd (hsame.trans hin.row.source) (h.row r hr)
  split
  · trivial
  refine ask (fun r' st' hx => ?_) fun e => trivial
  obtain ⟨r1, _, hid, _, rfl, rfl⟩ := rebind_ok (commit_ok hx)
  simp only [BillingRecoveryInput.sameIdentity, decide_eq_true_eq] at hid
  obtain ⟨hu, ht, hq⟩ := hid
  have hb := hin.row
  rw [hin.requestID]
  exact ⟨⟨_, setRecovery_self _ _ _, hb.source, hu.trans hb.userID, ht.trans hb.tokenID,
    hq.trans hb.tokenRequired⟩, h.marks, h.aside.shift (setRecovery_shift _ _ _) ⟨rfl, rfl, rfl⟩⟩

theorem ensure_starts (h : Unspent info src s0 st) (hin : InputOf info src input) :
    (database cal).Ensures (IfOk (Started info src s0)) (ensureBillingRecovery input) st := by
  have hfind : ∀ r st', Call.exec cal (.findRecovery input.requestID) st = (st', .ok r) →
      st' = st ∧ st.recoveries info.rid = some r := by
    intro r st' hx
    simp only [Call.exec, Prod.mk.injEq] at hx
    rw [← hin.requestID]
    exact ⟨hx.1.symm, recovery_ok.mp hx.2⟩
  unfold ensureBillingRecovery
  split
  · trivial
  refine ask (fun r st' hx => ?_) fun e => ?_
  · obtain ⟨rfl, hr⟩ := hfind r st' hx
    exact reconcile_starts h hin hr
  cases e with
  | recordNotFound =>
    refine ask (fun r st' hx => ?_) fun e => ?_
    · obtain ⟨_, rfl, rfl⟩ := create_ok (commit_ok hx)
      rw [hin.requestID]
      exact ⟨⟨_, setRecovery_self _ _ _, hin.row⟩, h.marks,
        h.aside.shift (setRecovery_shift _ _ _) ⟨rfl, rfl, rfl⟩⟩
    · refine ask (fun r st' hx => ?_) fun e => trivial
      obtain ⟨rfl, hr⟩ := hfind r st' hx
      exact reconcile_starts h hin hr
  | _ => trivial

/-- What a pre-consume leaves: a charged session, or nothing taken from the
source. -/
def PreConsumed (info : RelayInfo) (src : Source) (s0 : Store)
    (x : Option APIError × BillingSession)
    (st : Store) : Prop :=
  Idle info x.2 ∧ match x.1 with
    | none => Charged info s0 x.2 st
    | some _ => Started info src s0 st

theorem recordFailure_yields (h : s.recoveryID = some rid) :
    (recordBillingPreConsumeFailure s).Uses (TryCall rid) := by
  unfold recordBillingPreConsumeFailure
  rw [h]
  simp only
  split
  · exact ⟨rfl, fun _ => trivial⟩
  · exact ⟨rfl, fun _ => trivial⟩

theorem Started.flush (h : Started info src s0 st) (hf : Flushed info.rid st st') :
    Started info src s0 st' := by
  refine ⟨?_, ?_, h.aside.shift hf.shift hf.rows.subscriptionSide⟩
  · rw [hf.rows.recoveries]
    exact h.row
  · rw [hf.rows.adjustments]
    exact h.marks

theorem Started.charge (h : Started info src s0 st)
    (hx : preConsumeWalletBillingRecovery info.rid quota unlimited st = .ok st') :
    0 ≤ quota ∧ Started info src s0 st' := by
  obtain ⟨hq, r, hr, _, _, ⟨_, _, _, hf⟩ | ⟨_, s1, hs, hrows, _, rfl⟩⟩ := preConsumeWallet_ok hx
  · exact ⟨hq, h.flush hf⟩
  have hb := h.bound hr
  have h1 : Started info src s0 s1 := by
    refine ⟨?_, ?_, h.aside.shift hs hrows.subscriptionSide⟩
    · rw [hrows.recoveries]
      exact h.row
    · rw [hrows.adjustments]
      exact h.marks
  exact ⟨hq, h1.write ⟨hb.source, hb.userID, hb.tokenID, hb.tokenRequired⟩⟩

/-- A session value as a try builds it. -/
def newTry (info : RelayInfo) (funding : Funding) : BillingSession :=
  { relayInfo := info, funding := funding, recoveryID := some info.rid }

theorem newTry_idle (info : RelayInfo) (userQuota : Int) (funding : Funding) :
    Idle info (newTry { info with userQuota := userQuota } funding) :=
  ⟨rfl, rfl, rfl, rfl, rfl, rfl, rfl, rfl, rfl, rfl, rfl, rfl⟩

theorem wallet_preConsumes (h : Started info .wallet s0 st) (hu : (s0.users info.userId).isSome) :
    (database cal).Ensures (PreConsumed info .wallet s0)
      ((newTry { info with userQuota := userQuota } (.wallet 0)).preConsume quota now) st := by
  have hidle := newTry_idle info userQuota (.wallet 0)
  refine ask (fun v st' hx' => ?_) fun e => ?_
  · obtain ⟨hq, hst⟩ := h.charge (commitUnit_ok hx')
    have husers : (st'.users info.userId).isSome := by rw [hst.aside.users]; exact hu
    show PreConsumed info .wallet s0 (none, syncRelayInfo (if info.isPlayground then _ else _)) st'
    split
    · rename_i hp
      refine ⟨{ hidle with }, { hidle with }, ⟨hq, rfl, ?_⟩, hst.row, hst.marks, hst.aside.tokens,
        fun _ _ => husers⟩
      rw [if_pos hp]
      rfl
    · rename_i hp
      refine ⟨{ hidle with }, { hidle with }, ⟨hq, rfl, ?_⟩, hst.row, hst.marks, hst.aside.tokens,
        fun _ _ => husers⟩
      rw [if_neg hp]
      rfl
  · cases e <;> exact ⟨{ hidle with }, h⟩

theorem started_stays (hp : p.Yields (TryCall info.rid) V) (h : Started info src s0 st) :
    (database cal).Ensures (fun a st' => V a ∧ Started info src s0 st') p st :=
  ensures_of_yields hp (started_step cal) h

theorem syncRecovery_uses {s : BillingSession} (h : s.recoveryID = some rid) :
    s.syncRecovery.Uses (TryCall rid) := by
  unfold syncRecovery
  simp only [h]
  cases s.funding <;> exact ⟨rfl, fun _ => trivial⟩

theorem rollbackToken_yields (h : Idle info s) :
    s.rollbackToken.Yields (TryCall info.rid) (Idle info) := by
  unfold rollbackToken
  split
  · refine .bindExcept ⟨trivial, fun _ => trivial⟩ (fun _ => ?_) fun _ => { h with }
    exact Program.Yields.bind (syncRecovery_uses h.recoveryID) fun _ _ => { h with }
  · exact h

theorem preConsumeTokenQuota_uses (info : RelayInfo) (quota : Int) :
    (preConsumeTokenQuota info quota).Uses (TryCall rid) := by
  unfold preConsumeTokenQuota
  split
  · trivial
  split
  · trivial
  refine .bindExcept ⟨trivial, fun _ => trivial⟩ (fun _ => trivial) fun reserved => ?_
  simp only
  split <;> trivial

theorem Started.take (h : Started info .subscription s0 st)
    (hrec : s0.records info.rid = none) (hs : Idle info s)
    (hf : s.funding = .subscription own res.userSubscriptionId res.preConsumed)
    (hsub : s.relayInfo.subscriptionId = res.userSubscriptionId) (hx : s.extraReserved = 0)
    (ht : 0 < s.tokenConsumed)
    (hok : preConsumeUserSubscription cal info.rid userId amount now st = .ok (res, st')) :
    Charged info s0 s st' := by
  have hframe := preConsumeSubscription_frame hok
  have hside := h.aside.side
  have hnone : st.records info.rid = none := by rw [hside.records]; exact hrec
  obtain ⟨hpos, hfirst⟩ := preConsumeSubscription_first hnone hok
  have hpre := consumeCandidate_amount hfirst
  refine ⟨hs, ?_, ?_, ?_, ?_, ?_⟩
  · unfold Amounts
    rw [hf, hpre]
    exact ⟨hpos, le_of_eq hx.symm, ht, hsub⟩
  · rw [hframe.recoveries, hf]
    exact h.row
  · rw [hframe.adjustments]
    exact h.marks
  · rw [hframe.tokens]
    exact h.aside.tokens
  intro hk hn
  have hk' : Keyed st := hk.of_same hside.subscriptions
  obtain ⟨hsome, hrecord, sub, hstored, hid, hused, htotal⟩ :=
    preConsumeSubscription_taken hk' hnone hok
  obtain ⟨sub0, hsub0⟩ := Option.isSome_iff_exists.mp hsome
  rw [hside.subscriptions] at hsub0
  unfold Backed
  rw [hf, hpre]
  refine ⟨hn _ _ hsub0, ⟨_, hrecord, rfl, rfl, rfl⟩, sub, hstored, hid, ?_, htotal⟩
  omega

theorem subscription_preConsumes (h : Started info .subscription s0 st) (hq : 0 < quota)
    (hrec : s0.records info.rid = none) :
    (database cal).Ensures (PreConsumed info .subscription s0)
      ((newTry info (.subscription quota 0 0)).preConsume quota now) st := by
  have hidle := newTry_idle info info.userQuota (.subscription quota 0 0)
  have heff : (newTry info (.subscription quota 0 0)).shouldTrust = false := by
    unfold shouldTrust
    split
    · rfl
    split
    · rfl
    split <;> rfl
  unfold preConsume
  simp only [heff]
  show (database cal).Ensures (PreConsumed info .subscription s0)
    ((newTry info (.subscription quota 0 0)).preConsumeApart quota now) st
  refine Ensures.bind (started_stays (onlyIf_uses _ (preConsumeTokenQuota_uses _ _)) h) ?_
  rintro (e | _) st1 ⟨_, h1⟩
  · exact ⟨{ hidle with }, h1⟩
  simp only [hq, if_true]
  refine ask (fun res st2 hx => ?_) fun e => ?_
  · exact ⟨{ hidle with }, h1.take hrec { hidle with } rfl rfl rfl hq (commit_ok hx)⟩
  have hcharged : Idle info { newTry info (.subscription quota 0 0) with tokenConsumed := quota } :=
    { hidle with }
  refine Ensures.bind (p := rollbackToken _) (started_stays (rollbackToken_yields hcharged) h1) ?_
  rintro s2 st2 ⟨hs2, h2⟩
  exact ⟨hs2, h2⟩

/-- An open session, or an error; a shortage lets the caller go on to the other source, which finds
`E`. -/
def Created (info : RelayInfo) (s0 : Store) (E : Store → Prop) :
    Except APIError BillingSession → Store → Prop
  | .ok s, st => Opened info s0 s st
  | .error e, st => e.code = .insufficientUserQuota → E st

theorem ensures_any (p : Process α) (st : Store) :
    (database cal).Ensures (fun _ _ => True) p st :=
  (ensures_of_yields (J := fun _ => True) p.uses_any (fun _ _ _ => id) trivial).mono
    fun _ _ _ => trivial

theorem start_creates {s : BillingSession} (h : Unspent info src s0 st)
    (hin : InputOf info src (s.recoveryInput info.rid))
    (hpre : ∀ st, Started info src s0 st →
      (database cal).Ensures (PreConsumed info src s0) (s.preConsume quota now) st)
    (hE : ∀ st, Started info src s0 st → E st) :
    (database cal).Ensures (Created info s0 E) (s.start info.rid quota now) st := by
  refine Ensures.bind (ensure_starts h hin) ?_
  rintro (e | r) st1 h1
  · exact nofun
  refine Ensures.bind (hpre st1 h1) ?_
  rintro ⟨apiErr, s1⟩ st2 ⟨hs1, h2⟩
  cases apiErr with
  | some e =>
    refine Ensures.bind (started_stays (recordFailure_yields hs1.recoveryID) h2) ?_
    rintro _ st3 ⟨_, h3⟩
    exact fun _ => hE st3 h3
  | none =>
    refine Ensures.bind (sync_opens h2) ?_
    rintro (e | _) st3 h3
    · refine Ensures.bind (ensures_any _ st3) fun _ st4 _ => ?_
      refine Ensures.bind (ensures_any _ st4) fun _ _ _ => ?_
      exact nofun
    · exact h3

theorem tryWallet_creates {E : Store → Prop} (h : Unspent info .wallet s0 st) (hst : E st)
    (hE : ∀ st, Started info .wallet s0 st → E st) :
    (database cal).Ensures (Created info s0 E) (tryWallet info quota now) st := by
  refine ask (fun userQuota st' hx => ?_) fun e => nofun
  obtain ⟨rfl, hq⟩ : st' = st ∧ getUserQuota info.userId st = userQuota := by
    cases hx
    exact ⟨rfl, rfl⟩
  simp only [Program.bind]
  split
  · exact fun _ => hst
  split
  · exact fun _ => hst
  -- A positive balance is read from a row.
  have hu : (s0.users info.userId).isSome := by
    rw [← h.aside.users]
    unfold getUserQuota at hq
    cases hrow : st'.users info.userId with
    | some u => rfl
    | none =>
      simp only [hrow] at hq
      omega
  have hidle := newTry_idle info userQuota (.wallet 0)
  exact start_creates (s := newTry { info with userQuota := userQuota } (.wallet 0)) h hidle.input
    (fun st h' => wallet_preConsumes h' hu) hE

theorem trySubscription_creates (hrec : s0.records info.rid = none)
    (h : Unspent info .subscription s0 st) (hE : ∀ st, Started info .subscription s0 st → E st) :
    (database cal).Ensures (Created info s0 E) (trySubscription info quota now) st := by
  have hq : 0 < (if quota ≤ 0 then 1 else quota) := by
    split <;> omega
  have hidle := newTry_idle info info.userQuota (.subscription (if quota ≤ 0 then 1 else quota) 0 0)
  exact start_creates h hidle.input (fun st h' => subscription_preConsumes h' hq hrec) hE

theorem newBillingSession_opens (hf : Fresh info.rid s0) (hrec : s0.records info.rid = none) :
    (database cal).Ensures (Created info s0 fun _ => True)
      (newBillingSession info quota now) s0 := by
  have hfree : ∀ src, Unspent info src s0 s0 := by
    refine fun src => ⟨fun r hr => ?_, fun c => hf.2 c .refund, .refl s0⟩
    rw [hf.1] at hr
    cases hr
  unfold newBillingSession
  split
  · exact trySubscription_creates hrec (hfree _) fun _ _ => trivial
  · exact tryWallet_creates (hfree _) trivial fun _ _ => trivial
  · refine Ensures.bind (tryWallet_creates (hfree _) (hfree .subscription)
      fun st h => h.unspent (by simp)) ?_
    rintro (e | s) st h
    · simp only
      split
      · rename_i hcode
        exact trySubscription_creates hrec (h hcode) fun _ _ => trivial
      · exact fun _ => trivial
    · exact h
  · refine ask (fun hasSub st hx => ?_) fun e => fun _ => trivial
    obtain rfl : st = s0 := (congrArg Prod.fst hx).symm
    simp only [Program.bind]
    split
    · exact tryWallet_creates (hfree _) trivial fun _ _ => trivial
    refine Ensures.bind (trySubscription_creates hrec (hfree _)
      fun st h => Started.unspent h (show Source.wallet ≠ _ by simp)) ?_
    rintro (e | s) st1 h1
    · simp only
      split
      · exact fun _ => trivial
      rename_i hcode
      refine ask (fun allow st2 hx => ?_) fun e => fun _ => trivial
      obtain rfl : st2 = st1 := (congrArg Prod.fst hx).symm
      simp only [Program.bind]
      split
      · exact tryWallet_creates (h1 (not_not.mp hcode)) trivial fun _ _ => trivial
      · exact fun _ => trivial
    · exact h1

end Ren2Hub.Proofs.SessionOpening
