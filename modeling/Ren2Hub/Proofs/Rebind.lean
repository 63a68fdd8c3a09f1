import Ren2Hub.Proofs.Settlement

namespace Ren2Hub.Proofs.Rebind
open Lib Billing Ledger RecoverySpec CallSpec RequestBook Settlement

/-- A refund marker stands for amounts that can no longer change. -/
structure RefundShape (b : Book) : Prop where
  fresh : b.row = none → ∀ c op, b.marks c op = none
  reserved : ∀ r c a, b.row = some r → b.marks c .reserve = some a →
    r.preConsumeState = .committed
  marked : ∀ r c a, b.row = some r → b.marks c .refund = some a →
    r.preConsumeState = .committed ∧ (r.status = .refundPending ∨ r.status = .refunded) ∧
    a = r.adjustmentAmount c .refund
  funding : ∀ r, b.row = some r → r.fundingRefund = .completed → (b.marks .funding .refund).isSome
  extra : ∀ r, b.row = some r → r.extraRefund = .completed → (b.marks .extra .refund).isSome
  token : ∀ r, b.row = some r → r.tokenRefund = .completed → (b.marks .token .refund).isSome
  closed : ∀ r, b.row = some r → r.preConsumeState = .committed → r.status = .refunded →
    billingRecoveryRefundComplete r = true

/-- A refund that takes effect finds a row that waits for it and has stored what it took. -/
def RefundsDuly (rid : RequestID) (call : Call) (b : Book) : Prop :=
  match call, b.row with
  | .applyAdjustment q c .refund, some r =>
    q = rid → b.marks c .refund = none → r.status = .active ∨ r.status = .refundPending →
      r.status = .refundPending ∧ r.preConsumeState = .committed
  | _, _ => True

instance (rid : RequestID) (call : Call) (b : Book) : Decidable (RefundsDuly rid call b) := by
  unfold RefundsDuly
  split <;> infer_instance

/-- The components of a row are all still to be done. -/
def AllPending (r : BillingRecovery) : Prop :=
  r.fundingRefund = .pending ∧ r.extraRefund = .pending ∧ r.tokenRefund = .pending ∧
    r.fundingSettlement = .pending ∧ r.tokenSettlement = .pending

/-- An attempt that took nothing inherits nothing; a refunded row has a marker for each amount. -/
structure CleanStart (b : Book) : Prop where
  prepared : ∀ r, b.row = some r → r.preConsumeState = .prepared → Unsettled r →
    AllPending r ∧ ∀ c op, b.marks c op = none
  whole : ∀ r, b.row = some r → r.preConsumeState = .committed → r.status = .refunded →
    b.marks .funding .refund = some r.fundingAmount ∧
    (0 < r.extraAmount → b.marks .extra .refund = some r.extraAmount) ∧
    (0 < r.tokenAmount → b.marks .token .refund = some r.tokenAmount)

theorem pending_of_not_completed {c : ComponentState} (h : c ≠ .completed) : c = .pending := by
  cases c with
  | pending => rfl
  | completed => exact absurd rfl h

section
variable (h : RefundShape b)
include h

theorem RefundShape.cleanStart (hs : SettleShape b) : CleanStart b := by
  constructor
  · intro r hr hp hu
    have hsettle : ∀ c, b.marks c .settle = none := hs.unmarked hr hu
    have hrefund : ∀ c, b.marks c .refund = none := by
      intro c
      cases hm : b.marks c .refund with
      | none => rfl
      | some a =>
        have hc := (h.marked r c a hr hm).1
        rw [hp] at hc
        cases hc
    have hreserve : ∀ c, b.marks c .reserve = none := by
      intro c
      cases hm : b.marks c .reserve with
      | none => rfl
      | some a =>
        have hc := h.reserved r c a hr hm
        rw [hp] at hc
        cases hc
    refine ⟨⟨?_, ?_, ?_, ?_, ?_⟩, ?_⟩
    · exact pending_of_not_completed fun hc => by simpa [hrefund] using h.funding r hr hc
    · exact pending_of_not_completed fun hc => by simpa [hrefund] using h.extra r hr hc
    · exact pending_of_not_completed fun hc => by simpa [hrefund] using h.token r hr hc
    · exact pending_of_not_completed fun hc => by simpa [hsettle] using hs.funding r hr hc
    · exact pending_of_not_completed fun hc => by simpa [hsettle] using hs.token r hr hc
    intro c op
    cases op with
    | settle => exact hsettle c
    | refund => exact hrefund c
    | reserve => exact hreserve c
  · intro r hr hp hst
    have hc := h.closed r hr hp hst
    simp only [billingRecoveryRefundComplete, decide_eq_true_eq] at hc
    have amount : ∀ c, (b.marks c .refund).isSome →
        b.marks c .refund = some (r.adjustmentAmount c .refund) := by
      intro c hsome
      obtain ⟨a, ha⟩ := Option.isSome_iff_exists.mp hsome
      rw [ha, (h.marked r c a hr ha).2.2]
    refine ⟨amount .funding (h.funding r hr hc.1), fun hx => ?_, fun ht => ?_⟩
    · refine amount .extra (h.extra r hr ?_)
      by_contra hn
      exact hc.2.1 ⟨hx, hn⟩
    refine amount .token (h.token r hr ?_)
    by_contra hn
    exact hc.2.2 ⟨ht, hn⟩

theorem RefundShape.unmarked (hr : b.row = some r)
    (hn : r.preConsumeState = .prepared ∨ (r.status ≠ .refundPending ∧ r.status ≠ .refunded))
    (c : Component) : b.marks c .refund = none := by
  cases hm : b.marks c .refund with
  | none => rfl
  | some a =>
    obtain ⟨hc, hst, _⟩ := h.marked r c a hr hm
    rcases hn with hp | ⟨h1, h2⟩
    · rw [hp] at hc
      cases hc
    rcases hst with hst | hst
    · exact absurd hst h1
    · exact absurd hst h2

/-- A row of which nothing was refunded may be rewritten, unless it is closed with amounts in it. -/
theorem RefundShape.rewrite (hr : b.row = some r)
    (hn : r.preConsumeState = .prepared ∨ (r.status ≠ .refundPending ∧ r.status ≠ .refunded))
    (hr' : b'.row = some r') (hm : ∀ c, b'.marks c .refund = b.marks c .refund)
    (hres : ((∀ c, b'.marks c .reserve = b.marks c .reserve) ∧
      r'.preConsumeState = r.preConsumeState) ∨ r'.preConsumeState = .committed)
    (hf : r'.fundingRefund = r.fundingRefund) (hx : r'.extraRefund = r.extraRefund)
    (ht : r'.tokenRefund = r.tokenRefund)
    (hclosed : r'.status = .refunded → r'.preConsumeState = .prepared) : RefundShape b' := by
  have hnone : ∀ c, b'.marks c .refund = none := fun c => by rw [hm, h.unmarked hr hn]
  refine ⟨?_, ?_, ?_, ?_, ?_, ?_, ?_⟩
  · intro h0
    rw [hr'] at h0
    cases h0
  · intro q c a hq ha
    rw [hr'] at hq
    cases hq
    rcases hres with ⟨hsame, hp⟩ | hp
    · rw [hp]
      exact h.reserved r c a hr (hsame c ▸ ha)
    · exact hp
  · intro q c a _ ha
    rw [hnone] at ha
    cases ha
  · intro q hq hc
    rw [hr'] at hq
    cases hq
    rw [hm]
    exact h.funding r hr (hf ▸ hc)
  · intro q hq hc
    rw [hr'] at hq
    cases hq
    rw [hm]
    exact h.extra r hr (hx ▸ hc)
  · intro q hq hc
    rw [hr'] at hq
    cases hq
    rw [hm]
    exact h.token r hr (ht ▸ hc)
  · intro q hq hp hst
    rw [hr'] at hq
    cases hq
    rw [hclosed hst] at hp
    cases hp

theorem RefundShape.fresh_row (hr : b.row = none) (input : BillingRecoveryInput) :
    RefundShape (b.write input.row) := by
  have hnone := h.fresh hr
  refine ⟨?_, ?_, ?_, ?_, ?_, ?_, ?_⟩ <;> simp [hnone, BillingRecoveryInput.row]

omit h in
theorem prepared_or_committed (r : BillingRecovery) :
    r.preConsumeState = .prepared ∨ r.preConsumeState = .committed := by
  cases r.preConsumeState <;> simp

theorem RefundShape.advance (hr : b.row = some r) (hp : r.preConsumeState = .committed)
    (hst : st = .refundPending ∨ (st = .refunded ∧ billingRecoveryRefundComplete r = true)) :
    RefundShape (b.write { r with status := st }) := by
  refine ⟨by simp, ?_, ?_, ?_, ?_, ?_, ?_⟩
  · intro q c a hq ha
    cases hq
    exact h.reserved r c a hr ha
  · intro q c a hq ha
    cases hq
    obtain ⟨_, _, hamt⟩ := h.marked r c a hr ha
    exact ⟨hp, hst.imp_right And.left, by rw [hamt]; cases c <;> rfl⟩
  · intro q hq hc
    cases hq
    exact h.funding r hr hc
  · intro q hq hc
    cases hq
    exact h.extra r hr hc
  · intro q hq hc
    cases hq
    exact h.token r hr hc
  · intro q hq _ hq'
    cases hq
    rcases hst with rfl | ⟨rfl, hc⟩
    · cases hq'
    · exact hc

theorem RefundShape.announce (hr : b.row = some r)
    (hp : r.preConsumeState = .prepared) (record : Option SubscriptionPreConsumeRecord) :
    RefundShape (b.write { r.withRecord record with status := .refundPending }) := by
  obtain ⟨_, _, _, state, he⟩ := withRecord_eq r record
  cases hc : state with
  | prepared =>
    rw [hc] at he
    exact h.rewrite hr (.inl hp) rfl (fun _ => rfl) (.inl ⟨fun _ => rfl, by rw [he, hp]⟩)
      (by rw [he]) (by rw [he]) (by rw [he]) (by simp)
  | committed =>
    rw [hc] at he
    exact h.rewrite hr (.inl hp) rfl (fun _ => rfl) (.inr (by rw [he]))
      (by rw [he]) (by rw [he]) (by rw [he]) (by simp)

omit h in
theorem complete_refund_amount (r : BillingRecovery) (c k : Component) :
    (r.complete c .refund).adjustmentAmount k .refund = r.adjustmentAmount k .refund := by
  cases c <;> cases k <;> rfl

theorem RefundShape.adjust (hr : b.row = some r)
    (hp : r.preConsumeState = .committed) (hst : r.status = .refundPending) (c : Component) :
    RefundShape
      ((b.mark c .refund (r.adjustmentAmount c .refund)).write (r.complete c .refund)) := by
  obtain ⟨f, x, t, he⟩ := complete_refund_eq r c
  have hstate : (r.complete c .refund).preConsumeState = .committed := by rw [he]; exact hp
  have hstatus : (r.complete c .refund).status = .refundPending := by rw [he]; exact hst
  refine ⟨by simp, ?_, ?_, ?_, ?_, ?_, ?_⟩
  · intro q k a hq _
    cases hq
    exact hstate
  · intro q k a hq ha
    cases hq
    refine ⟨hstate, .inl hstatus, ?_⟩
    rw [complete_refund_amount]
    simp only [Book.write_marks, Book.mark_marks, and_true] at ha
    split at ha
    · rename_i hk
      cases ha
      rw [hk]
    · exact (h.marked r k a hr ha).2.2
  · intro q hq hc
    cases hq
    cases c with
    | funding => simp
    | _ => simpa using h.funding r hr hc
  · intro q hq hc
    cases hq
    cases c with
    | extra => simp
    | _ => simpa using h.extra r hr hc
  · intro q hq hc
    cases hq
    cases c with
    | token => simp
    | _ => simpa using h.token r hr hc
  · intro q hq _ hq'
    cases hq
    rw [hstatus] at hq'
    cases hq'

end

theorem step_refund (h : BookStep rid record call b b') (hs : RefundShape b)
    (hg : RefundsDuly rid call b) : RefundShape b' := by
  cases h with
  | same => exact hs
  | create _ hr => exact hs.fresh_row hr _
  | rebind _ hr _ hre =>
    simp only [billingRecoveryIsReusable, decide_eq_true_eq] at hre
    exact hs.rewrite hr (.inl hre.2.1) rfl (fun _ => rfl) (.inl ⟨fun _ => rfl, rfl⟩)
      rfl rfl rfl (by simp)
  | abort hr ha hp =>
    exact hs.rewrite hr (.inl hp) rfl (fun _ => rfl) (.inl ⟨fun _ => rfl, rfl⟩)
      rfl rfl rfl (fun _ => hp)
  | amounts hr ha =>
    exact hs.rewrite hr (.inr (by simp [ha])) rfl (fun _ => rfl) (.inr rfl)
      rfl rfl rfl (by simp [ha])
  | settlement hr ha =>
    exact hs.rewrite hr (.inr (by rcases ha with h | h <;> simp [h])) rfl (fun _ => rfl)
      (.inl ⟨fun _ => rfl, rfl⟩) rfl rfl rfl (by simp)
  | settled hr ha =>
    exact hs.rewrite hr (.inr (by simp [ha])) rfl (fun _ => rfl)
      (.inl ⟨fun _ => rfl, rfl⟩) rfl rfl rfl (by simp)
  | charge hr _ ha =>
    exact hs.rewrite hr (.inr (by simp [ha])) rfl (fun _ => rfl) (.inr rfl)
      rfl rfl rfl (by simp [BillingRecovery.charged, ha])
  | extend hr ha hp =>
    obtain ⟨_, _, _, he⟩ := extend_eq _ _
    exact hs.rewrite hr (.inr (by simp [ha])) rfl (fun _ => by simp)
      (.inr (by rw [he]; exact hp)) (by rw [he]) (by rw [he]) (by rw [he]) (by rw [he]; simp [ha])
  | refundPending hr =>
    rcases prepared_or_committed _ with hp | hp
    · exact hs.announce hr hp record
    · rw [withRecord_committed hp]
      exact hs.advance hr hp (.inl rfl)
  | refunded hr ha hc =>
    rcases prepared_or_committed _ with hp | hp
    · exact hs.rewrite hr (.inl hp) rfl (fun _ => rfl) (.inl ⟨fun _ => rfl, rfl⟩)
        rfl rfl rfl (fun _ => hp)
    · exact hs.advance hr hp (.inr ⟨rfl, hc⟩)
  | adjust hr hn ha =>
    rcases ha with ⟨rfl, _, hst⟩ | ⟨rfl, _, hst⟩
    · obtain ⟨_, _, he⟩ := complete_settle_eq _ _
      exact hs.rewrite hr (.inr (by simp [hst])) rfl (fun _ => by simp)
        (.inl ⟨fun _ => by simp, by rw [he]⟩) (by rw [he]) (by rw [he]) (by rw [he])
        (by rw [he]; simp [hst])
    · simp only [RefundsDuly, hr] at hg
      obtain ⟨hst', hp⟩ := hg trivial hn hst
      exact hs.adjust hr hp hst' _

theorem fresh_refund (h : Fresh rid s) : RefundShape (book rid s) := by
  obtain ⟨hr, hm⟩ := h
  refine ⟨?_, ?_, ?_, ?_, ?_, ?_, ?_⟩ <;> simp [book, hr, hm]

/-- A refund marker that appears between two states says what went back. -/
def GivesBack (rid : RequestID) (s s' : Store) : Prop :=
  ∀ r c a, s.recoveries rid = some r → s.adjustments rid c .refund = none →
    s'.adjustments rid c .refund = some a →
    walletTotal s' r.userID = walletTotal s r.userID +
      (if c = .funding ∧ r.source = .wallet then a else 0) ∧
    tokenTotal s' r.tokenID = tokenTotal s r.tokenID +
      (if c = .token ∧ 0 < r.tokenID then a else 0) ∧
    (c = .funding → r.source = .subscription → a ≠ 0 →
      ∀ record, s'.records rid = some record →
        record.status = .refunded ∨ s'.subscriptions record.userSubscriptionId = none)

theorem effect_record (h : applyBillingRecoveryEffect rid r .funding .refund a s = .ok s')
    (hsrc : r.source = .subscription) (ha : a ≠ 0) (hr : s'.records rid = some record) :
    record.status = .refunded ∨ s'.subscriptions record.userSubscriptionId = none := by
  unfold applyBillingRecoveryEffect at h
  rw [if_neg (by simp), if_neg ha] at h
  simp only [hsrc, if_true] at h
  cases hrec : refundBillingRecoverySubscriptionPreConsumeTx rid s with
  | ok s1 =>
    simp only [hrec] at h
    cases h
    exact .inl (refundRecordTx_refunded hrec hr)
  | error e =>
    rw [hrec] at h
    cases e <;> cases h
    unfold refundBillingRecoverySubscriptionPreConsumeTx at hrec
    simp only [hr] at hrec
    split at hrec
    · cases hrec
    right
    split at hrec
    · cases hpost : postConsumeUserSubscriptionDeltaTx record.userSubscriptionId
          (-record.preConsumed) s with
      | ok s1 => rw [hpost] at hrec; cases hrec
      | error e =>
        rw [hpost] at hrec
        cases hrec
        exact postConsumeTx_missing hpost
    · cases hrec

theorem exec_givesBack (cal : Calendar) (rid : RequestID) (call : Call) (s : Store) :
    GivesBack rid s (Call.exec cal call s).1 := by
  intro r c a hr hn ha
  obtain ⟨r', s0, s1, _, hr', _, hf, he, heq⟩ := (exec_change cal call s).refund_marker hn ha
  rw [hr] at hr'
  cases hr'
  obtain ⟨hs, -, -, -⟩ := effect_spec he
  have hshift : Shift s (Call.exec cal call s).1 (point r.userID (walletEffect r c .refund a))
      (point r.tokenID (tokenEffect r c .refund a)) := by
    rw [heq]
    exact ((hf.shift.same_trans hs).trans_same (setAdjustment_shift _ _ _ _ _)).trans_same
      (setRecovery_shift _ _ _)
  refine ⟨?_, ?_, ?_⟩
  · rw [hshift.wallet, point_self]
    simp [walletEffect, Operation.sign]
  · rw [hshift.token, point_self]
    simp [tokenEffect, Operation.sign]
  rintro rfl hsrc hz record hrec
  rw [heq] at hrec ⊢
  have hout := effect_record he hsrc hz hrec
  exact hout

theorem run_clean (cal : Calendar) (pool : List (Process Unit)) (hs : Fresh rid s)
    (hg : (database cal).Meets (fun c s => RefundsDuly rid c (book rid s)) sched ⟨s, pool⟩) :
    CleanStart (book rid ((database cal).run ⟨s, pool⟩ sched).state) := by
  have hshape : RefundShape (book rid ((database cal).run ⟨s, pool⟩ sched).state) ∧
      SettleShape (book rid ((database cal).run ⟨s, pool⟩ sched).state) := by
    refine Machine.run_invariant (I := fun s => RefundShape (book rid s) ∧ SettleShape (book rid s))
      (P := fun _ => True) ?_ (fun p _ => p.uses_any) hg ⟨fresh_refund hs, (fresh_settle hs).1⟩
    intro c s _ hi hg
    exact ⟨step_refund (exec_book cal rid c s) hi.1 hg,
      (step_settle (exec_book cal rid c s) hi.2).1⟩
  exact hshape.1.cleanStart hshape.2

/-- As long as refunds only take effect on rows that wait for them with their amounts stored, an
attempt that took nothing yet has every component pending and no marker. A row that took something
is only refunded with a marker for the whole of each amount, written together with that much money.
-/
theorem rebound_row_starts_clean (cal : Calendar) (rid : RequestID) (pool : List (Process Unit))
    (s : Store) (sched : List Choice) (hs : Fresh rid s)
    (hg : (database cal).Meets (fun c s => RefundsDuly rid c (book rid s)) sched ⟨s, pool⟩) :
    (∀ pre, pre <+: sched → CleanStart (book rid ((database cal).run ⟨s, pool⟩ pre).state)) ∧
    (∀ pre ch, pre ++ [ch] <+: sched →
      GivesBack rid ((database cal).run ⟨s, pool⟩ pre).state
        ((database cal).run ⟨s, pool⟩ (pre ++ [ch])).state) := by
  refine ⟨fun pre hp => run_clean cal pool hs (hg.of_prefix hp), fun pre ch _ => ?_⟩
  refine Machine.run_steps (T := GivesBack rid) ?_ (exec_givesBack cal rid) _ pre ch
  intro s r c a _ hn ha
  rw [hn] at ha
  cases ha

def subscriptionAttempt : BillingRecoveryInput :=
  { requestID := sampleRequest, userID := 1, tokenID := 1, source := .subscription,
    tokenRequired := true }

/-- An attempt on the subscription that gives up, then a wallet session that is
refunded. -/
def abortThenWallet : Process Unit := do
  let _ ← ensureBillingRecovery subscriptionAttempt
  let _ ← Db.abortPrepared sampleRequest
  sessionLife (tryWallet sampleRelay 10 0) [.refund]

theorem rebound_row_starts_clean_after_abort :
    Fresh sampleRequest sampleStore ∧
    CleanStart (book sampleRequest ((database sampleCalendar).run
      ⟨sampleStore, [abortThenWallet]⟩ (List.replicate 12 (.go 0))).state) :=
  have h := rebound_row_starts_clean sampleCalendar sampleRequest [abortThenWallet] sampleStore
    (List.replicate 12 (.go 0)) sampleStore_fresh (by decide)
  ⟨sampleStore_fresh, h.1 _ (List.prefix_refl _)⟩

/-- The attempt on the subscription hangs, a worker closes its row, and the wallet session takes it
over. -/
def workerThenWallet : Store :=
  ((database sampleCalendar).run
    ⟨sampleStore, [do let _ ← ensureBillingRecovery subscriptionAttempt,
      workerPass sampleRequest, sessionLife (tryWallet sampleRelay 10 0) [.refund]]⟩
    (List.replicate 2 (.go 0) ++ List.replicate 8 (.go 1) ++ List.replicate 9 (.go 2))).state

/-- The wallet's refund finds the marker of the empty attempt: the row is refunded, the ten are
gone. -/
theorem workerThenWallet_keeps_the_money :
    ¬ CleanStart (book sampleRequest workerThenWallet) ∧ workerThenWallet.users 1 = some ⟨90⟩ := by
  refine ⟨fun h => ?_, by decide⟩
  have hr : workerThenWallet.recoveries sampleRequest = some
      { userID := 1, tokenID := 1, source := .wallet, fundingAmount := 10, tokenAmount := 10,
        tokenRequired := true, preConsumeState := .committed, fundingRefund := .completed,
        tokenRefund := .completed, status := .refunded } := by
    decide
  have hm := (h.whole _ hr rfl rfl).1
  exact absurd hm (by decide)

end Ren2Hub.Proofs.Rebind
