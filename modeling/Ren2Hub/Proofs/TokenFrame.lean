import Ren2Hub.Proofs.RequestBook

namespace Ren2Hub.Proofs.TokenFrame
open Lib Billing Ledger RecoverySpec CallSpec RequestBook

/-- The calls that drive an existing row, and the reads between them. -/
def Drives (rid : RequestID) : Call → Prop
  | .findRecovery q | .writeSettlement q _ | .markRefundPending q | .markSettled q |
    .markRefunded q | .preConsumeWallet q _ _ | .reserve q _ _ _ | .applyAdjustment q _ _ => q = rid
  | _ => False

/-- A row that says the request takes no part in token billing. -/
def NoToken (rid : RequestID) (s : Store) : Prop :=
  ∃ r, s.recoveries rid = some r ∧ r.tokenRequired = false

/-- The state of the row lets the adjustment through. -/
def Open (op : Operation) (r : BillingRecovery) : Prop :=
  (op = .settle ∧ r.status = .settlementPending) ∨
    (op = .refund ∧ (r.status = .active ∨ r.status = .refundPending))

/-- A token adjustment that gets through to an existing token moves nothing. -/
def SparesToken (rid : RequestID) (call : Call) (s : Store) : Prop :=
  ∀ op r, call = .applyAdjustment rid .token op → s.recoveries rid = some r →
    0 < r.tokenID → (s.tokens r.tokenID).isSome → s.adjustments rid .token op = none →
    Open op r → r.adjustmentAmount .token op = 0

variable (cal : Calendar)

theorem noToken_exec (call : Call) (s : Store) (hd : Drives rid call) (h : NoToken rid s) :
    NoToken rid (Call.exec cal call s).1 := by
  obtain ⟨r, hr, hreq⟩ := h
  have hb := exec_book cal rid call s
  have hrow : (book rid s).row = some r := hr
  suffices ∃ r', (book rid (Call.exec cal call s).1).row = some r' ∧ r'.tokenRequired = false from
    this
  generalize book rid (Call.exec cal call s).1 = b' at hb ⊢
  cases hb with
  | same => exact ⟨r, hr, hreq⟩
  | create | rebind | abort | amounts => cases hd
  | settlement hq | settled hq | refunded hq | charge hq =>
    rw [hrow] at hq; cases hq; exact ⟨_, rfl, hreq⟩
  | refundPending hq =>
    rw [hrow] at hq
    cases hq
    obtain ⟨_, _, _, _, he⟩ := withRecord_eq r (s.records rid)
    exact ⟨_, rfl, by rw [he]; exact hreq⟩
  | extend hq =>
    rw [hrow] at hq
    cases hq
    obtain ⟨_, _, _, he⟩ := extend_eq r _
    exact ⟨_, rfl, by rw [he]; exact hreq⟩
  | adjust hq _ ha =>
    rw [hrow] at hq
    cases hq
    rcases ha with ⟨rfl, _⟩ | ⟨rfl, _⟩
    · obtain ⟨_, _, he⟩ := complete_settle_eq r _
      exact ⟨_, rfl, by rw [he]; exact hreq⟩
    · obtain ⟨_, _, _, he⟩ := complete_refund_eq r _
      exact ⟨_, rfl, by rw [he]; exact hreq⟩

theorem admits_of_open (h : Open op r) : r.admits .token op = .ok true := by
  unfold BillingRecovery.admits
  rcases h with ⟨rfl, hs⟩ | ⟨rfl, hs | hs⟩ <;> simp [hs]

theorem flush_token_noop (hr : s.recoveries rid = some r) (hreq : r.tokenRequired = false) :
    flushPendingDeltas rid false true s = .ok s := by
  simp [flushPendingDeltas, beginBillingRecoveryQuotaMutation, recovery_ok.mpr hr, bind,
    Except.bind, pure, Except.pure, hreq, pendingQuotaDelta, dropPendingQuotaDelta,
    QuotaMutation.applyPendingDeltas]

theorem adjust_token_moves (hr : s.recoveries rid = some r) (hreq : r.tokenRequired = false)
    (hid : 0 < r.tokenID) (ht : s.tokens r.tokenID = some t)
    (hn : s.adjustments rid .token op = none) (ho : Open op r)
    (hz : r.adjustmentAmount .token op ≠ 0) :
    (Call.exec cal (.applyAdjustment rid .token op) s).1.tokens ≠ s.tokens := by
  have hsettled : ¬ (op = .refund ∧ r.status = .settled) := by
    rcases ho with ⟨rfl, hs⟩ | ⟨rfl, hs | hs⟩ <;> simp [hs]
  have hop : ¬ (op ≠ .settle ∧ op ≠ .refund) := by
    rcases ho with ⟨rfl, _⟩ | ⟨rfl, _⟩ <;> simp
  have hpos : ¬ r.tokenID ≤ 0 := by omega
  have hexec : ∃ d, d ≠ 0 ∧ (Call.exec cal (.applyAdjustment rid .token op) s).1.tokens =
      (s.setToken r.tokenID
        { t with remainQuota := t.remainQuota + d, usedQuota := t.usedQuota - d }).tokens := by
    refine ⟨r.adjustmentAmount .token op * if op = .settle then -1 else 1, ?_, ?_⟩
    · split <;> omega
    simp [Call.exec, applyBillingRecoveryAdjustment, hop, flush_token_noop hr hreq,
      applyAdjustmentTx, recovery_ok.mpr hr, bind, Except.bind, hsettled, hn, admits_of_open ho,
      applyBillingRecoveryEffect, hpos, hz, Store.addTokenQuota, ht, pure, Except.pure, commitUnit]
  obtain ⟨d, hd, he⟩ := hexec
  rw [he]
  intro hsame
  have hrow := congrFun hsame r.tokenID
  rw [ht] at hrow
  simp only [Store.setToken, Function.update_self, Option.some.injEq] at hrow
  have := congrArg Token.remainQuota hrow
  simp only at this
  omega

theorem Drives.request (h : Drives rid call) : request call = some rid := by
  cases call <;> cases h <;> rfl

theorem Drives.not_direct (h : Drives rid call) : direct call = false := by
  cases call <;> cases h <;> rfl

theorem effect_token_row (h : applyBillingRecoveryEffect rid r .token op amount s = .ok s')
    (hid : 0 < r.tokenID) (ha : amount ≠ 0) : (s.tokens r.tokenID).isSome := by
  unfold applyBillingRecoveryEffect at h
  rw [if_neg (by simp; omega), if_neg ha] at h
  simp only [Store.addTokenQuota] at h
  split at h
  · rename_i t ht
    simp [ht]
  · cases h

theorem tokenEffect_zero (hg : SparesToken rid (.applyAdjustment rid c op) s)
    (hr : s.recoveries rid = some r) (hn : s.adjustments rid c op = none)
    (ha : (op = .settle ∧ (c = .funding ∨ c = .token) ∧ r.status = .settlementPending) ∨
      (op = .refund ∧ (c = .funding ∨ c = .extra ∨ c = .token) ∧
        (r.status = .active ∨ r.status = .refundPending)))
    (hf : s0.tokens = s.tokens)
    (he : applyBillingRecoveryEffect rid r c op (r.adjustmentAmount c op) s0 = .ok s1) :
    tokenEffect r c op (r.adjustmentAmount c op) = 0 := by
  by_cases hz : r.adjustmentAmount c op = 0
  · simp [tokenEffect, hz]
  refine if_neg ?_
  rintro ⟨rfl, hid⟩
  have hrow := effect_token_row he hid hz
  rw [hf] at hrow
  refine hz (hg op r rfl hr hid hrow hn ?_)
  rcases ha with ⟨rfl, _, hs⟩ | ⟨rfl, _, hs⟩
  · exact .inl ⟨rfl, hs⟩
  · exact .inr ⟨rfl, hs⟩

/-- Apart from an admitted token adjustment, no call that drives the row writes the token table. -/
theorem exec_tokens_of_spares (call : Call) (s : Store) (hd : Drives rid call) (h : NoToken rid s)
    (hg : SparesToken rid call s) : (Call.exec cal call s).1.tokens = s.tokens := by
  obtain ⟨r, hr, hreq⟩ := h
  have hch := exec_change cal call s
  generalize (Call.exec cal call s).1 = s' at hch ⊢
  have hrid := hd.request
  cases hch with
  | same => rfl
  | flushed hc hf =>
    rw [hrid] at hc
    cases hc
    exact hf.tokens r hr hreq
  | charge hq _ _ _ _ _ _ htok | extend hq _ _ _ _ _ _ htok =>
    cases hrid
    rw [hr] at hq
    cases hq
    exact htok hreq
  | adjust hq hn ha hf he =>
    cases hrid
    rw [hr] at hq
    cases hq
    have hflush := hf.tokens r hr hreq
    exact ((effect_spec he).2.2.2 (tokenEffect_zero hg hr hn ha hflush he)).trans hflush
  | direct hdir => rw [hd.not_direct] at hdir; cases hdir
  | _ => rfl

theorem exec_tokens_iff (call : Call) (s : Store) (hd : Drives rid call) (h : NoToken rid s) :
    (Call.exec cal call s).1.tokens = s.tokens ↔ SparesToken rid call s := by
  refine ⟨?_, exec_tokens_of_spares cal call s hd h⟩
  rintro hsame op r rfl hr hid hrow hn ho
  obtain ⟨r', hr', hreq⟩ := h
  rw [hr] at hr'
  cases hr'
  obtain ⟨t, ht⟩ := Option.isSome_iff_exists.mp hrow
  by_contra hz
  exact adjust_token_moves cal hr hreq hid ht hn ho hz hsame

/-- For a row without token billing, processes that drive it leave every token untouched exactly if
each token adjustment let through to an existing token has amount zero. -/
theorem token_table_untouched_iff (cal : Calendar) (rid : RequestID)
    (pool : List (Process Unit)) (s : Store) (sched : List Choice)
    (hpool : ∀ p ∈ pool, p.Uses (Drives rid)) (h : NoToken rid s) :
    (∀ pre, pre <+: sched → ((database cal).run ⟨s, pool⟩ pre).state.tokens = s.tokens) ↔
      (database cal).Meets (SparesToken rid) sched ⟨s, pool⟩ := by
  have hi : (⟨s, pool⟩ : Config Call Call.Answer Store).state.tokens = s.tokens := rfl
  refine Machine.run_exact (I := fun s' => s'.tokens = s.tokens) (J := NoToken rid)
    (P := Drives rid) ?_ ?_ hpool h hi
  · exact fun c s hd hj => noToken_exec cal c s hd hj
  intro c s' hd hj hi
  rw [← hi]
  exact exec_tokens_iff cal c s' hd hj

theorem WorkerCall.drives (h : WorkerCall rid call) : Drives rid call := by
  cases call <;> cases h <;> rfl

def playgroundStore : Store :=
  sampleStore.setRecovery sampleRequest
    { userID := 1, tokenID := 1, source := .wallet, fundingAmount := 10,
      preConsumeState := .committed }

/-- Its settlement is written, then a worker pass finishes it. -/
def settleAndRecover (delta : Int) : List (Process Unit) :=
  [do let _ ← updateBillingRecoverySettlement sampleRequest delta, workerPass sampleRequest]

theorem settleAndRecover_drives (delta : Int) :
    ∀ p ∈ settleAndRecover delta, p.Uses (Drives sampleRequest) := by
  intro p hp
  simp only [settleAndRecover, List.mem_cons, List.not_mem_nil, or_false] at hp
  rcases hp with rfl | rfl
  · refine Program.Uses.bind ?_ fun _ => trivial
    refine .bindExcept ⟨rfl, fun _ => trivial⟩ (fun _ => trivial) fun rows => ?_
    simp only []
    split
    · trivial
    refine .bindExcept ⟨rfl, fun _ => trivial⟩ (fun _ => trivial) fun r => ?_
    simp only []
    split <;> trivial
  · exact (workerPass_uses sampleRequest).mono fun _ => WorkerCall.drives

theorem token_table_untouched_iff_playground :
    NoToken sampleRequest playgroundStore ∧
    ((∀ pre, pre <+: Choice.go 0 :: List.replicate 7 (.go 1) →
        ((database sampleCalendar).run ⟨playgroundStore, settleAndRecover 0⟩ pre).state.tokens =
          playgroundStore.tokens) ↔
      (database sampleCalendar).Meets (SparesToken sampleRequest)
        (Choice.go 0 :: List.replicate 7 (.go 1)) ⟨playgroundStore, settleAndRecover 0⟩) :=
  have h : NoToken sampleRequest playgroundStore := ⟨_, rfl, rfl⟩
  ⟨h, token_table_untouched_iff _ _ _ _ _ (settleAndRecover_drives 0) h⟩

/-- A playground request used five more than reserved: settling takes five from the user's token. -/
theorem playground_settlement_charges_token :
    NoToken sampleRequest playgroundStore ∧
    (((database sampleCalendar).run ⟨playgroundStore, settleAndRecover 5⟩
      (Choice.go 0 :: List.replicate 7 (.go 1))).state.tokens 1 =
        some { remainQuota := 95, usedQuota := 5 }) ∧
    playgroundStore.tokens 1 = some { remainQuota := 100, usedQuota := 0 } :=
  ⟨⟨_, rfl, rfl⟩, by decide, by decide⟩

end Ren2Hub.Proofs.TokenFrame
