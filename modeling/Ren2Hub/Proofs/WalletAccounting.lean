import Ren2Hub.Proofs.SessionCalls

namespace Ren2Hub.Proofs.WalletAccounting
open Lib Billing Ledger RecoverySpec CallSpec RequestBook SessionCalls Machine BillingRecovery

/-- The row of a wallet request that takes part in token billing. -/
structure WalletRow (info : RelayInfo) (b : Book) : Prop where
  fresh : b.row = none → ∀ c op, b.marks c op = none
  user : ∀ r, b.row = some r → r.userID = info.userId
  token : ∀ r, b.row = some r → r.tokenID = info.tokenId
  source : ∀ r, b.row = some r → r.source = .wallet
  required : ∀ r, b.row = some r → r.tokenRequired = true
  prepared : ∀ r, b.row = some r → r.preConsumeState = .prepared →
    r.fundingAmount = 0 ∧ r.tokenAmount = 0

/-- Since `s0` the request moved exactly what its book says. -/
structure Balanced (info : RelayInfo) (s0 s : Store) : Prop where
  row : WalletRow info (book info.rid s)
  shift : Shift s0 s (point info.userId (walletDue (book info.rid s)))
    (point info.tokenId (tokenDue (book info.rid s)))

/-- The calls a wallet request and the worker make once the row is there. -/
def Steps (rid : RequestID) : Call → Prop
  | .findRecovery q | .abortPrepared q | .writeSettlement q _ | .markRefundPending q |
    .markSettled q | .markRefunded q | .preConsumeWallet q _ _ | .reserve q _ _ _ |
    .applyAdjustment q _ _ => q = rid
  | .getUserQuota _ => True
  | _ => False

theorem Balanced.moved (h : Balanced info s0 s) (hrow : WalletRow info (book info.rid s'))
    (hs : Shift s s' (point info.userId w) (point info.tokenId t))
    (hw : walletDue (book info.rid s') = walletDue (book info.rid s) + w)
    (ht : tokenDue (book info.rid s') = tokenDue (book info.rid s) + t) :
    Balanced info s0 s' := by
  refine ⟨hrow, ?_⟩
  rw [hw, ht, ← point_add, ← point_add]
  exact h.shift.trans hs

theorem Balanced.still (h : Balanced info s0 s) (hrow : WalletRow info (book info.rid s'))
    (hs : Shift s s' 0 0)
    (hw : walletDue (book info.rid s') = walletDue (book info.rid s))
    (ht : tokenDue (book info.rid s') = tokenDue (book info.rid s)) :
    Balanced info s0 s' := by
  refine h.moved (w := 0) (t := 0) hrow ?_ (by omega) (by omega)
  simpa using hs

theorem WalletRow.write (h : WalletRow info b) (hr : b.row = some r) (hu : r'.userID = r.userID)
    (ht : r'.tokenID = r.tokenID) (hs : r'.source = r.source)
    (hq : r'.tokenRequired = r.tokenRequired)
    (hp : r'.preConsumeState = .prepared → r.preConsumeState = .prepared ∧
      r'.fundingAmount = r.fundingAmount ∧ r'.tokenAmount = r.tokenAmount) :
    WalletRow info (b.write r') := by
  refine ⟨by simp, ?_, ?_, ?_, ?_, ?_⟩
  · rintro q ⟨⟩
    rw [hu, h.user r hr]
  · rintro q ⟨⟩
    rw [ht, h.token r hr]
  · rintro q ⟨⟩
    rw [hs, h.source r hr]
  · rintro q ⟨⟩
    rw [hq, h.required r hr]
  rintro q ⟨⟩ hq'
  obtain ⟨hp', hf, htok⟩ := hp hq'
  rw [hf, htok]
  exact h.prepared r hr hp'

theorem WalletRow.mark (h : WalletRow info b) (hr : b.row = some r) (c : Component)
    (op : Operation) (a : Int) : WalletRow info (b.mark c op a) where
  fresh := by
    intro hn
    rw [Book.mark_row, hr] at hn
    cases hn
  user := h.user
  token := h.token
  source := h.source
  required := h.required
  prepared := h.prepared

theorem Balanced.rewrite (h : Balanced info s0 s) (hr : s.recoveries info.rid = some r)
    (hu : r'.userID = r.userID) (ht : r'.tokenID = r.tokenID) (hs : r'.source = r.source)
    (hq : r'.tokenRequired = r.tokenRequired) (hp : r'.preConsumeState = r.preConsumeState)
    (hf : r'.fundingAmount = r.fundingAmount) (htok : r'.tokenAmount = r.tokenAmount) :
    Balanced info s0 (s.setRecovery info.rid r') := by
  obtain ⟨hw, hd⟩ := dues_write (show (book info.rid s).row = some r from hr) r'
  refine h.still ?_ (setRecovery_shift _ _ _) ?_ ?_
  · rw [book_write rfl]
    exact h.row.write hr hu ht hs hq fun hp' => ⟨hp ▸ hp', hf, htok⟩
  · rw [book_write rfl, hw]
    omega
  · rw [book_write rfl, hd]
    omega

theorem Balanced.charge (h : Balanced info s0 s) (hr : s.recoveries info.rid = some r)
    (hid : 0 < info.tokenId) (hp : r.preConsumeState = .prepared)
    (hs : Shift s s1 (point r.userID (-quota)) (point r.tokenID (-tokenShare r quota)))
    (hadj : s1.adjustments = s.adjustments) :
    Balanced info s0 (s1.setRecovery info.rid (r.charged quota)) := by
  obtain ⟨hf0, ht0⟩ := h.row.prepared r hr hp
  obtain ⟨hw, hd⟩ :=
    dues_write (show (book info.rid s).row = some r from hr) (r.charged quota)
  have hreq := h.row.required r hr
  have htid := h.row.token r hr
  have hshare : tokenShare r quota = quota := if_pos ⟨hreq, by omega⟩
  rw [h.row.user r hr, htid, hshare] at hs
  refine h.moved ?_ (hs.trans_same (setRecovery_shift _ _ _)) ?_ ?_
  · rw [book_write hadj]
    exact h.row.write hr rfl rfl rfl rfl nofun
  · rw [book_write hadj, hw, hf0]
    simp [charged]
  · rw [book_write hadj, hd, ht0]
    simp [charged, hreq]

theorem withRecord_wallet {r : BillingRecovery} (hs : r.source = .wallet)
    (record : Option SubscriptionPreConsumeRecord) : r.withRecord record = r := by
  simp [withRecord, hs]

theorem extend_wallet {r : BillingRecovery} (hs : r.source = .wallet)
    (hq : r.tokenRequired = true) (ht : 0 < r.tokenID) (d : Int) :
    r.extend d =
      { r with fundingAmount := r.fundingAmount + d, tokenAmount := r.tokenAmount + d } := by
  simp [extend, hs, hq, ht]

theorem Balanced.extend (h : Balanced info s0 s) (hr : s.recoveries info.rid = some r)
    (hid : 0 < info.tokenId) (hp : r.preConsumeState = .committed)
    (hs : Shift s s1 (point r.userID (-walletShare r d)) (point r.tokenID (-tokenShare r d)))
    (hadj : s1.adjustments = s.adjustments) (target : Int) :
    Balanced info s0 ((s1.setRecovery info.rid (r.extend d)).setAdjustment info.rid
      (.reserve target) .reserve d) := by
  have hsrc := h.row.source r hr
  have hreq := h.row.required r hr
  have htid := h.row.token r hr
  have hshare : tokenShare r d = d := if_pos ⟨hreq, by omega⟩
  have hwal : walletShare r d = d := if_pos hsrc
  rw [h.row.user r hr, htid, hshare, hwal] at hs
  rw [extend_wallet hsrc hreq (by omega)]
  obtain ⟨hw, hd⟩ := dues_write (show (book info.rid s).row = some r from hr)
    { r with fundingAmount := r.fundingAmount + d, tokenAmount := r.tokenAmount + d }
  have hrow : WalletRow info ((book info.rid s).write
      { r with fundingAmount := r.fundingAmount + d, tokenAmount := r.tokenAmount + d }) := by
    refine h.row.write hr rfl rfl rfl rfl fun hc => ?_
    rw [hp] at hc
    cases hc
  refine h.moved ?_ ((hs.trans_same (setRecovery_shift _ _ _)).trans_same
    (setAdjustment_shift _ _ _ _ _)) ?_ ?_
  · rw [book_write_mark hadj]
    exact hrow.mark rfl _ _ _
  · rw [book_write_mark hadj]
    exact hw.trans (by simp)
  · rw [book_write_mark hadj]
    exact hd.trans (by simp)

theorem Balanced.adjust (h : Balanced info s0 s) (hr : s.recoveries info.rid = some r)
    (hid : 0 < info.tokenId) (hn : s.adjustments info.rid c op = none)
    (hop : (op = .settle ∧ (c = .funding ∨ c = .token)) ∨
      (op = .refund ∧ (c = .funding ∨ c = .extra ∨ c = .token)))
    (hf : Flushed info.rid s s1)
    (he : applyBillingRecoveryEffect info.rid r c op a s1 = .ok s2) :
    Balanced info s0 ((s2.setAdjustment info.rid c op a).setRecovery info.rid
      (r.complete c op)) := by
  obtain ⟨hs, _, hadj, _⟩ := effect_spec he
  have hadj' := hadj.trans hf.rows.adjustments
  have htid := h.row.token r hr
  have hwal : walletEffect r c op a = if c = .funding then a * Operation.sign op else 0 := by
    simp [walletEffect, h.row.source r hr]
  have htok : tokenEffect r c op a = if c = .token then a * Operation.sign op else 0 := by
    simp [tokenEffect, htid, hid]
  rw [h.row.user r hr, htid, hwal, htok] at hs
  have hmark : ((book info.rid s).mark c op a).row = some r := hr
  obtain ⟨hmw, hmt⟩ := dues_mark (b := book info.rid s) (a := a) hn hop
  obtain ⟨hw, hd⟩ := dues_write hmark (r.complete c op)
  obtain ⟨_, _, _, _, _, hc⟩ := complete_eq r c op
  refine h.moved ?_ (((hf.shift.same_trans hs).trans_same
    (setAdjustment_shift _ _ _ _ _)).trans_same (setRecovery_shift _ _ _)) ?_ ?_
  · rw [book_mark_write hadj', hc]
    exact (h.row.mark hr c op a).write hmark rfl rfl rfl rfl fun hp => ⟨hp, rfl, rfl⟩
  · rw [book_mark_write hadj', hw, hmw, hc]
    dsimp only
    omega
  rw [book_mark_write hadj', hd, hmt, hc]
  dsimp only
  omega

theorem Steps.request (h : Steps rid call) (hr : request call ≠ none) :
    request call = some rid := by
  cases call <;> first | cases h <;> rfl | exact absurd rfl hr

theorem Steps.not_direct (h : Steps rid call) : direct call = false := by
  cases call <;> first | rfl | cases h

theorem Balanced.flush (h : Balanced info s0 s) (hf : Flushed info.rid s s') :
    Balanced info s0 s' := by
  have hb : book info.rid s' = book info.rid s := book_flushed hf
  exact h.still (hb ▸ h.row) hf.shift (by rw [hb]) (by rw [hb])

section
variable (cal : Calendar)

/-- Every step of the session or the worker keeps the balance, whatever the
state of the row. -/
theorem balanced_step (call : Call) (s : Store) (hid : 0 < info.tokenId)
    (hc : Steps info.rid call) (h : Balanced info s0 s) :
    Balanced info s0 (Call.exec cal call s).1 := by
  have hch := exec_change cal call s
  generalize (Call.exec cal call s).1 = s' at hch ⊢
  cases hch with
  | same => exact h
  | flushed hreq hf =>
    have hq := hc.request (by rw [hreq]; simp)
    rw [hreq] at hq
    cases hq
    exact h.flush hf
  | create | rebind | amounts => cases hc
  | abort hr | settlement hr | settled hr | refunded hr =>
    cases hc; exact h.rewrite hr rfl rfl rfl rfl rfl rfl rfl
  | refundPending hr =>
    cases hc
    -- Only a subscription row looks its amounts up in the pre-consume record.
    have he := withRecord_wallet (h.row.source _ hr) (s.records info.rid)
    rw [he]
    exact h.rewrite hr rfl rfl rfl rfl rfl rfl rfl
  | charge hr _ _ hp _ hs hrows => cases hc; exact h.charge hr hid hp hs hrows.adjustments
  | extend hr _ hp _ hs _ hadj => cases hc; exact h.extend hr hid hp hs hadj _
  | adjust hr hn ha hf he =>
    cases hc
    refine h.adjust hr hid hn ?_ hf he
    rcases ha with ⟨rfl, hc, _⟩ | ⟨rfl, hc, _⟩
    · exact .inl ⟨rfl, hc⟩
    · exact .inr ⟨rfl, hc⟩
  | direct hd => rw [hc.not_direct] at hd; cases hd

/-- Between its pre-consume and the write of its amounts the session relies on those of the row. -/
inductive Phase where
  | idle
  | charged (quota : Int)

def Holds (info : RelayInfo) (s0 : Store) : Phase → Store → Prop
  | .idle, s => Balanced info s0 s
  | .charged quota, s => Balanced info s0 s ∧ ∀ r, s.recoveries info.rid = some r →
      r.status = .active → r.fundingAmount = quota ∧ r.tokenAmount = quota

abbrev anyCall : Call → Store → Prop := fun _ _ => True

abbrev anyStep : Store → Store → Prop := fun _ _ => True

/-- Calls that leave the amounts of the row alone. -/
def Maintains (rid : RequestID) : Call → Prop
  | .findRecovery q | .abortPrepared q | .writeSettlement q _ | .markRefundPending q |
    .markSettled q | .markRefunded q | .applyAdjustment q _ _ => q = rid
  | .getUserQuota _ => True
  | _ => False

theorem Maintains.steps (h : Maintains rid call) : Steps rid call := by
  cases call <;> first | exact h | cases h

theorem maintains_amounts (hc : Maintains rid call)
    (hr : (Call.exec cal call s).1.recoveries rid = some r') (ha : r'.status = .active) :
    ∃ r, s.recoveries rid = some r ∧ r.status = .active ∧
      r'.fundingAmount = r.fundingAmount ∧ r'.tokenAmount = r.tokenAmount := by
  have hb := exec_book cal rid call s
  replace hr : (book rid (Call.exec cal call s).1).row = some r' := hr
  generalize book rid (Call.exec cal call s).1 = b' at hb hr
  cases hb with
  | same => exact ⟨r', hr, ha, rfl, rfl⟩
  | adjust hq =>
    cases hr
    obtain ⟨_, _, _, _, _, he⟩ := complete_eq _ _ _
    rw [he] at ha ⊢
    exact ⟨_, hq, ha, rfl, rfl⟩
  | create | rebind | amounts | charge | extend => cases hc
  | _ => cases hr; cases ha

theorem maintains_keeps (hid : 0 < info.tokenId) (hc : Maintains info.rid call) (φ : Phase) :
    Keeps (database cal) anyCall anyStep (Holds info s0 φ) call := by
  intro s hs _
  cases φ with
  | idle => exact ⟨balanced_step cal call s hid hc.steps hs, trivial⟩
  | charged =>
    obtain ⟨hb, hq⟩ := hs
    refine ⟨⟨balanced_step cal call s hid hc.steps hb, fun r' hr' ha => ?_⟩, trivial⟩
    obtain ⟨r, hr, hact, hf, ht⟩ := maintains_amounts cal hc hr' ha
    rw [hf, ht]
    exact hq r hr hact

theorem steps_keep_idle (hid : 0 < info.tokenId) (hc : Steps info.rid call) :
    Keeps (database cal) anyCall anyStep (Holds info s0 .idle) call :=
  fun s hs _ => ⟨balanced_step cal call s hid hc hs, trivial⟩

theorem SessionStep.steps (h : SessionStep rid call) : Steps rid call := by
  cases call <;> first | exact h | cases h

theorem WorkerCall.maintains (h : WorkerCall rid call) : Maintains rid call := by
  cases call <;> first | exact h | cases h

/-- What the session asks `EnsureBillingRecovery` for. -/
structure WalletInput (info : RelayInfo) (input : BillingRecoveryInput) : Prop where
  request : input.requestID = info.rid
  user : input.userID = info.userId
  token : input.tokenID = info.tokenId
  source : input.source = .wallet
  funding : input.fundingAmount = 0
  amount : input.tokenAmount = 0
  required : input.tokenRequired = true

theorem Balanced.create (h : Balanced info s0 s) (hin : WalletInput info input)
    (hr : s.recoveries info.rid = none) :
    Balanced info s0 (s.setRecovery info.rid input.row) := by
  have hrow : (book info.rid s).row = none := hr
  have hf := hin.funding
  have ha := hin.amount
  refine h.still ?_ (setRecovery_shift _ _ _) ?_ ?_ <;> rw [book_write rfl]
  · refine ⟨nofun, ?_, ?_, ?_, ?_, ?_⟩ <;> rintro r ⟨⟩
    · exact hin.user
    · exact hin.token
    · exact hin.source
    · exact hin.required
    · exact fun _ => ⟨hf, ha⟩
  · simp [walletDue, hrow, BillingRecoveryInput.row, hf]
  · simp [tokenDue, hrow, BillingRecoveryInput.row, ha]

theorem create_keeps (hin : WalletInput info input) :
    Keeps (database cal) anyCall anyStep (Holds info s0 .idle) (.createRecovery input) := by
  intro s hs _
  refine ⟨?_, trivial⟩
  refine commit_keeps (x := createBillingRecovery input s) hs fun r s' hx => ?_
  obtain ⟨hr, _, rfl⟩ := create_ok hx
  rw [hin.request] at hr ⊢
  exact Balanced.create hs hin hr

end

section Outline
variable (cal : Calendar) (info : RelayInfo) (s0 : Store)

/-- The outline of a part of the session. -/
abbrev Outline {α : Type} (Post : α → Phase → Prop) (p : Process α) (φ : Phase) : Prop :=
  Follows (database cal) anyCall anyStep (Holds info s0) Post p φ

variable {cal info s0}

theorem find_outline (hok : ∀ r, r.source = .wallet → Outline cal info s0 Post (next (.ok r)) .idle)
    (herror : ∀ e, Outline cal info s0 Post (next (.error e)) .idle) :
    Outline cal info s0 Post (Db.findRecovery info.rid >>= next) .idle := by
  refine ⟨fun s hs _ => ⟨.idle, hs, trivial, ?_⟩, fun r s hr hs => ⟨.idle, hs, ?_⟩⟩
  · show Outline cal info s0 Post (next (s.recovery info.rid)) .idle
    cases hr : s.recovery info.rid with
    | error e => exact herror e
    | ok r => exact hok r (Balanced.row hs |>.source r (recovery_ok.mp hr))
  · cases hr
    exact herror .database

theorem ensure_outline (hin : WalletInput info input) :
    Outline cal info s0 (fun _ φ => φ = .idle) (ensureBillingRecovery input) .idle := by
  have hsame : ∀ r, r.source = .wallet → Outline cal info s0 (fun _ φ => φ = .idle)
      (reconcileBillingRecoveryInput r input) .idle := by
    intro r hr
    unfold reconcileBillingRecoveryInput
    split
    · rfl
    · rw [if_pos (hr.trans hin.source.symm)]
      rfl
  unfold ensureBillingRecovery
  split
  · rfl
  rw [hin.request]
  refine find_outline hsame fun e => ?_
  cases e with
  | recordNotFound =>
    refine Follows.keep (create_keeps cal hin) fun created => ?_
    cases created with
    | ok r => rfl
    | error e => exact find_outline hsame fun _ => rfl
  | _ => rfl

theorem charged_amounts (hb : Balanced info s0 s)
    (h : preConsumeWalletBillingRecovery info.rid quota unlimited s = .ok s') :
    ∀ r, s'.recoveries info.rid = some r → r.status = .active →
      r.fundingAmount = quota ∧ r.tokenAmount = quota := by
  intro r hr _
  obtain ⟨_, q, hq, _, _, ⟨_, hf, ht, hflush⟩ | ⟨_, s1, _, _, _, rfl⟩⟩ := preConsumeWallet_ok h
  · rw [hflush.rows.recoveries, hq] at hr
    cases hr
    exact ⟨hf, ht (hb.row.required _ hq)⟩
  rw [setRecovery_self] at hr
  cases hr
  have hreq := hb.row.required _ hq
  exact ⟨rfl, if_pos hreq⟩

/-- After a pre-consume that went through, an active row has exactly the amounts
the session remembers. -/
theorem preConsumeWallet_outline (hid : 0 < info.tokenId)
    (hok : Outline cal info s0 Post (next (.ok ())) (.charged quota))
    (herror : ∀ e, Outline cal info s0 Post (next (.error e)) .idle) :
    Outline cal info s0 Post (Db.preConsumeWallet info.rid quota unlimited >>= next) .idle := by
  refine ⟨fun s hs _ => ?_, fun r s hr hs => ⟨.idle, hs, ?_⟩⟩
  · have hb : Balanced info s0 s := hs
    have hstep : Balanced info s0
        (commitUnit s (preConsumeWalletBillingRecovery info.rid quota unlimited s)).1 :=
      balanced_step cal (.preConsumeWallet info.rid quota unlimited) s hid rfl hb
    show ∃ φ', Holds info s0 φ'
        (commitUnit s (preConsumeWalletBillingRecovery info.rid quota unlimited s)).1 ∧ True ∧
      Outline cal info s0 Post (next
        (commitUnit s (preConsumeWalletBillingRecovery info.rid quota unlimited s)).2) φ'
    cases hx : preConsumeWalletBillingRecovery info.rid quota unlimited s with
    | error e => exact ⟨.idle, hs, trivial, herror e⟩
    | ok s' =>
      rw [hx] at hstep
      exact ⟨.charged quota, ⟨hstep, charged_amounts hb hx⟩, trivial, hok⟩
  · cases hr
    exact herror .database

theorem sync_outline (hnext : ∀ r, Outline cal info s0 Post (next r) .idle) :
    Outline cal info s0 Post (Db.updateAmounts info.rid sub quota x quota >>= next)
      (.charged quota) := by
  refine ⟨fun s hs _ => ⟨.idle, ?_, trivial, hnext _⟩, fun r s _ hs => ⟨.idle, hs.1, hnext r⟩⟩
  obtain ⟨hb, hq⟩ := hs
  refine commitUnit_keeps hb fun s' hx => ?_
  obtain ⟨_, _, _, r, hr, ha, rfl⟩ := updateAmounts_ok hx
  obtain ⟨hf, ht⟩ := hq r hr ha
  obtain ⟨hw, hd⟩ := dues_write (show (book info.rid s).row = some r from hr)
    { r with subscriptionID := sub, fundingAmount := quota, extraAmount := x,
             tokenAmount := quota, preConsumeState := .committed }
  refine hb.still ?_ (setRecovery_shift _ _ _) ?_ ?_ <;> rw [book_write rfl]
  · exact hb.row.write hr rfl rfl rfl rfl nofun
  · simp [hw, hf]
  · simp [hd, ht]

/-- A session that knows what was charged, or an error and nothing charged. -/
def PreConsumed (info : RelayInfo) (x : Option APIError × BillingSession) (φ : Phase) : Prop :=
  x.2.recoveryID = some info.rid ∧ x.2.relayInfo.isPlayground = false ∧
    ((∃ e, x.1 = some e ∧ φ = .idle) ∨
      ∃ quota, x.1 = none ∧ φ = .charged quota ∧ x.2.funding = .wallet quota ∧
        x.2.tokenConsumed = quota)

theorem chargeWallet_outline (hid : 0 < info.tokenId) {s : BillingSession}
    (hr : s.recoveryID = some info.rid) (hplay : s.relayInfo.isPlayground = false)
    (quota : Int) :
    Outline cal info s0 (fun x φ => match x with
      | .error _ => φ = .idle
      | .ok s' => PreConsumed info (none, s') φ) (s.preConsumeWallet info.rid quota) .idle := by
  refine preConsumeWallet_outline hid ?_ ?_
  · simp only [hplay, Bool.false_eq_true, if_false, BillingSession.syncRelayInfo]
    exact ⟨hr, rfl, .inr ⟨quota, rfl, rfl, rfl, rfl⟩⟩
  · intro e
    cases e <;> rfl

theorem preConsume_outline (hid : 0 < info.tokenId) {s : BillingSession}
    (hr : s.recoveryID = some info.rid) (hf : s.funding = .wallet 0)
    (hplay : s.relayInfo.isPlayground = false) (quota now : Int) :
    Outline cal info s0 (PreConsumed info) (s.preConsume quota now) .idle := by
  unfold BillingSession.preConsume
  simp only [hr, hf]
  refine Follows.bind (chargeWallet_outline hid ?_ ?_ _) fun x φ hx => ?_
  · rfl
  · exact hplay
  cases x with
  | error e => exact ⟨rfl, hplay, .inl ⟨e, rfl, hx⟩⟩
  | ok s' => exact hx

theorem recordFailure_uses (hr : s.recoveryID = some rid) :
    (recordBillingPreConsumeFailure s).Uses (Maintains rid) := by
  unfold recordBillingPreConsumeFailure
  simp only [hr]
  split
  · exact Program.Uses.bind ⟨rfl, fun _ => trivial⟩ fun _ => trivial
  · exact Program.Uses.bind ⟨rfl, fun _ => trivial⟩ fun _ => trivial

/-- What the creation of the session leaves behind. -/
def Created (info : RelayInfo) (x : Except APIError BillingSession) (φ : Phase) : Prop :=
  φ = .idle ∧ ∀ s, x = .ok s → s.recoveryID = some info.rid

theorem Created.error (e : APIError) : Created info (.error e) .idle :=
  ⟨rfl, fun s h => by cases h⟩

theorem Created.ok (h : s.recoveryID = some info.rid) : Created info (.ok s) .idle := by
  refine ⟨rfl, fun s' hs => ?_⟩
  cases hs
  exact h

theorem start_outline (hid : 0 < info.tokenId) {s : BillingSession}
    (hr : s.recoveryID = some info.rid) (hf : s.funding = .wallet 0)
    (hplay : s.relayInfo.isPlayground = false)
    (hin : WalletInput info (s.recoveryInput info.rid)) (quota now : Int) :
    Outline cal info s0 (Created info) (s.start info.rid quota now) .idle := by
  have keeps : ∀ call, Steps info.rid call → Keeps (database cal) anyCall
      anyStep (Holds info s0 .idle) call := fun call hc => steps_keep_idle cal hid hc
  refine Follows.bind (ensure_outline hin) fun x φ hφ => ?_
  subst hφ
  cases x with
  | error e => exact Created.error _
  | ok r =>
    refine Follows.bind (preConsume_outline hid hr hf hplay quota now) fun x φ hx => ?_
    obtain ⟨apiErr, s'⟩ := x
    obtain ⟨hr', hplay', ⟨e, rfl, rfl⟩ | ⟨charged, rfl, rfl, hf', ht'⟩⟩ := hx
    all_goals simp only at hr' hplay'
    · refine Follows.bind (Follows.of_keeps
        ((recordFailure_uses hr').mono fun c hc => keeps c hc.steps)) fun _ φ hφ => ?_
      rw [hφ.2]
      exact Created.error e
    · simp only at hf' ht'
      have hsync : s'.syncRecovery = Db.updateAmounts info.rid s'.relayInfo.subscriptionId
          charged s'.extraReserved charged := by
        simp [BillingSession.syncRecovery, hr', hf', hplay', ht']
      simp only [hsync]
      refine sync_outline fun x => ?_
      cases x with
      | ok _ => exact Created.ok hr'
      | error e =>
        refine Follows.keep (keeps _ rfl) fun _ => ?_
        refine Follows.bind (Follows.of_keeps
          ((refund_yields hr').mono (fun c hc => keeps c (WorkerCall.maintains hc).steps)
            fun _ => id)) fun _ φ hφ => ?_
        rw [hφ.2]
        exact Created.error _

theorem tryWallet_outline (hid : 0 < info.tokenId) (hplay : info.isPlayground = false)
    (quota now : Int) :
    Outline cal info s0 (Created info) (tryWallet info quota now) .idle := by
  refine Follows.keep (steps_keep_idle cal hid trivial) fun x => ?_
  cases x with
  | error e => exact Created.error _
  | ok userQuota =>
    simp only []
    split
    · exact Created.error _
    split
    · exact Created.error _
    refine start_outline hid rfl rfl hplay ?_ quota now
    exact ⟨rfl, rfl, rfl, rfl, rfl, rfl, by simp [BillingSession.recoveryInput, hplay, hid]⟩

theorem sessionLife_outline (hid : 0 < info.tokenId) (hplay : info.isPlayground = false)
    (quota now : Int) (calls : List SessionCall) :
    Outline cal info s0 (fun _ _ => True) (sessionLife (tryWallet info quota now) calls) .idle := by
  refine Follows.bind (tryWallet_outline hid hplay quota now) fun x φ hx => ?_
  obtain ⟨rfl, hs⟩ := hx
  cases x with
  | error e => trivial
  | ok s =>
    refine Follows.bind (Follows.of_keeps ((performAll_yields (hs s rfl) calls).mono
      (fun c hc => steps_keep_idle cal hid (SessionStep.steps hc)) fun _ => id)) fun _ _ _ =>
        trivial

end Outline

/-- The balances of user and token against row and markers. With nothing queued they are the stored
ones. -/
structure Accounted (info : RelayInfo) (s0 s : Store) : Prop where
  wallet : walletTotal s info.userId = walletTotal s0 info.userId -
    (s.recoveries info.rid).elim 0 fundingAmount +
    (s.adjustments info.rid .funding .refund).getD 0 -
    (s.adjustments info.rid .funding .settle).getD 0
  token : tokenTotal s info.tokenId = tokenTotal s0 info.tokenId -
    (s.recoveries info.rid).elim 0 tokenAmount +
    (s.adjustments info.rid .token .refund).getD 0 -
    (s.adjustments info.rid .token .settle).getD 0
  used : usedTotal s info.tokenId = usedTotal s0 info.tokenId +
    (s.recoveries info.rid).elim 0 tokenAmount -
    (s.adjustments info.rid .token .refund).getD 0 +
    (s.adjustments info.rid .token .settle).getD 0
  walletStored : s0.userPending info.userId = 0 →
    walletTotal s0 info.userId = getUserQuota info.userId s0 ∧
    walletTotal s info.userId = getUserQuota info.userId s
  tokenStored : s0.tokenPending info.tokenId = 0 →
    tokenTotal s0 info.tokenId = remainQuota info.tokenId s0 ∧
    tokenTotal s info.tokenId = remainQuota info.tokenId s ∧
    usedTotal s0 info.tokenId = usedQuota info.tokenId s0 ∧
    usedTotal s info.tokenId = usedQuota info.tokenId s

theorem Balanced.accounted (h : Balanced info s0 s) : Accounted info s0 s := by
  have hw := h.shift.wallet info.userId
  have ht := h.shift.token info.tokenId
  have hu := h.shift.used info.tokenId
  rw [point_self] at hw ht hu
  refine ⟨?_, ?_, ?_, fun hz => ?_, fun hz => ?_⟩
  · rw [hw]
    simp only [walletDue, book]
    omega
  · rw [ht]
    simp only [tokenDue, book]
    omega
  · rw [hu]
    simp only [tokenDue, book]
    omega
  · have hz' := h.shift.userQueue _ hz
    simp [walletTotal, hz, hz']
  · have hz' := h.shift.tokenQueue _ hz
    simp [tokenTotal, usedTotal, hz, hz']

theorem fresh_balanced (h : Fresh info.rid s) : Balanced info s s := by
  obtain ⟨hr, hm⟩ := h
  have hrow : (book info.rid s).row = none := hr
  have hmarks : ∀ c op, (book info.rid s).marks c op = none := hm
  refine ⟨⟨fun _ => hmarks, ?_, ?_, ?_, ?_, ?_⟩, ?_⟩
  all_goals try (intro r h; rw [hrow] at h; cases h)
  have hw : walletDue (book info.rid s) = 0 := by simp [walletDue, hrow, hmarks]
  have ht : tokenDue (book info.rid s) = 0 := by simp [tokenDue, hrow, hmarks]
  rw [hw, ht, point_zero, point_zero]
  exact .refl s

/-- Exactly-once accounting. Whatever the session does after its creation, whichever calls fail,
wherever it stops and however many worker passes run, wallet and token differ from their start by
the amounts and markers of the request. -/
theorem wallet_request_accounted (cal : Calendar) (info : RelayInfo) (quota now : Int)
    (calls : List SessionCall) (others : List (Process Unit)) (s0 : Store) (sched : List Choice)
    (hfresh : Fresh info.rid s0) (hplay : info.isPlayground = false)
    (hid : 0 < info.tokenId) (hothers : ∀ p ∈ others, p.Uses (Maintains info.rid)) :
    Accounted info s0 ((database cal).run
      ⟨s0, sessionLife (tryWallet info quota now) calls :: others⟩ sched).state := by
  have hout : Outline cal info s0 (fun _ _ => True)
      (sessionLife (tryWallet info quota now) calls) .idle :=
    sessionLife_outline hid hplay quota now calls
  -- The others need to know nothing: each of their calls keeps every phase.
  have hkeep : ∀ p ∈ others, ∃ ψ : Unit, True ∧ Follows (database cal) anyCall
      (fun s s' => True ∧ ∀ φ, Holds info s0 φ s → Holds info s0 φ s') (fun _ _ => True)
      (fun _ _ => True) p ψ := by
    intro p hp
    refine ⟨(), trivial, Follows.mono (Follows.of_keeps ((hothers p hp).mono ?_))
      fun _ _ _ => trivial⟩
    exact fun c hc s _ _ => ⟨trivial, trivial, fun φ hs =>
      (maintains_keeps cal hid hc φ s hs trivial).1⟩
  obtain ⟨φ, hφ⟩ := run_follows (fun _ _ _ _ _ => trivial) hout hkeep
    (meets_true sched _) (fresh_balanced hfresh)
  cases φ with
  | idle => exact Balanced.accounted hφ
  | charged => exact Balanced.accounted hφ.1

theorem wallet_request_accounted_with_workers :
    Fresh sampleRequest sampleStore ∧ Accounted sampleRelay sampleStore
      ((database sampleCalendar).run
        ⟨sampleStore, sessionLife (tryWallet sampleRelay 10 0) [.reserve 20, .settle 25, .refund] ::
          List.replicate 2 (workerPass sampleRequest)⟩
        [.go 0, .go 0, .go 0, .go 0, .go 0, .go 1, .go 0, .go 1, .fail 0, .go 2, .go 1]).state := by
  refine ⟨sampleStore_fresh,
    wallet_request_accounted sampleCalendar sampleRelay 10 0 _ _ sampleStore
    _ sampleStore_fresh rfl (by decide) fun p hp => ?_⟩
  rw [List.eq_of_mem_replicate hp]
  exact (workerPass_uses sampleRequest).mono fun c hc => WorkerCall.maintains hc

end Ren2Hub.Proofs.WalletAccounting
