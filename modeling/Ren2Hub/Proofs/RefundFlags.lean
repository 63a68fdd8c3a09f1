import Ren2Hub.Proofs.SessionOpening
import Ren2Hub.Lib.Inputs

namespace Ren2Hub.Proofs.RefundFlags
open Lib Machine Billing Ledger RecoverySpec CallSpec RequestBook SessionCalls SessionOpening
  BillingSession

/-- One call on a session, and which of its database calls fail. -/
structure Attempt where
  call : SessionCall
  faults : List Bool := []

def attempt (cal : Calendar) (x : BillingSession × Store) (a : Attempt) : BillingSession × Store :=
  (database cal).alone (x.1.perform a.call) a.faults x.2

/-- The refund of the component is committed. -/
def Marked (rid : RequestID) (c : Component) (st : Store) : Prop :=
  (st.adjustments rid c .refund).isSome

/-- The call that marks a component moves the balances by the amount of the row. -/
theorem marking_moves (cal : Calendar) (call : Call) {st : Store} (hn : ¬ Marked rid c st)
    (hm : Marked rid c (call.exec cal st).1) :
    ∃ r, st.recoveries rid = some r ∧ Shift st (call.exec cal st).1
      (point r.userID (walletEffect r c .refund (r.adjustmentAmount c .refund)))
      (point r.tokenID (tokenEffect r c .refund (r.adjustmentAmount c .refund))) := by
  obtain ⟨a, ha⟩ := Option.isSome_iff_exists.mp hm
  obtain ⟨r, s0, s1, -, hr, rfl, hflush, heffect, hafter⟩ :=
    (exec_change cal call st).refund_marker (by simpa [Marked] using hn) ha
  refine ⟨r, hr, hflush.shift.same_trans ((effect_spec heffect).1.trans_same ?_)⟩
  rw [hafter]
  exact .of_same rfl rfl rfl rfl

/-- A flag is only up when its refund is committed. -/
structure FlagsSound (rid : RequestID) (x : BillingSession × Store) : Prop where
  funding : x.1.fundingRefunded = true → Marked rid .funding x.2
  extra : x.1.extraRefunded = true → Marked rid .extra x.2
  token : x.1.tokenRefunded = true → 0 < x.1.tokenConsumed → x.1.relayInfo.isPlayground = false →
    Marked rid .token x.2

/-- What `needsRefundLocked` counts as taken by the session. -/
def Due (s : BillingSession) : Component → Prop
  | .funding => s.fundingSettled = false ∧ (0 < s.tokenConsumed ∨ s.funding.source = .subscription)
  | .extra => 0 < s.extraReserved ∧ s.funding.source = .subscription
  | .token => 0 < s.tokenConsumed ∧ s.relayInfo.isPlayground = false
  | .reserve _ => False

/-- Whether `Refund` gets past its first line. -/
def acts (s : BillingSession) : Bool :=
  !(s.settled || s.refunded || s.refundInProgress || !s.needsRefundLocked)

/-- The next `Refund` takes up every component whose refund is not committed. -/
def StaysPending (rid : RequestID) (x : BillingSession × Store) : Prop :=
  x.1.settled = false → ∀ c, Due x.1 c → ¬ Marked rid c x.2 → acts x.1 = true

/-- A refund with the funding to return gets its row marked: the call goes through and the row is
not on its way to a settlement. -/
def Announces (rid : RequestID) (x : BillingSession × Store) (a : Attempt) : Prop :=
  match a.call with
  | .refund =>
    acts x.1 = true → x.1.fundingRefunded = false → x.1.fundingSettled = false →
      a.faults.headD false = false ∧ ∃ r, x.2.recoveries rid = some r ∧
        r.status ≠ .settlementPending ∧ r.status ≠ .settled
  | _ => True

section
variable {s s' : BillingSession} {rid : RequestID} {ok : Prop} {cal : Calendar}

theorem acts_false (h : acts s = false) : s.refund = return s := by
  rw [refund_eq, if_pos (by simpa only [acts, Bool.not_eq_false'] using h)]

theorem acts_true (h : acts s = true) : s.refund = s.markPending >>= afterMark s := by
  rw [refund_eq, if_neg (by simpa only [acts, Bool.not_eq_true', Bool.not_eq_true] using h)]

theorem acts_refunded (h : acts s = true) : s.refunded = false := by
  simp only [acts, Bool.not_eq_true', Bool.or_eq_false_iff] at h
  exact h.1.1.2

theorem acts_token (h : acts s = true)
    (hsub : s.funding.source = .subscription → 0 < s.tokenConsumed) :
    0 < s.tokenConsumed := by
  cases hf : s.funding with
  | subscription =>
    apply hsub
    rw [hf]
    rfl
  | wallet =>
    simp only [acts, needsRefundLocked, hf, Funding.source] at h
    by_contra hn
    simp [hn] at h

def Tells (rid : RequestID) (ok : Prop) (c : Component) (flag : Bool) (st : Store) : Prop :=
  (Marked rid c st → flag = true) ∧ (ok → flag = true → Marked rid c st)

structure Tracks (rid : RequestID) (ok : Prop) (s : BillingSession) (st : Store) : Prop where
  recoveryID : s.recoveryID = some rid
  row : ∃ r, st.recoveries rid = some r ∧ (r.status = .refunded → s.refunded = true)
  funding : Tells rid ok .funding s.fundingRefunded st
  extra : Tells rid ok .extra s.extraRefunded st
  token : s.relayInfo.isPlayground = false → Tells rid ok .token s.tokenRefunded st
  complete : s.refunded = true → s.refundComponentsCompleteLocked = true
  idle : s.refundInProgress = false
  charged : s.funding.source = .subscription → 0 < s.tokenConsumed

theorem Tells.of_marks (h : Tells rid ok c flag st)
    (hm : st'.adjustments rid c .refund = st.adjustments rid c .refund) :
    Tells rid ok c flag st' := by
  unfold Tells Marked at *
  rw [hm]
  exact h

theorem Tracks.sound (h : Tracks rid True s st) : FlagsSound rid (s, st) := by
  refine ⟨h.funding.2 trivial, h.extra.2 trivial, ?_⟩
  intro hflag _ hp
  exact (h.token hp).2 trivial hflag

theorem complete_flags (h : s.refundComponentsCompleteLocked = true) :
    (s.fundingSettled = true ∨ s.fundingRefunded = true) ∧
      (0 < s.extraReserved → s.funding.source = .subscription → s.extraRefunded = true) ∧
      (s.relayInfo.isPlayground = true ∨ s.tokenConsumed ≤ 0 ∨ s.tokenRefunded = true) := by
  unfold refundComponentsCompleteLocked at h
  split at h
  · cases h
  split at h
  · cases h
  rename_i hextra
  refine ⟨?_, fun hx hs => ?_, by simpa [or_assoc] using h⟩
  · cases hs : s.fundingSettled <;> simp_all
  · simpa [hx, hs] using hextra

theorem Tracks.acts_of_due (h : Tracks rid True s st) (hset : s.settled = false) (hdue : Due s c)
    (hmark : ¬ Marked rid c st) : acts s = true := by
  have hflag {b : Bool} (ht : Tells rid True c b st) : b = false := by
    cases b with
    | false => rfl
    | true => exact absurd (ht.2 trivial rfl) hmark
  have hopen : s.refunded = false := by
    by_contra hr
    obtain ⟨hfund, hextra, htoken⟩ := complete_flags (h.complete (by simpa using hr))
    cases c with
    | funding => simp [hflag h.funding, hdue.1] at hfund
    | extra => simp [hflag h.extra, hdue.1, hdue.2] at hextra
    | token =>
      have hpos := hdue.1
      simp [hflag (h.token hdue.2), hdue.2] at htoken
      omega
    | reserve => exact hdue.elim
  simp only [acts, needsRefundLocked, hset, hopen, h.idle]
  cases c with
  | funding => simp [hflag h.funding, hdue.1, hdue.2.elim id h.charged]
  | extra => simp [hflag h.extra, hdue.1, hdue.2]
  | token => simp [hflag (h.token hdue.2), hdue.1, hdue.2]
  | reserve => exact hdue.elim

/-- What a reservation or a settlement leaves as it was. -/
structure KeepsFlags (s s' : BillingSession) : Prop where
  recoveryID : s'.recoveryID = s.recoveryID
  isPlayground : s'.relayInfo.isPlayground = s.relayInfo.isPlayground
  source : s'.funding.source = s.funding.source
  refunded : s'.refunded = s.refunded
  inProgress : s'.refundInProgress = s.refundInProgress
  funding : s'.fundingRefunded = s.fundingRefunded
  extra : s'.extraRefunded = s.extraRefunded
  token : s'.tokenRefunded = s.tokenRefunded
  consumed : s.tokenConsumed ≤ s'.tokenConsumed
  complete : s.refunded = true → s.refundComponentsCompleteLocked = true →
    s'.refundComponentsCompleteLocked = true

theorem SettleResult.keepsFlags (h : SettleResult s s') : KeepsFlags s s' := by
  obtain ⟨f, b, hf, rfl⟩ := h
  refine ⟨rfl, rfl, rfl, rfl, rfl, rfl, rfl, rfl, le_refl _, fun _ hc => ?_⟩
  unfold refundComponentsCompleteLocked at hc ⊢
  cases f with
  | true => simp_all
  | false =>
    have hs : s.fundingSettled = false := by simpa using hf
    rw [hs] at hc
    exact hc

theorem tokenPart_nonneg (info : RelayInfo) (hd : 0 < d) : 0 ≤ tokenPart info d := by
  unfold tokenPart
  split <;> omega

theorem ReserveResult.keepsFlags (h : ReserveResult s s') : KeepsFlags s s' := by
  obtain rfl | ⟨hopen, d, hd, rfl⟩ := h
  · exact ⟨rfl, rfl, rfl, rfl, rfl, rfl, rfl, rfl, le_refl _, fun _ => id⟩
  have hpart := tokenPart_nonneg s.relayInfo hd
  have hnever {p : Prop} (hr : s.refunded = true) : p := by
    rw [hopen] at hr
    cases hr
  cases hf : s.funding with
  | wallet =>
    rw [reserved_wallet hf]
    refine ⟨rfl, rfl, by rw [hf]; rfl, rfl, rfl, rfl, rfl, rfl, ?_, hnever⟩
    exact Int.le_add_of_nonneg_right hpart
  | subscription =>
    rw [reserved_subscription hf]
    refine ⟨rfl, rfl, rfl, rfl, rfl, rfl, rfl, rfl, ?_, hnever⟩
    exact Int.le_add_of_nonneg_right hpart

/-- The store as those calls see it: no refund is marked and no row is closed. -/
structure Quiet (b₀ b : Book) : Prop where
  marks : ∀ c, b.marks c .refund = b₀.marks c .refund
  row : ∃ r, b.row = some r ∧
    (r.status = .refunded → ∃ r₀, b₀.row = some r₀ ∧ r₀.status = .refunded)

theorem Quiet.write (h : Quiet b0 b) (hr : r.status ≠ .refunded) : Quiet b0 (b.write r) :=
  ⟨h.marks, r, rfl, fun hs => absurd hs hr⟩

theorem quiet_step (hc : PlainStep rid call) (hb : BookStep rid record call b b')
    (h : Quiet b0 b) : Quiet b0 b' := by
  cases hb with
  | same => exact h
  | settlement | settled => exact h.write nofun
  | extend hr ha =>
    obtain ⟨_, _, _, he⟩ := extend_eq _ _
    rw [he]
    refine ⟨fun c => ?_, _, rfl, fun hs => ?_⟩
    · rw [Book.mark_marks, if_neg (by simp)]
      exact h.marks c
    · simp [ha] at hs
  | adjust hr hn ha =>
    rcases ha with ⟨rfl, -, hst⟩ | ⟨rfl, -, -⟩
    · obtain ⟨_, _, he⟩ := complete_settle_eq _ _
      rw [he]
      refine ⟨fun c => ?_, _, rfl, fun hs => ?_⟩
      · rw [Book.write_marks, Book.mark_marks, if_neg (by simp)]
        exact h.marks c
      · simp [hst] at hs
    · cases hc
  | _ => cases hc

theorem Tracks.plain (h : Tracks rid ok s st) (hs : KeepsFlags s s')
    (hq : Quiet (book rid st) (book rid st')) : Tracks rid ok s' st' := by
  refine ⟨hs.recoveryID.trans h.recoveryID, ?_, ?_, ?_, ?_, ?_, ?_, ?_⟩
  · obtain ⟨r, hr, hclosed⟩ := hq.row
    refine ⟨r, hr, fun hst => ?_⟩
    obtain ⟨r0, hr0, hst0⟩ := hclosed hst
    obtain ⟨r', hr', hrefunded⟩ := h.row
    cases hr0.symm.trans hr'
    rw [hs.refunded]
    exact hrefunded hst0
  · rw [hs.funding]
    exact h.funding.of_marks (hq.marks .funding)
  · rw [hs.extra]
    exact h.extra.of_marks (hq.marks .extra)
  · rw [hs.isPlayground, hs.token]
    exact fun hp => (h.token hp).of_marks (hq.marks .token)
  · rw [hs.refunded]
    exact fun hr => hs.complete hr (h.complete hr)
  · exact hs.inProgress.trans h.idle
  · rw [hs.source]
    exact fun hsrc => lt_of_lt_of_le (h.charged hsrc) hs.consumed

theorem plain_tracks {p : Process (Option BillingError × BillingSession)}
    (hp : p.Yields (PlainStep rid) fun x => KeepsFlags s x.2) (h : Tracks rid ok s st) :
    (database cal).Ensures (Tracks rid ok) (do return (← p).2) st := by
  have hquiet : Quiet (book rid st) (book rid st) := by
    obtain ⟨r, hr, _⟩ := h.row
    exact ⟨fun _ => rfl, r, hr, fun hst => ⟨r, hr, hst⟩⟩
  apply Ensures.bind (ensures_of_yields hp (fun c st' hc => quiet_step hc (exec_book cal rid c st'))
    hquiet)
  intro x st' hx
  exact h.plain hx.1 hx.2

def Announced (rid : RequestID) (st : Store) : Prop :=
  ∃ r, st.recoveries rid = some r ∧ r.status = .refundPending

theorem adjust_marks (ha : Announced rid st)
    (h : Call.exec cal (.applyAdjustment rid c .refund) st = (st', .ok ())) :
    Announced rid st' ∧ Marked rid c st' ∧
      ∀ c', c' ≠ c → st'.adjustments rid c' .refund = st.adjustments rid c' .refund := by
  obtain ⟨r, hr, hst⟩ := ha
  obtain ⟨r', hr', ⟨hf, hwhy⟩ | ⟨_, _, s0, s1, hf, he, rfl⟩⟩ := applyAdjustment_ok (commitUnit_ok h)
  all_goals
    rw [hr] at hr'
    cases hr'
  · refine ⟨⟨r, by rw [hf.rows.recoveries]; exact hr, hst⟩, ?_,
      fun c' _ => by rw [hf.rows.adjustments]⟩
    unfold Marked
    rw [hf.rows.adjustments]
    simpa [hst] using hwhy
  · obtain ⟨_, _, _, heq⟩ := complete_refund_eq r c
    refine ⟨⟨_, setRecovery_self _ _ _, ?_⟩, ?_, fun c' hne => ?_⟩
    · rw [heq]
      exact hst
    · unfold Marked
      rw [setRecovery_adjustments, setAdjustment_self, if_pos ⟨rfl, rfl⟩]
      rfl
    · rw [setRecovery_adjustments, setAdjustment_self, if_neg (by simp [hne]),
        (effect_spec he).2.2.1, hf.rows.adjustments]

/-- The flag a component of `Refund` writes back, and the markers of the others as they were. -/
structure Part (rid : RequestID) (ok : Prop) (c : Component) (st : Store)
    (x : Bool × Option RefundFailure) (st' : Store) : Prop where
  announced : Announced rid st'
  tells : Tells rid ok c x.1 st'
  others : ∀ c', c' ≠ c → st'.adjustments rid c' .refund = st.adjustments rid c' .refund

theorem Part.skip (ha : Announced rid st) (ht : Tells rid ok c flag st)
    (err : Option RefundFailure) : Part rid ok c st (flag, err) st :=
  ⟨ha, ht, fun _ _ => rfl⟩

theorem issue_part (ha : Announced rid st) (ht : Tells rid ok c false st) (stage : RefundStage) :
    (database cal).Ensures (Part rid ok c st) (do
      match ← Db.applyAdjustment rid c .refund with
      | .error e => return (false, some ⟨stage, e⟩)
      | .ok () => return (true, none)) st := by
  refine ask (fun v st' hx => ?_) fun e => ?_
  · obtain ⟨ha', hm, hothers⟩ := adjust_marks ha hx
    exact ⟨ha', ⟨fun _ => rfl, fun _ _ => hm⟩, hothers⟩
  · exact Part.skip ha ht _

theorem refundFunding_part (hid : s.recoveryID = some rid) (ha : Announced rid st)
    (ht : Tells rid ok .funding s.fundingRefunded st) :
    (database cal).Ensures (Part rid ok .funding st) (s.refundFunding none) st := by
  unfold refundFunding
  split
  · exact Part.skip ha ht none
  rename_i hpending
  have hf : s.fundingRefunded = false := by
    simp only [Bool.or_eq_true, not_or, Bool.not_eq_true] at hpending
    exact hpending.1
  rw [hf] at ht
  rw [hid]
  exact issue_part ha ht .funding

theorem refundExtra_part (hid : s.recoveryID = some rid) (ha : Announced rid st)
    (ht : Tells rid ok .extra s.extraRefunded st) (err : Option RefundFailure) :
    (database cal).Ensures (Part rid ok .extra st) (s.refundExtra err) st := by
  unfold refundExtra
  split
  · rename_i hpending
    have hx : s.extraRefunded = false := by
      simp only [Bool.and_eq_true, Bool.not_eq_true'] at hpending
      exact hpending.1.1.1.2
    rw [hx] at ht
    rw [hid]
    exact issue_part ha ht .extra
  · exact Part.skip ha ht err

theorem refundToken_part (hid : s.recoveryID = some rid) (ha : Announced rid st)
    (ht : s.relayInfo.isPlayground = false → Tells rid ok .token s.tokenRefunded st)
    (err : Option RefundFailure) :
    (database cal).Ensures (fun x st' => Announced rid st' ∧
      (s.relayInfo.isPlayground = false → Tells rid ok .token x.1 st') ∧
      ∀ c, c ≠ .token → st'.adjustments rid c .refund = st.adjustments rid c .refund)
      (s.refundToken err) st := by
  unfold refundToken
  split
  · rename_i hpending
    simp only [Bool.and_eq_true, Bool.not_eq_true'] at hpending
    have ht' := ht hpending.2
    rw [hpending.1.1.2] at ht'
    rw [hid]
    exact (issue_part ha ht' .token).mono fun x st' h => ⟨h.announced, fun _ => h.tells, h.others⟩
  · exact ⟨ha, ht, fun _ _ => rfl⟩

theorem Tracks.finished (h : Tracks rid ok s st) : Tracks rid ok (finished s) st := by
  obtain ⟨r, hr, hst⟩ := h.row
  refine { h with row := ⟨r, hr, fun hs => ?_⟩, complete := fun hs => ?_ }
  · simp [SessionCalls.finished, hst hs]
  show s.refundComponentsCompleteLocked = true
  simp only [SessionCalls.finished, Bool.or_eq_true] at hs
  exact hs.elim h.complete id

theorem finish_tracks (h : Tracks rid ok s st) (ha : Announced rid st) :
    (database cal).Ensures (Tracks rid ok) s.finishRefund st := by
  cases he : s.refundErr with
  | some f =>
    unfold finishRefund
    rw [he]
    exact h
  | none =>
    rw [finishRefund_eq h.recoveryID he]
    split
    · exact h.finished
    rename_i hc
    refine ask (fun v st' hx => ?_) fun e => { h.finished with }
    obtain ⟨r, hr, ⟨_, rfl⟩ | ⟨_, _, rfl⟩⟩ := markRefunded_ok (commitUnit_ok hx)
    · exact h.finished
    have hdone : (SessionCalls.finished s).refunded = true := by
      simp_all [SessionCalls.finished]
    exact { h.finished with row := ⟨_, setRecovery_self _ _ _, fun _ => hdone⟩ }

theorem afterMark_tracks (h : Tracks rid ok s st) (ha : Announced rid st) (hacts : acts s = true) :
    (database cal).Ensures (Tracks rid ok) (afterMark s none) st := by
  apply Ensures.bind (refundFunding_part h.recoveryID ha h.funding)
  intro x1 st1 h1
  apply Ensures.bind (refundExtra_part h.recoveryID h1.announced
    (h.extra.of_marks (h1.others .extra nofun)) x1.2)
  intro x2 st2 h2
  apply Ensures.bind (refundToken_part h.recoveryID h2.announced (fun hp =>
    ((h.token hp).of_marks (h1.others .token nofun)).of_marks (h2.others .token nofun)) x2.2)
  intro x3 st3 ⟨ha3, ht3, hothers3⟩
  obtain ⟨r, hr, hst⟩ := ha3
  refine finish_tracks ?_ ⟨r, hr, hst⟩
  refine { h with row := ⟨r, hr, fun hs => ?_⟩, funding := ?_, extra := ?_,
                  token := fun hp => ?_, complete := fun hs => ?_ }
  · rw [hst] at hs
    cases hs
  · exact (h1.tells.of_marks (h2.others .funding nofun)).of_marks (hothers3 .funding nofun)
  · exact h2.tells.of_marks (hothers3 .extra nofun)
  · have hpos : ¬ s.tokenConsumed ≤ 0 := not_le.mpr (acts_token hacts h.charged)
    have hflag : (s.relayInfo.isPlayground || decide (s.tokenConsumed ≤ 0) || x3.1) = x3.1 := by
      rw [hp, decide_eq_false hpos]
      rfl
    rw [hflag]
    exact ht3 hp
  · have hopen := acts_refunded hacts
    rw [hopen] at hs
    cases hs

/-- After a refund whose row could not be marked the funding counts as refunded. -/
def unannounced (s : BillingSession) (f : RefundFailure) : BillingSession :=
  { s with fundingRefunded := s.fundingRefunded || !s.fundingSettled, refundErr := some f
           tokenRefunded := s.relayInfo.isPlayground || s.tokenConsumed ≤ 0 || s.tokenRefunded }

theorem afterMark_failed (s : BillingSession) (f : RefundFailure) :
    afterMark s (some f) = return unannounced s f := by
  have hfund : s.refundFunding (some f) =
      return (s.fundingRefunded || !s.fundingSettled, some f) := by
    unfold refundFunding
    cases s.fundingRefunded <;> cases s.fundingSettled <;> rfl
  unfold afterMark
  rw [hfund]
  rfl

theorem mark_fails (h : (Call.exec cal (.markRefundPending rid) st).2 = .error e)
    (hr : st.recoveries rid = some r) : r.status = .settlementPending ∨ r.status = .settled := by
  have hx : (commitUnit st (markBillingRecoveryRefundPending rid st)).2 = .error e := h
  unfold markBillingRecoveryRefundPending at hx
  rw [recovery_ok.mpr hr] at hx
  change (commitUnit st (if r.status = .refunded then Except.ok st
    else if r.status ≠ .active ∧ r.status ≠ .refundPending then .error .stateConflict
    else .ok _)).2 = .error e at hx
  cases hs : r.status <;> simp_all [commitUnit]

/-- A refund that acts fails to mark its row and calls nothing more, or goes on with it marked. -/
theorem refund_cases (hid : s.recoveryID = some rid) (hacts : acts s = true) (faults : List Bool)
    (cal : Calendar) (st : Store) :
    ((faults.headD false = true ∨ ∀ r, st.recoveries rid = some r →
        r.status = .settlementPending ∨ r.status = .settled) ∧
      ∃ f, (database cal).alone s.refund faults st = (unannounced s f, st)) ∨
    (faults.headD false = false ∧
      ∃ st', Call.exec cal (.markRefundPending rid) st = (st', .ok ()) ∧
        (database cal).alone s.refund faults st =
          (database cal).alone (afterMark s none) faults.tail st') := by
  have hcall : s.refund = .call (.markRefundPending rid) fun
      | .ok () => afterMark s none
      | .error e => return unannounced s ⟨.markPending, e⟩ := by
    rw [acts_true hacts]
    unfold markPending
    rw [hid]
    show Program.call _ _ = _
    congr 1
    funext res
    cases res with
    | ok v => rfl
    | error e => exact afterMark_failed s _
  rw [hcall]
  cases hfault : faults.headD false with
  | true =>
    rw [alone_fault _ _ hfault rfl]
    exact .inl ⟨.inl rfl, _, rfl⟩
  | false =>
    rw [alone_call _ _ _ hfault]
    cases hx : (Call.exec cal (.markRefundPending rid) st).2 with
    | ok v =>
      refine .inr ⟨rfl, _, Prod.ext rfl hx, ?_⟩
      simp only [database, hx]
    | error e =>
      refine .inl ⟨.inr fun r hr => mark_fails hx hr, ⟨.markPending, e⟩, ?_⟩
      simp only [database, hx, exec_error cal _ st hx]
      rfl

theorem Tracks.unannounced (h : Tracks rid ok s st) (hacts : acts s = true)
    (hpaid : ok → s.fundingRefunded = false → s.fundingSettled = true) (f : RefundFailure) :
    Tracks rid ok (unannounced s f) st := by
  have hpos : ¬ s.tokenConsumed ≤ 0 := not_le.mpr (acts_token hacts h.charged)
  refine { h with funding := ⟨fun hm => ?_, fun hok hflag => ?_⟩, token := fun hp => ?_,
                  complete := fun hs => ?_ }
  · simp [RefundFlags.unannounced, h.funding.1 hm]
  · apply h.funding.2 hok
    by_contra hf
    simp [RefundFlags.unannounced, hf, hpaid hok (by simpa using hf)] at hflag
  · have hflag : (RefundFlags.unannounced s f).tokenRefunded = s.tokenRefunded := by
      change s.relayInfo.isPlayground = false at hp
      simp [RefundFlags.unannounced, hp, hpos]
    rw [hflag]
    exact h.token hp
  · change s.refunded = true at hs
    rw [acts_refunded hacts] at hs
    cases hs

theorem refund_tracks (h : Tracks rid ok s st) (hg : ok → Announces rid (s, st) ⟨.refund, faults⟩) :
    Tracks rid ok ((database cal).alone s.refund faults st).1
      ((database cal).alone s.refund faults st).2 := by
  cases hacts : acts s with
  | false =>
    rw [acts_false hacts]
    exact h
  | true =>
    rcases refund_cases h.recoveryID hacts faults cal st with ⟨hwhy, f, hrun⟩ | ⟨_, st1, hmark,
      hrun⟩
    · rw [hrun]
      refine h.unannounced hacts (fun hok hf => ?_) f
      by_contra hset
      obtain ⟨hfirst, r, hr, hne⟩ := hg hok hacts hf (by simpa using hset)
      rcases hwhy with hfail | hrow
      · cases hfirst.symm.trans hfail
      · exact (hrow r hr).elim hne.1 hne.2
    · rw [hrun]
      obtain ⟨r, hr, hclosed⟩ := h.row
      obtain ⟨r', hr', ⟨hst, _⟩ | ⟨_, rfl⟩⟩ := markRefundPending_ok (commitUnit_ok hmark)
      all_goals
        rw [hr] at hr'
        cases hr'
      · -- A closed row means a refunded session, and that one does not act.
        cases (acts_refunded hacts).symm.trans (hclosed hst)
      · refine alone_ensures (afterMark_tracks ?_ ⟨_, setRecovery_self _ _ _, rfl⟩ hacts) _
        exact { h with row := ⟨_, setRecovery_self _ _ _, nofun⟩ }

theorem attempt_tracks (h : Tracks rid ok x.1 x.2) (a : Attempt) (hg : ok → Announces rid x a) :
    Tracks rid ok (attempt cal x a).1 (attempt cal x a).2 := by
  obtain ⟨s, st⟩ := x
  obtain ⟨call, faults⟩ := a
  cases call with
  | reserve target =>
    refine alone_ensures (plain_tracks ((reserve_yields h.recoveryID target).mono (fun _ => id)
      fun _ hs => ReserveResult.keepsFlags hs) h) faults
  | settle actual =>
    refine alone_ensures (plain_tracks ((settle_yields h.recoveryID actual).mono (fun _ => id)
      fun _ hs => SettleResult.keepsFlags hs) h) faults
  | refund => exact refund_tracks h hg

theorem attempt_unsound (h : Tracks rid False x.1 x.2) (a : Attempt) (hg : ¬ Announces rid x a) :
    ¬ FlagsSound rid (attempt cal x a) := by
  obtain ⟨s, st⟩ := x
  obtain ⟨call, faults⟩ := a
  cases call with
  | reserve | settle => exact absurd trivial hg
  | refund =>
    simp only [Announces, Classical.not_imp] at hg
    obtain ⟨hacts, hf, hset, hbad⟩ := hg
    intro hsound
    rcases refund_cases h.recoveryID hacts faults cal st with ⟨_, f, hrun⟩ | ⟨hfirst, st1, hmark, _⟩
    · have hflag := hsound.funding
      change ((database cal).alone s.refund faults st).1.fundingRefunded = true →
        Marked rid .funding ((database cal).alone s.refund faults st).2 at hflag
      rw [hrun] at hflag
      have hmarked := h.funding.1 (hflag (by simp [unannounced, hset]))
      cases hf.symm.trans hmarked
    · obtain ⟨r, hr, hst⟩ := markRefundPending_ok (commitUnit_ok hmark)
      apply hbad
      refine ⟨hfirst, r, hr, ?_⟩
      rcases hst with ⟨hst, _⟩ | ⟨hst | hst, _⟩ <;> simp [hst]

end

theorem Opened.tracks (h : Opened info s0 s st) (ok : Prop) : Tracks info.rid ok s st := by
  have hnone (c : Component) : Tells info.rid ok c false st := by
    refine ⟨fun hm => ?_, nofun⟩
    simp [Marked, h.marks c] at hm
  obtain ⟨r, hr, _⟩ := h.row
  refine ⟨h.idle.recoveryID, ⟨r, hr, fun hs => ?_⟩, ?_, ?_, fun _ => ?_, fun hs => ?_,
    h.idle.inProgress, fun hsrc => ?_⟩
  · simp [(h.agrees r hr).status] at hs
  · rw [h.idle.fundingRefunded]
    exact hnone .funding
  · rw [h.idle.extraRefunded]
    exact hnone .extra
  · rw [h.idle.tokenRefunded]
    exact hnone .token
  · cases h.idle.refunded.symm.trans hs
  have ham := h.amounts
  unfold Amounts at ham
  cases hf : s.funding with
  | wallet =>
    rw [hf] at hsrc
    cases hsrc
  | subscription =>
    simp only [hf] at ham
    exact ham.2.2.1

/-- Whatever is called on a session and fails: its flags are sound after every call, and what
failed stays pending, exactly when every refund with the funding to return gets its row marked. -/
theorem refund_flags_sound_iff (info : RelayInfo) (hf : Fresh info.rid s0)
    (hrec : s0.records info.rid = none)
    (hnew : (database cal).alone (newBillingSession info quota now) faults s0 = (.ok s, st))
    (calls : List Attempt) :
    (∀ pre, pre <+: calls →
        FlagsSound info.rid (pre.foldl (attempt cal) (s, st)) ∧
          StaysPending info.rid (pre.foldl (attempt cal) (s, st))) ↔
      Along (attempt cal) (Announces info.rid) (s, st) calls := by
  have h : Opened info s0 s st := (newBillingSession_opens hf hrec).result hnew
  exact along_iff (A := fun _ _ => True) (J := fun x => Tracks info.rid False x.1 x.2)
    (K := fun x => Tracks info.rid True x.1 x.2)
    (P := fun x => FlagsSound info.rid x ∧ StaysPending info.rid x)
    (fun x a _ hx => attempt_tracks hx a False.elim)
    (fun x a _ hx hg => attempt_tracks hx a fun _ => hg)
    (fun x hx => ⟨hx.sound, fun hset c hdue => hx.acts_of_due hset hdue⟩)
    (fun x a _ hx hg hp => attempt_unsound hx a hg hp.1) (Opened.tracks h False)
    (Opened.tracks h True) calls (along_of_forall _ fun _ _ => trivial)

/-- A refund whose token part fails and is tried again. -/
theorem refund_flags_sound_after_retry :
    ∃ s st,
      (database sampleCalendar).alone (newBillingSession sampleRelay 10 0) [] sampleStore =
        (.ok s, st) ∧
      ∀ pre, pre <+: [⟨.refund, [false, false, true]⟩, ⟨.refund, []⟩] →
        FlagsSound sampleRequest (pre.foldl (attempt sampleCalendar) (s, st)) ∧
          StaysPending sampleRequest (pre.foldl (attempt sampleCalendar) (s, st)) := by
  obtain ⟨s, st, hnew, hall⟩ : ∃ s st, (database sampleCalendar).alone
      (newBillingSession sampleRelay 10 0) [] sampleStore = (.ok s, st) ∧
      Along (attempt sampleCalendar) (Announces sampleRequest) (s, st)
        [⟨.refund, [false, false, true]⟩, ⟨.refund, []⟩] := by
    refine ⟨_, _, rfl, fun _ _ _ => ⟨rfl, _, rfl, nofun, nofun⟩, fun _ hf => ?_, trivial⟩
    cases hf
  exact ⟨s, st, hnew, (refund_flags_sound_iff sampleRelay sampleStore_fresh rfl hnew _).mpr hall⟩

/-- The database fails once, while the row is marked. The flag is up, nothing is refunded, and the
next refund leaves the wallet ten short. -/
theorem failedMark_raises_the_flag :
    ∃ s st,
      (database sampleCalendar).alone (newBillingSession sampleRelay 10 0) [] sampleStore =
        (.ok s, st) ∧
      ¬ FlagsSound sampleRequest (attempt sampleCalendar (s, st) ⟨.refund, [true]⟩) ∧
      getUserQuota 1 (attempt sampleCalendar (attempt sampleCalendar (s, st) ⟨.refund, [true]⟩)
        ⟨.refund, []⟩).2 = 90 := by
  refine ⟨_, _, rfl, fun h => ?_, by decide⟩
  cases h.funding rfl

end Ren2Hub.Proofs.RefundFlags
