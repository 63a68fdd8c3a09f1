import Ren2Hub.Proofs.SubscriptionStates

namespace Ren2Hub.Proofs.SubscriptionCrash
open Lib Billing Ledger RecoverySpec CallSpec RequestBook Settlement Rebind SubscriptionSpec
  SessionCalls SubscriptionStates Machine BillingSession
open List (replicate)

/-- `starting` has no row yet, `before t` has charged `t` to the token, `stranded t` could not give
it back, `gaveUp` gave up without a charge. -/
inductive Stage where
  | starting
  | before (t : Int)
  | stranded (t : Int)
  | gaveUp
  | taken (p : Int)
  | live

/-- A stage, and whether the session saw its refund announced. -/
abbrev Phase := Stage × Bool

section
variable (cal : Calendar) (info : RelayInfo) (now : Int) (s0 : Store)

def Before (t : Int) (s : Store) : Prop :=
  Open info s0 t s ∨
    (t = 0 ∧ Untouched info s0 0 s ∧ refundMarked info.rid s = true)

def Stands : Stage → Store → Prop
  | .starting, s => Before info s0 0 s
  | .before t, s => Before info s0 t s ∧ (s.recoveries info.rid).isSome
  | .stranded t, s => Before info s0 t s ∨ Live cal info now s0 s
  | .gaveUp, s => Untouched info s0 0 s
  | .taken p, s => Taken cal info now s0 p s ∨
      (Live cal info now s0 s ∧ Closing info.rid s)
  | .live, s => Live cal info now s0 s

def Holds (φ : Phase) (s : Store) : Prop :=
  Stands cal info now s0 φ.1 s ∧ (φ.2 = true → Closing info.rid s)

/-- What every process guarantees: an announced refund stays announced. -/
def StaysClosing (s s' : Store) : Prop := Closing info.rid s → Closing info.rid s'

/-- The outline of a part of the session. -/
abbrev Outline {α : Type} (Post : α → Phase → Prop) (p : Process α) (φ : Phase) : Prop :=
  Follows (database cal) (TakesInTime info s0) (StaysClosing info)
    (Holds cal info now s0) Post p φ

end

section
variable {cal : Calendar} {info : RelayInfo} {now : Int} {s0 : Store}

theorem stays_closing (cal : Calendar) (info : RelayInfo) (call : Call) (s : Store)
    (hne : ∀ input, call ≠ .rebindRecovery input) :
    StaysClosing info s (Call.exec cal call s).1 :=
  closing_kept (exec_book cal info.rid call s) hne

theorem Before.untouched (h : Before info s0 0 s) : Untouched info s0 0 s := by
  rcases h with h | ⟨_, h, _⟩
  · exact h.toUntouched
  · exact h

theorem before_step (cal : Calendar) (call : Call) (s : Store) (hc : WorkerCall info.rid call)
    (hg : TakesInTime info s0 call s) (h : Before info s0 t s) :
    Before info s0 t (Call.exec cal call s).1 := by
  rcases h with h | ⟨rfl, h, hm⟩
  · have hun := untouched_step cal call s (WorkerCall.closing hc) h.toUntouched
    rcases open_step cal call s hc hg h with ho | ⟨rfl, hm⟩
    · exact .inl ho
    · exact .inr ⟨rfl, hun, hm⟩
  · exact .inr ⟨rfl, untouched_step cal call s (WorkerCall.closing hc) h,
      refundMarked_kept cal call hm⟩

theorem row_kept (h : BookStep rid record call b b') (hr : b.row.isSome) : b'.row.isSome := by
  cases h <;> first | exact hr | rfl

/-- A call of the worker keeps every stage. Its refunds come after it announced
them. -/
theorem stands_step (g : Stage) (call : Call) (s : Store)
    (hid : TokenNamed info) (hc : WorkerCall info.rid call)
    (hK : ∀ c, call = .applyAdjustment info.rid c .refund → Closing info.rid s)
    (hg : TakesInTime info s0 call s) (h : Stands cal info now s0 g s) :
    Stands cal info now s0 g (Call.exec cal call s).1 := by
  have hlive : Live cal info now s0 s → Live cal info now s0 (Call.exec cal call s).1 :=
    live_step cal call s (WorkerCall.sessionStep hc) hK
  cases g with
  | starting => exact before_step cal call s hc hg h
  | before =>
    exact ⟨before_step cal call s hc hg h.1, row_kept (exec_book cal info.rid call s) h.2⟩
  | stranded => exact h.imp (before_step cal call s hc hg) hlive
  | gaveUp => exact untouched_step cal call s (WorkerCall.closing hc) h
  | live => exact hlive h
  | taken =>
    rcases h with h | ⟨h, hcl⟩
    · exact taken_step cal call s hc hid hg h
    refine .inr ⟨hlive h, stays_closing cal info call s ?_ hcl⟩
    rintro input rfl
    cases hc

theorem WorkerCall.not_rebind (h : WorkerCall rid call) (input : BillingRecoveryInput) :
    call ≠ .rebindRecovery input := by
  rintro rfl
  cases h

theorem holds_step (hid : TokenNamed info) (hc : WorkerCall info.rid call)
    (hK : ∀ c, call = .applyAdjustment info.rid c .refund → Closing info.rid s)
    (hg : TakesInTime info s0 call s) (φ : Phase) (h : Holds cal info now s0 φ s) :
    Holds cal info now s0 φ (Call.exec cal call s).1 :=
  ⟨stands_step φ.1 call s hid hc hK hg h.1,
    fun hk => stays_closing cal info call s (WorkerCall.not_rebind hc) (h.2 hk)⟩

theorem markRefundPending_closing (h : markBillingRecoveryRefundPending rid s = .ok s') :
    Closing rid s' := by
  obtain ⟨r, hr, ⟨hst, rfl⟩ | ⟨_, rfl⟩⟩ := markRefundPending_ok h
  · exact ⟨r, hr, by simp [hst]⟩
  · exact ⟨_, setRecovery_self _ _ _, by simp⟩

/-- What a worker pass knows: nothing, or that the refund is announced. -/
def Knows (info : RelayInfo) (known : Bool) (s : Store) : Prop :=
  known = true → Closing info.rid s

/-- A worker guarantees to keep whatever stage the session is in. -/
abbrev Pass {α : Type} (cal : Calendar) (info : RelayInfo) (now : Int) (s0 : Store)
    (p : Process α) (known : Bool) : Prop :=
  Follows (database cal) (TakesInTime info s0)
    (fun s s' => StaysClosing info s s' ∧ ∀ φ, Holds cal info now s0 φ s →
      Holds cal info now s0 φ s')
    (Knows info) (fun _ _ => True) p known

theorem worker_keeps (cal : Calendar) (now : Int) (known : Bool)
    (hid : TokenNamed info) (hc : WorkerCall info.rid call)
    (hK : ∀ c, call = .applyAdjustment info.rid c .refund → known = true) :
    Keeps (database cal) (TakesInTime info s0)
      (fun s s' => StaysClosing info s s' ∧
        ∀ φ, Holds cal info now s0 φ s → Holds cal info now s0 φ s') (Knows info known) call := by
  intro s hs hg
  have hclose := stays_closing cal info call s (WorkerCall.not_rebind hc)
  exact ⟨fun hk => hclose (hs hk), hclose,
    fun φ h => holds_step hid hc (fun c he => hs (hK c he)) hg φ h⟩

section
variable (hid : TokenNamed info)
include hid

theorem pass_of_uses (hp : p.Uses fun c => WorkerCall info.rid c ∧
      ∀ k, c = .applyAdjustment info.rid k .refund → known = true) :
    Pass cal info now s0 p known := by
  refine Follows.mono (Follows.of_keeps (hp.mono fun c hc => ?_)) fun _ _ _ =>
    trivial
  exact worker_keeps cal now known hid hc.1 hc.2

theorem refund_pass (status : RecoveryStatus) :
    Pass cal info now s0 (recoverBillingRefund info.rid status) false := by
  obtain ⟨hmark, hrest⟩ := recoverBillingRefund_uses info.rid status
  refine ⟨fun s hs hg => ?_, fun r s hr hs => ?_⟩
  · obtain ⟨_, hG⟩ := worker_keeps cal now false hid hmark nofun s nofun hg
    cases hx : markBillingRecoveryRefundPending info.rid s with
    | error e =>
      have he : (database cal).exec (.markRefundPending info.rid) s = (s, .error e) := by
        simp [database, Call.exec, hx, commitUnit]
      rw [he] at hG ⊢
      exact ⟨false, nofun, hG, trivial⟩
    | ok s' =>
      have he : (database cal).exec (.markRefundPending info.rid) s = (s', .ok ()) := by
        simp [database, Call.exec, hx, commitUnit]
      rw [he] at hG ⊢
      refine ⟨true, fun _ => markRefundPending_closing hx, hG, ?_⟩
      exact pass_of_uses hid (Program.Uses.mono (hrest (.ok ())) fun c hc => ⟨hc, fun _ _ => rfl⟩)
  · cases hr
    exact ⟨false, nofun, trivial⟩

theorem worker_pass : Pass cal info now s0 (workerPass info.rid) false := by
  refine Follows.bind (Q := fun _ _ => True) ?_ fun _ _ _ => trivial
  refine Follows.keep (worker_keeps cal now false hid rfl nofun) fun x => ?_
  cases x with
  | error e => trivial
  | ok r =>
    simp only []
    split
    · refine pass_of_uses hid ((recoverBillingSettlement_uses _ _).mono fun c hc => ⟨hc.worker, ?_⟩)
      rintro k rfl
      cases hc
    · exact refund_pass hid _
    · exact refund_pass hid _
    · trivial

end

section
variable {Post : α → Phase → Prop}

theorem ask_outline (ψ : Phase) (hne : ∀ input, c ≠ .rebindRecovery input)
    (hok : ∀ s v s', Holds cal info now s0 φ s → TakesInTime info s0 c s →
      Call.exec cal c s = (s', .ok v) →
      ∃ φ', Holds cal info now s0 φ' s' ∧ Outline cal info now s0 Post (next (.ok v)) φ')
    (hless : ∀ s, Holds cal info now s0 φ s → Holds cal info now s0 ψ s)
    (herror : ∀ e, Outline cal info now s0 Post (next (.error e)) ψ) :
    Outline cal info now s0 Post (Program.call c .done >>= next) φ := by
  refine ⟨fun s hs hg => ?_, fun r s hr hs => ?_⟩
  · show ∃ φ', Holds cal info now s0 φ' (Call.exec cal c s).1 ∧
      StaysClosing info s (Call.exec cal c s).1 ∧
      Outline cal info now s0 Post (next (Call.exec cal c s).2) φ'
    have hclose := stays_closing cal info c s hne
    cases hx : (Call.exec cal c s).2 with
    | error e =>
      rw [exec_error cal c s hx]
      exact ⟨ψ, hless s hs, id, herror e⟩
    | ok v =>
      obtain ⟨φ', hφ', hn⟩ := hok s v _ hs hg (Prod.ext rfl hx)
      exact ⟨φ', hφ', hclose, hn⟩
  · cases hr
    exact ⟨ψ, hless s hs, herror .database⟩

theorem worker_outline (hid : TokenNamed info) (hc : WorkerCall info.rid c)
    (hK : ∀ k, c = .applyAdjustment info.rid k .refund → φ.2 = true)
    (hn : ∀ r, Outline cal info now s0 Post (next r) φ) :
    Outline cal info now s0 Post (Program.call c .done >>= next) φ := by
  refine ask_outline _ (WorkerCall.not_rebind hc) (fun s v s' hs hg hx => ⟨φ, ?_, hn _⟩)
    (fun _ => id) fun e => hn _
  have h := holds_step hid hc (fun k he => hs.2 (hK k he)) hg φ hs
  rw [hx] at h
  exact h

theorem find_outline (hok : ∀ r, r.source = .subscription →
      Outline cal info now s0 Post (next (.ok r)) (.before 0, false))
    (herror : ∀ e, Outline cal info now s0 Post (next (.error e)) (.starting, false)) :
    Outline cal info now s0 Post (Db.findRecovery info.rid >>= next) (.starting, false) := by
  refine ask_outline _ (by simp) (fun s r s' hs _ hx => ⟨(.before 0, false), ?_⟩)
    (fun _ => id) herror
  obtain ⟨rfl, hr⟩ := Prod.ext_iff.mp hx
  have hrow := recovery_ok.mp hr
  have hb : Before info s0 0 s := hs.1
  refine ⟨⟨⟨hb, ?_⟩, nofun⟩, hok r (hb.untouched.row.source r hrow)⟩
  show (s.recoveries info.rid).isSome
  rw [hrow]
  rfl

theorem create_outline (hin : SubscriptionInput info input)
    (hok : ∀ r, Outline cal info now s0 Post (next (.ok r)) (.before 0, false))
    (herror : ∀ e, Outline cal info now s0 Post (next (.error e)) (.starting, false)) :
    Outline cal info now s0 Post (Db.createRecovery input >>= next) (.starting, false) := by
  refine ask_outline _ (by simp) (fun s r s' hs _ hx => ⟨(.before 0, false), ?_, hok r⟩)
    (fun _ => id) herror
  obtain ⟨hr, _, rfl⟩ := create_ok (commit_ok hx)
  rw [hin.request] at hr ⊢
  refine ⟨⟨?_, by simp⟩, nofun⟩
  rcases hs.1 with ho | ⟨_, hu, hm⟩
  · exact .inl (ho.create hin hr)
  · -- A marker needs a row.
    simp [refundMarked, hu.fresh hr] at hm

theorem ensure_outline (hin : SubscriptionInput info input) :
    Outline cal info now s0 (fun x φ => ∀ r, x = .ok r → φ = (.before 0, false))
      (ensureBillingRecovery input) (.starting, false) := by
  have hsame : ∀ r, r.source = .subscription →
      Outline cal info now s0 (fun x φ => ∀ r, x = .ok r → φ = (.before 0, false))
        (reconcileBillingRecoveryInput r input) (.before 0, false) := by
    intro r hr
    unfold reconcileBillingRecoveryInput
    split
    · exact fun _ _ => rfl
    · rw [if_pos (hr.trans hin.source.symm)]
      exact fun _ _ => rfl
  unfold ensureBillingRecovery
  split
  · exact fun _ h => by cases h
  rw [hin.request]
  refine find_outline hsame fun e => ?_
  cases e with
  | recordNotFound =>
    refine create_outline hin (fun r => ?_) fun e => ?_
    · exact fun _ _ => rfl
    · exact find_outline hsame fun _ _ h => by cases h
  | _ => exact fun _ h => by cases h

theorem charge_outline (hid : TokenKnown info s0) (hq : 0 < quota) :
    Outline cal info now s0 (fun x φ => match x with
      | .ok _ => φ = (.before (share info quota), false)
      | .error _ => φ = (.before 0, false))
      (preConsumeTokenQuota info quota) (.before 0, false) := by
  unfold preConsumeTokenQuota
  rw [if_neg (by omega)]
  by_cases hplay : info.isPlayground = true
  · rw [if_pos hplay]
    have hz : share info quota = 0 := if_pos hplay
    rw [hz]
    rfl
  rw [if_neg hplay]
  have hshare : share info quota = quota := if_neg hplay
  obtain ⟨_, hexists⟩ := hid.resolve_left hplay
  refine ask_outline _ (by simp) (fun s b s' hs hg hx => ?_) (fun _ => id) fun e => rfl
  obtain ⟨_, ⟨rfl, rfl⟩ | ⟨_, hz, _⟩ | ⟨rfl, _, rfl⟩⟩ := tryReserveTokenQuota_ok (commit_ok hx)
  · exact ⟨_, hs, rfl⟩
  · omega
  obtain ⟨ho | ⟨_, _, hm⟩, hrow⟩ := hs.1
  · have hch := ho.charge hexists (-quota)
    rw [zero_sub, neg_neg] at hch
    refine ⟨(.before quota, false), ⟨⟨.inl hch, ?_⟩, nofun⟩, ?_⟩
    · rw [(updateToken_rows info.tokenId (-quota) s).recoveries]
      exact hrow
    · show (Stage.before quota, false) = (.before (share info quota), false)
      rw [hshare]
  · -- The guard: nothing of the row was refunded yet.
    have hno : refundMarked info.rid s = false := hg
    rw [hm] at hno
    cases hno

/-- A subscription session that has charged nothing to its source yet. -/
structure Starting (info : RelayInfo) (quota : Int) (s : BillingSession) : Prop where
  relay : s.relayInfo = info
  recovery : s.recoveryID = some info.rid
  funding : s.funding = .subscription quota 0 0
  extra : s.extraReserved = 0
  needs : s.recoveryNeedsRefund = false

theorem Starting.consumed (h : Starting info quota s) (n : Int) :
    Starting info quota { s with tokenConsumed := n } :=
  ⟨h.relay, h.recovery, h.funding, h.extra, h.needs⟩

theorem take_outline (hk : Keyed s0) (hs : Starting info quota s) (amount : Int) :
    Outline cal info now s0 (fun x φ => match x with
      | .ok funding => (∃ sub, funding = .subscription quota sub quota) ∧ φ = (.taken quota, false)
      | .error _ => φ = (.before (share info quota), false))
      (s.fundingPreConsume amount now) (.before (share info quota), false) := by
  unfold fundingPreConsume
  simp only [hs.funding, hs.relay]
  refine ask_outline _ (by simp) (fun s res s' hs hg hx => ?_) (fun _ => id) fun e => rfl
  obtain ⟨ho | ⟨_, _, hm⟩, hrow⟩ := hs.1
  · obtain ⟨r, hr⟩ := Option.isSome_iff_exists.mp hrow
    obtain ⟨hres, htaken⟩ := ho.take hk hr (commit_ok hx)
    refine ⟨(.taken quota, false), ⟨.inl htaken, nofun⟩, ⟨res.userSubscriptionId, ?_⟩, rfl⟩
    rw [hres]
  · have hno : refundMarked info.rid s = false := hg
    rw [hm] at hno
    cases hno

theorem strand_outline (hk : Keyed s0) (hid : 0 < info.tokenId) (ht : 0 < t)
    (hn : ∀ r, Outline cal info now s0 Post (next r) (.stranded t, false)) :
    Outline cal info now s0 Post (Db.updateAmounts info.rid sub 0 0 t >>= next)
      (.before t, false) := by
  refine ask_outline (.stranded t, false) (by simp)
    (fun s v s' hs hg hx => ⟨(.stranded t, false), ?_, hn _⟩)
    (fun s hs => ⟨.inl hs.1.1, nofun⟩) fun e => hn _
  have hb := exec_book cal info.rid (.updateAmounts info.rid sub 0 0 t) s
  rw [hx] at hb
  obtain ⟨_, _, _, r, hr, ha, rfl⟩ := updateAmounts_ok (commitUnit_ok hx)
  rcases hs.1.1 with ho | ⟨rfl, _⟩
  · exact ⟨.inr (ho.strand hk ht.le (.inl hid) hr rfl (ho.shaped.step hb trivial)), nofun⟩
  · omega

theorem rollback_outline (hk : Keyed s0) (hid : TokenKnown info s0) (hs : Starting info quota s)
    (hc : s.tokenConsumed = quota) (hq : 0 < quota) :
    Outline cal info now s0 (fun s' φ => s'.recoveryID = some info.rid ∧
        ((s'.recoveryNeedsRefund = false ∧ φ = (.before 0, false)) ∨
          (s'.recoveryNeedsRefund = true ∧ φ = (.stranded quota, false))))
      s.rollbackToken (.before (share info quota), false) := by
  obtain ⟨rfl, hr, hf, hx, hn⟩ := hs
  subst hc
  unfold rollbackToken
  by_cases hplay : s.relayInfo.isPlayground = true
  · rw [if_neg (by simp [hplay])]
    have hz : share s.relayInfo s.tokenConsumed = 0 := if_pos hplay
    rw [hz]
    exact ⟨hr, .inl ⟨hn, rfl⟩⟩
  · rw [if_pos (by simp [hplay, hq])]
    have hshare : share s.relayInfo s.tokenConsumed = s.tokenConsumed := if_neg hplay
    obtain ⟨hpos, hexists⟩ := hid.resolve_left hplay
    rw [hshare]
    refine ask_outline _ (by simp) (fun st v st' hs hg hx => ⟨(.before 0, false), ?_, ?_⟩)
      (fun _ => id) fun e => ?_
    · obtain ⟨_, rfl⟩ := quota_ok (commitUnit_ok hx)
      obtain ⟨ho | ⟨hz, _⟩, hrow⟩ := hs.1
      · have hback := ho.charge hexists s.tokenConsumed
        rw [sub_self] at hback
        refine ⟨⟨.inl hback, ?_⟩, nofun⟩
        rw [(updateToken_rows s.relayInfo.tokenId s.tokenConsumed st).recoveries]
        exact hrow
      · omega
    · exact ⟨hr, .inl ⟨hn, rfl⟩⟩
    · have hsync : ({ s with recoveryNeedsRefund := true } : BillingSession).syncRecovery =
          Db.updateAmounts s.relayInfo.rid 0 0 0 s.tokenConsumed := by
        simp [syncRecovery, hr, hf, hx, hplay]
      simp only [hsync]
      exact strand_outline hk hpos hq fun _ => ⟨hr, .inr ⟨rfl, rfl⟩⟩

/-- What `preConsume` leaves behind. -/
def PreConsumed (info : RelayInfo) (quota : Int) (x : Option APIError × BillingSession)
    (φ : Phase) :
    Prop :=
  x.2.recoveryID = some info.rid ∧
  ((x.1.isSome ∧ x.2.recoveryNeedsRefund = false ∧ φ = (.before 0, false)) ∨
    (x.1.isSome ∧ x.2.recoveryNeedsRefund = true ∧ φ = (.stranded quota, false)) ∨
    (x.1 = none ∧ φ = (.taken quota, false) ∧ x.2.tokenConsumed = quota ∧ x.2.extraReserved = 0 ∧
      x.2.relayInfo.isPlayground = info.isPlayground ∧
      ∃ sub, x.2.funding = .subscription quota sub quota))

theorem preConsumeApart_outline (hk : Keyed s0) (hid : TokenKnown info s0)
    (hs : Starting info quota s) (hq : 0 < quota) :
    Outline cal info now s0 (PreConsumed info quota) (s.preConsumeApart quota now)
      (.before 0, false) := by
  unfold preConsumeApart
  have hcharge : onlyIf (quota > 0) (preConsumeTokenQuota s.relayInfo quota) =
      preConsumeTokenQuota info quota := by
    simp [onlyIf, hq, hs.relay]
  have hs1 : (if quota > 0 then { s with tokenConsumed := quota } else s) =
      { s with tokenConsumed := quota } := if_pos hq
  simp only [hcharge, hs1]
  refine Follows.bind (charge_outline hid hq) fun x φ hφ => ?_
  cases x with
  | error e =>
    cases hφ
    exact ⟨hs.recovery, .inl ⟨rfl, hs.needs, rfl⟩⟩
  | ok _ =>
    cases hφ
    refine Follows.bind (take_outline hk (hs.consumed quota) quota) fun x φ hφ => ?_
    cases x with
    | error e =>
      cases hφ
      refine Follows.bind (rollback_outline hk hid (hs.consumed quota) rfl hq) fun s' φ hs' => ?_
      obtain ⟨hr', ⟨hn', rfl⟩ | ⟨hn', rfl⟩⟩ := hs'
      · exact ⟨hr', .inl ⟨rfl, hn', rfl⟩⟩
      · exact ⟨hr', .inr (.inl ⟨rfl, hn', rfl⟩)⟩
    | ok funding =>
      obtain ⟨⟨sub, rfl⟩, rfl⟩ := hφ
      refine ⟨hs.recovery, .inr (.inr ⟨rfl, rfl, rfl, hs.extra, ?_, sub, rfl⟩)⟩
      show s.relayInfo.isPlayground = info.isPlayground
      rw [hs.relay]

theorem preConsume_eq (hs : Starting info quota s) (now : Int) :
    s.preConsume quota now =
      preConsumeApart { s with trusted := false } quota now := by
  have htrust : s.shouldTrust = false := by
    unfold shouldTrust
    simp [hs.funding]
  unfold preConsume
  rw [htrust]
  dsimp only
  split
  · rename_i hf
    rw [hs.funding] at hf
    cases hf
  · rfl

theorem preConsume_outline (hk : Keyed s0) (hid : TokenKnown info s0) (hs : Starting info quota s)
    (hq : 0 < quota) :
    Outline cal info now s0 (PreConsumed info quota) (s.preConsume quota now)
      (.before 0, false) := by
  rw [preConsume_eq hs]
  exact preConsumeApart_outline hk hid ⟨hs.relay, hs.recovery, hs.funding, hs.extra, hs.needs⟩ hq

theorem recordFailure_outline (quota : Int) (hid : TokenNamed info)
    (hr : s.recoveryID = some info.rid)
    (h : (s.recoveryNeedsRefund = false ∧ φ = (.before 0, false)) ∨
      (s.recoveryNeedsRefund = true ∧ φ = (.stranded quota, false))) :
    Outline cal info now s0 (fun _ _ => True) (recordBillingPreConsumeFailure s) φ := by
  unfold recordBillingPreConsumeFailure
  simp only [hr]
  rcases h with ⟨hn, rfl⟩ | ⟨hn, rfl⟩
  · rw [hn]
    refine ask_outline (.gaveUp, false) (by simp)
      (fun s v s' hs hg hx => ⟨(.gaveUp, false), ?_, trivial⟩)
      (fun s hs => ⟨hs.1.1.untouched, nofun⟩) fun _ => trivial
    have hun := untouched_step cal (.abortPrepared info.rid) s rfl hs.1.1.untouched
    rw [hx] at hun
    exact ⟨hun, nofun⟩
  · rw [hn]
    exact worker_outline hid rfl nofun fun _ => trivial

theorem sync_outline (hid : TokenNamed info)
    (hok : Outline cal info now s0 Post (next (.ok ())) (.live, false))
    (herror : ∀ e, Outline cal info now s0 Post (next (.error e)) (.taken p, false)) :
    Outline cal info now s0 Post
      (Db.updateAmounts info.rid sub p 0 (share info p) >>= next) (.taken p, false) := by
  refine ask_outline _ (by simp) (fun s v s' hs hg hx => ⟨(.live, false), ?_, hok⟩) (fun _ => id)
    herror
  have hb := exec_book cal info.rid (.updateAmounts info.rid sub p 0 (share info p)) s
  rw [hx] at hb
  obtain ⟨_, _, _, r, hr, ha, rfl⟩ := updateAmounts_ok (commitUnit_ok hx)
  rcases hs.1 with ht | ⟨_, q, hq, hne⟩
  · obtain ⟨q, hq, hblank, _⟩ := ht.blank
    rw [hr] at hq
    cases hq
    have hshape := ht.shaped.step hb trivial
    exact ⟨ht.commit hid hr hblank rfl ⟨rfl, rfl, rfl⟩ rfl rfl rfl rfl hshape, nofun⟩
  · rw [hr] at hq
    cases hq
    exact absurd ha hne

theorem refund_outline {s : BillingSession} (hid : TokenNamed info)
    (hr : s.recoveryID = some info.rid) (g : Stage) (known : Bool) :
    Outline cal info now s0 (fun s' φ => s'.recoveryID = some info.rid ∧ φ.1 = g) s.refund
      (g, known) := by
  rw [refund_eq]
  split
  · exact ⟨hr, rfl⟩
  have hmark : Outline cal info now s0 (fun err φ => φ.1 = g ∧ (err = none → φ.2 = true))
      s.markPending (g, known) := by
    unfold markPending
    rw [hr]
    refine ask_outline _ (by simp) (fun s v s' hs hg hx => ⟨(g, true), ?_, rfl, fun _ => rfl⟩)
      (fun _ => id) fun e => ⟨rfl, nofun⟩
    have hstep := holds_step hid (show WorkerCall info.rid (.markRefundPending info.rid)
      from rfl) nofun hg (g, known) hs
    rw [hx] at hstep
    exact ⟨hstep.1, fun _ => markRefundPending_closing (commitUnit_ok hx)⟩
  refine Follows.bind hmark fun err φ hφ => ?_
  obtain ⟨rfl, hφ⟩ := hφ
  refine Follows.mono (Follows.of_keeps ((afterMark_yields hr err).mono
    (fun c hc => ?_) fun _ => id)) fun s' φ' h => ⟨h.1, by rw [h.2]⟩
  intro st hst hg
  exact ⟨holds_step hid hc.2 (fun _ _ => hst.2 (hφ hc.1)) hg φ hst,
    stays_closing cal info c st (WorkerCall.not_rebind hc.2)⟩

end

/-- What the creation of the session leaves behind. -/
def Created (info : RelayInfo) (x : Except APIError BillingSession) (φ : Phase) : Prop :=
  ∀ s, x = .ok s → s.recoveryID = some info.rid ∧ φ.1 = .live

theorem Created.error (e : APIError) (φ : Phase) : Created info (.error e) φ := by
  intro s h
  cases h

theorem start_outline {s : BillingSession} (hk : Keyed s0) (hid : TokenKnown info s0)
    (hs : Starting info quota s) (hq : 0 < quota)
    (hin : SubscriptionInput info (s.recoveryInput info.rid)) :
    Outline cal info now s0 (Created info) (s.start info.rid quota now) (.starting, false) := by
  refine Follows.bind (ensure_outline hin) fun x φ hφ => ?_
  cases x with
  | error e => exact Created.error _ _
  | ok r =>
    cases hφ r rfl
    refine Follows.bind (preConsume_outline hk hid hs hq) fun x φ hx => ?_
    obtain ⟨apiErr, s'⟩ := x
    obtain ⟨hr', hx⟩ := hx
    cases apiErr with
    | some e =>
      refine Follows.bind (recordFailure_outline quota (TokenKnown.positive hid) hr' ?_)
        fun _ φ _ => Created.error _ _
      rcases hx with ⟨_, hn, rfl⟩ | ⟨_, hn, rfl⟩ | ⟨hnone, _⟩
      · exact .inl ⟨hn, rfl⟩
      · exact .inr ⟨hn, rfl⟩
      · cases hnone
    | none =>
      obtain ⟨hsome, _⟩ | ⟨hsome, _⟩ | ⟨_, rfl, hc, hx, hp, sub, hf⟩ := hx
      · cases hsome
      · cases hsome
      simp only at hr' hc hx hp hf
      have hsync : s'.syncRecovery =
          Db.updateAmounts info.rid sub quota 0 (share info quota) := by
        simp [syncRecovery, hr', hf, hx, hp, hc, share]
      simp only [hsync]
      refine sync_outline (TokenKnown.positive hid) ?_ fun e => ?_
      · intro s h
        cases h
        exact ⟨hr', rfl⟩
      refine worker_outline (TokenKnown.positive hid) rfl nofun fun _ => ?_
      exact Follows.bind (refund_outline (TokenKnown.positive hid) hr' _ _)
        fun _ _ _ => Created.error _ _

theorem trySubscription_outline (hk : Keyed s0) (hid : TokenKnown info s0) (quota : Int) :
    Outline cal info now s0 (Created info) (trySubscription info quota now) (.starting, false) := by
  refine start_outline hk hid ⟨rfl, rfl, rfl, rfl, rfl⟩ ?_ ⟨rfl, rfl, rfl, rfl, rfl, ?_⟩
  · split <;> omega
  rcases TokenKnown.positive hid with hplay | hpos
  · simp [recoveryInput, hplay]
  · simp [recoveryInput, hpos]

theorem perform_outline {s : BillingSession} (hid : TokenNamed info)
    (hr : s.recoveryID = some info.rid) (c : SessionCall) (known : Bool) :
    Outline cal info now s0 (fun s' φ => s'.recoveryID = some info.rid ∧ φ.1 = .live)
      (s.perform c) (.live, known) := by
  have hkeep : ∀ call, PlainStep info.rid call → Keeps (database cal)
      (TakesInTime info s0) (StaysClosing info) (Holds cal info now s0 (.live, known)) call := by
    intro call hc st hst hg
    have hclose := stays_closing cal info call st (by
      rintro input rfl
      cases hc)
    refine ⟨⟨live_step cal call st hc.sessionStep (fun c he => ?_) hst.1, fun hk => ?_⟩, hclose⟩
    · exact absurd he (hc.not_refund c)
    · exact hclose (hst.2 hk)
  cases c with
  | reserve target =>
    refine Follows.bind (Follows.of_keeps ((reserve_yields hr target).mono hkeep
      fun _ => id)) fun x φ hx => ?_
    exact ⟨hx.1.recoveryID.trans hr, by rw [hx.2]⟩
  | settle actual =>
    refine Follows.bind (Follows.of_keeps ((settle_yields hr actual).mono hkeep
      fun _ => id)) fun x φ hx => ?_
    exact ⟨hx.1.recoveryID.trans hr, by rw [hx.2]⟩
  | refund => exact refund_outline hid hr .live known

theorem performAll_outline {s : BillingSession} (hid : TokenNamed info)
    (hr : s.recoveryID = some info.rid) (calls : List SessionCall) (known : Bool) :
    Outline cal info now s0 (fun _ _ => True) (s.performAll calls) (.live, known) := by
  induction calls generalizing s known with
  | nil => trivial
  | cons c calls ih =>
    refine Follows.bind (perform_outline hid hr c known) fun s' φ hs' => ?_
    obtain ⟨hr', hlive⟩ := hs'
    obtain ⟨g, k⟩ := φ
    cases hlive
    exact ih hr' k

theorem sessionLife_outline (hk : Keyed s0) (hid : TokenKnown info s0) (quota : Int)
    (calls : List SessionCall) :
    Outline cal info now s0 (fun _ _ => True)
      (sessionLife (trySubscription info quota now) calls) (.starting, false) := by
  refine Follows.bind (trySubscription_outline hk hid quota) fun x φ hx => ?_
  cases x with
  | error e => trivial
  | ok s =>
    obtain ⟨hr, hlive⟩ := hx s rfl
    obtain ⟨g, k⟩ := φ
    cases hlive
    exact Follows.bind (performAll_outline (TokenKnown.positive hid) hr calls k)
      fun _ _ _ => trivial

end

/-- The token has back what it gave, the record is refunded, and every subscription has used what it
had used before, give or take a reset that was due. -/
structure GivenBack (cal : Calendar) (info : RelayInfo) (now : Int) (s0 s : Store) : Prop where
  token : tokenTotal s info.tokenId = tokenTotal s0 info.tokenId
  used : usedTotal s info.tokenId = usedTotal s0 info.tokenId
  stored : s0.tokenPending info.tokenId = 0 →
    remainQuota info.tokenId s = remainQuota info.tokenId s0 ∧
    usedQuota info.tokenId s = usedQuota info.tokenId s0
  record : ∀ record, s.records info.rid = some record → record.status = .refunded
  subscription : ∀ k, Baseline cal now s0 k (usedAmount s k)

section
variable {cal : Calendar} {info : RelayInfo} {now : Int} {s0 : Store}

theorem GivenBack.of_shift (h : Shift s0 s 0 (point info.tokenId 0))
    (hrec : ∀ record, s.records info.rid = some record → record.status = .refunded)
    (hsub : ∀ k, Baseline cal now s0 k (usedAmount s k)) : GivenBack cal info now s0 s := by
  have ht := h.token info.tokenId
  have hu := h.used info.tokenId
  simp only [point_self, add_zero, sub_zero] at ht hu
  refine ⟨ht, hu, fun hz => ?_, hrec, hsub⟩
  have hz' := h.tokenQueue _ hz
  simp only [tokenTotal, usedTotal, hz, hz'] at ht hu
  omega

theorem Untouched.givenBack (h : Untouched info s0 0 s) : GivenBack cal info now s0 s := by
  refine .of_shift (by simpa using h.token) (fun record hrec => ?_) fun k => ?_
  · rw [h.record] at hrec
    cases hrec
  · exact .inl (usedAmount_same h.subscriptions k)

theorem Live.givenBack (h : Live cal info now s0 s) (hr : s.recoveries info.rid = some r)
    (hst : r.status = .refunded) : GivenBack cal info now s0 s := by
  obtain ⟨q, hq, hp, hx, ht⟩ := h.stored
  rw [hr] at hq
  cases hq
  have hu : Unsettled r := .inr (.inr hst)
  have hfd := h.funded r hr hu
  obtain ⟨hfun, hextra, htok⟩ := (h.refund.cleanStart h.settle).whole r hr hp hst
  have hset := h.settle.unmarked hr hu .token
  -- A positive amount has its marker; a zero amount may have one or not.
  have mark : ∀ c a, 0 ≤ r.adjustmentAmount c .refund →
      (0 < r.adjustmentAmount c .refund →
        (book info.rid s).marks c .refund = some (r.adjustmentAmount c .refund)) →
      a = ((book info.rid s).marks c .refund).getD 0 → a = r.adjustmentAmount c .refund := by
    intro c a h0 hpos ha
    rcases h0.eq_or_lt with hz | hlt
    · cases hm : (book info.rid s).marks c .refund with
      | none => simpa [hm, ← hz] using ha
      | some d =>
        rw [hm] at ha
        rw [ha]
        exact (h.refund.marked r c d hr hm).2.2
    · rw [ha, hpos hlt]
      rfl
  have htok' := mark .token _ ht htok rfl
  have hextra' := mark .extra _ hx hextra rfl
  refine .of_shift ?_ ?_ ?_
  · have hmoved : tokenMoved info (book info.rid s) = 0 := by
      have hrow : (book info.rid s).row = some r := hr
      simp only [tokenMoved, tokenDue, hrow, hset, htok', Option.elim_some, Option.getD_none]
      split
      · exact by simp [BillingRecovery.adjustmentAmount]
      · rfl
    rw [← hmoved]
    exact h.token
  · intro record hrec
    rcases hfd.record with ⟨hnone, _⟩ | ⟨q, hq, _, _, _, hiff⟩
    · rw [hnone] at hrec
      cases hrec
    rw [hq] at hrec
    cases hrec
    refine hiff.mpr ?_
    rw [show s.adjustments info.rid .funding .refund = _ from hfun]
    rfl
  · have hrh : recordHeld (s.records info.rid) = 0 := by
      rcases hfd.record with ⟨hnone, _⟩ | ⟨q, hq, _, _, _, hiff⟩
      · rw [hnone]
        rfl
      have hst' : q.status = .refunded := by
        refine hiff.mpr ?_
        rw [show s.adjustments info.rid .funding .refund = _ from hfun]
        rfl
      simp [hq, recordHeld, hst']
    have hxh : extraHeld r (book info.rid s) = 0 := by
      simp [extraHeld, hextra', BillingRecovery.adjustmentAmount]
    have hused := hfd.used
    rw [hrh, hxh, add_zero] at hused
    exact hused.none

theorem Holds.givenBack (h : Holds cal info now s0 φ s) (hr : s.recoveries info.rid = some r)
    (hst : r.status = .refunded) : GivenBack cal info now s0 s := by
  have hbefore : ∀ t, Before info s0 t s → GivenBack cal info now s0 s := by
    rintro t (ho | ⟨rfl, hu, _⟩)
    · exact absurd hst (ho.alive r hr)
    · exact Untouched.givenBack hu
  obtain ⟨g, k⟩ := φ
  cases g with
  | starting => exact hbefore 0 h.1
  | before t => exact hbefore t h.1.1
  | stranded t =>
    rcases h.1 with hb | hl
    · exact hbefore t hb
    · exact Live.givenBack hl hr hst
  | gaveUp => exact Untouched.givenBack h.1
  | live => exact Live.givenBack h.1 hr hst
  | taken =>
    rcases h.1 with ht | ⟨hl, _⟩
    · obtain ⟨q, hq, _, hne⟩ := ht.blank
      rw [hr] at hq
      cases hq
      exact absurd hst hne
    · exact Live.givenBack hl hr hst

theorem fresh_open (h : Fresh info.rid s) (hrec : s.records info.rid = none) :
    Open info s 0 s := by
  have hrow : (book info.rid s).row = none := h.1
  refine ⟨⟨?_, (fresh_settle h).1, fun _ => h.2, ?_, hrec, rfl, rfl, ?_⟩, fresh_refund h, ?_⟩
  · refine ⟨?_, ?_, ?_⟩ <;> intro r hr <;> rw [hrow] at hr <;> cases hr
  · intro r hr
    rw [h.1] at hr
    cases hr
  · rw [neg_zero, point_zero]
    exact .refl s
  intro r hr
  rw [h.1] at hr
  cases hr

end

/-- A subscription request that takes its quota in time is crash safe: whenever its row is found
refunded, wherever the session stopped and however many worker passes ran, it left nothing behind.
-/
theorem refunded_subscription_given_back (cal : Calendar) (info : RelayInfo) (quota now : Int)
    (calls : List SessionCall) (n : Nat) (s0 : Store) (sched : List Choice)
    (hfresh : Fresh info.rid s0) (hrec : s0.records info.rid = none)
    (hkeyed : Keyed s0) (htok : TokenKnown info s0)
    (hg : (database cal).Meets (TakesInTime info s0) sched
      ⟨s0, sessionLife (trySubscription info quota now) calls ::
        replicate n (workerPass info.rid)⟩) :
    ∀ pre, pre <+: sched → ∀ r,
      ((database cal).run ⟨s0, sessionLife (trySubscription info quota now) calls ::
        replicate n (workerPass info.rid)⟩ pre).state.recoveries info.rid =
          some r →
      r.status = .refunded →
      GivenBack cal info now s0
        ((database cal).run ⟨s0, sessionLife (trySubscription info quota now) calls ::
          replicate n (workerPass info.rid)⟩ pre).state := by
  intro pre hpre r hr hst
  have hstable : ∀ known s s', StaysClosing info s s' → Knows info known s → Knows info known s' :=
    fun known s s' hs hk hkn => hs (hk hkn)
  have hsession : Outline cal info now s0 (fun _ _ => True)
      (sessionLife (trySubscription info quota now) calls) (.starting, false) :=
    sessionLife_outline hkeyed htok quota calls
  have hworkers : ∀ q ∈ replicate n (workerPass info.rid), ∃ known,
      Knows info known s0 ∧ Pass cal info now s0 q known := by
    intro q hq
    rw [List.eq_of_mem_replicate hq]
    exact ⟨false, nofun, worker_pass (TokenKnown.positive htok)⟩
  obtain ⟨φ, hφ⟩ := run_follows hstable hsession hworkers (hg.of_prefix hpre)
    ⟨.inl (fresh_open hfresh hrec), nofun⟩
  exact hφ.givenBack hr hst

def subscribedStore : Store :=
  { sampleStore with
    subscriptions := fun k => if k = 1 then some
      { id := 1, userId := 1, planId := 1, amountTotal := 100, startTime := 0, endTime := 1000 }
      else none
    subscriptionIDs := [1]
    plans := fun k => if k = 1 then some {} else none }

theorem subscribedStore_keyed : Keyed subscribedStore := by
  constructor <;> intro k sub h <;> simp only [subscribedStore] at h <;> split at h <;> cases h
  · symm
    assumption
  · exact le_refl 0

/-- The session dies right after the subscription was charged; the worker finds
the record. -/
theorem refunded_subscription_given_back_from_record :
    Fresh sampleRequest subscribedStore ∧
    (((database sampleCalendar).run
      ⟨subscribedStore, sessionLife (trySubscription sampleRelay 10 0) [] ::
        replicate 1 (workerPass sampleRequest)⟩
      (replicate 4 (.go 0) ++ replicate 9 (.go 1))).state.recoveries sampleRequest).map
        BillingRecovery.status = some .refunded ∧
    GivenBack sampleCalendar sampleRelay 0 subscribedStore
      ((database sampleCalendar).run
        ⟨subscribedStore, sessionLife (trySubscription sampleRelay 10 0) [] ::
          replicate 1 (workerPass sampleRequest)⟩
        (replicate 4 (.go 0) ++ replicate 9 (.go 1))).state := by
  have hfresh : Fresh sampleRequest subscribedStore := ⟨rfl, fun _ _ => rfl⟩
  refine ⟨hfresh, by decide, ?_⟩
  exact refunded_subscription_given_back sampleCalendar sampleRelay 10 0 [] 1 subscribedStore
    (replicate 4 (.go 0) ++ replicate 9 (.go 1)) hfresh rfl subscribedStore_keyed
    (.inr ⟨by decide, by decide⟩) (by decide) _ (List.prefix_refl _) _ rfl (by decide)

/-- The session dies between its two charges; the worker sees an empty row. -/
def diedBetweenCharges : Store :=
  ((database sampleCalendar).run
    ⟨subscribedStore, [sessionLife (trySubscription sampleRelay 10 0) [], workerPass sampleRequest]⟩
    (replicate 3 (.go 0) ++ replicate 8 (.go 1))).state

/-- The row is refunded, the ten of the token are gone. -/
theorem diedBetweenCharges_keeps_the_token :
    (diedBetweenCharges.recoveries sampleRequest).map BillingRecovery.status = some .refunded ∧
    diedBetweenCharges.tokens 1 = some { remainQuota := 90, usedQuota := 10 } ∧
    ¬ GivenBack sampleCalendar sampleRelay 0 subscribedStore diedBetweenCharges := by
  refine ⟨by decide, by decide, fun h => ?_⟩
  have ht := h.token
  exact absurd ht (by decide)

end Ren2Hub.Proofs.SubscriptionCrash
