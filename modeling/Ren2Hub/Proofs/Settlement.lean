import Ren2Hub.Proofs.RequestBook

namespace Ren2Hub.Proofs.Settlement
open Lib Billing Ledger RecoverySpec RequestBook

/-- How settle markers and the row go together, whatever amounts are written. -/
structure SettleShape (b : Book) : Prop where
  fresh : ∀ c, b.row = none → b.marks c .settle = none
  late : ∀ r c a, b.row = some r → b.marks c .settle = some a →
    r.status = .settlementPending ∨ r.status = .settled
  funding : ∀ r, b.row = some r → r.fundingSettlement = .completed →
    (b.marks .funding .settle).isSome
  token : ∀ r, b.row = some r → r.tokenSettlement = .completed → (b.marks .token .settle).isSome
  closed : ∀ r, b.row = some r → r.status = .settled →
    r.fundingSettlement = .completed ∧ r.tokenSettlement = .completed

/-- Every settle marker carries the delta of the row, and a settled row has
adjusted funding and token by it. -/
structure OneAmount (b : Book) : Prop where
  marked : ∀ r c a, b.row = some r → b.marks c .settle = some a → a = r.settlementDelta
  settled : ∀ r, b.row = some r → r.status = .settled →
    b.marks .funding .settle = some r.settlementDelta ∧
    b.marks .token .settle = some r.settlementDelta

/-- A settlement written over a settled component repeats the amount of the row. -/
def RepeatsAmount (rid : RequestID) (call : Call) (b : Book) : Prop :=
  ∀ delta r c a, call = .writeSettlement rid delta → b.row = some r →
    r.status = .settlementPending → b.marks c .settle = some a → delta = r.settlementDelta

/-- The states outside settlement. -/
def Unsettled (r : BillingRecovery) : Prop :=
  r.status = .active ∨ r.status = .refundPending ∨ r.status = .refunded

section
variable (h : SettleShape b)
include h

theorem SettleShape.unmarked (hr : b.row = some r) (hu : Unsettled r)
    (c : Component) : b.marks c .settle = none := by
  cases hm : b.marks c .settle with
  | none => rfl
  | some a =>
    rcases h.late r c a hr hm with hs | hs <;> rcases hu with h | h | h <;>
      exact absurd (h.symm.trans hs) (by simp)

theorem SettleShape.early (hr : b.row = some r) (hu : Unsettled r)
    (hm : ∀ c, b'.marks c .settle = b.marks c .settle) (hr' : b'.row = some r')
    (hf : r'.fundingSettlement = r.fundingSettlement)
    (ht : r'.tokenSettlement = r.tokenSettlement) (hs' : r'.status ≠ .settled) :
    SettleShape b' ∧ OneAmount b' := by
  have hnone : ∀ c, b'.marks c .settle = none := fun c => by rw [hm, h.unmarked hr hu]
  refine ⟨⟨fun c _ => hnone c, ?_, ?_, ?_, ?_⟩, ⟨?_, ?_⟩⟩
  · intro q c a _ ha
    rw [hnone] at ha
    cases ha
  · intro q hq hc
    rw [hr'] at hq
    cases hq
    rw [hm]
    exact h.funding r hr (by rw [← hf]; exact hc)
  · intro q hq hc
    rw [hr'] at hq
    cases hq
    rw [hm]
    exact h.token r hr (by rw [← ht]; exact hc)
  · intro q hq hc
    rw [hr'] at hq
    cases hq
    exact absurd hc hs'
  · intro q c a _ ha
    rw [hnone] at ha
    cases ha
  · intro q hq hc
    rw [hr'] at hq
    cases hq
    exact absurd hc hs'

theorem SettleShape.fresh_row (hr : b.row = none) (r : BillingRecovery)
    (hp : r.fundingSettlement = .pending) (ht : r.tokenSettlement = .pending)
    (hs : r.status ≠ .settled) : SettleShape (b.write r) ∧ OneAmount (b.write r) := by
  have hnone : ∀ c, b.marks c .settle = none := fun c => h.fresh c hr
  refine ⟨⟨fun c _ => hnone c, ?_, ?_, ?_, ?_⟩, ⟨?_, ?_⟩⟩ <;> simp [hnone, hp, ht, hs]

omit h in
theorem settleAmount (r : BillingRecovery) (hc : c = .funding ∨ c = .token) :
    r.adjustmentAmount c .settle = r.settlementDelta := by
  rcases hc with rfl | rfl <;> rfl

theorem SettleShape.adjust (hr : b.row = some r)
    (ha : r.status = .settlementPending) (hc : c = .funding ∨ c = .token) :
    SettleShape ((b.mark c .settle r.settlementDelta).write (r.complete c .settle)) ∧
      (OneAmount b →
        OneAmount ((b.mark c .settle r.settlementDelta).write (r.complete c .settle))) := by
  have hst : (r.complete c .settle).status = .settlementPending := by
    rcases hc with rfl | rfl <;> exact ha
  have hdelta : (r.complete c .settle).settlementDelta = r.settlementDelta := by
    rcases hc with rfl | rfl <;> rfl
  have hfun : (r.complete c .settle).fundingSettlement = .completed →
      c = .funding ∨ r.fundingSettlement = .completed := by
    rcases hc with rfl | rfl <;> simp [BillingRecovery.complete]
  have htok : (r.complete c .settle).tokenSettlement = .completed →
      c = .token ∨ r.tokenSettlement = .completed := by
    rcases hc with rfl | rfl <;> simp [BillingRecovery.complete]
  refine ⟨⟨?_, ?_, ?_, ?_, ?_⟩, fun ho => ⟨?_, ?_⟩⟩
  · intro k hk
    simp at hk
  · intro q k a hq _
    cases hq
    exact .inl hst
  · intro q hq hq'
    cases hq
    rcases hfun hq' with rfl | hf
    · simp
    simp only [Book.write_marks, Book.mark_marks]
    split
    · rfl
    · exact h.funding r hr hf
  · intro q hq hq'
    cases hq
    rcases htok hq' with rfl | hf
    · simp
    simp only [Book.write_marks, Book.mark_marks]
    split
    · rfl
    · exact h.token r hr hf
  · intro q hq hq'
    cases hq
    rw [hst] at hq'
    cases hq'
  · intro q k a hq hk
    cases hq
    rw [hdelta]
    simp only [Book.write_marks, Book.mark_marks, and_true] at hk
    split at hk
    · cases hk
      rfl
    · exact ho.marked r k a hr hk
  · intro q hq hq'
    cases hq
    rw [hst] at hq'
    cases hq'

theorem SettleShape.rewrite (hr : b.row = some r)
    (ha : r.status = .active ∨ r.status = .settlementPending) :
    SettleShape (b.write { r with settlementDelta := delta, status := .settlementPending }) ∧
      (OneAmount b → RepeatsAmount rid (.writeSettlement rid delta) b →
        OneAmount (b.write { r with settlementDelta := delta, status := .settlementPending })) := by
  refine ⟨⟨?_, ?_, ?_, ?_, ?_⟩, fun ho hg => ⟨?_, ?_⟩⟩
  · intro c hn
    cases hn
  · intro q c a hq _
    cases hq
    exact .inl rfl
  · intro q hq hc
    cases hq
    exact h.funding r hr hc
  · intro q hq hc
    cases hq
    exact h.token r hr hc
  · intro q hq hc
    cases hq
    cases hc
  · intro q c a hq hm
    cases hq
    rcases ha with ha | ha
    · rw [Book.write_marks, h.unmarked hr (.inl ha)] at hm
      cases hm
    · rw [ho.marked r c a hr hm]
      exact (hg delta r c a rfl hr ha hm).symm
  · intro q hq hc
    cases hq
    cases hc

theorem SettleShape.close (hr : b.row = some r)
    (hf : r.fundingSettlement = .completed) (ht : r.tokenSettlement = .completed) :
    SettleShape (b.write { r with status := .settled }) ∧
      (OneAmount b → RepeatsAmount rid (.markSettled rid) b →
        OneAmount (b.write { r with status := .settled })) := by
  refine ⟨⟨?_, ?_, ?_, ?_, ?_⟩, fun ho _ => ⟨?_, ?_⟩⟩
  · intro c hn
    cases hn
  · intro q c a hq _
    cases hq
    exact .inr rfl
  · intro q hq hc
    cases hq
    exact h.funding r hr hc
  · intro q hq hc
    cases hq
    exact h.token r hr hc
  · intro q hq _
    cases hq
    exact ⟨hf, ht⟩
  · intro q c a hq hm
    cases hq
    exact ho.marked r c a hr hm
  intro q hq _
  cases hq
  obtain ⟨a, hma⟩ := Option.isSome_iff_exists.mp (h.funding r hr hf)
  obtain ⟨d, hmd⟩ := Option.isSome_iff_exists.mp (h.token r hr ht)
  simp only [Book.write_marks, hma, hmd, Option.some.injEq]
  exact ⟨ho.marked r _ a hr hma, ho.marked r _ d hr hmd⟩

end

/-- One call keeps the shape, and the single amount unless it settles anew over a settled component.
-/
theorem step_settle (h : BookStep rid record call b b') (hs : SettleShape b) :
    SettleShape b' ∧ (OneAmount b → RepeatsAmount rid call b → OneAmount b') := by
  -- Everything but the settlement itself happens before the first settle marker.
  have early : ∀ r r', b.row = some r → Unsettled r →
      (∀ c, b'.marks c .settle = b.marks c .settle) → b'.row = some r' →
      r'.fundingSettlement = r.fundingSettlement → r'.tokenSettlement = r.tokenSettlement →
      r'.status ≠ .settled →
      SettleShape b' ∧ (OneAmount b → RepeatsAmount rid call b → OneAmount b') := by
    intro r r' hr hu hm hr' hf ht hn
    obtain ⟨h1, h2⟩ := hs.early hr hu hm hr' hf ht hn
    exact ⟨h1, fun _ _ => h2⟩
  cases h with
  | same => exact ⟨hs, fun ho _ => ho⟩
  | create _ hr =>
    obtain ⟨h1, h2⟩ := hs.fresh_row hr (BillingRecoveryInput.row _) rfl rfl
      (by simp [BillingRecoveryInput.row])
    exact ⟨h1, fun _ _ => h2⟩
  | rebind _ hr _ hre =>
    simp only [billingRecoveryIsReusable, decide_eq_true_eq] at hre
    exact early _ _ hr (.inr (.inr hre.1)) (fun _ => rfl) rfl rfl rfl (by simp)
  | abort hr ha => exact early _ _ hr (.inl ha) (fun _ => rfl) rfl rfl rfl (by simp)
  | amounts hr ha => exact early _ _ hr (.inl ha) (fun _ => rfl) rfl rfl rfl (by simp [ha])
  | refundPending hr ha =>
    obtain ⟨_, _, _, _, he⟩ := withRecord_eq _ record
    exact early _ _ hr (ha.imp_right .inl) (fun _ => rfl) rfl (by rw [he]) (by rw [he]) (by simp)
  | refunded hr ha => exact early _ _ hr (.inr (.inl ha)) (fun _ => rfl) rfl rfl rfl (by simp)
  | charge hr _ ha =>
    exact early _ _ hr (.inl ha) (fun _ => rfl) rfl rfl rfl (by simp [BillingRecovery.charged, ha])
  | extend hr ha =>
    obtain ⟨_, _, _, he⟩ := extend_eq _ _
    exact early _ _ hr (.inl ha) (fun _ => by simp) rfl (by rw [he]) (by rw [he])
      (by rw [he]; simp [ha])
  | settlement hr ha => exact hs.rewrite hr ha
  | settled hr _ hf ht => exact hs.close hr hf ht
  | adjust hr _ ha =>
    rcases ha with ⟨rfl, hc, hst⟩ | ⟨rfl, hc, hst⟩
    · obtain ⟨h1, h2⟩ := hs.adjust hr hst hc
      rw [settleAmount _ hc]
      exact ⟨h1, fun ho _ => h2 ho⟩
    obtain ⟨_, _, _, he⟩ := complete_refund_eq _ _
    exact early _ _ hr (hst.imp_right .inl) (fun _ => by simp) rfl (by rw [he]) (by rw [he])
      (by rw [he]; rcases hst with h | h <;> simp [h])

theorem write_settlement_book (cal : Calendar) (hr : s.recoveries rid = some r)
    (ha : r.status = .settlementPending) :
    book rid (Call.exec cal (.writeSettlement rid delta) s).1 = (book rid s).write
      { r with settlementDelta := delta, status := .settlementPending } := by
  have he : (Call.exec cal (.writeSettlement rid delta) s).1 = s.setRecovery rid
      { r with settlementDelta := delta, status := .settlementPending } := by
    simp [Call.exec, commit, writeBillingRecoverySettlement, hr, ha]
  rw [he, book_write rfl]

theorem exec_oneAmount_iff (cal : Calendar) (call : Call) (s : Store)
    (hs : SettleShape (book rid s)) (ho : OneAmount (book rid s)) :
    OneAmount (book rid (Call.exec cal call s).1) ↔ RepeatsAmount rid call (book rid s) := by
  constructor
  · rintro ho' delta r c a rfl hr ha hm
    rw [write_settlement_book cal hr ha] at ho'
    have hnew : a = delta := ho'.marked _ c a rfl hm
    rw [← hnew]
    exact ho.marked r c a hr hm
  · intro hg
    exact (step_settle (exec_book cal rid call s) hs).2 ho hg

theorem fresh_settle (h : Fresh rid s) : SettleShape (book rid s) ∧ OneAmount (book rid s) := by
  obtain ⟨hr, hm⟩ := h
  refine ⟨⟨?_, ?_, ?_, ?_, ?_⟩, ⟨?_, ?_⟩⟩ <;> simp [book, hr, hm]

/-- In a run that starts before the request, whatever takes part and wherever it fails or stops,
all settle markers agree with the row exactly if no settlement is rewritten with another amount
after a component was settled. -/
theorem settle_markers_agree_iff (cal : Calendar) (rid : RequestID) (pool : List (Process Unit))
    (s : Store) (sched : List Choice) (hs : Fresh rid s) :
    (∀ pre, pre <+: sched → OneAmount (book rid ((database cal).run ⟨s, pool⟩ pre).state)) ↔
      (database cal).Meets (fun c s => RepeatsAmount rid c (book rid s)) sched ⟨s, pool⟩ := by
  obtain ⟨hshape, hone⟩ := fresh_settle hs
  exact Machine.run_exact (I := fun s => OneAmount (book rid s))
    (J := fun s => SettleShape (book rid s)) (P := fun _ => True)
    (fun c s _ hj => (step_settle (exec_book cal rid c s) hj).1)
    (fun c s _ hj hi => exec_oneAmount_iff cal c s hj hi)
    (fun p _ => p.uses_any) hshape hone

/-- A session settles 15 over its reserve of 10, loses the token adjustment, and settles 20. -/
def settledTwice : Store :=
  ((database sampleCalendar).run
    ⟨sampleStore, [sessionLife (tryWallet sampleRelay 10 0) [.settle 15, .settle 20]]⟩
    (List.replicate 7 (.go 0) ++ [.fail 0] ++ List.replicate 4 (.go 0))).state

theorem settle_markers_agree_iff_sample :
    Fresh sampleRequest sampleStore ∧
    ((∀ pre, pre <+: List.replicate 12 (Choice.go 0) → OneAmount (book sampleRequest
        ((database sampleCalendar).run
          ⟨sampleStore, [sessionLife (tryWallet sampleRelay 10 0) [.settle 15]]⟩ pre).state)) ↔
      (database sampleCalendar).Meets
        (fun c s => RepeatsAmount sampleRequest c (book sampleRequest s))
        (List.replicate 12 (Choice.go 0))
        ⟨sampleStore, [sessionLife (tryWallet sampleRelay 10 0) [.settle 15]]⟩) :=
  ⟨sampleStore_fresh, settle_markers_agree_iff _ _ _ _ _ sampleStore_fresh⟩

theorem settledTwice_disagrees : ¬ OneAmount (book sampleRequest settledTwice) := by
  intro h
  have hr : settledTwice.recoveries sampleRequest = some
      { userID := 1, tokenID := 1, source := .wallet, fundingAmount := 10, tokenAmount := 10,
        tokenRequired := true, settlementDelta := 10, preConsumeState := .committed,
        fundingSettlement := .completed, tokenSettlement := .completed, status := .settled } := by
    decide
  have hm : settledTwice.adjustments sampleRequest .funding .settle = some 5 := by decide
  have hbad := h.marked _ .funding 5 hr hm
  exact absurd hbad (by decide)

/-- Settled, or refunded after it took something. -/
def closed (b : Book) : Bool :=
  b.row.any fun r => r.status = .settled || r.status = .refunded && !billingRecoveryIsReusable r

theorem step_closed (h : BookStep rid record call b b') (hc : closed b = true) : b' = b := by
  -- every other step needs a status that is not a closed one, or a row that can be taken again
  cases h <;> grind [closed, billingRecoveryIsReusable]

/-- Whatever calls follow and whichever of them fail, a closed row stays as it is, and so do its
markers. -/
theorem closed_request_stays (cal : Calendar) (pool : List (Process Unit)) (sched : List Choice)
    (hc : closed (book rid s) = true) :
    book rid ((database cal).run ⟨s, pool⟩ sched).state = book rid s := by
  refine Machine.run_invariant (I := fun t => book rid t = book rid s) (P := fun _ => True) ?_
    (fun p _ => p.uses_any) (Machine.meets_true ..) rfl
  intro c t _ ht _
  exact (step_closed (exec_book cal rid c t) (ht ▸ hc)).trans ht

theorem settledTwice_stays :
    book sampleRequest ((database sampleCalendar).run
      ⟨settledTwice, [workerPass sampleRequest]⟩ (List.replicate 8 (.go 0))).state =
      book sampleRequest settledTwice :=
  closed_request_stays _ _ _ (by decide)

end Ren2Hub.Proofs.Settlement
