import Ren2Hub.Payment.Gifts
import Ren2Hub.Proofs.TopUpCredits

namespace Ren2Hub.Proofs.WalletRuns
open Lib Lib.Transaction Payment TopUpCredits TopUpRuns

variable {b : Bank} {s s' : Store} {u v : Int} {c : WalletCall}

/-- The most a wallet may hold after the credit of a top-up. -/
def ceiling : Int := maxQuota - 1

def Within (s : Store) : Prop := ∀ u, s.wallet u ≤ ceiling

/-- The user and the quota an operation is about to add. -/
def offer (b : Bank) (c : WalletCall) : Option (Int × Int) :=
  match c.op with
  | .topUp call => (b.store.topUps call.tradeNo).bind fun o =>
    if call.tradeNo ≠ "" ∧ o.status = .pending ∧ asked call = none ∧
        (call.provider = none ∨ call.provider = o.paymentProvider) then
      (creditable (quotaOf c.cfg o call)).map fun q => (o.userId, q)
    else none
  | .transferAffiliateQuota _ userId amount => some (userId, amount)
  | .redeem key userId => (b.redemptions key).bind fun r =>
    if r.status = .enabled then some (userId, r.quota) else none
  | .claimActivityReward userId _ reward => some (userId, reward)
  | .userCheckin setting userId _ roll => some (userId, setting.award roll)
  | .beginCheckin .. => none
  | .finishCheckin checkin =>
    if checkin ∈ b.openCheckins then some (checkin.userId, checkin.quotaAwarded) else none

/-- The operations that look at the wallet before they add to it. -/
def bounded : WalletOp → Bool
  | .topUp _ | .transferAffiliateQuota .. => true
  | _ => false

/-- A gift finds room in the wallet. -/
def Fits (b : Bank) (c : WalletCall) : Prop :=
  match offer b c with
  | none => True
  | some (u, q) => bounded c.op = true ∨ b.store.wallet u + q ≤ ceiling

instance (b : Bank) (c : WalletCall) : Decidable (Fits b c) :=
  match h : offer b c with
  | none => .isTrue (by simp [Fits, h])
  | some (u, q) =>
    decidable_of_iff (bounded c.op = true ∨ b.store.wallet u + q ≤ ceiling) (by simp [Fits, h])

/-- An operation that would go over the ceiling fails, and no row changes. -/
def Refuses (b : Bank) (c : WalletCall) : Prop :=
  ∀ u q, offer b c = some (u, q) → ceiling < b.store.wallet u + q →
    (∃ e, (c.exec b).1 = .error e) ∧ b.on c = b

theorem Fits.room (h : Fits b c) (ho : offer b c = some (u, q)) (hc : bounded c.op = false) :
    b.store.wallet u + q ≤ ceiling := by
  unfold Fits at h
  rw [ho] at h
  exact h.resolve_left (by simp [hc])

theorem Within.added (h : Within s) (hroom : s.wallet v + q ≤ ceiling)
    (hs : ∀ u, s'.wallet u = if u = v then s.wallet u + q else s.wallet u) : Within s' := by
  intro u
  rw [hs u]
  split
  · rename_i hu
    rw [hu]
    exact hroom
  · exact h u

theorem creditTopUpQuota_room (userId quota : Int) (updates : UserUpdates) (s : Store) :
    (creditTopUpQuota userId quota updates).Leaves s fun _ _ =>
      s.wallet userId + quota ≤ ceiling := by
  unfold creditTopUpQuota
  simp only [leaves_bind, leaves_get, leaves_lift]
  intro maxCurrent hmax
  cases huser : s.users userId with
  | none => simp
  | some user =>
    simp only [leaves_ite, leaves_modify, leaves_throw, implies_true, and_true]
    intro hroom
    unfold topUpQuotaMaxCurrent at hmax
    split at hmax
    · cases hmax
    cases hmax
    rw [wallet_of_user huser]
    unfold ceiling
    omega

theorem payOut_room (cfg : Settings) (now : Int) (t : String) (o : TopUp) (quota : Option Int)
    (s : Store) : (payOut cfg now t o quota).Leaves s fun _ s' =>
    ∃ q, creditable quota = some q ∧ s.wallet o.userId + q ≤ ceiling ∧
      ∀ u, s'.wallet u = if u = o.userId then s.wallet u + q else s.wallet u := by
  simp only [payOut, leaves_bind, requireQuota_leaves, leaves_pure]
  intro q hq hpos
  have hcredit : creditable quota = some q := by simp [creditable, hq, hpos]
  intro _ s1 hrun
  have hroom := creditTopUpQuota_room _ _ _ _ _ _ hrun
  obtain ⟨-, -, hwallet⟩ := creditTopUpQuota_leaves _ _ _ _ _ _ hrun
  refine (applyTopUpAffiliateReward_leaves _ _ _ _ s1).mono ?_
  rintro _ s2 ⟨-, hwallet'⟩
  refine ⟨q, hcredit, hroom, fun u => ?_⟩
  rw [hwallet' u, hwallet u]

theorem exec_of_pays (h : Pays s (transactionOf cfg now call) cfg now call.tradeNo o quota) :
    (∃ e, call.exec cfg now s = (.error e, s)) ∨
    ∃ q, creditable quota = some q ∧ s.wallet o.userId + q ≤ ceiling ∧
      ∀ u, (call.exec cfg now s).2.wallet u =
        if u = o.userId then s.wallet u + q else s.wallet u := by
  obtain ⟨hanswer, hmoney⟩ := commit_alike h
  rcases commit_cases (payOut_room cfg now call.tradeNo o quota s) with
    ⟨e, hpay⟩ | ⟨a, s', hpay, q, hq, hroom, hwallet⟩
  · rw [hpay] at hanswer
    refine .inl ⟨call.answer e, ?_⟩
    unfold Call.exec
    dsimp only
    rw [hanswer, commit_of_error hanswer]
    rfl
  · refine .inr ⟨q, hq, hroom, fun u => ?_⟩
    unfold Call.exec
    rw [← wallet_money, hmoney, wallet_money, hpay]
    exact hwallet u

theorem exec_unnamed {call : Call} (h : call.tradeNo = "") (cfg : Settings) (now : Int)
    (s : Store) : (call.exec cfg now s).2 = s := by
  have hrun : ∃ e, (transactionOf cfg now call).run s = .error e := by
    cases call
    all_goals
      cases (h : _ = "")
      exact ⟨_, rfl⟩
  obtain ⟨e, hrun⟩ := hrun
  simp only [Call.exec, commit, hrun]

theorem updatePendingTopUpStatus_within (h : Within s) (t : String) (p : Option PaymentProvider)
    (target : TopUpStatus) :
    Within ((Call.updatePendingTopUpStatus t p target).exec cfg now s).2 := by
  have hleaves : (transactionOf cfg now (.updatePendingTopUpStatus t p target)).Leaves s
      fun _ s' => Within s' := by
    simp only [transactionOf, updatePendingTopUpStatus, leaves_bind, leaves_require,
      lockTopUp_leaves, saveTopUp_leaves, leaves_pure]
    exact fun _ _ _ _ _ => h
  rcases commit_cases hleaves with ⟨e, hc⟩ | ⟨_, s', hc, hs⟩
  · simp only [Call.exec, hc]
    exact h
  · simp only [Call.exec, hc]
    exact hs

theorem asked_eq_some (h : asked call = some target) :
    ∃ t p, call = .updatePendingTopUpStatus t p target := by
  cases call with
  | updatePendingTopUpStatus t p =>
    cases h
    exact ⟨t, p, rfl⟩
  | _ => cases h

theorem topUp_within {call : Call} (h : Within s) (cfg : Settings) (now : Int) :
    Within (call.exec cfg now s).2 := by
  by_cases hnamed : call.tradeNo = ""
  · rw [exec_unnamed hnamed]
    exact h
  cases hasked : asked call with
  | some target =>
    obtain ⟨t, p, rfl⟩ := asked_eq_some hasked
    exact updatePendingTopUpStatus_within h t p target
  | none =>
    rcases exec_step cfg now call s with hsame | ⟨o, ho, hs, hp, -⟩
    · rw [hsame]
      exact h
    rcases exec_of_pays (transaction_pays ⟨hnamed, ho, hs⟩ hp hasked cfg now) with
      ⟨e, he⟩ | ⟨q, -, hroom, hwallet⟩
    · rw [he]
      exact h
    · exact h.added hroom hwallet

theorem thawAffiliateQuota_wallet (now v : Int) (s : Store) :
    (thawAffiliateQuota now v).Leaves s fun _ s' => ∀ u, s'.wallet u = s.wallet u := by
  simp only [thawAffiliateQuota, leaves_bind, leaves_get]
  cases hv : s.users v with
  | none => simp
  | some user =>
    simp only [leaves_ite, leaves_pure, leaves_bind, leaves_modify]
    refine ⟨fun _ _ => trivial, fun _ u => ?_⟩
    rw [wallet_saveUser]
    split
    · rename_i hu
      rw [hu, wallet_of_user hv]
      rfl
    · rfl

theorem transferAffiliateQuota_room (cfg : Settings) (now : Int) (uuid : String) (v amount : Int)
    (s : Store) :
    (transferAffiliateQuota cfg now uuid v amount).Leaves s fun _ s' =>
      s.wallet v + amount ≤ ceiling ∧
        ∀ u, s'.wallet u = if u = v then s.wallet u + amount else s.wallet u := by
  simp only [transferAffiliateQuota, leaves_bind, leaves_require]
  intro _ _
  refine (thawAffiliateQuota_wallet now v s).mono fun _ s1 h1 => ?_
  simp only [leaves_get]
  cases hv : s1.users v with
  | none => simp
  | some user =>
    simp only [leaves_bind, leaves_require, leaves_modify, leaves_pure]
    intro _ hroom
    have hquota : s.wallet v = user.quota := by
      rw [← h1 v, wallet_of_user hv]
    refine (createAffiliateLedger_leaves _ _).mono ?_
    rintro _ s' ⟨-, hwallet⟩
    refine ⟨by unfold ceiling; omega, fun u => ?_⟩
    rw [hwallet u, wallet_saveUser, h1 u]
    split
    · rename_i hu
      rw [hu, hquota]
      rfl
    · rfl

theorem addQuota_wallet (b : Bank) (v q : Int) :
    (∀ u, (b.addQuota v q).store.wallet u = b.store.wallet u) ∨
      ∀ u, (b.addQuota v q).store.wallet u =
        if u = v then b.store.wallet u + q else b.store.wallet u := by
  unfold Bank.addQuota
  cases hv : b.store.users v with
  | none => exact .inl fun _ => rfl
  | some user =>
    refine .inr fun u => ?_
    rw [wallet_saveUser]
    split
    · rename_i hu
      rw [hu, wallet_of_user hv]
    · rfl

theorem addQuota_within (h : Within b.store) (hroom : b.store.wallet v + q ≤ ceiling) :
    Within (b.addQuota v q).store := by
  rcases addQuota_wallet b v q with hsame | hadd
  · intro u
    rw [hsame u]
    exact h u
  · exact h.added hroom hadd

theorem redeem_within (h : Within b.store)
    (hroom : ∀ r, b.redemptions key = some r → r.status = .enabled →
      b.store.wallet v + r.quota ≤ ceiling) :
    (redeem now key v).Leaves b fun _ b' => Within b'.store := by
  simp only [redeem, leaves_bind, leaves_require, leaves_get]
  intro _ _
  cases hr : b.redemptions key with
  | none => simp
  | some r =>
    simp only [leaves_bind, leaves_require, leaves_modify, leaves_pure]
    intro henabled _
    exact addQuota_within (b := { b with redemptions := _ }) h (hroom r hr henabled)

theorem claimActivityReward_within (h : Within b.store)
    (hroom : b.store.wallet v + reward ≤ ceiling) :
    (claimActivityReward now v key reward).Leaves b fun _ b' => Within b'.store := by
  simp only [claimActivityReward, leaves_bind, leaves_require, leaves_get, leaves_modify]
  intro _ _ _
  exact addQuota_within (b := { b with claims := _ }) h hroom

theorem createCheckin_leaves (setting : CheckinSetting) (now v : Int) (today : String) (roll : Nat)
    (b : Bank) : (createCheckin setting now v today roll).Leaves b fun checkin b' =>
      checkin.quotaAwarded = setting.award roll ∧ b'.store = b.store := by
  simp only [createCheckin, leaves_bind, leaves_require, leaves_get, leaves_modify, leaves_pure]
  exact fun _ _ => ⟨trivial, trivial⟩

section
variable (h : Within b.store)
include h

theorem userCheckin_within (hroom : b.store.wallet v + setting.award roll ≤ ceiling) :
    (userCheckinWithTransaction setting now v today roll).Leaves b fun _ b' => Within b'.store := by
  simp only [userCheckinWithTransaction, leaves_bind, leaves_modify]
  refine (createCheckin_leaves setting now v today roll b).mono ?_
  rintro checkin b1 ⟨haward, hstore⟩
  rw [haward]
  rw [← hstore] at h hroom
  exact addQuota_within h hroom

theorem finishCheckin_within (hroom : checkin ∈ b.openCheckins →
      b.store.wallet checkin.userId + checkin.quotaAwarded ≤ ceiling) :
    Within (b.finishCheckin checkin).2.store := by
  unfold Bank.finishCheckin
  split
  · rename_i hopen
    split
    · exact h
    · exact addQuota_within (b := { b with openCheckins := _ }) h (hroom hopen)
  · exact h

theorem commit_within (ht : t.Leaves b fun _ b' => Within b'.store) :
    Within (commit t b).2.store := by
  rcases commit_cases ht with ⟨e, hc⟩ | ⟨_, b', hc, hb⟩
  · rw [hc]
    exact h
  · rw [hc]
    exact hb

theorem on_within (hfits : Fits b c) : Within (b.on c).store := by
  obtain ⟨cfg, now, op⟩ := c
  cases op with
  | topUp => exact topUp_within h cfg now
  | transferAffiliateQuota uuid v amount =>
    simp only [Bank.on, WalletCall.exec]
    rcases commit_cases (transferAffiliateQuota_room cfg now uuid v amount b.store) with
      ⟨e, hc⟩ | ⟨_, s', hc, hroom, hwallet⟩
    · rw [hc]
      exact h
    · rw [hc]
      exact h.added hroom hwallet
  | redeem =>
    refine commit_within h (redeem_within h fun r hr henabled => ?_)
    exact hfits.room (by simp [offer, hr, henabled]) rfl
  | claimActivityReward =>
    exact commit_within h (claimActivityReward_within h (hfits.room rfl rfl))
  | userCheckin =>
    exact commit_within h (userCheckin_within h (hfits.room rfl rfl))
  | beginCheckin setting v today roll =>
    refine commit_within h ?_
    simp only [beginCheckin, leaves_bind, leaves_modify]
    refine (createCheckin_leaves setting now v today roll b).mono ?_
    rintro _ b1 ⟨-, hstore⟩
    rw [hstore]
    exact h
  | finishCheckin =>
    refine finishCheckin_within h fun hopen => ?_
    exact hfits.room (by simp [offer, hopen]) rfl

theorem run_within (hcs : Along Bank.on Fits b cs) : Within (b.run cs).store :=
  hcs.keeps (I := fun b => Within b.store) (fun _ _ => on_within) h

end

theorem topUp_refuses (b : Bank) (cfg : Settings) (now : Int) (call : Call) :
    Refuses b ⟨cfg, now, .topUp call⟩ := by
  intro u q hoffer hover
  simp only [offer, Option.bind_eq_some_iff] at hoffer
  obtain ⟨o, ho, hoffer⟩ := hoffer
  split at hoffer
  case isFalse => cases hoffer
  rename_i hready
  obtain ⟨hnamed, hs, hasked, hprovider⟩ := hready
  obtain ⟨q', hq, hpair⟩ := Option.map_eq_some_iff.mp hoffer
  obtain ⟨rfl, rfl⟩ := Prod.mk.inj hpair
  have hp : ∀ p, call.provider = some p → o.paymentProvider = some p := by
    intro p hcall
    rcases hprovider with hnone | hsame
    · rw [hnone] at hcall
      cases hcall
    · exact hsame.symm.trans hcall
  rcases exec_of_pays (transaction_pays ⟨hnamed, ho, hs⟩ hp hasked cfg now) with
    ⟨e, he⟩ | ⟨q'', hq', hroom, -⟩
  · simp only [Bank.on, WalletCall.exec, he]
    exact ⟨⟨_, rfl⟩, trivial⟩
  · obtain rfl : q' = q'' := Option.some.inj (hq.symm.trans hq')
    omega

theorem transfer_refuses (b : Bank) (cfg : Settings) (now : Int) (uuid : String) (v amount : Int) :
    Refuses b ⟨cfg, now, .transferAffiliateQuota uuid v amount⟩ := by
  rintro u q ⟨⟩ hover
  rcases commit_cases (transferAffiliateQuota_room cfg now uuid v amount b.store) with
    ⟨e, hc⟩ | ⟨_, s', hc, hroom, -⟩
  · simp only [Bank.on, WalletCall.exec, hc]
    exact ⟨⟨_, rfl⟩, trivial⟩
  · omega

theorem refuses_of_fits (hfits : Fits b c) : Refuses b c := by
  cases hb : bounded c.op with
  | false =>
    intro u q hoffer hover
    have hroom := hfits.room hoffer hb
    omega
  | true =>
    obtain ⟨cfg, now, op⟩ := c
    cases op with
    | topUp call => exact topUp_refuses b cfg now call
    | transferAffiliateQuota uuid v amount => exact transfer_refuses b cfg now uuid v amount
    | _ => cases hb

/-- Where each code, claim and check-in finds room, no wallet is ever over the ceiling, and an
operation that would put it there fails and changes no row. -/
theorem wallets_stay_within_ceiling (h : Within b.store) (hcs : Along Bank.on Fits b cs) :
    Within (b.run cs).store ∧ ∀ c, Fits (b.run cs) c → Refuses (b.run cs) c :=
  ⟨run_within h hcs, fun _ => refuses_of_fits⟩

def till : Bank where
  store := { users := Function.update (fun _ => none) 7 (some { quota := 2147483645 }) }
  redemptions := Function.update (Function.update (fun _ => none) "one" (some { quota := 1 }))
    "two" (some { quota := 2 })

theorem till_wallet (u : Int) : till.store.wallet u ≤ ceiling := by
  by_cases hu : u = 7
  · subst hu
    decide
  · simp [till, Store.wallet, hu, ceiling, maxQuota]

theorem one_fits : Within (till.run [⟨{}, 60, .redeem "one" 7⟩]).store :=
  (wallets_stay_within_ceiling till_wallet (by decide +kernel)).1

/-- A code, a reward and a check-in each go through over the ceiling and are used up. -/
theorem gifts_over_ceiling :
    ((till.on ⟨{}, 60, .redeem "two" 7⟩).store.wallet 7 = ceiling + 1 ∧
      ((till.on ⟨{}, 60, .redeem "two" 7⟩).redemptions "two").map (·.status) = some .used) ∧
    (till.on ⟨{}, 60, .claimActivityReward 7 "newcomer-v1" 25⟩).store.wallet 7 = ceiling + 24 ∧
    (till.on ⟨{}, 60, .userCheckin { enabled := true } 7 "2026-01-01" 0⟩).store.wallet 7 =
      ceiling + 999 := by
  decide +kernel

end Ren2Hub.Proofs.WalletRuns
