import Mathlib.Logic.Relation
import Ren2Hub.Payment.Affiliate
import Ren2Hub.Proofs.TopUpRuns

namespace Ren2Hub.Proofs.AffiliateRuns
open Lib Lib.Transaction Payment Store List
open AffiliateLedger (thaw)

variable {s s' : Store} {u v now : Int} {row : AffiliateLedger} {rows : List AffiliateLedger}
  {user : User} {cap : Except TopUpError (Option Int)}

def tally (p : AffiliateLedger → Prop) [DecidablePred p] (ledger : List AffiliateLedger) : Int :=
  ((ledger.filter fun row => p row).map (·.rewardQuota)).sum

section Tally
variable {p : AffiliateLedger → Prop} [DecidablePred p]

@[simp] theorem tally_nil : tally p [] = 0 := rfl

@[simp] theorem tally_cons :
    tally p (row :: rows) = (if p row then row.rewardQuota else 0) + tally p rows := by
  unfold tally
  by_cases h : p row
  · simp [h]
  · simp [h]

theorem tally_concat :
    tally p (rows ++ [row]) = tally p rows + if p row then row.rewardQuota else 0 := by
  induction rows with
  | nil => simp
  | cons r rows ih =>
    rw [cons_append, tally_cons, tally_cons, ih]
    omega

theorem tally_nonneg (h : ∀ row ∈ rows, p row → 0 ≤ row.rewardQuota) : 0 ≤ tally p rows := by
  induction rows with
  | nil => simp
  | cons r rows ih =>
    have hrest := ih fun row hrow => h row (mem_cons_of_mem r hrow)
    rw [tally_cons]
    split
    · have hr := h r mem_cons_self ‹_›
      omega
    · omega

theorem tally_eq_zero (h : ∀ row ∈ rows, ¬ p row) : tally p rows = 0 := by
  have hempty : rows.filter (fun row => p row) = [] := by simpa using h
  simp [tally, hempty]

theorem tally_map (hp : ∀ row, p (f row) ↔ p row)
    (hf : ∀ row, (f row).rewardQuota = row.rewardQuota) : tally p (rows.map f) = tally p rows := by
  induction rows with
  | nil => rfl
  | cons r rows ih => simp only [map_cons, tally_cons, ih, hp, hf]

end Tally

def Accrual (u : Int) (row : AffiliateLedger) : Prop := row.userId = u ∧ row.action = .accrue

def AccrualFor (u v : Int) (row : AffiliateLedger) : Prop :=
  row.userId = u ∧ row.inviteeId = v ∧ row.action = .accrue

def Frozen (u : Int) (row : AffiliateLedger) : Prop :=
  row.userId = u ∧ row.action = .accrue ∧ 0 < row.frozenUntil ∧ row.thawedAt = 0

def Transferred (u : Int) (row : AffiliateLedger) : Prop :=
  row.userId = u ∧ row.action = .transfer

instance : DecidablePred (Accrual u) := fun _ => inferInstanceAs (Decidable (_ ∧ _))

instance : DecidablePred (AccrualFor u v) := fun _ => inferInstanceAs (Decidable (_ ∧ _))

instance : DecidablePred (Frozen u) := fun _ => inferInstanceAs (Decidable (_ ∧ _))

instance : DecidablePred (Transferred u) := fun _ => inferInstanceAs (Decidable (_ ∧ _))

theorem accruedReward_eq : accruedReward rows u v = tally (AccrualFor u v) rows := rfl

theorem dueReward_eq : dueReward rows u now = tally (fun row => row.Due u now) rows := rfl

theorem thaw_eq (row : AffiliateLedger) : row.thaw v now =
    { row with thawedAt := if row.Due v now then now else row.thawedAt } := by
  unfold thaw
  split <;> rfl

theorem thaw_of_ne (h : row.userId ≠ v) : row.thaw v now = row := by
  unfold thaw
  rw [if_neg fun hdue => h hdue.1]

theorem thaw_of_thawed (h : row.thawedAt ≠ 0) : row.thaw v now = row := by
  unfold thaw
  rw [if_neg fun hdue => h hdue.2.2.2.2]

theorem frozen_thaw (hnow : 0 < now) (rows : List AffiliateLedger) :
    tally (Frozen u) (rows.map (thaw u now)) =
      tally (Frozen u) rows - dueReward rows u now := by
  rw [dueReward_eq]
  induction rows with
  | nil => rfl
  | cons r rows ih =>
    rw [map_cons, tally_cons, tally_cons, tally_cons, ih]
    have hquota : (r.thaw u now).rewardQuota = r.rewardQuota := by rw [thaw_eq]
    rw [hquota]
    by_cases hdue : r.Due u now
    · have hfrozen : Frozen u r := ⟨hdue.1, hdue.2.1, hdue.2.2.1, hdue.2.2.2.2⟩
      have hthawed : ¬ Frozen u (r.thaw u now) := by
        intro h
        have hz := h.2.2.2
        unfold thaw at hz
        rw [if_pos hdue] at hz
        exact absurd hz (Int.ne_of_gt hnow)
      rw [if_neg hthawed, if_pos hfrozen, if_pos hdue]
      omega
    · have hsame : r.thaw u now = r := if_neg hdue
      rw [hsame, if_neg hdue]
      omega

theorem tally_thaw [DecidablePred p] (hp : ∀ row, p (row.thaw v now) ↔ p row) :
    tally p (rows.map (thaw v now)) = tally p rows :=
  tally_map hp fun row => by rw [thaw_eq]

theorem tally_thaw_blind [DecidablePred p] (hp : ∀ row x, p { row with thawedAt := x } ↔ p row) :
    tally p (rows.map (thaw v now)) = tally p rows :=
  tally_thaw fun row => by rw [thaw_eq, hp]

theorem frozen_thaw_of_ne (h : v ≠ u) (rows : List AffiliateLedger) :
    tally (Frozen u) (rows.map (thaw v now)) = tally (Frozen u) rows := by
  refine tally_thaw fun row => ?_
  by_cases hv : row.userId = v
  · have hu : row.userId ≠ u := by rw [hv]; exact h
    rw [thaw_eq]
    exact ⟨fun hf => absurd hf.1 hu, fun hf => absurd hf.1 hu⟩
  · rw [thaw_of_ne hv]

/-- The balances of an inviter against the ledger. -/
structure Balanced (u : Int) (cap : Except TopUpError (Option Int)) (s : Store) (user : User) :
    Prop where
  found : s.users u = some user
  history : user.affHistoryQuota = tally (Accrual u) s.ledger
  frozen : user.affFrozenQuota = tally (Frozen u) s.ledger
  total : user.affQuota + user.affFrozenQuota =
    user.affHistoryQuota - tally (Transferred u) s.ledger
  available : 0 ≤ user.affQuota
  positive : ∀ row ∈ s.ledger, row.userId = u → row.action = .accrue → 0 < row.rewardQuota
  timely : ∀ row ∈ s.ledger, row.userId = u → row.thawedAt ≠ 0 →
    0 < row.frozenUntil ∧ row.frozenUntil ≤ row.thawedAt
  capped : ∀ k, cap = .ok (some k) → ∀ v, accruedReward s.ledger u v ≤ k
  keys : (s.ledger.map (·.sourceEventKey)).Nodup

/-- The unique index lets a row in. -/
def Fresh (row : AffiliateLedger) (s : Store) : Prop :=
  ∀ r ∈ s.ledger, r.sourceEventKey ≠ row.sourceEventKey

theorem keys_concat (h : (rows.map (·.sourceEventKey)).Nodup)
    (hrow : ∀ r ∈ rows, r.sourceEventKey ≠ row.sourceEventKey) :
    ((rows ++ [row]).map (·.sourceEventKey)).Nodup := by
  rw [map_append, map_singleton, nodup_append]
  refine ⟨h, pairwise_singleton _ _, fun a ha b hb => ?_⟩
  obtain ⟨r, hr, rfl⟩ := mem_map.mp ha
  rw [mem_singleton.mp hb]
  exact hrow r hr

section
variable (h : Balanced u cap s user)
include h

theorem Balanced.concat (hrow : Fresh row s)
    (hthawed : row.thawedAt = 0) (hpos : Accrual u row → 0 < row.rewardQuota)
    (hcap : ∀ k, cap = .ok (some k) → ∀ v, AccrualFor u v row →
      accruedReward s.ledger u v + row.rewardQuota ≤ k)
    (hfound : s'.users u = some new) (hledger : s'.ledger = s.ledger ++ [row])
    (hhistory : new.affHistoryQuota =
      user.affHistoryQuota + if Accrual u row then row.rewardQuota else 0)
    (hfrozen : new.affFrozenQuota =
      user.affFrozenQuota + if Frozen u row then row.rewardQuota else 0)
    (htotal : new.affQuota + new.affFrozenQuota = new.affHistoryQuota -
      (tally (Transferred u) s.ledger + if Transferred u row then row.rewardQuota else 0))
    (havailable : 0 ≤ new.affQuota) : Balanced u cap s' new := by
  refine ⟨hfound, ?_, ?_, ?_, havailable, ?_, ?_, ?_, ?_⟩
  · rw [hledger, tally_concat, ← h.history, hhistory]
  · rw [hledger, tally_concat, ← h.frozen, hfrozen]
  · rw [hledger, tally_concat, htotal]
  · rw [hledger]
    intro r hr hu ha
    rcases mem_append.mp hr with hr | hr
    · exact h.positive r hr hu ha
    · rw [mem_singleton.mp hr] at hu ha ⊢
      exact hpos ⟨hu, ha⟩
  · rw [hledger]
    intro r hr hu ht
    rcases mem_append.mp hr with hr | hr
    · exact h.timely r hr hu ht
    · rw [mem_singleton.mp hr] at ht
      exact absurd hthawed ht
  · intro k hk v
    rw [hledger, accruedReward_eq, tally_concat]
    split
    · exact hcap k hk v ‹_›
    · rw [Int.add_zero]
      exact h.capped k hk v
  · rw [hledger]
    exact keys_concat h.keys hrow

theorem Balanced.other (hrow : Fresh row s)
    (hother : row.userId ≠ u ∨ row.action = .skip) (hthawed : row.thawedAt = 0)
    (hfound : s'.users u = some user) (hledger : s'.ledger = s.ledger ++ [row]) :
    Balanced u cap s' user := by
  have hnone : ∀ action, action ≠ .skip → ¬ (row.userId = u ∧ row.action = action) := by
    rintro action hne ⟨hu, ha⟩
    rcases hother with ho | ho
    · exact ho hu
    · exact hne (ha.symm.trans ho)
  have hacc : ¬ Accrual u row := hnone .accrue nofun
  have htrans : ¬ Transferred u row := hnone .transfer nofun
  have hfrozen : ¬ Frozen u row := fun hf => hacc ⟨hf.1, hf.2.1⟩
  refine h.concat hrow hthawed (fun ha => absurd ha hacc) ?_ hfound hledger ?_ ?_ ?_ h.available
  · intro _ _ v hf
    exact absurd ⟨hf.1, hf.2.2⟩ hacc
  · rw [if_neg hacc, Int.add_zero]
  · rw [if_neg hfrozen, Int.add_zero]
  · rw [if_neg htrans, Int.add_zero]
    exact h.total

theorem Balanced.accrue (cfg : Settings) (hrow : Fresh row s) (hu : row.userId = u)
    (ha : row.action = .accrue) (hpos : 0 < row.rewardQuota) (hthawed : row.thawedAt = 0)
    (hside : cfg.affiliateFreezeHours > 0 ↔ 0 < row.frozenUntil) (hcap : ∀ k, cap = .ok (some k) →
      accruedReward s.ledger u row.inviteeId + row.rewardQuota ≤ k)
    (hfound : s'.users u = some (user.reward cfg row.rewardQuota))
    (hledger : s'.ledger = s.ledger ++ [row]) :
    Balanced u cap s' (user.reward cfg row.rewardQuota) := by
  have hacc : Accrual u row := ⟨hu, ha⟩
  have htrans : ¬ Transferred u row := by
    intro ht
    cases ha.symm.trans ht.2
  have htotal := h.total
  have havailable := h.available
  refine h.concat hrow hthawed (fun _ => hpos) ?_ hfound hledger ?_ ?_ ?_ ?_
  · intro k hk v hf
    have hk' := hcap k hk
    rw [hf.2.1] at hk'
    exact hk'
  · rw [if_pos hacc]
    unfold User.reward
    split <;> rfl
  · unfold User.reward
    split
    · rename_i hfreeze
      rw [if_pos ⟨hu, ha, hside.mp hfreeze, hthawed⟩]
    · rename_i hfreeze
      rw [if_neg fun hf => hfreeze (hside.mpr hf.2.2.1), Int.add_zero]
  · rw [if_neg htrans]
    unfold User.reward
    split
    · dsimp only
      omega
    · dsimp only
      omega
  · unfold User.reward
    split
    · exact havailable
    · dsimp only
      omega

theorem Balanced.transfer (hrow : Fresh row s) (hu : row.userId = u)
    (ha : row.action = .transfer) (hthawed : row.thawedAt = 0)
    (henough : row.rewardQuota ≤ user.affQuota)
    (hfound : s'.users u = some (user.transfer row.rewardQuota))
    (hledger : s'.ledger = s.ledger ++ [row]) :
    Balanced u cap s' (user.transfer row.rewardQuota) := by
  have hacc : ¬ Accrual u row := by
    intro hacc
    cases ha.symm.trans hacc.2
  have htotal := h.total
  refine h.concat hrow hthawed (fun h => absurd h hacc) ?_ hfound hledger ?_ ?_ ?_ ?_
  · intro _ _ v hf
    exact absurd ⟨hf.1, hf.2.2⟩ hacc
  · rw [if_neg hacc, Int.add_zero]
    rfl
  · rw [if_neg fun hf => hacc ⟨hf.1, hf.2.1⟩, Int.add_zero]
    rfl
  · rw [if_pos ⟨hu, ha⟩]
    simp only [User.transfer]
    omega
  · simp only [User.transfer]
    omega

end

theorem keys_thaw :
    (rows.map (thaw v now)).map (·.sourceEventKey) =
      rows.map (·.sourceEventKey) := by
  rw [map_map]
  exact map_congr_left fun row _ => by simp only [Function.comp, thaw_eq]

theorem timely_thaw (h : row.thawedAt ≠ 0 → 0 < row.frozenUntil ∧ row.frozenUntil ≤ row.thawedAt) :
    (row.thaw v now).thawedAt ≠ 0 → 0 < (row.thaw v now).frozenUntil ∧
      (row.thaw v now).frozenUntil ≤ (row.thaw v now).thawedAt := by
  unfold thaw
  split
  · rename_i hdue
    intro _
    exact ⟨hdue.2.2.1, hdue.2.2.2.1⟩
  · exact h

section
variable (h : Balanced u cap s user)
include h

theorem Balanced.thawed (hfound : s'.users u = some new)
    (hledger : s'.ledger = s.ledger.map (thaw v now))
    (hhistory : new.affHistoryQuota = user.affHistoryQuota)
    (hfrozen : new.affFrozenQuota = tally (Frozen u) s'.ledger)
    (htotal : new.affQuota + new.affFrozenQuota = user.affQuota + user.affFrozenQuota)
    (havailable : 0 ≤ new.affQuota) : Balanced u cap s' new := by
  refine ⟨hfound, ?_, hfrozen, ?_, havailable, ?_, ?_, ?_, ?_⟩
  · rw [hledger, tally_thaw_blind fun _ _ => Iff.rfl, hhistory]
    exact h.history
  · rw [hledger, tally_thaw_blind fun _ _ => Iff.rfl, htotal, hhistory]
    exact h.total
  · rw [hledger]
    intro r hr hu ha
    obtain ⟨row, hrow, rfl⟩ := mem_map.mp hr
    rw [thaw_eq] at hu ha ⊢
    exact h.positive row hrow hu ha
  · rw [hledger]
    intro r hr hu
    obtain ⟨row, hrow, rfl⟩ := mem_map.mp hr
    exact timely_thaw (h.timely row hrow (by rwa [thaw_eq] at hu))
  · intro k hk w
    rw [hledger, accruedReward_eq, tally_thaw_blind fun _ _ => Iff.rfl]
    exact h.capped k hk w
  · rw [hledger, keys_thaw]
    exact h.keys

theorem Balanced.due_nonneg (now : Int) : 0 ≤ dueReward s.ledger u now := by
  refine tally_nonneg fun row hrow hdue => ?_
  exact Int.le_of_lt (h.positive row hrow hdue.1 hdue.2.1)

theorem Balanced.frozen_nonneg : 0 ≤ user.affFrozenQuota := by
  rw [h.frozen]
  refine tally_nonneg fun row hrow hf => ?_
  exact Int.le_of_lt (h.positive row hrow hf.1 hf.2.1)

theorem Balanced.history_nonneg : 0 ≤ user.affHistoryQuota := by
  rw [h.history]
  refine tally_nonneg fun row hrow ha => ?_
  exact Int.le_of_lt (h.positive row hrow ha.1 ha.2)

theorem Balanced.due_le (hnow : 0 < now) : dueReward s.ledger u now ≤ user.affFrozenQuota := by
  have hrest : 0 ≤ tally (Frozen u) (s.ledger.map (thaw u now)) := by
    refine tally_nonneg fun r hr hf => ?_
    obtain ⟨row, hrow, rfl⟩ := mem_map.mp hr
    rw [thaw_eq] at hf ⊢
    exact Int.le_of_lt (h.positive row hrow hf.1 hf.2.1)
  rw [frozen_thaw hnow, ← h.frozen] at hrest
  omega

end

def thawedStore (s : Store) (v now : Int) (other : User) : Store :=
  { s with ledger := s.ledger.map (thaw v now) }.saveUser v
    (other.thaw (dueReward s.ledger v now))

theorem Balanced.found_save (h : Balanced u cap s user) (hv : v ≠ u) (other : User) :
    (s.saveUser v other).users u = some user := by
  simp only [saveUser]
  rw [Function.update_of_ne hv.symm]
  exact h.found

theorem Balanced.thaw (h : Balanced u cap s user) (hnow : 0 < now) :
    Balanced u cap (thawedStore s u now user) (user.thaw (dueReward s.ledger u now)) := by
  have hle := h.due_le hnow
  have hdue := h.due_nonneg now
  have hcut : (user.thaw (dueReward s.ledger u now)).affFrozenQuota =
      user.affFrozenQuota - dueReward s.ledger u now := if_pos hle
  have hmore : (user.thaw (dueReward s.ledger u now)).affQuota =
      user.affQuota + dueReward s.ledger u now := rfl
  have havailable := h.available
  have hledger : (thawedStore s u now user).ledger =
      s.ledger.map (AffiliateLedger.thaw u now) := rfl
  refine h.thawed (v := u) (by simp [thawedStore, saveUser]) hledger rfl ?_ ?_ ?_
  · rw [hcut, hledger, frozen_thaw hnow, h.frozen]
  · rw [hcut, hmore]
    omega
  · rw [hmore]
    omega

theorem Balanced.thaw_of_ne (h : Balanced u cap s user) (hv : v ≠ u) (other : User) :
    Balanced u cap (thawedStore s v now other) user := by
  have hledger : (thawedStore s v now other).ledger =
      s.ledger.map (AffiliateLedger.thaw v now) := rfl
  refine h.thawed (v := v) ?_ hledger rfl ?_ rfl h.available
  · exact h.found_save hv _
  · rw [hledger, frozen_thaw_of_ne hv]
    exact h.frozen

/-- Whatever the user was before, the books balance afterwards. -/
def Balances (u : Int) (cap : Except TopUpError (Option Int)) (s : Store) : Prop :=
  ∃ user, Balanced u cap s user

theorem createAffiliateLedger_adds (row : AffiliateLedger) (s : Store) :
    (createAffiliateLedger row).Leaves s fun _ s' =>
      Fresh row s ∧ s' = { s with ledger := s.ledger ++ [row] } := by
  simp only [createAffiliateLedger, leaves_bind, leaves_get, leaves_require, leaves_modify]
  exact fun hfresh => ⟨hfresh, trivial⟩

theorem frozenUntil_pos (h : frozenUntil cfg now = .ok thawAt) (hnow : 0 < now) :
    cfg.affiliateFreezeHours > 0 ↔ 0 < thawAt := by
  unfold frozenUntil at h
  split at h
  · rename_i hfreeze
    unfold affiliatePeriodEndUnix at h
    rw [if_neg (by omega), if_neg (by omega)] at h
    split at h
    · cases h
    split at h
    · cases h
    cases h
    omega
  · cases h
    omega

theorem thawAffiliateQuota_leaves (now v : Int) (s : Store) :
    (thawAffiliateQuota now v).Leaves s fun _ s' => ∃ other, s.users v = some other ∧
      (dueReward s.ledger v now ≤ 0 ∧ s' = s ∨ s' = thawedStore s v now other) := by
  simp only [thawAffiliateQuota, leaves_bind, leaves_get]
  cases hv : s.users v with
  | none => simp
  | some other =>
    simp only [leaves_ite, leaves_pure, leaves_bind, leaves_modify]
    exact ⟨fun hdue => ⟨other, rfl, .inl ⟨hdue, trivial⟩⟩, fun _ => ⟨other, rfl, .inr rfl⟩⟩

/-- A row that was thawed stays as it is. -/
def Keeps (s s' : Store) : Prop := ∀ row ∈ s.ledger, row.thawedAt ≠ 0 → row ∈ s'.ledger

theorem Keeps.refl (s : Store) : Keeps s s := fun _ hrow _ => hrow

theorem Keeps.trans (h : Keeps s1 s2) (h' : Keeps s2 s3) : Keeps s1 s3 :=
  fun row hrow ht => h' row (h row hrow ht) ht

theorem keeps_concat (hledger : s'.ledger = s.ledger ++ [row]) : Keeps s s' := by
  intro r hr _
  rw [hledger]
  exact mem_append_left _ hr

theorem keeps_thawedStore (s : Store) (v now : Int) (other : User) :
    Keeps s (thawedStore s v now other) := by
  intro row hrow ht
  exact mem_map.mpr ⟨row, hrow, thaw_of_thawed ht⟩

/-- What a transaction does to users and ledger at once. -/
inductive Change (cfg : Settings) (now : Int) (s : Store) : Store → Prop
  | skipped (hrow : Fresh entry s) (ha : entry.action = .skip) (ht : entry.thawedAt = 0) :
      Change cfg now s { s with ledger := s.ledger ++ [entry] }
  | accrued (hrow : Fresh entry s) (hu : s.users entry.userId = some owner)
      (ha : entry.action = .accrue) (hpos : 0 < entry.rewardQuota) (ht : entry.thawedAt = 0)
      (hat : frozenUntil cfg now = .ok entry.frozenUntil)
      (hcap : ∀ k, affiliateCap cfg = .ok (some k) →
        accruedReward s.ledger entry.userId entry.inviteeId + entry.rewardQuota ≤ k) :
      Change cfg now s { s.saveUser entry.userId (owner.reward cfg entry.rewardQuota) with
        ledger := s.ledger ++ [entry] }
  | thawed (hv : s.users who = some owner) : Change cfg now s (thawedStore s who now owner)
  | transferred (hrow : Fresh entry s) (hu : s.users entry.userId = some owner)
      (ha : entry.action = .transfer) (ht : entry.thawedAt = 0)
      (henough : entry.rewardQuota ≤ owner.affQuota) :
      Change cfg now s { s.saveUser entry.userId (owner.transfer entry.rewardQuota) with
        ledger := s.ledger ++ [entry] }

abbrev Changes (cfg : Settings) (now : Int) : Store → Store → Prop :=
  Relation.ReflTransGen (Change cfg now)

theorem Change.keeps (h : Change cfg now s s') : Keeps s s' := by
  cases h with
  | thawed => exact keeps_thawedStore s _ now _
  | skipped | accrued | transferred => exact keeps_concat rfl

theorem Change.balances (hc : Change cfg now s s') (h : Balances u (affiliateCap cfg) s)
    (hnow : 0 < now) : Balances u (affiliateCap cfg) s' := by
  obtain ⟨user, h⟩ := h
  cases hc with
  | skipped hrow ha ht => exact ⟨user, h.other hrow (.inr ha) ht h.found rfl⟩
  | @accrued row inviter hrow hinviter ha hpos ht hat hcap =>
    by_cases hu : row.userId = u
    · subst hu
      obtain rfl : user = inviter := Option.some.inj (h.found.symm.trans hinviter)
      exact ⟨_, h.accrue cfg hrow rfl ha hpos ht (frozenUntil_pos hat hnow) hcap
        (by simp [saveUser]) rfl⟩
    · exact ⟨user, h.other hrow (.inl hu) ht (h.found_save hu _) rfl⟩
  | @thawed v other hother =>
    by_cases hv : v = u
    · subst hv
      obtain rfl : user = other := Option.some.inj (h.found.symm.trans hother)
      exact ⟨_, h.thaw hnow⟩
    · exact ⟨user, h.thaw_of_ne hv other⟩
  | @transferred row other hrow hother ha ht henough =>
    by_cases hu : row.userId = u
    · subst hu
      obtain rfl : user = other := Option.some.inj (h.found.symm.trans hother)
      exact ⟨_, h.transfer hrow rfl ha ht henough (by simp [saveUser]) rfl⟩
    · exact ⟨user, h.other hrow (.inl hu) ht (h.found_save hu _) rfl⟩

theorem Changes.keeps (h : Changes cfg now s s') : Keeps s s' := by
  induction h with
  | refl => exact .refl s
  | tail _ hc ih => exact ih.trans hc.keeps

theorem Changes.balances (hc : Changes cfg now s s') (h : Balances u (affiliateCap cfg) s)
    (hnow : 0 < now) : Balances u (affiliateCap cfg) s' := by
  induction hc with
  | refl => exact h
  | tail _ hc ih => exact hc.balances ih hnow

theorem thawAffiliateQuota_changes (cfg : Settings) (now v : Int) (s : Store) :
    (thawAffiliateQuota now v).Leaves s fun _ s' => Changes cfg now s s' := by
  refine (thawAffiliateQuota_leaves now v s).mono ?_
  rintro _ s' ⟨other, hother, ⟨-, rfl⟩ | rfl⟩
  · exact .refl
  · exact .single (.thawed hother)

theorem transaction_changes (c : AffiliateCall) (s : Store) :
    c.transaction.Leaves s fun _ s' => Changes c.cfg c.now s s' := by
  obtain ⟨cfg, now, op⟩ := c
  cases op with
  | applyAffiliateReward source =>
    simp only [AffiliateCall.transaction, applyAffiliateReward, leaves_bind, leaves_get,
      leaves_ite, leaves_pure]
    refine ⟨fun _ => .refl, fun _ => ⟨fun _ => .refl, fun _ => ?_⟩⟩
    cases s.users source.inviteeId with
    | none => simp
    | some invitee =>
      simp only [leaves_bind, leaves_lift]
      intro outcome ho
      cases outcome with
      | skip =>
        refine (createAffiliateLedger_adds _ s).mono ?_
        rintro _ s' ⟨hfresh, rfl⟩
        exact .single (.skipped hfresh rfl rfl)
      | accrue =>
        obtain ⟨hinviter, hpos, hk⟩ := TopUpRuns.affiliateOutcome_accrue ho
        simp only [accrueAffiliateReward, leaves_bind, leaves_lift, leaves_modify]
        intro thawAt hat
        refine (createAffiliateLedger_adds _ _).mono ?_
        rintro _ s' ⟨hfresh, rfl⟩
        exact .single (.accrued (s := s) hfresh hinviter rfl hpos rfl hat hk)
  | thawAffiliateQuota v =>
    simp only [AffiliateCall.transaction, leaves_bind, leaves_pure]
    exact thawAffiliateQuota_changes cfg now v s
  | transferAffiliateQuota uuid v =>
    simp only [AffiliateCall.transaction, transferAffiliateQuota, leaves_bind, leaves_require,
      leaves_pure]
    intro _ _
    refine (thawAffiliateQuota_changes cfg now v s).mono fun _ s1 h1 => ?_
    simp only [leaves_get]
    cases hv : s1.users v with
    | none => simp
    | some other =>
      simp only [leaves_bind, leaves_require, leaves_modify, leaves_pure]
      intro henough _
      refine (createAffiliateLedger_adds _ _).mono ?_
      rintro _ s' ⟨hfresh, rfl⟩
      exact h1.tail (.transferred (s := s1) hfresh hv rfl rfl (Int.not_lt.mp henough))

theorem onAffiliate_changes (s : Store) (c : AffiliateCall) :
    Changes c.cfg c.now s (s.onAffiliate c) := by
  unfold onAffiliate
  rcases commit_cases (transaction_changes c s) with ⟨e, h⟩ | ⟨_, s', h, hs⟩
  · rw [h]
  · rw [h]
    exact hs

theorem runAffiliate_keeps (s : Store) (cs : List AffiliateCall) : Keeps s (s.runAffiliate cs) :=
  foldl_keeps (fun s' c h => h.trans (onAffiliate_changes s' c).keeps) (Keeps.refl s) cs

theorem runAffiliate_balances (cs : List AffiliateCall) (h : Balances u cap s)
    (hcs : ∀ c ∈ cs, 0 < c.now ∧ affiliateCap c.cfg = cap) :
    Balances u cap (s.runAffiliate cs) := by
  have halong := along_of_forall (f := onAffiliate) s hcs
  refine halong.keeps (fun s' c hs hc => ?_) h
  obtain ⟨hnow, rfl⟩ := hc
  exact (onAffiliate_changes s' c).balances hs hnow

structure Moved (u now amount : Int) (s s' : Store) (user user' : User) : Prop where
  found : s'.users u = some user'
  wallet : user'.quota = user.quota + amount
  available : user'.affQuota = user.affQuota + dueReward s.ledger u now - amount
  frozen : user'.affFrozenQuota = user.affFrozenQuota - dueReward s.ledger u now
  history : user'.affHistoryQuota = user.affHistoryQuota
  others : ∀ v, v ≠ u → s'.users v = s.users v

theorem Balanced.thawed_first (h : Balanced u cap s user) (hnow : 0 < now) :
    (thawAffiliateQuota now u).Leaves s fun _ s' => ∃ user', Moved u now 0 s s' user user' := by
  refine (thawAffiliateQuota_leaves now u s).mono ?_
  rintro _ s' ⟨other, hother, hcase⟩
  obtain rfl : user = other := Option.some.inj (h.found.symm.trans hother)
  have hle := h.due_le hnow
  rcases hcase with ⟨hdue, rfl⟩ | rfl
  · have hzero : dueReward s'.ledger u now = 0 := Int.le_antisymm hdue (h.due_nonneg now)
    exact ⟨user, h.found, by omega, by omega, by omega, rfl, fun _ _ => rfl⟩
  refine ⟨user.thaw (dueReward s.ledger u now), ?_, ?_, ?_, if_pos hle, rfl, fun v hv => ?_⟩
  · simp [thawedStore, saveUser]
  · exact (Int.add_zero _).symm
  · exact (Int.sub_zero _).symm
  · simp only [thawedStore, saveUser]
    rw [Function.update_of_ne hv]

theorem transferAffiliateQuota_moves (h : Balanced u cap s user) (hnow : 0 < now) :
    (transferAffiliateQuota cfg now uuid u amount).Leaves s fun _ s' =>
      0 < amount ∧ ∃ user', Moved u now amount s s' user user' := by
  simp only [transferAffiliateQuota, leaves_bind, leaves_require]
  intro _ hamount
  refine (h.thawed_first hnow).mono ?_
  rintro _ s1 ⟨user1, h1⟩
  simp only [leaves_get, h1.found, leaves_bind, leaves_require, leaves_modify, leaves_pure]
  intro _ _
  refine (createAffiliateLedger_adds _ _).mono ?_
  rintro _ s' ⟨-, rfl⟩
  have hwallet := h1.wallet
  have havailable := h1.available
  refine ⟨by omega, user1.transfer amount, ?_, ?_, ?_, h1.frozen, h1.history, fun v hv => ?_⟩
  · simp [saveUser]
  · simp only [User.transfer]
    omega
  · simp only [User.transfer]
    omega
  simp only [saveUser]
  rw [Function.update_of_ne hv]
  exact h1.others v hv

/-- What a transfer asks of the options, the inviter's row once it is thawed, and the ledger. -/
structure Transferable (cfg : Settings) (now : Int) (uuid : String) (u amount : Int) (s : Store)
    (user : User) : Prop where
  confirmed : cfg.paymentComplianceConfirmed
  positive : 0 < amount
  unit : ¬ belowUnit cfg amount
  available : amount ≤ user.affQuota + dueReward s.ledger u now
  limit : user.quota + amount < maxQuota
  fresh : ∀ row ∈ s.ledger, row.sourceEventKey ≠ .transfer uuid

theorem thawAffiliateQuota_runs (hu : s.users u = some user) (now : Int) :
    ∃ thawed s', (thawAffiliateQuota now u).run s = .ok (thawed, s') := by
  simp only [thawAffiliateQuota, run_get, hu]
  split
  · exact ⟨_, _, rfl⟩
  · exact ⟨_, _, rfl⟩

theorem thaw_sourceEventKey (u now : Int) (row : AffiliateLedger) :
    (row.thaw u now).sourceEventKey = row.sourceEventKey := by
  unfold AffiliateLedger.thaw
  split <;> rfl

theorem Transferable.runs (ht : Transferable cfg now uuid u amount s user)
    (h : Balanced u cap s user) (hnow : 0 < now) :
    ∃ answer s', (transferAffiliateQuota cfg now uuid u amount).run s = .ok (answer, s') := by
  obtain ⟨thawed, s1, hthaw⟩ := thawAffiliateQuota_runs h.found now
  obtain ⟨user1, h1⟩ := h.thawed_first hnow thawed s1 hthaw
  have hpos := ht.positive
  have havailable := ht.available
  have hlimit := ht.limit
  have hwallet := h1.wallet
  have hquota := h1.available
  have hfresh : ∀ row ∈ s1.ledger, row.sourceEventKey ≠ .transfer uuid := by
    obtain ⟨other, _, ⟨_, rfl⟩ | rfl⟩ := thawAffiliateQuota_leaves now u s thawed s1 hthaw
    · exact ht.fresh
    · intro row hrow
      obtain ⟨old, hold, rfl⟩ := List.mem_map.mp hrow
      rw [thaw_sourceEventKey]
      exact ht.fresh old hold
  have hamount : ¬ (amount ≤ 0 ∨ belowUnit cfg amount) := by
    rintro (hle | hunit)
    · omega
    · exact ht.unit hunit
  simp only [transferAffiliateQuota, require_of ht.confirmed, require_of hamount, pure_bind]
  rw [run_bind hthaw, run_get, h1.found]
  simp only [require_of (show ¬ user1.affQuota < amount by omega),
    require_of (show ¬ user1.quota + amount ≥ maxQuota by omega), pure_bind]
  rw [run_bind (r := s1.saveUser u (user1.transfer amount)) (a := ()) rfl]
  have hkeys : ∀ row ∈ (s1.saveUser u (user1.transfer amount)).ledger,
      row.sourceEventKey ≠ .transfer uuid := hfresh
  simp only [createAffiliateLedger, bind_assoc, run_get, require_of hkeys, pure_bind]
  exact ⟨_, _, rfl⟩

theorem affiliateCap_pos (h : affiliateCap cfg = .ok (some k)) : 0 < k := by
  unfold affiliateCap at h
  split at h
  · rename_i quota hquota
    cases h
    unfold affiliateBaseQuotaFromUSD affiliateBaseQuotaFromPayment at hquota
    split at hquota
    · cases hquota
    dsimp only at hquota
    split at hquota
    · cases hquota
    split at hquota
    · cases hquota
    split at hquota
    · cases hquota
    · cases hquota
      omega
  · split at h <;> cases h

theorem balanced_of_new (hu : s.users u = some user)
    (hzero : user.affQuota = 0 ∧ user.affFrozenQuota = 0 ∧ user.affHistoryQuota = 0)
    (hnew : ∀ row ∈ s.ledger, row.userId ≠ u) (hkeys : (s.ledger.map (·.sourceEventKey)).Nodup)
    (cfg : Settings) : Balanced u (affiliateCap cfg) s user := by
  obtain ⟨havailable, hfrozen, hhistory⟩ := hzero
  have hnone (p : AffiliateLedger → Prop) [DecidablePred p] (hp : ∀ row, p row → row.userId = u) :
      tally p s.ledger = 0 := tally_eq_zero fun row hrow h => hnew row hrow (hp row h)
  have hacc := hnone (Accrual u) fun _ h => h.1
  have hfro := hnone (Frozen u) fun _ h => h.1
  have htra := hnone (Transferred u) fun _ h => h.1
  refine ⟨hu, by omega, by omega, by omega, by omega, ?_, ?_, ?_, hkeys⟩
  · intro row hrow h
    exact absurd h (hnew row hrow)
  · intro row hrow h
    exact absurd h (hnew row hrow)
  intro k hk v
  rw [accruedReward_eq, hnone _ fun _ h => h.1]
  exact Int.le_of_lt (affiliateCap_pos hk)

/-- For every inviter who starts with nothing, under one cap: the three balances agree with the
ledger and are not negative, no source has two rows, what was thawed was thawed in time and once, no
invitee brings more than the cap, and a transfer that is answered moves its amount, a refused one
nothing. -/
theorem affiliate_books_balance (cfg : Settings) (hu : s.users u = some user)
    (hzero : user.affQuota = 0 ∧ user.affFrozenQuota = 0 ∧ user.affHistoryQuota = 0)
    (hnew : ∀ row ∈ s.ledger, row.userId ≠ u) (hkeys : (s.ledger.map (·.sourceEventKey)).Nodup)
    (hcs : ∀ c ∈ cs, 0 < c.now ∧ affiliateCap c.cfg = affiliateCap cfg) :
    (∃ user', (s.runAffiliate cs).users u = some user' ∧
      user'.affQuota + user'.affFrozenQuota =
        user'.affHistoryQuota - tally (Transferred u) (s.runAffiliate cs).ledger ∧
      user'.affFrozenQuota = tally (Frozen u) (s.runAffiliate cs).ledger ∧
      0 ≤ user'.affQuota ∧ 0 ≤ user'.affFrozenQuota ∧ 0 ≤ user'.affHistoryQuota ∧
      -- a transfer on top of the run
      ∀ c uuid amount, 0 < c.now → c.op = .transferAffiliateQuota uuid u amount →
        (Transferable c.cfg c.now uuid u amount (s.runAffiliate cs) user' →
          (commit c.transaction (s.runAffiliate cs)).1 = .ok ()) ∧
        match (commit c.transaction (s.runAffiliate cs)).1 with
        | .ok _ => 0 < amount ∧ ∃ after, Moved u c.now amount (s.runAffiliate cs)
            ((s.runAffiliate cs).onAffiliate c) user' after
        | .error _ => (s.runAffiliate cs).onAffiliate c = s.runAffiliate cs) ∧
    ((s.runAffiliate cs).ledger.map (·.sourceEventKey)).Nodup ∧
    (∀ row ∈ (s.runAffiliate cs).ledger, row.userId = u → row.thawedAt ≠ 0 →
      0 < row.frozenUntil ∧ row.frozenUntil ≤ row.thawedAt) ∧
    (∀ later, ∀ row ∈ (s.runAffiliate cs).ledger, row.thawedAt ≠ 0 →
      row ∈ ((s.runAffiliate cs).runAffiliate later).ledger) ∧
    (∀ k, affiliateCap cfg = .ok (some k) →
      ∀ v, accruedReward (s.runAffiliate cs).ledger u v ≤ k) := by
  obtain ⟨user', h⟩ := runAffiliate_balances cs ⟨user, balanced_of_new hu hzero hnew hkeys cfg⟩ hcs
  refine ⟨⟨user', h.found, h.total, h.frozen, h.available, h.frozen_nonneg, h.history_nonneg,
    fun c uuid amount hnow hop => ?_⟩, h.keys, h.timely, fun later => runAffiliate_keeps _ later,
    h.capped⟩
  have hleaves : c.transaction.Leaves (s.runAffiliate cs) fun _ s' =>
      0 < amount ∧ ∃ after, Moved u c.now amount (s.runAffiliate cs) s' user' after := by
    simp only [AffiliateCall.transaction, hop, leaves_bind, leaves_pure]
    exact transferAffiliateQuota_moves h hnow
  constructor
  · intro ht
    obtain ⟨answer, s', hrun⟩ := ht.runs h hnow
    have htx : c.transaction.run (s.runAffiliate cs) = .ok ((), s') := by
      simp only [AffiliateCall.transaction, hop]
      exact run_bind hrun
    rw [commit, htx]
  unfold onAffiliate
  rcases commit_cases hleaves with ⟨e, hc⟩ | ⟨_, s', hc, hs⟩
  · rw [hc]
  · rw [hc]
    exact hs

def office : Store where
  users := Function.update (Function.update (fun _ => none)
    7 (some { quota := 100, inviterId := 3 })) 3 (some { quota := 5 })

def program : Settings where
  affiliateEnabled := true
  affiliateActivatedAt := 10
  paymentComplianceConfirmed := true
  affiliateRebateRateBps := 1000
  affiliatePerInviteeCap := ⟨2, 0⟩
  affiliateFreezeHours := 1

def officeHours : List AffiliateCall :=
  [⟨program, 100, .applyAffiliateReward ⟨.topUp, 1, "T1", 7, 9000000, 50⟩⟩,
    ⟨program, 101, .applyAffiliateReward ⟨.topUp, 1, "T1", 7, 9000000, 50⟩⟩,
    ⟨program, 200, .transferAffiliateQuota "a" 3 600000⟩]

theorem officeHours_calls (c : AffiliateCall) (h : c ∈ officeHours) :
    0 < c.now ∧ affiliateCap c.cfg = affiliateCap program := by
  simp only [officeHours, mem_cons, not_mem_nil, or_false] at h
  rcases h with rfl | rfl | rfl
  all_goals exact ⟨by decide, rfl⟩

def lateTransfer : AffiliateCall := ⟨program, 4000, .transferAffiliateQuota "b" 3 600000⟩

theorem lateTransfer_ok :
    (commit lateTransfer.transaction (office.runAffiliate officeHours)).1 = .ok () := by
  decide +kernel

/-- The reward is frozen when the first transfer is tried, and thawed for the second. -/
theorem office_books_balance :
    (((office.runAffiliate officeHours).onAffiliate lateTransfer).users 3).map (·.affQuota) =
      some 300000 ∧
    ∃ user after, Moved 3 4000 600000 (office.runAffiliate officeHours)
      ((office.runAffiliate officeHours).onAffiliate lateTransfer) user after := by
  refine ⟨by decide +kernel, ?_⟩
  have hu : office.users 3 = some { quota := 5 } := rfl
  have hnew : ∀ row ∈ office.ledger, row.userId ≠ 3 := forall_mem_nil _
  have hkeys : (office.ledger.map (·.sourceEventKey)).Nodup := nodup_nil
  obtain ⟨⟨user, _, _, _, _, _, _, htransfer⟩, _⟩ :=
    affiliate_books_balance program hu (by decide) hnew hkeys officeHours_calls
  obtain ⟨_, hmoved⟩ := htransfer lateTransfer "b" 600000 (by decide) rfl
  rw [lateTransfer_ok] at hmoved
  exact ⟨user, hmoved.2⟩

end Ren2Hub.Proofs.AffiliateRuns
