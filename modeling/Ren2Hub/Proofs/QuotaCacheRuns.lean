import Mathlib.Algebra.Order.Ring.Int
import Ren2Hub.Billing.QuotaCache
import Ren2Hub.Lib.Crew
import Ren2Hub.Lib.Custody
import Ren2Hub.Lib.Inputs

namespace Ren2Hub.Proofs.QuotaCacheRuns
open Lib Billing.QuotaCache Reader List

variable {s s' : CacheState} {w : World} {t t' : Task} {r : Reader} {u : UserBase} {h h' : UserHash}
  {fails : Bool}

/-- What the rest of an operation adds to the row, less what it adds to the hash. -/
def due : Task → Int
  | .persisting quota | .compensating quota => -quota
  | .cacheDelta delta => -delta
  | .databaseDelta delta => delta
  | _ => 0

def amount : Task → Int
  | .reserving quota | .hydrating quota _ | .retrying quota | .persisting quota
  | .compensating quota | .fallingBack quota => quota
  | _ => 0

def dues (tasks : List Task) : Int := (tasks.map due).sum

/-- The rest of the operation writes the row without the hash, or removes the hash. -/
def bypasses : Task → Bool
  | .fallingBack _ | .deleting _ | .committing _ => true
  | _ => false

def readerSnapshot : Reader → Option UserBase
  | .checking user | .publishing user => some user
  | _ => none

def snapshot : Task → Option UserBase
  | .read reader | .hydrating _ reader => readerSnapshot reader
  | _ => none

/-- The snapshot that the step of a reader puts into Redis, where there was no hash. -/
def readerFill (fails : Bool) (s : CacheState) : Reader → Option UserBase
  | .publishing user =>
    if user.authVersion ≤ 0 ∨ fails ∨ s.newerThan user.authVersion ∨ s.hash.isSome then none
    else some user
  | _ => none

def fill (fails : Bool) (s : CacheState) : Task → Option UserBase
  | .read reader | .hydrating _ reader => readerFill fails s reader
  | _ => none

def givesUp (fails : Bool) (s : CacheState) : Reader → Bool
  | .loading => fails
  | .checking user => ¬ fails ∧ s.getUserAuthVersionFloor > user.authVersion
  | .publishing user => 0 < user.authVersion ∧ ¬ fails ∧ s.newerThan user.authVersion
  | .finished ok => !ok
  | _ => false

/-- The operation goes on past an error with the row only, or leaves the hash
under the fence. -/
def strands (fails : Bool) (s : CacheState) : Task → Bool
  | .reserving _ | .retrying _ | .deleting _ => fails
  | .hydrating _ reader => givesUp fails s reader
  | .cacheDelta delta => fails ∧ delta < 0
  | .databaseDelta delta => fails ∧ 0 < delta
  | _ => false

/-- No fence, mutation or fallback under way, and the deltas to come raise the hash no more than the
row. -/
def Calm (w : World) : Prop :=
  w.state.fenced = false ∧ 0 ≤ dues w.tasks ∧ ∀ t ∈ w.tasks, bypasses t = false

instance (w : World) : Decidable (Calm w) := inferInstanceAs (Decidable (_ ∧ _ ∧ _))

/-- A snapshot is published in calm and before the next write to the row, and an operation is
stranded only without a hash. -/
def Guarded (w : World) (fails : Bool) (t : Task) : Prop :=
  (∀ u ∈ fill fails w.state t, Calm w ∧ u.readAt = w.state.writes) ∧
    (strands fails w.state t = true → w.state.hash = none)

instance (w : World) (fails : Bool) (t : Task) : Decidable (Guarded w fails t) :=
  inferInstanceAs (Decidable (_ ∧ _))

def Orderly (w : World) : Event → Prop
  | .step i fails => ∀ t ∈ w.tasks[i]?, Guarded w fails t
  | _ => True

instance (w : World) : (e : Event) → Decidable (Orderly w e)
  | .step i fails => inferInstanceAs (Decidable (∀ t ∈ w.tasks[i]?, Guarded w fails t))
  | .getUserCache | .tryReserveUserQuota _ | .increaseUserQuota _ | .decreaseUserQuota _
  | .mutation _ | .tick _ | .hashRemoved | .authChanged _ _ _ | .updateUserCache _ =>
    inferInstanceAs (Decidable True)

structure SameRow (s s' : CacheState) : Prop where
  quota : s'.quota = s.quota
  writes : s'.writes = s.writes
  commits : s'.commits = s.commits

/-- The row and the quota fence are as before. -/
structure HashOnly (s s' : CacheState) : Prop extends SameRow s s' where
  fenced : s'.fenced = s.fenced

theorem HashOnly.refl : HashOnly s s := ⟨⟨rfl, rfl, rfl⟩, rfl⟩

theorem writeUserCache_hashOnly (includeQuota : Bool) :
    HashOnly s (writeUserCache fails u includeQuota s).1 := by
  unfold writeUserCache
  split
  · exact .refl
  simp only [CacheState.writeUserCacheScript]
  split
  · exact .refl
  split
  · exact ⟨⟨rfl, rfl, rfl⟩, rfl⟩
  · split <;> exact ⟨⟨rfl, rfl, rfl⟩, rfl⟩

theorem reader_hashOnly : HashOnly s (r.step fails s).1 := by
  cases r with
  | publishing => exact writeUserCache_hashOnly true
  | lookingUp =>
    simp only [step]
    split <;> exact .refl
  | judging | loading | checking | finished => exact .refl

theorem userQuotaReserveScript_cases (s : CacheState) (amount : Int) :
    ((s.userQuotaReserveScript amount).1 = s ∧
      ((s.userQuotaReserveScript amount).2 = .insufficient ∨
        ((s.userQuotaReserveScript amount).2 = .miss ∨
          (s.userQuotaReserveScript amount).2 = .fenced) ∧ (s.hash = none ∨ s.fenced = true))) ∨
      ∃ h, s.hash = some h ∧ s.userQuotaReserveScript amount =
        (s.setHash (some { h with quota := h.quota - amount }), .ok) := by
  unfold CacheState.userQuotaReserveScript
  cases hf : s.fenced with
  | true => exact .inl ⟨rfl, .inr ⟨.inr rfl, .inr rfl⟩⟩
  | false =>
    cases hs : s.hash with
    | none => exact .inl ⟨rfl, .inr ⟨.inl rfl, .inl rfl⟩⟩
    | some h => by_cases hq : h.quota < amount <;> simp [hq]

theorem userQuotaDeltaScript_cases (s : CacheState) (delta : Int) :
    ((s.userQuotaDeltaScript delta).1 = s ∧ (s.hash = none ∨ s.fenced = true)) ∨
      ∃ h, s.hash = some h ∧
        (s.userQuotaDeltaScript delta).1 =
          s.setHash (some { h with quota := h.quota + delta }) := by
  unfold CacheState.userQuotaDeltaScript
  cases hf : s.fenced with
  | true => exact .inl ⟨rfl, .inr rfl⟩
  | false =>
    cases hs : s.hash with
    | none => exact .inl ⟨rfl, .inl rfl⟩
    | some h => simp

theorem writeUserCache_some (hs : s.hash = some h) (includeQuota : Bool) :
    ∃ v, (writeUserCache fails u includeQuota s).1.hash = some { h with authVersion := v } := by
  unfold writeUserCache
  split
  · exact ⟨h.authVersion, hs⟩
  simp only [CacheState.writeUserCacheScript]
  split
  · exact ⟨h.authVersion, hs⟩
  have hp : (s.publishVersion u.authVersion).hash = some h := hs
  rw [hp]
  exact ⟨u.authVersion, rfl⟩

theorem writeUserCache_none (hs : s.hash = none)
    (hh : (writeUserCache fails u includeQuota s).1.hash = some h) :
    includeQuota = true ∧ readerFill fails s (.publishing u) = some u ∧
      h = ⟨u.authVersion, u.quota, u.seen⟩ := by
  unfold writeUserCache at hh
  split at hh
  · simp [hs] at hh
  next hv =>
  simp only [CacheState.writeUserCacheScript] at hh
  split at hh
  · simp [hs] at hh
  next hn =>
  have hp : (s.publishVersion u.authVersion).hash = none := hs
  rw [hp] at hh
  cases includeQuota with
  | false => simp [hp] at hh
  | true =>
    have he : h = ⟨u.authVersion, u.quota, u.seen⟩ := by
      simpa [CacheState.setHash] using hh.symm
    exact ⟨rfl, by simp [readerFill, hv, hn, hs], he⟩

theorem reader_some (r : Reader) (fails : Bool) (hs : s.hash = some h) :
    ∃ v, (r.step fails s).1.hash = some { h with authVersion := v } := by
  cases r with
  | publishing => exact writeUserCache_some hs true
  | lookingUp => exact ⟨h.authVersion, by simp [step, hs]⟩
  | judging | loading | checking | finished => exact ⟨h.authVersion, hs⟩

theorem reader_none (hs : s.hash = none) (hh : (r.step fails s).1.hash = some h) :
    ∃ u, readerFill fails s r = some u ∧ h = ⟨u.authVersion, u.quota, u.seen⟩ := by
  cases r with
  | publishing user => exact ⟨user, (writeUserCache_none hs hh).2⟩
  | lookingUp | judging | loading | checking | finished => simp [step, hs] at hh

theorem writeUserCacheScript_accepted (includeQuota : Bool) :
    (s.writeUserCacheScript u includeQuota).2 = !s.newerThan u.authVersion := by
  unfold CacheState.writeUserCacheScript
  split
  · next hn => simp [hn]
  next hn =>
  simp only [hn]
  split
  · rfl
  · split <;> rfl

theorem reader_givesUp (hr : (r.step fails s).2 = .finished false) : givesUp fails s r = true := by
  cases r with
  | lookingUp =>
    simp only [step] at hr
    split at hr
    · cases hr
    · dsimp only at hr
      split at hr <;> cases hr
  | judging =>
    simp only [step] at hr
    split at hr <;> cases hr
  | loading =>
    simp only [step] at hr
    split at hr
    · assumption
    · cases hr
  | checking user =>
    simp only [step] at hr
    split at hr
    · next hc => simpa [givesUp] using hc
    · cases hr
  | publishing user =>
    simp only [step, writeUserCache] at hr
    split at hr
    · simp at hr
    next hv =>
    have hn : s.newerThan user.authVersion = true := by
      simpa [writeUserCacheScript_accepted] using hr
    simp only [not_or] at hv
    have hp : 0 < user.authVersion := by omega
    simp [givesUp, hv, hn, hp]
  | finished => simpa [givesUp, step] using hr

/-- What one step does, in the terms of what is still to come. -/
inductive Effect (fails : Bool) (s : CacheState) (t : Task) : CacheState → Task → Prop where
  | read (r : Reader) {t' : Task} (ht : snapshot t = readerSnapshot r)
      (hfill : fill fails s t = readerFill fails s r) (hd : due t = 0 ∧ due t' = 0)
      (hsnap : snapshot t' = readerSnapshot (r.step fails s).2) (ha : amount t' = amount t)
      (hb : bypasses t' = true → givesUp fails s r = true ∧ strands fails s t = true ∧
        ∃ q, t' = .fallingBack q) : Effect fails s t (r.step fails s).1 t'
  | still {t' : Task} (hsnap : snapshot t' = none) (ha : 0 ≤ amount t → 0 ≤ amount t')
      (hc : ∀ d, t' ≠ .committing d)
      (hk : s.hash ≠ none → s.fenced = false → strands fails s t = false → 0 ≤ amount t →
        due t ≤ due t' ∧ ∀ q, t' ≠ .fallingBack q) : Effect fails s t s t'
  | reserve {h : UserHash} (q : Int) (hs : s.hash = some h) (ha : amount t = q) (hd : due t = 0) :
      Effect fails s t (s.setHash (some { h with quota := h.quota - q })) (.persisting q)
  | delta {h : UserHash} (d : Int) (ok : Bool) (hs : s.hash = some h) (hd : due t = -d) :
      Effect fails s t (s.setHash (some { h with quota := h.quota + d })) (.finished ok)
  | write (d : Int) (ok : Bool) (hd : bypasses t = false → due t = d) :
      Effect fails s t (s.addQuota d) (.finished ok)
  | fence (d : Int) (hd : due t = 0) : Effect fails s t s.setFence (.deleting d)
  | delete (d : Int) : Effect fails s t (s.setHash none) (.committing d)
  | commit (d : Int) (ht : t = .committing d) : Effect fails s t (s.commit d) (.finished true)

theorem effect_read :
    Effect fails s (.read r) (r.step fails s).1 (.afterRead (r.step fails s).2) := by
  cases hr : (r.step fails s).2 <;> exact .read r rfl rfl ⟨rfl, rfl⟩ (by rw [hr]; rfl) rfl (nofun)

theorem effect_hydrate (quota : Int) : Effect fails s (.hydrating quota r) (r.step fails s).1
    (.afterHydrate quota (r.step fails s).2) := by
  cases hr : (r.step fails s).2 with
  | finished ok =>
    cases ok with
    | true => exact .read r rfl rfl ⟨rfl, rfl⟩ (by rw [hr]; rfl) rfl nofun
    | false =>
      have hg := reader_givesUp hr
      exact .read r rfl rfl ⟨rfl, rfl⟩ (by rw [hr]; rfl) rfl fun _ => ⟨hg, hg, quota, rfl⟩
  | _ => exact .read r rfl rfl ⟨rfl, rfl⟩ (by rw [hr]; rfl) rfl nofun

theorem Effect.ended (ok : Bool) (hk : s.hash ≠ none → s.fenced = false →
    strands fails s t = false → 0 ≤ amount t → due t ≤ 0) : Effect fails s t s (.finished ok) :=
  .still rfl (fun _ => Int.le_refl 0) (nofun) fun hs hf hn ha =>
    ⟨hk hs hf hn ha, nofun⟩

theorem effect_reserve (hd : due t = 0) (ha : amount t = quota) (after : CacheQuotaResult → Task)
    (hok : after .ok = .persisting quota) (hno : after .insufficient = .finished false)
    (hmiss : ∀ x, x = .miss ∨ x = .fenced → snapshot (after x) = none ∧ amount (after x) = quota ∧
      ∀ d, after x ≠ .committing d) :
    Effect fails s t (s.userQuotaReserveScript quota).1
      (after (s.userQuotaReserveScript quota).2) := by
  rcases userQuotaReserveScript_cases s quota with ⟨he, hr | ⟨hr, hgone⟩⟩ | ⟨h, hs, he⟩
  · rw [he, hr, hno]
    exact .ended false fun _ _ _ _ => hd.le
  · obtain ⟨hsnap, hq, hc⟩ := hmiss _ hr
    rw [he]
    refine .still hsnap (fun h => by rw [hq, ← ha]; exact h) hc fun hs hf => ?_
    rcases hgone with hg | hg
    · exact absurd hg hs
    · rw [hg] at hf
      cases hf
  · rw [he, hok]
    exact .reserve quota hs ha hd

theorem effect_delta (ok : Bool) (hd : due t = -d) :
    Effect fails s t (s.userQuotaDeltaScript d).1 (.finished ok) := by
  rcases userQuotaDeltaScript_cases s d with ⟨he, hgone⟩ | ⟨h, hs, he⟩ <;> rw [he]
  · refine .ended ok fun hs hf => ?_
    rcases hgone with hg | hg
    · exact absurd hg hs
    · rw [hg] at hf
      cases hf
  · exact .delta d ok hs hd

theorem step_effect (fails : Bool) (s : CacheState) (t : Task) :
    Effect fails s t (t.step fails s).1 (t.step fails s).2 := by
  cases t with
  | read => exact effect_read
  | hydrating quota => exact effect_hydrate quota
  | reserving quota =>
    cases fails with
    | true => exact .still rfl id (nofun) nofun
    | false =>
      refine effect_reserve rfl rfl (Task.afterReserve quota) rfl rfl fun x hx => ?_
      rcases hx with rfl | rfl <;> exact ⟨rfl, rfl, nofun⟩
  | retrying quota =>
    cases fails with
    | true => exact .still rfl id (nofun) nofun
    | false =>
      refine effect_reserve rfl rfl (Task.afterRetry quota) rfl rfl fun x hx => ?_
      rcases hx with rfl | rfl <;> exact ⟨rfl, rfl, nofun⟩
  | persisting quota =>
    cases fails with
    | true => exact .still rfl id (nofun) fun _ _ _ _ =>
        ⟨Int.le_refl _, nofun⟩
    | false => exact .write (-quota) true fun _ => rfl
  | compensating =>
    cases fails with
    | true => exact .ended false fun _ _ _ ha => Int.neg_nonpos_of_nonneg ha
    | false => exact effect_delta false rfl
  | fallingBack quota =>
    cases fails with
    | true => exact .ended false fun _ _ _ _ => Int.le_refl 0
    | false =>
      simp only [Task.step, CacheState.reserveUserQuotaDB, Bool.false_eq_true, if_false]
      split
      · exact .write (-quota) true nofun
      · exact .ended false fun _ _ _ _ => Int.le_refl 0
  | cacheDelta =>
    cases fails with
    | true => exact .ended false fun _ _ hn _ => by simpa [strands, due] using hn
    | false => exact effect_delta true rfl
  | databaseDelta delta =>
    cases fails with
    | true => exact .ended false fun _ _ hn _ => by simpa [strands, due] using hn
    | false => exact .write delta true fun _ => rfl
  | fencing delta =>
    cases fails with
    | true => exact .ended false fun _ _ _ _ => Int.le_refl 0
    | false => exact .fence delta rfl
  | deleting delta =>
    cases fails with
    | true => exact .ended false fun _ _ _ _ => Int.le_refl 0
    | false => exact .delete delta
  | committing delta =>
    cases fails with
    | true => exact .ended false fun _ _ _ _ => Int.le_refl 0
    | false => exact .commit delta rfl
  | finished ok => exact .ended ok fun _ _ _ _ => Int.le_refl 0

/-- What a step does to a hash that is there and to what is still to come. -/
structure Kept (s s' : CacheState) (h h' : UserHash) (t t' : Task) : Prop where
  quota : h'.quota + s.quota + due t ≤ h.quota + s'.quota + due t'
  fence : s'.fenced = false ∨ ∃ d, t' = .deleting d
  onward : ∀ q, t' ≠ .fallingBack q

/-- Away from the fence, a step that is not stranded takes no more from the row than from the hash.
-/
theorem Effect.kept (he : Effect fails s t s' t') (hs : s.hash = some h) (hf : s.fenced = false)
    (hn : strands fails s t = false) (hb : bypasses t = false) (ha : 0 ≤ amount t)
    (hh : s'.hash = some h') : Kept s s' h h' t t' := by
  cases he with
  | read r _ _ hd _ _ hup =>
    obtain ⟨v, hv⟩ := reader_some r fails hs
    have hr : HashOnly s (r.step fails s).1 := reader_hashOnly
    obtain rfl := Option.some.inj (hv.symm.trans hh)
    refine ⟨?_, .inl (hr.fenced.trans hf), fun q hq => ?_⟩
    · rw [hr.quota, hd.1, hd.2]
    · subst hq
      cases hn.symm.trans (hup rfl).2.1
  | still _ _ _ hk =>
    obtain rfl := Option.some.inj (hs.symm.trans hh)
    obtain ⟨hd, hq⟩ := hk (by simp [hs]) hf hn ha
    exact ⟨by omega, .inl hf, hq⟩
  | reserve q hs' _ hd | delta q ok hs' hd =>
    obtain rfl := Option.some.inj (hs.symm.trans hs')
    obtain rfl := Option.some.inj hh
    refine ⟨?_, .inl hf, fun q hq => by cases hq⟩
    rw [hd]
    simp only [CacheState.setHash, due]
    omega
  | write d ok hd =>
    obtain rfl := Option.some.inj (hs.symm.trans hh)
    refine ⟨?_, .inl hf, fun q hq => by cases hq⟩
    rw [hd hb]
    simp only [CacheState.addQuota, due]
    omega
  | fence d hd =>
    obtain rfl := Option.some.inj (hs.symm.trans hh)
    refine ⟨?_, .inr ⟨d, rfl⟩, fun q hq => by cases hq⟩
    rw [hd]
    exact Int.le_refl _
  | delete => cases hh
  | commit d ht =>
    subst ht
    cases hb

theorem Effect.committing (he : Effect fails s t s' (.committing d)) : s'.hash = none := by
  cases he with
  | read _ _ _ _ _ _ hb =>
    obtain ⟨_, _, q, hq⟩ := hb rfl
    cases hq
  | still _ _ hc => exact absurd rfl (hc d)
  | delete => rfl

theorem Effect.seen (he : Effect fails s t s' t') (hs : s.hash = some h)
    (hc : ∀ d, t ≠ .committing d) (hh : s'.hash = some h') :
    h'.seen = h.seen ∧ s'.commits = s.commits := by
  cases he with
  | read r =>
    obtain ⟨v, hv⟩ := reader_some r fails hs
    obtain rfl := Option.some.inj (hv.symm.trans hh)
    exact ⟨rfl, reader_hashOnly.commits⟩
  | reserve q hs' | delta q ok hs' =>
    obtain rfl := Option.some.inj (hs.symm.trans hs')
    obtain rfl := Option.some.inj hh
    exact ⟨rfl, rfl⟩
  | still | write | fence =>
    obtain rfl := Option.some.inj (hs.symm.trans hh)
    exact ⟨rfl, rfl⟩
  | delete => cases hh
  | commit d ht => exact absurd ht (hc d)

theorem fill_snapshot (hu : readerFill fails s r = some u) : readerSnapshot r = some u := by
  cases r with
  | publishing =>
    simp only [readerFill] at hu
    split at hu
    · cases hu
    · exact hu
  | _ => cases hu

theorem fill_goes (hu : readerFill fails s r = some u) : givesUp fails s r = false := by
  cases r with
  | publishing =>
    simp only [readerFill] at hu
    split at hu
    · cases hu
    · simp_all [givesUp]
  | _ => cases hu

theorem Effect.filled (he : Effect fails s t s' t') (hs : s.hash = none) (hh : s'.hash = some h) :
    ∃ u, fill fails s t = some u ∧ snapshot t = some u ∧
      h = ⟨u.authVersion, u.quota, u.seen⟩ ∧ HashOnly s s' ∧
      due t' = due t ∧ bypasses t' = false := by
  cases he with
  | read r ht hfill hd _ _ hb =>
    obtain ⟨u, hu, he⟩ := reader_none hs hh
    refine ⟨u, hfill.trans hu, ht.trans (fill_snapshot hu), he, reader_hashOnly,
      hd.2.trans hd.1.symm, ?_⟩
    by_contra hno
    cases (fill_goes hu).symm.trans (hb (by simpa using hno)).1
  | reserve _ hs' | delta _ _ hs' => cases hs.symm.trans hs'
  | delete => cases hh
  | still | write | fence | commit => cases hs.symm.trans hh

theorem Effect.row (he : Effect fails s t s' t') : SameRow s s' ∨ s.writes < s'.writes := by
  cases he with
  | read => exact .inl reader_hashOnly.toSameRow
  | write | commit => exact .inr (Nat.lt_succ_self _)
  | _ => exact .inl ⟨rfl, rfl, rfl⟩

theorem reader_snapshot (hu : readerSnapshot (r.step fails s).2 = some u) :
    readerSnapshot r = some u ∨ u = s.row ∧ (r.step fails s).1 = s := by
  cases r with
  | lookingUp =>
    simp only [step] at hu
    split at hu
    · cases hu
    · dsimp only at hu
      split at hu <;> cases hu
  | judging =>
    simp only [step] at hu
    split at hu <;> cases hu
  | loading =>
    simp only [step] at hu
    split at hu
    · cases hu
    · exact .inr ⟨(Option.some.inj hu).symm, rfl⟩
  | checking =>
    simp only [step] at hu
    split at hu
    · cases hu
    · exact .inl hu
  | publishing | finished => cases hu

theorem Effect.snapshot (he : Effect fails s t s' t') (hu : QuotaCacheRuns.snapshot t' = some u) :
    QuotaCacheRuns.snapshot t = some u ∨ u = s.row ∧ s' = s := by
  cases he with
  | read r ht _ _ hsnap =>
    rcases reader_snapshot (hsnap.symm.trans hu) with hr | hr
    · exact .inl (ht.trans hr)
    · exact .inr hr
  | still hsnap => cases hsnap.symm.trans hu
  | _ => cases hu

theorem Effect.amount (he : Effect fails s t s' t') (ha : 0 ≤ QuotaCacheRuns.amount t) :
    0 ≤ QuotaCacheRuns.amount t' := by
  cases he with
  | read _ _ _ _ _ hq => exact hq ▸ ha
  | still _ hq => exact hq ha
  | reserve q _ hq => exact hq ▸ ha
  | _ => exact Int.le_refl 0

/-- The hash is away from the fence and, with all that is still to come, not above
the row. -/
structure Covered (s : CacheState) (tasks : List Task) (h : UserHash) : Prop where
  fence : s.fenced = false
  quota : h.quota ≤ s.quota + dues tasks
  through : ∀ q, .fallingBack q ∉ tasks

/-- The snapshot tells what is in the row until the next write. -/
def Current (s : CacheState) (u : UserBase) : Prop :=
  u.readAt ≤ s.writes ∧ (u.readAt = s.writes → u.quota = s.quota ∧ u.seen = s.commits)

/-- A hash that no operation is about to delete is covered, and no hash is older
than a commit. -/
structure Sound (w : World) : Prop where
  kept : ∀ h, w.state.hash = some h → (∀ d, .deleting d ∉ w.tasks) → Covered w.state w.tasks h
  seen : ∀ h, w.state.hash = some h → h.seen = w.state.commits ∧ ∀ d, .committing d ∉ w.tasks
  snapshots : ∀ t ∈ w.tasks, ∀ u, snapshot t = some u → Current w.state u
  amounts : ∀ t ∈ w.tasks, 0 ≤ amount t

section Step
variable {i : Nat}

theorem dues_set (hi : ts[i]? = some t) : dues (ts.set i t') = dues ts - due t + due t' :=
  sum_map_set due hi t'

theorem Calm.not_mem (hc : Calm w) (hx : bypasses x = true) : x ∉ w.tasks := by
  intro hm
  rw [hc.2.2 x hm] at hx
  cases hx

theorem not_deleting (hg : Guarded w fails t) (hs : w.state.hash = some h)
    (hh : (t.step fails w.state).1.hash = some h') (d : Int) : t ≠ .deleting d := by
  rintro rfl
  cases fails with
  | true => cases hs.symm.trans (hg.2 rfl)
  | false => cases hh

theorem Sound.kept_step (hw : Sound w) (hi : w.tasks[i]? = some t) (hg : Guarded w fails t) :
    ∀ h, (t.step fails w.state).1.hash = some h →
      (∀ d, .deleting d ∉ w.tasks.set i (t.step fails w.state).2) →
      Covered (t.step fails w.state).1 (w.tasks.set i (t.step fails w.state).2) h := by
  intro h' hh hd'
  have ht := mem_of_getElem? hi
  cases hs : w.state.hash with
  | none =>
    obtain ⟨u, hu, hsnap, rfl, hrow, hdue, hb⟩ := (step_effect fails w.state t).filled hs hh
    obtain ⟨hc, hread⟩ := hg.1 u hu
    have hq := ((hw.snapshots t ht u hsnap).2 hread).1
    have hsum : 0 ≤ dues w.tasks := hc.2.1
    refine ⟨hrow.fenced.trans hc.1, ?_, fun q => Crew.not_mem_set (hc.not_mem rfl) ?_⟩
    · rw [dues_set hi, hrow.quota, hdue, hq]
      dsimp only
      omega
    intro he
    rw [he] at hb
    cases hb
  | some h =>
    have hnd := not_deleting hg hs hh
    have hd : ∀ d, .deleting d ∉ w.tasks := fun d hm =>
      hd' d (Crew.mem_set_of_ne hm hi (hnd d).symm _)
    obtain ⟨hf, hq, hfall⟩ := hw.kept h hs hd
    have hst : strands fails w.state t = false := by
      by_contra hst
      cases hs.symm.trans (hg.2 (by simpa using hst))
    have hb : bypasses t = false := by
      cases t with
      | fallingBack q => exact absurd ht (hfall q)
      | deleting d => exact absurd rfl (hnd d)
      | committing d => exact absurd ht ((hw.seen h hs).2 d)
      | _ => rfl
    have hk := (step_effect fails w.state t).kept hs hf hst hb (hw.amounts t ht) hh
    refine ⟨?_, ?_, fun q => Crew.not_mem_set (hfall q) (hk.onward q)⟩
    · rcases hk.fence with hf' | ⟨d, hd''⟩
      · exact hf'
      · rw [hd''] at hd'
        exact absurd (mem_set (List.getElem?_eq_some_iff.mp hi).1 _) (hd' d)
    · have hq' := hk.quota
      rw [dues_set hi]
      omega

theorem Sound.seen_step (hw : Sound w) (hi : w.tasks[i]? = some t) (hg : Guarded w fails t) :
    ∀ h, (t.step fails w.state).1.hash = some h →
      h.seen = (t.step fails w.state).1.commits ∧
        ∀ d, .committing d ∉ w.tasks.set i (t.step fails w.state).2 := by
  intro h' hh
  have ht := mem_of_getElem? hi
  have hnc : ∀ d, (t.step fails w.state).2 ≠ .committing d := by
    intro d hd
    have he := step_effect fails w.state t
    rw [hd] at he
    cases he.committing.symm.trans hh
  cases hs : w.state.hash with
  | none =>
    obtain ⟨u, hu, hsnap, rfl, hrow, -, -⟩ := (step_effect fails w.state t).filled hs hh
    obtain ⟨hc, hread⟩ := hg.1 u hu
    have hseen := ((hw.snapshots t ht u hsnap).2 hread).2
    exact ⟨hseen.trans hrow.commits.symm, fun d => Crew.not_mem_set (hc.not_mem rfl) (hnc d)⟩
  | some h =>
    obtain ⟨hseen, hcommit⟩ := hw.seen h hs
    have hc : ∀ d, t ≠ .committing d := by
      rintro d rfl
      exact hcommit d ht
    obtain ⟨he, hcs⟩ := (step_effect fails w.state t).seen hs hc hh
    exact ⟨by rw [he, hcs, hseen], fun d => Crew.not_mem_set (hcommit d) (hnc d)⟩

theorem Current.step (hu : Current s u) (t : Task) : Current (t.step fails s).1 u := by
  obtain ⟨hle, heq⟩ := hu
  rcases (step_effect fails s t).row with hr | hlt
  · unfold Current
    rw [hr.writes, hr.quota, hr.commits]
    exact ⟨hle, heq⟩
  · exact ⟨by omega, fun he => by omega⟩

theorem Sound.snapshots_step (hw : Sound w) (hi : w.tasks[i]? = some t) :
    ∀ x ∈ w.tasks.set i (t.step fails w.state).2, ∀ u, snapshot x = some u →
      Current (t.step fails w.state).1 u := by
  intro x hx u hu
  rcases mem_or_eq_of_mem_set hx with hx | rfl
  · exact (hw.snapshots x hx u hu).step t
  rcases (step_effect fails w.state t).snapshot hu with hu | ⟨rfl, he⟩
  · exact (hw.snapshots t (mem_of_getElem? hi) u hu).step t
  · rw [he]
    exact ⟨Nat.le_refl _, fun _ => ⟨rfl, rfl⟩⟩

theorem Sound.stepTask (hw : Sound w) (hg : ∀ t ∈ w.tasks[i]?, Guarded w fails t) :
    Sound (w.stepTask i fails) := by
  unfold World.stepTask
  cases hi : w.tasks[i]? with
  | none => exact hw
  | some t =>
    refine ⟨hw.kept_step hi (hg t hi), hw.seen_step hi (hg t hi), hw.snapshots_step hi, ?_⟩
    intro x hx
    rcases mem_or_eq_of_mem_set hx with hx | rfl
    · exact hw.amounts x hx
    · exact (step_effect fails w.state t).amount (hw.amounts t (mem_of_getElem? hi))

end Step

structure Fresh (tasks : List Task) : Prop where
  due : dues tasks = 0
  each : ∀ t ∈ tasks, bypasses t = false ∧ snapshot t = none ∧ 0 ≤ amount t

theorem fresh_nil : Fresh [] := ⟨rfl, by simp⟩

theorem fresh_single (hd : due t = 0)
    (ht : bypasses t = false ∧ snapshot t = none ∧ 0 ≤ amount t) : Fresh [t] :=
  ⟨by simp [dues, hd], by simpa using ht⟩

theorem fresh_deltas (d : Int) : Fresh [.cacheDelta d, .databaseDelta d] :=
  ⟨by simp [dues, QuotaCacheRuns.due], by simp [bypasses, snapshot, amount]⟩

theorem Sound.start (hw : Sound w) (hts : Fresh ts) : Sound (w.start ts) := by
  have hnot : ∀ {x}, bypasses x = true → x ∉ w.tasks → x ∉ w.tasks ++ ts := by
    intro x hx hm hmem
    rcases mem_append.mp hmem with hold | hnew
    · exact hm hold
    · rw [(hts.each x hnew).1] at hx
      cases hx
  refine ⟨?_, ?_, ?_, ?_⟩
  · intro h hh hdel
    obtain ⟨hf, hq, hfall⟩ := hw.kept h hh fun d hm => hdel d (mem_append_left _ hm)
    refine ⟨hf, ?_, fun q => hnot rfl (hfall q)⟩
    have hsum : dues (w.tasks ++ ts) = dues w.tasks := by
      rw [dues, map_append, sum_append]
      change dues w.tasks + dues ts = _
      rw [hts.due, add_zero]
    change h.quota ≤ w.state.quota + dues (w.tasks ++ ts)
    rwa [hsum]
  · intro h hh
    obtain ⟨hseen, hcommit⟩ := hw.seen h hh
    exact ⟨hseen, fun d => hnot rfl (hcommit d)⟩
  · intro t ht u hu
    rcases mem_append.mp ht with ht | ht
    · exact hw.snapshots t ht u hu
    · cases (hts.each t ht).2.1.symm.trans hu
  · intro t ht
    rcases mem_append.mp ht with ht | ht
    · exact hw.amounts t ht
    · exact (hts.each t ht).2.2

theorem Sound.state (hw : Sound w) (hr : SameRow w.state s')
    (hf : w.state.fenced = false → s'.fenced = false) (hh : ∀ h', s'.hash = some h' →
      ∃ h, w.state.hash = some h ∧ h'.quota = h.quota ∧ h'.seen = h.seen) :
    Sound { w with state := s' } := by
  refine ⟨?_, ?_, ?_, hw.amounts⟩
  · intro h' hh' hdel
    obtain ⟨h, hs, hq, -⟩ := hh h' hh'
    have hc := hw.kept h hs hdel
    refine ⟨hf hc.fence, ?_, hc.through⟩
    rw [hq, hr.quota]
    exact hc.quota
  · intro h' hh'
    obtain ⟨h, hs, -, hseen⟩ := hh h' hh'
    rw [hseen, hr.commits]
    exact hw.seen h hs
  · intro t ht u hu
    unfold Current
    rw [hr.writes, hr.quota, hr.commits]
    exact hw.snapshots t ht u hu

theorem Sound.on (hw : Sound w) (e : Event) (he : Orderly w e) : Sound (w.on e) := by
  cases e with
  | getUserCache | mutation => exact hw.start (fresh_single rfl ⟨rfl, rfl, Int.le_refl 0⟩)
  | tryReserveUserQuota quota =>
    apply hw.start
    unfold Billing.QuotaCache.tryReserveUserQuota
    split
    · exact fresh_nil
    · next hq => exact fresh_single rfl ⟨rfl, rfl, (not_le.mp hq).le⟩
  | increaseUserQuota quota =>
    apply hw.start
    unfold Billing.QuotaCache.increaseUserQuota
    split
    · exact fresh_nil
    · exact fresh_deltas quota
  | decreaseUserQuota quota =>
    apply hw.start
    unfold Billing.QuotaCache.decreaseUserQuota
    split
    · exact fresh_nil
    · exact fresh_deltas (-quota)
  | step => exact hw.stepTask he
  | tick =>
    refine hw.state ⟨rfl, rfl, rfl⟩ ?_ fun h' hh => ⟨h', hh, rfl, rfl⟩
    simp only [CacheState.fenced, decide_eq_false_iff_not]
    omega
  | hashRemoved =>
    refine hw.state ⟨rfl, rfl, rfl⟩ id ?_
    intro h' hh
    cases hh
  | authChanged =>
    exact hw.state ⟨rfl, rfl, rfl⟩ id fun h' hh => ⟨h', hh, rfl, rfl⟩
  | updateUserCache user =>
    have hr : HashOnly w.state (writeUserCache false user false w.state).1 :=
      writeUserCache_hashOnly false
    apply hw.state hr.toSameRow
    · exact hr.fenced.trans
    intro h' hh
    cases hs : w.state.hash with
    | none => cases (writeUserCache_none hs hh).1
    | some h =>
      obtain ⟨v, hv⟩ := writeUserCache_some hs false
      obtain rfl := Option.some.inj (hv.symm.trans hh)
      exact ⟨h, rfl, rfl, rfl⟩

theorem sound_init (hs : s.hash = none) : Sound { state := s } := by
  refine ⟨?_, ?_, ?_, ?_⟩
  · intro h hh
    cases hs.symm.trans hh
  · intro h hh
    cases hs.symm.trans hh
  · exact forall_mem_nil _
  · exact forall_mem_nil _

theorem dues_quiet (hq : w.quiet = true) : dues w.tasks = 0 := by
  apply sum_eq_zero
  intro d hd
  obtain ⟨t, ht, rfl⟩ := mem_map.mp hd
  have h := all_eq_true.mp hq t ht
  cases t <;> simp_all [due]

theorem not_deleting_of_quiet (hq : w.quiet = true) (d : Int) : .deleting d ∉ w.tasks := by
  intro hm
  have h := all_eq_true.mp hq _ hm
  cases h

/-- With nothing in flight and no fence active the cached balance is not above the row, and was read
after every committed recovery mutation. -/
def Authorizes (w : World) : Prop :=
  (w.quiet = true → w.state.fenced = false → ∀ h ∈ w.state.hash, h.quota ≤ w.state.quota) ∧
    ∀ h ∈ w.state.hash, h.seen = w.state.commits

instance (w : World) : Decidable (Authorizes w) := inferInstanceAs (Decidable (_ ∧ _))

theorem Sound.authorizes (hw : Sound w) : Authorizes w := by
  constructor
  · intro hq _ h hh
    have hc := (hw.kept h hh (not_deleting_of_quiet hq)).quota
    rwa [dues_quiet hq, add_zero] at hc
  · exact fun h hh => (hw.seen h hh).1

/-- Over any run from a cold cache in which every snapshot is published in calm and current. -/
theorem cached_quota_covered (s : CacheState) (hs : s.hash = none) (events : List Event)
    (he : Along World.on Orderly { state := s } events) :
    Authorizes (events.foldl World.on { state := s }) := by
  apply Sound.authorizes
  apply Along.keeps _ (sound_init hs) he
  exact fun w e hw ho => hw.on e ho

/-- A reader that misses, loads the row and publishes it. -/
def hydration (task : Nat) : List Event := List.replicate 4 (.step task false)

def inTurn : List Event :=
  .getUserCache :: hydration 0 ++ [.tryReserveUserQuota 30, .step 1 false, .step 1 false,
    .increaseUserQuota 5, .step 3 false, .step 2 false,
    .mutation (-40), .step 4 false, .step 4 false, .step 4 false, .tick 10000,
    .getUserCache] ++ hydration 5

theorem inTurn_covered :
    let before : World := { state := { quota := 100 } }
    Along World.on Orderly before inTurn ∧
      (inTurn.foldl World.on before).state.hash = some ⟨1, 35, 1⟩ ∧
      Authorizes (inTurn.foldl World.on before) := by
  have h : Along World.on Orderly { state := { quota := 100 } } inTurn := by decide
  exact ⟨h, by decide, cached_quota_covered _ rfl inTurn h⟩

/-- A reader loads the row; a mutation fences, deletes the hash and commits; the reader publishes
under the fence. -/
def delayedFill : List Event :=
  [.getUserCache, .step 0 false, .step 0 false,
    .mutation (-40), .step 1 false, .step 1 false, .step 1 false,
    .step 0 false, .step 0 false]

/-- The hash shows the balance from before the mutation, and a reservation takes the row below zero.
-/
theorem delayed_fill_over_authorizes :
    let published := delayedFill.foldl World.on { state := { quota := 100 } }
    let settled := published.on (.tick 10000)
    let reserved := [.tryReserveUserQuota 80, .step 2 false, .step 2 false].foldl World.on settled
    published.quiet = true ∧ published.state.fenced = true ∧
      settled.state.fenced = false ∧ settled.state.hash = some ⟨1, 100, 0⟩ ∧
      settled.state.quota = 60 ∧ settled.state.commits = 1 ∧ ¬ Authorizes settled ∧
      reserved.tasks[2]? = some (.finished true) ∧ reserved.state.quota = -20 := by
  decide

end Ren2Hub.Proofs.QuotaCacheRuns
