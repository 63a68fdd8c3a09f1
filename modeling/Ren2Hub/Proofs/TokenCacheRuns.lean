import Ren2Hub.Billing.TokenCache
import Ren2Hub.Lib.Inputs

namespace Ren2Hub.Proofs.TokenCacheRuns
open Lib Tokens TokenStore List

variable {s s' : TokenStore} {w : TokenWorld}

@[simp] theorem policy_hashed (t : Token) : (hashed t).policy = t.policy := by
  simp only [Token.policy, hashed]
  split_ifs with h
  · simp [h]
  · rfl

theorem write_eq (m : Mutation) (s : TokenStore) :
    ∃ row deleted, m.write s = { s with row, deleted } := by
  unfold Mutation.write
  split
  · exact ⟨_, _, rfl⟩
  · cases m <;> exact ⟨_, _, rfl⟩

theorem write_gone (m : Mutation) (h : s.policy = none) : (m.write s).policy = none := by
  have hdeleted : s.deleted = true := by
    by_contra hd
    simp [policy, hd] at h
  simpa [Mutation.write, hdeleted] using h

/-- What holds of the row and its keys: a hash that is there says what the row says. -/
structure Sane (s : TokenStore) : Prop where
  current : s.history.head? = some s.policy
  hash : ∀ h, s.hash = some h → s.policy = some h.token.policy
  fences : ∀ f ∈ s.fences, f + fenceTime ≤ s.fenceUntil
  bounded : s.fenceUntil ≤ s.now + fenceTime
  length : s.history.length = s.fences.length + 1
  gone : s.history.Pairwise fun newer older => older = none → newer = none

/-- One of the versions the row had since the history was that long. -/
def Since (s : TokenStore) (since : Nat) (p : Policy) : Prop :=
  some p ∈ s.history.take (s.history.length + 1 - since)

theorem since_current (h : Sane s) (hsince : since ≤ s.history.length) (hp : s.policy = some p) :
    Since s since p := by
  have hcurrent := h.current
  rw [hp] at hcurrent
  obtain ⟨older, hhistory⟩ := head?_eq_some_iff.mp hcurrent
  obtain ⟨n, hn⟩ : ∃ n, s.history.length + 1 - since = n + 1 := ⟨s.history.length - since, by omega⟩
  rw [Since, hn, hhistory, take_succ_cons]
  exact mem_cons_self

theorem since_not_gone (h : Sane s) (hsince : Since s since p) :
    s.history[s.history.length - since]? ≠ some none := by
  intro hnone
  obtain ⟨i, hi⟩ := mem_iff_getElem?.mp hsince
  rw [getElem?_take] at hi
  split_ifs at hi with hlt
  rcases Nat.lt_or_ge i (s.history.length - since) with hnewer | hsame
  · obtain ⟨hi', hgeti⟩ := List.getElem?_eq_some_iff.mp hi
    obtain ⟨hj', hgetj⟩ := List.getElem?_eq_some_iff.mp hnone
    have := pairwise_iff_getElem.mp h.gone i _ hi' hj' hnewer hgetj
    simp [hgeti] at this
  · have heq : i = s.history.length - since := by omega
    rw [heq, hnone] at hi
    cases hi

/-- No version is written. A hash is there after it only if one was before, or no fence stood. -/
structure Calm (s s' : TokenStore) : Prop where
  now : s.now ≤ s'.now
  fence : s.fenceUntil ≤ s'.fenceUntil
  bounded : s'.fenceUntil ≤ s'.now + fenceTime
  policy : s'.policy = s.policy
  history : s'.history = s.history
  fences : s'.fences = s.fences
  hash : ∀ h, s'.hash = some h →
    s.policy = some h.token.policy ∧ (s.hash.isSome ∨ s.fenced = false)

theorem Calm.sane (hc : Calm s s') (h : Sane s) : Sane s' where
  current := by rw [hc.history, hc.policy, h.current]
  hash e he := by rw [hc.policy, (hc.hash e he).1]
  fences f hf := by
    rw [hc.fences] at hf
    exact Nat.le_trans (h.fences f hf) hc.fence
  bounded := hc.bounded
  length := by rw [hc.history, hc.fences, h.length]
  gone := by
    rw [hc.history]
    exact h.gone

theorem cached_mem (h : s.cached = some e) : s.hash = some e :=
  (Option.filter_eq_some_iff.mp h).1

section
variable (h : Sane s)
include h

theorem calm_setHash {hash : Option TokenHash} (hhash : ∀ e, hash = some e →
      s.policy = some e.token.policy ∧ (s.hash.isSome ∨ s.fenced = false)) :
    Calm s { s with hash } :=
  ⟨Nat.le_refl _, Nat.le_refl _, h.bounded, rfl, rfl, rfl, hhash⟩

theorem Sane.kept (e : TokenHash) (he : s.hash = some e) :
    s.policy = some e.token.policy ∧ (s.hash.isSome ∨ s.fenced = false) :=
  ⟨h.hash e he, .inl (by simp [he])⟩

theorem calm_refl : Calm s s := calm_setHash h h.kept

theorem calm_evict : Calm s { s with hash := none } := calm_setHash h nofun

theorem calm_touch {e e' : TokenHash} (he : s.cached = some e)
    (hsame : e'.token.policy = e.token.policy) : Calm s { s with hash := some e' } := by
  have hmem := cached_mem he
  refine calm_setHash h ?_
  rintro _ ⟨⟩
  exact ⟨by rw [hsame, h.hash e hmem], .inl (by simp [hmem])⟩

theorem calm_reserve (amount : Int) (id : Nat) (time : Int) :
    Calm s (s.tokenQuotaReserveScript amount id time).1 := by
  unfold tokenQuotaReserveScript
  split
  · exact calm_refl h
  cases he : s.cached with
  | none => exact calm_refl h
  | some e =>
    simp only
    split
    · exact calm_refl h
    split
    · exact calm_refl h
    · exact calm_touch h he rfl

theorem calm_delta (delta : Int) (id : Nat) (time : Int) :
    Calm s (s.tokenQuotaDeltaScript delta id time).1 := by
  unfold tokenQuotaDeltaScript
  split
  · exact calm_refl h
  cases he : s.cached with
  | none => exact calm_refl h
  | some e =>
    simp only
    split
    · exact calm_refl h
    · exact calm_touch h he rfl

theorem calm_init {token : Token} (hfresh : s.fenced = false → s.policy = some token.policy) :
    Calm s (s.cacheInitToken token) := by
  unfold cacheInitToken
  split
  · exact calm_refl h
  rename_i hopen
  have hopen : s.fenced = false := by simpa using hopen
  cases he : s.cached with
  | some e => exact calm_touch h he rfl
  | none =>
    refine calm_setHash h ?_
    rintro _ ⟨⟩
    exact ⟨by rw [policy_hashed, hfresh hopen], .inr hopen⟩

theorem calm_fence : Calm s { s with fenceUntil := s.now + fenceTime } :=
  { calm_refl h with fence := h.bounded, bounded := Nat.le_refl _ }

theorem calm_tick (d : Nat) : Calm s { s with now := s.now + d } :=
  { calm_refl h with
    now := Nat.le_add_right _ _
    bounded := by
      have := h.bounded
      simp only
      omega }

theorem calm_quotaRow (delta time : Int) : Calm s { s with row := s.row.addQuota delta time } :=
  { calm_refl h with }

theorem commit_sane (m : Mutation) (hhash : s.hash = none)
    (hfence : fencedAt + fenceTime ≤ s.fenceUntil) : Sane (m.commit fencedAt s) := by
  have hlost := write_gone (s := s) m
  obtain ⟨row, deleted, hw⟩ := write_eq m s
  simp only [Mutation.commit, hw] at hlost ⊢
  refine ⟨rfl, ?_, ?_, h.bounded, ?_, ?_⟩
  · simp [hhash]
  · intro f hf
    rcases mem_cons.mp hf with rfl | hf
    · exact hfence
    · exact h.fences f hf
  · simp [h.length]
  · refine pairwise_cons.mpr ⟨fun older hmem hold => hlost ?_, h.gone⟩
    -- the newest version is gone if an older one is
    have hcurrent := h.current
    obtain ⟨rest, hrest⟩ := head?_eq_some_iff.mp hcurrent
    have hgone := h.gone
    rw [hrest] at hmem hgone
    rcases mem_cons.mp hmem with rfl | hmem
    · exact hold
    · exact (pairwise_cons.mp hgone).1 older hmem hold

end

/-- What a call knows of the store at its stage. -/
def Knows (t : Task) (s : TokenStore) : Prop :=
  match t with
  | .clearing _ fencedAt => fencedAt + fenceTime ≤ s.fenceUntil
  | .writing _ fencedAt => fencedAt + fenceTime ≤ s.fenceUntil ∧
      (s.hash.isSome → fencedAt + fenceTime ≤ s.now)
  | .lookingUp since | .reading since => since ≤ s.history.length
  | .publishing token since readAt => since ≤ s.history.length ∧ Since s since token.policy ∧
      readAt ≤ s.fences.length ∧ (readAt = s.fences.length → s.policy = some token.policy)
  | .returned (some token) since => since ≤ s.history.length ∧ Since s since token.policy
  | _ => True

theorem Calm.knows (hc : Calm s s') (h : Knows t s) : Knows t s' := by
  cases t with
  | clearing => exact Nat.le_trans h hc.fence
  | writing =>
    refine ⟨Nat.le_trans h.1 hc.fence, fun hsome => ?_⟩
    obtain ⟨e, he⟩ := Option.isSome_iff_exists.mp hsome
    rcases (hc.hash e he).2 with hbefore | hopen
    · exact Nat.le_trans (h.2 hbefore) hc.now
    · have hpast : s.fenceUntil ≤ s.now := by simpa [fenced] using hopen
      exact Nat.le_trans (Nat.le_trans h.1 hpast) hc.now
  | lookingUp | reading => simpa only [Knows, hc.history] using h
  | publishing =>
    simpa only [Knows, Since, hc.history, hc.fences, hc.policy] using h
  | returned token =>
    cases token with
    | none => trivial
    | some token => simpa only [Knows, Since, hc.history] using h
  | finding | fencing | done => trivial

theorem since_commit {m : Mutation} {p : Policy} (hlen : since ≤ s.history.length)
    (h : Since s since p) : Since (m.commit fencedAt s) since p := by
  obtain ⟨row, deleted, hw⟩ := write_eq m s
  have htake : s.history.length + 1 + 1 - since = s.history.length + 1 - since + 1 := by omega
  simp only [Since, Mutation.commit, hw, length_cons, htake, take_succ_cons]
  exact mem_cons_of_mem _ h

theorem commit_knows (m : Mutation) (fencedAt : Nat) (hhash : s.hash = none) (h : Knows t s) :
    Knows t (m.commit fencedAt s) := by
  obtain ⟨row, deleted, hw⟩ := write_eq m s
  have hlen : (m.commit fencedAt s).history.length = s.history.length + 1 := by
    simp only [Mutation.commit, hw, length_cons]
  have hcount : (m.commit fencedAt s).fences.length = s.fences.length + 1 := by
    simp only [Mutation.commit, hw, length_cons]
  cases t with
  | clearing => simpa only [Knows, Mutation.commit, hw] using h
  | writing => simpa [Knows, Mutation.commit, hw, hhash] using h.1
  | lookingUp | reading =>
    simp only [Knows, hlen] at h ⊢
    omega
  | publishing =>
    obtain ⟨hsince, hversion, hread, _⟩ := h
    refine ⟨by omega, since_commit hsince hversion, by omega, fun heq => ?_⟩
    omega
  | returned token =>
    cases token with
    | none => trivial
    | some token => exact ⟨by have := h.1; omega, since_commit h.1 h.2⟩
  | finding | fencing | done => trivial

/-- A mutation writes while its fence stands, and so is published what was read before the write. -/
def Task.Timely (s : TokenStore) : Task → Prop
  | .writing _ fencedAt => s.now < fencedAt + fenceTime
  | .publishing _ _ readAt => ∀ f ∈ s.fences.take (s.fences.length - readAt), s.now < f + fenceTime
  | _ => True

instance (s : TokenStore) : (t : Task) → Decidable (Task.Timely s t)
  | .writing _ _ => inferInstanceAs (Decidable (_ < _))
  | .publishing _ _ _ => inferInstanceAs (Decidable (∀ _ ∈ _, _))
  | .finding | .fencing _ | .clearing _ _ | .lookingUp _ | .reading _ | .returned _ _ | .done =>
    inferInstanceAs (Decidable True)

theorem publish_fresh (h : Sane s) (hk : Knows (.publishing token since readAt) s)
    (ht : Task.Timely s (.publishing token since readAt)) (hopen : s.fenced = false) :
    s.policy = some token.policy := by
  obtain ⟨_, _, hread, hcurrent⟩ := hk
  refine hcurrent (Nat.le_antisymm hread ?_)
  by_contra hstale
  obtain ⟨f, rest, hf⟩ := exists_cons_of_length_pos (l := s.fences) (by omega)
  have hmem : f ∈ s.fences.take (s.fences.length - readAt) := by
    obtain ⟨n, hn⟩ : ∃ n, s.fences.length - readAt = n + 1 :=
      ⟨s.fences.length - readAt - 1, by omega⟩
    rw [hn, hf, take_succ_cons]
    exact mem_cons_self
  have hbefore := ht f hmem
  have hfence := h.fences f (by rw [hf]; exact mem_cons_self)
  have hpast : s.fenceUntil ≤ s.now := by simpa [fenced] using hopen
  omega

/-- The store stays sane, the call knows what it needs next, and no other call is misled. -/
theorem step_sound (h : Sane s) (hk : Knows t s) (ht : Task.Timely s t) :
    Sane (t.step s).1 ∧ Knows (t.step s).2 (t.step s).1 ∧
      ∀ u, Knows u s → Knows u (t.step s).1 := by
  cases t with
  | finding =>
    refine ⟨h, ?_, fun u hu => hu⟩
    simp only [Task.step]
    split <;> trivial
  | fencing =>
    have hc := calm_fence h
    exact ⟨hc.sane h, Nat.le_refl _, fun u hu => hc.knows hu⟩
  | clearing =>
    have hc := calm_evict h
    exact ⟨hc.sane h, ⟨hk, by simp [Task.step]⟩, fun u hu => hc.knows hu⟩
  | writing m fencedAt =>
    have hhash : s.hash = none := by
      by_contra hsome
      have := hk.2 (Option.isSome_iff_ne_none.mpr hsome)
      have hbefore : s.now < fencedAt + fenceTime := ht
      omega
    exact ⟨commit_sane h m hhash hk.1, trivial, fun u hu => commit_knows m fencedAt hhash hu⟩
  | lookingUp since =>
    have hsince : since ≤ s.history.length := hk
    simp only [Task.step]
    cases hget : s.cacheGetTokenByKey with
    | none => exact ⟨h, hsince, fun u hu => hu⟩
    | some token =>
      have hpolicy : s.policy = some token.policy := by
        unfold cacheGetTokenByKey at hget
        cases he : s.cached with
        | none => simp [he] at hget
        | some e =>
          simp only [he, Option.ite_none_left_eq_some, Option.some.injEq] at hget
          rw [← hget.2, h.hash e (cached_mem he)]
          rfl
      exact ⟨h, ⟨hsince, since_current h hsince hpolicy⟩, fun u hu => hu⟩
  | reading since =>
    have hsince : since ≤ s.history.length := hk
    simp only [Task.step]
    split
    · exact ⟨h, trivial, fun u hu => hu⟩
    rename_i hdeleted
    have hpolicy : s.policy = some s.row.policy := by simp [policy, hdeleted]
    exact ⟨h, ⟨hsince, since_current h hsince hpolicy, Nat.le_refl _, fun _ => hpolicy⟩,
      fun u hu => hu⟩
  | publishing token since =>
    have hc := calm_init h (publish_fresh h hk ht)
    have hreturned : Knows (.returned (some token) since) s := ⟨hk.1, hk.2.1⟩
    exact ⟨hc.sane h, hc.knows hreturned, fun u hu => hc.knows hu⟩
  | returned => exact ⟨h, hk, fun u hu => hu⟩
  | done => exact ⟨h, trivial, fun u hu => hu⟩

structure Sound (w : TokenWorld) : Prop where
  sane : Sane w.state
  knows : ∀ t ∈ w.jobs, Knows t w.state

/-- The call that moves, if one does, is in time. -/
def InTime (w : TokenWorld) : TokenEvent → Prop
  | .step i => ∀ t, w.jobs[i]? = some t → Task.Timely w.state t
  | _ => True

instance (w : TokenWorld) : (e : TokenEvent) → Decidable (InTime w e)
  | .step i =>
    match h : w.jobs[i]? with
    | none => isTrue fun t ht => by simp [h] at ht
    | some t => decidable_of_iff (Task.Timely w.state t) (by simp [InTime, h])
  | .mutate _ | .batchDeleteTokens | .getTokenByKey _ | .reserve _ _ _ | .delta _ _ _
  | .quotaRow _ _ | .evict | .tick _ => inferInstanceAs (Decidable True)

theorem Sound.calm (h : Sound w) (hc : Calm w.state s') : Sound { w with state := s' } :=
  ⟨hc.sane h.sane, fun t ht => hc.knows (h.knows t ht)⟩

theorem Sound.join (h : Sound w) (ht : Knows t w.state) : Sound (Crew.join w t) := by
  refine ⟨h.sane, fun u hu => ?_⟩
  rcases mem_append.mp hu with hu | hu
  · exact h.knows u hu
  · rw [mem_singleton.mp hu]
    exact ht

theorem Sound.on (h : Sound w) (e : TokenEvent) (ht : InTime w e) : Sound (w.on e) := by
  cases e with
  | mutate | batchDeleteTokens => exact h.join trivial
  | getTokenByKey fromDB =>
    refine h.join ?_
    cases fromDB <;> exact Nat.le_refl _
  | step i =>
    rcases Crew.step_cases Task.step w i with hw | ⟨t, hi, hw⟩
    · rw [TokenWorld.on, hw]
      exact h
    rw [TokenWorld.on, hw]
    obtain ⟨hsane, hown, hothers⟩ :=
      step_sound h.sane (h.knows t (mem_of_getElem? hi)) (ht t hi)
    exact ⟨hsane, Crew.knows_set h.knows hown hothers⟩
  | reserve amount id time => exact h.calm (calm_reserve h.sane amount id time)
  | delta delta id time => exact h.calm (calm_delta h.sane delta id time)
  | quotaRow delta time => exact h.calm (calm_quotaRow h.sane delta time)
  | evict => exact h.calm (calm_evict h.sane)
  | tick d => exact h.calm (calm_tick h.sane d)

/-- A token and its row before any call, nothing in Redis. -/
def opened (row : Token) (cacheSeconds : Int) : TokenWorld :=
  { state := { row, cacheSeconds, history := [some row.policy] } }

theorem opened_sound (row : Token) (cacheSeconds : Int) : Sound (opened row cacheSeconds) := by
  refine ⟨⟨rfl, nofun, nofun, Nat.zero_le _, rfl, pairwise_singleton _ _⟩, ?_⟩
  exact forall_mem_nil _

/-- A reader gets the token as it was at some point since the call started, and none deleted by
then. -/
theorem reader_never_behind (row : Token) (cacheSeconds : Int) (events : List TokenEvent)
    (htime : Along TokenWorld.on InTime (opened row cacheSeconds) events) :
    let w := events.foldl TokenWorld.on (opened row cacheSeconds)
    ∀ token since, Task.returned (some token) since ∈ w.jobs →
      some token.policy ∈ w.state.history.take (w.state.history.length + 1 - since) ∧
        w.state.history[w.state.history.length - since]? ≠ some none := by
  intro w token since hmem
  have hsound : Sound w :=
    htime.keeps (fun w e h ht => h.on e ht) (opened_sound row cacheSeconds)
  obtain ⟨_, hsince⟩ := hsound.knows _ hmem
  exact ⟨hsince, since_not_gone hsound.sane hsince⟩

def enabledToken : Token := { id := 1, userId := 1, key := "k", status := 1 }

def disabledToken : Token := { enabledToken with status := 2 }

/-- A reader has read an enabled token when it is disabled and publishes late. The next one fills
the cache after the fence, and the one after it is served from there. -/
def lateReader : List TokenEvent :=
  [.getTokenByKey false, .step 0, .step 0, .mutate (.update disabledToken), .step 1, .step 1,
    .step 1, .step 0, .tick 10000, .getTokenByKey false, .step 2, .step 2, .step 2,
    .getTokenByKey false, .step 3]

theorem disabled_token_served_disabled :
    Task.returned (some disabledToken) 2 ∈
      (lateReader.foldl TokenWorld.on (opened enabledToken 60)).jobs ∧
    some disabledToken.policy ∈
      (lateReader.foldl TokenWorld.on (opened enabledToken 60)).state.history.take
        ((lateReader.foldl TokenWorld.on (opened enabledToken 60)).state.history.length + 1 -
          2) := by
  have htime : Along TokenWorld.on InTime (opened enabledToken 60) lateReader := by
    decide +kernel
  have hserved : Task.returned (some disabledToken) 2 ∈
      (lateReader.foldl TokenWorld.on (opened enabledToken 60)).jobs := by decide +kernel
  have hmain := reader_never_behind enabledToken 60 lateReader htime disabledToken 2 hserved
  exact ⟨hserved, hmain.1⟩

end Ren2Hub.Proofs.TokenCacheRuns
