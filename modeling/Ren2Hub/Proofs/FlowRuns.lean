import Ren2Hub.Auth.Flow
import Ren2Hub.Lib.Rules

namespace Ren2Hub.Proofs.FlowRuns
open Lib Lib.Machine Lib.Transaction Auth List

variable {δ : Type} {site : Site δ} {s s' : AuthState δ} {t t' : Tables δ}

def SameFlows (t t' : Tables δ) : Prop := t'.flows = t.flows ∧ t'.nextId = t.nextId

/-- A new row under the next id, with a hash the table did not have. -/
def Inserted (row : AuthFlow) (t t' : Tables δ) : Prop :=
  (∀ r ∈ t.flows, r.tokenHash ≠ row.tokenHash) ∧
    t'.flows = { row with id := t.nextId } :: t.flows ∧ t'.nextId = t.nextId + 1

section
variable (site : Site δ)

variable (now : Int)

def assertionRow (assertion : String) (expiresAt : Int) : AuthFlow where
  tokenHash := assertionHash site authFlowPurposeTelegramAssertion assertion
  purpose := trimSpace authFlowPurposeTelegramAssertion
  expiresAt := expiresAt
  consumedAt := some now

def markRow (id now : Int) (flow : AuthFlow) : AuthFlow :=
  if flow.isOpen id now then { flow with consumedAt := some now } else flow

theorem insertAuthFlow_leaves (row : AuthFlow) (e : FlowError) (t : Tables δ) :
    (insertAuthFlow row e).Leaves t fun flow t' =>
      flow = { row with id := t.nextId } ∧ Inserted row t t' := by
  simp only [insertAuthFlow, leaves_bind, leaves_get, leaves_require, leaves_modify, leaves_pure]
  intro hnew
  exact ⟨trivial, hnew, rfl, rfl⟩

theorem createAuthFlow_leaves (token : String) (input : AuthFlowCreate) (t : Tables δ) :
    (createAuthFlow site now token input).Leaves t fun flow t' =>
      ∃ row, row.consumedAt = none ∧ flow = { row with id := t.nextId } ∧ Inserted row t t' := by
  simp only [createAuthFlow, leaves_bind, leaves_require]
  intro _
  exact (insertAuthFlow_leaves _ _ t).mono fun flow t' h => ⟨_, rfl, h⟩

theorem claimExternalAuthAssertion_leaves (assertion : String) (expiresAt : Int) (t : Tables δ) :
    (claimExternalAuthAssertion site now authFlowPurposeTelegramAssertion assertion
      expiresAt).Leaves t fun _ t' =>
        now < expiresAt ∧ Inserted (assertionRow site now assertion expiresAt) t t' := by
  simp only [claimExternalAuthAssertion, leaves_bind, leaves_require, leaves_pure]
  intro hvalid
  exact (insertAuthFlow_leaves _ _ t).mono fun _ _ h => ⟨hvalid.2.2, h.2⟩

theorem writeRest_leaves (write : δ → Except FlowError δ) (t : Tables δ) :
    (FlowAction.run.writeRest write).Leaves t fun _ t' => SameFlows t t' := by
  simp only [FlowAction.run.writeRest, leaves_bind, leaves_get, leaves_lift, leaves_modify]
  intro _ _
  exact ⟨rfl, rfl⟩

theorem SameFlows.inserted (h : Inserted row t t1) (hs : SameFlows t1 t') : Inserted row t t' :=
  ⟨h.1, hs.1.trans h.2.1, hs.2.trans h.2.2⟩

/-- What the action of a consumption does to the flows. -/
def Acted (t t' : Tables δ) : FlowAction δ → Prop
  | .bindTelegram _ assertion expiresAt =>
    now < expiresAt ∧ Inserted (assertionRow site now assertion expiresAt) t t'
  | _ => SameFlows t t'

theorem action_leaves (action : FlowAction δ) (flow : AuthFlow) (t : Tables δ) :
    (action.run site now flow).Leaves t fun _ t' => Acted site now t t' action := by
  cases action with
  | nothing =>
    simp only [FlowAction.run, leaves_pure]
    exact ⟨rfl, rfl⟩
  | other => exact writeRest_leaves _ t
  | bindTelegram =>
    simp only [FlowAction.run, leaves_bind]
    refine (claimExternalAuthAssertion_leaves site _ _ _ t).mono fun _ t1 h => ?_
    exact (writeRest_leaves _ t1).mono fun _ _ hs => ⟨h.1, hs.inserted h.2⟩

theorem markConsumed_leaves (id now : Int) (t : Tables δ) :
    (markConsumed id now).Leaves t fun _ t' =>
      t'.flows = t.flows.map (markRow id now) ∧ t'.nextId = t.nextId := by
  simp only [markConsumed, leaves_bind, leaves_get, leaves_require, leaves_modify]
  intro _
  exact ⟨rfl, trivial⟩

/-- A consumption that commits found a row it may consume, marked it, and then acted. -/
theorem consume_leaves (token : String) (m : AuthFlowMatch) (action : FlowAction δ) (t : Tables δ) :
    (consumeAuthFlowWithAction site now token m (action.run site now)).Leaves t fun flow' t' =>
      ∃ flow ∈ t.flows, ∃ t1 : Tables δ, flow.consumedAt = none ∧ now < flow.expiresAt ∧
        m.accepts flow ∧ flow' = { flow with consumedAt := some now } ∧
        t1.flows = t.flows.map (markRow flow.id now) ∧ t1.nextId = t.nextId ∧
        Acted site now t1 t' action := by
  simp only [consumeAuthFlowWithAction, leaves_bind, leaves_require, leaves_get]
  intro _
  cases hfind : findAuthFlow site token m t.flows with
  | none => simp
  | some flow =>
    simp only [leaves_bind, leaves_require, leaves_pure]
    intro hopen hlive
    have hmem := mem_of_find?_eq_some hfind
    have hacc := find?_some hfind
    simp only [decide_eq_true_eq] at hacc
    refine (markConsumed_leaves _ _ t).mono fun _ t1 h1 => ?_
    refine (action_leaves site now action _ t1).mono fun _ t' h => ?_
    exact ⟨flow, hmem, t1, hopen, hlive, hacc.2, rfl, h1.1, h1.2, h⟩

/-- How long after its claim an assertion can still be valid. -/
def window : Int := telegramAuthorizationMaxAge + telegramAuthorizationFutureSkew

/-- Too late, or its row is there and will not be cleaned up before the deadline. -/
def Refused (s : AuthState δ) (assertion : String) (expiresAt : Int) : Prop :=
  expiresAt ≤ s.now ∨ ∃ r ∈ s.tables.flows,
    r.tokenHash = assertionHash site authFlowPurposeTelegramAssertion assertion ∧
    r.expiresAt = expiresAt ∧ ∃ time, r.consumedAt = some time ∧ expiresAt ≤ time + window

end

structure Sound (site : Site δ) (s : AuthState δ) : Prop where
  ids : ∀ r ∈ s.tables.flows, r.id < s.tables.nextId
  created : ∀ r ∈ s.tables.flows, r.consumedAt = none → r ∈ s.created
  commitIds : (s.commits.map (·.flow.id)).Nodup
  spent : ∀ c ∈ s.commits, c.flow.id < s.tables.nextId ∧
    ∀ r ∈ s.tables.flows, r.id = c.flow.id → r.consumedAt ≠ none ∨ r.expiresAt ≤ s.now
  lawful : ∀ c ∈ s.commits, c.flow ∈ s.created ∧ c.given.accepts c.flow ∧
    c.time < c.flow.expiresAt
  claims : s.claims.Nodup
  refused : ∀ a ∈ s.claims, Refused site s a.1 a.2

theorem Sound.later (h : Sound site s) (hnow : s.now ≤ now) : Sound site { s with now } := by
  refine ⟨h.ids, h.created, h.commitIds, fun c hc => ?_, h.lawful, h.claims, fun a ha => ?_⟩
  · refine ⟨(h.spent c hc).1, fun r hr hid => ?_⟩
    rcases (h.spent c hc).2 r hr hid with hcons | hexp
    · exact .inl hcons
    · exact .inr (hexp.trans hnow)
  · rcases h.refused a ha with hlate | hrow
    · exact .inl (hlate.trans hnow)
    · exact .inr hrow

theorem Sound.sameFlows (h : Sound site s) (ht : SameFlows s.tables t) :
    Sound site { s with tables := t } := by
  obtain ⟨hf, hn⟩ := ht
  constructor
  · simpa [hf, hn] using h.ids
  · simpa [hf] using h.created
  · exact h.commitIds
  · simpa [hf, hn] using h.spent
  · exact h.lawful
  · exact h.claims
  · simpa [Refused, hf] using h.refused

theorem Sound.inserted (h : Sound site s) (hin : Inserted row s.tables t)
    (hc : row.consumedAt = none → { row with id := s.tables.nextId } ∈ made)
    (hsub : ∀ r ∈ s.created, r ∈ made) : Sound site { s with tables := t, created := made } := by
  obtain ⟨_, hf, hn⟩ := hin
  constructor
  · intro r hr
    rw [hf] at hr
    rw [hn]
    rcases mem_cons.mp hr with rfl | hr
    · exact Int.lt_succ _
    · exact (h.ids r hr).trans (Int.lt_succ _)
  · intro r hr hopen
    rw [hf] at hr
    rcases mem_cons.mp hr with rfl | hr
    · exact hc hopen
    · exact hsub r (h.created r hr hopen)
  · exact h.commitIds
  · intro c hcom
    have hlt := (h.spent c hcom).1
    refine ⟨hlt.trans (hn ▸ Int.lt_succ _), fun r hr hid => ?_⟩
    rw [hf] at hr
    rcases mem_cons.mp hr with rfl | hr
    · exact absurd hid hlt.ne'
    · exact (h.spent c hcom).2 r hr hid
  · intro c hcom
    exact ⟨hsub _ (h.lawful c hcom).1, (h.lawful c hcom).2⟩
  · exact h.claims
  · intro a ha
    rcases h.refused a ha with hlate | ⟨r, hr, hrow⟩
    · exact .inl hlate
    refine .inr ⟨r, ?_, hrow⟩
    rw [hf]
    exact mem_cons_of_mem _ hr

theorem Sound.claimed (h : Sound site s) (hlive : s.now < expiresAt)
    (hwin : expiresAt ≤ s.now + window)
    (hin : Inserted (assertionRow site s.now assertion expiresAt) s.tables t) :
    Sound site { s with tables := t, claims := (assertion, expiresAt) :: s.claims } := by
  have hs := h.inserted hin nofun fun _ hr => hr
  refine ⟨hs.ids, hs.created, hs.commitIds, hs.spent, hs.lawful, ?_, ?_⟩
  · refine nodup_cons.mpr ⟨fun hmem => ?_, h.claims⟩
    rcases h.refused _ hmem with hlate | ⟨r, hr, hhash, _⟩
    · exact absurd hlive (Int.not_lt.mpr hlate)
    · exact hin.1 r hr hhash
  · intro a ha
    rcases mem_cons.mp ha with rfl | ha
    · refine .inr ⟨{ assertionRow site s.now assertion expiresAt with id := s.tables.nextId },
        ?_, rfl, rfl, s.now, rfl, hwin⟩
      rw [hin.2.1]
      exact mem_cons_self
    · exact hs.refused a ha

theorem markRow_eq {id now : Int} (h : (markRow id now r).consumedAt = none) :
    markRow id now r = r := by
  unfold markRow at h ⊢
  split at h
  · cases h
  · rename_i hclosed
    rw [if_neg hclosed]

theorem markRow_of_consumed {id now : Int} (h : r.consumedAt = some time) :
    markRow id now r = r := by
  unfold markRow
  rw [if_neg (by simp [AuthFlow.isOpen, h])]

theorem markRow_id (id now : Int) (r : AuthFlow) : (markRow id now r).id = r.id := by
  unfold markRow
  split <;> rfl

theorem markRow_expiresAt (id now : Int) (r : AuthFlow) :
    (markRow id now r).expiresAt = r.expiresAt := by
  unfold markRow
  split <;> rfl

theorem markRow_spent {id now : Int} (h : r.id = id) :
    (markRow id now r).consumedAt ≠ none ∨ (markRow id now r).expiresAt ≤ now := by
  rw [markRow_expiresAt]
  by_cases hlive : now < r.expiresAt
  · left
    cases hc : r.consumedAt with
    | none => simp [markRow, AuthFlow.isOpen, h, hc, hlive]
    | some time => simp [markRow_of_consumed hc, hc]
  · right
    omega

theorem Sound.marked (h : Sound site s) (hmem : flow ∈ s.tables.flows)
    (hopen : flow.consumedAt = none) (hlive : s.now < flow.expiresAt) (hm : m.accepts flow)
    (hf : t.flows = s.tables.flows.map (markRow flow.id s.now)) (hn : t.nextId = s.tables.nextId) :
    Sound site { s with tables := t, commits := ⟨flow, m, s.now⟩ :: s.commits } := by
  constructor
  · intro r hr
    rw [hf] at hr
    obtain ⟨q, hq, rfl⟩ := mem_map.mp hr
    rw [hn, markRow_id]
    exact h.ids q hq
  · intro r hr hnone
    rw [hf] at hr
    obtain ⟨q, hq, rfl⟩ := mem_map.mp hr
    have he := markRow_eq hnone
    rw [he] at hnone ⊢
    exact h.created q hq hnone
  · refine nodup_cons.mpr ⟨fun hid => ?_, h.commitIds⟩
    -- The row is still open, so no earlier commit has its id.
    obtain ⟨c, hc, hid⟩ := mem_map.mp hid
    rcases (h.spent c hc).2 flow hmem hid.symm with hcons | hexp
    · exact hcons hopen
    · exact absurd hlive (Int.not_lt.mpr hexp)
  · intro c hc
    refine ⟨?_, fun r hr hid => ?_⟩
    · rw [hn]
      rcases mem_cons.mp hc with rfl | hc
      · exact h.ids flow hmem
      · exact (h.spent c hc).1
    · rw [hf] at hr
      obtain ⟨q, hq, rfl⟩ := mem_map.mp hr
      rcases mem_cons.mp hc with rfl | hc
      · exact markRow_spent ((markRow_id _ _ q).symm.trans hid)
      rw [markRow_id] at hid
      rcases (h.spent c hc).2 q hq hid with hcons | hexp
      · left
        obtain ⟨time, ht⟩ := Option.ne_none_iff_exists'.mp hcons
        rw [markRow_of_consumed ht]
        exact hcons
      · right
        rw [markRow_expiresAt]
        exact hexp
  · intro c hc
    rcases mem_cons.mp hc with rfl | hc
    · exact ⟨h.created flow hmem hopen, hm, hlive⟩
    · exact h.lawful c hc
  · exact h.claims
  · intro a ha
    rcases h.refused a ha with hlate | ⟨r, hr, hhash, hexp, time, ht, hwin⟩
    · exact .inl hlate
    refine .inr ⟨r, ?_, hhash, hexp, time, ht, hwin⟩
    rw [hf]
    exact mem_map.mpr ⟨r, hr, markRow_of_consumed ht⟩

theorem Sound.cleaned (h : Sound site s) (hnow : now ≤ s.now) :
    Sound site { s with
      tables := { s.tables with flows := deleteExpiredAuthFlows now s.tables.flows } } := by
  have hsub : ∀ r ∈ deleteExpiredAuthFlows now s.tables.flows, r ∈ s.tables.flows :=
    fun r hr => (mem_filter.mp hr).1
  refine ⟨fun r hr => h.ids r (hsub r hr), fun r hr => h.created r (hsub r hr), h.commitIds,
    fun c hc => ⟨(h.spent c hc).1, fun r hr => (h.spent c hc).2 r (hsub r hr)⟩, h.lawful,
    h.claims, fun a ha => ?_⟩
  rcases h.refused a ha with hlate | ⟨r, hr, hhash, hexp, time, ht, hwin⟩
  · exact .inl hlate
  by_cases hkept : r ∈ deleteExpiredAuthFlows now s.tables.flows
  · exact .inr ⟨r, hkept, hhash, hexp, time, ht, hwin⟩
  left
  simp only [deleteExpiredAuthFlows, mem_filter, hr, ht, true_and, decide_eq_true_eq,
    Option.any_some, not_not] at hkept
  simp only [window, telegramAuthorizationMaxAge, telegramAuthorizationFutureSkew, minute,
    second] at hwin
  simp only [authFlowDefaultCleanupRetention, hour, minute, second] at hkept
  show a.2 ≤ s.now
  omega

/-- What a process may ask for when the clock showed `v`. -/
def Fits (v : Int) : AuthCall δ → Prop
  | .claim _ expiresAt => expiresAt ≤ v + window
  | .consume _ _ (.bindTelegram _ _ expiresAt) => expiresAt ≤ v + window
  | .deleteExpired now => now ≤ v
  | _ => True

def Guarantee (site : Site δ) (s s' : AuthState δ) : Prop :=
  s.now ≤ s'.now ∧ (Sound site s → Sound site s')

theorem Guarantee.refl (s : AuthState δ) : Guarantee site s s := ⟨le_rfl, id⟩

theorem Guarantee.trans (s s' s'' : AuthState δ) (h : Guarantee site s s')
    (h' : Guarantee site s' s'') : Guarantee site s s'' :=
  ⟨h.1.trans h'.1, fun hs => h'.2 (h.2 hs)⟩

theorem create_guarantee (token : String) (input : AuthFlowCreate) (s : AuthState δ) :
    Guarantee site s (AuthCall.exec site (.create token input) s).1 := by
  rcases commit_cases (createAuthFlow_leaves site s.now token input s.tables) with
    ⟨e, h⟩ | ⟨flow, t, h, row, hopen, rfl, hin⟩
  · simp only [AuthCall.exec, h]
    exact .refl s
  simp only [AuthCall.exec, h]
  refine ⟨le_rfl, fun hs => hs.inserted hin (fun _ => mem_cons_self) ?_⟩
  exact fun r hr => mem_cons_of_mem _ hr

theorem claim_guarantee (assertion : String) (hwin : expiresAt ≤ s.now + window) :
    Guarantee site s (AuthCall.exec site (.claim assertion expiresAt) s).1 := by
  rcases commit_cases (claimExternalAuthAssertion_leaves site s.now assertion expiresAt
    s.tables) with ⟨e, h⟩ | ⟨_, t, h, hlive, hin⟩
  · simp only [AuthCall.exec, h]
    exact .refl s
  · simp only [AuthCall.exec, h]
    exact ⟨le_rfl, fun hs => hs.claimed hlive hwin hin⟩

theorem consume_guarantee (token : String) (m : AuthFlowMatch) (action : FlowAction δ)
    (hwin : ∀ a ∈ action.claimed, a.2 ≤ s.now + window) :
    Guarantee site s (AuthCall.exec site (.consume token m action) s).1 := by
  rcases commit_cases (consume_leaves site s.now token m action s.tables) with
    ⟨e, h⟩ | ⟨_, t, h, flow, hmem, t1, hopen, hlive, hm, rfl, hf, hn, hact⟩
  · simp only [AuthCall.exec, h]
    exact .refl s
  simp only [AuthCall.exec, h]
  refine ⟨le_rfl, fun hs => ?_⟩
  have he : { flow with consumedAt := none } = flow := by rw [← hopen]
  rw [he]
  have hmarked := hs.marked hmem hopen hlive hm hf hn
  cases action with
  | nothing | other => exact hmarked.sameFlows hact
  | bindTelegram =>
    exact hmarked.claimed hact.1 (hwin _ mem_cons_self) hact.2

theorem exec_guarantee (site : Site δ) (c : AuthCall δ) (hv : v ≤ s.now) (hc : Fits v c) :
    Guarantee site s (c.exec site s).1 := by
  cases c with
  | pass time =>
    have hnow : s.now ≤ s.now + time := by omega
    exact ⟨hnow, fun hs => hs.later hnow⟩
  | clock => exact .refl s
  | create token input => exact create_guarantee token input s
  | get => exact .refl s
  | consume token m action =>
    apply consume_guarantee
    intro a ha
    cases action with
    | nothing | other => cases ha
    | bindTelegram =>
      rw [mem_singleton.mp ha]
      exact Int.le_trans hc (Int.add_le_add_right hv _)
  | claim assertion =>
    exact claim_guarantee assertion (Int.le_trans hc (Int.add_le_add_right hv _))
  | deleteExpired => exact ⟨le_rfl, fun hs => hs.cleaned (Int.le_trans hc hv)⟩
  | findUser | validateSession => exact .refl s
  | outside => exact ⟨le_rfl, fun hs => hs.sameFlows ⟨rfl, rfl⟩⟩

theorem claim_within (hver : verifyTelegramAuthorization site params v = .ok telegramId)
    (hclaim : telegramAuthorizationClaim params now = .ok (assertion, expiresAt)) :
    expiresAt ≤ v + window := by
  unfold verifyTelegramAuthorization at hver
  unfold telegramAuthorizationClaim at hclaim
  cases hdate : parseInt (params.get "auth_date") with
  | none => simp [hdate] at hclaim
  | some authDate =>
    cases hhash : hexDecode (params.get "hash").toList with
    | none => simp [hdate, hhash] at hclaim
    | some hash =>
      simp only [hdate, hhash] at hver hclaim
      split at hclaim
      · cases hclaim
      cases hclaim
      split at hver
      · cases hver
      split at hver
      · cases hver
      split at hver
      · cases hver
      split at hver
      · cases hver
      rename_i hrange
      simp only [unix, telegramAuthorizationFutureSkew, telegramAuthorizationMaxAge, minute,
        second, window] at hrange ⊢
      omega

/-- Where a process is: the clock reading it goes by. -/
abbrev Outline (site : Site δ) (p : Ceremony δ Unit) (v : Int) : Prop :=
  Follows (authMachine site) (fun _ _ => True) (Guarantee site) (fun v s => v ≤ s.now)
    (fun _ _ => True) p v

theorem follows_clock (h : ∀ now, Outline site (cont now) now) (v : Int) :
    Outline site (ask .clock >>= cont) v :=
  ⟨fun s _ _ => ⟨s.now, le_rfl, .refl s, h s.now⟩, fun _ _ hr => nomatch hr⟩

theorem follows_clock_again (h : ∀ now, Outline site (cont now) v) :
    Outline site (ask .clock >>= cont) v :=
  ⟨fun s hv _ => ⟨v, hv, .refl s, h s.now⟩, fun _ _ hr => nomatch hr⟩

theorem follows_ask (hc : Fits v c) (h : ∀ r, Outline site (cont r) v) :
    Outline site (ask c >>= cont) v := by
  refine Follows.keep (fun s hv _ => ?_) h
  have hg := exec_guarantee site c hv hc
  exact ⟨Int.le_trans hv hg.1, hg⟩

theorem telegramLogin_outline (params : Params) (v : Int) :
    Outline site (telegramLogin site params) v := by
  refine follows_clock (fun now => ?_) v
  cases hver : verifyTelegramAuthorization site params now with
  | error e => trivial
  | ok telegramId =>
    refine follows_ask trivial fun found => ?_
    cases found with
    | false => trivial
    | true =>
      refine follows_clock_again fun now' => ?_
      cases hclaim : telegramAuthorizationClaim params now' with
      | error e => trivial
      | ok a => exact follows_ask (claim_within hver hclaim) fun _ => trivial

theorem telegramBind_outline (flowToken : String) (params : Params) (v : Int) :
    Outline site (telegramBind site flowToken params) v := by
  refine follows_clock (fun now => ?_) v
  cases hver : verifyTelegramAuthorization site params now with
  | error e => trivial
  | ok telegramId =>
    refine follows_ask trivial fun found => ?_
    cases found with
    | error e => trivial
    | ok pendingFlow =>
      refine follows_ask trivial fun valid => ?_
      cases valid with
      | false => trivial
      | true =>
        refine follows_clock_again fun now' => ?_
        cases hclaim : telegramAuthorizationClaim params now' with
        | error e => trivial
        | ok a => exact follows_ask (claim_within hver hclaim) fun _ => trivial

theorem job_outline (job : AuthJob δ) (v : Int) : Outline site (job.program site) v := by
  cases job with
  | create | pass | outside => exact follows_ask trivial fun _ => trivial
  | consume token m action =>
    refine follows_ask ?_ fun _ => trivial
    cases action <;> trivial
  | login params => exact telegramLogin_outline params v
  | bind flowToken params => exact telegramBind_outline flowToken params v
  | cleanup =>
    refine follows_clock (fun now => ?_) v
    refine follows_ask (Int.le_refl now) fun _ => ?_
    trivial

/-- The tables before the first call, all flows in them known as created. -/
def start (now : Int) (flows : List AuthFlow) (nextId : Int) (rest : δ) : AuthState δ where
  now := now
  tables := { flows, nextId, rest }
  created := flows

theorem start_sound (h : ∀ r ∈ flows, r.id < nextId) (now : Int) (rest : δ) :
    Sound site (start now flows nextId rest) :=
  ⟨h, fun _ hr _ => hr, nodup_nil, forall_mem_nil _, forall_mem_nil _, nodup_nil, forall_mem_nil _⟩

theorem run_sound (site : Site δ) (h : ∀ r ∈ flows, r.id < nextId) (now : Int) (rest : δ)
    (jobs : List (AuthJob δ)) (sched : List Choice) :
    Sound site ((authMachine site).run
      ⟨start now flows nextId rest, jobs.map fun job => job.program site⟩ sched).state := by
  have hpool : Outlined (authMachine site) (fun _ _ => True) (Guarantee site)
      (fun (v : Int) s => v ≤ s.now)
      ⟨start now flows nextId rest, jobs.map fun job => job.program site⟩ := by
    intro p hp
    obtain ⟨job, _, rfl⟩ := mem_map.mp hp
    exact ⟨now, le_rfl, job_outline job now⟩
  have hstable : ∀ (v : Int) s s', Guarantee site s s' → v ≤ s.now → v ≤ s'.now :=
    fun _ _ _ hg hv => Int.le_trans hv hg.1
  have hg := run_guarantee Guarantee.refl Guarantee.trans hstable hpool (meets_true ([] ++ sched) _)
  exact hg.2 (start_sound h now rest)

theorem consume_error (h : (AuthCall.exec site (.consume token m action) s).2 = .error e) :
    (AuthCall.exec site (.consume token m action) s).1 = s := by
  rcases commit_cases (consume_leaves site s.now token m action s.tables) with
    ⟨e', hc⟩ | ⟨_, t, hc, _⟩
  · simp only [AuthCall.exec, hc]
  · simp only [AuthCall.exec, hc] at h
    cases h

/-- In every run no flow is consumed twice, a consumption that commits was asked for with the
fields of the flow and in time, one that fails can be repeated, and no authorization of Telegram
is claimed twice. -/
theorem one_time_state_used_once (site : Site δ) (jobs : List (AuthJob δ)) (now : Int) (rest : δ)
    (h : ∀ r ∈ flows, r.id < nextId) (sched : List Choice)
    (hs : s = ((authMachine site).run
      ⟨start now flows nextId rest, jobs.map fun job => job.program site⟩ sched).state) :
    (s.commits.map (·.flow.id)).Nodup ∧
    (∀ c ∈ s.commits, c.flow ∈ s.created ∧ c.given.accepts c.flow ∧ c.time < c.flow.expiresAt) ∧
    (∀ token m action flow e, (AuthCall.exec site (.consume token m .nothing) s).2 = .ok flow →
      (AuthCall.exec site (.consume token m action) s).2 = .error e →
      (AuthCall.exec site (.consume token m .nothing)
        (AuthCall.exec site (.consume token m action) s).1).2 = .ok flow) ∧
    (∀ params time a, telegramAuthorizationClaim params time = .ok a → s.claims.count a ≤ 1) := by
  subst hs
  have hsound := run_sound site h now rest jobs sched
  refine ⟨hsound.commitIds, hsound.lawful, fun token m action flow e hok herr => ?_,
    fun params time a _ => ?_⟩
  · rw [consume_error herr]
    exact hok
  · exact nodup_iff_count_le_one.mp hsound.claims a

def demoSite : Site Unit where
  authFlowTokenHash := id
  sign := fun _ _ => [171]
  telegramBotToken := "bot"
  userByTelegramId := fun _ _ => true
  sessionReferenceValid := fun _ _ _ => true
  bindTelegram := fun _ _ _ _ => .ok ()

def demoParams (hash : String) : Params :=
  [("id", ["77"]), ("auth_date", ["100"]), ("hash", [hash])]

/-- A login, a day and a cleanup, and the same authorization once more in other
letters. -/
def replays : List (AuthJob Unit) :=
  [.login (demoParams "ab"), .pass 86400000000001, .cleanup, .login (demoParams "AB")]

def replayed : AuthState Unit :=
  ((authMachine demoSite).run ⟨start (100 * second) [] 1 (),
    replays.map fun job => job.program demoSite⟩
    ([0, 0, 0, 0, 3, 1, 2, 2, 3, 3, 3].map Choice.go)).state

theorem replayed_claimed_once : replayed.claims.count ("ab", 400 * second) ≤ 1 :=
  (one_time_state_used_once demoSite replays (100 * second) ()
    (forall_mem_nil _) _ rfl).2.2.2 (demoParams "AB") (100 * second) _
    (by decide +kernel)

example : replayed.claims = [("ab", 400 * second)] ∧ replayed.tables.flows = [] := by
  decide +kernel

end Ren2Hub.Proofs.FlowRuns
