import Ren2Hub.Lib.Rules
import Ren2Hub.Proofs.LoginCalls

namespace Ren2Hub.Proofs.LoginVersion
open Lib Lib.Machine Auth.Session LoginSpec LoginCalls List

variable {site : SessionSite} {s t : SessionState} {u v : UserSession} {c : SessionCall}

/-- What is read after an advance is cached no shorter, and what was read before it no longer. -/
def DeadlinesInOrder : SessionCall → SessionState → Prop
  | .first _ (some deadline) _, s => ∀ a ∈ s.advances, a.2 ≤ deadline
  | .advance _ _ _ _ _ deadline, s => ∀ x ∈ s.snapshots, x.2 ≤ deadline
  | _, _ => True

instance (c : SessionCall) (s : SessionState) : Decidable (DeadlinesInOrder c s) :=
  match c with
  | .first _ (some deadline) _ => inferInstanceAs (Decidable (∀ a ∈ s.advances, a.2 ≤ deadline))
  | .advance _ _ _ _ _ deadline => inferInstanceAs (Decidable (∀ x ∈ s.snapshots, x.2 ≤ deadline))
  | .first _ none _ | .pass _ | .clock | .hGetObj _ | .eval .. | .count .. | .insert ..
  | .exchange .. | .revokeReuse .. | .revokeCurrent .. | .revokeActive .. | .findActive ..
  | .revokeFound .. | .getUserCache | .getUserById | .setUser .. | .start | .serve ..
  | .revocationReturned | .advanceReturned .. | .handOut .. => .isTrue trivial

/-- The hash holds the version until no older copy can be cached any more, or that time
has come. -/
def Firm (s : SessionState) (a : Int × Int) : Prop :=
  ∀ u ∈ s.rows,
    (∃ e w, s.hash = some (e, w) ∧ a.1 ≤ e.version ∧ min a.2 (sessionEnd u) ≤ w) ∨
      min a.2 (sessionEnd u) ≤ s.now

structure Dated (site : SessionSite) (s : SessionState) : Prop where
  copies : ∀ x ∈ s.snapshots, ∀ a ∈ s.advances,
    (x.1.version < a.1 → x.2 ≤ a.2) ∧ (a.1 ≤ x.1.version → a.2 ≤ x.2)
  advances : ∀ a ∈ s.advances, a.2 ≤ s.now + site.ttl ∧ (∃ u, (u, a.2) ∈ s.snapshots) ∧
    ∀ r, s.row = some r → a.1 ≤ r.version
  hash : ∀ e w, s.hash = some (e, w) → (∃ u ∈ s.rows, e.version = u.version) ∧
    (e.status = .active → ∃ u d, (u, d) ∈ s.snapshots ∧ e.version = u.version ∧
      w = min d (sessionEnd u)) ∧
    (e.status ≠ .active → ∀ a ∈ s.advances, a.1 ≤ e.version → ∀ u ∈ s.rows,
      min a.2 (sessionEnd u) ≤ w)
  publications : ∀ p ∈ s.published, ∃ u ∈ s.rows, p.1 = u.version
  published : ∀ a ∈ s.advances, ∀ u ∈ s.rows, (a.1, min a.2 (sessionEnd u)) ∈ s.published → Firm s a
  returned : s.versionReturned = 0 ∨ ∃ a ∈ s.advances, a.1 = s.versionReturned ∧ Firm s a
  observed : ∀ x ∈ s.observed, x.1.version ≤ x.2.version
  served : ∀ x ∈ s.served, x.1.version ≤ x.2.version

theorem version_le_row (hk : Kept s) (hu : u ∈ s.rows) (hr : s.row = some v) :
    u.version ≤ v.version :=
  (hk.rows u hu v hr).2

theorem Dated.returned_le (h : Dated site s) (hk : Kept s) (hr : s.row = some u) :
    s.versionReturned ≤ u.version := by
  rcases h.returned with h0 | ⟨a, ha, he, _⟩
  · rw [h0]
    exact hk.versions u (hk.row_mem hr)
  · rw [← he]
    exact (h.advances a ha).2.2 u hr

theorem Dated.live_version (h : Dated site s) (hk : Kept s) (hl : s.live = some e)
    (hact : e.status = .active) : s.versionReturned ≤ e.version := by
  obtain ⟨w, hh, hw⟩ := live_eq_some hl
  obtain ⟨⟨r, hr, hre⟩, hcopy, _⟩ := h.hash e w hh
  rcases h.returned with h0 | ⟨a, ha, he, hfirm⟩
  · rw [h0, hre]
    exact hk.versions r hr
  by_contra hlt
  obtain ⟨u, d, hmem, hev, hwd⟩ := hcopy hact
  have hu := hk.snapshots _ hmem
  rcases hfirm u hu with ⟨e', w', hh', hle, _⟩ | hover
  · rw [hh] at hh'
    cases hh'
    omega
  · have hold := (h.copies _ hmem a ha).1 (by simp only; omega)
    omega

theorem Firm.of_rows (h : Firm s a) (hk : Kept t) (hu : u ∈ s.rows) (hrows : s.rows ⊆ t.rows)
    (hhash : t.hash = s.hash) (hnow : s.now ≤ t.now) : Firm t a := by
  intro v hv
  rw [sessionEnd_eq hk hv (hrows hu), hhash]
  rcases h u hu with h | h
  · exact .inl h
  · exact .inr (Int.le_trans h hnow)

theorem firm_store (hle : a.1 ≤ entry.version)
    (hb : ∀ u ∈ s.rows, min a.2 (sessionEnd u) ≤ s.expiryOf entry x) :
    Firm (s.store entry x) a := by
  intro u hu
  have hbu := hb u hu
  simp only [SessionState.store]
  split
  · exact .inr (Int.le_trans hbu ‹_›)
  · exact .inl ⟨entry, _, rfl, hle, hbu⟩

theorem Firm.store (h : Firm s a) (hacc : s.accepts entry = true)
    (hb : a.1 ≤ entry.version → ∀ u ∈ s.rows, min a.2 (sessionEnd u) ≤ s.expiryOf entry x) :
    Firm (s.store entry x) a := by
  intro u hu
  rcases h u hu with ⟨e, w, hh, hle, hw⟩ | hover
  · by_cases hlive : s.now < w
    · have hle' := Int.le_trans hle (accepts_version hacc (live_of_lt hh hlive))
      exact firm_store hle' (hb hle') u hu
    · refine .inr ?_
      simp only [SessionState.store]
      omega
  · exact .inr hover

theorem Dated.lasts (h : Dated site s) (hk : Kept s) (hc : License site (.eval entry x) s)
    (ha : a ∈ s.advances) (hle : a.1 ≤ entry.version) :
    ∀ u ∈ s.rows, min a.2 (sessionEnd u) ≤ s.expiryOf entry x := by
  intro u hu
  simp only [License] at hc
  simp only [SessionState.expiryOf]
  split at hc
  · rename_i hact
    obtain ⟨v, d, hmem, habout, rfl⟩ := hc
    have hd : a.2 ≤ d := (h.copies _ hmem a ha).2 (habout.1 ▸ hle)
    have hv : v ∈ s.rows := hk.snapshots _ hmem
    rw [if_pos hact, sessionEnd_eq hk hu hv]
    omega
  · rename_i hact
    obtain ⟨_, v, hv, _, hexp⟩ := hc
    have had := (h.advances a ha).1
    rw [if_neg hact, sessionEnd_eq hk hu hv]
    rcases hexp with hexp | hexp <;> omega

theorem license_version (hk : Kept s) (hc : License site (.eval entry x) s) :
    ∃ u ∈ s.rows, entry.version = u.version := by
  simp only [License] at hc
  split at hc
  · obtain ⟨u, d, hmem, habout, _⟩ := hc
    exact ⟨u, hk.snapshots _ hmem, habout.1⟩
  · obtain ⟨_, u, hu, habout, _⟩ := hc
    exact ⟨u, hu, habout.1⟩

theorem Dated.store (h : Dated site s) (hk : Kept s) (hc : License site (.eval entry x) s)
    (hacc : s.accepts entry = true) : Dated site (s.store entry x) := by
  have hkeep : ∀ a ∈ s.advances, Firm s a → Firm (s.store entry x) a := fun a ha hf =>
    hf.store hacc fun hle => h.lasts hk hc ha hle
  have hver := license_version hk hc
  refine ⟨h.copies, h.advances, fun e w hw => ?_, fun p hp => ?_, fun a ha u hu hp => ?_, ?_,
    h.observed, h.served⟩
  · simp only [SessionState.store] at hw
    split at hw
    · cases hw
    cases hw
    refine ⟨hver, fun hact => ?_, fun _ a ha hle u hu => h.lasts hk hc ha hle u hu⟩
    simp only [License, if_pos hact] at hc
    obtain ⟨u, d, hmem, habout, rfl⟩ := hc
    exact ⟨u, d, hmem, habout.1, by simp only [SessionState.expiryOf, if_pos hact]⟩
  · simp only [SessionState.store] at hp
    split at hp
    · rcases mem_cons.mp hp with rfl | hp
      · exact hver
      · exact h.publications p hp
    · exact h.publications p hp
  · simp only [SessionState.store] at hp
    split at hp
    · rcases mem_cons.mp hp with heq | hp
      · have hle : a.1 ≤ entry.version := Int.le_of_eq (congrArg Prod.fst heq)
        exact firm_store hle (h.lasts hk hc ha hle)
      · exact hkeep a ha (h.published a ha u hu hp)
    · exact hkeep a ha (h.published a ha u hu hp)
  · rcases h.returned with h0 | ⟨a, ha, he, hf⟩
    · exact .inl h0
    · exact .inr ⟨a, ha, he, hkeep a ha hf⟩

theorem Dated.eval (h : Dated site s) (hk : Kept s) (hc : License site (.eval entry x) s) :
    Dated site (s.evalScript entry x) := by
  cases hacc : s.accepts entry with
  | false =>
    rw [evalScript_refused hacc]
    exact ⟨h.copies, h.advances, h.hash, h.publications, h.published, h.returned, h.observed,
      h.served⟩
  | true =>
    have hs := h.store hk hc hacc
    simp only [SessionState.evalScript, hacc, if_true]
    exact ⟨hs.copies, hs.advances, hs.hash, hs.publications, hs.published, hs.returned, hs.observed,
      hs.served⟩

/-- An advance to a version that no value of the row has, with the latest deadline. -/
def Newest (site : SessionSite) (s t : SessionState) (a : Int × Int) : Prop :=
  a.2 ≤ t.now + site.ttl ∧ (∃ u, (u, a.2) ∈ t.snapshots) ∧ (∀ u ∈ s.rows, u.version < a.1) ∧
    ∀ x ∈ s.snapshots, x.2 ≤ a.2

section
variable (h : Dated site s)
include h

theorem Dated.extend (hk : Kept s) (hk' : Kept t) (hnow : s.now ≤ t.now) (hhash : t.hash = s.hash)
    (hpub : t.published = s.published) (hret : t.versionReturned = s.versionReturned)
    (hserved : t.served = s.served) (hrows : s.rows ⊆ t.rows) (hkeep : s.snapshots ⊆ t.snapshots)
    (hsub : s.advances ⊆ t.advances)
    (hrow : ∀ r, t.row = some r → ∀ a ∈ t.advances, a.1 ≤ r.version)
    (hadv : ∀ a ∈ t.advances, a ∈ s.advances ∨ Newest site s t a)
    (hsnap : ∀ x ∈ t.snapshots, x ∈ s.snapshots ∨ ∀ a ∈ t.advances, a.1 ≤ x.1.version ∧ a.2 ≤ x.2)
    (hobs : ∀ x ∈ t.observed, x ∈ s.observed ∨ x.1.version ≤ x.2.version) : Dated site t := by
  have hfirm : ∀ a ∈ s.advances, Firm s a → Firm t a := by
    intro a ha hf
    obtain ⟨_, ⟨u, hu⟩, _⟩ := h.advances a ha
    exact hf.of_rows hk' (hk.snapshots _ hu) hrows hhash hnow
  constructor
  · intro x hx a ha
    rcases hsnap x hx with hx | hx
    · rcases hadv a ha with ha | ⟨_, _, hnew, hlast⟩
      · exact h.copies x hx a ha
      · have hlt := hnew x.1 (hk.snapshots x hx)
        exact ⟨fun _ => hlast x hx, fun hle => by omega⟩
    · have := hx a ha
      exact ⟨fun hlt => by omega, fun _ => this.2⟩
  · intro a ha
    refine ⟨?_, ?_, fun r hr => hrow r hr a ha⟩
    · rcases hadv a ha with ha | hnew
      · have := (h.advances a ha).1
        omega
      · exact hnew.1
    · rcases hadv a ha with ha | hnew
      · obtain ⟨_, ⟨u, hu⟩, _⟩ := h.advances a ha
        exact ⟨u, hkeep hu⟩
      · exact hnew.2.1
  · intro e w hw
    rw [hhash] at hw
    obtain ⟨⟨r, hr, hre⟩, hcopy, hdeny⟩ := h.hash e w hw
    refine ⟨⟨r, hrows hr, hre⟩, fun hact => ?_, fun hact a ha hle u hu => ?_⟩
    · obtain ⟨u, d, hmem, he⟩ := hcopy hact
      exact ⟨u, d, hkeep hmem, he⟩
    rcases hadv a ha with ha | ⟨_, _, hnew, _⟩
    · rw [sessionEnd_eq hk' hu (hrows hr)]
      exact hdeny hact a ha hle r hr
    · have := hnew r hr
      omega
  · intro p hp
    rw [hpub] at hp
    obtain ⟨u, hu, he⟩ := h.publications p hp
    exact ⟨u, hrows hu, he⟩
  · intro a ha u hu hp
    rw [hpub] at hp
    obtain ⟨r, hr, hre⟩ := h.publications _ hp
    rcases hadv a ha with ha | ⟨_, _, hnew, _⟩
    · refine hfirm a ha (h.published a ha r hr ?_)
      rw [sessionEnd_eq hk' (hrows hr) hu]
      exact hp
    · have := hnew r hr
      omega
  · rw [hret]
    rcases h.returned with h0 | ⟨a, ha, he, hf⟩
    · exact .inl h0
    · exact .inr ⟨a, hsub ha, he, hfirm a ha hf⟩
  · intro x hx
    rcases hobs x hx with hx | hx
    · exact h.observed x hx
    · exact hx
  · rw [hserved]
    exact h.served

theorem Dated.noteRead (hk : Kept s) (hr : s.row = some u)
    (hd : ∀ d ∈ deadline, ∀ a ∈ s.advances, a.2 ≤ d) (hm : ∀ k ∈ mark, Marked s k) :
    Dated site (s.noteRead u deadline mark) := by
  have hl := later_noteRead s u deadline mark
  have hk' := hk.noteRead hr deadline mark
  obtain ⟨_, _, he⟩ := noteRead_eq s u deadline mark
  rw [he] at hl hk' ⊢
  refine h.extend hk hk' hl.now rfl rfl rfl rfl hl.rows hl.snapshots hl.advances
    (fun r hr' a ha => (h.advances a ha).2.2 r hr') (fun a ha => .inl ha) (fun x hx => ?_)
    fun x hx => ?_
  · rcases mem_noteRead_snapshots (he ▸ hx) with hx | ⟨d, hmem, rfl⟩
    · exact .inl hx
    · exact .inr fun a ha => ⟨(h.advances a ha).2.2 u hr, hd d hmem a ha⟩
  rcases mem_noteRead_observed (he ▸ hx) with hx | ⟨k, hmem, rfl⟩
  · exact .inl hx
  · exact .inr (Int.le_trans (hm k hmem).2 (h.returned_le hk hr))

theorem Dated.setRow (hk : Kept s) (hk' : Kept t)
    (hv : ∀ r, s.row = some r → r.version ≤ v.version) (hrow : t.row = some v)
    (hrows : t.rows = v :: s.rows) (hnow : t.now = s.now) (hhash : t.hash = s.hash)
    (hpub : t.published = s.published) (hret : t.versionReturned = s.versionReturned)
    (hserved : t.served = s.served) (hsnap : t.snapshots = s.snapshots)
    (hadv : t.advances = s.advances) (hobs : t.observed = s.observed) : Dated site t := by
  refine h.extend hk hk' (Int.le_of_eq hnow.symm) hhash hpub hret hserved
    (hrows ▸ subset_cons_self _ _) (hsnap ▸ List.Subset.refl _) (hadv ▸ List.Subset.refl _)
    (fun r hr a ha => ?_) (fun a ha => .inl (hadv ▸ ha)) (fun x hx => .inl (hsnap ▸ hx))
    fun x hx => .inl (hobs ▸ hx)
  rw [hrow] at hr
  cases hr
  rw [hadv] at ha
  obtain ⟨_, ⟨u, hu⟩, hle⟩ := h.advances a ha
  have hne : s.rows ≠ [] := ne_nil_of_mem (hk.snapshots _ hu)
  obtain ⟨r, hr⟩ := Option.isSome_iff_exists.mp (isSome_head?.mpr hne)
  have hsr : s.row = some r := hk.row.trans hr
  exact Int.le_trans (hle r hsr) (hv r hsr)

theorem Dated.advance (hk : Kept s) (hk' : Kept t) (hr : s.row = some u)
    (hact : v.status = .active) (hv : v.version = u.version + 1) (hd : d ≤ s.now + site.ttl)
    (hlast : ∀ x ∈ s.snapshots, x.2 ≤ d) (ht : t = { (s.setRow v).noteRead v (some d) none with
      advances := (v.version, d) :: s.advances }) : Dated site t := by
  simp only [SessionState.noteRead, if_pos hact] at ht
  have hnew : Newest site s t (v.version, d) := by
    subst ht
    refine ⟨hd, ⟨v, mem_cons_self⟩, fun x hx => ?_, hlast⟩
    have := version_le_row hk hx hr
    omega
  have hold : ∀ a ∈ s.advances, a.1 ≤ v.version ∧ a.2 ≤ d := by
    intro a ha
    obtain ⟨_, ⟨x, hx⟩, hle⟩ := h.advances a ha
    have := hle u hr
    exact ⟨by omega, hlast _ hx⟩
  have hall : ∀ a ∈ t.advances, a.1 ≤ v.version ∧ a.2 ≤ d := by
    subst ht
    intro a ha
    rcases mem_cons.mp ha with rfl | ha
    · exact ⟨Int.le_refl _, Int.le_refl _⟩
    · exact hold a ha
  refine h.extend hk hk' ?_ ?_ ?_ ?_ ?_ ?_ ?_ ?_ (fun r hr' a ha => ?_) (fun a ha => ?_)
    (fun x hx => ?_) fun x hx => ?_
  all_goals subst ht
  · exact Int.le_refl _
  · rfl
  · rfl
  · rfl
  · rfl
  · exact subset_cons_self _ _
  · exact subset_cons_self _ _
  · exact subset_cons_self _ _
  · cases hr'
    exact (hall a ha).1
  · rcases mem_cons.mp ha with rfl | ha
    · exact .inr hnew
    · exact .inl ha
  · rcases mem_cons.mp hx with rfl | hx
    · exact .inr hall
    · exact .inl hx
  · exact .inl hx

theorem Dated.exec (hk : Kept s) (hc : License site c s) (hg : DeadlinesInOrder c s) :
    Dated site (c.exec s).1 := by
  have hk' := (exec_keeps site c s hk hc).1
  have he := exec_effect c s
  generalize (c.exec s).1 = t at he hk'
  cases he with
  | same => exact h
  | passed time =>
    refine h.extend hk hk' ?_ rfl rfl rfl rfl (List.Subset.refl _) (List.Subset.refl _)
      (List.Subset.refl _) (fun r hr a ha => (h.advances a ha).2.2 r hr) (fun _ ha => .inl ha)
      (fun _ hx => .inl hx) fun _ hx => .inl hx
    exact Int.le_add_of_nonneg_right (Int.natCast_nonneg time)
  | @saw entry mark hl ha =>
    refine ⟨h.copies, h.advances, h.hash, h.publications, h.published, h.returned, fun x hx => ?_,
      h.served⟩
    rcases mem_cons.mp hx with rfl | hx
    · exact Int.le_trans hc.2 (h.live_version hk hl ha)
    · exact h.observed x hx
  | evaluated => exact h.eval hk hc
  | found hr =>
    refine h.noteRead hk hr (fun d hd => ?_) hc.2
    cases hd
    exact hg
  | @inserted session deadline hr =>
    have hset : Dated site (s.setRow session) := by
      refine h.setRow hk (hk.insert hr hc.1 hc.2.1) (fun r hr' => ?_) rfl rfl rfl rfl rfl rfl rfl
        rfl rfl rfl
      rw [hr] at hr'
      cases hr'
    refine hset.noteRead (hk.insert hr hc.1 hc.2.1) rfl (fun d hd a ha => ?_)
      fun _ hm => by cases hm
    -- nothing has been advanced yet
    obtain ⟨_, ⟨x, hx⟩, _⟩ := h.advances a ha
    have hnil : s.rows = [] := head?_eq_none_iff.mp (hk.row.symm.trans hr)
    have hmem := hk.snapshots _ hx
    rw [hnil] at hmem
    cases hmem
  | exchanged hr | reused hr | revoked hr =>
    refine h.setRow hk hk' (fun r hr' => ?_) rfl rfl rfl rfl rfl rfl rfl rfl rfl rfl
    rw [hr] at hr'
    cases hr'
    exact Int.le_refl _
  | @advanced u _ _ _ next deadline time hr ha =>
    exact h.advance (v := u.advance next time) hk hk' hr ha rfl hc hg rfl
  | users | returned | handed =>
    exact ⟨h.copies, h.advances, h.hash, h.publications, h.published, h.returned, h.observed,
      h.served⟩
  | served =>
    refine ⟨h.copies, h.advances, h.hash, h.publications, h.published, h.returned, h.observed,
      fun x hx => ?_⟩
    rcases mem_cons.mp hx with rfl | hx
    · obtain ⟨u, hu, hv⟩ := hc
      exact hv ▸ h.observed (_, u) hu
    · exact h.served x hx
  | @versioned version deadline =>
    refine ⟨h.copies, h.advances, h.hash, h.publications, h.published, ?_, h.observed, h.served⟩
    obtain ⟨hmem, u, hu, hdone⟩ := hc
    have hfirm : Firm s (version, deadline) := by
      rcases hdone with hover | hp
      · intro v hv
        rw [sessionEnd_eq hk hv hu]
        exact .inr hover
      · exact h.published _ hmem u hu hp
    rcases le_total version s.versionReturned with hle | hle
    · simp only [max_eq_left hle]
      exact h.returned
    · simp only [max_eq_right hle]
      exact .inr ⟨_, hmem, rfl, hfirm⟩

end

theorem dated_beginning (site : SessionSite) (now : Int) : Dated site { now } where
  copies := forall_mem_nil _
  advances := forall_mem_nil _
  hash := fun _ _ h => by cases h
  publications := forall_mem_nil _
  published := forall_mem_nil _
  returned := .inl rfl
  observed := forall_mem_nil _
  served := forall_mem_nil _

/-- With deadlines in order, no lookup hands back a version below one an advance had returned when
it started. -/
theorem version_never_goes_back (site : SessionSite) (now : Int) (jobs : List SessionJob)
    (sched : List Choice)
    (hg : sessionMachine.Meets DeadlinesInOrder sched (beginning site now jobs)) :
    ∀ x ∈ (sessionMachine.run (beginning site now jobs) sched).state.served,
      x.1.version ≤ x.2.version :=
  (run_licensed (lawful site) (fun _ _ _ hk hc hg h => Dated.exec h hk hc hg)
    (earned_beginning site now jobs) (fun _ _ _ => trivial) hg (dated_beginning site now)).served

/-- A lookup has read the row when the session advances, and caches its copy after it. -/
def oldCopy : List SessionJob :=
  [.create loginSession "s", .pass 60001, .lookup, .advance 7 1 1 2, .lookup]

def oldCopyTurns : List Choice := turns [(0, 6), (1, 1), (2, 4), (3, 7), (2, 4), (4, 6)]

theorem old_copy_not_served :
    sessionMachine.Meets DeadlinesInOrder oldCopyTurns (beginning sampleSite 1000000 oldCopy) ∧
      (sessionMachine.run (beginning sampleSite 1000000 oldCopy)
        oldCopyTurns).state.versionReturned = 2 ∧
      ∀ x ∈ (sessionMachine.run (beginning sampleSite 1000000 oldCopy) oldCopyTurns).state.served,
        x.1.version ≤ x.2.version :=
  ⟨by decide +kernel, by decide +kernel,
    version_never_goes_back sampleSite 1000000 oldCopy oldCopyTurns (by decide +kernel)⟩

/-- The deadline of the advance is captured first, its statement comes after the read. -/
def lateDeadline : List SessionJob :=
  [.create loginSession "s", .pass 60001, .lookup, .advance 7 1 1 2, .pass 2, .pass 59999, .lookup]

def lateDeadlineTurns : List Choice :=
  turns [(0, 6), (1, 1), (2, 2), (3, 2), (4, 1), (2, 3), (3, 5), (5, 1), (2, 9), (6, 9)]

/-- The entry of version 2 expires two milliseconds before the copy of version 1, which is cached
then and handed back to a lookup that starts after the advance. -/
theorem late_deadline_serves_old_version :
    (sessionMachine.run (beginning sampleSite 1000000 lateDeadline)
        lateDeadlineTurns).state.advances = [(2, 1120001)] ∧
      (sessionMachine.run (beginning sampleSite 1000000 lateDeadline)
        lateDeadlineTurns).state.served.map (fun x => (x.1.version, x.2.version, x.2.status)) =
        [(2, 1, .active), (0, 1, .active)] := by
  decide +kernel

end Ren2Hub.Proofs.LoginVersion
