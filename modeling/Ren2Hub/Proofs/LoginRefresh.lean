import Mathlib.Data.List.Destutter
import Ren2Hub.Lib.Rules
import Ren2Hub.Proofs.LoginCalls

namespace Ren2Hub.Proofs.LoginRefresh
open Lib Lib.Machine Auth.Session LoginSpec LoginCalls List

variable {site : SessionSite} {s t : SessionState} {u v : UserSession} {c : SessionCall}

/-- Hashing and deriving are injective, and no secret comes back in its own chain. -/
structure FreshSecrets (site : SessionSite) : Prop where
  hash : Function.Injective site.hashRefreshSecret
  derive : Function.Injective site.deriveNextRefreshSecret
  fresh : ∀ x n, 0 < n → site.deriveNextRefreshSecret^[n] x ≠ x

/-- The hash of what is derived from the first secret in `k` steps. -/
def link (site : SessionSite) (first : String) (k : Nat) : String :=
  site.hashRefreshSecret (site.deriveNextRefreshSecret^[k] first)

/-- The values of `refresh_hash` so far, the newest one first. -/
def refreshHashes (s : SessionState) : List String :=
  (s.rows.map (·.refreshHash)).destutter (· ≠ ·)

theorem FreshSecrets.link_injective (h : FreshSecrets site) (first : String) :
    Function.Injective (link site first) := by
  have hle : ∀ i j, i ≤ j → link site first i = link site first j → i = j := by
    intro i j hij he
    by_contra hne
    have hback := Function.iterate_cancel h.derive (h.hash he).symm
    exact h.fresh first (j - i) (by omega) hback
  intro i j he
  rcases Nat.le_total i j with hij | hij
  · exact hle i j hij he
  · exact (hle j i hij he.symm).symm

theorem link_succ (site : SessionSite) (first : String) (k : Nat) :
    link site first (k + 1) = site.hashRefreshSecret
      (site.deriveNextRefreshSecret (site.deriveNextRefreshSecret^[k] first)) := by
  rw [link, Function.iterate_succ_apply']

theorem refreshHashes_same (hr : s.rows = u :: rest) (ht : t.rows = v :: s.rows)
    (he : v.refreshHash = u.refreshHash) : refreshHashes t = refreshHashes s := by
  simp [refreshHashes, ht, hr, he, destutter_cons']

theorem refreshHashes_new (hr : s.rows = u :: rest) (ht : t.rows = v :: s.rows)
    (he : v.refreshHash ≠ u.refreshHash) :
    refreshHashes t = v.refreshHash :: refreshHashes s := by
  simp [refreshHashes, ht, hr, he, destutter_cons']

/-- After `n` exchanges. -/
structure Linked (site : SessionSite) (first : String) (n : Nat) (s : SessionState) : Prop where
  current : ∃ u rest, s.rows = u :: rest ∧ u.refreshHash = link site first n
  hashes : refreshHashes s = ((List.range (n + 1)).map (link site first)).reverse
  exchanged : s.exchanged =
    ((List.range n).map fun k => (link site first k, link site first (k + 1))).reverse

structure Rotated (site : SessionSite) (s : SessionState) : Prop where
  chain : s.rows = [] ∧ s.exchanged = [] ∨ ∃ first n, Linked site first n s
  handedOut : ∀ p ∈ s.handedOut, p.2 = site.deriveNextRefreshSecret p.1 ∧
    ∃ u ∈ s.rows, u.refreshHash = site.hashRefreshSecret p.2
  reused : ∀ p ∈ s.reused, ∃ u ∈ s.rows, u.afterFind.previousRefreshHash = p.1 ∧
    u.previousValidUntil < p.2

theorem Linked.keepHash (h : Linked site first n s) (hr : s.rows = u :: rest)
    (hv : v.refreshHash = u.refreshHash) (hrows : t.rows = v :: s.rows)
    (hex : t.exchanged = s.exchanged) : Linked site first n t := by
  refine ⟨⟨v, s.rows, hrows, ?_⟩, ?_, ?_⟩
  · obtain ⟨w, _, hw, hlink⟩ := h.current
    rw [hr] at hw
    cases hw
    rw [hv, hlink]
  · rw [refreshHashes_same hr hrows hv]
    exact h.hashes
  · rw [hex]
    exact h.exchanged

theorem Linked.exchange (h : Linked site first n s) (hs : FreshSecrets site)
    (hr : s.rows = u :: rest) (hx : u.refreshHash = site.hashRefreshSecret x)
    (hv : v.refreshHash = site.hashRefreshSecret (site.deriveNextRefreshSecret x))
    (hrows : t.rows = v :: s.rows)
    (hex : t.exchanged = (u.refreshHash, v.refreshHash) :: s.exchanged) :
    Linked site first (n + 1) t := by
  obtain ⟨w, _, hw, hlink⟩ := h.current
  rw [hr] at hw
  cases hw
  have hsecret : x = site.deriveNextRefreshSecret^[n] first := hs.hash (hx.symm.trans hlink)
  have hnext : v.refreshHash = link site first (n + 1) := by rw [hv, hsecret, link_succ]
  have hne : v.refreshHash ≠ u.refreshHash := by
    rw [hnext, hlink]
    exact fun he => Nat.succ_ne_self n (hs.link_injective first he)
  refine ⟨⟨v, s.rows, hrows, hnext⟩, ?_, ?_⟩
  · rw [refreshHashes_new hr hrows hne, h.hashes, hnext, range_succ (n := n + 1)]
    simp
  · rw [hex, h.exchanged, hnext, hlink, range_succ (n := n)]
    simp

theorem Rotated.chain_same (h : Rotated site s) (hrows : t.rows = s.rows)
    (hex : t.exchanged = s.exchanged) :
    t.rows = [] ∧ t.exchanged = [] ∨ ∃ first n, Linked site first n t := by
  rcases h.chain with hnone | ⟨first, n, hl⟩
  · rw [hrows, hex]
    exact .inl hnone
  refine .inr ⟨first, n, ?_, ?_, ?_⟩
  · rw [hrows]
    exact hl.current
  · rw [refreshHashes, hrows]
    exact hl.hashes
  · rw [hex]
    exact hl.exchanged

theorem Rotated.of_same (h : Rotated site s) (hrows : t.rows = s.rows)
    (hex : t.exchanged = s.exchanged) (hh : t.handedOut = s.handedOut)
    (hre : t.reused = s.reused) : Rotated site t := by
  refine ⟨h.chain_same hrows hex, ?_, ?_⟩
  · rw [hh, hrows]
    exact h.handedOut
  · rw [hre, hrows]
    exact h.reused

theorem Rotated.addRow (h : Rotated site s) (hrows : t.rows = v :: s.rows)
    (hchain : ∃ first n, Linked site first n t) (hh : t.handedOut = s.handedOut)
    (hre : ∀ p ∈ t.reused, p ∈ s.reused ∨ ∃ u ∈ s.rows, u.afterFind.previousRefreshHash = p.1 ∧
      u.previousValidUntil < p.2) : Rotated site t := by
  refine ⟨.inr hchain, fun p hp => ?_, fun p hp => ?_⟩
  · rw [hh] at hp
    obtain ⟨he, u, hu, hhash⟩ := h.handedOut p hp
    exact ⟨he, u, hrows ▸ mem_cons_of_mem _ hu, hhash⟩
  have hold : ∃ u ∈ s.rows, u.afterFind.previousRefreshHash = p.1 ∧ u.previousValidUntil < p.2 :=
    (hre p hp).elim (h.reused p) id
  obtain ⟨u, hu, hprev⟩ := hold
  exact ⟨u, hrows ▸ mem_cons_of_mem _ hu, hprev⟩

theorem Rotated.keepHash (h : Rotated site s) (hk : Kept s) (hr : s.row = some u)
    (hrows : t.rows = v :: s.rows) (hv : v.refreshHash = u.refreshHash)
    (hex : t.exchanged = s.exchanged) (hh : t.handedOut = s.handedOut)
    (hre : ∀ p ∈ t.reused, p ∈ s.reused ∨ ∃ u ∈ s.rows, u.afterFind.previousRefreshHash = p.1 ∧
      u.previousValidUntil < p.2) : Rotated site t := by
  obtain ⟨rest, hrest⟩ := head?_eq_some_iff.mp (hk.row.symm.trans hr)
  rcases h.chain with ⟨hnil, _⟩ | ⟨first, n, hl⟩
  · rw [hnil] at hrest
    cases hrest
  · exact h.addRow hrows ⟨first, n, hl.keepHash hrest hv hrows hex⟩ hh hre

theorem evalScript_eq (s : SessionState) (entry : UserSessionCacheEntry) (x : Int) :
    ∃ hash published tombstoned, s.evalScript entry x = { s with hash, published, tombstoned } := by
  unfold SessionState.evalScript
  cases s.accepts entry <;> exact ⟨_, _, _, rfl⟩

theorem Rotated.exec (hs : FreshSecrets site) (h : Rotated site s) (hk : Kept s)
    (hc : License site c s) : Rotated site (c.exec s).1 := by
  have he := exec_effect c s
  generalize (c.exec s).1 = t at he
  cases he with
  | same => exact h
  | passed | saw | users | served | returned | versioned => exact h.of_same rfl rfl rfl rfl
  | @evaluated entry x =>
    obtain ⟨_, _, _, he⟩ := evalScript_eq s entry x
    rw [he]
    exact h.of_same rfl rfl rfl rfl
  | @found u _ deadline mark =>
    obtain ⟨_, _, he⟩ := noteRead_eq s u deadline mark
    rw [he]
    exact h.of_same rfl rfl rfl rfl
  | @inserted session deadline hr =>
    obtain ⟨_, _, ⟨x, hx⟩, _⟩ := hc
    obtain ⟨_, _, he⟩ := noteRead_eq (s.setRow session) session (some deadline) none
    rw [he]
    have hnil : s.rows = [] := head?_eq_none_iff.mp (hk.row.symm.trans hr)
    have hnone : s.exchanged = [] := by
      rcases h.chain with ⟨_, hnone⟩ | ⟨_, _, hl⟩
      · exact hnone
      obtain ⟨_, _, hcons, _⟩ := hl.current
      rw [hnil] at hcons
      cases hcons
    have hone : Linked site x 0 (s.setRow session) := by
      refine ⟨⟨session, s.rows, rfl, hx⟩, ?_, hnone⟩
      simp [refreshHashes, SessionState.setRow, hnil, hx, link]
    have hset : Rotated site (s.setRow session) :=
      h.addRow rfl ⟨x, 0, hone⟩ rfl fun p hp => .inl hp
    exact hset.of_same rfl rfl rfl rfl
  | @exchanged u presentedHash _ nextHash _ _ hr _ hpresented =>
    obtain ⟨x, hx, hnext⟩ := hc
    obtain ⟨rest, hrest⟩ := head?_eq_some_iff.mp (hk.row.symm.trans hr)
    rcases h.chain with ⟨hnil, _⟩ | ⟨first, n, hl⟩
    · rw [hnil] at hrest
      cases hrest
    refine h.addRow rfl ⟨first, n + 1, ?_⟩ rfl fun p hp => .inl hp
    refine hl.exchange hs hrest (hpresented.trans hx) hnext rfl ?_
    rw [hpresented]
    rfl
  | reused hr =>
    refine h.keepHash hk hr rfl rfl rfl rfl fun p hp => ?_
    rcases mem_cons.mp hp with rfl | hp
    · exact .inr hc
    · exact .inl hp
  | revoked hr => exact h.keepHash hk hr rfl rfl rfl rfl fun p hp => .inl hp
  | @advanced u _ _ _ next deadline time hr =>
    obtain ⟨_, _, he⟩ :=
      noteRead_eq (s.setRow (u.advance next time)) (u.advance next time) (some deadline) none
    rw [he]
    exact h.keepHash hk hr rfl rfl rfl rfl fun p hp => .inl hp
  | handed =>
    refine ⟨h.chain_same rfl rfl, fun p hp => ?_, h.reused⟩
    rcases mem_cons.mp hp with rfl | hp
    · exact hc
    · exact h.handedOut p hp

theorem rotated_beginning (site : SessionSite) (now : Int) : Rotated site { now } where
  chain := .inl ⟨rfl, rfl⟩
  handedOut := forall_mem_nil _
  reused := forall_mem_nil _

/-- The row is revoked, with these exchanges and values behind it. -/
def Over (exchanged : List (String × String)) (rows : List UserSession) (s : SessionState) : Prop :=
  (∃ r, s.row = some r ∧ r.status ≠ .active) ∧ s.exchanged = exchanged ∧ s.rows = rows

theorem Over.exec (h : Over e r s) (c : SessionCall) : Over e r (c.exec s).1 := by
  obtain ⟨⟨x, hx, hrev⟩, hex, hrows⟩ := h
  have he := exec_effect c s
  generalize (c.exec s).1 = t at he
  cases he with
  | same | passed | saw | users | served | returned | versioned | handed =>
    exact ⟨⟨x, hx, hrev⟩, hex, hrows⟩
  | @evaluated entry y =>
    obtain ⟨_, _, _, he⟩ := evalScript_eq s entry y
    rw [he]
    exact ⟨⟨x, hx, hrev⟩, hex, hrows⟩
  | inserted hr =>
    rw [hx] at hr
    cases hr
  | found hr ha | exchanged hr ha | reused hr ha | revoked hr ha | advanced hr ha =>
    rw [hx] at hr
    cases hr
    exact absurd ha hrev

theorem unknown_hash_changes_nothing
    (hu : ∀ u, s.row = some u → u.refreshHash ≠ presentedHash ∧
      u.afterFind.previousRefreshHash ≠ presentedHash) :
    let r := (SessionCall.first (some userID) (some deadline) none).exec s
    r.1.row = s.row ∧ r.1.hash = s.hash ∧ ∀ copy, r.2 = some copy →
      ∃ e, rotateRead site userID presentedHash nextHash time grace deadline copy again =
        .done (.failed e) := by
  simp only [SessionCall.exec]
  split
  · exact ⟨rfl, rfl, fun _ he => by cases he⟩
  rename_i u hr
  obtain ⟨hcur, hprev⟩ := hu u hr
  split
  · obtain ⟨_, _, he⟩ := noteRead_eq s u (some deadline) none
    rw [he]
    refine ⟨rfl, rfl, fun copy he => ?_⟩
    cases he
    unfold rotateRead
    split
    · exact ⟨_, rfl⟩
    rw [if_neg (show ¬ u.afterFind.refreshHash = presentedHash from hcur),
      if_pos (.inr hprev)]
    exact ⟨_, rfl⟩
  · exact ⟨rfl, rfl, fun _ he => by cases he⟩

/-- The refresh hashes are one chain of derived secrets, in every run. -/
theorem refresh_tokens_form_one_chain (site : SessionSite) (hs : FreshSecrets site) (now : Int)
    (jobs : List SessionJob) (sched : List Choice) :
    let s := (sessionMachine.run (beginning site now jobs) sched).state
    (∃ first n, (refreshHashes s).reverse = (List.range n).map (link site first) ∧
      s.exchanged.reverse =
        (List.range (n - 1)).map fun k => (link site first k, link site first (k + 1))) ∧
    (s.exchanged.map Prod.fst).Nodup ∧
    (∀ p ∈ s.handedOut, p.2 = site.deriveNextRefreshSecret p.1 ∧
      ∃ u ∈ s.rows, u.refreshHash = site.hashRefreshSecret p.2) ∧
    (∀ userID presentedHash nextHash time grace deadline again,
      (∀ u, s.row = some u → u.refreshHash ≠ presentedHash ∧
        u.afterFind.previousRefreshHash ≠ presentedHash) →
      ((SessionCall.first (some userID) (some deadline) none).exec s).1.row = s.row ∧
      ((SessionCall.first (some userID) (some deadline) none).exec s).1.hash = s.hash ∧
      ∀ copy, ((SessionCall.first (some userID) (some deadline) none).exec s).2 = some copy →
        ∃ e, rotateRead site userID presentedHash nextHash time grace deadline copy again =
          .done (.failed e)) ∧
    (∀ p ∈ s.reused, ∃ u ∈ s.rows, u.afterFind.previousRefreshHash = p.1 ∧
      u.previousValidUntil < p.2) ∧
    ∀ more, (∃ r, s.row = some r ∧ r.status ≠ .active) →
      (sessionMachine.run (beginning site now jobs) (sched ++ more)).state.exchanged =
          s.exchanged ∧
        (sessionMachine.run (beginning site now jobs) (sched ++ more)).state.rows = s.rows := by
  intro s
  have h : Rotated site s :=
    run_licensed (lawful site) (fun _ _ _ hk hc _ h => Rotated.exec hs h hk hc)
      (earned_beginning site now jobs) (fun _ _ _ => trivial) (meets_true _ _)
      (rotated_beginning site now)
  refine ⟨?_, ?_, h.handedOut, fun _ _ _ _ _ _ _ hu => unknown_hash_changes_nothing hu,
    h.reused, fun more hrev => ?_⟩
  · rcases h.chain with ⟨hnil, hnone⟩ | ⟨first, n, hl⟩
    · exact ⟨"", 0, by simp [refreshHashes, hnil], by simp [hnone]⟩
    · exact ⟨first, n + 1, by simp [hl.hashes], by simp [hl.exchanged]⟩
  · rcases h.chain with ⟨_, hnone⟩ | ⟨first, n, hl⟩
    · simp [hnone]
    · rw [hl.exchanged, map_reverse, nodup_reverse, map_map]
      exact nodup_range.map (hs.link_injective first)
  · have hover : Over s.exchanged s.rows
        (sessionMachine.run (beginning site now jobs) (sched ++ more)).state := by
      rw [Machine.run, foldl_append]
      exact run_invariant (P := fun _ => True) (fun c _ _ h _ => Over.exec h c)
        (fun p _ => p.uses_any) (meets_true more _) ⟨hrev, rfl, rfl⟩
    exact hover.2

theorem fresh_sampleSite : FreshSecrets sampleSite := by
  have hcons : ∀ a x y : String, a ++ x = a ++ y → x = y := by
    intro a x y he
    have hl : a.toList ++ x.toList = a.toList ++ y.toList := by
      rw [← String.toList_append, ← String.toList_append, he]
    exact String.toList_inj.mp (append_cancel_left hl)
  have hlen : ∀ n x, (sampleSite.deriveNextRefreshSecret^[n] x).length = n + x.length := by
    intro n x
    induction n with
    | zero => simp
    | succ n ih =>
      rw [Function.iterate_succ_apply']
      simp only [sampleSite, String.length_append] at ih ⊢
      rw [ih, show "d".length = 1 from rfl]
      omega
  refine ⟨fun x y => hcons "h" x y, fun x y => hcons "d" x y, fun x n hn he => ?_⟩
  have := hlen n x
  rw [he] at this
  omega

/-- Two tabs refresh with one secret and one loses; a third refresh is late for the revocation. -/
def twoTabs : List SessionJob :=
  [.create loginSession "s", .refresh "s" true true, .refresh "s" true true, .revoke 7 "logout",
   .refresh "ds" true true]

def twoTabsTurns : List Choice := turns [(0, 6), (2, 9), (1, 20), (2, 20), (3, 9), (4, 20)]

theorem two_tabs_get_one_secret :
    FreshSecrets sampleSite ∧
      (sessionMachine.run (beginning sampleSite 1000000 twoTabs) twoTabsTurns).state.handedOut =
        [("s", "ds"), ("s", "ds")] ∧
      ((sessionMachine.run (beginning sampleSite 1000000 twoTabs)
        twoTabsTurns).state.exchanged.map Prod.fst).Nodup :=
  ⟨fresh_sampleSite, by decide +kernel,
    (refresh_tokens_form_one_chain sampleSite fresh_sampleSite 1000000 twoTabs twoTabsTurns).2.1⟩

end Ren2Hub.Proofs.LoginRefresh
