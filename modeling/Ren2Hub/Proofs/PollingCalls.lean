import Ren2Hub.Proofs.PollingSpec

namespace Ren2Hub.Proofs.PollingCalls
open Lib Lib.Machine Billing Tasks.Polling PollingSpec List

variable {first : Task} {s t : PollState} {crew i k : Nat} {ref : TaskRef} {α : Type}
  {Q : α → PollState → Prop}

abbrev Walks (first : Task) (crew i : Nat) (Q : α → PollState → Prop) (p : Action α)
    (s : PollState) : Prop :=
  Earns pollMachine (terms first crew) i Q p s

theorem walks_pure (h : Q a s) : Walks first crew i Q (pure a) s := h

theorem walks_ask (hf : pollMachine.fault c = none)
    (h : ∀ t, Sound first crew t → Stored first t → Rely first i s t →
      License first crew i c t ∧ (Orderly first.id c t →
        Walks first crew i Q (cont (c.exec t).2) (c.exec t).1)) :
    Walks first crew i Q (ask c >>= cont) s :=
  Earns.call hf fun t hinv hr => ⟨(h t hinv.1 hinv.2 hr).1, fun hg _ => (h t hinv.1 hinv.2 hr).2 hg⟩

theorem walks_tail {Q : PollAnswer c → PollState → Prop}
    (h : Walks first crew i Q (ask c >>= pure) s) : Walks first crew i Q (ask c) s := h

theorem walks_check (h : ∀ ok t, Rely first i s t → Walks first crew i Q (cont ok) t) :
    Walks first crew i Q (ask .checkContext >>= cont) s := by
  intro t _ hr
  refine ⟨trivial, fun _ _ => h true t hr, fun r he => ?_⟩
  cases he
  exact h false t hr

/-- The calls a process makes about a task it works on. -/
def About (i : Nat) (ref : TaskRef) : PollCall → Prop
  | .read me addr | .snapshot me addr | .updateWithStatus me addr _ | .updateQuota me addr =>
    me = i ∧ addr = ref.addr
  | .write me addr task => me = i ∧ addr = ref.addr ∧ task.id = ref.id
  | .taskAdjustFunding me task _ | .adjustTokenQuota me task _ => me = i ∧ task.id = ref.id
  | .billed me row => me = i ∧ row = ref.id
  | .getTokenById _ | .fetchTask .. => True
  | _ => False

/-- Tasks that are read have the key of the row. -/
def Answers (ref : TaskRef) : (c : PollCall) → PollAnswer c → Prop
  | .read .., task | .snapshot .., task => task.id = ref.id
  | _, _ => True

theorem about_known (hc : About i ref c) (hk : Known s ref) :
    Known (c.exec s).1 ref ∧ Answers ref c (c.exec s).2 := by
  cases c <;> simp only [About] at hc
  case read => exact ⟨hk, by rw [hc.2]; exact hk.2⟩
  case snapshot => exact ⟨hk, by rw [hc.2]; exact hk.2⟩
  case write me addr task =>
    obtain ⟨_, rfl, hid⟩ := hc
    refine ⟨⟨by simpa [PollCall.exec] using hk.1, ?_⟩, trivial⟩
    rw [object_set_self hk.1 rfl, hid]
  case taskAdjustFunding me task delta =>
    exact ⟨(adjusts_funding task delta).1.known hk, trivial⟩
  case adjustTokenQuota me task delta =>
    exact ⟨(adjusts_token task delta).1.known hk, trivial⟩
  all_goals exact ⟨hk, trivial⟩

theorem about_other (hc : About i ref c) (hk : Known s ref) (hne : ref.id ≠ k) :
    Alike k s (c.exec s).1 := by
  cases c <;> simp only [About] at hc
  case updateWithStatus me addr f =>
    obtain ⟨_, rfl⟩ := hc
    exact updateWithStatus_other (by rw [hk.2]; exact hne) me f
  case updateQuota me addr =>
    obtain ⟨_, rfl⟩ := hc
    exact updateQuota_other (by rw [hk.2]; exact hne)
  case taskAdjustFunding me task delta =>
    exact (adjusts_funding task delta).1.other (by rw [hc.2]; exact hne)
  case adjustTokenQuota me task delta =>
    exact (adjusts_token task delta).1.other (by rw [hc.2]; exact hne)
  case billed me row => exact billed_other (by rw [hc.2]; exact hne) me
  all_goals exact aside_alike _ rfl _

theorem about_license (hc : About i ref c) (hi : i < crew) (hk : Known s ref)
    (hne : ref.id ≠ first.id) : License first crew i c s := by
  have hobj : (s.object ref.addr).id ≠ first.id := by rw [hk.2]; exact hne
  cases c <;> simp only [About] at hc
  case read | snapshot => exact ⟨hc.1, by rw [hc.2]; exact hk.1⟩
  case write me addr task =>
    obtain ⟨rfl, rfl, hid⟩ := hc
    exact ⟨rfl, hk.1, by rw [hid, hk.2], fun he => absurd (hid.symm.trans he) hne⟩
  case updateWithStatus me addr f =>
    obtain ⟨rfl, rfl⟩ := hc
    exact ⟨rfl, hi, hk.1, fun he => absurd he hobj⟩
  case updateQuota me addr =>
    obtain ⟨rfl, rfl⟩ := hc
    exact ⟨rfl, hk.1, fun he => absurd he hobj⟩
  case taskAdjustFunding | adjustTokenQuota =>
    exact ⟨hc.1, fun he => absurd (hc.2.symm.trans he) hne⟩
  case billed => exact ⟨hc.1, fun he => absurd (hc.2.symm.trans he) hne⟩
  all_goals trivial

/-- What the process knows is about the watched row; with another one it stays away from
it. -/
def At (first : Task) (i : Nat) (ref : TaskRef) (P : PollState → Prop) (s : PollState) : Prop :=
  Known s ref ∧ (ref.id = first.id → P s) ∧ (ref.id ≠ first.id → (first.id, i) ∉ s.billing)

def Stable (first : Task) (i : Nat) (P : PollState → Prop) : Prop :=
  ∀ s t, P s → Rely first i s t → P t

theorem At.rely (h : At first i ref P s) (hP : Stable first i P) (hr : Rely first i s t) :
    At first i ref P t :=
  ⟨h.1.rely hr, fun hid => hP s t (h.2.1 hid) hr, fun hne hb => h.2.2 hne (hr.right.mp hb)⟩

theorem walks_about {next : PollAnswer c → Action α} {P : PollState → Prop}
    {R : PollAnswer c → PollState → Prop} (hs : At first i ref P s) (hP : Stable first i P)
    (hi : i < crew) (hf : pollMachine.fault c = none) (hc : About i ref c)
    (hmine : ref.id = first.id → ∀ t, Sound first crew t → Stored first t → Known t ref → P t →
      License first crew i c t ∧ (Orderly first.id c t → R (c.exec t).2 (c.exec t).1))
    (hnext : ∀ r t, Answers ref c r → At first i ref (R r) t → Walks first crew i Q (next r) t) :
    Walks first crew i Q (ask c >>= next) s := by
  refine walks_ask hf fun t ht hm hr => ?_
  have hat := hs.rely hP hr
  obtain ⟨hk, hanswer⟩ := about_known hc hat.1
  by_cases hid : ref.id = first.id
  · obtain ⟨hlic, hR⟩ := hmine hid t ht hm hat.1 (hat.2.1 hid)
    exact ⟨hlic, fun hg => hnext _ _ hanswer ⟨hk, fun _ => hR hg, fun hne => absurd hid hne⟩⟩
  refine ⟨about_license hc hi hat.1 hid, fun _ => hnext _ _ hanswer
    ⟨hk, fun he => absurd he hid, fun _ hb => hat.2.2 hid ?_⟩⟩
  exact ((about_other hc hat.1 hid).billing i).mp hb

def Spare (first : Task) (i : Nat) (s : PollState) : Prop := (first.id, i) ∉ s.billing

theorem stable_spare : Stable first i (Spare first i) :=
  fun _ _ h hr hb => h (hr.right.mp hb)

/-- It has the task in its hands and bills nothing. -/
structure Desk (first : Task) (i addr : Nat) (o : Task) (s : PollState) : Prop where
  touched : (addr, i) ∈ s.touched
  object : s.object addr = o
  id : o.id = first.id
  spare : (first.id, i) ∉ s.billing

theorem stable_desk : Stable first i (Desk first i addr o) := by
  intro s t h hr
  refine ⟨hr.touched h.touched, ?_, h.id, stable_spare s t h.spare hr⟩
  rw [hr.own addr h.touched (by rw [h.object]; exact h.id), h.object]

/-- It bills the task: the row, and the amounts moved so far. -/
structure Due (first : Task) (i addr : Nat) (o r : Task) (x y : Int) (s : PollState) : Prop where
  touched : (addr, i) ∈ s.touched
  object : s.object addr = o
  id : o.id = first.id
  account : SameAccount first o
  legacy : o.isLegacy = false
  billing : (first.id, i) ∈ s.billing
  row : s.tasks.find first.id = some r
  funding : moved first.id s.funding = x
  tokens : moved first.id s.tokens = y

theorem stable_due : Stable first i (Due first i addr o r x y) := by
  intro s t h hr
  obtain ⟨hrow, hf, ht, _⟩ := hr.mine h.billing
  refine ⟨hr.touched h.touched, ?_, h.id, h.account, h.legacy, hr.right.mpr h.billing,
    hrow.trans h.row, hf.trans h.funding, ht.trans h.tokens⟩
  rw [hr.own addr h.touched (by rw [h.object]; exact h.id), h.object]

theorem HasToken.rely (hr : Rely first i s t) : HasToken first t ↔ HasToken first s := by
  unfold HasToken
  rw [hr.tokens]

/-- The amount is moved at the token, if there is one. -/
def Moving (first : Task) (i addr : Nat) (o r : Task) (x d : Int) (s : PollState) : Prop :=
  ∃ y, Due first i addr o r x y s ∧ (HasToken first s → y = d)

theorem stable_moving : Stable first i (Moving first i addr o r x d) := by
  rintro s t ⟨y, h, hy⟩ hr
  exact ⟨y, stable_due s t h hr, fun ht => hy ((HasToken.rely hr).mp ht)⟩

/-- The bill is paid. -/
def Cleared (first : Task) (i : Nat) (s : PollState) : Prop :=
  (first.id, i) ∈ s.billing → Paid first s

theorem stable_cleared : Stable first i (Cleared first i) := by
  intro s t h hr hb
  have hb' := hr.right.mp hb
  obtain ⟨hrow, hf, ht, hq⟩ := hr.mine hb'
  have hp := h hb'
  refine ⟨fun r hr' hst => ?_, fun r hr' hst => ?_⟩
  all_goals
    rw [hrow] at hr'
    rw [hf, ht, HasToken.rely hr]
  · exact hp.failed r hr' hst
  · obtain ⟨h1, h2, h3⟩ := hp.succeeded r hr' hst
    exact ⟨h1, h2, h3.imp_right fun hm => hq hm⟩

theorem Due.cleared (h : Due first i addr o r 0 0 s) (hq : r.quota = first.quota)
    (hst : r.status = .failure → first.quota = 0) : Cleared first i s := by
  refine fun _ => ⟨fun r' hr' hst' => ?_, fun r' hr' _ => ?_⟩
  all_goals
    rw [h.row] at hr'
    cases hr'
    rw [h.funding, h.tokens]
  · have hz := hst hst'
    exact ⟨by rw [hz]; rfl, fun _ => by rw [hz]; rfl, by rw [hq, hz]⟩
  · exact ⟨by rw [hq, Int.add_zero], fun _ => by rw [hq, Int.add_zero], .inl hq⟩

theorem At.imp (h : At first i ref P s) (hPR : ref.id = first.id → P s → R s) :
    At first i ref R s :=
  ⟨h.1, fun hid => hPR hid (h.2.1 hid), h.2.2⟩

theorem walks_end {P : PollState → Prop} {R : PollAnswer c → PollState → Prop}
    (hs : At first i ref P s) (hP : Stable first i P) (hi : i < crew)
    (hf : pollMachine.fault c = none) (hc : About i ref c)
    (hmine : ref.id = first.id → ∀ t, Sound first crew t → Stored first t → Known t ref → P t →
      License first crew i c t ∧ (Orderly first.id c t → R (c.exec t).2 (c.exec t).1)) :
    Walks first crew i (fun r => At first i ref (R r)) (ask c) s :=
  walks_about hs hP hi hf hc hmine fun _ _ _ h => walks_pure h

section Bill
variable {addr : Nat} {o r task : Task} {x y delta : Int}

theorem Due.adjusts (h : Due first i addr o r x y s) (ha : Adjusts task s t)
    (hf : moved first.id t.funding = x') (ht : moved first.id t.tokens = y') :
    Due first i addr o r x' y' t := by
  obtain ⟨_, _, _, rfl⟩ := ha.same
  exact ⟨h.touched, h.object, h.id, h.account, h.legacy, h.billing, h.row, hf, ht⟩

theorem Due.fund (h : Due first i addr o r x y s) (delta : Int)
    (hf : (s.taskAdjustFunding o delta).1.funding = (o.id, delta) :: s.funding) :
    Due first i addr o r (x + delta) y (s.taskAdjustFunding o delta).1 := by
  obtain ⟨ha, ht⟩ := adjusts_funding (s := s) o delta
  refine h.adjusts ha ?_ (ht ▸ h.tokens)
  rw [hf, h.id, moved_self, h.funding, Int.add_comm]

theorem Due.adjustToken (h : Due first i addr o r x 0 s) (delta : Int) :
    Moving first i addr o r x delta (s.adjustTokenQuota o delta) := by
  obtain ⟨ha, hf⟩ := adjusts_token (s := s) o delta
  refine ⟨_, h.adjusts ha (hf ▸ h.funding) rfl, fun htoken => ?_⟩
  have hsome : (s.accounts.tokens o.privateData.tokenId).isSome = true := by
    rw [← ha.tokens, ← h.account.2.2.2]
    exact htoken.2
  rw [adjustTokenQuota_tokens hsome, h.id, moved_self, h.tokens, Int.add_zero]

theorem walks_token (hs : At first i ref (Due first i ref.addr o r x 0) s) (hi : i < crew)
    (hid : task.id = ref.id) (ho : ref.id = first.id → task = o) :
    Walks first crew i (fun _ => At first i ref (Moving first i ref.addr o r x delta))
      (taskAdjustTokenQuota i task delta) s := by
  unfold taskAdjustTokenQuota
  split
  · rename_i hnone
    refine walks_pure (hs.imp fun hmine h => ⟨0, h, fun htoken => ?_⟩)
    rcases hnone with hle | hzero
    · rw [ho hmine, ← h.account.2.2.2] at hle
      exact absurd htoken.1 (Int.not_lt.mpr hle)
    · exact hzero.symm
  · refine walks_about (R := fun found t => Due first i ref.addr o r x 0 t ∧
      (found = false → ¬ HasToken first t)) hs stable_due hi rfl trivial
      (fun hmine t _ _ _ h => ⟨trivial, fun _ => ⟨h, fun hf htoken => ?_⟩⟩) fun found t _ hat => ?_
    · have hnone : (t.accounts.tokens task.privateData.tokenId).isSome = false := hf
      have hsome : (t.accounts.tokens first.privateData.tokenId).isSome = true := htoken.2
      rw [h.account.2.2.2, ← ho hmine, hnone] at hsome
      cases hsome
    · cases found with
      | false => exact walks_pure (hat.imp fun _ h => ⟨0, h.1, fun ht => absurd ht (h.2 rfl)⟩)
      | true =>
        refine walks_end (hat.imp fun _ h => h.1) stable_due hi rfl ⟨rfl, hid⟩
          fun hmine t _ _ _ h => ⟨⟨rfl, fun _ => h.billing⟩, fun _ => ?_⟩
        rw [ho hmine]
        exact h.adjustToken delta

theorem Moving.write (h : Moving first i addr o r x d s) (hlt : addr < s.memory.length)
    (q : Int) : Moving first i addr { o with quota := q } r x d
      ((PollCall.write i addr { o with quota := q }).exec s).1 := by
  obtain ⟨y, hd, hy⟩ := h
  exact ⟨y, ⟨hd.touched, object_set_self hlt rfl, hd.id, hd.account, hd.legacy, hd.billing, hd.row,
    hd.funding, hd.tokens⟩, hy⟩

theorem license_quota (h : Moving first i ref.addr o r x delta t) (hk : Known t ref)
    (hfin : o.status.unfinished = false) (q : Int) :
    License first crew i (.write i ref.addr { o with quota := q }) t := by
  obtain ⟨y, hd, _⟩ := h
  refine ⟨rfl, hk.1, by rw [hd.object], fun _ => ⟨hd.touched, hd.account, hd.legacy, fun hu => ?_⟩⟩
  rw [show _ = o.status.unfinished from rfl, hfin] at hu
  cases hu

theorem Moving.cleared (h : Moving first i addr o r x delta s) (hx : x = delta)
    (hf : r.status = .failure → delta = -first.quota ∧ o.quota = 0)
    (hs : r.status = .success → first.quota + delta = o.quota) :
    Cleared first i ((PollCall.updateQuota i addr).exec s).1 := by
  obtain ⟨y, hd, hy⟩ := h
  have hrow := updateQuota_mine (by rw [hd.object]; exact hd.id) hd.row
  rw [hd.object] at hrow
  intro _
  refine ⟨fun r' hr' hst => ?_, fun r' hr' hst => ?_⟩
  all_goals
    cases hrow.symm.trans hr'
  · obtain ⟨hdelta, hq⟩ := hf hst
    exact ⟨by rw [← hdelta, ← hx]; exact hd.funding, fun ht => by
      rw [← hdelta, ← hy ht]; exact hd.tokens, hq⟩
  have hq := hs hst
  refine ⟨?_, fun ht => ?_, .inr ?_⟩
  · exact (congrArg (first.quota + ·) (hd.funding.trans hx)).trans hq
  · exact (congrArg (first.quota + ·) (hd.tokens.trans (hy ht))).trans hq
  · rw [← hd.id, ← hd.object]
    exact mem_cons_self

theorem walks_writeQuota (hs : At first i ref (Moving first i ref.addr o o x delta) s)
    (hi : i < crew) (hid : task.id = ref.id) (ho : ref.id = first.id → task = o) (hx : x = delta)
    {q : Int} (hfin : ref.id = first.id → o.status.unfinished = false)
    (hf : ref.id = first.id → o.status = .failure → delta = -first.quota ∧ q = 0)
    (hsuc : ref.id = first.id → o.status = .success → first.quota + delta = q) :
    Walks first crew i (fun _ => At first i ref (Cleared first i))
      (do let _ ← ask (.write i ref.addr { task with quota := q })
          ask (.updateQuota i ref.addr)) s := by
  refine walks_about (R := fun _ => Moving first i ref.addr { o with quota := q } o x delta) hs
    stable_moving hi rfl ⟨rfl, rfl, hid⟩ (fun hmine t _ _ hk h => ?_) fun _ t _ hat => ?_
  · rw [ho hmine]
    exact ⟨license_quota h hk (hfin hmine) q, fun _ => h.write hk.1 q⟩
  refine walks_end hat stable_moving hi rfl ⟨rfl, rfl⟩ fun hmine t _ _ hk h =>
    ⟨⟨rfl, hk.1, fun _ => ?_⟩, fun _ => h.cleared hx (hf hmine) (hsuc hmine)⟩
  obtain ⟨_, hd, _⟩ := h
  exact hd.billing

theorem walks_read {next : Task → Action α} (hi : i < crew)
    (hs : At first i ref (Due first i ref.addr o r x y) s)
    (hnext : ∀ task t, task.id = ref.id → (ref.id = first.id → task = o) →
      At first i ref (Due first i ref.addr o r x y) t → Walks first crew i Q (next task) t) :
    Walks first crew i Q (ask (.read i ref.addr) >>= next) s := by
  refine walks_about (R := fun task t => task = o ∧ Due first i ref.addr o r x y t) hs stable_due hi
    rfl ⟨rfl, rfl⟩ (fun _ t _ _ hk h => ⟨⟨rfl, hk.1⟩, fun _ => ⟨h.object, ?_⟩⟩)
    fun task t hid hat => hnext task t hid (fun h => (hat.2.1 h).1) (hat.imp fun _ h => h.2)
  exact ⟨mem_cons_of_mem _ h.touched, h.object, h.id, h.account, h.legacy, h.billing, h.row,
    h.funding, h.tokens⟩

theorem walks_fund {next : Bool → Action α} (hi : i < crew)
    (hs : At first i ref (Due first i ref.addr o r 0 0) s) (hid : task.id = ref.id)
    (ho : ref.id = first.id → task = o)
    (hnext : ∀ ok t, At first i ref (fun t => if ok = true then Due first i ref.addr o r delta 0 t
      else 0 < delta ∧ Due first i ref.addr o r 0 0 t) t → Walks first crew i Q (next ok) t) :
    Walks first crew i Q (ask (.taskAdjustFunding i task delta) >>= next) s := by
  refine walks_about (R := fun ok t => if ok = true then Due first i ref.addr o r delta 0 t
    else 0 < delta ∧ Due first i ref.addr o r 0 0 t) hs stable_due hi rfl ⟨rfl, hid⟩
    (fun hmine t _ _ _ h => ⟨⟨rfl, fun _ => h.billing⟩, fun hg => ?_⟩)
    fun ok t _ hat => hnext ok t hat
  rcases taskAdjustFunding_moves (hg (hid.trans hmine)) with ⟨hok, hf⟩ | ⟨hpos, he⟩
  · rw [ho hmine] at hok hf ⊢
    have hdue := h.fund delta hf
    rw [Int.zero_add] at hdue
    simp only [PollCall.exec, hok, if_true]
    exact hdue
  · simp only [PollCall.exec, he, Bool.false_eq_true, if_false]
    exact ⟨hpos, h⟩

theorem walks_refund (hq : 0 ≤ first.quota) (hi : i < crew)
    (hs : At first i ref (Due first i ref.addr o o 0 0) s)
    (ho : ref.id = first.id → o.status = .failure ∧ o.quota = first.quota) :
    Walks first crew i (fun _ => At first i ref (Cleared first i))
      (refundTaskQuota i ref.addr) s := by
  refine walks_read hi hs fun task t hid htask hat => ?_
  split
  · rename_i hzero
    refine walks_pure (hat.imp fun hmine h => h.cleared (ho hmine).2 fun _ => ?_)
    rw [← (ho hmine).2, ← htask hmine, hzero]
  rename_i hne
  refine walks_fund hi hat hid htask fun ok t hat => ?_
  cases ok with
  | false =>
    refine walks_pure (hat.imp fun hmine h => absurd h.1 ?_)
    rw [htask hmine, (ho hmine).2]
    omega
  | true =>
    refine (walks_token hat hi hid htask).bind fun _ t hat => ?_
    refine (walks_writeQuota hat hi hid htask rfl (fun hmine => ?_) (fun hmine _ => ⟨?_, rfl⟩)
      fun hmine hst => ?_).bind fun _ t hat => walks_pure hat
    · rw [(ho hmine).1]
      rfl
    · rw [htask hmine, (ho hmine).2]
    · rw [(ho hmine).1] at hst
      cases hst

theorem walks_recalculate (hi : i < crew) (hs : At first i ref (Due first i ref.addr o o 0 0) s)
    (ho : ref.id = first.id → o.status = .success ∧ o.quota = first.quota) :
    Walks first crew i (fun _ => At first i ref (Cleared first i))
      (recalculateTaskQuota i ref.addr actual) s := by
  have hcleared : ∀ t, At first i ref (Due first i ref.addr o o 0 0) t →
      At first i ref (Cleared first i) t := fun t h => h.imp fun hmine h =>
    h.cleared (ho hmine).2 fun hst => by rw [(ho hmine).1] at hst; cases hst
  unfold recalculateTaskQuota
  split
  · exact walks_pure (hcleared s hs)
  refine walks_read hi hs fun task t hid htask hat => ?_
  split
  · exact walks_pure (hcleared t hat)
  refine walks_fund hi hat hid htask fun ok t hat => ?_
  cases ok with
  | false => exact walks_pure (hcleared t (hat.imp fun _ h => h.2))
  | true =>
    refine (walks_token hat hi hid htask).bind fun _ t hat => ?_
    refine walks_writeQuota hat hi hid htask rfl (fun hmine => ?_) (fun hmine hst => ?_)
      fun hmine _ => ?_
    · rw [(ho hmine).1]
      rfl
    · rw [(ho hmine).1] at hst
      cases hst
    · rw [htask hmine, (ho hmine).2]
      omega

theorem walks_settle (hi : i < crew) (hs : At first i ref (Due first i ref.addr o o 0 0) s)
    (ho : ref.id = first.id → o.status = .success ∧ o.quota = first.quota) :
    Walks first crew i (fun _ => At first i ref (Cleared first i))
      (settleTaskBillingOnComplete site i ref.addr info) s := by
  refine walks_read hi hs fun task t _ _ hat => ?_
  have hcleared : At first i ref (Cleared first i) t := hat.imp fun hmine h =>
    h.cleared (ho hmine).2 fun hst => by rw [(ho hmine).1] at hst; cases hst
  split
  · exact walks_pure hcleared
  split
  · exact walks_recalculate hi hat ho
  split
  · unfold recalculateTaskQuotaByTokens
    split
    · exact walks_pure hcleared
    split
    · exact walks_pure hcleared
    · exact walks_recalculate hi hat ho
  · exact walks_pure hcleared

end Bill

section Last
variable {o task : Task} {f : TaskStatus}

theorem walks_snapshot (hi : i < crew) (hs : At first i ref (Spare first i) s)
    (hnext : ∀ task t, task.id = ref.id →
      (ref.id = first.id → Good first task ∧ task.status.unfinished = true) →
      At first i ref (Desk first i ref.addr task) t → Walks first crew i Q (cont task) t) :
    Walks first crew i Q (ask (.snapshot i ref.addr) >>= cont) s := by
  refine walks_about (R := fun task t => (Good first task ∧ task.status.unfinished = true) ∧
    Desk first i ref.addr task t) hs stable_spare hi rfl ⟨rfl, rfl⟩ (fun hmine t _ hm hk h =>
      ⟨⟨rfl, hk.1⟩, fun hg => ?_⟩)
    fun task t hid hat => hnext task t hid (fun h => (hat.2.1 h).1) (hat.imp fun _ h => h.2)
  have hid : (t.object ref.addr).id = first.id := hk.2.trans hmine
  exact ⟨⟨hm.objects _ (object_of_lt hk.1) hid, (hg hid).1⟩, mem_cons_self, rfl, hid, h⟩

theorem walks_write {next : Unit → Action α} (hi : i < crew)
    (hs : At first i ref (Desk first i ref.addr task) s) (hid : o.id = ref.id)
    (ho : ref.id = first.id → Good first o)
    (hnext : ∀ t, At first i ref (Desk first i ref.addr o) t → Walks first crew i Q (next ()) t) :
    Walks first crew i Q (ask (.write i ref.addr o) >>= next) s := by
  refine walks_about (R := fun _ => Desk first i ref.addr o) hs stable_desk hi rfl ⟨rfl, rfl, hid⟩
    (fun hmine t _ _ hk h => ⟨⟨rfl, hk.1, by rw [hid, hk.2], fun _ => ⟨h.touched, ho hmine⟩⟩,
      fun _ => ⟨h.touched, object_set_self hk.1 rfl, hid.trans hmine, h.spare⟩⟩)
    fun _ t _ hat => hnext t hat

/-- After an update that hit the row: a final task is to be billed. -/
def Decided (first : Task) (i addr : Nat) (o : Task) (s : PollState) : Prop :=
  (o.status.unfinished = true → Spare first i s) ∧
    (o.status.unfinished = false → Due first i addr o o 0 0 s)

theorem Desk.updated (h : Desk first i addr o s) (hs : Sound first crew s) (ho : Good first o)
    (hf : f.unfinished = true) (won : Bool) (hwon : (s.updateWithStatus i addr f).2 = won) :
    if won = true then Decided first i addr o (s.updateWithStatus i addr f).1
    else Spare first i (s.updateWithStatus i addr f).1 := by
  obtain ⟨r, hr⟩ := hs.row
  have hid : (s.object addr).id = first.id := by rw [h.object]; exact h.id
  by_cases hst : r.status = f
  · subst hst
    obtain ⟨hrow, htrue⟩ := updateWithStatus_hit hid hr i
    have hleaving := updateWithStatus_leaving hid hr hf i
    rw [h.object] at hrow hleaving
    rw [htrue] at hwon
    subst hwon
    refine ⟨fun hu hb => ?_, fun hfin => ?_⟩
    · rw [updateWithStatus_billing, mem_append, mem_map] at hb
      rcases hb with ⟨_, hm, he⟩ | hb
      · cases he
        rw [hleaving.mp hm] at hu
        cases hu
      · exact h.spare hb
    · obtain ⟨_, _, hfunding, htokens, _⟩ := hs.unfinished r hr hf
      refine ⟨h.touched, h.object, h.id, ho.1, ho.2.1, ?_, hrow, hfunding, htokens⟩
      exact mem_append_left _ (mem_map.mpr ⟨_, hleaving.mpr hfin, rfl⟩)
  · rw [updateWithStatus_lost hid hr hst i] at hwon
    subst hwon
    exact fun hb => h.spare (((updateWithStatus_missed hr hst i addr).billing i).mp hb)

theorem walks_update (hi : i < crew) (hs : At first i ref (Desk first i ref.addr o) s)
    (ho : ref.id = first.id → Good first o ∧ o.quota = first.quota ∧ f.unfinished = true)
    (hnext : ∀ won t, At first i ref (fun t => if won = true then Decided first i ref.addr o t
      else Spare first i t) t → Walks first crew i Q (cont won) t) :
    Walks first crew i Q (ask (.updateWithStatus i ref.addr f) >>= cont) s := by
  refine walks_about (R := fun won t => if won = true then Decided first i ref.addr o t
    else Spare first i t) hs stable_desk hi rfl ⟨rfl, rfl⟩ (fun hmine t ht _ hk h => ?_)
    fun won t _ hat => hnext won t hat
  obtain ⟨hgood, hq, hf⟩ := ho hmine
  exact ⟨⟨rfl, hi, hk.1, fun _ => ⟨hf, by rw [h.object]; exact hq⟩⟩,
    fun _ => h.updated ht hgood hf _ rfl⟩

theorem Spare.cleared (h : Spare first i s) : Cleared first i s := fun hb => absurd hb h

theorem walks_billed (hi : i < crew) (hs : At first i ref (Cleared first i) s) :
    Walks first crew i (fun _ => At first i ref (Spare first i)) (ask (.billed i ref.id)) s := by
  refine walks_end hs stable_cleared hi rfl ⟨rfl, rfl⟩ fun hmine t _ _ _ h =>
    ⟨⟨rfl, fun _ => h⟩, fun _ hb => ?_⟩
  have hne := (mem_filter.mp hb).2
  rw [hmine] at hne
  simp at hne

end Last

end Ren2Hub.Proofs.PollingCalls
