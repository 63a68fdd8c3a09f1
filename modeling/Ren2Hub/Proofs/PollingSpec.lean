import Mathlib.Algebra.Ring.Int.Defs
import Ren2Hub.Lib.License
import Ren2Hub.Tasks.Polling

namespace Ren2Hub.Proofs.PollingSpec
open Lib Lib.Machine Billing Tasks.Polling PollState List

variable {first : Task} {s t : PollState} {crew i j k : Nat}

theorem find_update (table : TaskTable) (p : Task → Bool) (f : Task → Task)
    (hf : ∀ t, (f t).id = t.id) (id : Nat) :
    (table.update p f hf).find id = (table.find id).map fun t => if p t then f t else t := by
  have he : ((fun t : Task => decide (t.id = id)) ∘ fun t => if p t then f t else t) =
      fun t => decide (t.id = id) := by
    funext t
    simp only [Function.comp_apply]
    split
    · rw [hf]
    · rfl
  simp only [TaskTable.find, TaskTable.update, find?_map, he]

section
variable {table : TaskTable}

theorem find_update_other {f : Task → Task} (hf : ∀ t, (f t).id = t.id)
    (h : ∀ r, table.find k = some r → p r = false) :
    (table.update p f hf).find k = table.find k := by
  rw [find_update]
  cases hr : table.find k with
  | none => rfl
  | some r => simp [h r hr]

theorem find_update_hit {f : Task → Task} (hf : ∀ t, (f t).id = t.id)
    (hr : table.find k = some r) (hp : p r = true) :
    (table.update p f hf).find k = some (f r) := by
  rw [find_update, hr]
  simp [hp]

theorem find_id (h : table.find k = some r) : r.id = k := by
  simpa using find?_some h

theorem find_mem (h : table.find k = some r) : r ∈ table.rows :=
  mem_of_find?_eq_some h

theorem find_of_mem (h : r ∈ table.rows) : table.find r.id = some r := by
  obtain ⟨rows, distinct⟩ := table
  simp only [TaskTable.find] at h ⊢
  induction rows with
  | nil => cases h
  | cons x rows ih =>
    simp only [map_cons, nodup_cons] at distinct
    rcases mem_cons.mp h with rfl | hm
    · simp
    have hne : x.id ≠ r.id := fun he =>
      distinct.1 (he ▸ mem_map.mpr ⟨r, hm, rfl⟩)
    rw [find?_cons_of_neg (by simpa using hne)]
    exact ih distinct.2 hm

theorem mem_leaving : k ∈ s.leaving table ↔
    ∃ r, s.tasks.find k = some r ∧ r.status.unfinished = true ∧
      ∃ r', table.find k = some r' ∧ r'.status.unfinished = false := by
  simp only [leaving, mem_map, mem_filter, Bool.and_eq_true, Option.any_eq_true, Bool.not_eq_true']
  constructor
  · rintro ⟨r, ⟨hr, hu, r', hr', hf⟩, rfl⟩
    exact ⟨r, find_of_mem hr, hu, r', hr', hf⟩
  · rintro ⟨r, hr, hu, r', hr', hf⟩
    exact ⟨r, ⟨find_mem hr, hu, r', by rw [find_id hr]; exact hr', hf⟩, find_id hr⟩

end

theorem count_leaving (table : TaskTable) (k : Nat) :
    (s.leaving table).count k = if k ∈ s.leaving table then 1 else 0 := by
  have hnd : (s.leaving table).Nodup := by
    exact s.tasks.distinct.sublist (List.Sublist.map _ filter_sublist)
  split
  · exact count_eq_one_of_mem hnd ‹_›
  · exact count_eq_zero_of_not_mem ‹_›

/-- The sum of what a log holds for one task. -/
def moved (id : Nat) (log : List (Nat × Int)) : Int :=
  ((log.filter fun x => x.1 = id).map Prod.snd).sum

theorem moved_self (id : Nat) (d : Int) (log : List (Nat × Int)) :
    moved id ((id, d) :: log) = d + moved id log := by
  simp [moved]

theorem moved_other {k id : Nat} (h : k ≠ id) (d : Int) (log : List (Nat × Int)) :
    moved id ((k, d) :: log) = moved id log := by
  simp [moved, h]

/-- The two tasks are billed to the same account and token. -/
def SameAccount (a b : Task) : Prop :=
  a.userId = b.userId ∧ a.privateData.billingSource = b.privateData.billingSource ∧
    a.privateData.subscriptionId = b.privateData.subscriptionId ∧
    a.privateData.tokenId = b.privateData.tokenId

def HasToken (task : Task) (s : PollState) : Prop :=
  0 < task.privateData.tokenId ∧ (s.accounts.tokens task.privateData.tokenId).isSome = true

/-- A failed task has got everything back, a successful one has cost what its row says. -/
structure Paid (first : Task) (s : PollState) : Prop where
  failed : ∀ r, s.tasks.find first.id = some r → r.status = .failure →
    moved first.id s.funding = -first.quota ∧
      (HasToken first s → moved first.id s.tokens = -first.quota) ∧ r.quota = 0
  succeeded : ∀ r, s.tasks.find first.id = some r → r.status = .success →
    first.quota + moved first.id s.funding = r.quota ∧
      (HasToken first s → first.quota + moved first.id s.tokens = r.quota) ∧
      (r.quota = first.quota ∨ (first.id, r.quota) ∈ s.quotas)

/-- The row of the watched task, which started as `first`. -/
structure Sound (first : Task) (crew : Nat) (s : PollState) : Prop where
  row : ∃ r, s.tasks.find first.id = some r
  account : ∀ r, s.tasks.find first.id = some r → SameAccount first r
  unfinished : ∀ r, s.tasks.find first.id = some r → r.status.unfinished = true →
    r.quota = first.quota ∧ r.isLegacy = false ∧ moved first.id s.funding = 0 ∧
      moved first.id s.tokens = 0 ∧ s.left.count first.id = 0 ∧
      ∀ i, (first.id, i) ∉ s.billing
  final : ∀ r, s.tasks.find first.id = some r → r.status.unfinished = false →
    s.left.count first.id = 1 ∧ ((∀ i, (first.id, i) ∉ s.billing) → Paid first s)
  biller : ∀ i, (first.id, i) ∈ s.billing → i < crew ∧ ∀ j, (first.id, j) ∈ s.billing → i = j

/-- A loaded task that no answer has brought to an end has the quota of the row. -/
def Good (first o : Task) : Prop :=
  SameAccount first o ∧ o.isLegacy = false ∧ (o.status.unfinished = true → o.quota = first.quota)

def Known (s : PollState) (ref : TaskRef) : Prop :=
  ref.addr < s.memory.length ∧ (s.object ref.addr).id = ref.id

theorem Known.of_memory (h : Known s ref) (hm : t.memory = s.memory) : Known t ref := by
  unfold Known object
  rw [hm]
  exact h

/-- The loaded tasks. -/
structure Stored (first : Task) (s : PollState) : Prop where
  objects : ∀ o ∈ s.memory, o.id = first.id → Good first o
  users : ∀ p ∈ s.touched, ∀ q ∈ s.touched, p.1 = q.1 → (s.object p.1).id = first.id → p.2 = q.2
  bounds : ∀ p ∈ s.touched, p.1 < s.memory.length
  jobs : ∀ job ∈ s.queue, ∀ x ∈ job.taskM, Known s x.2

/-- Tokens stay, loaded tasks keep their keys, and those it used and a row it is billing stay as it
left them. -/
structure Rely (first : Task) (i : Nat) (s t : PollState) : Prop where
  tokens : ∀ id, (t.accounts.tokens id).isSome = (s.accounts.tokens id).isSome
  length : s.memory.length ≤ t.memory.length
  ids : ∀ addr, addr < s.memory.length → (t.object addr).id = (s.object addr).id
  touched : s.touched ⊆ t.touched
  own : ∀ addr, (addr, i) ∈ s.touched → (s.object addr).id = first.id →
    t.object addr = s.object addr
  right : (first.id, i) ∈ t.billing ↔ (first.id, i) ∈ s.billing
  mine : (first.id, i) ∈ s.billing → t.tasks.find first.id = s.tasks.find first.id ∧
    moved first.id t.funding = moved first.id s.funding ∧
    moved first.id t.tokens = moved first.id s.tokens ∧ s.quotas ⊆ t.quotas

/-- The account is there, and a subscription is neither used less than nothing nor, after a refund,
more than its total. -/
def chargeable (accounts : Store) (task : Task) (delta : Int) : Bool :=
  if taskIsSubscription task then
    (accounts.subscriptions task.privateData.subscriptionId).any fun sub =>
      sub.id = task.privateData.subscriptionId && decide (0 ≤ sub.amountUsed + delta) &&
        (decide (0 ≤ delta) || decide (sub.amountTotal ≤ 0) ||
          decide (sub.amountUsed + delta ≤ sub.amountTotal))
  else (accounts.users task.userId).isSome

/-- The watched task is used by one process only, which applies an answer only while it is
unfinished; a bulk update finds it unfinished and without quota; its account can take what is
charged or given back. -/
def Orderly (id : Nat) : PollCall → PollState → Prop
  | .read me addr, s =>
    (s.object addr).id = id → ∀ p ∈ s.touched, p.1 = addr → p.2 = me
  | .snapshot me addr, s => (s.object addr).id = id →
    (s.object addr).status.unfinished = true ∧ ∀ p ∈ s.touched, p.1 = addr → p.2 = me
  | .taskBulkUpdateByID ids _, s => id ∈ ids →
    ∀ r ∈ s.tasks.rows, r.id = id → r.status.unfinished = true ∧ r.quota = 0
  | .taskAdjustFunding _ task delta, s => task.id = id → chargeable s.accounts task delta = true
  | _, _ => True

instance (id : Nat) (c : PollCall) (s : PollState) : Decidable (Orderly id c s) := by
  cases c <;> dsimp only [Orderly] <;> infer_instance

/-- What a process has to know before a call. -/
def License (first : Task) (crew i : Nat) : PollCall → PollState → Prop
  | .read me addr, s | .snapshot me addr, s => me = i ∧ addr < s.memory.length
  | .write me addr task, s => me = i ∧ addr < s.memory.length ∧ task.id = (s.object addr).id ∧
    (task.id = first.id → (addr, i) ∈ s.touched ∧ Good first task)
  | .updateWithStatus me addr fromStatus, s => me = i ∧ i < crew ∧ addr < s.memory.length ∧
    ((s.object addr).id = first.id → fromStatus.unfinished = true ∧
      (s.object addr).quota = first.quota)
  | .updateQuota me addr, s => me = i ∧ addr < s.memory.length ∧
    ((s.object addr).id = first.id → (first.id, i) ∈ s.billing)
  | .taskAdjustFunding me task _, s | .adjustTokenQuota me task _, s =>
    me = i ∧ (task.id = first.id → (first.id, i) ∈ s.billing)
  | .billed me id, s => me = i ∧ (id = first.id → (first.id, i) ∈ s.billing → Paid first s)
  | .go job, s => ∀ x ∈ job.taskM, Known s x.2
  | .take, s => (first.id, i) ∉ s.billing
  | _, _ => True

def terms (first : Task) (crew : Nat) : Terms PollCall PollState where
  inv := fun s => Sound first crew s ∧ Stored first s
  later := Rely first
  license := License first crew
  guard := Orderly first.id

theorem Rely.refl (i : Nat) (s : PollState) : Rely first i s s where
  tokens := fun _ => rfl
  length := Nat.le_refl _
  ids := fun _ _ => rfl
  touched := fun _ h => h
  own := fun _ _ _ => rfl
  right := Iff.rfl
  mine := fun _ => ⟨rfl, rfl, rfl, fun _ h => h⟩

theorem Rely.trans (h : Rely first i s t) (h' : Rely first i t v) :
    Rely first i s v where
  tokens := fun id => (h'.tokens id).trans (h.tokens id)
  length := Nat.le_trans h.length h'.length
  ids := fun addr hlt => (h'.ids addr (Nat.lt_of_lt_of_le hlt h.length)).trans (h.ids addr hlt)
  touched := List.Subset.trans h.touched h'.touched
  own := fun addr hm hid => by
    have he := h.own addr hm hid
    exact (h'.own addr (h.touched hm) (by rw [he]; exact hid)).trans he
  right := h'.right.trans h.right
  mine := fun hm => by
    obtain ⟨hr, hf, ht, hq⟩ := h.mine hm
    obtain ⟨hr', hf', ht', hq'⟩ := h'.mine (h.right.mpr hm)
    exact ⟨hr'.trans hr, hf'.trans hf, ht'.trans ht, List.Subset.trans hq hq'⟩

/-- The two states say the same about one row. -/
structure Alike (k : Nat) (s t : PollState) : Prop where
  row : t.tasks.find k = s.tasks.find k
  funding : moved k t.funding = moved k s.funding
  moves : moved k t.tokens = moved k s.tokens
  left : t.left.count k = s.left.count k
  billing : ∀ i, (k, i) ∈ t.billing ↔ (k, i) ∈ s.billing
  quotas : s.quotas ⊆ t.quotas
  tokens : ∀ id, (t.accounts.tokens id).isSome = (s.accounts.tokens id).isSome

theorem Alike.same (k : Nat) (htasks : t.tasks = s.tasks) (hfunding : t.funding = s.funding)
    (htokens : t.tokens = s.tokens) (hleft : t.left = s.left) (hbilling : t.billing = s.billing)
    (hquotas : t.quotas = s.quotas) (haccounts : t.accounts = s.accounts) : Alike k s t where
  row := by rw [htasks]
  funding := by rw [hfunding]
  moves := by rw [htokens]
  left := by rw [hleft]
  billing := fun _ => by rw [hbilling]
  quotas := by rw [hquotas]; exact List.Subset.refl _
  tokens := fun _ => by rw [haccounts]

theorem Paid.alike (h : Paid first s) (ha : Alike first.id s t) : Paid first t := by
  have htok : HasToken first t → HasToken first s := fun ⟨h0, h1⟩ => ⟨h0, by rw [← ha.tokens, h1]⟩
  refine ⟨fun r hr hst => ?_, fun r hr hst => ?_⟩ <;> rw [ha.row] at hr
  · obtain ⟨hf, ht, hq⟩ := h.failed r hr hst
    exact ⟨ha.funding.trans hf, fun h => ha.moves.trans (ht (htok h)), hq⟩
  obtain ⟨hf, ht, hq⟩ := h.succeeded r hr hst
  rw [ha.funding, ha.moves]
  exact ⟨hf, fun h => ht (htok h), hq.imp_right fun hm => ha.quotas hm⟩

theorem Sound.alike (h : Sound first crew s) (ha : Alike first.id s t) : Sound first crew t := by
  refine ⟨?_, fun r hr => ?_, fun r hr hu => ?_, fun r hr hf => ?_, fun i hi => ?_⟩
  · rw [ha.row]
    exact h.row
  · rw [ha.row] at hr
    exact h.account r hr
  · rw [ha.row] at hr
    obtain ⟨hq, hl, hm, ht, hc, hb⟩ := h.unfinished r hr hu
    exact ⟨hq, hl, ha.funding.trans hm, ha.moves.trans ht, ha.left.trans hc,
      fun i hi => hb i ((ha.billing i).mp hi)⟩
  · rw [ha.row] at hr
    obtain ⟨hc, hp⟩ := h.final r hr hf
    exact ⟨ha.left.trans hc, fun hb => (hp fun i hi => hb i ((ha.billing i).mpr hi)).alike ha⟩
  · obtain ⟨hlt, hone⟩ := h.biller i ((ha.billing i).mp hi)
    exact ⟨hlt, fun j hj => hone j ((ha.billing j).mp hj)⟩

theorem rely_of_memory (hmem : t.memory = s.memory) (htouched : t.touched = s.touched)
    (htokens : ∀ id, (t.accounts.tokens id).isSome = (s.accounts.tokens id).isSome)
    (hright : (first.id, j) ∈ t.billing ↔ (first.id, j) ∈ s.billing)
    (ha : (first.id, j) ∈ s.billing → Alike first.id s t) : Rely first j s t where
  tokens := htokens
  length := by rw [hmem]
  ids := fun addr _ => by simp only [object, hmem]
  touched := by rw [htouched]; exact List.Subset.refl _
  own := fun addr _ _ => by simp only [object, hmem]
  right := hright
  mine := fun hb => ⟨(ha hb).row, (ha hb).funding, (ha hb).moves, (ha hb).quotas⟩

theorem Rely.of_alike (ha : Alike first.id s t) (hmem : t.memory = s.memory)
    (htouched : t.touched = s.touched) : Rely first j s t :=
  rely_of_memory hmem htouched ha.tokens (ha.billing j) fun _ => ha

theorem Stored.of_same (h : Stored first s) (hmem : t.memory = s.memory)
    (htouched : t.touched = s.touched) (hqueue : t.queue = s.queue) : Stored first t := by
  have hobj : ∀ addr, t.object addr = s.object addr := fun addr => by
    simp only [object, hmem]
  refine ⟨?_, ?_, ?_, ?_⟩
  · rw [hmem]
    exact h.objects
  · rw [htouched]
    intro p hp q hq he hid
    rw [hobj] at hid
    exact h.users p hp q hq he hid
  · rw [htouched, hmem]
    exact h.bounds
  · rw [hqueue]
    exact fun job hj x hx => (h.jobs job hj x hx).of_memory hmem

theorem not_leaving (h : table.find k = s.tasks.find k) : k ∉ s.leaving table := by
  intro hm
  obtain ⟨r, hr, hu, r', hr', hf⟩ := mem_leaving.mp hm
  rw [h, hr] at hr'
  cases hr'
  rw [hu] at hf
  cases hf

theorem alike_of_table (h : table.find k = s.tasks.find k) (me : Nat) :
    Alike k s { s with
      tasks := table, left := s.leaving table ++ s.left
      billing := (s.leaving table).map (fun id => (id, me)) ++ s.billing } where
  row := h
  funding := rfl
  moves := rfl
  left := by simp [count_leaving, not_leaving h]
  billing := fun i => by simp [not_leaving h]
  quotas := fun _ h => h
  tokens := fun _ => rfl

theorem updateWithStatus_other (h : (s.object addr).id ≠ k) (me : Nat) (f : TaskStatus) :
    Alike k s (s.updateWithStatus me addr f).1 := by
  refine alike_of_table (find_update_other (fun _ => by rfl) fun r hr => ?_) me
  have hne : r.id ≠ (s.object addr).id := fun he => h (he.symm.trans (find_id hr))
  simp [hne]

theorem updateWithStatus_missed (hr : s.tasks.find k = some r) (hne : r.status ≠ f)
    (me addr : Nat) : Alike k s (s.updateWithStatus me addr f).1 := by
  refine alike_of_table (find_update_other (fun _ => by rfl) fun r' hr' => ?_) me
  cases hr.symm.trans hr'
  simp [hne]

theorem updateWithStatus_lost (hid : (s.object addr).id = k) (hr : s.tasks.find k = some r)
    (hne : r.status ≠ f) (me : Nat) : (s.updateWithStatus me addr f).2 = false := by
  simp only [updateWithStatus, any_eq_false, Bool.and_eq_true, decide_eq_true_eq, not_and]
  intro x hx he hst
  have hx' := find_of_mem hx
  rw [he, hid, hr] at hx'
  cases hx'
  exact hne hst

theorem updateWithStatus_hit (hid : (s.object addr).id = k) (hr : s.tasks.find k = some r)
    (me : Nat) : (s.updateWithStatus me addr r.status).1.tasks.find k = some (s.object addr) ∧
      (s.updateWithStatus me addr r.status).2 = true := by
  have he : r.id = (s.object addr).id := (find_id hr).trans hid.symm
  constructor
  · refine (find_update_hit (fun _ => by rfl) hr ?_).trans ?_
    · simpa using he
    · rw [he]
  · simp only [updateWithStatus, any_eq_true, Bool.and_eq_true, decide_eq_true_eq]
    exact ⟨r, find_mem hr, he, rfl⟩

theorem updateWithStatus_leaving (hid : (s.object addr).id = k) (hr : s.tasks.find k = some r)
    (hu : r.status.unfinished = true) (me : Nat) :
    k ∈ s.leaving (s.updateWithStatus me addr r.status).1.tasks ↔
      (s.object addr).status.unfinished = false := by
  rw [mem_leaving]
  have hfind := (updateWithStatus_hit hid hr me).1
  constructor
  · rintro ⟨_, _, _, r', hr', hf⟩
    rw [hfind] at hr'
    cases hr'
    exact hf
  · exact fun hf => ⟨r, hr, hu, _, hfind, hf⟩

theorem updateWithStatus_left (me addr : Nat) (f : TaskStatus) :
    (s.updateWithStatus me addr f).1.left =
      s.leaving (s.updateWithStatus me addr f).1.tasks ++ s.left := rfl

theorem updateWithStatus_billing (me addr : Nat) (f : TaskStatus) :
    (s.updateWithStatus me addr f).1.billing =
      (s.leaving (s.updateWithStatus me addr f).1.tasks).map (fun id => (id, me)) ++ s.billing :=
  rfl

theorem object_of_lt (h : addr < s.memory.length) : s.object addr ∈ s.memory := by
  rw [object, getD_eq_getElem?_getD, List.getElem?_eq_getElem h]
  exact getElem_mem h

theorem Sound.updateWithStatus (h : Sound first crew s) (hs : Stored first s) (hi : i < crew)
    (hlt : addr < s.memory.length)
    (hmine : (s.object addr).id = first.id →
      f.unfinished = true ∧ (s.object addr).quota = first.quota) :
    Sound first crew (s.updateWithStatus i addr f).1 := by
  by_cases hid : (s.object addr).id = first.id
  swap
  · exact h.alike (updateWithStatus_other hid i f)
  obtain ⟨r, hr⟩ := h.row
  by_cases hst : r.status = f
  swap
  · exact h.alike (updateWithStatus_missed hr hst i addr)
  subst hst
  obtain ⟨hu, hq⟩ := hmine hid
  obtain ⟨hfind, _⟩ := updateWithStatus_hit hid hr i
  have hleave := updateWithStatus_leaving hid hr hu i
  obtain ⟨hacc, hleg, _⟩ := hs.objects _ (object_of_lt hlt) hid
  obtain ⟨_, _, hm, ht, hc, hb⟩ := h.unfinished r hr hu
  have hbill : ∀ j, (first.id, j) ∈ (s.updateWithStatus i addr r.status).1.billing →
      j = i ∧ (s.object addr).status.unfinished = false := by
    intro j hj
    rw [updateWithStatus_billing, mem_append] at hj
    rcases hj with hj | hj
    · obtain ⟨x, hx, he⟩ := mem_map.mp hj
      cases he
      exact ⟨rfl, hleave.mp hx⟩
    · exact absurd hj (hb j)
  refine ⟨⟨_, hfind⟩, fun r' hr' => ?_, fun r' hr' hu' => ?_, fun r' hr' hf' => ?_, fun j hj => ?_⟩
  · rw [hfind] at hr'
    cases hr'
    exact hacc
  · rw [hfind] at hr'
    cases hr'
    have hnot : first.id ∉ s.leaving (s.updateWithStatus i addr r.status).1.tasks :=
      fun hl => by rw [hleave.mp hl] at hu'; cases hu'
    refine ⟨hq, hleg, hm, ht, ?_, fun j hj => ?_⟩
    · rw [updateWithStatus_left, count_append, count_leaving, if_neg hnot, hc]
    · rw [(hbill j hj).2] at hu'
      cases hu'
  · rw [hfind] at hr'
    cases hr'
    have hl := hleave.mpr hf'
    refine ⟨?_, fun hnone => ?_⟩
    · rw [updateWithStatus_left, count_append, count_leaving, if_pos hl, hc]
    · refine absurd ?_ (hnone i)
      exact mem_append_left _ (mem_map.mpr ⟨_, hl, rfl⟩)
  · obtain ⟨rfl, _⟩ := hbill j hj
    exact ⟨hi, fun j' hj' => (hbill j' hj').1.symm⟩

theorem Sound.billed_final (h : Sound first crew s) (hb : (first.id, j) ∈ s.billing)
    (hr : s.tasks.find first.id = some r) : r.status.unfinished = false := by
  by_contra hne
  have hu : r.status.unfinished = true := by simpa using hne
  exact (h.unfinished r hr hu).2.2.2.2.2 j hb

theorem right_of_table (hne : j ≠ me) :
    (k, j) ∈ (s.leaving table).map (fun id => (id, me)) ++ s.billing ↔ (k, j) ∈ s.billing := by
  rw [mem_append]
  refine ⟨fun h => h.elim (fun h => ?_) fun h => h, .inr⟩
  obtain ⟨x, _, he⟩ := mem_map.mp h
  cases he
  exact absurd rfl hne

theorem rely_updateWithStatus (h : Sound first crew s) (hne : j ≠ i)
    (hmine : (s.object addr).id = first.id → f.unfinished = true) :
    Rely first j s (s.updateWithStatus i addr f).1 := by
  refine rely_of_memory rfl rfl (fun _ => rfl) (right_of_table hne) fun hb => ?_
  by_cases hid : (s.object addr).id = first.id
  · obtain ⟨r, hr⟩ := h.row
    refine updateWithStatus_missed hr (fun he => ?_) i addr
    have hfin := h.billed_final hb hr
    rw [he, hmine hid] at hfin
    cases hfin
  · exact updateWithStatus_other hid i f

theorem bulk_left (ids : List Nat) (reason : Option String) :
    (s.taskBulkUpdateByID ids reason).left =
      s.leaving (s.taskBulkUpdateByID ids reason).tasks ++ s.left := rfl

theorem bulk_other (h : k ∉ ids) (reason : Option String) :
    Alike k s (s.taskBulkUpdateByID ids reason) := by
  have hfind : (s.taskBulkUpdateByID ids reason).tasks.find k = s.tasks.find k :=
    find_update_other (fun _ => by rfl) fun r hr => by simpa [find_id hr] using h
  refine ⟨hfind, rfl, rfl, ?_, fun _ => Iff.rfl, fun _ h => h, fun _ => rfl⟩
  rw [bulk_left, count_append, count_leaving, if_neg (not_leaving hfind), Nat.zero_add]

theorem Sound.bulk (h : Sound first crew s) (reason : Option String)
    (hg : Orderly first.id (.taskBulkUpdateByID ids reason) s) :
    Sound first crew (s.taskBulkUpdateByID ids reason) := by
  by_cases hin : first.id ∈ ids
  swap
  · exact h.alike (bulk_other hin reason)
  obtain ⟨r, hr⟩ := h.row
  obtain ⟨hu, hq⟩ := hg hin r (find_mem hr) (find_id hr)
  obtain ⟨hfirst, _, hm, ht, hc, hb⟩ := h.unfinished r hr hu
  have hzero : first.quota = 0 := by rw [← hfirst, hq]
  have hfind : (s.taskBulkUpdateByID ids reason).tasks.find first.id = some { r with
      status := .failure, progress := "100%", failReason := reason.getD r.failReason } :=
    find_update_hit (fun _ => by rfl) hr (by simpa [find_id hr] using hin)
  have hleave : first.id ∈ s.leaving (s.taskBulkUpdateByID ids reason).tasks :=
    mem_leaving.mpr ⟨r, hr, hu, _, hfind, rfl⟩
  refine ⟨⟨_, hfind⟩, fun r' hr' => ?_, fun r' hr' hu' => ?_, fun r' hr' _ => ⟨?_, fun _ => ?_⟩,
    h.biller⟩
  · rw [hfind] at hr'
    cases hr'
    exact h.account r hr
  · rw [hfind] at hr'
    cases hr'
    cases hu'
  · rw [bulk_left, count_append, count_leaving, if_pos hleave, hc]
  refine ⟨fun r' hr' _ => ?_, fun r' hr' hst => ?_⟩
  · rw [hfind] at hr'
    cases hr'
    rw [hzero]
    exact ⟨hm, fun _ => ht, hq⟩
  · rw [hfind] at hr'
    cases hr'
    cases hst

theorem rely_bulk (h : Sound first crew s) (reason : Option String)
    (hg : Orderly first.id (.taskBulkUpdateByID ids reason) s) :
    Rely first j s (s.taskBulkUpdateByID ids reason) := by
  refine rely_of_memory rfl rfl (fun _ => rfl) Iff.rfl fun hb => bulk_other (fun hin => ?_) reason
  obtain ⟨r, hr⟩ := h.row
  have hu := (hg hin r (find_mem hr) (find_id hr)).1
  rw [h.billed_final hb hr] at hu
  cases hu

theorem updateQuota_other (h : (s.object addr).id ≠ k) : Alike k s (s.updateQuota addr) := by
  refine ⟨find_update_other (fun _ => by rfl) fun r hr => ?_, rfl, rfl, rfl, fun _ => Iff.rfl,
    subset_cons_self _ _, fun _ => rfl⟩
  have hne : r.id ≠ (s.object addr).id := fun he => h (he.symm.trans (find_id hr))
  simp [hne]

theorem updateQuota_mine (hid : (s.object addr).id = k) (hr : s.tasks.find k = some r) :
    (s.updateQuota addr).tasks.find k = some { r with quota := (s.object addr).quota } :=
  find_update_hit (fun _ => by rfl) hr (by simp [(find_id hr).trans hid.symm])

/-- A statement that moves amounts of one task, at most, and leaves the rest alone. -/
structure Adjusts (task : Task) (s t : PollState) : Prop where
  same : ∃ accounts funding tokens, t = { s with accounts, funding, tokens }
  moved : ∀ k, task.id ≠ k → moved k t.funding = moved k s.funding ∧
    PollingSpec.moved k t.tokens = PollingSpec.moved k s.tokens
  tokens : ∀ id, (t.accounts.tokens id).isSome = (s.accounts.tokens id).isSome

theorem adjusts_funding (task : Task) (delta : Int) :
    Adjusts task s (s.taskAdjustFunding task delta).1 ∧
      (s.taskAdjustFunding task delta).1.tokens = s.tokens := by
  have hsub : ∀ a b, postConsumeUserSubscriptionDelta a delta s.accounts = .ok b →
      b.tokens = s.accounts.tokens := by
    intro a b he
    simp only [postConsumeUserSubscriptionDelta, postConsumeUserSubscriptionDeltaTx] at he
    repeat' split at he
    all_goals cases he
    all_goals rfl
  have huser : ∀ a x, (updateUser a x s.accounts).tokens = s.accounts.tokens := by
    intro a x
    unfold updateUser
    split <;> rfl
  simp only [taskAdjustFunding]
  split
  · exact ⟨⟨⟨_, _, _, rfl⟩, fun _ _ => ⟨rfl, rfl⟩, fun _ => rfl⟩, rfl⟩
  rename_i accounts he
  refine ⟨⟨⟨_, _, _, rfl⟩, fun _ h => ⟨moved_other h _ _, rfl⟩, fun id => ?_⟩, rfl⟩
  split at he
  · rw [hsub _ _ he]
  simp only [decreaseUserQuota, increaseUserQuota] at he
  repeat' split at he
  all_goals cases he
  all_goals rw [huser]

theorem adjustTokenQuota_eq (task : Task) (delta : Int) :
    let accounts := updateToken task.privateData.tokenId (-delta) s.accounts
    s.adjustTokenQuota task delta = { s with
      accounts
      tokens := (task.id, takenToken accounts task - takenToken s.accounts task) :: s.tokens } := by
  simp only [adjustTokenQuota, decreaseTokenQuota, increaseTokenQuota]
  by_cases hd : delta > 0
  · rw [if_pos hd, if_neg (by omega)]
  · rw [if_neg hd, if_neg (by omega)]

theorem adjusts_token (task : Task) (delta : Int) :
    Adjusts task s (s.adjustTokenQuota task delta) ∧
      (s.adjustTokenQuota task delta).funding = s.funding := by
  rw [adjustTokenQuota_eq]
  exact ⟨⟨⟨_, _, _, rfl⟩, fun _ h => ⟨rfl, moved_other h _ _⟩,
    fun id => updateToken_isSome _ _ _ id⟩, rfl⟩

theorem adjustTokenQuota_tokens
    (h : (s.accounts.tokens task.privateData.tokenId).isSome = true) (delta : Int) :
    (s.adjustTokenQuota task delta).tokens = (task.id, delta) :: s.tokens := by
  obtain ⟨token, he⟩ := Option.isSome_iff_exists.mp h
  have hdelta : takenToken (updateToken task.privateData.tokenId (-delta) s.accounts) task -
      takenToken s.accounts task = delta := by
    simp only [takenToken, updateToken, he, Store.setToken, Function.update_self, Option.map_some,
      Option.getD_some]
    omega
  rw [adjustTokenQuota_eq]
  dsimp only
  rw [hdelta]

theorem Adjusts.other (h : Adjusts task s t) (hne : task.id ≠ k) : Alike k s t := by
  obtain ⟨⟨_, _, _, rfl⟩, hmoved, htokens⟩ := h
  exact ⟨rfl, (hmoved k hne).1, (hmoved k hne).2, rfl, fun _ => Iff.rfl, List.Subset.refl _,
    htokens⟩

theorem taken_updateUser (h : (s.accounts.users task.userId).isSome = true)
    (hsub : taskIsSubscription task = false) (d : Int) :
    taken (updateUser task.userId d s.accounts) task - taken s.accounts task =
      -d := by
  obtain ⟨u, hu⟩ := Option.isSome_iff_exists.mp h
  simp only [taken, hsub, Bool.false_eq_true, if_false, getUserQuota, updateUser, hu,
    Store.setUser, Function.update_self]
  omega

theorem taskAdjustFunding_wallet (h : (s.accounts.users task.userId).isSome = true)
    (hsub : taskIsSubscription task = false) (delta : Int) :
    (s.taskAdjustFunding task delta).2 = true ∧
      (s.taskAdjustFunding task delta).1.funding = (task.id, delta) :: s.funding := by
  simp only [taskAdjustFunding, hsub, Bool.false_eq_true, if_false, decreaseUserQuota,
    increaseUserQuota]
  by_cases hd : delta > 0
  · rw [if_pos hd, if_neg (by omega)]
    simp only [taken_updateUser h hsub, Int.neg_neg, and_self]
  · rw [if_neg hd, if_neg (by omega)]
    simp only [taken_updateUser h hsub, Int.neg_neg, and_self]

theorem taskAdjustFunding_subscription (hsub : taskIsSubscription task = true)
    (h : s.accounts.subscriptions task.privateData.subscriptionId = some sub)
    (hid : sub.id = task.privateData.subscriptionId) (hpos : 0 ≤ sub.amountUsed + delta)
    (htotal : 0 ≤ delta ∨ sub.amountTotal ≤ 0 ∨ sub.amountUsed + delta ≤ sub.amountTotal) :
    ((s.taskAdjustFunding task delta).2 = true ∧
      (s.taskAdjustFunding task delta).1.funding = (task.id, delta) :: s.funding) ∨
      0 < delta ∧ s.taskAdjustFunding task delta = (s, false) := by
  have hgt : ¬ task.privateData.subscriptionId ≤ 0 := by
    simp only [taskIsSubscription, Bool.and_eq_true, decide_eq_true_eq] at hsub
    omega
  simp only [taskAdjustFunding, hsub, if_true, postConsumeUserSubscriptionDelta,
    if_neg hgt]
  by_cases hzero : delta = 0
  · subst hzero
    exact .inl ⟨rfl, by simp⟩
  rw [if_neg hzero]
  simp only [postConsumeUserSubscriptionDeltaTx, h, if_neg (Int.not_lt.mpr hpos)]
  by_cases hover : sub.amountTotal > 0 ∧ sub.amountUsed + delta > sub.amountTotal
  · rw [if_pos hover]
    exact .inr ⟨by omega, rfl⟩
  rw [if_neg hover]
  refine .inl ⟨rfl, ?_⟩
  simp only [taken, hsub, if_true, h, Store.saveSubscription, hid,
    Function.update_self, Option.map_some, Option.getD_some]
  rw [Int.add_comm, Int.add_sub_cancel]

theorem taskAdjustFunding_moves (h : chargeable s.accounts task delta = true) :
    ((s.taskAdjustFunding task delta).2 = true ∧
      (s.taskAdjustFunding task delta).1.funding = (task.id, delta) :: s.funding) ∨
      0 < delta ∧ s.taskAdjustFunding task delta = (s, false) := by
  unfold chargeable at h
  cases hsub : taskIsSubscription task with
  | false =>
    rw [hsub, if_neg (by simp)] at h
    exact .inl (taskAdjustFunding_wallet h hsub delta)
  | true =>
    rw [hsub, if_pos rfl] at h
    obtain ⟨sub, hfound, hok⟩ := (Option.any_eq_true _ _).mp h
    simp only [Bool.and_eq_true, Bool.or_eq_true, decide_eq_true_eq] at hok
    exact taskAdjustFunding_subscription hsub hfound hok.1.1 hok.1.2
      (hok.2.elim (fun h => h.elim .inl fun h => .inr (.inl h)) fun h => .inr (.inr h))

/-- The process bills the watched row, and nobody else does meanwhile, or the row is another one. -/
theorem keeps_of_bill (hs : Sound first crew s) (hm : Stored first s)
    (hb : mine → (first.id, i) ∈ s.billing)
    (hrow : mine → ∀ r, s.tasks.find first.id = some r → ∃ r', t.tasks.find first.id = some r' ∧
      r'.status = r.status ∧ (SameAccount first r → SameAccount first r'))
    (hother : ¬ mine → Alike first.id s t)
    (hsame : t.memory = s.memory ∧ t.touched = s.touched ∧ t.queue = s.queue ∧ t.left = s.left ∧
      t.billing = s.billing)
    (htokens : ∀ id, (t.accounts.tokens id).isSome = (s.accounts.tokens id).isSome) :
    (Sound first crew t ∧ Stored first t) ∧ ∀ j, j ≠ i → Rely first j s t := by
  obtain ⟨hmem, htouched, hqueue, hleft, hbilling⟩ := hsame
  have hstored := hm.of_same hmem htouched hqueue
  by_cases hc : mine
  swap
  · exact ⟨⟨hs.alike (hother hc), hstored⟩, fun j _ => .of_alike (hother hc) hmem htouched⟩
  obtain ⟨r, hr⟩ := hs.row
  obtain ⟨r', hr', hst, hacc⟩ := hrow hc r hr
  have hfin : r.status.unfinished = false := hs.billed_final (hb hc) hr
  refine ⟨⟨⟨⟨r', hr'⟩, fun x hx => ?_, fun x hx hu => ?_, fun x hx _ => ⟨?_, fun hnone => ?_⟩, ?_⟩,
    hstored⟩, fun j hne => rely_of_memory hmem htouched htokens (by rw [hbilling])
      fun hj => absurd ((hs.biller j hj).2 i (hb hc)) hne⟩
  · rw [hr'] at hx
    cases hx
    exact hacc (hs.account r hr)
  · rw [hr'] at hx
    cases hx
    rw [hst, hfin] at hu
    cases hu
  · rw [hleft]
    exact (hs.final r hr hfin).1
  · rw [hbilling] at hnone
    exact absurd (hb hc) (hnone i)
  · rw [hbilling]
    exact hs.biller

theorem Adjusts.known (h : Adjusts task s t) (hk : Known s ref) : Known t ref := by
  obtain ⟨_, _, _, rfl⟩ := h.same
  exact hk

theorem Adjusts.keeps (h : Adjusts task s t) (hs : Sound first crew s) (hm : Stored first s)
    (hb : task.id = first.id → (first.id, i) ∈ s.billing) :
    (Sound first crew t ∧ Stored first t) ∧ ∀ j, j ≠ i → Rely first j s t := by
  have hother := fun hid => h.other (k := first.id) hid
  have htokens := h.tokens
  obtain ⟨_, _, _, rfl⟩ := h.same
  exact keeps_of_bill hs hm hb (fun _ r hr => ⟨r, hr, rfl, id⟩) hother ⟨rfl, rfl, rfl, rfl, rfl⟩
    htokens

theorem billed_other (h : row ≠ k) (me : Nat) :
    Alike k s { s with billing := s.billing.filter (· ≠ (row, me)) } := by
  refine ⟨rfl, rfl, rfl, rfl, fun i => ?_, fun _ h => h, fun _ => rfl⟩
  simp only [mem_filter, decide_eq_true_eq]
  exact ⟨fun hm => hm.1, fun hm => ⟨hm, fun he => h (congrArg Prod.fst he).symm⟩⟩

theorem Sound.billed (h : Sound first crew s) (hp : (first.id, i) ∈ s.billing → Paid first s) :
    Sound first crew { s with billing := s.billing.filter (· ≠ (first.id, i)) } := by
  refine ⟨h.row, h.account, fun r hr hu => ?_,
    fun r hr hf => ⟨(h.final r hr hf).1, fun hnone => ?_⟩, fun j hj => ?_⟩
  · obtain ⟨hq, hl, hm, ht, hc, hb⟩ := h.unfinished r hr hu
    exact ⟨hq, hl, hm, ht, hc, fun j hj => hb j (mem_filter.mp hj).1⟩
  · have hpaid : Paid first s := by
      by_cases hb : (first.id, i) ∈ s.billing
      · exact hp hb
      refine (h.final r hr hf).2 fun j hj => hnone j ?_
      refine mem_filter.mpr ⟨hj, ?_⟩
      simp only [decide_eq_true_eq, ne_eq]
      rintro he
      cases he
      exact hb hj
    exact ⟨hpaid.failed, hpaid.succeeded⟩
  · obtain ⟨hlt, hone⟩ := h.biller j (mem_filter.mp hj).1
    exact ⟨hlt, fun j' hj' => hone j' (mem_filter.mp hj').1⟩

theorem rely_billed (hne : j ≠ i) :
    Rely first j s { s with billing := s.billing.filter (· ≠ (k, i)) } where
  tokens := fun _ => rfl
  length := Nat.le_refl _
  ids := fun _ _ => rfl
  touched := fun _ h => h
  own := fun _ _ _ => rfl
  right := by
    simp only [mem_filter, decide_eq_true_eq]
    exact ⟨fun hm => hm.1, fun hm => ⟨hm, fun he => hne (congrArg Prod.snd he)⟩⟩
  mine := fun _ => ⟨rfl, rfl, rfl, fun _ h => h⟩

theorem Known.rely (h : Known s ref) (hr : Rely first i s t) : Known t ref :=
  ⟨Nat.lt_of_lt_of_le h.1 hr.length, (hr.ids _ h.1).trans h.2⟩

theorem object_load (rows : List Task) (h : addr < s.memory.length) :
    (s.load rows).1.object addr = s.object addr := by
  simp only [load, object, getD_eq_getElem?_getD]
  rw [getElem?_append_left h]

theorem length_load (rows : List Task) :
    (s.load rows).1.memory.length = s.memory.length + rows.length := length_append

theorem Known.load (h : Known s ref) (rows : List Task) : Known (s.load rows).1 ref :=
  ⟨by rw [length_load]; exact Nat.lt_add_right _ h.1, by rw [object_load rows h.1]; exact h.2⟩

theorem known_loaded (rows : List Task) (hx : x ∈ (s.load rows).2) :
    Known (s.load rows).1 x.1 ∧ (s.load rows).1.object x.1.addr = x.2 ∧ x.2 ∈ rows := by
  obtain ⟨⟨task, n⟩, hmem, rfl⟩ := mem_map.mp hx
  have hget : rows[n]? = some task := by simpa using mem_zipIdx_iff_getElem?.mp hmem
  obtain ⟨hlt, _⟩ := List.getElem?_eq_some_iff.mp hget
  have hobj : (s.load rows).1.object (s.memory.length + n) = task := by
    simp only [load, object, getD_eq_getElem?_getD]
    rw [getElem?_append_right (Nat.le_add_right _ _), Nat.add_sub_cancel_left, hget]
    rfl
  exact ⟨⟨by rw [length_load]; exact Nat.add_lt_add_left hlt _, by rw [hobj]⟩, hobj,
    mem_of_getElem? hget⟩

theorem Stored.load (h : Stored first s) (hs : Sound first crew s)
    (hrows : ∀ r ∈ rows, r ∈ s.tasks.rows ∧ r.status.unfinished = true) :
    Stored first (s.load rows).1 := by
  refine ⟨fun o ho hid => ?_, fun p hp q hq he hid => ?_, fun p hp => ?_, fun job hj x hx => ?_⟩
  · rcases mem_append.mp ho with ho | ho
    · exact h.objects o ho hid
    · obtain ⟨hmem, hu⟩ := hrows o ho
      have hfind := find_of_mem hmem
      rw [hid] at hfind
      obtain ⟨hq, hl, _⟩ := hs.unfinished o hfind hu
      exact ⟨hs.account o hfind, hl, fun _ => hq⟩
  · rw [object_load rows (h.bounds p hp)] at hid
    exact h.users p hp q hq he hid
  · rw [length_load]
    exact Nat.lt_add_right _ (h.bounds p hp)
  · exact (h.jobs job hj x hx).load rows

theorem rely_load (h : Stored first s) (rows : List Task) : Rely first j s (s.load rows).1 where
  tokens := fun _ => rfl
  length := by rw [length_load]; exact Nat.le_add_right _ _
  ids := fun addr hlt => by rw [object_load rows hlt]
  touched := fun _ h => h
  own := fun addr hm _ => object_load rows (h.bounds _ hm)
  right := Iff.rfl
  mine := fun _ => ⟨rfl, rfl, rfl, fun _ h => h⟩

theorem Stored.touch (h : Stored first s) (hlt : addr < s.memory.length)
    (hone : (s.object addr).id = first.id → ∀ p ∈ s.touched, p.1 = addr → p.2 = i) :
    Stored first { s with touched := (addr, i) :: s.touched } := by
  refine ⟨h.objects, fun p hp q hq he hid => ?_, fun p hp => ?_, h.jobs⟩
  · rcases mem_cons.mp hp with rfl | hp <;> rcases mem_cons.mp hq with rfl | hq
    · rfl
    · exact (hone hid q hq he.symm).symm
    · exact hone (by rw [← show p.1 = addr from he]; exact hid) p hp he
    · exact h.users p hp q hq he hid
  · rcases mem_cons.mp hp with rfl | hp
    · exact hlt
    · exact h.bounds p hp

theorem rely_touch : Rely first j s { s with touched := (addr, i) :: s.touched } where
  tokens := fun _ => rfl
  length := Nat.le_refl _
  ids := fun _ _ => rfl
  touched := subset_cons_self _ _
  own := fun _ _ _ => rfl
  right := Iff.rfl
  mine := fun _ => ⟨rfl, rfl, rfl, fun _ h => h⟩

theorem object_set_self (h : addr < s.memory.length) (ht : t.memory = s.memory.set addr task) :
    t.object addr = task := by
  simp [object, ht, h]

theorem object_set_ne (h : addr ≠ a) (ht : t.memory = s.memory.set addr task) :
    t.object a = s.object a := by
  simp [object, ht, h]

theorem id_set (hid : task.id = (s.object addr).id) (hlt : addr < s.memory.length)
    (ht : t.memory = s.memory.set addr task) (a : Nat) : (t.object a).id = (s.object a).id := by
  by_cases he : addr = a
  · subst he
    rw [object_set_self hlt ht, hid]
  · rw [object_set_ne he ht]

theorem Stored.write (h : Stored first s) (hlt : addr < s.memory.length)
    (hid : task.id = (s.object addr).id) (hgood : task.id = first.id → Good first task)
    (ht : t.memory = s.memory.set addr task) (htouched : t.touched = s.touched)
    (hqueue : t.queue = s.queue) : Stored first t := by
  have hlen : t.memory.length = s.memory.length := by rw [ht, length_set]
  refine ⟨fun o ho hf => ?_, fun p hp q hq he hf => ?_, fun p hp => ?_, fun job hj x hx => ?_⟩
  · rw [ht] at ho
    rcases mem_or_eq_of_mem_set ho with ho | rfl
    · exact h.objects o ho hf
    · exact hgood hf
  · rw [htouched] at hp hq
    rw [id_set hid hlt ht] at hf
    exact h.users p hp q hq he hf
  · rw [htouched] at hp
    rw [hlen]
    exact h.bounds p hp
  · rw [hqueue] at hj
    obtain ⟨hxl, hxi⟩ := h.jobs job hj x hx
    exact ⟨by rw [hlen]; exact hxl, by rw [id_set hid hlt ht]; exact hxi⟩

theorem rely_write (h : Stored first s) (hlt : addr < s.memory.length) (hne : j ≠ i)
    (hid : task.id = (s.object addr).id) (hown : task.id = first.id → (addr, i) ∈ s.touched)
    (ht : t.memory = s.memory.set addr task) (htouched : t.touched = s.touched)
    (hsame : Alike first.id s t) : Rely first j s t where
  tokens := hsame.tokens
  length := by rw [ht, length_set]
  ids := fun a _ => id_set hid hlt ht a
  touched := by rw [htouched]; exact List.Subset.refl _
  own := fun a ha hf => by
    -- the one object that changes is used by `i`
    refine object_set_ne (fun he => ?_) ht
    subst he
    exact hne (h.users _ ha _ (hown (hid.trans hf)) rfl hf)
  right := hsame.billing j
  mine := fun _ => ⟨hsame.row, hsame.funding, hsame.moves, hsame.quotas⟩

/-- The calls that only work on memory and jobs. -/
def aside : PollCall → Bool
  | .checkContext | .getTimedOutUnfinishedTasks .. | .getAllUnFinishSyncTasks _ | .read ..
  | .snapshot .. | .write .. | .getTokenById _ | .fetchTask .. | .go _ | .take | .finish _
  | .wait _ => true
  | _ => false

theorem aside_alike (c : PollCall) (h : aside c = true) (k : Nat) : Alike k s (c.exec s).1 := by
  cases c with
  | updateWithStatus | updateQuota | taskBulkUpdateByID | taskAdjustFunding | adjustTokenQuota
  | billed => cases h
  | take =>
    simp only [PollCall.exec]
    split <;> exact .same _ rfl rfl rfl rfl rfl rfl rfl
  | _ => exact .same _ rfl rfl rfl rfl rfl rfl rfl

theorem exec_keeps (hs : Sound first crew s) (hm : Stored first s) (c : PollCall)
    (hc : License first crew i c s) (hg : Orderly first.id c s) :
    (Sound first crew (c.exec s).1 ∧ Stored first (c.exec s).1) ∧
      ∀ j, j ≠ i → Rely first j s (c.exec s).1 := by
  cases c with
  | checkContext | getTokenById | wait => exact ⟨⟨hs, hm⟩, fun j _ => .refl j s⟩
  | getTimedOutUnfinishedTasks =>
    refine ⟨⟨hs.alike (aside_alike _ rfl _), hm.load hs fun r hr => ?_⟩, fun j _ => rely_load hm _⟩
    have hr' := (perm_insertionSort _ _).mem_iff.mp (mem_of_mem_take hr)
    simp only [mem_filter, Bool.and_eq_true] at hr'
    exact ⟨hr'.1, hr'.2.1.2⟩
  | getAllUnFinishSyncTasks =>
    refine ⟨⟨hs.alike (aside_alike _ rfl _), hm.load hs fun r hr => ?_⟩, fun j _ => rely_load hm _⟩
    have hr' := (perm_insertionSort _ _).mem_iff.mp (mem_of_mem_take hr)
    simp only [mem_filter, Bool.and_eq_true] at hr'
    exact ⟨hr'.1, hr'.2.2⟩
  | read =>
    obtain ⟨rfl, hlt⟩ := hc
    exact ⟨⟨hs.alike (aside_alike _ rfl _), hm.touch hlt hg⟩, fun j _ => rely_touch⟩
  | snapshot =>
    obtain ⟨rfl, hlt⟩ := hc
    exact ⟨⟨hs.alike (aside_alike _ rfl _), hm.touch hlt fun hid => (hg hid).2⟩,
      fun j _ => rely_touch⟩
  | write =>
    obtain ⟨rfl, hlt, hid, hown⟩ := hc
    exact ⟨⟨hs.alike (aside_alike _ rfl _), hm.write hlt hid (fun hf => (hown hf).2) rfl rfl rfl⟩,
      fun j hne => rely_write hm hlt hne hid (fun hf => (hown hf).1) rfl rfl (aside_alike _ rfl _)⟩
  | updateWithStatus =>
    obtain ⟨rfl, hlt, hmem, hmine⟩ := hc
    exact ⟨⟨hs.updateWithStatus hm hlt hmem hmine, hm.of_same rfl rfl rfl⟩,
      fun j hne => rely_updateWithStatus hs hne fun hid => (hmine hid).1⟩
  | updateQuota =>
    obtain ⟨rfl, hlt, hmine⟩ := hc
    exact keeps_of_bill hs hm hmine (fun hid r hr => ⟨_, updateQuota_mine hid hr, rfl, id⟩)
      updateQuota_other ⟨rfl, rfl, rfl, rfl, rfl⟩ fun _ => rfl
  | taskBulkUpdateByID ids reason =>
    exact ⟨⟨hs.bulk reason hg, hm.of_same rfl rfl rfl⟩, fun j _ => rely_bulk hs reason hg⟩
  | taskAdjustFunding me task delta =>
    obtain ⟨rfl, hmine⟩ := hc
    exact (adjusts_funding task delta).1.keeps hs hm hmine
  | adjustTokenQuota me task delta =>
    obtain ⟨rfl, hmine⟩ := hc
    exact (adjusts_token task delta).1.keeps hs hm hmine
  | billed me row =>
    obtain ⟨rfl, hpaid⟩ := hc
    refine ⟨⟨?_, hm.of_same rfl rfl rfl⟩, fun j hne => rely_billed hne⟩
    by_cases hid : row = first.id
    · subst hid
      exact hs.billed (hpaid rfl)
    · exact hs.alike (billed_other hid me)
  | fetchTask | finish =>
    exact ⟨⟨hs.alike (aside_alike _ rfl _), hm.of_same rfl rfl rfl⟩,
      fun j _ => .of_alike (aside_alike _ rfl _) rfl rfl⟩
  | go =>
    refine ⟨⟨hs.alike (aside_alike _ rfl _), hm.objects, hm.users, hm.bounds,
      fun job' hj x hx => ?_⟩, fun j _ => .of_alike (aside_alike _ rfl _) rfl rfl⟩
    rcases mem_append.mp hj with hj | hj
    · exact hm.jobs job' hj x hx
    · rw [mem_singleton.mp hj] at hx
      exact hc x hx
  | take =>
    simp only [PollCall.exec]
    split
    · exact ⟨⟨hs, hm⟩, fun j _ => .refl j s⟩
    rename_i job queue hq
    have ha : Alike first.id s { s with queue, running := job :: s.running } :=
      .same _ rfl rfl rfl rfl rfl rfl rfl
    refine ⟨⟨hs.alike ha, hm.objects, hm.users, hm.bounds, fun job' hj x hx => ?_⟩,
      fun j _ => .of_alike ha rfl rfl⟩
    exact hm.jobs job' (by rw [hq]; exact mem_cons_of_mem _ hj) x hx

theorem lawful (first : Task) (crew : Nat) : Lawful pollMachine (terms first crew) where
  refl := Rely.refl
  trans := fun _ _ _ _ => Rely.trans
  step := fun _ c _ hinv hc hg _ => exec_keeps hinv.1 hinv.2 c hc hg

end Ren2Hub.Proofs.PollingSpec
