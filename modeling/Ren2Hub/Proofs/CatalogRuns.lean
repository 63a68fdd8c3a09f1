import Ren2Hub.Lib.Inputs
import Ren2Hub.Pricing.Catalog

namespace Ren2Hub.Proofs.CatalogRuns
open Lib Pricing PriceWorld List

variable {α : Type} {c : Catalog α} {model key : String}

/-- A name with a pattern of a family in it has this family or one before it. -/
theorem familyOf_le (hi : claudeFamilies[i]? = some f) (hp : p ∈ f.patterns)
    (h : within p name = true) : familyOf name ≤ i := by
  by_contra hlt
  obtain ⟨hlen, rfl⟩ := List.getElem?_eq_some_iff.mp hi
  have hnot := not_of_lt_findIdx (Nat.lt_of_not_le hlt)
  rw [any_eq_false] at hnot
  exact hnot p hp h

theorem exists_pattern (hf : claudeFamilies[familyOf name]? = some f) :
    ∃ p ∈ f.patterns, within p name = true := by
  obtain ⟨hlt, rfl⟩ := List.getElem?_eq_some_iff.mp hf
  exact any_eq_true.mp (findIdx_getElem (w := hlt))

/-- A pattern is in its own family; a price list adds at most one, of a family further down. -/
theorem family_table : ∀ i (f : ModelFamily), claudeFamilies[i]? = some f →
    (∀ p ∈ f.patterns, familyOf p = i) ∧
      (f.pricing = none ∨ ∃ q ∈ f.lookups, f.pricing = some (f.patterns ++ [q]) ∧
        i < familyOf q) := by
  have htable : ∀ i : Fin claudeFamilies.length, (∀ p ∈ (claudeFamilies.get i).patterns,
      familyOf p = i) ∧ ((claudeFamilies.get i).pricing = none ∨
        ∃ q ∈ (claudeFamilies.get i).lookups, (claudeFamilies.get i).pricing =
          some ((claudeFamilies.get i).patterns ++ [q]) ∧ i < familyOf q) := by
    decide +kernel
  intro i f hf
  obtain ⟨hlt, rfl⟩ := List.getElem?_eq_some_iff.mp hf
  exact htable ⟨i, hlt⟩

/-- The key is of the model's family, or that family has no key and it is one of the price list. -/
def RightFamily (c : Catalog α) (model key : String) : Prop :=
  familyOf key = familyOf model ∨ (∀ k ∈ c.sortedKeys, familyOf k ≠ familyOf model) ∧
    ∃ f, claudeFamilies[familyOf model]? = some f ∧
      ∃ q ∈ f.pricing.getD [], familyOf key = familyOf q

/-- The first pattern of the price list that occurs in a key. -/
def pricePattern (c : Catalog α) (model : String) : Option String :=
  claudeFamilies[familyOf model]?.bind fun f =>
    f.lookups.find? fun p => c.sortedKeys.any (within p)

theorem findByKey_none (h : c.findByKeyPrefixOrSubstring p = none) :
    ∀ k ∈ c.sortedKeys, within p k = false := by
  intro k hk
  obtain ⟨x, hx, rfl⟩ := mem_map.mp hk
  simpa using find?_eq_none.mp h x hx

theorem findByKey_some (h : c.findByKeyPrefixOrSubstring p = some (key, e)) :
    key ∈ c.sortedKeys ∧ within p key = true :=
  ⟨mem_map.mpr ⟨_, mem_of_find?_eq_some h, rfl⟩, by simpa using find?_some h⟩

theorem findByKey_first (h : c.findByKeyPrefixOrSubstring p = some (key, e)) :
    ∀ k ∈ c.sortedKeys, within p k = true → ¬ k < key := by
  intro k hk hin
  obtain ⟨_, earlier, later, hl, hnone⟩ := find?_eq_some_iff_append.mp h
  have hsorted := c.sorted
  rw [Catalog.sortedKeys, hl, map_append, map_cons, mem_append, mem_cons] at hk
  rw [hl, map_append, map_cons, pairwise_append, pairwise_cons] at hsorted
  rcases hk with hk | rfl | hk
  · obtain ⟨x, hx, rfl⟩ := mem_map.mp hk
    exact absurd hin (by simpa using hnone x hx)
  · exact String.lt_irrefl _
  · exact String.lt_asymm (hsorted.2.1.1 k hk)

theorem match_found (h : c.matchClaudeFamily model = some (key, e)) :
    ∃ f p before after, claudeFamilies[familyOf model]? = some f ∧
      f.lookups = before ++ p :: after ∧ pricePattern c model = some p ∧
      (key ∈ c.sortedKeys ∧ within p key = true) ∧
      (∀ k ∈ c.sortedKeys, within p k = true → ¬ k < key) ∧
      ∀ q ∈ before, ∀ k ∈ c.sortedKeys, within q k = false := by
  unfold Catalog.matchClaudeFamily at h
  split at h
  · cases h
  split at h
  · cases h
  rename_i f hf
  obtain ⟨before, p, after, hl, hp, hnone⟩ := findSome?_eq_some_iff.mp h
  have hfound := findByKey_some hp
  refine ⟨f, p, before, after, hf, hl, ?_, hfound, findByKey_first hp,
    fun q hq => findByKey_none (hnone q hq)⟩
  simp only [pricePattern, hf, Option.bind_some]
  refine find?_eq_some_iff_append.mpr ⟨any_eq_true.mpr ⟨key, hfound⟩, before, after,
    hl, fun q hq => ?_⟩
  simpa using findByKey_none (hnone q hq)

theorem rightFamily_iff (h : c.matchClaudeFamily model = some (key, e)) :
    RightFamily c model key ↔ (pricePattern c model).map familyOf = some (familyOf key) := by
  obtain ⟨f, p, before, after, hf, hl, hpattern, ⟨hkey, hin⟩, _, hbefore⟩ := match_found h
  obtain ⟨hown, hprices⟩ := family_table _ f hf
  simp only [RightFamily, hpattern, hf, Option.map_some, Option.some.injEq, exists_eq_left']
  have hp : p ∈ f.lookups := by simp [hl]
  rcases hprices with hnone | ⟨q, _, hpricing, hdown⟩
  · rw [hown p (by simpa [ModelFamily.lookups, hnone] using hp)]
    simp [hnone, eq_comm]
  have hlookups : f.patterns ++ [q] = before ++ p :: after := by
    rw [← hl, ModelFamily.lookups, hpricing]
    rfl
  have hcases : p ∈ f.patterns ∨ p = q ∧ ∀ r ∈ f.patterns, r ∈ before := by
    rcases append_eq_append_iff.mp hlookups with ⟨as, rfl, ha⟩ | ⟨as, hs, ha⟩
    · cases as with
      | nil => exact .inr ⟨(List.cons.inj ha).1.symm, by simp⟩
      | cons a as => simp at ha
    cases as with
    | nil => exact .inr ⟨(List.cons.inj ha).1, by simp [hs]⟩
    | cons a as =>
      rw [cons_append, List.cons.injEq] at ha
      exact .inl (by simp [hs, ha.1])
  simp only [hpricing, Option.getD_some, mem_append, mem_singleton]
  rcases hcases with hp | ⟨rfl, hall⟩
  · rw [hown p hp, eq_comm, or_iff_left]
    rintro ⟨hno, r, hr | rfl, he⟩
    · exact hno key hkey (he.trans (hown r hr))
    · have := familyOf_le hf hp hin
      omega
  · have hno : ∀ k ∈ c.sortedKeys, familyOf k ≠ familyOf model := by
      intro k hk he
      obtain ⟨r, hr, hrk⟩ := exists_pattern (he ▸ hf)
      rw [hbefore r (hall r hr) k hk] at hrk
      cases hrk
    constructor
    · rintro (he | ⟨_, r, hr | rfl, he⟩)
      · exact absurd he (hno key hkey)
      · exact absurd (he.trans (hown r hr)) (hno key hkey)
      · exact he.symm
    · intro he
      exact .inr ⟨hno, p, .inr rfl, he.symm⟩

/-- Of the keys with the first occurring pattern of the price list, one of the pattern's own family
sorts before all of other families. -/
def OwnKeyFirst (c : Catalog α) (model : String) : Prop :=
  ∃ p, pricePattern c model = some p ∧ ∃ k ∈ c.sortedKeys, within p k = true ∧
    familyOf k = familyOf p ∧
    ∀ k' ∈ c.sortedKeys, within p k' = true → familyOf k' ≠ familyOf p → k < k'

/-- A Claude model is billed in its family exactly if a key of the family of its price pattern comes
before the keys of other families that have the pattern in them. -/
theorem family_rate_iff (c : Catalog α) (model key : String) (e : α)
    (h : c.matchClaudeFamily model = some (key, e)) :
    RightFamily c model key ↔ OwnKeyFirst c model := by
  obtain ⟨_, p, _, _, _, _, hpattern, ⟨hkey, hin⟩, hfirst, _⟩ := match_found h
  rw [rightFamily_iff h]
  simp only [OwnKeyFirst, hpattern, Option.map_some, Option.some.injEq, exists_eq_left']
  constructor
  · intro hfamily
    refine ⟨key, hkey, hin, hfamily.symm, fun k' hk' hin' hother => ?_⟩
    by_contra hnot
    have he := String.le_antisymm (String.not_lt.mp (hfirst k' hk' hin')) (String.not_lt.mp hnot)
    exact hother (he ▸ hfamily.symm)
  · rintro ⟨k, hk, hink, hfamily, hbefore⟩
    by_contra hother
    exact hfirst k hk hink (hbefore key hkey hin fun he => hother he.symm)

def opusRates : Catalog Nat where
  entries := [("claude-opus-4-1", 15), ("claude-opus-4-20250514", 5), ("claude-opus-4-7", 25)]
  sorted := by decide +kernel

theorem opus_4_8_falls_back : RightFamily opusRates "claude-opus-4-8" "claude-opus-4-7" := by
  refine (family_rate_iff opusRates _ _ 25 (by decide +kernel)).mpr ⟨"claude-opus-4-7", ?_⟩
  exact ⟨by decide +kernel, "claude-opus-4-7", by decide +kernel, by decide +kernel, rfl,
    by decide +kernel⟩

/-- The key of a newer family comes first in the order of the keys. -/
theorem opus_4_billed_as_opus_4_1 :
    opusRates.matchClaudeFamily "claude-opus-4-0" = some ("claude-opus-4-1", 15) ∧
      ¬ RightFamily opusRates "claude-opus-4-0" "claude-opus-4-1" := by
  refine ⟨by decide +kernel, ?_⟩
  rintro (he | ⟨hno, _⟩)
  · exact absurd he (by decide +kernel)
  · exact hno "claude-opus-4-20250514" (by decide +kernel) (by decide +kernel)

/-- What the exact and the fuzzy rules give on a catalog. -/
def rateOn (current : Option (Catalog α)) (model : String) (allowFuzzy : Bool) :
    Option (String × α) :=
  match resolveExact current model allowFuzzy with
  | .inl result => result
  | .inr (c, name) => c.resolveFuzzy (buildCandidates name)

/-- The catalog of the fuzzy result a call is about to store. -/
def source : PriceJob α → Option (Catalog α)
  | .memoizing c _ => some c
  | _ => none

/-- A fuzzy result is stored only while the catalog it comes from is the current one. -/
def StoresCurrent (w : PriceWorld α) : PriceEvent α → Prop
  | .step i => ∀ c ∈ w.jobs[i]?.bind source, w.state.current = some c
  | _ => True

instance [DecidableEq α] (w : PriceWorld α) (e : PriceEvent α) : Decidable (StoresCurrent w e) := by
  cases e <;> dsimp only [StoresCurrent] <;> infer_instance

/-- The memo holds results of the current catalog. -/
def Right (s : Prices α) : Prop :=
  ∀ x ∈ s.fuzzyMemo, ∃ c, s.current = some c ∧ x.2 = c.resolveFuzzy (buildCandidates x.1)

/-- The call is `SetCatalog` and has not returned. -/
def setting : PriceJob α → Bool
  | .storing _ | .clearing => true
  | _ => false

def turns : PriceJob α → Nat
  | .recalling _ _ => 1
  | .memoizing _ _ => 2
  | .resolved _ => 3
  | _ => 0

def PriceEvent.moves (i : Nat) : PriceEvent α → Bool
  | .step j => j = i
  | _ => false

section
variable {s : Prices α} {job : PriceJob α} {w : PriceWorld α}

theorem Right.store (h : Right s) (hc : s.current = some c) (name : String) :
    Right (s.storeFuzzyMemo name (c.resolveFuzzy (buildCandidates name))) := by
  intro x hx
  simp only [Prices.storeFuzzyMemo] at hx
  split at hx
  · cases mem_singleton.mp hx
    exact ⟨c, hc, rfl⟩
  rcases mem_cons.mp hx with rfl | hx
  · exact ⟨c, hc, rfl⟩
  · exact h x (mem_filter.mp hx).1

theorem step_right (hset : setting job = false) (hfresh : ∀ c ∈ source job, s.current = some c) :
    (job.step s).1.current = s.current ∧ (Right s → Right (job.step s).1) ∧
      setting (job.step s).2 = false := by
  cases job with
  | storing | clearing => cases hset
  | set | resolved => exact ⟨rfl, id, rfl⟩
  | loading | recalling =>
    unfold PriceJob.step
    dsimp only
    split <;> exact ⟨rfl, id, rfl⟩
  | memoizing c name => exact ⟨rfl, fun h => h.store (hfresh c rfl) name, rfl⟩

theorem settled_on (h : Right w.state ∨ .clearing ∈ w.jobs) (e : PriceEvent α)
    (hfresh : StoresCurrent w e) : Right (on w e).state ∨
      .clearing ∈ (on w e).jobs := by
  cases e with
  | setCatalog | resolve => exact h.imp id (mem_append_left _)
  | step i =>
    simp only [on]
    rcases Crew.step_cases PriceJob.step w i with he | ⟨job, hi, he⟩ <;> rw [he]
    · exact h
    cases hjob : setting job with
    | false =>
      refine h.imp (step_right hjob fun c hc => hfresh c (by rwa [hi])).2.1 fun hm => ?_
      exact Crew.mem_set_of_ne hm hi (by rintro rfl; cases hjob) _
    | true =>
      cases job with
      | storing => exact .inr (Crew.mem_set_self hi _)
      | clearing => exact .inl (by simp [Right, PriceJob.step])
      | _ => cases hjob

end

/-- What a lookup that began on a catalog knows. -/
def Fits (current : Option (Catalog α)) (model : String) (allowFuzzy : Bool) : PriceJob α → Prop
  | .loading m fuzzy => m = model ∧ fuzzy = allowFuzzy
  | .recalling c name | .memoizing c name =>
    resolveExact current model allowFuzzy = .inr (c, name)
  | .resolved result => result = rateOn current model allowFuzzy
  | _ => False

theorem resolveExact_inr (h : resolveExact current model allowFuzzy = .inr (c, name)) :
    current = some c := by
  unfold resolveExact at h
  split at h
  · cases h
  dsimp only at h
  split at h
  · cases h
  split at h
  · cases h
  split at h <;> cases h
  rfl

theorem Fits.step {s : Prices α} (h : Fits s.current model allowFuzzy job) (hr : Right s) :
    Fits s.current model allowFuzzy (job.step s).2 ∧
      min 3 (turns job + 1) ≤ turns (job.step s).2 := by
  cases job with
  | storing | clearing | set => cases h
  | resolved => exact ⟨h, by simp [turns, PriceJob.step]⟩
  | loading m fuzzy =>
    obtain ⟨rfl, rfl⟩ := h
    simp only [PriceJob.step]
    split
    · rename_i he
      exact ⟨by simp only [Fits, rateOn, he], by simp [turns]⟩
    · rename_i he
      exact ⟨he, by simp [turns]⟩
  | memoizing c name =>
    have he : resolveExact s.current model allowFuzzy = .inr (c, name) := h
    exact ⟨by simp only [PriceJob.step, Fits, rateOn, he], by simp [turns, PriceJob.step]⟩
  | recalling c name =>
    have he : resolveExact s.current model allowFuzzy = .inr (c, name) := h
    simp only [PriceJob.step]
    split
    · rename_i hm
      obtain ⟨_, _, hmem, _⟩ := lookup_eq_some_iff.mp hm
      obtain ⟨d, hd, hresult⟩ := hr _ (hmem ▸ mem_append_right _ mem_cons_self)
      cases (resolveExact_inr he).symm.trans hd
      exact ⟨by simpa only [Fits, rateOn, he] using hresult, by simp [turns]⟩
    · exact ⟨he, by simp [turns]⟩

/-- Call `n` is a lookup that has had `k` turns, and no call of `SetCatalog` is under way. -/
structure Quiet (n : Nat) (current : Option (Catalog α)) (model : String) (allowFuzzy : Bool)
    (k : Nat) (w : PriceWorld α) : Prop where
  same : w.state.current = current
  right : Right w.state
  calm : ∀ job ∈ w.jobs, setting job = false
  lookup : ∃ job, w.jobs[n]? = some job ∧ Fits current model allowFuzzy job ∧ min 3 k ≤ turns job

theorem Quiet.join {w : PriceWorld α} (h : Quiet n current model allowFuzzy k w)
    (hjob : setting job = false) : Quiet n current model allowFuzzy k (w.join job) := by
  obtain ⟨lookup, hn, hfits, hk⟩ := h.lookup
  obtain ⟨hlt, _⟩ := List.getElem?_eq_some_iff.mp hn
  exact ⟨h.same, h.right, forall_mem_append.mpr ⟨h.calm, by simpa using hjob⟩, lookup,
    (getElem?_append_left hlt).trans hn, hfits, hk⟩

theorem Quiet.step {w : PriceWorld α} (h : Quiet n current model allowFuzzy k w) (i : Nat)
    (hfresh : StoresCurrent w (.step i)) :
    Quiet n current model allowFuzzy (k + if i = n then 1 else 0) (w.step PriceJob.step i) := by
  obtain ⟨lookup, hn, hfits, hk⟩ := h.lookup
  obtain ⟨hlt, _⟩ := List.getElem?_eq_some_iff.mp hn
  cases hi : w.jobs[i]? with
  | none =>
    have hne : i ≠ n := by
      rintro rfl
      cases hi.symm.trans hn
    simpa only [Crew.step, hi, if_neg hne, Nat.add_zero] using h
  | some job =>
    obtain ⟨hcurrent, hright, hset⟩ := step_right (h.calm job (mem_of_getElem? hi))
      fun c hc => hfresh c (by rwa [hi])
    simp only [Crew.step, hi]
    refine ⟨hcurrent.trans h.same, hright h.right, fun u hu => ?_, ?_⟩
    · rcases mem_or_eq_of_mem_set hu with hu | rfl
      · exact h.calm u hu
      · exact hset
    by_cases hin : i = n
    · subst hin
      cases hi.symm.trans hn
      obtain ⟨hfits, hturns⟩ := Fits.step (h.same ▸ hfits) h.right
      refine ⟨_, getElem?_set_self hlt, h.same ▸ hfits, ?_⟩
      rw [if_pos rfl]
      omega
    · exact ⟨lookup, (getElem?_set_ne hin).trans hn, hfits, by simpa [hin] using hk⟩

theorem run_quiet {w : PriceWorld α} (h : Quiet n current model allowFuzzy k w)
    {post : List (PriceEvent α)} (hpost : ∀ e ∈ post, ∀ c, e ≠ .setCatalog c)
    (hfresh : Along on StoresCurrent w post) :
    Quiet n current model allowFuzzy (k + post.countP (PriceEvent.moves n)) (post.foldl on w) := by
  induction post generalizing w k with
  | nil => exact h
  | cons e post ih =>
    obtain ⟨hhead, hpost⟩ := forall_mem_cons.mp hpost
    rw [countP_cons, Nat.add_comm (post.countP _), ← Nat.add_assoc]
    refine ih ?_ hpost hfresh.2
    cases e with
    | setCatalog c => exact absurd rfl (hhead c)
    | resolve => exact h.join rfl
    | step i => simpa only [on, PriceEvent.moves, decide_eq_true_eq] using h.step i hfresh.1

/-- Where no result of an earlier catalog is stored, a lookup after every call of `SetCatalog` has
returned gives within three turns what the rules give on the catalog. -/
theorem resolve_uses_current (pre post : List (PriceEvent α)) (model : String)
    (allowFuzzy : Bool) (hset : ∀ job ∈ (pre.foldl on ⟨{}, []⟩).jobs, setting job = false)
    (hpost : ∀ e ∈ post, ∀ c, e ≠ .setCatalog c)
    (hfresh : Along on StoresCurrent ⟨{}, []⟩ (pre ++ .resolve model allowFuzzy :: post)) :
    let w := pre.foldl on ⟨{}, []⟩
    let n := w.jobs.length
    let w' := post.foldl on (w.on (.resolve model allowFuzzy))
    (∀ result, w'.jobs[n]? = some (.resolved result) →
      result = rateOn w.state.current model allowFuzzy) ∧
    (3 ≤ post.countP (PriceEvent.moves n) →
      w'.jobs[n]? = some (.resolved (rateOn w.state.current model allowFuzzy))) := by
  intro w n w'
  obtain ⟨hpre, _, hrest⟩ := along_append.mp hfresh
  have hright : Right w.state := by
    refine (hpre.keeps (fun w e h hg => settled_on h e hg) (.inl ?_)).resolve_right fun hm => ?_
    · simp [Right]
    · cases hset _ hm
  have hquiet : Quiet n w.state.current model allowFuzzy 0 (w.on (.resolve model allowFuzzy)) :=
    ⟨rfl, hright, forall_mem_append.mpr ⟨hset, by simp [setting]⟩,
      .loading model allowFuzzy, getElem?_concat_length, ⟨rfl, rfl⟩, by simp⟩
  obtain ⟨_, _, _, job, hn, hfits, hk⟩ := run_quiet hquiet hpost hrest
  constructor
  · intro result hresult
    cases hn.symm.trans hresult
    exact hfits
  intro hturns
  rw [Nat.zero_add, Nat.min_eq_left hturns] at hk
  cases job with
  | resolved result => rw [hn, show result = _ from hfits]
  | _ => simp [turns] at hk

def opusAt (rate : Nat) : Catalog Nat := ⟨[("claude-opus-4-8", rate)], by simp⟩

/-- A price is looked up between two catalogs; `late` are its turns after the second one. -/
def replaced (late : List Nat) : List (PriceEvent Nat) :=
  .setCatalog (some (opusAt 15)) :: [0, 0].map .step ++ .resolve "claude-opus-5" true ::
    (List.replicate (3 - late.length) 1).map .step ++
    .setCatalog (some (opusAt 5)) :: (2 :: 2 :: late).map .step

def resultAt (w : PriceWorld Nat) (i : Nat) : Option (Option (String × Nat)) :=
  match w.jobs[i]? with
  | some (.resolved result) => some result
  | _ => none

theorem new_rate_served :
    let w := (replaced []).foldl on ⟨{}, []⟩
    let w' := ([3, 3, 3].map .step).foldl on (w.on (.resolve "claude-opus-5" true))
    w'.jobs[w.jobs.length]? = some (.resolved (rateOn w.state.current "claude-opus-5" true)) :=
  (resolve_uses_current (replaced []) ([3, 3, 3].map .step) "claude-opus-5" true
    (by decide +kernel) (by simp) (by decide +kernel)).2 (by decide +kernel)

/-- A result of the old catalog is stored after the memo was cleared. -/
theorem stale_rate_served :
    let w := (replaced [1]).foldl on ⟨{}, []⟩
    let w' := ([3, 3, 3].map .step).foldl on (w.on (.resolve "claude-opus-5" true))
    (∀ job ∈ w.jobs, setting job = false) ∧
      resultAt w' 3 = some (some ("claude-opus-4-8", 15)) ∧
      rateOn w.state.current "claude-opus-5" true = some ("claude-opus-4-8", 5) := by
  decide +kernel

end Ren2Hub.Proofs.CatalogRuns
