import Ren2Hub.Routing.Qualify

namespace Ren2Hub.Routing.Mapping
open Lib Qualify List Relation

inductive MappingError where
  | modelMappingContainsCycle
deriving DecidableEq

variable (mapping : List (String × String))

/-- The loop of `resolve`, with so many lookups and no answer if they are not enough. -/
def resolveLoop : Nat → String → List String → Bool → Option (Except MappingError (String × Bool))
  | 0, _, _, _ => none
  | lookups + 1, current, visited, mapped =>
    match mapping.lookup current with
    | none => some (.ok (current, mapped))
    | some target =>
      if target = "" ∨ target = current then some (.ok (current, mapped))
      else if target ∈ visited then some (.error .modelMappingContainsCycle)
      else resolveLoop lookups target (target :: visited) true

def resolve (lookups : Nat) (modelName : String) : Option (Except MappingError (String × Bool)) :=
  if modelName = "" ∨ mapping = [] then some (.ok (modelName, false))
  else resolveLoop mapping lookups modelName [modelName] false

def Follows (a b : String) : Prop := mapping.lookup a = some b ∧ b ≠ "" ∧ b ≠ a

/-- The name at which the chain comes to rest, or a cycle on it. -/
def Answers (start : String) : Except MappingError (String × Bool) → Prop
  | .ok (name, mapped) => ReflTransGen (Follows mapping) start name ∧
    (∀ target, ¬ Follows mapping name target) ∧ (mapped = true ↔ name ≠ start)
  | .error _ => ∃ name, ReflTransGen (Follows mapping) start name ∧
    TransGen (Follows mapping) name name

variable (u : Spelling)

def realModel (value : String) : String :=
  match mapping.lookup value <|> mapping.lookup (normalizeModel u value) with
  | some mapped => if trimSpace mapped = "" then value else trimSpace mapped
  | none => value

def actualModels (values : List String) : List (String × String) :=
  let seenInputs := values ++ values.map (normalizeModel u)
  let others := mapping.filter fun p =>
    p.1 ∉ seenInputs ∧ normalizeModel u p.1 ∉ seenInputs ∧ trimSpace p.2 ≠ ""
  (values.map (fun value => (value, realModel mapping u value)) ++
    others.map fun p => (p.1, trimSpace p.2)).insertionSort (·.1 ≤ ·.1)

/-- `RequestModel` and `ActualModel` of the rows. The lab and the source of a match only order
those of one real model. -/
def projectChannelCapabilities (values : List String) : List (String × String) :=
  let models := actualModels mapping u values
  let requestModels := (models.map fun m => normalizeModel u m.1).filter (· ≠ "")
  (requestModels.dedup.insertionSort (· ≤ ·)).filterMap fun requestModel =>
    ((models.filter fun m => normalizeModel u m.1 = requestModel).insertionSort
      (·.2 ≤ ·.2)).head?.map fun chosen => (requestModel, chosen.2)

variable {mapping u}

/-- What the index records for a listed name that no other one is taken for. -/
theorem projected_eq (hv : v ∈ values)
    (hother : ∀ k ∈ values ++ mapping.map Prod.fst, normalizeModel u k = normalizeModel u v → k = v)
    (hm : (normalizeModel u v, actual) ∈ projectChannelCapabilities mapping u values) :
    actual = realModel mapping u v := by
  simp only [projectChannelCapabilities, mem_filterMap, Option.map_eq_some_iff, Prod.mk.injEq] at hm
  obtain ⟨_, _, chosen, hchosen, hrequest, hactual⟩ := hm
  rw [← hactual]
  have hm := (mem_insertionSort _).mp (mem_of_mem_head? hchosen)
  simp only [mem_filter, decide_eq_true_eq, hrequest] at hm
  obtain ⟨hm, hn⟩ := hm
  rcases mem_append.mp ((mem_insertionSort _).mp hm) with hm | hm
  · obtain ⟨value, hvalue, rfl⟩ := mem_map.mp hm
    rw [hother value (mem_append_left _ hvalue) hn]
  · simp only [mem_map, mem_filter, decide_eq_true_eq] at hm
    obtain ⟨p, ⟨hp, hfresh, _⟩, rfl⟩ := hm
    have he := hother p.1 (mem_append_right _ (mem_map_of_mem hp)) hn
    exact absurd (mem_append_left _ hv) (he ▸ hfresh)

theorem resolveLoop_settled
    (h : resolveLoop mapping lookups current visited mapped = some (.ok (name, mapped'))) :
    ∀ t, mapping.lookup name = some t → t = "" ∨ t = name := by
  induction lookups generalizing current visited mapped with
  | zero => cases h
  | succ lookups ih =>
    unfold resolveLoop at h
    split at h
    · rename_i hnone
      cases h
      simp [hnone]
    rename_i target htarget
    split_ifs at h with hsettled hseen
    · cases h
      intro t ht
      cases htarget.symm.trans ht
      exact hsettled
    · cases h
    · exact ih h

/-- The index records the model the relay asks for exactly if the target of a listed name is not
mapped on to another one, and where the name is not mapped its normal form is mapped to nothing
else. -/
theorem capability_knows_model_iff (hv : v ∈ values) (hne : v ≠ "")
    (hvalues : ∀ p ∈ mapping, p.2 ≠ "" ∧ trimSpace p.2 = p.2)
    (hother : ∀ k ∈ values ++ mapping.map Prod.fst, normalizeModel u k = normalizeModel u v → k = v)
    (hm : (normalizeModel u v, actual) ∈ projectChannelCapabilities mapping u values) :
    (∃ mapped, resolve mapping (mapping.length + 1) v = some (.ok (actual, mapped))) ↔
      (mapping.lookup v = none → ∀ t, mapping.lookup (normalizeModel u v) = some t → t = v) ∧
      ∀ t, mapping.lookup v = some t → ∀ t', mapping.lookup t = some t' → t' = t := by
  have hvalue : ∀ k t, mapping.lookup k = some t → t ≠ "" ∧ trimSpace t = t := by
    intro k t hl
    obtain ⟨_, _, hmem, _⟩ := lookup_eq_some_iff.mp hl
    exact hvalues (k, t) (by simp [hmem])
  rw [projected_eq hv hother hm, realModel]
  cases hl : mapping.lookup v with
  | none =>
    have hres : resolve mapping (mapping.length + 1) v = some (.ok (v, false)) := by
      by_cases hnil : mapping = [] <;> simp [resolve, resolveLoop, hl, hnil]
    rw [hres]
    cases hn : mapping.lookup (normalizeModel u v) with
    | none => simp
    | some w =>
      obtain ⟨hw, htrim⟩ := hvalue _ w hn
      simp [htrim, hw, eq_comm]
  | some t =>
    obtain ⟨ht, htrim⟩ := hvalue v t hl
    have hnil : mapping ≠ [] := by
      rintro rfl
      cases hl
    obtain ⟨n, hlength⟩ : ∃ n, mapping.length = n + 1 :=
      Nat.exists_eq_succ_of_ne_zero (length_eq_zero_iff.not.mpr hnil)
    simp only [Option.orElse_eq_orElse, Option.orElse_some, htrim, ht, if_false, resolve, hne,
      hnil, or_self, reduceCtorEq, false_implies, true_and, Option.some.injEq, forall_eq']
    constructor
    · rintro ⟨mapped, hres⟩ t' hl'
      exact (resolveLoop_settled hres t' hl').resolve_left (hvalue t t' hl').1
    · intro hend
      by_cases hself : t = v
      · simp [resolveLoop, hl, hself]
      · cases hl' : mapping.lookup t with
        | none => simp [hlength, resolveLoop, hl, ht, hself, hl']
        | some t' => simp [hlength, resolveLoop, hl, ht, hself, hl', hend t' hl']

def latin : Spelling := ⟨lower, id, fun _ _ => false⟩

theorem one_step_known :
    projectChannelCapabilities [("a", "b")] latin ["a"] = [("a", "b")] ∧
      ∃ mapped, resolve [("a", "b")] 2 "a" = some (.ok ("b", mapped)) :=
  ⟨by decide +kernel, (capability_knows_model_iff (u := latin) (by decide : "a" ∈ ["a"])
    (by decide) (by decide +kernel) (by decide +kernel) (by decide +kernel)).mpr
    ⟨by decide, by decide⟩⟩

/-- The index stops at the first target, the relay goes on. -/
theorem chain_recorded_halfway :
    projectChannelCapabilities [("a", "b"), ("b", "c")] latin ["a"] = [("a", "b"), ("b", "c")] ∧
      resolve [("a", "b"), ("b", "c")] 3 "a" = some (.ok ("c", true)) := by
  decide +kernel

/-- The names before the current one are distinct keys, so that the loop ends. -/
theorem resolveLoop_answers (hnodup : (current :: earlier).Nodup)
    (hkeys : earlier ⊆ mapping.map Prod.fst) (hlookups : mapping.length < lookups + earlier.length)
    (hpath : ∀ name ∈ current :: earlier, ReflTransGen (Follows mapping) start name ∧
      ReflTransGen (Follows mapping) name current)
    (hstart : start ∈ current :: earlier) (hmapped : mapped = true ↔ current ≠ start) :
    ∃ r, resolveLoop mapping lookups current (current :: earlier) mapped = some r ∧
      Answers mapping start r := by
  induction lookups generalizing current earlier mapped with
  | zero =>
    have hle := (subperm_of_subset (nodup_cons.mp hnodup).2 hkeys).length_le
    rw [length_map] at hle
    omega
  | succ lookups ih =>
    have hreach := (hpath current mem_cons_self).1
    unfold resolveLoop
    split
    · rename_i hnone
      exact ⟨_, rfl, hreach, by simp [Follows, hnone], hmapped⟩
    rename_i target htarget
    split_ifs with hsettled hseen
    · refine ⟨_, rfl, hreach, fun b hb => ?_, hmapped⟩
      cases htarget.symm.trans hb.1
      exact hsettled.elim hb.2.1 hb.2.2
    all_goals have hstep : Follows mapping current target := ⟨htarget, not_or.mp hsettled⟩
    · obtain ⟨hto, hback⟩ := hpath target hseen
      exact ⟨_, rfl, target, hto, .tail' hback hstep⟩
    · refine ih (nodup_cons.mpr ⟨hseen, hnodup⟩) ?_ (by rw [length_cons]; omega)
        (forall_mem_cons.mpr ⟨⟨hreach.tail hstep, .refl⟩, fun name h => ?_⟩)
        (mem_cons_of_mem _ hstart) ?_
      · obtain ⟨_, _, hm, _⟩ := lookup_eq_some_iff.mp htarget
        exact cons_subset.mpr ⟨by simp [hm], hkeys⟩
      · exact (hpath name h).imp_right (.tail · hstep)
      · simpa using fun h : target = start => hseen (h ▸ hstart)

/-- With one lookup more than there are keys, a name is followed to where its chain comes to rest,
or a cycle is reported that is there. -/
theorem resolve_follows_chain (h : name ≠ "") :
    ∃ r, resolve mapping (mapping.length + 1) name = some r ∧ Answers mapping name r := by
  unfold resolve
  split
  · rename_i hnil
    obtain rfl := hnil.resolve_left h
    exact ⟨_, rfl, .refl, by simp [Follows], by simp⟩
  · exact resolveLoop_answers (nodup_singleton _) (nil_subset _) (by simp)
      (by simp [ReflTransGen.refl]) mem_cons_self (by simp)

theorem two_steps_followed :
    ∃ r, resolve [("a", "b"), ("b", "c")] 3 "a" = some r ∧ Answers [("a", "b"), ("b", "c")] "a" r :=
  resolve_follows_chain (by decide)

end Ren2Hub.Routing.Mapping
