import Ren2Hub.Billing.Tiered

namespace Ren2Hub.Proofs.TieredSpec
open Tiered

variable {info : RelayInfo} {usage : Usage} {used : String → Bool} {u : ClaudeUsage}

/-- The input with a variable of its own in the expression. -/
def separateInput (used : String → Bool) (params : TokenParams) : Int :=
  (if used "cr" then params.cr else 0) + (if used "cc" then params.cc else 0) +
    (if used "cc1h" then params.cc1h else 0) + (if used "img" then params.img else 0) +
    (if used "ai" then params.ai else 0)

def separateOutput (used : String → Bool) (params : TokenParams) : Int :=
  (if used "img_o" then params.imgO else 0) + (if used "ao" then params.ao else 0)

/-- The parameters of a usage under the semantics the summary finds. -/
def paramsOf (info : RelayInfo) (used : String → Bool) (usage : Usage) : TokenParams :=
  buildTieredTokenParams usage (isClaudeUsageSemantic info usage) used

theorem clamped_add_iff (total part : Int) :
    (if total - part < 0 then 0 else total - part) + part = total ↔ part ≤ total := by
  split <;> omega

/-- The input with a variable of its own, as the usage tells it. -/
def ownInput (used : String → Bool) (usage : Usage) : Int :=
  let details := usage.promptTokensDetails
  (if used "cr" then details.cachedTokens else 0) +
    (if used "cc" then max 0 (max details.cachedCreationTokens details.cacheWriteTokens) else 0) +
    (if used "img" then details.imageTokens else 0) +
    (if used "ai" then details.audioTokens else 0)

def ownOutput (used : String → Bool) (usage : Usage) : Int :=
  (if used "img_o" then usage.completionTokenDetails.imageTokens else 0) +
    (if used "ao" then usage.completionTokenDetails.audioTokens else 0)

theorem cacheCreationTokensTotal_eq (details : InputTokenDetails) :
    details.cacheCreationTokensTotal =
      max 0 (max details.cachedCreationTokens details.cacheWriteTokens) := by
  unfold InputTokenDetails.cacheCreationTokensTotal
  dsimp only
  split <;> split <;> omega

section
variable (h : isClaudeUsageSemantic info usage = false)
include h

theorem not_anthropic : usage.usageSemantic ≠ .anthropic := by
  intro hs
  simp [isClaudeUsageSemantic, usageSemanticFromUsage, hs] at h

theorem separateInput_eq : separateInput used (paramsOf info used usage) = ownInput used usage := by
  simp only [separateInput, ownInput, paramsOf, buildTieredTokenParams, not_anthropic h,
    ↓reduceIte, cacheCreationTokensTotal_eq, ite_self, Int.add_zero]

theorem openai_input :
    (paramsOf info used usage).p + separateInput used (paramsOf info used usage) =
      usage.promptTokens ↔ ownInput used usage ≤ usage.promptTokens := by
  rw [← separateInput_eq h, ← clamped_add_iff]
  simp only [separateInput, paramsOf, buildTieredTokenParams, h, Bool.not_false, Bool.true_and,
    Int.sub_sub]

theorem openai_output :
    (paramsOf info used usage).c + separateOutput used (paramsOf info used usage) =
      usage.completionTokens ↔ ownOutput used usage ≤ usage.completionTokens := by
  rw [← show separateOutput used (paramsOf info used usage) = ownOutput used usage from rfl,
    ← clamped_add_iff]
  simp only [separateOutput, paramsOf, buildTieredTokenParams, h, Bool.not_false, Bool.true_and,
    Int.sub_sub]

end

structure Nonneg (u : ClaudeUsage) : Prop where
  input : 0 ≤ u.inputTokens
  creation : 0 ≤ u.cacheCreationInputTokens
  read : 0 ≤ u.cacheReadInputTokens
  output : 0 ≤ u.outputTokens
  split5m : 0 ≤ u.getCacheCreation5mTokens
  split1h : 0 ≤ u.getCacheCreation1hTokens
  flat5m : 0 ≤ u.claudeCacheCreation5mTokens
  flat1h : 0 ≤ u.claudeCacheCreation1hTokens

/-- The parameters of a response of Claude with a split of what it wrote to the cache. -/
def claudeParams (u : ClaudeUsage) (tokens5m tokens1h : Int) : TokenParams where
  p := u.inputTokens
  c := u.outputTokens
  len := u.inputTokens + u.cacheReadInputTokens + tokens5m + tokens1h
  cr := u.cacheReadInputTokens
  cc := tokens5m
  cc1h := tokens1h
  img := 0
  imgO := 0
  ai := 0
  ao := 0

theorem params_anthropic (hs : usage.usageSemantic = .anthropic) (hp : 0 ≤ usage.promptTokens)
    (hc : 0 ≤ usage.completionTokens) :
    paramsOf info used usage =
      { p := usage.promptTokens, c := usage.completionTokens
        len := usage.promptTokens + usage.promptTokensDetails.cachedTokens +
          usage.claudeCacheCreation5mTokens + usage.claudeCacheCreation1hTokens
        cr := usage.promptTokensDetails.cachedTokens
        cc := usage.claudeCacheCreation5mTokens
        cc1h := usage.claudeCacheCreation1hTokens
        img := usage.promptTokensDetails.imageTokens
        imgO := usage.completionTokenDetails.imageTokens
        ai := usage.promptTokensDetails.audioTokens
        ao := usage.completionTokenDetails.audioTokens } := by
  have hclaude : isClaudeUsageSemantic info usage = true := by
    simp [isClaudeUsageSemantic, usageSemanticFromUsage, hs]
  simp only [paramsOf, buildTieredTokenParams, hclaude, hs, Bool.not_true, Bool.false_and,
    Bool.false_eq_true, ↓reduceIte, Int.sub_zero, Int.not_lt.mpr hp, Int.not_lt.mpr hc]

theorem params_claude (h : Nonneg u) (info : RelayInfo) (used : String → Bool) :
    paramsOf info used (usageFromClaudeBillingUsage u) =
      claudeParams u (usageFromClaudeBillingUsage u).claudeCacheCreation5mTokens
        (usageFromClaudeBillingUsage u).claudeCacheCreation1hTokens :=
  params_anthropic rfl h.input h.output

/-- The tokens written to the cache as the ratio prices charge them. -/
def chargedCreation (info : RelayInfo) (usage : Usage) : Int :=
  let tokens := calculateTextQuotaTokens info usage
  tokens.cacheCreation + tokens.cacheCreation5m + tokens.cacheCreation1h

theorem chargedCreation_eq (info : RelayInfo) (usage : Usage)
    (hs : isClaudeUsageSemantic info usage = true)
    (h5 : 0 ≤ usage.claudeCacheCreation5mTokens) (h1 : 0 ≤ usage.claudeCacheCreation1hTokens) :
    chargedCreation info usage = max (summaryCacheCreationTokens info usage)
      (usage.claudeCacheCreation5mTokens + usage.claudeCacheCreation1hTokens) := by
  simp only [chargedCreation, calculateTextQuotaTokens, hs, Bool.true_or, ↓reduceIte, and_true]
  split
  · split <;> omega
  · omega

section
variable (h : Nonneg u)
include h

theorem creation_total :
    (usageFromClaudeBillingUsage u).promptTokensDetails.cacheCreationTokensTotal =
      u.cacheCreationInputTokens := by
  have hc := Int.not_lt.mpr h.creation
  simp only [InputTokenDetails.cacheCreationTokensTotal, usageFromClaudeBillingUsage, gt_iff_lt,
    hc, ↓reduceIte]

/-- The estimate that takes the place of a missing total on OpenRouter. -/
def estimateFor (info : RelayInfo) (u : ClaudeUsage) : Option Int :=
  if info.openRouter ∧ u.cacheCreationInputTokens = 0 then
    info.cacheCreateEstimate.filter fun e =>
      0 ≤ e ∧ e ≤ u.inputTokens - u.cacheReadInputTokens
  else none

theorem summaryCacheCreationTokens_eq :
    summaryCacheCreationTokens info (usageFromClaudeBillingUsage u) =
      (estimateFor info u).getD u.cacheCreationInputTokens := by
  have hclaude : isClaudeUsageSemantic info (usageFromClaudeBillingUsage u) = true := rfl
  have hprompt : (usageFromClaudeBillingUsage u).promptTokens = u.inputTokens := rfl
  have hread : (usageFromClaudeBillingUsage u).promptTokensDetails.cachedTokens =
      u.cacheReadInputTokens := rfl
  simp only [summaryCacheCreationTokens, hclaude, creation_total h, hprompt, hread, Bool.and_true,
    estimateFor]
  cases info.openRouter with
  | false => simp
  | true =>
    cases info.cacheCreateEstimate with
    | none => simp
    | some e =>
      by_cases hz : u.cacheCreationInputTokens = 0
      · by_cases he : 0 ≤ e ∧ e ≤ u.inputTokens - u.cacheReadInputTokens
        · have hfilter : (some e).filter (fun e =>
              decide (0 ≤ e ∧ e ≤ u.inputTokens - u.cacheReadInputTokens)) = some e := by
            simp [he]
          simp only [hz, ge_iff_le, he, and_self, ↓reduceIte, hfilter, Option.getD_some]
        · have hfilter : (some e).filter (fun e =>
              decide (0 ≤ e ∧ e ≤ u.inputTokens - u.cacheReadInputTokens)) = none := by
            simpa using he
          simp only [hz, ge_iff_le, he, and_false, and_self, ↓reduceIte, hfilter, Option.getD_none]
      · simp [hz]

/-- The split of what was written, as the bill takes it. -/
def billed5m (u : ClaudeUsage) : Int := (usageFromClaudeBillingUsage u).claudeCacheCreation5mTokens

def billed1h (u : ClaudeUsage) : Int := (usageFromClaudeBillingUsage u).claudeCacheCreation1hTokens

theorem billed5m_nonneg : 0 ≤ billed5m u := by
  unfold billed5m usageFromClaudeBillingUsage
  split
  · exact h.flat5m
  · exact h.split5m

theorem billed1h_nonneg : 0 ≤ billed1h u := by
  unfold billed1h usageFromClaudeBillingUsage
  dsimp only
  split
  · exact h.flat1h
  · exact h.split1h

/-- The split accounts for the total, or for the estimate that stands in for a missing one. -/
def Covered (info : RelayInfo) (u : ClaudeUsage) : Prop :=
  (estimateFor info u).getD u.cacheCreationInputTokens ≤ billed5m u + billed1h u

/-- Every token written to the cache has its place in the parameters. -/
def PricesCreation (info : RelayInfo) (used : String → Bool) (u : ClaudeUsage) : Prop :=
  let params := paramsOf info used (usageFromClaudeBillingUsage u)
  let charged := chargedCreation info (usageFromClaudeBillingUsage u)
  params.cc + params.cc1h = charged ∧
    params.len = u.inputTokens + u.cacheReadInputTokens + charged

theorem pricesCreation_iff (info : RelayInfo) (used : String → Bool) :
    PricesCreation info used u ↔ Covered info u := by
  have h5 := billed5m_nonneg h
  have h1 := billed1h_nonneg h
  have hcharged := chargedCreation_eq info (usageFromClaudeBillingUsage u) rfl h5 h1
  rw [summaryCacheCreationTokens_eq h] at hcharged
  unfold PricesCreation Covered
  rw [params_claude h, hcharged]
  simp only [claudeParams, billed5m, billed1h] at h5 h1 ⊢
  omega

/-- The stream told the same counts as the answer in one piece. -/
def Reports (events : List StreamEvent) (u : ClaudeUsage) : Prop :=
  events ≠ [] ∧ (streamInfo events).usage = (handleClaudeResponseData u).usage

omit h in
theorem streamInfo_billing (events : List StreamEvent) (h : events ≠ []) :
    (streamInfo events).billingUsage =
      claudeBillingUsageFromSemanticUsage (streamInfo events).usage := by
  obtain ⟨before, last, rfl⟩ : ∃ before last, events = before ++ [last] :=
    ⟨events.dropLast, events.getLast h, (List.dropLast_append_getLast h).symm⟩
  rw [streamInfo, List.foldl_append]
  rfl

omit h in
theorem newClaudeMessagesBillingUsage_some (h : newClaudeMessagesBillingUsage u = some v) :
    v = u := by
  unfold newClaudeMessagesBillingUsage at h
  split at h
  · exact (Option.some.inj h).symm
  · cases h

omit h in
theorem newClaudeMessagesBillingUsage_none (h : newClaudeMessagesBillingUsage u = none) :
    u.inputTokens = 0 ∧ u.outputTokens = 0 ∧ u.cacheCreationInputTokens = 0 ∧
      u.cacheReadInputTokens = 0 ∧ u.claudeCacheCreation5mTokens = 0 ∧
      u.claudeCacheCreation1hTokens = 0 ∧ u.getCacheCreation5mTokens = 0 ∧
      u.getCacheCreation1hTokens = 0 := by
  unfold newClaudeMessagesBillingUsage at h
  split at h
  · cases h
  rename_i hno
  simp only [hasClaudeUsageTokens, Bool.or_eq_true, bne_iff_ne, ne_eq, not_or, not_not] at hno
  obtain ⟨⟨⟨⟨⟨⟨hi, ho⟩, hc⟩, hr⟩, h5⟩, h1⟩, hsplit⟩ := hno
  refine ⟨hi, ho, hc, hr, h5, h1, ?_⟩
  cases hcc : u.cacheCreation with
  | none => simp [ClaudeUsage.getCacheCreation5mTokens, ClaudeUsage.getCacheCreation1hTokens, hcc]
  | some split =>
    simpa [ClaudeUsage.getCacheCreation5mTokens, ClaudeUsage.getCacheCreation1hTokens, hcc]
      using hsplit

theorem params_handled (info : RelayInfo) (used : String → Bool) :
    paramsOf info used (effectiveBillingUsage (handleClaudeResponseData u)) =
      claudeParams u (billed5m u) (billed1h u) := by
  cases hb : newClaudeMessagesBillingUsage u with
  | some v =>
    have hv := newClaudeMessagesBillingUsage_some hb
    have heff : effectiveBillingUsage (handleClaudeResponseData u) =
        usageFromClaudeBillingUsage u := by
      simp only [effectiveBillingUsage, handleClaudeResponseData, hb, Option.elim_some, hv]
    rw [heff]
    exact params_claude h info used
  | none =>
    obtain ⟨hi, ho, hc, hr, h5, h1, hg5, hg1⟩ := newClaudeMessagesBillingUsage_none hb
    have heff : effectiveBillingUsage (handleClaudeResponseData u) =
        (handleClaudeResponseData u).usage := by
      simp only [effectiveBillingUsage, handleClaudeResponseData, hb, Option.elim_none]
    rw [heff, params_anthropic rfl h.input h.output]
    simp only [handleClaudeResponseData, claudeParams, billed5m, billed1h,
      usageFromClaudeBillingUsage, hg5, hg1, h5, h1, ↓reduceIte]

/-- The split a stream ends with. -/
def streamed5m (u : ClaudeUsage) : Int :=
  (normalizeCacheCreationSplit u.cacheCreationInputTokens u.getCacheCreation5mTokens
    u.getCacheCreation1hTokens).1

/-- The usage a stream hands to billing. -/
def streamedUsage (u : ClaudeUsage) : ClaudeUsage :=
  { inputTokens := u.inputTokens
    cacheCreationInputTokens := u.cacheCreationInputTokens
    cacheReadInputTokens := u.cacheReadInputTokens
    outputTokens := u.outputTokens
    cacheCreation := if streamed5m u > 0 ∨ u.getCacheCreation1hTokens > 0 then
      some ⟨streamed5m u, u.getCacheCreation1hTokens⟩ else none }

theorem streamed5m_nonneg : 0 ≤ streamed5m u := by
  have h5 := h.split5m
  simp only [streamed5m, normalizeCacheCreationSplit]
  split <;> omega

theorem streamedUsage_split :
    (streamedUsage u).getCacheCreation5mTokens = streamed5m u ∧
      (streamedUsage u).getCacheCreation1hTokens = u.getCacheCreation1hTokens := by
  have h5 := streamed5m_nonneg h
  have h1 := h.split1h
  have hget5 : (streamedUsage u).getCacheCreation5mTokens =
      (streamedUsage u).cacheCreation.elim 0 (·.ephemeral5mInputTokens) := rfl
  have hget1 : (streamedUsage u).getCacheCreation1hTokens =
      (streamedUsage u).cacheCreation.elim 0 (·.ephemeral1hInputTokens) := rfl
  have hsplit : (streamedUsage u).cacheCreation =
      if streamed5m u > 0 ∨ u.getCacheCreation1hTokens > 0 then
        some ⟨streamed5m u, u.getCacheCreation1hTokens⟩ else none := rfl
  rw [hget5, hget1, hsplit]
  split
  · exact ⟨rfl, rfl⟩
  · simp only [Option.elim_none]
    omega

theorem streamedUsage_billed :
    billed5m (streamedUsage u) = streamed5m u ∧
      billed1h (streamedUsage u) = u.getCacheCreation1hTokens := by
  obtain ⟨h5, h1⟩ := streamedUsage_split h
  have hflat5 : (streamedUsage u).claudeCacheCreation5mTokens = 0 := rfl
  have hflat1 : (streamedUsage u).claudeCacheCreation1hTokens = 0 := rfl
  simp only [billed5m, billed1h, usageFromClaudeBillingUsage, h5, h1, hflat5, hflat1]
  constructor
  · split <;> omega
  · split <;> omega

theorem streamedUsage_nonneg : Nonneg (streamedUsage u) := by
  obtain ⟨h5, h1⟩ := streamedUsage_split h
  refine ⟨h.input, h.creation, h.read, h.output, ?_, ?_, Int.le_refl 0, Int.le_refl 0⟩
  · rw [h5]
    exact streamed5m_nonneg h
  · rw [h1]
    exact h.split1h

/-- The upstream told a count that a stream keeps. -/
def Told (u : ClaudeUsage) : Prop :=
  u.inputTokens ≠ 0 ∨ u.outputTokens ≠ 0 ∨ u.cacheCreationInputTokens ≠ 0 ∨
    u.cacheReadInputTokens ≠ 0 ∨ u.getCacheCreation5mTokens ≠ 0 ∨ u.getCacheCreation1hTokens ≠ 0

theorem streamed_none (hb : newClaudeMessagesBillingUsage (streamedUsage u) = none) : ¬ Told u := by
  obtain ⟨hi, ho, hc, hr, -, -, hg5, hg1⟩ := newClaudeMessagesBillingUsage_none hb
  obtain ⟨h5, h1⟩ := streamedUsage_split h
  have hs5 := h.split5m
  have hfive : u.getCacheCreation5mTokens = 0 := by
    simp only [h5, streamed5m, normalizeCacheCreationSplit] at hg5
    split at hg5 <;> omega
  simp only [Told, not_or, not_not]
  exact ⟨hi, ho, hc, hr, hfive, h1 ▸ hg1⟩

omit h in
theorem stream_billing (hr : Reports events u) :
    (streamInfo events).billingUsage = newClaudeMessagesBillingUsage (streamedUsage u) := by
  rw [streamInfo_billing events hr.1, hr.2]
  rfl

theorem params_streamed (hr : Reports events u) (ht : Told u) (fallback : Fallback)
    (info : RelayInfo) (used : String → Bool) :
    paramsOf info used (effectiveBillingUsage (claudeStreamHandler fallback events)) =
      claudeParams u (streamed5m u) u.getCacheCreation1hTokens := by
  cases hb : newClaudeMessagesBillingUsage (streamedUsage u) with
  | some v =>
    have hv := newClaudeMessagesBillingUsage_some hb
    obtain ⟨h5, h1⟩ := streamedUsage_billed h
    have heff : effectiveBillingUsage (claudeStreamHandler fallback events) =
        usageFromClaudeBillingUsage (streamedUsage u) := by
      simp only [effectiveBillingUsage, claudeStreamHandler, handleStreamFinalResponse,
        stream_billing hr, hb, Option.elim_some, hv]
    rw [heff, params_claude (streamedUsage_nonneg h)]
    change claudeParams u (billed5m (streamedUsage u)) (billed1h (streamedUsage u)) = _
    rw [h5, h1]
  | none => exact absurd ht (streamed_none h hb)

omit h in
theorem untold_usage (hr : Reports events u) (ht : ¬ Told u) :
    (streamInfo events).usage = { usageSemantic := .anthropic } := by
  simp only [Told, not_or, not_not] at ht
  obtain ⟨hi, ho, hc, hread, h5, h1⟩ := ht
  rw [hr.2]
  simp only [handleClaudeResponseData, hi, ho, hc, hread, h5, h1]

omit h in
/-- A stream that told nothing is billed by the estimates: the prompt alone, if there is one. -/
theorem params_estimated (hr : Reports events u) (ht : ¬ Told u) (fallback : Fallback)
    (info : RelayInfo) (used : String → Bool) :
    paramsOf info used (effectiveBillingUsage (claudeStreamHandler fallback events)) =
      claudeParams { inputTokens := fallback.promptTokens
                     outputTokens := if fallback.promptTokens = 0 then fallback.completionTokens
                       else 0 } 0 0 := by
  have husage := untold_usage hr ht
  have hbilling : (streamInfo events).billingUsage = none := by
    rw [streamInfo_billing events hr.1, husage]
    rfl
  obtain ⟨prompt, completion⟩ := fallback
  simp only [claudeStreamHandler, handleStreamFinalResponse, husage, hbilling, true_or, ↓reduceIte]
  cases prompt with
  | zero =>
    refine params_anthropic rfl (Int.le_refl 0) ?_
    exact Int.natCast_nonneg completion
  | succ n =>
    have hpositive : keepPositive ((n + 1 : Nat) : Int) 0 = (n + 1 : Nat) := by
      unfold keepPositive
      split <;> omega
    have htokens : ((n + 1 : Nat) : Int) ≠ 0 := by omega
    simp only [newClaudeMessagesBillingUsage, hasClaudeUsageTokens, buildMessageDeltaPatchUsage,
      hpositive, bne_iff_ne.mpr htokens, Bool.true_or, ↓reduceIte]
    exact params_anthropic rfl (Int.natCast_nonneg (n + 1)) (Int.le_refl 0)

end

/-- One hour counts only in the split, and so do five minutes, unless the flat count is just what a
stream would find. -/
def SplitComplete (u : ClaudeUsage) : Prop :=
  (u.getCacheCreation1hTokens = 0 → u.claudeCacheCreation1hTokens = 0) ∧
  if u.getCacheCreation5mTokens = 0 then
    u.claudeCacheCreation5mTokens =
      max 0 (u.cacheCreationInputTokens - u.getCacheCreation1hTokens)
  else u.cacheCreationInputTokens ≤ u.getCacheCreation5mTokens + u.getCacheCreation1hTokens

theorem claudeParams_inj :
    claudeParams u a b = claudeParams u c d ↔ a = c ∧ b = d := by
  constructor
  · intro h
    exact ⟨congrArg TokenParams.cc h, congrArg TokenParams.cc1h h⟩
  · rintro ⟨rfl, rfl⟩
    rfl

theorem streamed5m_eq_iff (u : ClaudeUsage) :
    streamed5m u = billed5m u ↔ if u.getCacheCreation5mTokens = 0 then
      u.claudeCacheCreation5mTokens =
        max 0 (u.cacheCreationInputTokens - u.getCacheCreation1hTokens)
    else u.cacheCreationInputTokens ≤ u.getCacheCreation5mTokens + u.getCacheCreation1hTokens := by
  simp only [streamed5m, normalizeCacheCreationSplit, billed5m, usageFromClaudeBillingUsage]
  by_cases h5 : u.getCacheCreation5mTokens = 0
  · simp only [h5, ↓reduceIte, Int.sub_zero, Int.zero_add]
    rw [show max 0 (u.cacheCreationInputTokens - u.getCacheCreation1hTokens) =
      if u.cacheCreationInputTokens - u.getCacheCreation1hTokens < 0 then 0
      else u.cacheCreationInputTokens - u.getCacheCreation1hTokens by omega]
    exact eq_comm
  · simp only [h5, ↓reduceIte]
    split <;> omega

theorem streamed1h_eq_iff (u : ClaudeUsage) :
    u.getCacheCreation1hTokens = billed1h u ↔
      (u.getCacheCreation1hTokens = 0 → u.claudeCacheCreation1hTokens = 0) := by
  simp only [billed1h, usageFromClaudeBillingUsage]
  by_cases h1 : u.getCacheCreation1hTokens = 0
  · simp only [h1, ↓reduceIte, true_implies]
    exact eq_comm
  · simp [h1]

theorem splitComplete_iff (u : ClaudeUsage) :
    claudeParams u (streamed5m u) u.getCacheCreation1hTokens =
      claudeParams u (billed5m u) (billed1h u) ↔ SplitComplete u := by
  rw [claudeParams_inj, streamed5m_eq_iff, streamed1h_eq_iff, and_comm]
  rfl

/-- A count was told, or nothing is estimated in its place. -/
def NotEstimated (u : ClaudeUsage) (fallback : Fallback) : Prop :=
  Told u ∨ fallback.promptTokens = 0 ∧ fallback.completionTokens = 0

theorem estimated_iff (ht : ¬ Told u) (fallback : Fallback) :
    claudeParams { inputTokens := fallback.promptTokens
                   outputTokens := if fallback.promptTokens = 0 then fallback.completionTokens
                     else 0 } 0 0 = claudeParams u (billed5m u) (billed1h u) ↔
      SplitComplete u ∧ NotEstimated u fallback := by
  rw [← splitComplete_iff, claudeParams_inj, NotEstimated, or_iff_right ht]
  simp only [Told, not_or, not_not] at ht
  obtain ⟨hi, ho, hc, hr, h5, h1⟩ := ht
  have hstreamed : streamed5m u = 0 := by
    simp [streamed5m, normalizeCacheCreationSplit, hc, h5, h1]
  rw [hstreamed, h1]
  constructor
  · intro heq
    have hp : (fallback.promptTokens : Int) = 0 := (congrArg TokenParams.p heq).trans hi
    have hprompt : fallback.promptTokens = 0 := by omega
    have hc : (if fallback.promptTokens = 0 then (fallback.completionTokens : Int) else 0) = 0 :=
      (congrArg TokenParams.c heq).trans ho
    rw [if_pos hprompt] at hc
    exact ⟨⟨congrArg TokenParams.cc heq, congrArg TokenParams.cc1h heq⟩, hprompt, by omega⟩
  · rintro ⟨⟨h5', h1'⟩, hprompt, hcompletion⟩
    simp [claudeParams, ← h5', ← h1', hprompt, hcompletion, hi, ho, hr]

/-- Where prompts count everything, each input token is in one place, and each output token exactly
if the parts of the output are within it. For Claude the parameters hold every token written to the
cache exactly if the split accounts for the total. A stream and an answer in one piece agree exactly
if the counts of the usage do and no estimate stands in for them. -/
theorem tiered_params_conserve_iff (info : RelayInfo) (used : String → Bool) :
    (∀ usage, isClaudeUsageSemantic info usage = false →
      ownInput used usage ≤ usage.promptTokens →
      ((paramsOf info used usage).p + separateInput used (paramsOf info used usage) =
          usage.promptTokens ∧
        (paramsOf info used usage).c + separateOutput used (paramsOf info used usage) =
          usage.completionTokens ↔
        ownOutput used usage ≤ usage.completionTokens)) ∧
    (∀ u, Nonneg u → (PricesCreation info used u ↔ Covered info u)) ∧
    (∀ u events fallback, Nonneg u → Reports events u →
      (paramsOf info used (effectiveBillingUsage (claudeStreamHandler fallback events)) =
        paramsOf info used (effectiveBillingUsage (handleClaudeResponseData u)) ↔
        SplitComplete u ∧ NotEstimated u fallback)) := by
  refine ⟨fun usage hclaude hfit => ?_, fun u h => pricesCreation_iff h info used,
    fun u events fallback h hr => ?_⟩
  · rw [and_iff_right ((openai_input hclaude).mpr hfit)]
    exact openai_output hclaude
  · rw [params_handled h]
    by_cases ht : Told u
    · rw [params_streamed h hr ht, splitComplete_iff, NotEstimated, or_iff_left_of_imp]
      · exact (and_iff_left ht).symm
      · exact fun _ => ht
    · rw [params_estimated hr ht]
      exact estimated_iff ht fallback

def bothTold : ClaudeUsage where
  inputTokens := 10
  cacheCreationInputTokens := 100
  outputTokens := 5
  cacheCreation := some ⟨60, 40⟩

theorem both_told_priced :
    PricesCreation {} (fun _ => true) bothTold ∧
    paramsOf {} (fun _ => true)
        (effectiveBillingUsage (claudeStreamHandler ⟨8, 3⟩ [.messageStart bothTold])) =
      paramsOf {} (fun _ => true) (effectiveBillingUsage (handleClaudeResponseData bothTold)) := by
  have hnonneg : Nonneg bothTold := by constructor <;> decide
  obtain ⟨-, hcreation, hstream⟩ := tiered_params_conserve_iff {} fun _ => true
  refine ⟨(hcreation bothTold hnonneg).mpr ?_, (hstream bothTold _ _ hnonneg ⟨by simp, rfl⟩).mpr ?_⟩
  · unfold Covered
    decide
  · exact ⟨⟨by decide, by decide⟩, .inl (.inl (by decide))⟩

def totalOnly : ClaudeUsage where
  inputTokens := 10
  cacheCreationInputTokens := 100
  outputTokens := 5

/-- The ratio prices charge them and a stream passes them on; an answer in one piece does not. -/
theorem total_only_not_priced :
    chargedCreation {} (usageFromClaudeBillingUsage totalOnly) = 100 ∧
    (paramsOf {} (fun _ => true) (effectiveBillingUsage (handleClaudeResponseData totalOnly))).cc +
      (paramsOf {} (fun _ => true)
        (effectiveBillingUsage (handleClaudeResponseData totalOnly))).cc1h = 0 ∧
    (paramsOf {} (fun _ => true)
      (effectiveBillingUsage (claudeStreamHandler ⟨8, 3⟩ [.messageStart totalOnly]))).cc = 100 := by
  decide

end Ren2Hub.Proofs.TieredSpec
