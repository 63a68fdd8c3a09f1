import Mathlib.Data.List.Basic

namespace Ren2Hub.Tiered

inductive UsageSemantic where
  | unset
  | openai
  | anthropic
  | gemini
deriving DecidableEq, Repr

structure InputTokenDetails where
  cachedTokens : Int := 0
  cachedCreationTokens : Int := 0
  cacheWriteTokens : Int := 0
  audioTokens : Int := 0
  imageTokens : Int := 0

structure OutputTokenDetails where
  audioTokens : Int := 0
  imageTokens : Int := 0

structure Usage where
  promptTokens : Int := 0
  completionTokens : Int := 0
  usageSemantic : UsageSemantic := .unset
  /-- `UsageSource` is set. -/
  hasSource : Bool := false
  promptTokensDetails : InputTokenDetails := {}
  completionTokenDetails : OutputTokenDetails := {}
  claudeCacheCreation5mTokens : Int := 0
  claudeCacheCreation1hTokens : Int := 0

def InputTokenDetails.cacheCreationTokensTotal (d : InputTokenDetails) : Int :=
  let total := if d.cacheWriteTokens > d.cachedCreationTokens then d.cacheWriteTokens
    else d.cachedCreationTokens
  if total < 0 then 0 else total

structure TokenParams where
  p : Int
  c : Int
  len : Int
  cr : Int
  cc : Int
  cc1h : Int
  img : Int
  imgO : Int
  ai : Int
  ao : Int

def buildTieredTokenParams (usage : Usage) (isClaudeUsageSemantic : Bool)
    (usedVars : String → Bool) : TokenParams :=
  let cr := usage.promptTokensDetails.cachedTokens
  let cc5m := if usage.usageSemantic = .anthropic then usage.claudeCacheCreation5mTokens
    else usage.promptTokensDetails.cacheCreationTokensTotal
  let cc1h := if usage.usageSemantic = .anthropic then usage.claudeCacheCreation1hTokens else 0
  let img := usage.promptTokensDetails.imageTokens
  let ai := usage.promptTokensDetails.audioTokens
  let imgO := usage.completionTokenDetails.imageTokens
  let ao := usage.completionTokenDetails.audioTokens
  let inputLen := if isClaudeUsageSemantic then usage.promptTokens + cr + cc5m + cc1h
    else usage.promptTokens
  -- what has a variable of its own is taken out of the rest
  let less (name : String) (count : Int) : Int :=
    if !isClaudeUsageSemantic && usedVars name then count else 0
  let p := usage.promptTokens - less "cr" cr - less "cc" cc5m - less "cc1h" cc1h -
    less "img" img - less "ai" ai
  let c := usage.completionTokens - less "img_o" imgO - less "ao" ao
  { p := if p < 0 then 0 else p
    c := if c < 0 then 0 else c
    len := inputLen, cr, cc := cc5m, cc1h, img, imgO, ai, ao }

structure ClaudeCacheCreationUsage where
  ephemeral5mInputTokens : Int := 0
  ephemeral1hInputTokens : Int := 0

structure ClaudeUsage where
  inputTokens : Int := 0
  cacheCreationInputTokens : Int := 0
  cacheReadInputTokens : Int := 0
  outputTokens : Int := 0
  cacheCreation : Option ClaudeCacheCreationUsage := none
  claudeCacheCreation5mTokens : Int := 0
  claudeCacheCreation1hTokens : Int := 0

def ClaudeUsage.getCacheCreation5mTokens (u : ClaudeUsage) : Int :=
  u.cacheCreation.elim 0 (·.ephemeral5mInputTokens)

def ClaudeUsage.getCacheCreation1hTokens (u : ClaudeUsage) : Int :=
  u.cacheCreation.elim 0 (·.ephemeral1hInputTokens)

def usageFromClaudeBillingUsage (claudeUsage : ClaudeUsage) : Usage where
  promptTokens := claudeUsage.inputTokens
  completionTokens := claudeUsage.outputTokens
  usageSemantic := .anthropic
  hasSource := true
  claudeCacheCreation5mTokens :=
    if claudeUsage.getCacheCreation5mTokens = 0 then claudeUsage.claudeCacheCreation5mTokens
    else claudeUsage.getCacheCreation5mTokens
  claudeCacheCreation1hTokens :=
    if claudeUsage.getCacheCreation1hTokens = 0 then claudeUsage.claudeCacheCreation1hTokens
    else claudeUsage.getCacheCreation1hTokens
  promptTokensDetails :=
    { cachedTokens := claudeUsage.cacheReadInputTokens
      cachedCreationTokens := claudeUsage.cacheCreationInputTokens }

/-- An all-zero usage is no usage. -/
def hasClaudeUsageTokens (u : ClaudeUsage) : Bool :=
  u.inputTokens != 0 || u.outputTokens != 0 || u.cacheCreationInputTokens != 0 ||
    u.cacheReadInputTokens != 0 || u.claudeCacheCreation5mTokens != 0 ||
    u.claudeCacheCreation1hTokens != 0 ||
    u.cacheCreation.any fun split =>
      split.ephemeral5mInputTokens != 0 || split.ephemeral1hInputTokens != 0

def newClaudeMessagesBillingUsage (u : ClaudeUsage) : Option ClaudeUsage :=
  if hasClaudeUsageTokens u then some u else none

structure ClaudeResponseInfo where
  usage : Usage := {}
  billingUsage : Option ClaudeUsage := none
  done : Bool := false

def effectiveBillingUsage (info : ClaudeResponseInfo) : Usage :=
  info.billingUsage.elim info.usage usageFromClaudeBillingUsage

def handleClaudeResponseData (claudeUsage : ClaudeUsage) : ClaudeResponseInfo where
  usage :=
    { promptTokens := claudeUsage.inputTokens
      completionTokens := claudeUsage.outputTokens
      usageSemantic := .anthropic
      promptTokensDetails :=
        { cachedTokens := claudeUsage.cacheReadInputTokens
          cachedCreationTokens := claudeUsage.cacheCreationInputTokens }
      claudeCacheCreation5mTokens := claudeUsage.getCacheCreation5mTokens
      claudeCacheCreation1hTokens := claudeUsage.getCacheCreation1hTokens }
  billingUsage := newClaudeMessagesBillingUsage claudeUsage

/-- What the split leaves of the total counts as five minutes. -/
def normalizeCacheCreationSplit (totalTokens tokens5m tokens1h : Int) : Int × Int :=
  let remainder := totalTokens - tokens5m - tokens1h
  (tokens5m + (if remainder < 0 then 0 else remainder), tokens1h)

def claudeBillingUsageFromSemanticUsage (usage : Usage) : Option ClaudeUsage :=
  let split := normalizeCacheCreationSplit usage.promptTokensDetails.cachedCreationTokens
    usage.claudeCacheCreation5mTokens usage.claudeCacheCreation1hTokens
  newClaudeMessagesBillingUsage
    { inputTokens := usage.promptTokens
      cacheCreationInputTokens := usage.promptTokensDetails.cachedCreationTokens
      cacheReadInputTokens := usage.promptTokensDetails.cachedTokens
      outputTokens := usage.completionTokens
      cacheCreation := if split.1 > 0 ∨ split.2 > 0 then some ⟨split.1, split.2⟩ else none }

inductive StreamEvent where
  | messageStart (usage : ClaudeUsage)
  | messageDelta (usage : ClaudeUsage)

/-- A positive count of a later event takes the place of the one before. -/
def keepPositive (new old : Int) : Int := if new > 0 then new else old

def formatClaudeResponseInfo (info : ClaudeResponseInfo) (event : StreamEvent) :
    ClaudeResponseInfo :=
  let old := info.usage
  let usage : Usage := match event with
    | .messageStart u =>
      { old with
        promptTokens := u.inputTokens
        usageSemantic := .anthropic
        promptTokensDetails :=
          { old.promptTokensDetails with
            cachedTokens := u.cacheReadInputTokens
            cachedCreationTokens := u.cacheCreationInputTokens }
        claudeCacheCreation5mTokens := u.getCacheCreation5mTokens
        claudeCacheCreation1hTokens := u.getCacheCreation1hTokens
        completionTokens := u.outputTokens }
    | .messageDelta u =>
      { old with
        usageSemantic := .anthropic
        promptTokens := keepPositive u.inputTokens old.promptTokens
        promptTokensDetails :=
          { old.promptTokensDetails with
            cachedTokens :=
              keepPositive u.cacheReadInputTokens old.promptTokensDetails.cachedTokens
            cachedCreationTokens := keepPositive u.cacheCreationInputTokens
              old.promptTokensDetails.cachedCreationTokens }
        claudeCacheCreation5mTokens :=
          keepPositive u.getCacheCreation5mTokens old.claudeCacheCreation5mTokens
        claudeCacheCreation1hTokens :=
          keepPositive u.getCacheCreation1hTokens old.claudeCacheCreation1hTokens
        completionTokens := keepPositive u.outputTokens old.completionTokens }
  let done := match event with
    | .messageStart _ => info.done
    | .messageDelta _ => true
  { usage, billingUsage := claudeBillingUsageFromSemanticUsage usage, done }

/-- Without a response of its own. It has no output tokens. -/
def buildMessageDeltaPatchUsage (usage : Usage) : ClaudeUsage :=
  let creation := keepPositive usage.promptTokensDetails.cachedCreationTokens 0
  let split := normalizeCacheCreationSplit creation usage.claudeCacheCreation5mTokens
    usage.claudeCacheCreation1hTokens
  { inputTokens := keepPositive usage.promptTokens 0
    cacheCreationInputTokens := creation
    cacheReadInputTokens := keepPositive usage.promptTokensDetails.cachedTokens 0
    cacheCreation := if split.1 > 0 ∨ split.2 > 0 then some ⟨split.1, split.2⟩ else none }

/-- What `ResponseText2Usage` finds: the prompt as it was estimated and the text that came. -/
structure Fallback where
  promptTokens : Nat
  completionTokens : Nat

def handleStreamFinalResponse (fallback : Fallback) (info : ClaudeResponseInfo) :
    ClaudeResponseInfo :=
  let old := info.usage
  let filled : Usage := if old.completionTokens = 0 ∨ !info.done then
      { old with
        completionTokens :=
          if old.completionTokens = 0 ∨
              (!info.done ∧ fallback.completionTokens > old.completionTokens)
          then fallback.completionTokens else old.completionTokens
        promptTokens := if old.promptTokens = 0 then fallback.promptTokens else old.promptTokens }
    else old
  let usage := { filled with usageSemantic := .anthropic }
  { info with
    usage
    billingUsage := match info.billingUsage with
      | some billing => some billing
      | none => newClaudeMessagesBillingUsage (buildMessageDeltaPatchUsage usage) }

def streamInfo (events : List StreamEvent) : ClaudeResponseInfo :=
  events.foldl formatClaudeResponseInfo {}

/-- The usage of a stream that was read to its end. -/
def claudeStreamHandler (fallback : Fallback) (events : List StreamEvent) : ClaudeResponseInfo :=
  handleStreamFinalResponse fallback (streamInfo events)

/-- What the token counts depend on besides the usage. On OpenRouter the cost of the answer may give
an estimate of the tokens written to the cache. -/
structure RelayInfo where
  claudeFormat : Bool := false
  openRouter : Bool := false
  cacheCreateEstimate : Option Int := none
  audioInputPriced : Bool := false

variable (info : RelayInfo)

variable (usage : Usage)

def usageSemanticFromUsage : UsageSemantic :=
  if usage.usageSemantic ≠ .unset then usage.usageSemantic
  else if info.claudeFormat then .anthropic else .openai

def isClaudeUsageSemantic : Bool :=
  usageSemanticFromUsage info usage == .anthropic

def isLegacyClaudeDerivedOpenAIUsage : Bool :=
  !info.claudeFormat && !usage.hasSource && usage.usageSemantic == .unset &&
    (decide (usage.claudeCacheCreation5mTokens > 0) ||
      decide (usage.claudeCacheCreation1hTokens > 0))

/-- `CacheCreationTokens` of the summary. -/
def summaryCacheCreationTokens : Int :=
  let total := usage.promptTokensDetails.cacheCreationTokensTotal
  if info.openRouter && isClaudeUsageSemantic info usage then
    match info.cacheCreateEstimate with
    | none => total
    | some estimate =>
      if total = 0 ∧ estimate ≥ 0 ∧
          usage.promptTokens - usage.promptTokensDetails.cachedTokens ≥ estimate then estimate
      else total
  else total

/-- `PromptTokens` of the summary. -/
def summaryPromptTokens : Int :=
  if info.openRouter && isClaudeUsageSemantic info usage then
    usage.promptTokens - usage.promptTokensDetails.cachedTokens -
      summaryCacheCreationTokens info usage
  else usage.promptTokens

structure RatioTokens where
  base : Int
  cache : Int
  cacheCreation : Int
  cacheCreation5m : Int
  cacheCreation1h : Int
  image : Int
  audio : Int

/-- The token counts in `calculateTextQuotaSummary` of a model without a fixed price. -/
def calculateTextQuotaTokens : RatioTokens :=
  let separate := isClaudeUsageSemantic info usage || isLegacyClaudeDerivedOpenAIUsage info usage
  let cache := usage.promptTokensDetails.cachedTokens
  let creation := summaryCacheCreationTokens info usage
  let tokens5m := usage.claudeCacheCreation5mTokens
  let tokens1h := usage.claudeCacheCreation1hTokens
  let image := usage.promptTokensDetails.imageTokens
  let audio := if info.audioInputPriced then usage.promptTokensDetails.audioTokens else 0
  let remaining := creation - tokens5m - tokens1h
  let written := creation ≠ 0 ∨ tokens5m > 0 ∨ tokens1h > 0
  let base := summaryPromptTokens info usage - (if separate then 0 else cache) -
    (if separate then 0 else creation) - image - audio
  { base := if base < 0 then 0 else base
    cache
    cacheCreation := if written then
      (if separate then (if remaining < 0 then 0 else remaining) else creation) else 0
    cacheCreation5m := if written ∧ separate then tokens5m else 0
    cacheCreation1h := if written ∧ separate then tokens1h else 0
    image
    audio }

end Ren2Hub.Tiered
