import Ren2Hub.Lib.Crew
import Ren2Hub.Lib.Spelling

namespace Ren2Hub.Pricing
open Lib

/-- A pricing document, its entries in the order of their keys. -/
structure Catalog (α : Type) where
  entries : List (String × α)
  sorted : (entries.map Prod.fst).Pairwise (· < ·)
deriving DecidableEq

def atoiSmall (value : List Char) : Nat := value.foldl (fun n c => 10 * n + (c.toNat - 48)) 0

def isAllDigits (s : List Char) : Bool := s ≠ [] && s.all Char.isDigit

/-- The segments are the year, the month and the day of a release. -/
def isDate (year month day : List Char) : Bool :=
  year.length = 4 && isAllDigits year && month.length = 2 && isAllDigits month &&
    day.length = 2 && isAllDigits day && 1 ≤ atoiSmall month && atoiSmall month ≤ 12 &&
    1 ≤ atoiSmall day && atoiSmall day ≤ 31

def keptSegment (part : List Char) : List (List Char) :=
  if part.length = 8 && isAllDigits part then []
  else if ':' ∈ part && part.takeWhile (· ≠ ':') = [] then []
  else [part.takeWhile (· ≠ ':')]

def keptSegments : List (List Char) → List (List Char)
  | [] => []
  | year :: month :: day :: rest =>
    if isDate year month day then keptSegments rest
    else keptSegment year ++ keptSegments (month :: day :: rest)
  | part :: rest => keptSegment part ++ keptSegments rest

def stripDateSegments (model : String) : String :=
  String.ofList (['-'].intercalate (keptSegments (model.toList.splitOn '-')))

def lastPathSegment (model : String) : String :=
  String.ofList (model.toList.reverse.takeWhile (· ≠ '/')).reverse

def geminiThinkingTiers : List String :=
  ["-thinking-high", "-thinking-low", "-thinking-medium", "-thinking", "-high", "-low",
    "-medium", "-tiered"]

def normalizeGeminiThinkingTierAlias (model : String) : String :=
  if startsWith "gemini-" model then
    match geminiThinkingTiers.find? fun tier => endsWith tier model && tier ≠ model with
    | some tier => dropEnd tier model
    | none => model
  else model

/-- `versionDashPattern` with its replacement: a match takes the dash after it along. -/
def dotVersions : List Char → List Char
  | '-' :: a :: '-' :: b :: '-' :: rest =>
    if a.isDigit && b.isDigit then '-' :: a :: '.' :: b :: '-' :: dotVersions rest
    else '-' :: dotVersions (a :: '-' :: b :: '-' :: rest)
  | ['-', a, '-', b] => if a.isDigit && b.isDigit then ['-', a, '.', b] else ['-', a, '-', b]
  | c :: rest => c :: dotVersions rest
  | [] => []

def buildCandidates (name : String) : List String :=
  let segment := lastPathSegment name
  let raw := [name, dropStart "models/" name, segment] ++
    (if name = "gpt-5.6" then ["gpt-5.6-sol"] else []) ++
    [normalizeGeminiThinkingTierAlias segment].filter (· ≠ segment)
  let spellings := raw.flatMap fun s => [s, String.ofList (dotVersions s.toList)]
  ((spellings.map trimSpace).filter (· ≠ "")).eraseDups

/-- `pricing` is `none` where the source leaves it out. -/
structure ModelFamily where
  name : String
  patterns : List String
  pricing : Option (List String) := none

def ModelFamily.lookups (f : ModelFamily) : List String := f.pricing.getD f.patterns

def claudeFamilies : List ModelFamily :=
  [⟨"opus-5", ["claude-opus-5"], some ["claude-opus-5", "claude-opus-4-8"]⟩,
    ⟨"opus-4.8", ["claude-opus-4-8", "claude-opus-4.8"],
      some ["claude-opus-4-8", "claude-opus-4.8", "claude-opus-4-7"]⟩,
    ⟨"opus-4.7", ["claude-opus-4-7", "claude-opus-4.7"],
      some ["claude-opus-4-7", "claude-opus-4.7", "claude-opus-4-6"]⟩,
    ⟨"opus-4.6", ["claude-opus-4-6", "claude-opus-4.6"],
      some ["claude-opus-4-6", "claude-opus-4.6", "claude-opus-4-5"]⟩,
    { name := "opus-4.5", patterns := ["claude-opus-4-5", "claude-opus-4.5"] },
    { name := "opus-4.1", patterns := ["claude-opus-4-1", "claude-opus-4.1"] },
    { name := "opus-4", patterns := ["claude-opus-4"] },
    { name := "haiku-4.5", patterns := ["claude-haiku-4-5", "claude-haiku-4.5"] },
    { name := "sonnet-4.5", patterns := ["claude-sonnet-4-5", "claude-sonnet-4.5"] },
    { name := "sonnet-4", patterns := ["claude-sonnet-4"] },
    { name := "sonnet-3.7", patterns := ["claude-3-7-sonnet"] },
    { name := "sonnet-3.5", patterns := ["claude-3-5-sonnet"] },
    { name := "haiku-3.5", patterns := ["claude-3-5-haiku"] },
    { name := "opus-3", patterns := ["claude-3-opus"] },
    { name := "sonnet-3", patterns := ["claude-3-sonnet"] },
    { name := "haiku-3", patterns := ["claude-3-haiku"] }]

/-- The place of the family of a name in `claudeFamilies`, behind its end if it has none. -/
def familyOf (name : String) : Nat :=
  claudeFamilies.findIdx fun f => f.patterns.any (within · name)

def preferBaseKey (candidate current : String) : Bool :=
  if candidate.utf8ByteSize ≠ current.utf8ByteSize then
    candidate.utf8ByteSize < current.utf8ByteSize
  else candidate < current

/-- `openAIDateSuffixPattern` replaced by nothing. -/
def withoutDate (model : String) : String :=
  let shape := model.toList.map fun c => if c.isDigit then '0' else c
  match ["-00000000", "-0000-00-00"].find? fun date => date.toList.isSuffixOf shape with
  | some date => String.ofList (model.toList.take (shape.length - date.length))
  | none => model

/-- What `openAIBaseVersionPattern` finds. -/
def baseVersion (model : String) : Option String :=
  let (major, rest) := (model.toList.drop 4).span Char.isDigit
  let (minor, rest) :=
    match rest with
    | '.' :: digits =>
      if digits.takeWhile Char.isDigit = [] then ([], rest)
      else ('.' :: digits.takeWhile Char.isDigit, digits.dropWhile Char.isDigit)
    | _ => ([], rest)
  if startsWith "gpt-" model && major ≠ [] && (rest = [] || rest.head? = some '-') then
    some ("gpt-" ++ String.ofList (major ++ minor))
  else none

def openAIVariants (model : String) : List String :=
  let dated := [withoutDate model].filter (· ≠ model)
  let base := (baseVersion model).toList
  (if within "-codex" model then base.map (· ++ "-codex") else []) ++ dated ++ base ++
    dated.flatMap fun m => (baseVersion m).toList

namespace Catalog
variable {α : Type} (c : Catalog α)

def sortedKeys : List String := c.entries.map Prod.fst

/-- An entry is returned with its key, the `CatalogKey` of the source. -/
def lookup (key : String) : Option (String × α) := c.entries.find? (·.1 = key)

def lookupFirst (keys : List String) : Option (String × α) := keys.findSome? c.lookup

/-- The key `newCatalog` chose for a base name. -/
def baseIndex (base : String) : Option String :=
  c.sortedKeys.foldl (fun found key =>
    if base ≠ "" ∧ stripDateSegments key = base ∧ found.all (preferBaseKey key) then some key
    else found) none

def matchByBaseName (candidates : List String) : Option (String × α) :=
  let stripped := (candidates.map fun s => (s, stripDateSegments s)).filter fun x => x.2 ≠ x.1
  match (stripped.map Prod.snd ++ candidates).findSome? c.baseIndex with
  | some key => c.lookup key
  | none => none

def findByKeyPrefixOrSubstring (pattern : String) : Option (String × α) :=
  c.entries.find? fun x => within pattern x.1

def matchClaudeFamily (model : String) : Option (String × α) :=
  if !within "claude" model then none
  else
    match claudeFamilies[familyOf model]? with
    | none => none
    | some matched => matched.lookups.findSome? c.findByKeyPrefixOrSubstring

def matchOpenAIVariant (model : String) : Option (String × α) :=
  if !startsWith "gpt-" model then none
  else
    (if model = "gpt-5.6" then c.lookup "gpt-5.6-sol" else none) <|>
    (if startsWith "gpt-5.3-codex-spark" model then
      c.lookupFirst ["gpt-5.1-codex", "gpt-5.2-codex", "gpt-5.3-codex"] else none) <|>
    (if startsWith "gpt-5.3-codex" model then
      c.lookupFirst ["gpt-5.2-codex", "gpt-5.1-codex", "gpt-5.3-codex"] else none) <|>
    c.lookupFirst ((openAIVariants model).filter (· ≠ model))

def resolveFuzzy (candidates : List String) : Option (String × α) :=
  c.matchByBaseName candidates <|> candidates.findSome? c.matchClaudeFamily <|>
    candidates.findSome? c.matchOpenAIVariant

end Catalog

def fuzzyMemoLimit : Nat := 4096

structure Prices (α : Type) where
  current : Option (Catalog α) := none
  fuzzyMemo : List (String × Option (String × α)) := []

/-- A call of `SetCatalog` or `Resolve` under way. -/
inductive PriceJob (α : Type) where
  | storing (c : Option (Catalog α))
  | clearing
  | set
  | loading (model : String) (allowFuzzy : Bool)
  | recalling (c : Catalog α) (name : String)
  | memoizing (c : Catalog α) (name : String)
  | resolved (result : Option (String × α))

section
variable {α : Type}

/-- `Resolve` up to the memo: its result, or the name the fuzzy rules are for. -/
def resolveExact (current : Option (Catalog α)) (model : String) (allowFuzzy : Bool) :
    Option (String × α) ⊕ Catalog α × String :=
  match current with
  | none => .inl none
  | some c =>
    let name := lower (trimSpace model)
    if c.entries = [] ∨ name = "" then .inl none
    else
      match c.lookupFirst (name :: buildCandidates name) with
      | some found => .inl (some found)
      | none => if allowFuzzy then .inr (c, name) else .inl none

def Prices.storeFuzzyMemo (s : Prices α) (name : String) (result : Option (String × α)) :
    Prices α :=
  { s with fuzzyMemo :=
      if fuzzyMemoLimit ≤ s.fuzzyMemo.length then [(name, result)]
      else (name, result) :: s.fuzzyMemo.filter (·.1 ≠ name) }

def PriceJob.step : PriceJob α → Prices α → Prices α × PriceJob α
  | .storing c, s => ({ s with current := c }, .clearing)
  | .clearing, s => ({ s with fuzzyMemo := [] }, .set)
  | .set, s => (s, .set)
  | .loading model allowFuzzy, s =>
    match resolveExact s.current model allowFuzzy with
    | .inl result => (s, .resolved result)
    | .inr (c, name) => (s, .recalling c name)
  | .recalling c name, s =>
    match s.fuzzyMemo.lookup name with
    | some result => (s, .resolved result)
    | none => (s, .memoizing c name)
  | .memoizing c name, s =>
    let result := c.resolveFuzzy (buildCandidates name)
    (s.storeFuzzyMemo name result, .resolved result)
  | .resolved result, s => (s, .resolved result)

inductive PriceEvent (α : Type) where
  | setCatalog (c : Option (Catalog α))
  | resolve (model : String) (allowFuzzy : Bool)
  | step (i : Nat)

abbrev PriceWorld (α : Type) := Crew (Prices α) (PriceJob α)

def PriceWorld.on (w : PriceWorld α) : PriceEvent α → PriceWorld α
  | .setCatalog c => w.join (.storing c)
  | .resolve model allowFuzzy => w.join (.loading model allowFuzzy)
  | .step i => w.step PriceJob.step i

end

end Ren2Hub.Pricing
