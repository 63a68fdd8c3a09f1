import Mathlib.Data.List.Sort
import Ren2Hub.Lib.Program
import Ren2Hub.Lib.Text
import Ren2Hub.Lib.Transaction

namespace Ren2Hub.Auth
open Lib Lib.Transaction

def second : Int := 1000000000

def minute : Int := 60 * second

def hour : Int := 60 * minute

/-- The zero value of a time, which no clock shows. -/
def zeroTime : Int := -62135596800 * second

/-- `Time.Unix` -/
def unix (time : Int) : Int := time / second

structure AuthFlow where
  id : Int := 0
  tokenHash : String
  purpose : String
  provider : String := ""
  intent : String := ""
  userId : Int := 0
  sessionId : String := ""
  payload : String := ""
  expiresAt : Int
  consumedAt : Option Int := none
deriving DecidableEq, Repr

structure AuthFlowCreate where
  purpose : String
  provider : String := ""
  intent : String := ""
  userId : Int := 0
  sessionId : String := ""
  payload : String := ""
  expiresAt : Int

structure AuthFlowMatch where
  purpose : String
  provider : String := ""
  intent : String := ""
  userId : Int := 0
  sessionId : String := ""

inductive FlowError where
  | invalid
  | expired
  | consumed
  | database
  | action (reason : String)

structure Tables (δ : Type) where
  flows : List AuthFlow := []
  nextId : Int := 1
  rest : δ

/-- The keyed hash of a token, the signature of Telegram, and the rows of users and sessions. -/
structure Site (δ : Type) where
  authFlowTokenHash : String → String
  sign : String → String → List Nat
  telegramBotToken : String
  userByTelegramId : δ → String → Bool
  sessionReferenceValid : δ → Int → String → Bool
  bindTelegram : AuthFlow → String → Int → δ → Except FlowError δ

variable {δ : Type}

abbrev FlowTx (δ : Type) := Transaction (Tables δ) FlowError

/-- Empty fields of the match are not compared. -/
def AuthFlowMatch.accepts (m : AuthFlowMatch) (flow : AuthFlow) : Prop :=
  flow.purpose = m.purpose ∧ (m.provider ≠ "" → flow.provider = m.provider) ∧
    (m.intent ≠ "" → flow.intent = m.intent) ∧ (m.userId ≠ 0 → flow.userId = m.userId) ∧
    (m.sessionId ≠ "" → flow.sessionId = m.sessionId)

instance (m : AuthFlowMatch) (flow : AuthFlow) : Decidable (m.accepts flow) :=
  inferInstanceAs (Decidable (_ ∧ _))

variable (site : Site δ)

/-- `applyAuthFlowMatch` and `First` -/
def findAuthFlow (token : String) (m : AuthFlowMatch) (flows : List AuthFlow) : Option AuthFlow :=
  flows.find? fun flow => flow.tokenHash = site.authFlowTokenHash token ∧ m.accepts flow

/-- The unique index on the hash lets a row in or not. -/
def insertAuthFlow (flow : AuthFlow) (conflict : FlowError) : FlowTx δ AuthFlow := do
  let t ← get
  Transaction.require (∀ r ∈ t.flows, r.tokenHash ≠ flow.tokenHash) conflict
  modify fun t =>
    { t with flows := { flow with id := t.nextId } :: t.flows, nextId := t.nextId + 1 }
  pure { flow with id := t.nextId }

def createAuthFlow (now : Int) (token : String) (input : AuthFlowCreate) : FlowTx δ AuthFlow := do
  require (¬ blank input.purpose ∧ input.expiresAt ≠ zeroTime ∧ input.expiresAt > now) .invalid
  insertAuthFlow
    { tokenHash := site.authFlowTokenHash token, purpose := input.purpose
      provider := input.provider, intent := input.intent, userId := input.userId
      sessionId := input.sessionId, payload := input.payload, expiresAt := input.expiresAt }
    .database

def assertionHash (purpose assertion : String) : String :=
  site.authFlowTokenHash ("external:" ++ trimSpace purpose ++ ":" ++ trimSpace assertion)

def claimExternalAuthAssertion (now : Int) (purpose assertion : String) (expiresAt : Int) :
    FlowTx δ Unit := do
  require (trimSpace purpose ≠ "" ∧ trimSpace assertion ≠ "" ∧ expiresAt > now) .invalid
  let _ ← insertAuthFlow
    { tokenHash := assertionHash site purpose assertion, purpose := trimSpace purpose, expiresAt
      consumedAt := some now }
    .consumed

def getAuthFlow (now : Int) (token : String) (m : AuthFlowMatch) (flows : List AuthFlow) :
    Except FlowError AuthFlow :=
  if token = "" ∨ m.purpose = "" then .error .invalid
  else match findAuthFlow site token m flows with
    | none => .error .invalid
    | some flow =>
      if flow.consumedAt ≠ none then .error .consumed
      else if flow.expiresAt ≤ now then .error .expired
      else .ok flow

/-- The rows the conditional update of a consumption writes. -/
def AuthFlow.isOpen (id now : Int) (flow : AuthFlow) : Bool :=
  flow.id = id && flow.consumedAt.isNone && decide (flow.expiresAt > now)

def markConsumed (id now : Int) : FlowTx δ Unit := do
  let t ← get
  require (t.flows.countP (AuthFlow.isOpen id now) = 1) .consumed
  modify fun t =>
    { t with
      flows := t.flows.map fun flow =>
        if flow.isOpen id now then { flow with consumedAt := some now } else flow }

def consumeAuthFlowWithAction (now : Int) (token : String) (m : AuthFlowMatch)
    (action : AuthFlow → FlowTx δ Unit) : FlowTx δ AuthFlow := do
  require (token ≠ "" ∧ m.purpose ≠ "") .invalid
  let t ← get
  match findAuthFlow site token m t.flows with
  | none => throw .invalid
  | some flow => do
    require (flow.consumedAt = none) .consumed
    require (flow.expiresAt > now) .expired
    markConsumed flow.id now
    action { flow with consumedAt := some now }
    pure { flow with consumedAt := some now }

def authFlowDefaultCleanupRetention : Int := 24 * hour

def deleteExpiredAuthFlows (now : Int) (flows : List AuthFlow) : List AuthFlow :=
  let cutoff := now - authFlowDefaultCleanupRetention
  flows.filter fun flow =>
    ¬ (flow.expiresAt < cutoff ∨ flow.consumedAt.any fun time => time < cutoff)

def telegramAuthorizationMaxAge : Int := 5 * minute

def telegramAuthorizationFutureSkew : Int := 2 * minute

def authFlowPurposeTelegramBind : String := "telegram_bind"

def authFlowPurposeTelegramAssertion : String := "telegram_assertion"

/-- `url.Values` -/
abbrev Params := List (String × List String)

section
variable (params : Params)

def Params.get (key : String) : String :=
  ((params.lookup key).getD []).headD ""

def digits? : List Char → Option Nat
  | [] => none
  | cs => cs.foldl (fun n c => do
      let n ← n
      if c.isDigit then some (10 * n + (c.toNat - '0'.toNat)) else none) (some 0)

/-- `strconv.ParseInt` with base 10 and 64 bits -/
def parseInt (text : String) : Option Int := do
  let n ← match text.toList with
    | '-' :: cs => (digits? cs).map fun n => -(n : Int)
    | '+' :: cs => (digits? cs).map fun n => (n : Int)
    | cs => (digits? cs).map fun n => (n : Int)
  if -9223372036854775808 ≤ n ∧ n ≤ 9223372036854775807 then some n else none

def hexDigit? (c : Char) : Option Nat :=
  if c.isDigit then some (c.toNat - '0'.toNat)
  else if 'a' ≤ c ∧ c ≤ 'f' then some (c.toNat - 'a'.toNat + 10)
  else if 'A' ≤ c ∧ c ≤ 'F' then some (c.toNat - 'A'.toNat + 10)
  else none

def hexDecode : List Char → Option (List Nat)
  | [] => some []
  | [_] => none
  | hi :: lo :: cs => do
    let h ← hexDigit? hi
    let l ← hexDigit? lo
    let rest ← hexDecode cs
    some ((16 * h + l) :: rest)

def hexEncode (bytes : List Nat) : String :=
  String.ofList (bytes.flatMap fun b => [Nat.digitChar (b / 16), Nat.digitChar (b % 16)])

inductive TelegramError where
  | tokenEmpty
  | duplicateParameters
  | incomplete
  | dateInvalid
  | signatureInvalid
  | expired
deriving DecidableEq, Repr

def dataCheckString : String :=
  let strs := (params.filter fun p => p.1 ≠ "hash").map fun p => p.1 ++ "=" ++ p.2.headD ""
  "\n".intercalate (strs.mergeSort fun a b => decide (a ≤ b))

def verifyTelegramAuthorization (now : Int) : Except TelegramError String :=
  if site.telegramBotToken = "" then .error .tokenEmpty
  else if params.any fun p => p.2.length ≠ 1 then .error .duplicateParameters
  else if params.get "id" = "" ∨ params.get "hash" = "" ∨ params.get "auth_date" = "" then
    .error .incomplete
  else match parseInt (params.get "auth_date") with
    | none => .error .dateInvalid
    | some authDate =>
      if authDate < unix (now - telegramAuthorizationMaxAge) ∨
          authDate > unix (now + telegramAuthorizationFutureSkew) then .error .expired
      else match hexDecode (params.get "hash").toList with
        | none => .error .signatureInvalid
        | some hash =>
          if hash = site.sign site.telegramBotToken (dataCheckString params) then
            .ok (params.get "id")
          else .error .signatureInvalid

/-- The text and the deadline under which an authorization is claimed. -/
def telegramAuthorizationClaim (now : Int) : Except TelegramError (String × Int) :=
  match parseInt (params.get "auth_date") with
  | none => .error .dateInvalid
  | some authDate =>
    match hexDecode (params.get "hash").toList with
    | none => .error .signatureInvalid
    | some hash =>
      let expiresAt := authDate * second + telegramAuthorizationMaxAge
      if expiresAt ≤ now then .error .expired else .ok (hexEncode hash, expiresAt)

/-- Runs in the transaction of a consumption: nothing, other tables with any outcome, or a binding.
-/
inductive FlowAction (δ : Type) where
  | nothing
  | other (write : AuthFlow → δ → Except FlowError δ)
  | bindTelegram (telegramId assertion : String) (expiresAt : Int)

def FlowAction.run (now : Int) : FlowAction δ → AuthFlow → FlowTx δ Unit
  | .nothing, _ => pure ()
  | .other write, flow => writeRest (write flow)
  | .bindTelegram telegramId assertion expiresAt, flow => do
    claimExternalAuthAssertion site now authFlowPurposeTelegramAssertion assertion expiresAt
    writeRest (site.bindTelegram flow telegramId now)
where
  writeRest (write : δ → Except FlowError δ) : FlowTx δ Unit := do
    let t ← get
    let rest ← write t.rest
    modify fun t => { t with rest }

def FlowAction.claimed : FlowAction δ → List (String × Int)
  | .bindTelegram _ assertion expiresAt => [(assertion, expiresAt)]
  | _ => []

structure FlowCommit where
  flow : AuthFlow
  given : AuthFlowMatch
  time : Int

/-- The clock and the tables, with the flows created, consumed and the assertions claimed so far. -/
structure AuthState (δ : Type) where
  now : Int
  tables : Tables δ
  created : List AuthFlow := []
  commits : List FlowCommit := []
  claims : List (String × Int) := []

inductive AuthCall (δ : Type) where
  | pass (time : Nat)
  | clock
  | create (token : String) (input : AuthFlowCreate)
  | get (token : String) (m : AuthFlowMatch)
  | consume (token : String) (m : AuthFlowMatch) (action : FlowAction δ)
  | claim (assertion : String) (expiresAt : Int)
  | deleteExpired (now : Int)
  | findUser (telegramId : String)
  | validateSession (userId : Int) (sessionId : String)
  | outside (write : δ → δ)

abbrev AuthAnswer : AuthCall δ → Type
  | .pass _ | .outside _ | .deleteExpired _ => Unit
  | .clock => Int
  | .create .. | .get .. | .consume .. => Except FlowError AuthFlow
  | .claim .. => Except FlowError Unit
  | .findUser _ | .validateSession .. => Bool

def AuthCall.exec : (c : AuthCall δ) → AuthState δ → AuthState δ × AuthAnswer c
  | .pass time, s => ({ s with now := s.now + time }, ())
  | .clock, s => (s, s.now)
  | .create token input, s =>
    match commit (createAuthFlow site s.now token input) s.tables with
    | (.ok flow, tables) => ({ s with tables, created := flow :: s.created }, .ok flow)
    | (.error e, tables) => ({ s with tables }, .error e)
  | .get token m, s => (s, getAuthFlow site s.now token m s.tables.flows)
  | .consume token m action, s =>
    match commit (consumeAuthFlowWithAction site s.now token m (action.run site s.now))
        s.tables with
    | (.ok flow, tables) =>
      ({ s with
          tables
          commits := ⟨{ flow with consumedAt := none }, m, s.now⟩ :: s.commits
          claims := action.claimed ++ s.claims }, .ok flow)
    | (.error e, tables) => ({ s with tables }, .error e)
  | .claim assertion expiresAt, s =>
    match commit (claimExternalAuthAssertion site s.now authFlowPurposeTelegramAssertion assertion
        expiresAt) s.tables with
    | (.ok _, tables) =>
      ({ s with tables, claims := (assertion, expiresAt) :: s.claims }, .ok ())
    | (.error e, tables) => ({ s with tables }, .error e)
  | .deleteExpired now, s =>
    ({ s with tables := { s.tables with flows := deleteExpiredAuthFlows now s.tables.flows } }, ())
  | .findUser telegramId, s => (s, site.userByTelegramId s.tables.rest telegramId)
  | .validateSession userId sessionId, s =>
    (s, site.sessionReferenceValid s.tables.rest userId sessionId)
  | .outside write, s => ({ s with tables := { s.tables with rest := write s.tables.rest } }, ())

/-- A statement may fail, except that clocks can always be read. -/
def AuthCall.fault : (c : AuthCall δ) → Option (AuthAnswer c)
  | .pass _ | .clock => none
  | .create .. | .get .. | .consume .. => some (.error .database)
  | .claim .. => some (.error .database)
  | .deleteExpired _ | .outside _ => some ()
  | .findUser _ | .validateSession .. => some false

def authMachine : Machine (AuthCall δ) AuthAnswer (AuthState δ) where
  exec := AuthCall.exec site
  ready := fun _ _ => true
  fault := AuthCall.fault

abbrev Ceremony (δ ρ : Type) := Program (AuthCall δ) AuthAnswer ρ

def ask (c : AuthCall δ) : Ceremony δ (AuthAnswer c) := .call c .done

/-- `TelegramLogin` up to the claim, after which the session is set up. -/
def telegramLogin : Ceremony δ Unit := do
  let now ← ask .clock
  match verifyTelegramAuthorization site params now with
  | .error _ => pure ()
  | .ok telegramId =>
    match ← ask (.findUser telegramId) with
    | false => pure ()
    | true =>
      let now ← ask .clock
      match telegramAuthorizationClaim params now with
      | .error _ => pure ()
      | .ok (assertion, expiresAt) =>
        let _ ← ask (.claim assertion expiresAt)

end

def telegramBind (flowToken : String) (params : Params) : Ceremony δ Unit := do
  let now ← ask .clock
  match verifyTelegramAuthorization site params now with
  | .error _ => pure ()
  | .ok telegramId =>
    match ← ask (.get flowToken { purpose := authFlowPurposeTelegramBind }) with
    | .error _ => pure ()
    | .ok pendingFlow =>
      match ← ask (.validateSession pendingFlow.userId pendingFlow.sessionId) with
      | false => pure ()
      | true =>
        let now ← ask .clock
        match telegramAuthorizationClaim params now with
        | .error _ => pure ()
        | .ok (assertion, expiresAt) =>
          let _ ← ask (.consume flowToken
            { purpose := authFlowPurposeTelegramBind, userId := pendingFlow.userId
              sessionId := pendingFlow.sessionId }
            (.bindTelegram telegramId assertion expiresAt))

/-- The part of `cleanupAuthArtifacts` that is about flows. -/
def cleanupAuthArtifacts : Ceremony δ Unit := do
  let now ← ask .clock
  let _ ← ask (.deleteExpired now)

/-- A flow may be consumed with any match and any action on other tables. -/
inductive AuthJob (δ : Type) where
  | create (token : String) (input : AuthFlowCreate)
  | consume (token : String) (m : AuthFlowMatch)
      (action : Option (AuthFlow → δ → Except FlowError δ))
  | login (params : Params)
  | bind (flowToken : String) (params : Params)
  | cleanup
  | pass (time : Nat)
  | outside (write : δ → δ)

def AuthJob.program : AuthJob δ → Ceremony δ Unit
  | .create token input => do
    let _ ← ask (.create token input)
  | .consume token m action => do
    let _ ← ask (.consume token m (action.elim .nothing .other))
  | .login params => telegramLogin site params
  | .bind flowToken params => telegramBind site flowToken params
  | .cleanup => cleanupAuthArtifacts
  | .pass time => ask (.pass time)
  | .outside write => ask (.outside write)

end Ren2Hub.Auth
