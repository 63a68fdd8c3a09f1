import Ren2Hub.Billing.QuotaCache
import Ren2Hub.Billing.TokenEdits

namespace Ren2Hub.Tokens
open Lib Billing.QuotaCache

def tokenCacheFenceSeconds : Nat := 10

def fenceTime : Nat := tokenCacheFenceSeconds * 1000

/-- The hash as it was published, with what the quota scripts made of its quotas. -/
structure TokenHash where
  token : Token
  expiresAt : Nat

/-- What decides whether and for what a token is accepted, apart from its balance. -/
structure Policy where
  status : Int
  expiredTime : Int
  modelLimitsEnabled : Bool
  modelLimits : String
  allowIps : String
deriving DecidableEq, Repr

def Token.policy (t : Token) : Policy :=
  ⟨t.status, t.expiredTime, t.modelLimitsEnabled, t.modelLimits, t.allowIps.getD ""⟩

/-- The row and its keys in Redis. `history` and `fences` are not in the source: what the row said
after each mutation, nothing once it is deleted, and when its fence was set, the newest first. -/
structure TokenStore where
  now : Nat := 0
  cacheSeconds : Int := 60
  row : Token
  deleted : Bool := false
  fenceUntil : Nat := 0
  hash : Option TokenHash := none
  history : List (Option Policy)
  fences : List Nat := []

namespace TokenStore

variable (s : TokenStore)

def tokenCacheTTLSeconds : Nat :=
  if s.cacheSeconds ≤ 0 then 60 else s.cacheSeconds.toNat

/-- Keys are gone at their deadline. Redis still shows them in that millisecond. -/
def fenced : Bool := s.now < s.fenceUntil

def cached : Option TokenHash := s.hash.filter fun h => s.now < h.expiresAt

def expiry : Nat := s.now + s.tokenCacheTTLSeconds * 1000

/-- An empty list of addresses is no list when it is read back. -/
def hashed (t : Token) : Token :=
  { t with allowIps := if t.allowIps.getD "" = "" then none else t.allowIps }

def cacheInitToken (token : Token) : TokenStore :=
  if s.fenced then s
  else
    match s.cached with
    | some h => { s with hash := some { h with expiresAt := s.expiry } }
    | none => { s with hash := some ⟨hashed token, s.expiry⟩ }

/-- A hash without an id is incomplete. -/
def cacheGetTokenByKey : Option Token :=
  match s.cached with
  | some h => if h.token.id = 0 then none else some { h.token with key := s.row.key }
  | none => none

def tokenQuotaReserveScript (amount : Int) (id : Nat) (time : Int) :
    TokenStore × CacheQuotaResult :=
  if s.fenced then (s, .fenced)
  else
    match s.cached with
    | none => (s, .miss)
    | some h =>
      if h.token.id ≠ id then (s, .miss)
      else if h.token.remainQuota < amount then (s, .insufficient)
      else ({ s with hash := some { h with token := h.token.addQuota (-amount) time } }, .ok)

def tokenQuotaDeltaScript (delta : Int) (id : Nat) (time : Int) : TokenStore × CacheQuotaResult :=
  if s.fenced then (s, .fenced)
  else
    match s.cached with
    | none => (s, .miss)
    | some h =>
      if h.token.id ≠ id then (s, .miss)
      else ({ s with hash := some { h with token := h.token.addQuota delta time } }, .ok)

def policy : Option Policy := if s.deleted then none else some s.row.policy

end TokenStore

inductive Mutation where
  | update (token : Token)
  | selectUpdate (token : Token)
  | delete
deriving DecidableEq, Repr

/-- The statement on the row; a deleted row is not found. -/
def Mutation.write (m : Mutation) (s : TokenStore) : TokenStore :=
  if s.deleted then s
  else
    match m with
    | .update token => { s with row := token.update s.row }
    | .selectUpdate token => { s with row := token.selectUpdate s.row }
    | .delete => { s with deleted := true }

def Mutation.commit (m : Mutation) (fencedAt : Nat) (s : TokenStore) : TokenStore :=
  let s := m.write s
  { s with history := s.policy :: s.history, fences := fencedAt :: s.fences }

/-- `since` is the length of the history when a reader started, `readAt` how many mutations had
written when it read. -/
inductive Task where
  | finding
  | fencing (m : Mutation)
  | clearing (m : Mutation) (fencedAt : Nat)
  | writing (m : Mutation) (fencedAt : Nat)
  | lookingUp (since : Nat)
  | reading (since : Nat)
  | publishing (token : Token) (since readAt : Nat)
  | returned (token : Option Token) (since : Nat)
  | done
deriving DecidableEq, Repr

def Task.step : Task → TokenStore → TokenStore × Task
  -- `BatchDeleteTokens` finds its tokens first
  | .finding, s => (s, if s.deleted then .done else .fencing .delete)
  | .fencing m, s => ({ s with fenceUntil := s.now + fenceTime }, .clearing m s.now)
  | .clearing m fencedAt, s => ({ s with hash := none }, .writing m fencedAt)
  | .writing m fencedAt, s => (m.commit fencedAt s, .done)
  | .lookingUp since, s =>
    match s.cacheGetTokenByKey with
    | some token => (s, .returned (some token) since)
    | none => (s, .reading since)
  | .reading since, s =>
    if s.deleted then (s, .returned none since) else (s, .publishing s.row since s.fences.length)
  | .publishing token since _, s => (s.cacheInitToken token, .returned (some token) since)
  | .returned token since, s => (s, .returned token since)
  | .done, s => (s, .done)

abbrev TokenWorld := Crew TokenStore Task

inductive TokenEvent where
  | mutate (m : Mutation)
  | batchDeleteTokens
  | getTokenByKey (fromDB : Bool)
  | step (i : Nat)
  | reserve (amount : Int) (id : Nat) (time : Int)
  | delta (delta : Int) (id : Nat) (time : Int)
  | quotaRow (delta time : Int)
  | evict
  | tick (d : Nat)

def TokenWorld.on (w : TokenWorld) : TokenEvent → TokenWorld
  | .mutate m => Crew.join w (.fencing m)
  | .batchDeleteTokens => Crew.join w .finding
  | .getTokenByKey fromDB =>
    Crew.join w (if fromDB then .reading w.state.history.length
      else .lookingUp w.state.history.length)
  | .step i => Crew.step Task.step w i
  | .reserve amount id time =>
    { w with state := (w.state.tokenQuotaReserveScript amount id time).1 }
  | .delta delta id time => { w with state := (w.state.tokenQuotaDeltaScript delta id time).1 }
  | .quotaRow delta time =>
    { w with state := { w.state with row := w.state.row.addQuota delta time } }
  | .evict => { w with state := { w.state with hash := none } }
  | .tick d => { w with state := { w.state with now := w.state.now + d } }

end Ren2Hub.Tokens
