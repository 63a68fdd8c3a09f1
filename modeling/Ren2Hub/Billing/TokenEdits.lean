import Ren2Hub.Lib.Crew

namespace Ren2Hub.Tokens
open Lib

structure Token where
  id : Nat
  userId : Nat
  key : String
  status : Int
  name : String := ""
  accessedTime : Int := 0
  expiredTime : Int := -1
  remainQuota : Int := 0
  unlimitedQuota : Bool := false
  modelLimitsEnabled : Bool := false
  modelLimits : String := ""
  allowIps : Option String := none
  usedQuota : Int := 0
deriving DecidableEq, Repr

def statusEnabled : Int := 1

def statusDisabled : Int := 2

def statusExpired : Int := 3

def statusExhausted : Int := 4

/-- The columns `Token.Update` writes. -/
def Token.update (token row : Token) : Token :=
  { row with
    name := token.name
    status := token.status
    expiredTime := token.expiredTime
    remainQuota := token.remainQuota
    unlimitedQuota := token.unlimitedQuota
    modelLimitsEnabled := token.modelLimitsEnabled
    modelLimits := token.modelLimits
    allowIps := token.allowIps }

/-- The columns `Token.SelectUpdate` writes. -/
def Token.selectUpdate (token row : Token) : Token :=
  { row with accessedTime := token.accessedTime, status := token.status }

/-- A relative update of the balance, `delta` to the quota that remains. -/
def Token.addQuota (row : Token) (delta now : Int) : Token :=
  { row with
    remainQuota := row.remainQuota + delta
    usedQuota := row.usedQuota - delta
    accessedTime := now }

def increaseTokenQuota (quota now : Int) (row : Token) : Token :=
  if quota < 0 then row else row.addQuota quota now

def decreaseTokenQuota (quota now : Int) (row : Token) : Token :=
  if quota < 0 then row else row.addQuota (-quota) now

def reserveTokenQuotaDB (quota now : Int) (row : Token) : Bool × Token :=
  if row.remainQuota ≥ quota then (true, row.addQuota (-quota) now) else (false, row)

/-- Whether the quota was reserved; an error counts as not. -/
def tryReserveTokenQuota (quota : Int) (unlimited : Bool) (now : Int) (row : Token) :
    Bool × Token :=
  if quota < 0 then (false, row)
  else if quota = 0 then (true, row)
  else if unlimited then (true, decreaseTokenQuota quota now row)
  else reserveTokenQuotaDB quota now row

structure UpdateRequest where
  statusOnly : Bool
  token : Token

inductive UpdateError where
  | nameTooLong
  | quotaNegative
  | quotaExceedMax
  | expiredCannotEnable
  | exhaustedCannotEnable

def quotaPerUnit : Int := 500 * 1000

/-- Of a whole number: clamped to 32 bits. -/
def quotaFromFloat (value : Int) : Int :=
  if value ≥ 2147483647 then 2147483647
  else if value ≤ -2147483648 then -2147483648
  else value

def maxQuotaValue : Int := quotaFromFloat (1000000000 * quotaPerUnit)

/-- What `UpdateToken` checks before it reads the row. -/
def UpdateRequest.check (q : UpdateRequest) : Option UpdateError :=
  if q.token.name.utf8ByteSize > 50 then some .nameTooLong
  else if q.token.unlimitedQuota then none
  else if q.token.remainQuota < 0 then some .quotaNegative
  else if q.token.remainQuota > maxQuotaValue then some .quotaExceedMax
  else none

/-- The token `UpdateToken` goes on to write, from the row it has read. -/
def UpdateRequest.edit (q : UpdateRequest) (now : Int) (cleanToken : Token) :
    Except UpdateError Token :=
  if q.token.status = statusEnabled ∧ cleanToken.status = statusExpired ∧
      cleanToken.expiredTime ≤ now ∧ cleanToken.expiredTime ≠ -1 then .error .expiredCannotEnable
  else if q.token.status = statusEnabled ∧ cleanToken.status = statusExhausted ∧
      cleanToken.remainQuota ≤ 0 ∧ cleanToken.unlimitedQuota = false then
    .error .exhaustedCannotEnable
  else if q.statusOnly then .ok { cleanToken with status := q.token.status }
  else
    .ok { cleanToken with
      name := q.token.name
      expiredTime := q.token.expiredTime
      remainQuota := q.token.remainQuota
      unlimitedQuota := q.token.unlimitedQuota
      modelLimitsEnabled := q.token.modelLimitsEnabled
      modelLimits := q.token.modelLimits
      allowIps := q.token.allowIps }

/-- What `ValidateUserToken` writes when the row it has read is expired or used up. -/
def validateUserToken (now : Int) (token : Token) : Option Token :=
  if token.status ≠ statusEnabled then none
  else if token.expiredTime ≠ -1 ∧ token.expiredTime < now then
    some { token with status := statusExpired }
  else if token.unlimitedQuota = false ∧ token.remainQuota ≤ 0 then
    some { token with status := statusExhausted }
  else none

structure Ledger where
  row : Token
  net : Int := 0

inductive Edit where
  | reading (q : UpdateRequest)
  | updating (token : Token)
  | validating
  | marking (token : Token)
  | done

def Edit.step (now : Int) : Edit → Ledger → Ledger × Edit
  | .reading q, s =>
    match q.edit now s.row with
    | .ok token => (s, .updating token)
    | .error _ => (s, .done)
  | .updating token, s => ({ s with row := token.update s.row }, .done)
  | .validating, s =>
    match validateUserToken now s.row with
    | some token => (s, .marking token)
    | none => (s, .done)
  | .marking token, s => ({ s with row := token.selectUpdate s.row }, .done)
  | .done, s => (s, .done)

abbrev Office := Crew Ledger Edit

inductive EditEvent where
  | updateToken (q : UpdateRequest)
  | validateUserToken
  | step (i : Nat) (now : Int)
  | increase (quota now : Int)
  | decrease (quota now : Int)
  | reserve (quota : Int) (unlimited : Bool) (now : Int)

def Office.on (w : Office) : EditEvent → Office
  | .updateToken q => if q.check = none then Crew.join w (.reading q) else w
  | .validateUserToken => Crew.join w .validating
  | .step i now => Crew.step (Edit.step now) w i
  | .increase quota now =>
    { w with state :=
      { row := increaseTokenQuota quota now w.state.row
        net := w.state.net + if quota < 0 then 0 else quota } }
  | .decrease quota now =>
    { w with state :=
      { row := decreaseTokenQuota quota now w.state.row
        net := w.state.net - if quota < 0 then 0 else quota } }
  | .reserve quota unlimited now =>
    let r := tryReserveTokenQuota quota unlimited now w.state.row
    { w with state := { row := r.2, net := w.state.net - if r.1 then quota else 0 } }

end Ren2Hub.Tokens
