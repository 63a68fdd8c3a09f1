import Ren2Hub.Lib.Program
import Ren2Hub.Lib.Text

namespace Ren2Hub.Auth.Session
open Lib

/-- `unset` is the empty text. -/
inductive SessionStatus where
  | unset
  | active
  | revoking
  | revoked
deriving DecidableEq, Repr

inductive SessionError where
  | invalid
  | inactive
  | refreshInvalid
  | refreshRace
  | refreshReuse
  | observationStale
  | notFound
  | duplicate

structure UserSession where
  userID : Int
  version : Int := 0
  userAuthVersion : Int
  status : SessionStatus := .unset
  refreshHash : String := ""
  previousRefreshHash : String := ""
  previousValidUntil : Int := 0
  loginMethod : String := ""
  ip : String := ""
  userAgent : String := ""
  createdAt : Int := 0
  lastActiveAt : Int := 0
  expiresAt : Int
  revokedAt : Int := 0
  revokedReason : String := ""

/-- The hook after every read of a row. -/
def UserSession.afterFind (session : UserSession) : UserSession :=
  { session with previousRefreshHash := trimSpace session.previousRefreshHash }

def userSessionCacheSchema : Int := 1

structure UserSessionCacheEntry where
  userID : Int
  version : Int
  userAuthVersion : Int
  status : SessionStatus
  loginMethod : String
  ip : String
  userAgent : String
  createdAt : Int
  lastActiveAt : Int
  expiresAt : Int
  revokedAt : Int
  revokedReason : String
  cacheSchema : Int

def UserSession.cacheEntry (session : UserSession) : UserSessionCacheEntry where
  userID := session.userID
  version := session.version
  userAuthVersion := session.userAuthVersion
  status := session.status
  loginMethod := session.loginMethod
  ip := session.ip
  userAgent := session.userAgent
  createdAt := session.createdAt
  lastActiveAt := session.lastActiveAt
  expiresAt := session.expiresAt
  revokedAt := session.revokedAt
  revokedReason := session.revokedReason
  cacheSchema := userSessionCacheSchema

def UserSessionCacheEntry.session (entry : UserSessionCacheEntry) : UserSession where
  userID := entry.userID
  version := entry.version
  userAuthVersion := entry.userAuthVersion
  status := entry.status
  loginMethod := entry.loginMethod
  ip := entry.ip
  userAgent := entry.userAgent
  createdAt := entry.createdAt
  lastActiveAt := entry.lastActiveAt
  expiresAt := entry.expiresAt
  revokedAt := entry.revokedAt
  revokedReason := entry.revokedReason

/-- How long entries may live, and the keyed hashes of refresh secrets and of the session's id. -/
structure SessionSite where
  redisKeyCacheSeconds : Int := 60
  hashRefreshSecret : String → String
  deriveNextRefreshSecret : String → String

variable (site : SessionSite)

def SessionSite.userCacheTTLSeconds : Int :=
  if site.redisKeyCacheSeconds ≤ 0 then 60 else site.redisKeyCacheSeconds

def SessionSite.ttl : Int := 1000 * site.userCacheTTLSeconds

structure UserStanding where
  enabled : Bool := true
  authVersion : Int := 1
deriving DecidableEq, Repr

/-- When a lookup started: whether a revocation had returned, and the highest version advanced to.
-/
structure Mark where
  revoked : Bool
  version : Int

/-- Clock, row and hash with the time it goes. The rest is history that no code reads: values of the
row, when it was revoked, whether a tombstone came since, copies read and entries published with
their deadlines, versions advanced to, what lookups saw and returned, the fate of refresh hashes. -/
structure SessionState where
  now : Int := 0
  row : Option UserSession := none
  hash : Option (UserSessionCacheEntry × Int) := none
  userCache : UserStanding := {}
  user : UserStanding := {}
  rows : List UserSession := []
  revokedSince : Option Int := none
  tombstoned : Bool := false
  revocationReturned : Bool := false
  snapshots : List (UserSession × Int) := []
  advances : List (Int × Int) := []
  published : List (Int × Int) := []
  versionReturned : Int := 0
  observed : List (Mark × UserSession) := []
  served : List (Mark × UserSession) := []
  exchanged : List (String × String) := []
  reused : List (String × Int) := []
  handedOut : List (String × String) := []

namespace SessionState

variable (s : SessionState)

/-- The hash before its deadline. Redis still shows it in that millisecond, which is left out. -/
def live : Option UserSessionCacheEntry :=
  match s.hash with
  | none => none
  | some (entry, expiry) => if s.now < expiry then some entry else none

def setRow (session : UserSession) : SessionState :=
  { s with row := some session, rows := session :: s.rows }

def revokeRow (session : UserSession) (now : Int) (reason : String) : SessionState :=
  { s.setRow { session with status := .revoked, revokedAt := now, revokedReason := reason } with
    revokedSince := some s.now }

variable (entry : UserSessionCacheEntry)

/-- The script of `writeUserSessionCache` takes the entry. -/
def accepts : Bool :=
  match s.live with
  | none => decide (0 ≤ entry.version)
  | some current =>
    !(entry.status = .active && (current.status = .revoking || current.status = .revoked)) &&
      decide (current.version ≤ entry.version)

def expiryOf (redisExpiration : Int) : Int :=
  if entry.status = .active then redisExpiration else s.now + redisExpiration

/-- `HSET` with `PEXPIREAT` or `PEXPIRE`; a time that is over deletes the key. -/
def store (redisExpiration : Int) : SessionState :=
  { s with
    hash := if s.expiryOf entry redisExpiration ≤ s.now then none
      else some (entry, s.expiryOf entry redisExpiration)
    published := if entry.status = .active then (entry.version, redisExpiration) :: s.published
      else s.published }

/-- A tombstone is a write of `revoked` once the row is revoked. -/
def evalScript (redisExpiration : Int) : SessionState :=
  let t := if s.accepts entry then s.store entry redisExpiration else s
  { t with tombstoned := s.tombstoned || (entry.status = .revoked && s.revokedSince.isSome) }

/-- A read of the row to be cached under a deadline, by a lookup with a mark. -/
def noteRead (session : UserSession) (deadline : Option Int) (mark : Option Mark) : SessionState :=
  if session.status = .active then
    { s with
      snapshots := (deadline.map fun d => (session, d)).toList ++ s.snapshots
      observed := (mark.map fun m => (m, session)).toList ++ s.observed }
  else s

def noteHash (mark : Mark) : SessionState :=
  if entry.status = .active then { s with observed := (mark, entry.session) :: s.observed } else s

end SessionState

section
variable (session : UserSession)

def UserSession.usable (now : Int) : Bool :=
  session.status = .active && session.revokedAt = 0 && decide (session.expiresAt > now)

/-- The row an exchange updates. -/
def UserSession.exchanges (userID : Int) (presentedHash : String) (now : Int) : Bool :=
  session.userID = userID && session.usable now && session.refreshHash = presentedHash

def UserSession.exchange (presentedHash nextHash : String) (now graceSeconds : Int) : UserSession :=
  { session with
    previousRefreshHash := presentedHash, previousValidUntil := now + graceSeconds
    refreshHash := nextHash, lastActiveAt := now }

def UserSession.advances (userID expectedSessionVersion expectedUserAuthVersion now : Int) : Bool :=
  session.userID = userID && session.status = .active && decide (session.expiresAt > now) &&
    session.version = expectedSessionVersion && session.userAuthVersion = expectedUserAuthVersion

def UserSession.advance (nextUserAuthVersion now : Int) : UserSession :=
  { session with
    version := session.version + 1, userAuthVersion := nextUserAuthVersion, lastActiveAt := now }

end

/-- Statements and scripts, each atomic. For the history only, a read has the deadline of its copy
and the mark of its lookup, the reuse update the hash presented; so have the calls from `start` on.
-/
inductive SessionCall where
  | pass (time : Nat)
  | clock
  | hGetObj (mark : Mark)
  | eval (entry : UserSessionCacheEntry) (redisExpiration : Int)
  | first (userID : Option Int) (deadline : Option Int) (mark : Option Mark)
  | count (userID version userAuthVersion now : Int)
  | insert (session : UserSession) (deadline : Int)
  | exchange (userID : Int) (presentedHash nextHash : String) (now graceSeconds : Int)
  | revokeReuse (userID now : Int) (presentedHash : String)
  | revokeCurrent (userID now : Int) (reason : String)
  | revokeActive (now : Int) (reason : String)
  | advance (userID expectedSessionVersion expectedUserAuthVersion nextUserAuthVersion now : Int)
      (deadline : Int)
  | findActive (userID now : Int)
  | revokeFound (now : Int) (reason : String)
  | getUserCache
  | getUserById
  | setUser (userCache user : UserStanding)
  | start
  | serve (mark : Mark) (session : UserSession)
  | revocationReturned
  | advanceReturned (version deadline : Int)
  | handOut (secret nextSecret : String)

abbrev SessionAnswer : SessionCall → Type
  | .clock => Int
  | .hGetObj _ => Option UserSessionCacheEntry
  | .first .. | .findActive .. | .revokeFound .. | .advance .. => Option UserSession
  | .eval .. | .count .. | .insert .. | .exchange .. | .revokeReuse .. | .revokeCurrent ..
  | .revokeActive .. => Bool
  | .getUserCache | .getUserById => UserStanding
  | .start => Mark
  | .pass _ | .setUser .. | .serve .. | .revocationReturned | .advanceReturned .. | .handOut .. =>
    Unit

def updateRow (s : SessionState) (where_ : UserSession → Bool)
    (f : UserSession → SessionState) : SessionState × Bool :=
  match s.row with
  | none => (s, false)
  | some session => if where_ session then (f session, true) else (s, false)

def SessionCall.exec : (c : SessionCall) → SessionState → SessionState × SessionAnswer c
  | .pass time, s => ({ s with now := s.now + time }, ())
  | .clock, s => (s, s.now)
  | .hGetObj mark, s =>
    match s.live with
    | none => (s, none)
    | some entry => (s.noteHash entry mark, some entry)
  | .eval entry redisExpiration, s => (s.evalScript entry redisExpiration, s.accepts entry)
  | .first userID deadline mark, s =>
    match s.row with
    | none => (s, none)
    | some session =>
      if userID.all fun id => session.userID = id then
        (s.noteRead session deadline mark, some session.afterFind)
      else (s, none)
  | .count userID version userAuthVersion now, s =>
    (s, s.row.any fun session => session.userID = userID && session.usable now &&
      session.version = version && session.userAuthVersion = userAuthVersion)
  | .insert session deadline, s =>
    match s.row with
    | some _ => (s, false)
    | none => ((s.setRow session).noteRead session (some deadline) none, true)
  | .exchange userID presentedHash nextHash now graceSeconds, s =>
    updateRow s (·.exchanges userID presentedHash now) fun session =>
      { s.setRow (session.exchange presentedHash nextHash now graceSeconds) with
        exchanged := (presentedHash, nextHash) :: s.exchanged }
  | .revokeReuse userID now presentedHash, s =>
    updateRow s (fun session => session.userID = userID && session.usable now) fun session =>
      { s.revokeRow session now "refresh_reuse" with reused := (presentedHash, now) :: s.reused }
  | .revokeCurrent userID now reason, s =>
    updateRow s (fun session => session.userID = userID && session.usable now)
      (s.revokeRow · now reason)
  | .revokeActive now reason, s =>
    updateRow s (·.status = .active) (s.revokeRow · now reason)
  | .advance userID expectedSessionVersion expectedUserAuthVersion nextUserAuthVersion now deadline,
      s =>
    match s.row with
    | none => (s, none)
    | some session =>
      if session.advances userID expectedSessionVersion expectedUserAuthVersion now then
        let next := session.advance nextUserAuthVersion now
        ({ (s.setRow next).noteRead next (some deadline) none with
            advances := (next.version, deadline) :: s.advances }, some next.afterFind)
      else (s, none)
  | .findActive userID now, s =>
    (s, (s.row.filter fun session => session.userID = userID && session.status = .active &&
      decide (session.expiresAt > now)).map UserSession.afterFind)
  | .revokeFound now reason, s =>
    match s.row with
    | none => (s, none)
    | some session =>
      if session.status = .active then (s.revokeRow session now reason, some session.afterFind)
      else (s, none)
  | .getUserCache, s => (s, s.userCache)
  | .getUserById, s => (s, s.user)
  | .setUser userCache user, s => ({ s with userCache, user }, ())
  | .start, s => (s, ⟨s.revocationReturned, s.versionReturned⟩)
  | .serve mark session, s => ({ s with served := (mark, session) :: s.served }, ())
  | .revocationReturned, s => ({ s with revocationReturned := true }, ())
  | .advanceReturned version _, s =>
    ({ s with versionReturned := max s.versionReturned version }, ())
  | .handOut secret nextSecret, s =>
    ({ s with handedOut := (secret, nextSecret) :: s.handedOut }, ())

def sessionMachine : Machine SessionCall SessionAnswer SessionState where
  exec := SessionCall.exec
  ready := fun _ _ => true
  fault := fun _ => none

abbrev Action (α : Type) := Program SessionCall SessionAnswer α

def ask (c : SessionCall) : Action (SessionAnswer c) := .call c .done

/-- `time.Now().Unix()` -/
def unixNow : Action Int := do
  let now ← ask .clock
  pure (now / 1000)

def userSessionCacheDeadline : Action Int := do
  let now ← ask .clock
  pure (now + site.ttl)

def denyExpiration (sessionTTL : Int) : Int :=
  let ttl := min sessionTTL site.ttl
  let ttl := if ttl ≤ 0 then 1000 else ttl
  if ttl ≤ 0 then 1 else ttl

def cacheExpiresAt (sessionExpiresAt cacheDeadline : Int) : Int :=
  if sessionExpiresAt < cacheDeadline then sessionExpiresAt else cacheDeadline

/-- The result is the error, if there is one. A zero deadline is none. -/
def writeUserSessionCache (entry : UserSessionCacheEntry) (cacheDeadline : Option Int) :
    Action (Option SessionError) := do
  let now ← ask .clock
  let sessionExpiresAt := 1000 * entry.expiresAt
  let sessionTTL := sessionExpiresAt - now
  if entry.status = .active then
    match cacheDeadline with
    | none => pure (some .invalid)
    | some cacheDeadline =>
      if cacheDeadline - now ≤ 0 then pure (some .observationStale)
      else if sessionTTL ≤ 0 then pure (some .inactive)
      else if cacheExpiresAt sessionExpiresAt cacheDeadline - now < 1 then
        pure (some .observationStale)
      else
        match ← ask (.eval entry (cacheExpiresAt sessionExpiresAt cacheDeadline)) with
        | false => pure (some .inactive)
        | true =>
          let completedAt ← ask .clock
          if cacheDeadline ≤ completedAt then pure (some .observationStale)
          else if sessionExpiresAt ≤ completedAt then pure (some .inactive)
          else pure none
  else
    match ← ask (.eval entry (denyExpiration site sessionTTL)) with
    | false => pure (some .inactive)
    | true => pure none

def confirmUserSessionActiveSnapshot (session : UserSession) : Action (Option SessionError) := do
  if session.userID ≤ 0 ∨ session.version ≤ 0 ∨ session.userAuthVersion ≤ 0 then
    pure (some .invalid)
  else
    let now ← unixNow
    match ← ask (.count session.userID session.version session.userAuthVersion now) with
    | true => pure none
    | false => pure (some .inactive)

def writeUserSessionDenyFence (session : UserSession) (status : SessionStatus) (now : Int)
    (reason : String) : Action (Option SessionError) :=
  writeUserSessionCache site
    { session.cacheEntry with status, revokedAt := now, revokedReason := reason } none

/-- `none` is an error that is not `ErrUserSessionInactive`. -/
def getUserSessionCache (mark : Mark) : Action (Option (Except SessionError UserSession)) := do
  match ← ask (.hGetObj mark) with
  | none => pure none
  | some entry =>
    if entry.cacheSchema ≠ userSessionCacheSchema ∨ entry.userID ≤ 0 ∨ entry.version ≤ 0 ∨
        entry.userAuthVersion ≤ 0 then pure none
    else
      let now ← unixNow
      if entry.status ≠ .active ∨ entry.revokedAt ≠ 0 ∨ entry.expiresAt ≤ now then
        pure (some (.error .inactive))
      else pure (some (.ok entry.session))

/-- `GetUserSessionCached` after a miss. -/
def getUserSessionStored (mark : Mark) : Action (Except SessionError UserSession) := do
  let cacheDeadline ← userSessionCacheDeadline site
  match ← ask (.first none (some cacheDeadline) (some mark)) with
  | none => pure (.error .notFound)
  | some session =>
    let now ← unixNow
    if ¬ session.usable now then
      let _ ← writeUserSessionCache site { session.cacheEntry with status := .revoked } none
      pure (.error .inactive)
    else
      match ← writeUserSessionCache site session.cacheEntry (some cacheDeadline) with
      | some .observationStale =>
        match ← confirmUserSessionActiveSnapshot session with
        | some e => pure (.error e)
        | none => pure (.ok session)
      | some .inactive => pure (.error .inactive)
      | _ => pure (.ok session)

def lookUpUserSession (mark : Mark) : Action (Except SessionError UserSession) := do
  match ← getUserSessionCache mark with
  | some result => pure result
  | none => getUserSessionStored site mark

def getUserSessionCached : Action (Except SessionError UserSession) := do
  let mark ← ask .start
  match ← lookUpUserSession site mark with
  | .ok session =>
    let _ ← ask (.serve mark session)
    pure (.ok session)
  | .error e => pure (.error e)

def SessionStatus.orActive : SessionStatus → SessionStatus
  | .unset => .active
  | status => status

/-- The checks and defaults of `CreateUserSession`. -/
def newUserSession (session : UserSession) (now : Int) : Except SessionError UserSession :=
  if session.userID ≤ 0 ∨ session.userAuthVersion ≤ 0 ∨ session.refreshHash = "" ∨
      session.expiresAt ≤ now then .error .invalid
  else if session.status.orActive ≠ .active ∨ session.revokedAt ≠ 0 then .error .invalid
  else
    .ok { session with
      version := if session.version ≤ 0 then 1 else session.version
      status := session.status.orActive
      lastActiveAt := if session.lastActiveAt = 0 then now else session.lastActiveAt
      createdAt := if session.createdAt = 0 then now else session.createdAt }

/-- `RefreshHash` is the hash of the secret the session is created with. -/
def createUserSession (session : UserSession) (refreshSecret : String) :
    Action (Option SessionError) := do
  let now ← unixNow
  match newUserSession { session with refreshHash := site.hashRefreshSecret refreshSecret } now with
  | .error e => pure (some e)
  | .ok session =>
    let cacheDeadline ← userSessionCacheDeadline site
    match ← ask (.insert session cacheDeadline) with
    | false => pure (some .duplicate)
    | true =>
      match ← writeUserSessionCache site session.cacheEntry (some cacheDeadline) with
      | some .observationStale => confirmUserSessionActiveSnapshot session
      | some .inactive => pure (some .inactive)
      | _ => pure none

/-- Together with a lost race the row is returned. -/
inductive Rotation where
  | rotated (session : UserSession)
  | race (session : UserSession)
  | failed (error : SessionError)

def cacheRotated (session : UserSession) (cacheDeadline : Int) : Action Rotation := do
  match ← writeUserSessionCache site session.cacheEntry (some cacheDeadline) with
  | some .observationStale =>
    match ← confirmUserSessionActiveSnapshot session with
    | some e => pure (.failed e)
    | none => pure (.rotated session)
  | some .inactive => pure (.failed .inactive)
  | _ => pure (.rotated session)

/-- The final tombstone of a revocation, whose errors are only logged. -/
def finishRevocation (session : UserSession) (now : Int) (reason : String) : Action Unit := do
  let _ ← writeUserSessionCache site
    { session.cacheEntry with status := .revoked, revokedAt := now, revokedReason := reason } none

/-- The previous hash was presented after its grace time. -/
def revokeReused (userID : Int) (presentedHash : String) (now : Int) (session : UserSession) :
    Action Rotation := do
  match ← writeUserSessionDenyFence site session .revoking now "refresh_reuse" with
  | some e => pure (.failed e)
  | none =>
    match ← ask (.revokeReuse userID now presentedHash) with
    | false => pure (.failed .inactive)
    | true =>
      finishRevocation site session now "refresh_reuse"
      let _ ← ask .revocationReturned
      pure (.failed .refreshReuse)

/-- The part of a round after the read; `again` is the next round. -/
def rotateRead (userID : Int) (presentedHash nextHash : String)
    (now graceSeconds cacheDeadline : Int) (session : UserSession) (again : Action Rotation) :
    Action Rotation := do
  if ¬ session.usable now then pure (.failed .inactive)
  else if session.refreshHash = presentedHash then
    match ← ask (.exchange userID presentedHash nextHash now graceSeconds) with
    | false => again
    | true =>
      cacheRotated site (session.exchange session.refreshHash nextHash now graceSeconds)
        cacheDeadline
  else if session.previousRefreshHash = "" ∨ session.previousRefreshHash ≠ presentedHash then
    pure (.failed .refreshInvalid)
  else if now ≤ session.previousValidUntil then pure (.race session)
  else revokeReused site userID presentedHash now session

def rotateRounds (site : SessionSite) (userID : Int) (presentedHash nextHash : String)
    (now graceSeconds : Int) : Nat → Action Rotation
  | 0 => pure (.failed .refreshInvalid)
  | rounds + 1 => do
    let cacheDeadline ← userSessionCacheDeadline site
    match ← ask (.first (some userID) (some cacheDeadline) none) with
    | none => pure (.failed .notFound)
    | some session =>
      rotateRead site userID presentedHash nextHash now graceSeconds cacheDeadline session
        (rotateRounds site userID presentedHash nextHash now graceSeconds rounds)

/-- `grace` is in milliseconds. -/
def rotateUserSessionRefresh (userID : Int) (presentedHash nextHash : String) (now grace : Int) :
    Action Rotation := do
  if userID ≤ 0 ∨ presentedHash = "" ∨ nextHash = "" ∨ presentedHash = nextHash then
    pure (.failed .invalid)
  else
    let clock ← unixNow
    let now := if now ≤ 0 then clock else now
    let graceSeconds := Int.tdiv grace 1000
    if graceSeconds < 0 then pure (.failed .invalid)
    else rotateRounds site userID presentedHash nextHash now graceSeconds 3

def revokeUserSession (userID : Int) (reason : String) : Action (Except SessionError Bool) := do
  if userID ≤ 0 then pure (.error .invalid)
  else
    let now ← unixNow
    match ← ask (.first (some userID) none none) with
    | none => pure (.ok false)
    | some candidate =>
      if ¬ candidate.usable now then pure (.ok false)
      else
        match ← writeUserSessionDenyFence site candidate .revoking now reason with
        | some e => pure (.error e)
        | none =>
          match ← ask (.revokeCurrent userID now reason) with
          | false => pure (.ok false)
          | true =>
            finishRevocation site candidate now reason
            let _ ← ask .revocationReturned
            pure (.ok true)

/-- One transaction, without a row lock on SQLite; here other statements may come in between. -/
def revokeUserSessionByRefreshHash (presentedHash reason : String) :
    Action (Except SessionError Bool) := do
  if presentedHash = "" then pure (.error .invalid)
  else
    let now ← unixNow
    match ← ask (.first none none none) with
    | none => pure (.ok false)
    | some session =>
      if ¬ session.usable now then pure (.ok false)
      else if ¬ (session.refreshHash = presentedHash ∨ session.previousRefreshHash ≠ "" ∧
          now ≤ session.previousValidUntil ∧ session.previousRefreshHash = presentedHash) then
        pure (.ok false)
      else
        match ← writeUserSessionDenyFence site session .revoking now reason with
        | some e => pure (.error e)
        | none =>
          match ← ask (.revokeActive now reason) with
          | false => pure (.ok false)
          | true =>
            finishRevocation site session now reason
            let _ ← ask .revocationReturned
            pure (.ok true)

/-- What else a batch of `revokeUserSessions` finds; with too many this session has to wait. -/
inductive Round where
  | alone
  | beside
  | crowded
deriving DecidableEq, Repr

/-- The loop, as far as this session goes. `mine` is whether the call has revoked it. -/
def revokeRounds (site : SessionSite) (userID now : Int) (reason : String) (mine : Bool) :
    List Round → Action Unit
  | [] => pure ()
  | .crowded :: rounds => revokeRounds site userID now reason mine rounds
  | round :: rounds => do
    match ← ask (.findActive userID now) with
    | none =>
      if round = .alone then
        if mine then
          let _ ← ask .revocationReturned
      else revokeRounds site userID now reason mine rounds
    | some candidate =>
      match ← writeUserSessionDenyFence site candidate .revoking now reason with
      | some _ => pure ()
      | none =>
        match ← ask (.revokeFound now reason) with
        | none => revokeRounds site userID now reason mine rounds
        | some session =>
          finishRevocation site session now reason
          revokeRounds site userID now reason true rounds

/-- For a call that does not exclude this session. -/
def revokeUserSessions (userID : Int) (reason : String) (rounds : List Round) : Action Unit := do
  if userID ≤ 0 then pure ()
  else
    let now ← unixNow
    revokeRounds site userID now reason false rounds

def advanceUserSessionAuthVersion
    (userID expectedSessionVersion expectedUserAuthVersion nextUserAuthVersion : Int) :
    Action (Except SessionError UserSession) := do
  if userID ≤ 0 ∨ expectedSessionVersion ≤ 0 ∨ expectedUserAuthVersion ≤ 0 ∨
      nextUserAuthVersion ≤ expectedUserAuthVersion then pure (.error .invalid)
  else
    let cacheDeadline ← userSessionCacheDeadline site
    let now ← unixNow
    match ← ask (.advance userID expectedSessionVersion expectedUserAuthVersion nextUserAuthVersion
        now cacheDeadline) with
    | none => pure (.error .inactive)
    | some session =>
      match ← writeUserSessionCache site session.cacheEntry (some cacheDeadline) with
      | none =>
        let _ ← ask (.advanceReturned session.version cacheDeadline)
        pure (.ok session)
      | some .observationStale =>
        match ← confirmUserSessionActiveSnapshot session with
        | some e => pure (.error e)
        | none =>
          let _ ← ask (.advanceReturned session.version cacheDeadline)
          pure (.ok session)
      | some e => pure (.error e)

inductive RefreshError where
  | loginSessionRevoked
  | loginSessionMismatch
  | refreshTokenInvalid
  | refreshRace
  | session (error : SessionError)
  | issue

def refreshReplayWindow : Int := 30 * 1000

/-- `issueAuthBundle`, which gives out the next secret unless no access token can be signed. -/
def issueAuthBundle (issues : Bool) (secret nextSecret : String) :
    Action (Except RefreshError String) := do
  if issues then
    let _ ← ask (.handOut secret nextSecret)
    pure (.ok nextSecret)
  else pure (.error .issue)

/-- For a well-formed token of this session; `expected` is whether the request expects it. -/
def refreshLoginSession (secret : String) (expected issues : Bool) :
    Action (Except RefreshError String) := do
  if ¬ expected then pure (.error .loginSessionMismatch)
  else
    match ← getUserSessionCached site with
    | .error .inactive => pure (.error .loginSessionRevoked)
    | .error _ => pure (.error .refreshTokenInvalid)
    | .ok session =>
      let now ← unixNow
      if ¬ session.usable now then pure (.error .loginSessionRevoked)
      else
        let userCache ← ask .getUserCache
        let currentUser ← ask .getUserById
        if userCache ≠ ⟨true, session.userAuthVersion⟩ ∨
            currentUser ≠ ⟨true, session.userAuthVersion⟩ then
          let _ ← revokeUserSession site session.userID "user_security_changed"
          pure (.error .loginSessionRevoked)
        else
          let nextSecret := site.deriveNextRefreshSecret secret
          let now ← unixNow
          match ← rotateUserSessionRefresh site session.userID (site.hashRefreshSecret secret)
              (site.hashRefreshSecret nextSecret) now refreshReplayWindow with
          | .rotated _ => issueAuthBundle issues secret nextSecret
          | .race rotated =>
            if site.hashRefreshSecret nextSecret = rotated.refreshHash then
              issueAuthBundle issues secret nextSecret
            else pure (.error .refreshRace)
          | .failed .refreshReuse => pure (.error .loginSessionRevoked)
          | .failed .refreshInvalid => pure (.error .refreshTokenInvalid)
          | .failed e => pure (.error (.session e))

inductive SessionJob where
  | pass (time : Nat)
  | setUser (userCache user : UserStanding)
  | create (session : UserSession) (refreshSecret : String)
  | lookup
  | rotate (userID : Int) (secret : String) (now grace : Int)
  | refresh (secret : String) (expected issues : Bool)
  | revoke (userID : Int) (reason : String)
  | revokeByRefreshHash (presentedHash reason : String)
  | revokeAll (userID : Int) (reason : String) (rounds : List Round)
  | advance (userID expectedSessionVersion expectedUserAuthVersion nextUserAuthVersion : Int)

def SessionJob.program : SessionJob → Action Unit
  | .pass time => ask (.pass time)
  | .setUser userCache user => ask (.setUser userCache user)
  | .create session refreshSecret => do
    let _ ← createUserSession site session refreshSecret
  | .lookup => do
    let _ ← getUserSessionCached site
  | .rotate userID secret now grace => do
    let _ ← rotateUserSessionRefresh site userID (site.hashRefreshSecret secret)
      (site.hashRefreshSecret (site.deriveNextRefreshSecret secret)) now grace
  | .refresh secret expected issues => do
    let _ ← refreshLoginSession site secret expected issues
  | .revoke userID reason => do
    let _ ← revokeUserSession site userID reason
  | .revokeByRefreshHash presentedHash reason => do
    let _ ← revokeUserSessionByRefreshHash site presentedHash reason
  | .revokeAll userID reason rounds => revokeUserSessions site userID reason rounds
  | .advance userID expectedSessionVersion expectedUserAuthVersion nextUserAuthVersion => do
    let _ ← advanceUserSessionAuthVersion site userID expectedSessionVersion
      expectedUserAuthVersion nextUserAuthVersion

def beginning (now : Int) (jobs : List SessionJob) :
    Config SessionCall SessionAnswer SessionState :=
  ⟨{ now }, jobs.map (SessionJob.program site)⟩

end Ren2Hub.Auth.Session
