import Ren2Hub.Lib.Crew
import Ren2Hub.Lib.Spelling

namespace Ren2Hub.TwoFactor
open Lib

def backupCodeLength : Nat := 8

/-- In seconds. -/
def lockoutDuration : Nat := 300

def second : Nat := 1000000000

/-- What the one-time codes and the hashes of the backup codes accept. -/
structure TwoFASite where
  validate : (passcode secret : String) → (now : Nat) → Bool
  validatePasswordAndHash : (password hash : String) → Bool
  maxFailAttempts : Nat := 5

def validateTOTPCode (site : TwoFASite) (secret code : String) (now : Nat) : Bool :=
  let cleanCode := without ' ' code
  if cleanCode.utf8ByteSize ≠ 6 then false else site.validate cleanCode secret now

/-- `ValidateBackupCode` of the package `common`, which looks at the spelling only. -/
def validateBackupCodeFormat (code : String) : Bool :=
  let cleanCode := upper (without '-' code)
  if cleanCode.utf8ByteSize ≠ backupCodeLength then false
  else cleanCode.toList.all fun c => ('A' ≤ c && c ≤ 'Z') || ('0' ≤ c && c ≤ '9')

def normalizeBackupCode (code : String) : String :=
  let cleanCode := upper (without '-' code)
  if cleanCode.utf8ByteSize = backupCodeLength then
    String.ofList (cleanCode.toList.take 4 ++ '-' :: cleanCode.toList.drop 4)
  else code

structure TwoFABackupCode where
  id : Nat
  codeHash : String
  isUsed : Bool := false
deriving DecidableEq, Repr

structure TwoFA where
  secret : String
  failedAttempts : Nat := 0
  lockedUntil : Option Nat := none
  lastUsedAt : Option Nat := none
deriving DecidableEq, Repr

def TwoFA.isLocked (t : TwoFA) (now : Nat) : Bool := t.lockedUntil.any (now < ·)

/-- A wrong code that was compared with the factor: when, and the lock that stood in
the row. -/
structure Evaluation where
  time : Nat
  lockedUntil : Option Nat
deriving DecidableEq, Repr

/-- `evaluations` is not in the source: the wrong codes that were compared, the newest first. -/
structure TwoFAStore where
  now : Nat := 0
  row : TwoFA
  backupCodes : List TwoFABackupCode := []
  evaluations : List Evaluation := []

namespace TwoFAStore

variable (s : TwoFAStore)

def updateUsageState (t : TwoFA) : TwoFAStore :=
  { s with row := { s.row with
      failedAttempts := t.failedAttempts
      lockedUntil := t.lockedUntil
      lastUsedAt := t.lastUsedAt } }

def unused : List TwoFABackupCode := s.backupCodes.filter (!·.isUsed)

/-- The conditional update of a backup code, and whether it found the code unused. -/
def useBackupCode (id : Nat) : TwoFAStore × Bool :=
  ({ s with backupCodes := s.backupCodes.map fun b =>
      if b.id = id && !b.isUsed then { b with isUsed := true } else b },
    s.backupCodes.any fun b => b.id = id && !b.isUsed)

def noteWrong : TwoFAStore :=
  { s with evaluations := ⟨s.now, s.row.lockedUntil⟩ :: s.evaluations }

def nextFailure (site : TwoFASite) (current : TwoFA) (now : Nat) : Nat × Option Nat :=
  let nextFailedAttempts := current.failedAttempts + 1
  (nextFailedAttempts,
    if site.maxFailAttempts ≤ nextFailedAttempts then some (now + lockoutDuration * second)
    else current.lockedUntil)

/-- The update of the failures finds the row as it was read, and not locked. -/
def swapFinds (current : TwoFA) (now : Nat) : Bool :=
  s.row.failedAttempts = current.failedAttempts && s.row.lockedUntil.all (· ≤ now)

end TwoFAStore

inductive Guess where
  | totp (code : String)
  | backup (code : String)
deriving DecidableEq, Repr

def maxUpdateRetries : Nat := 5

/-- `t` is the row as it was loaded; `tries` counts the updates of the failures that are left. -/
inductive Attempt where
  | loading (guess : Guess)
  | checking (t : TwoFA) (guess : Guess)
  | validating (t : TwoFA) (guess : Guess)
  | comparing (t : TwoFA) (code : String) (codes : List TwoFABackupCode)
  | spending (t : TwoFA) (id : Nat)
  | reading (t : TwoFA) (tries : Nat)
  | deciding (t current : TwoFA) (tries : Nat)
  | swapping (t current : TwoFA) (now tries : Nat)
  | resetting (t : TwoFA)
  | returned (valid : Option Bool)
deriving DecidableEq, Repr

/-- Where a wrong code leads: `IncrementFailedAttempts`. -/
def Attempt.increment (t : TwoFA) : Attempt := .reading t maxUpdateRetries

/-- Where a right code leads. -/
def Attempt.reset (t : TwoFA) (now : Nat) : Attempt :=
  .resetting { t with failedAttempts := 0, lockedUntil := none, lastUsedAt := some now }

/-- `ValidateTOTPAndUpdateUsage` and `ValidateBackupCodeAndUpdateUsage`, after the row
was loaded. -/
def Attempt.step (site : TwoFASite) : Attempt → TwoFAStore → TwoFAStore × Attempt
  | .loading guess, s => (s, .checking s.row guess)
  | .checking t guess, s =>
    (s, if t.isLocked s.now then .returned none else .validating t guess)
  | .validating t (.totp code), s =>
    if validateTOTPCode site t.secret code s.now then (s, .reset t s.now)
    else (s.noteWrong, .increment t)
  | .validating t (.backup code), s =>
    if validateBackupCodeFormat code then (s, .comparing t (normalizeBackupCode code) s.unused)
    else (s, .returned none)
  | .comparing t code codes, s =>
    match codes.find? fun b => site.validatePasswordAndHash code b.codeHash with
    | some b => (s, .spending t b.id)
    | none => (s.noteWrong, .increment t)
  | .spending t id, s =>
    let (s', found) := s.useBackupCode id
    if found then (s', .reset t s.now) else (s'.noteWrong, .increment t)
  | .reading _ 0, s => (s, .returned (some false))
  | .reading t (tries + 1), s => (s, .deciding t s.row tries)
  | .deciding t current tries, s =>
    (s, if current.isLocked s.now then .returned (some false)
      else .swapping t current s.now tries)
  | .swapping t current now tries, s =>
    if s.swapFinds current now then
      let next := TwoFAStore.nextFailure site current now
      ({ s with row := { s.row with failedAttempts := next.1, lockedUntil := next.2 } },
        .returned (some false))
    else (s, .reading t tries)
  | .resetting t, s => (s.updateUsageState t, .returned (some true))
  | .returned valid, s => (s, .returned valid)

abbrev TwoFAWorld := Crew TwoFAStore Attempt

inductive TwoFAEvent where
  | attempt (guess : Guess)
  | step (i : Nat)
  | tick (d : Nat)

def TwoFAWorld.on (site : TwoFASite) (w : TwoFAWorld) : TwoFAEvent → TwoFAWorld
  | .attempt guess => Crew.join w (.loading guess)
  | .step i => Crew.step (Attempt.step site) w i
  | .tick d => { w with state := { w.state with now := w.state.now + d } }

end Ren2Hub.TwoFactor
