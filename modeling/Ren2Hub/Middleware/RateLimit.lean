import Mathlib.Data.List.Basic

namespace Ren2Hub.Middleware

/-- For each key the times of the last requests let through, the oldest first. -/
structure InMemoryRateLimiter where
  store : String → Option (List Int) := fun _ => none
  expirationDuration : Int

/-- Whole seconds of a duration. -/
def seconds (duration : Int) : Int := duration.tdiv 1000000000

namespace InMemoryRateLimiter

/-- The first caller decides when keys expire. -/
def init (l : Option InMemoryRateLimiter) (expirationDuration : Int) : InMemoryRateLimiter :=
  l.getD { expirationDuration }

variable (l : InMemoryRateLimiter)

/-- One pass of `clearExpiredItems`; without a duration it never runs. -/
def clearExpiredItems (now : Int) : InMemoryRateLimiter :=
  if l.expirationDuration > 0 then
    { l with store := fun key => (l.store key).filter fun queue =>
        ¬ (queue = [] ∨ now - queue.getLastD 0 > seconds l.expirationDuration) }
  else l

def put (key : String) (queue : List Int) : InMemoryRateLimiter :=
  { l with store := Function.update l.store key (some queue) }

/-- A queue that is full loses its oldest entry, if that is old enough. -/
def request (key : String) (maxRequestNum : Nat) (duration now : Int) :
    Bool × InMemoryRateLimiter :=
  match l.store key with
  | some queue =>
    if queue.length < maxRequestNum then (true, l.put key (queue ++ [now]))
    -- a queue in the store is never empty
    else if now - queue.headD 0 ≥ duration then (true, l.put key (queue.tail ++ [now]))
    else (false, l)
  | none => (true, l.put key [now])

end InMemoryRateLimiter

structure Limit where
  maxRequestNum : Nat
  duration : Int

inductive LimiterEvent where
  | request (key : String) (now : Int)
  | clearExpiredItems (now : Int)

def LimiterEvent.now : LimiterEvent → Int
  | .request _ now | .clearExpiredItems now => now

/-- The limiter with the times of all requests it let through, the newest first. -/
structure LimiterRun where
  limiter : InMemoryRateLimiter
  clock : Int
  admitted : String → List Int := fun _ => []

def LimiterRun.on (limits : String → Limit) (r : LimiterRun) : LimiterEvent → LimiterRun
  | .clearExpiredItems now => { r with limiter := r.limiter.clearExpiredItems now, clock := now }
  | .request key now =>
    let answer := r.limiter.request key (limits key).maxRequestNum (limits key).duration now
    { limiter := answer.2
      clock := now
      admitted := if answer.1 then Function.update r.admitted key (now :: r.admitted key)
        else r.admitted }

def LimiterRun.run (limits : String → Limit) (r : LimiterRun) (events : List LimiterEvent) :
    LimiterRun := events.foldl (LimiterRun.on limits) r

end Ren2Hub.Middleware
