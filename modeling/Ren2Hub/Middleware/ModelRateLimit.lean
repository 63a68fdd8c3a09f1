import Ren2Hub.Middleware.RateLimit

namespace Ren2Hub.Middleware

structure RedisList where
  values : List Int
  expiresAt : Option Int := none

structure Redis where
  lists : String → Option RedisList := fun _ => none

namespace Redis

variable (rdb : Redis)

variable (key : String)

def put (entry : Option RedisList) : Redis :=
  { rdb with lists := Function.update rdb.lists key entry }

/-- A key is there until its time is over. -/
def entry (now : Int) : Option RedisList :=
  (rdb.lists key).filter fun l => l.expiresAt.all fun e => now ≤ e

def list (now : Int) : List Int :=
  ((rdb.entry key now).map RedisList.values).getD []

def lPush (value now : Int) : Redis :=
  rdb.put key <| some <| match rdb.entry key now with
    | some l => { l with values := value :: l.values }
    | none => { values := [value] }

/-- `LTRIM key 0 (n - 1)`. -/
def lTrim (n : Nat) (now : Int) : Redis :=
  rdb.put key ((rdb.entry key now).map fun l => { l with values := l.values.take n })

def expire (ttl now : Int) : Redis :=
  rdb.put key <| if 0 < ttl then
      (rdb.entry key now).map fun l => { l with expiresAt := some (now + ttl) }
    else none

end Redis

structure ModelLimits where
  durationMinutes : Nat
  totalMaxCount : Nat
  successMaxCount : Nat

variable (m : ModelLimits)

/-- In seconds. -/
def ModelLimits.duration : Int := m.durationMinutes * 60

/-- A request with the status of its response and when it is written. `totalAllowed` is the answer
of the token bucket. -/
structure ModelRequest where
  userId : Nat
  now : Int
  doneAt : Int
  status : Int
  totalAllowed : Bool := true

inductive Verdict where
  | next
  | tooManyRequests (message : String)

def Verdict.passes : Verdict → Bool
  | .next => true
  | .tooManyRequests _ => false

def modelRequestRateLimitCountMark : String := "MRRL"

def modelRequestRateLimitSuccessCountMark : String := "MRRLS"

def checkRedisRateLimit (rdb : Redis) (key : String) (maxCount : Nat) (duration now : Int) :
    Bool × Redis :=
  if maxCount = 0 then (true, rdb)
  else if (rdb.list key now).length < maxCount then (true, rdb)
  else if (now - (rdb.list key now).getLastD 0).tdiv 1000 < duration then
    (false, rdb.expire key (m.durationMinutes * 60000) now)
  else (true, rdb)

def recordRedisRequest (rdb : Redis) (key : String) (maxCount : Nat) (now : Int) : Redis :=
  if maxCount = 0 then rdb
  else (((rdb.lPush key now now).lTrim key maxCount now).expire key (m.durationMinutes * 60000) now)

def redisSuccessKey (userId : Nat) : String :=
  "rateLimit:" ++ modelRequestRateLimitSuccessCountMark ++ ":" ++ userId.repr

def redisRateLimitHandler (rdb : Redis) (q : ModelRequest) : Verdict × Redis :=
  let successKey := redisSuccessKey q.userId
  let check := checkRedisRateLimit m rdb successKey m.successMaxCount m.duration q.now
  if check.1 = false then
    (.tooManyRequests ("您已达到请求数限制：" ++ m.durationMinutes.repr ++ "分钟内最多请求" ++
      m.successMaxCount.repr ++ "次"), check.2)
  -- the handler goes on after this abort, but no handler runs and the status is 429
  else if 0 < m.totalMaxCount ∧ q.totalAllowed = false then
    (.tooManyRequests ("您已达到总请求数限制：" ++ m.durationMinutes.repr ++ "分钟内最多请求" ++
      m.totalMaxCount.repr ++ "次，包括失败次数，请检查您的请求是否正确"), check.2)
  else
    (.next, if q.status < 400 then
        recordRedisRequest m check.2 successKey m.successMaxCount q.doneAt
      else check.2)

def memorySuccessKey (userId : Nat) : String :=
  modelRequestRateLimitSuccessCountMark ++ userId.repr

def memoryCheckKey (userId : Nat) : String := memorySuccessKey userId ++ "_check"

/-- The limiter in memory takes whole seconds. -/
def unix (now : Int) : Int := now / 1000

def memoryRateLimitHandler (limiter : Option InMemoryRateLimiter) (q : ModelRequest) :
    Verdict × Option InMemoryRateLimiter :=
  let l := InMemoryRateLimiter.init limiter (m.durationMinutes * 60000000000)
  let total :=
    if 0 < m.totalMaxCount then
      l.request (modelRequestRateLimitCountMark ++ q.userId.repr) m.totalMaxCount m.duration
        (unix q.now)
    else (true, l)
  if total.1 = false then (.tooManyRequests "", some total.2)
  else
    let check := total.2.request (memoryCheckKey q.userId) m.successMaxCount m.duration (unix q.now)
    if check.1 = false then (.tooManyRequests "", some check.2)
    else
      (.next, some <| if q.status < 400 then
          (check.2.request (memorySuccessKey q.userId) m.successMaxCount m.duration
            (unix q.doneAt)).2
        else check.2)

inductive ModelEvent where
  | request (q : ModelRequest)
  | clearExpiredItems (now : Int)

structure TokenBucket where
  tokens : Int
  lastTime : Int

/-- The tokens at `now`, in seconds. A hash that is not there is a full bucket. -/
def refilled (rate capacity now : Int) : Option TokenBucket → Int
  | none => capacity
  | some b => min capacity (b.tokens + (now - b.lastTime) * rate)

/-- `rate_limit.lua`: the hash it leaves, and its answer. -/
def rateLimitScript (requested rate capacity now : Int) (bucket : Option TokenBucket) :
    TokenBucket × Bool :=
  let tokens := refilled rate capacity now bucket
  if tokens ≥ requested then (⟨tokens - requested, now⟩, true) else (⟨tokens, now⟩, false)

/-- The hash of one key, and how many requests were let through. -/
structure BucketRun where
  bucket : Option TokenBucket := none
  admitted : Int := 0

/-- `Allow` as `redisRateLimitHandler` calls it. -/
def BucketRun.allow (totalMaxCount duration : Int) (s : BucketRun) (now : Int) : BucketRun :=
  let (bucket, allowed) :=
    rateLimitScript duration totalMaxCount (totalMaxCount * duration) now s.bucket
  ⟨bucket, if allowed then s.admitted + 1 else s.admitted⟩

end Ren2Hub.Middleware
