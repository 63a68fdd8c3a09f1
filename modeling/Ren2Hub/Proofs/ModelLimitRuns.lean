import Mathlib
import Ren2Hub.Lib.Lockstep
import Ren2Hub.Middleware.ModelRateLimit
import Ren2Hub.Proofs.LimiterRuns

namespace Ren2Hub.Proofs.ModelLimitRuns
open Lib Middleware LimiterRuns List

/-- The requests let through for each user, the newest first. -/
structure Book where
  clock : Int
  served : Nat → List ModelRequest := fun _ => []

/-- When the successful ones of a user were done. -/
def Book.successes (b : Book) (userId : Nat) : List Int :=
  ((b.served userId).filter fun h => h.status < 400).map ModelRequest.doneAt

/-- The success limit over its window in milliseconds. -/
def window (m : ModelLimits) : Limit := ⟨m.successMaxCount, m.durationMinutes * 60000⟩

/-- Without a limit everything passes, else while less than the limit succeeded within
the window. -/
def Book.Admits (m : ModelLimits) (b : Book) (q : ModelRequest) : Prop :=
  m.successMaxCount = 0 ∨
    (recent (window m).duration q.now (b.successes q.userId)).length < m.successMaxCount

instance (m : ModelLimits) (b : Book) (q : ModelRequest) : Decidable (b.Admits m q) :=
  inferInstanceAs (Decidable (_ ∨ _))

def Book.serve (b : Book) (q : ModelRequest) : Book :=
  { clock := q.doneAt, served := Function.update b.served q.userId (q :: b.served q.userId) }

def Book.on (m : ModelLimits) (b : Book) : ModelEvent → Option Bool × Book
  | .request q =>
    (some (decide (b.Admits m q)), if b.Admits m q then b.serve q else { b with clock := q.doneAt })
  | .clearExpiredItems now => (none, { b with clock := now })

/-- Each event comes after the one before it is over. -/
def InTurn (b : Book) : ModelEvent → Prop
  | .request q => b.clock ≤ q.now ∧ q.now ≤ q.doneAt
  | .clearExpiredItems now => b.clock ≤ now

instance (b : Book) : (e : ModelEvent) → Decidable (InTurn b e)
  | .request _ => inferInstanceAs (Decidable (_ ∧ _))
  | .clearExpiredItems _ => inferInstanceAs (Decidable (_ ≤ _))

variable {m : ModelLimits} {b : Book} {q : ModelRequest} {rdb : Redis} {key : String}
  {now : Int}

theorem successes_serve_self (h : q.status < 400) :
    (b.serve q).successes q.userId = q.doneAt :: b.successes q.userId := by
  simp [Book.successes, Book.serve, h]

theorem successes_serve_failed (h : ¬ q.status < 400) (u : Nat) :
    (b.serve q).successes u = b.successes u := by
  by_cases hu : u = q.userId
  · subst hu
    simp [Book.successes, Book.serve, h]
  · simp [Book.successes, Book.serve, hu]

theorem successes_serve_other (hu : u ≠ q.userId) : (b.serve q).successes u = b.successes u := by
  simp [Book.successes, Book.serve, hu]

@[simp] theorem put_lists_self (entry : Option RedisList) :
    (rdb.put key entry).lists key = entry := by
  simp [Redis.put]

theorem put_lists_other (h : other ≠ key) (entry : Option RedisList) :
    (rdb.put key entry).lists other = rdb.lists other := by
  simp [Redis.put, h]

/-- While it lives the list is the front of the log, and it lives as long as an entry counts. -/
structure Mirrors (limit : Limit) (clock : Int) (entry : Option RedisList) (log : List Int) :
    Prop where
  tracks : Tracks limit clock (entry.map fun l => l.values.reverse) log
  lives : ∀ l, entry = some l → ∃ e, l.expiresAt = some e ∧ ∀ t ∈ log, t + limit.duration ≤ e

variable {limit : Limit} {clock : Int} {log : List Int} {entry : Option RedisList}

theorem Mirrors.later (h : Mirrors limit clock entry log) (hnow : clock ≤ now) :
    Mirrors limit now entry log := ⟨h.tracks.later hnow, h.lives⟩

theorem Mirrors.read (h : Mirrors limit clock (rdb.lists key) log) (hnow : clock ≤ now) :
    Mirrors limit now (rdb.entry key now) log := by
  unfold Redis.entry
  cases hl : rdb.lists key with
  | none =>
    rw [hl] at h
    exact h.later hnow
  | some l =>
    rw [hl] at h
    obtain ⟨e, he, hlong⟩ := h.lives l rfl
    by_cases halive : now ≤ e
    · simpa [Option.filter_some, he, halive] using h.later hnow
    simp only [Option.filter_some, he, Option.all_some, halive, decide_false, Bool.false_eq_true,
      ↓reduceIte]
    refine ⟨h.tracks.forget hnow fun t ht => ?_, nofun⟩
    have := hlong t ht
    omega

theorem list_eq_held (rdb : Redis) (key : String) (now : Int) :
    rdb.list key now = (held ((rdb.entry key now).map fun l => l.values.reverse)).reverse := by
  unfold Redis.list
  cases rdb.entry key now <;> simp

theorem Mirrors.check (h : Mirrors (window m) clock (rdb.lists key) log) (hnow : clock ≤ now)
    (hmax : 0 < m.successMaxCount) :
    (checkRedisRateLimit m rdb key m.successMaxCount m.duration now).1 = true ↔
      (recent (window m).duration now log).length < m.successMaxCount := by
  have ht := (h.read hnow).tracks
  have hlist := list_eq_held rdb key now
  unfold checkRedisRateLimit
  rw [if_neg (by omega), hlist, length_reverse]
  rcases ht.room_or_full hmax with hroom | ⟨a, tail, hq, hfull⟩
  · have hroom' : _ < m.successMaxCount := hroom
    rw [if_pos hroom']
    exact iff_of_true rfl (ht.few_of_room (Int.le_refl now) hroom)
  have hfull' : m.successMaxCount = tail.length + 1 := hfull
  have hpast : a ≤ now := by
    obtain ⟨gone, hlog⟩ := ht.front
    refine ht.past a ?_
    rw [← hlog, hq]
    simp
  have hfew := ht.few_iff_of_full hq hfull now
  rw [hq, if_neg (by simp [hfull']), reverse_cons, getLastD_concat,
    Int.tdiv_eq_ediv_of_nonneg (by omega)]
  refine Iff.trans ?_ hfew.symm
  simp only [window, ModelLimits.duration]
  by_cases hin : (now - a) / 1000 < m.durationMinutes * 60
  · exact iff_of_false (by simp [hin]) (by omega)
  · exact iff_of_true (by simp [hin]) (by omega)

theorem expire_mirrors
    (h : Tracks (window m) now ((rdb.entry key now).map fun l => l.values.reverse) log) :
    Mirrors (window m) now ((rdb.expire key (m.durationMinutes * 60000) now).lists key) log := by
  simp only [Redis.expire, put_lists_self]
  split_ifs with hpos
  · refine ⟨?_, ?_⟩
    · simpa [Function.comp_def] using h
    · intro l hl
      obtain ⟨l', _, rfl⟩ := Option.map_eq_some_iff.mp hl
      refine ⟨_, rfl, fun t ht => ?_⟩
      have := h.past t ht
      simp only [window]
      omega
  · refine ⟨h.forget (Int.le_refl now) fun t ht => ?_, nofun⟩
    have := h.past t ht
    simp only [window]
    omega

theorem check_lists (m : ModelLimits) (rdb : Redis) (key : String) (n : Nat) (d now : Int) :
    (checkRedisRateLimit m rdb key n d now).2 = rdb ∨
      (checkRedisRateLimit m rdb key n d now).2 =
        rdb.expire key (m.durationMinutes * 60000) now := by
  unfold checkRedisRateLimit
  split_ifs <;> simp

theorem Mirrors.checked (h : Mirrors (window m) clock (rdb.lists key) log) (hnow : clock ≤ now)
    (n : Nat) (d : Int) :
    Mirrors (window m) now ((checkRedisRateLimit m rdb key n d now).2.lists key) log := by
  rcases check_lists m rdb key n d now with heq | heq <;> rw [heq]
  · exact h.later hnow
  · exact expire_mirrors (h.read hnow).tracks

theorem entry_put_of_alive (h : l.expiresAt.all fun e => now ≤ e) :
    (rdb.put key (some l)).entry key now = some l := by
  simp [Redis.entry, Option.filter_some, h]

theorem push_trim_entry (rdb : Redis) (key : String) (n : Nat) (now : Int) :
    ((((rdb.lPush key now now).lTrim key n now).entry key now).map RedisList.values) =
      some ((now :: rdb.list key now).take n) := by
  have hpush : ∃ l, l.values = now :: rdb.list key now ∧
      (l.expiresAt.all fun e => now ≤ e) = true ∧ rdb.lPush key now now = rdb.put key (some l) := by
    unfold Redis.lPush Redis.list
    cases he : rdb.entry key now with
    | none => exact ⟨{ values := [now] }, rfl, rfl, rfl⟩
    | some l =>
      exact ⟨{ l with values := now :: l.values }, rfl, (Option.filter_eq_some_iff.mp he).2, rfl⟩
  obtain ⟨l, hvalues, halive, hl⟩ := hpush
  have htrim : (rdb.put key (some l)).lTrim key n now =
      (rdb.put key (some l)).put key (some { l with values := l.values.take n }) := by
    simp only [Redis.lTrim, entry_put_of_alive halive, Option.map_some]
  have halive' : (({ l with values := l.values.take n } : RedisList).expiresAt.all fun e =>
    now ≤ e) = true := halive
  rw [hl, htrim, entry_put_of_alive halive', Option.map_some, hvalues]

theorem Mirrors.record (h : Mirrors (window m) clock (rdb.lists key) log) (hnow : clock ≤ now)
    (hmax : 0 < m.successMaxCount)
    (hfew : (recent (window m).duration now log).length < m.successMaxCount) :
    Mirrors (window m) now
      ((recordRedisRequest m rdb key m.successMaxCount now).lists key) (now :: log) := by
  have ht := (h.read hnow).tracks
  have hlist := list_eq_held rdb key now
  generalize hqueue : ((rdb.entry key now).map fun l => l.values.reverse) = queue at ht hlist
  have hfront : rdb.list key now <+: log := by
    rw [hlist]
    exact ht.front
  have hlen : (rdb.list key now).length = (held queue).length := by
    rw [hlist, length_reverse]
  obtain ⟨n, hn⟩ : ∃ n, m.successMaxCount = n + 1 :=
    Nat.exists_eq_succ_of_ne_zero (by omega)
  have hnew : Tracks (window m) now (some (((rdb.list key now).take n).reverse ++ [now]))
      (now :: log) := by
    refine ht.admit (Int.le_refl now) hfew ?_ ?_ ?_
    · have htake := fun l : List Int => take_prefix n l
      simpa using (htake _).trans hfront
    · simp only [length_reverse, length_take, window]
      omega
    -- nothing is trimmed while there is room for another one
    intro hroom t hgone
    simp only [length_reverse, length_take, window] at hroom hgone
    refine ht.old (by simp only [window]; omega) t ?_
    rwa [Nat.min_eq_right (by omega), hlen] at hgone
  have hentry := congrArg (Option.map List.reverse) (push_trim_entry rdb key (n + 1) now)
  unfold recordRedisRequest
  rw [if_neg (by omega), hn]
  apply expire_mirrors
  simp only [Option.map_map, Function.comp_def] at hentry
  rw [hentry]
  simpa using hnew

theorem redisSuccessKey_ne (h : u ≠ v) : redisSuccessKey u ≠ redisSuccessKey v := by
  intro heq
  exact h (Nat.repr_inj.mp (String.append_right_inj _ |>.mp heq))

theorem check_other (h : other ≠ key) (n : Nat) (d : Int) :
    (checkRedisRateLimit m rdb key n d now).2.lists other = rdb.lists other := by
  rcases check_lists m rdb key n d now with heq | heq <;> rw [heq]
  exact put_lists_other h _

theorem record_other (h : other ≠ key) (n : Nat) :
    (recordRedisRequest m rdb key n now).lists other = rdb.lists other := by
  unfold recordRedisRequest
  split_ifs
  · rfl
  · simp only [Redis.expire, Redis.lTrim, Redis.lPush, put_lists_other h]

/-- With a limit the list of every user mirrors the user's successes. -/
def RedisKeeps (m : ModelLimits) (rdb : Redis) (b : Book) : Prop :=
  0 < m.successMaxCount → ∀ u,
    Mirrors (window m) b.clock (rdb.lists (redisSuccessKey u)) (b.successes u)

def redisCheck (m : ModelLimits) (rdb : Redis) (q : ModelRequest) : Bool × Redis :=
  checkRedisRateLimit m rdb (redisSuccessKey q.userId) m.successMaxCount m.duration q.now

theorem redis_passes (m : ModelLimits) (htotal : m.totalMaxCount = 0) (rdb : Redis)
    (q : ModelRequest) : (redisRateLimitHandler m rdb q).1.passes = (redisCheck m rdb q).1 := by
  unfold redisRateLimitHandler redisCheck
  cases h : (redisCheck m rdb q).1 <;> simp_all [redisCheck, Verdict.passes]

theorem redis_leaves (m : ModelLimits) (htotal : m.totalMaxCount = 0) (rdb : Redis)
    (q : ModelRequest) :
    (redisRateLimitHandler m rdb q).2 =
      if (redisCheck m rdb q).1 = true ∧ q.status < 400 then
        recordRedisRequest m (redisCheck m rdb q).2 (redisSuccessKey q.userId) m.successMaxCount
          q.doneAt
      else (redisCheck m rdb q).2 := by
  unfold redisRateLimitHandler
  cases h : (redisCheck m rdb q).1 <;> simp_all [redisCheck]

theorem RedisKeeps.passes (htotal : m.totalMaxCount = 0) (h : RedisKeeps m rdb b)
    (hnow : b.clock ≤ q.now) :
    (redisRateLimitHandler m rdb q).1.passes = decide (b.Admits m q) := by
  rw [redis_passes m htotal]
  rcases Nat.eq_zero_or_pos m.successMaxCount with hzero | hmax
  · simp [redisCheck, checkRedisRateLimit, Book.Admits, hzero]
  · rw [redisCheck, Bool.eq_iff_iff, (h hmax q.userId).check hnow hmax, decide_eq_true_eq,
      Book.Admits, or_iff_right (by omega)]

theorem RedisKeeps.request (htotal : m.totalMaxCount = 0) (h : RedisKeeps m rdb b)
    (hturn : InTurn b (.request q)) :
    RedisKeeps m (redisRateLimitHandler m rdb q).2 (b.on m (.request q)).2 := by
  intro hmax u
  obtain ⟨hnow, hdone⟩ := hturn
  have hclock : b.clock ≤ q.doneAt := hnow.trans hdone
  have hpasses := h.passes htotal hnow
  rw [redis_passes m htotal] at hpasses
  rw [redis_leaves m htotal]
  simp only [hpasses, decide_eq_true_eq, Book.on]
  by_cases hu : u = q.userId
  · subst hu
    have hchecked := (h hmax q.userId).checked hnow m.successMaxCount m.duration
    by_cases hadmits : b.Admits m q
    · by_cases hok : q.status < 400
      · have hfew := (or_iff_right (by omega)).mp hadmits
        simp only [hadmits, hok, and_self, ↓reduceIte, successes_serve_self hok]
        exact hchecked.record hdone hmax ((recent_length_anti hdone).trans_lt hfew)
      · simp only [hadmits, hok, and_false, ↓reduceIte, successes_serve_failed hok]
        exact hchecked.later hdone
    · simp only [hadmits, false_and, ↓reduceIte]
      exact hchecked.later hdone
  · have hkey := redisSuccessKey_ne hu
    have hbook : (if b.Admits m q then b.serve q else { b with clock := q.doneAt }).successes u =
        b.successes u := by
      split_ifs
      · exact successes_serve_other hu
      · rfl
    have hcheck : (redisCheck m rdb q).2.lists (redisSuccessKey u) =
        rdb.lists (redisSuccessKey u) := check_other hkey _ _
    have hlater := (h hmax u).later hclock
    rw [hbook]
    split_ifs <;> simp only [record_other hkey, hcheck] <;> exact hlater

/-- There is a limit, what was let through before succeeded, and counts or not alike by the second
it came and the millisecond it was done. -/
def Counts (m : ModelLimits) (b : Book) : ModelEvent → Prop
  | .request q => 0 < m.successMaxCount ∧ ∀ h ∈ b.served q.userId, h.status < 400 ∧
      (unix q.now - unix h.now < m.duration ↔ q.now - h.doneAt < (window m).duration)
  | .clearExpiredItems _ => True

instance (m : ModelLimits) (b : Book) : (e : ModelEvent) → Decidable (Counts m b e)
  | .request _ => inferInstanceAs (Decidable (_ ∧ _))
  | .clearExpiredItems _ => inferInstanceAs (Decidable True)

theorem recent_map_length (f : ModelRequest → Int) (span now : Int) (hs : List ModelRequest) :
    (recent span now (hs.map f)).length = hs.countP fun h => now - f h < span := by
  rw [recent, filter_map, length_map, ← countP_eq_length_filter]
  rfl

theorem Counts.recent_eq (h : Counts m b (.request q)) :
    (recent m.duration (unix q.now) ((b.served q.userId).map fun h => unix h.now)).length =
      (recent (window m).duration q.now (b.successes q.userId)).length := by
  have hall : (b.served q.userId).filter (fun h => h.status < 400) = b.served q.userId :=
    filter_eq_self.mpr fun g hg => decide_eq_true (h.2 g hg).1
  rw [Book.successes, hall, recent_map_length, recent_map_length]
  refine countP_congr fun g hg => ?_
  simp only [decide_eq_true_eq]
  exact (h.2 g hg).2

theorem isDigit_of_mem_repr {n : Nat} (h : c ∈ n.repr.toList) : c.isDigit := by
  rw [Nat.repr_eq_ofList_toDigits, String.toList_ofList] at h
  exact Nat.isDigit_of_mem_toDigits (by decide) (by decide) h

theorem memoryCheckKey_ne (h : u ≠ v) : memoryCheckKey u ≠ memoryCheckKey v := by
  intro heq
  exact h (Nat.repr_inj.mp ((String.append_right_inj _).mp ((String.append_left_inj _).mp heq)))

theorem memoryCheckKey_ne_success (u v : Nat) : memoryCheckKey u ≠ memorySuccessKey v := by
  intro heq
  simp only [memoryCheckKey, memorySuccessKey, String.append_assoc] at heq
  have hrepr := (String.append_right_inj _).mp heq
  have hmem : '_' ∈ v.repr.toList := by
    rw [← hrepr, String.toList_append]
    exact mem_append_right _ (by decide)
  exact absurd (isDigit_of_mem_repr hmem) (by decide)

def ready (m : ModelLimits) (limiter : Option InMemoryRateLimiter) : InMemoryRateLimiter :=
  .init limiter (m.durationMinutes * 60000000000)

/-- The success limit over its window in seconds. -/
def shadow (m : ModelLimits) : Limit := ⟨m.successMaxCount, m.duration⟩

structure MemoryKeeps (m : ModelLimits) (limiter : Option InMemoryRateLimiter) (b : Book) :
    Prop where
  late : (ready m limiter).expirationDuration ≤ 0 ∨
    m.duration ≤ seconds (ready m limiter).expirationDuration + 1
  tracks : 0 < m.successMaxCount → ∀ u,
    Tracks (shadow m) (unix b.clock) ((ready m limiter).store (memoryCheckKey u))
      ((b.served u).map fun h => unix h.now)

variable {limiter : Option InMemoryRateLimiter}

theorem unix_mono (h : t ≤ t') : unix t ≤ unix t' :=
  Int.ediv_le_ediv (by decide) h

def memoryCheck (m : ModelLimits) (limiter : Option InMemoryRateLimiter) (q : ModelRequest) :
    Bool × InMemoryRateLimiter :=
  (ready m limiter).request (memoryCheckKey q.userId) m.successMaxCount m.duration (unix q.now)

theorem memory_passes (htotal : m.totalMaxCount = 0) :
    (memoryRateLimitHandler m limiter q).1.passes = (memoryCheck m limiter q).1 := by
  unfold memoryRateLimitHandler memoryCheck ready
  simp only [htotal, lt_irrefl, ↓reduceIte, Bool.true_eq_false]
  split_ifs with hcheck
  · exact hcheck.symm
  all_goals exact (eq_true_of_ne_false hcheck).symm

theorem memory_leaves (limiter : Option InMemoryRateLimiter) (q : ModelRequest)
    (htotal : m.totalMaxCount = 0) :
    ∃ l, (memoryRateLimitHandler m limiter q).2 = some l ∧
      l.expirationDuration = (ready m limiter).expirationDuration ∧
      ∀ u, l.store (memoryCheckKey u) = (memoryCheck m limiter q).2.store (memoryCheckKey u) := by
  unfold memoryRateLimitHandler memoryCheck ready
  simp only [htotal, lt_irrefl, ↓reduceIte, Bool.true_eq_false]
  split_ifs with hcheck hok
  · exact ⟨_, rfl, request_expiration .., fun u => rfl⟩
  · exact ⟨_, rfl, by simp only [request_expiration],
      fun u => request_other (memoryCheckKey_ne_success u q.userId) ..⟩
  · exact ⟨_, rfl, request_expiration .., fun u => rfl⟩

section
variable (h : MemoryKeeps m limiter b)
include h

theorem MemoryKeeps.passes (htotal : m.totalMaxCount = 0)
    (hnow : b.clock ≤ q.now) (hcounts : Counts m b (.request q)) :
    (memoryRateLimitHandler m limiter q).1.passes = decide (b.Admits m q) := by
  have hmax := hcounts.1
  have hanswer := (h.tracks hmax q.userId).answer hmax (unix_mono hnow)
  have hequal := hcounts.recent_eq
  rw [memory_passes htotal, Bool.eq_iff_iff, decide_eq_true_eq, Book.Admits,
    or_iff_right (by omega), ← hequal]
  exact hanswer

theorem MemoryKeeps.request (htotal : m.totalMaxCount = 0)
    (hturn : InTurn b (.request q)) (hcounts : Counts m b (.request q)) :
    MemoryKeeps m (memoryRateLimitHandler m limiter q).2 (b.on m (.request q)).2 := by
  obtain ⟨hnow, hdone⟩ := hturn
  have hpasses := h.passes htotal hnow hcounts
  rw [memory_passes htotal] at hpasses
  obtain ⟨l, hl, hexp, hstore⟩ := memory_leaves limiter q htotal
  rw [hl]
  refine ⟨?_, fun hmax u => ?_⟩
  · have hready : (ready m (some l)).expirationDuration = l.expirationDuration := rfl
    rw [hready, hexp]
    exact h.late
  have hready : (ready m (some l)).store = l.store := rfl
  rw [hready, hstore]
  by_cases hu : u = q.userId
  · subst hu
    have hnext := (h.tracks hmax q.userId).request hmax (unix_mono hnow)
    have hcheck : ((ready m limiter).request (memoryCheckKey q.userId)
      (shadow m).maxRequestNum (shadow m).duration (unix q.now)).1 = decide (b.Admits m q) :=
        hpasses
    have hlater := hnext.later (unix_mono hdone)
    rw [hcheck] at hlater
    simp only [Book.on]
    by_cases hadmits : b.Admits m q
    · simpa [hadmits, Book.serve, memoryCheck, shadow] using hlater
    · simpa [hadmits, memoryCheck, shadow] using hlater
  · have hother : (memoryCheck m limiter q).2.store (memoryCheckKey u) =
        (ready m limiter).store (memoryCheckKey u) := request_other (memoryCheckKey_ne hu) ..
    have hlater := (h.tracks hmax u).later (unix_mono (hnow.trans hdone))
    rw [hother]
    simp only [Book.on]
    by_cases hadmits : b.Admits m q
    · simpa [hadmits, Book.serve, hu] using hlater
    · simpa [hadmits] using hlater

theorem MemoryKeeps.clear (hnow : b.clock ≤ now) :
    MemoryKeeps m (limiter.map fun l => l.clearExpiredItems (unix now))
      { b with clock := now } := by
  cases limiter with
  | none => exact ⟨h.late, fun hmax u => (h.tracks hmax u).later (unix_mono hnow)⟩
  | some l =>
    refine ⟨?_, fun hmax u => (h.tracks hmax u).clear hmax (unix_mono hnow) h.late⟩
    have hexp := clear_expiration (l := l) (unix now)
    have hlate := h.late
    simp only [ready, InMemoryRateLimiter.init, Option.map_some, Option.getD_some] at hlate ⊢
    rw [hexp]
    exact hlate

end

end Ren2Hub.Proofs.ModelLimitRuns
