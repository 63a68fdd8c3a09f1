import Ren2Hub.Lib.Inputs
import Ren2Hub.Lib.Window
import Ren2Hub.Middleware.RateLimit

namespace Ren2Hub.Proofs.LimiterRuns
open Lib Middleware List
open InMemoryRateLimiter (put request clearExpiredItems)

variable {l : InMemoryRateLimiter} {key : String}

def held (queue : Option (List Int)) : List Int := queue.getD []

@[simp] theorem held_none : held none = [] := rfl

@[simp] theorem held_some (queue : List Int) : held (some queue) = queue := rfl

@[simp] theorem put_store_self (queue : List Int) : (l.put key queue).store key = some queue := by
  simp [put]

theorem request_other (hne : other ≠ key) (n : Nat) (d now : Int) :
    (l.request key n d now).2.store other = l.store other := by
  unfold request
  split
  · split_ifs <;> simp [put, hne]
  · simp [put, hne]

@[simp] theorem request_expiration (n : Nat) (d now : Int) :
    (l.request key n d now).2.expirationDuration = l.expirationDuration := by
  unfold request
  split
  · split_ifs <;> rfl
  · rfl

@[simp] theorem clear_expiration (now : Int) :
    (l.clearExpiredItems now).expirationDuration = l.expirationDuration := by
  unfold clearExpiredItems
  split_ifs <;> rfl

theorem request_room (hroom : (held (l.store key)).length < n) (d now : Int) :
    l.request key n d now = (true, l.put key (held (l.store key) ++ [now])) := by
  unfold request
  cases hq : l.store key with
  | none => simp
  | some queue =>
    rw [hq, held_some] at hroom
    simp [hroom]

theorem request_full (hq : held (l.store key) = a :: rest) (hfull : n ≤ rest.length + 1)
    (d now : Int) :
    l.request key n d now =
      if d ≤ now - a then (true, l.put key (rest ++ [now])) else (false, l) := by
  have hstore : l.store key = some (a :: rest) := by
    cases hs : l.store key with
    | none => simp [hs] at hq
    | some queue => rw [hs, held_some] at hq; rw [hq]
  have hlen : ¬ rest.length + 1 < n := by omega
  simp [request, hstore, hlen]

/-- The queue is the front of the log; while it has room, what it has let go is too old
to count. -/
structure Tracks (limit : Limit) (clock : Int) (queue : Option (List Int)) (log : List Int) :
    Prop where
  front : (held queue).reverse <+: log
  short : (held queue).length ≤ limit.maxRequestNum
  old : (held queue).length < limit.maxRequestNum →
    ∀ t ∈ log.drop (held queue).length, limit.duration ≤ clock - t
  falling : Falling log
  past : ∀ t ∈ log, t ≤ clock
  spaced : Spaced limit.duration limit.maxRequestNum log

variable {limit : Limit} {clock now : Int} {queue : Option (List Int)} {log : List Int}

theorem tracks_start (limit : Limit) (clock : Int) : Tracks limit clock none [] where
  front := nil_prefix
  short := Nat.zero_le _
  old _ t ht := by simp at ht
  falling := List.Pairwise.nil
  past t ht := by simp at ht
  spaced := trivial

section
variable (h : Tracks limit clock queue log)
include h

theorem Tracks.later (hnow : clock ≤ now) : Tracks limit now queue log where
  front := h.front
  short := h.short
  old hroom t ht := by
    have := h.old hroom t ht
    omega
  falling := h.falling
  past t ht := Int.le_trans (h.past t ht) hnow
  spaced := h.spaced

theorem Tracks.forget (hnow : clock ≤ now) (hold : ∀ t ∈ log, limit.duration ≤ now - t) :
    Tracks limit now none log :=
  { h.later hnow with front := nil_prefix, short := Nat.zero_le _, old := fun _ => hold }

theorem Tracks.admit (hnow : clock ≤ now)
    (hfew : (recent limit.duration now log).length < limit.maxRequestNum)
    (hfront : (queue' ++ [now]).reverse <+: now :: log)
    (hshort : queue'.length < limit.maxRequestNum)
    (hold : queue'.length + 1 < limit.maxRequestNum →
      ∀ t ∈ log.drop queue'.length, limit.duration ≤ now - t) :
    Tracks limit now (some (queue' ++ [now])) (now :: log) where
  front := hfront
  short := by simpa using Nat.succ_le_of_lt hshort
  old hroom t ht := by
    simp only [held_some, length_append, length_singleton] at hroom ht
    exact hold hroom t (by simpa using ht)
  falling := h.falling.cons fun t ht => Int.le_trans (h.past t ht) hnow
  past t ht := by
    rcases mem_cons.mp ht with rfl | ht
    · exact Int.le_refl _
    · exact Int.le_trans (h.past t ht) hnow
  spaced := ⟨hfew, h.spaced⟩

theorem Tracks.few_of_room (hnow : clock ≤ now)
    (hroom : (held queue).length < limit.maxRequestNum) :
    (recent limit.duration now log).length < limit.maxRequestNum := by
  obtain ⟨n, hn⟩ : ∃ n, limit.maxRequestNum = n + 1 :=
    Nat.exists_eq_succ_of_ne_zero (Nat.ne_of_gt (Nat.zero_lt_of_lt hroom))
  rw [hn, Nat.lt_succ_iff, recent_length_le_iff h.falling]
  intro t ht
  have hgone : t ∈ log.drop (held queue).length := by
    refine mem_of_getElem? (i := n - (held queue).length) ?_
    rw [getElem?_drop, Nat.add_sub_cancel' (by omega)]
    exact ht
  have := h.old hroom t hgone
  omega

theorem Tracks.few_iff_of_full (hq : held queue = a :: rest)
    (hfull : limit.maxRequestNum = rest.length + 1) (now : Int) :
    (recent limit.duration now log).length < limit.maxRequestNum ↔ limit.duration ≤ now - a := by
  obtain ⟨gone, hlog⟩ := h.front
  have holdest : log[rest.length]? = some a := by
    rw [← hlog, hq]
    simp
  rw [hfull, Nat.lt_succ_iff, recent_length_le_iff h.falling, holdest]
  simp

theorem Tracks.room_or_full (hmax : 0 < limit.maxRequestNum) :
    (held queue).length < limit.maxRequestNum ∨
      ∃ a rest, held queue = a :: rest ∧ limit.maxRequestNum = rest.length + 1 := by
  rcases Nat.lt_or_ge (held queue).length limit.maxRequestNum with hroom | hfull
  · exact .inl hroom
  have hlen := Nat.le_antisymm h.short hfull
  cases hq : held queue with
  | nil =>
    rw [hq, length_nil] at hlen
    omega
  | cons a rest =>
    rw [hq, length_cons] at hlen
    exact .inr ⟨a, rest, rfl, hlen.symm⟩

end

section
variable (h : Tracks limit clock (l.store key) log)
include h

variable (hmax : 0 < limit.maxRequestNum)
include hmax

theorem Tracks.answer (hnow : clock ≤ now) :
    (l.request key limit.maxRequestNum limit.duration now).1 = true ↔
      (recent limit.duration now log).length < limit.maxRequestNum := by
  rcases h.room_or_full hmax with hroom | ⟨a, rest, hq, hfull⟩
  · rw [request_room hroom]
    simpa using h.few_of_room hnow hroom
  · rw [request_full hq (Nat.le_of_eq hfull), h.few_iff_of_full hq hfull]
    split_ifs with hold <;> simp [hold]

theorem Tracks.request (hnow : clock ≤ now) :
    Tracks limit now ((l.request key limit.maxRequestNum limit.duration now).2.store key)
      (if (l.request key limit.maxRequestNum limit.duration now).1 then now :: log else log) := by
  obtain ⟨gone, hlog⟩ := h.front
  rcases h.room_or_full hmax with hroom | ⟨a, rest, hq, hfull⟩
  · rw [request_room hroom]
    simp only [put_store_self, ↓reduceIte]
    refine h.admit hnow (h.few_of_room hnow hroom) ⟨gone, ?_⟩ hroom ?_
    · rw [← hlog]
      simp
    intro _ t ht
    have := h.old hroom t ht
    omega
  · rw [request_full hq (Nat.le_of_eq hfull)]
    by_cases hold : limit.duration ≤ now - a
    · simp only [hold, put_store_self, ↓reduceIte]
      refine h.admit hnow ((h.few_iff_of_full hq hfull now).mpr hold) ⟨a :: gone, ?_⟩ (by omega) ?_
      · rw [← hlog, hq]
        simp
      · intro hlt
        omega
    · simpa only [hold, ↓reduceIte, Bool.false_eq_true] using h.later hnow

theorem Tracks.clear (hnow : clock ≤ now)
    (hlong : l.expirationDuration ≤ 0 ∨ limit.duration ≤ seconds l.expirationDuration + 1) :
    Tracks limit now ((l.clearExpiredItems now).store key) log := by
  unfold clearExpiredItems
  split_ifs with hpos
  · have hlong := hlong.resolve_left (by omega)
    cases hq : l.store key with
    | none =>
      simpa [hq] using h.later hnow
    | some queue =>
      rw [hq] at h
      simp only [hq, Option.filter_some]
      split_ifs with hkept
      · exact h.later hnow
      refine h.forget hnow fun t ht => ?_
      obtain ⟨gone, hlog⟩ := h.front
      cases hrev : queue.reverse with
      | nil =>
        rw [reverse_eq_nil_iff] at hrev
        subst hrev
        have := h.old hmax t ht
        omega
      | cons last before =>
        -- the last entry is the newest of the whole log
        have hlast : queue.getLast? = some last := by
          rw [← head?_reverse, hrev, head?_cons]
        have hne : queue ≠ [] := by
          intro hnil
          simp [hnil] at hrev
        have hgap : seconds l.expirationDuration < now - last := by
          by_contra hnot
          refine hkept (decide_eq_true ?_)
          rw [getLastD_eq_getLast?, hlast, Option.getD_some]
          rintro (hnil | hgap)
          · exact hne hnil
          · omega
        rw [held_some, hrev] at hlog
        have hle : t ≤ last := by
          rw [← hlog] at ht
          have hfall := h.falling
          rw [← hlog] at hfall
          rcases mem_cons.mp ht with rfl | ht
          · exact Int.le_refl _
          · exact (pairwise_cons.mp hfall).1 t ht
        omega
  · exact h.later hnow

end

variable {limits : String → Limit} {r : LimiterRun}

def InOrder (r : LimiterRun) (e : LimiterEvent) : Prop := r.clock ≤ e.now

instance (r : LimiterRun) (e : LimiterEvent) : Decidable (InOrder r e) :=
  inferInstanceAs (Decidable (r.clock ≤ e.now))

/-- No interval of a key's duration holds more admissions than its limit. -/
def WithinLimits (limits : String → Limit) (r : LimiterRun) : Prop :=
  ∀ key x, ((r.admitted key).filter fun t => x ≤ t ∧ t < x + (limits key).duration).length ≤
    (limits key).maxRequestNum

/-- A request is refused now only if the limit was used up within the last duration. -/
def RefusesUsedUp (limits : String → Limit) (r : LimiterRun) : Prop :=
  ∀ key now, r.clock ≤ now →
    (r.limiter.request key (limits key).maxRequestNum (limits key).duration now).1 = false →
    (limits key).maxRequestNum ≤ (recent (limits key).duration now (r.admitted key)).length

/-- A sweep cannot outrun the windows: there is none, or it keeps keys long enough. -/
def SweepsLate (limits : String → Limit) (expirationDuration : Int) : Prop :=
  expirationDuration ≤ 0 ∨ ∀ key, (limits key).duration ≤ seconds expirationDuration + 1

structure Tracked (limits : String → Limit) (r : LimiterRun) : Prop where
  late : SweepsLate limits r.limiter.expirationDuration
  tracks : ∀ key, Tracks (limits key) r.clock (r.limiter.store key) (r.admitted key)

theorem Tracked.on (hmax : ∀ key, 0 < (limits key).maxRequestNum) (e : LimiterEvent)
    (h : Tracked limits r) (horder : InOrder r e) : Tracked limits (r.on limits e) := by
  cases e with
  | clearExpiredItems =>
    refine ⟨?_, fun key => (h.tracks key).clear (hmax key) horder ?_⟩
    · simpa only [LimiterRun.on, clear_expiration] using h.late
    · exact h.late.imp_right fun hlong => hlong key
  | request key now =>
    have hclock : r.clock ≤ now := horder
    refine ⟨?_, fun other => ?_⟩
    · simpa only [LimiterRun.on, request_expiration] using h.late
    simp only [LimiterRun.on]
    by_cases hkey : other = key
    · subst hkey
      have hnext := (h.tracks other).request (hmax other) hclock
      split_ifs at hnext ⊢
      · simpa using hnext
      · exact hnext
    · rw [request_other hkey]
      have hnext := (h.tracks other).later hclock
      split_ifs
      · simpa [hkey] using hnext
      · exact hnext

theorem Tracked.within (h : Tracked limits r) : WithinLimits limits r := fun key x =>
  (h.tracks key).spaced.interval (h.tracks key).falling x

theorem Tracked.refuses (hmax : ∀ key, 0 < (limits key).maxRequestNum) (h : Tracked limits r) :
    RefusesUsedUp limits r := by
  intro key now hnow hrefused
  by_contra hfew
  have := ((h.tracks key).answer (hmax key) hnow).mpr (by omega)
  simp [hrefused] at this

def fresh (expirationDuration start : Int) : LimiterRun :=
  { limiter := .init none expirationDuration, clock := start }

theorem run_burst (now : Int) (hkey : n ≤ (limits key).maxRequestNum)
    (hr : r.limiter.store key = none) (hnew : r.admitted key = []) :
    let r' := r.run limits (List.replicate n (.request key now))
    held (r'.limiter.store key) = List.replicate n now ∧
      r'.admitted key = List.replicate n now ∧
      r'.limiter.expirationDuration = r.limiter.expirationDuration := by
  induction n with
  | zero => simp [LimiterRun.run, hr, hnew]
  | succ n ih =>
    obtain ⟨hheld, hlog, hexp⟩ := ih (by omega)
    have hrun : r.run limits (List.replicate (n + 1) (.request key now)) =
        (r.run limits (List.replicate n (.request key now))).on limits (.request key now) := by
      rw [replicate_succ', LimiterRun.run, foldl_append]
      rfl
    intro r'
    simp only [r', hrun]
    generalize r.run limits (List.replicate n (.request key now)) = r at hheld hlog hexp
    have hroom : (held (r.limiter.store key)).length < (limits key).maxRequestNum := by
      rw [hheld, length_replicate]
      omega
    simp only [LimiterRun.on, request_room hroom, put_store_self, held_some, hheld, ↓reduceIte,
      Function.update_self, hlog]
    refine ⟨replicate_succ'.symm, replicate_succ.symm, hexp⟩

theorem clear_gone (hpos : 0 < l.expirationDuration)
    (hgone : ∀ t ∈ held (l.store key), seconds l.expirationDuration < now - t) :
    (l.clearExpiredItems now).store key = none := by
  simp only [clearExpiredItems, gt_iff_lt, hpos, ↓reduceIte]
  cases hq : l.store key with
  | none => rfl
  | some queue =>
    rw [hq, held_some] at hgone
    rw [Option.filter_eq_none_iff]
    rintro _ ⟨⟩
    rcases eq_nil_or_concat queue with rfl | ⟨before, last, rfl⟩
    · simp
    have hlast := hgone last (by simp)
    refine fun hkept => of_decide_eq_true hkept (.inr ?_)
    rw [concat_eq_append, getLastD_concat]
    exact hlast

theorem along_inOrder (hclock : ∀ e ∈ events, r.clock ≤ e.now)
    (hsorted : events.Pairwise fun e e' => e.now ≤ e'.now) :
    Along (LimiterRun.on limits) InOrder r events := by
  induction events generalizing r with
  | nil => trivial
  | cons e events ih =>
    obtain ⟨he, hsorted⟩ := pairwise_cons.mp hsorted
    have hnext : (r.on limits e).clock = e.now := by cases e <;> rfl
    refine ⟨hclock e mem_cons_self, ih ?_ hsorted⟩
    intro e' he'
    rw [hnext]
    exact he e' he'

/-- A burst up to the limit, a sweep when the burst is older than the expiry, and one more. -/
def sweptBurst (limits : String → Limit) (key : String) (gap : Int) : List LimiterEvent :=
  List.replicate (limits key).maxRequestNum (.request key 0) ++
    [.clearExpiredItems gap, .request key gap]

theorem sweptBurst_inOrder (hgap : 0 ≤ gap) (hr : r.clock = 0) :
    Along (LimiterRun.on limits) InOrder r (sweptBurst limits key gap) := by
  have hnow : ∀ e ∈ sweptBurst limits key gap, e.now = 0 ∨ e.now = gap := by
    intro e he
    rcases mem_append.mp he with he | he
    · rw [eq_of_mem_replicate he]
      exact .inl rfl
    · rcases mem_pair.mp he with rfl | rfl <;> exact .inr rfl
  refine along_inOrder (fun e he => ?_) ?_
  · rcases hnow e he with h | h <;> omega
  refine pairwise_append.mpr ⟨?_, ?_, ?_⟩
  · exact pairwise_replicate.mpr (.inr (Int.le_refl _))
  · exact pairwise_pair.mpr (Int.le_refl gap)
  intro e he e' he'
  rw [eq_of_mem_replicate he]
  rcases mem_pair.mp he' with rfl | rfl <;> exact hgap

theorem sweptBurst_admits (hmax : 0 < (limits key).maxRequestNum) (hpos : 0 < expirationDuration) :
    ((fresh expirationDuration 0).run limits
        (sweptBurst limits key (seconds expirationDuration + 1))).admitted key =
      (seconds expirationDuration + 1) :: List.replicate (limits key).maxRequestNum 0 := by
  obtain ⟨hheld, hlog, hexp⟩ :=
    run_burst (r := fresh expirationDuration 0) 0 (Nat.le_refl _) rfl rfl
  rw [LimiterRun.run] at hheld hlog hexp
  rw [LimiterRun.run, sweptBurst, foldl_append]
  generalize List.foldl _ (fresh expirationDuration 0) _ = r at hheld hlog hexp
  have hexp : r.limiter.expirationDuration = expirationDuration := hexp
  have hgone : (r.limiter.clearExpiredItems (seconds expirationDuration + 1)).store key = none := by
    refine clear_gone (by omega) fun t ht => ?_
    rw [hheld] at ht
    rw [eq_of_mem_replicate ht, hexp]
    omega
  have hroom : (held ((r.limiter.clearExpiredItems (seconds expirationDuration + 1)).store
      key)).length < (limits key).maxRequestNum := by
    simpa [hgone] using hmax
  simp only [foldl_cons, foldl_nil, LimiterRun.on, request_room hroom, ↓reduceIte,
    Function.update_self, hlog]

theorem sweptBurst_exceeds (hmax : 0 < (limits key).maxRequestNum) (hpos : 0 < expirationDuration)
    (hlong : seconds expirationDuration + 1 < (limits key).duration) :
    ¬ WithinLimits limits ((fresh expirationDuration 0).run limits
      (sweptBurst limits key (seconds expirationDuration + 1))) := by
  intro h
  have hcount := h key 0
  have hsec : 0 ≤ seconds expirationDuration := Int.tdiv_nonneg (by omega) (by decide)
  rw [sweptBurst_admits hmax hpos, filter_eq_self.mpr] at hcount
  · simp only [length_cons, length_replicate] at hcount
    omega
  intro t ht
  rcases mem_cons.mp ht with rfl | ht
  · simp only [Int.zero_add, decide_eq_true_eq]
    omega
  · rw [eq_of_mem_replicate ht, decide_eq_true_eq]
    omega

/-- Every limit is kept, and only what is over it refused, exactly if no sweep can come before a
key's window is over. -/
theorem limiter_keeps_limits_iff (limits : String → Limit)
    (hmax : ∀ key, 0 < (limits key).maxRequestNum) (expirationDuration : Int) :
    (∀ start events, Along (LimiterRun.on limits) InOrder (fresh expirationDuration start) events →
      WithinLimits limits ((fresh expirationDuration start).run limits events) ∧
      RefusesUsedUp limits ((fresh expirationDuration start).run limits events)) ↔
    SweepsLate limits expirationDuration := by
  constructor
  · intro h
    by_contra hearly
    simp only [SweepsLate, not_or, not_forall] at hearly
    obtain ⟨hpos, key, hlong⟩ := hearly
    have hsec : 0 ≤ seconds expirationDuration := Int.tdiv_nonneg (by omega) (by decide)
    exact sweptBurst_exceeds (hmax key) (by omega) (by omega)
      (h 0 _ (sweptBurst_inOrder (by omega) rfl)).1
  · intro hlate start events horder
    have htracked : Tracked limits ((fresh expirationDuration start).run limits events) :=
      horder.keeps (fun r e h ho => h.on hmax e ho)
        ⟨hlate, fun key => tracks_start (limits key) start⟩
    exact ⟨htracked.within, htracked.refuses hmax⟩

/-- Keys expire after twenty minutes, no window is longer. -/
theorem twenty_minutes_suffice :
    let limits : String → Limit := fun key => ⟨10, if key = "GW" then 180 else 1201⟩
    WithinLimits limits ((fresh 1200000000000 0).run limits
      [.request "GW" 0, .clearExpiredItems 1300, .request "CT" 1300]) := by
  intro limits
  have hmax : ∀ key, 0 < (limits key).maxRequestNum := fun _ => Nat.succ_pos 9
  have hlate : SweepsLate limits 1200000000000 := by
    refine .inr fun key => ?_
    simp only [limits]
    split_ifs <;> decide
  have horder : Along (LimiterRun.on limits) InOrder (fresh 1200000000000 0)
      [.request "GW" 0, .clearExpiredItems 1300, .request "CT" 1300] :=
    along_inOrder (by simp [fresh, LimiterEvent.now]) (by simp [LimiterEvent.now])
  exact (((limiter_keeps_limits_iff limits hmax 1200000000000).mpr hlate) 0 _ horder).1

/-- One request an hour, keys kept for twenty minutes: the second comes a second after those. -/
theorem hourly_limit_swept :
    let limits : String → Limit := fun _ => ⟨1, 3600⟩
    let events := [.request "MRRLS7_check" 0, .clearExpiredItems 1201, .request "MRRLS7_check" 1201]
    Along (LimiterRun.on limits) InOrder (fresh 1200000000000 0) events ∧
      ((fresh 1200000000000 0).run limits events).admitted "MRRLS7_check" = [1201, 0] ∧
      ¬ WithinLimits limits ((fresh 1200000000000 0).run limits events) := by
  intro limits events
  have hadmitted : ((fresh 1200000000000 0).run limits events).admitted "MRRLS7_check" =
      [1201, 0] := by decide
  refine ⟨along_inOrder (by simp [fresh, events, LimiterEvent.now])
    (by simp [events, LimiterEvent.now]), hadmitted, fun h => ?_⟩
  have hcount := h "MRRLS7_check" 0
  exact absurd hcount (by decide)

end Ren2Hub.Proofs.LimiterRuns
