import Ren2Hub.Auth.TwoFA
import Ren2Hub.Lib.Inputs

namespace Ren2Hub.Proofs.TwoFARuns
open Lib TwoFactor Attempt List

variable {site : TwoFASite} {s : TwoFAStore} {w : TwoFAWorld} {a : Attempt}

/-- No one-time code of the factor at any time, or none of its backup codes. -/
def Wrong (site : TwoFASite) (secret : String) (codes : List TwoFABackupCode) : Guess → Prop
  | .totp code => ∀ now, validateTOTPCode site secret code now = false
  | .backup code => ∀ b ∈ codes,
      site.validatePasswordAndHash (normalizeBackupCode code) b.codeHash = false

/-- A wrong code, so that it neither resets the failures nor uses a backup code. -/
def Failing (site : TwoFASite) (secret : String) (codes : List TwoFABackupCode) :
    Attempt → Prop
  | .loading guess => Wrong site secret codes guess
  | .checking t guess | .validating t guess => t.secret = secret ∧ Wrong site secret codes guess
  | .comparing _ code unused =>
    ∀ b ∈ unused, site.validatePasswordAndHash code b.codeHash = false
  | .spending _ _ | .resetting _ => False
  | .reading _ _ | .deciding _ _ _ | .swapping _ _ _ _ | .returned _ => True

theorem Failing.totp (h : Failing site secret codes (.validating t (.totp code))) (now : Nat) :
    validateTOTPCode site t.secret code now = false := by
  rw [h.1]
  exact h.2 now

theorem Failing.find (h : Failing site secret codes (.comparing t code unused)) :
    unused.find? (fun b => site.validatePasswordAndHash code b.codeHash) = none := by
  rw [find?_eq_none]
  intro b hb
  simp [h b hb]

theorem failing_step (ha : Failing site s.row.secret s.backupCodes a) :
    (a.step site s).1.row.secret = s.row.secret ∧
      (a.step site s).1.backupCodes = s.backupCodes ∧
      Failing site s.row.secret s.backupCodes (a.step site s).2 := by
  cases a with
  | loading => exact ⟨rfl, rfl, rfl, ha⟩
  | checking =>
    refine ⟨rfl, rfl, ?_⟩
    simp only [step]
    split
    · trivial
    · exact ha
  | validating t guess =>
    cases guess with
    | totp =>
      simp only [step, ha.totp s.now, Bool.false_eq_true, if_false]
      exact ⟨rfl, rfl, trivial⟩
    | backup =>
      simp only [step]
      split
      · refine ⟨rfl, rfl, fun b hb => ha.2 b ?_⟩
        exact (mem_filter.mp hb).1
      · exact ⟨rfl, rfl, trivial⟩
  | comparing =>
    simp only [step, ha.find]
    exact ⟨rfl, rfl, trivial⟩
  | spending | resetting => exact ha.elim
  | reading t tries =>
    cases tries with
    | zero | succ => exact ⟨rfl, rfl, trivial⟩
  | deciding =>
    refine ⟨rfl, rfl, ?_⟩
    simp only [step]
    split <;> trivial
  | swapping =>
    simp only [step]
    split <;> exact ⟨rfl, rfl, trivial⟩
  | returned => exact ⟨rfl, rfl, trivial⟩

def idle : Attempt → Bool
  | .loading _ | .returned _ => true
  | _ => false

def begun : Attempt → Bool
  | .loading _ => false
  | _ => true

/-- An attempt loads the row only while no other is under way. -/
def OneByOne (w : TwoFAWorld) : TwoFAEvent → Prop
  | .step i => (w.jobs[i]?).all begun ∨ w.jobs.all idle
  | _ => True

instance (w : TwoFAWorld) (e : TwoFAEvent) : Decidable (OneByOne w e) :=
  match e with
  | .attempt _ | .tick _ => isTrue trivial
  | .step _ => inferInstanceAs (Decidable (_ ∨ _))

/-- How many codes were evaluated before the lock was set. -/
def beforeLock (evaluations : List Evaluation) : Nat :=
  evaluations.countP (·.lockedUntil.isNone)

/-- The lock that stood in the row when the code was evaluated was over. -/
def Evaluation.Unlocked (e : Evaluation) : Prop := ∀ l, e.lockedUntil = some l → l ≤ e.time

/-- The bounds; and as long as there is no lock, there are fewer failures than the limit. -/
structure Bounded (site : TwoFASite) (s : TwoFAStore) : Prop where
  unlocked : ∀ e ∈ s.evaluations, Evaluation.Unlocked e
  few : beforeLock s.evaluations ≤ site.maxFailAttempts
  below : s.row.lockedUntil = none → s.row.failedAttempts < site.maxFailAttempts

/-- The row is not locked at a time. -/
def OpenAt (s : TwoFAStore) (time : Nat) : Prop := ∀ l, s.row.lockedUntil = some l → l ≤ time

/-- All evaluations are counted, but so many of the attempt under way. -/
def Counted (site : TwoFASite) (owed : Nat) (s : TwoFAStore) : Prop :=
  Bounded site s ∧ s.evaluations.length = s.row.failedAttempts + owed

/-- What the attempt under way knows. -/
def Knows (site : TwoFASite) : Attempt → TwoFAStore → Prop
  | .checking t _, s => Counted site 0 s ∧ t = s.row
  | .validating _ _, s | .comparing _ _ _, s => Counted site 0 s ∧ OpenAt s s.now
  | .reading _ tries, s => Counted site 1 s ∧ OpenAt s s.now ∧ 0 < tries
  | .deciding _ current _, s => Counted site 1 s ∧ OpenAt s s.now ∧ current = s.row
  | .swapping _ current now _, s => Counted site 1 s ∧ OpenAt s now ∧ current = s.row
  | _, _ => True

theorem isLocked_false {t : TwoFA} (h : ¬ t.isLocked now) :
    ∀ l, t.lockedUntil = some l → l ≤ now := by
  intro l hl
  simpa [TwoFA.isLocked, hl] using h

theorem beforeLock_le_length (es : List Evaluation) : beforeLock es ≤ es.length :=
  countP_le_length

theorem Counted.noteWrong (h : Counted site 0 s) (hopen : OpenAt s s.now) :
    Counted site 1 s.noteWrong := by
  obtain ⟨hb, hcount⟩ := h
  refine ⟨⟨?_, ?_, hb.below⟩, by simp [TwoFAStore.noteWrong, hcount]⟩
  · intro e he
    rcases mem_cons.mp he with rfl | he
    · exact hopen
    · exact hb.unlocked e he
  · change beforeLock (⟨s.now, s.row.lockedUntil⟩ :: s.evaluations) ≤ _
    cases hl : s.row.lockedUntil with
    | some l =>
      exact hb.few
    | none =>
      have hlt := hb.below hl
      have hle := beforeLock_le_length s.evaluations
      simp only [beforeLock, countP_cons, Option.isNone_none, if_true] at hle ⊢
      omega

theorem Counted.swap (h : Counted site 1 s) (now : Nat) :
    let next := TwoFAStore.nextFailure site s.row now
    Counted site 0
      { s with row := { s.row with failedAttempts := next.1, lockedUntil := next.2 } } := by
  obtain ⟨hb, hcount⟩ := h
  refine ⟨⟨hb.unlocked, hb.few, ?_⟩, hcount⟩
  intro hnone
  simp only [TwoFAStore.nextFailure] at hnone ⊢
  split at hnone
  · cases hnone
  · omega

theorem attempt_step (hf : Failing site s.row.secret s.backupCodes a)
    (hrest : idle a → Counted site 0 s) (hbusy : ¬ idle a → Knows site a s) :
    (idle (a.step site s).2 → Counted site 0 (a.step site s).1) ∧
      (¬ idle (a.step site s).2 → Knows site (a.step site s).2 (a.step site s).1) := by
  cases a with
  | loading => exact ⟨nofun, fun _ => ⟨hrest rfl, rfl⟩⟩
  | returned => exact ⟨hrest, fun h => absurd rfl h⟩
  | checking t guess =>
    obtain ⟨hs, rfl⟩ := hbusy (by simp [idle])
    simp only [step]
    split
    · exact ⟨fun _ => hs, fun h => absurd rfl h⟩
    · rename_i hopen
      exact ⟨nofun, fun _ => ⟨hs, isLocked_false hopen⟩⟩
  | validating t guess =>
    obtain ⟨hs, hopen⟩ := hbusy (by simp [idle])
    cases guess with
    | totp =>
      simp only [step, hf.totp s.now, Bool.false_eq_true, if_false]
      exact ⟨nofun, fun _ => ⟨hs.noteWrong hopen, hopen, by decide⟩⟩
    | backup =>
      simp only [step]
      split
      · exact ⟨nofun, fun _ => ⟨hs, hopen⟩⟩
      · exact ⟨fun _ => hs, fun h => absurd rfl h⟩
  | comparing =>
    obtain ⟨hs, hopen⟩ := hbusy (by simp [idle])
    simp only [step, hf.find]
    exact ⟨nofun, fun _ => ⟨hs.noteWrong hopen, hopen, by decide⟩⟩
  | spending | resetting => exact hf.elim
  | reading t tries =>
    obtain ⟨hs, hopen, hpos⟩ := hbusy (by simp [idle])
    cases tries with
    | zero => omega
    | succ tries => exact ⟨nofun, fun _ => ⟨hs, hopen, rfl⟩⟩
  | deciding =>
    obtain ⟨hs, hopen, rfl⟩ := hbusy (by simp [idle])
    have hlock : s.row.isLocked s.now = false := by
      cases hl : s.row.lockedUntil with
      | none => simp [TwoFA.isLocked, hl]
      | some l => simpa [TwoFA.isLocked, hl] using hopen l hl
    simp only [step, hlock, Bool.false_eq_true, if_false]
    exact ⟨nofun, fun _ => ⟨hs, hopen, rfl⟩⟩
  | swapping t current now =>
    obtain ⟨hs, hopen, rfl⟩ := hbusy (by simp [idle])
    have hfinds : s.swapFinds s.row now = true := by
      cases hl : s.row.lockedUntil with
      | none => simp [TwoFAStore.swapFinds, hl]
      | some l => simpa [TwoFAStore.swapFinds, hl] using hopen l hl
    simp only [step, hfinds, if_true]
    exact ⟨fun _ => hs.swap now, fun h => absurd rfl h⟩

/-- What holds along a run of attempts one after the other. -/
structure Fair (site : TwoFASite) (secret : String) (codes : List TwoFABackupCode)
    (w : TwoFAWorld) : Prop where
  same : w.state.row.secret = secret ∧ w.state.backupCodes = codes
  failing : ∀ a ∈ w.jobs, Failing site secret codes a
  solo : Crew.Solo (idle · = true) (Counted site 0) (Knows site) w

theorem Counted.tick (h : Counted site owed s) (d : Nat) :
    Counted site owed { s with now := s.now + d } :=
  ⟨⟨h.1.unlocked, h.1.few, h.1.below⟩, h.2⟩

theorem knows_tick (d : Nat) (h : Knows site a s) : Knows site a { s with now := s.now + d } := by
  have hlater : OpenAt s s.now → OpenAt { s with now := s.now + d } (s.now + d) :=
    fun hopen l hl => Nat.le_trans (hopen l hl) (Nat.le_add_right _ _)
  cases a with
  | checking => exact ⟨h.1.tick d, h.2⟩
  | validating | comparing => exact ⟨h.1.tick d, hlater h.2⟩
  | reading | deciding => exact ⟨h.1.tick d, hlater h.2.1, h.2.2⟩
  | swapping => exact ⟨h.1.tick d, h.2⟩
  | _ => trivial

theorem others_idle (h : Fair site secret codes w) (hi : w.jobs[i]? = some a)
    (hturn : OneByOne w (.step i)) (hover : ∀ v, a ≠ .returned v) :
    ∀ (j : Nat) u, j ≠ i → w.jobs[j]? = some u → idle u = true := by
  intro j u hji hj
  by_contra hu
  cases hidle : idle a with
  | false => exact hu (h.solo.others hi (by simp [hidle]) j u hji hj)
  | true =>
    cases a with
    | loading =>
      rcases hturn with hbegun | hall
      · simp [hi, begun] at hbegun
      · exact hu (all_eq_true.mp hall u (mem_of_getElem? hj))
    | returned v => exact hover v rfl
    | _ => cases hidle

theorem Fair.on (h : Fair site secret codes w)
    (hwrong : ∀ g, e = .attempt g → Wrong site secret codes g) (hturn : OneByOne w e) :
    Fair site secret codes (w.on site e) := by
  cases e with
  | attempt guess =>
    refine ⟨h.same, fun a ha => ?_, h.solo.join rfl⟩
    rcases mem_append.mp ha with ha | ha
    · exact h.failing a ha
    · rw [mem_singleton.mp ha]
      exact hwrong guess rfl
  | tick d =>
    exact ⟨h.same, h.failing, h.solo.shift (fun hs => hs.tick d) fun a ha => knows_tick d ha⟩
  | step i =>
    simp only [TwoFAWorld.on]
    rcases Crew.step_cases (step site) w i with he | ⟨a, hi, he⟩ <;> rw [he]
    · exact h
    have ha := h.failing a (mem_of_getElem? hi)
    rw [← h.same.1, ← h.same.2] at ha
    obtain ⟨hsecret, hcodes, hfailing⟩ := failing_step ha
    by_cases hover : ∃ v, a = .returned v
    · obtain ⟨v, rfl⟩ := hover
      have hset : w.jobs.set i (.returned v) = w.jobs := by
        obtain ⟨hlt, hget⟩ := List.getElem?_eq_some_iff.mp hi
        rw [← hget, set_getElem_self]
      simpa only [step, hset] using h
    · refine ⟨⟨hsecret.trans h.same.1, hcodes.trans h.same.2⟩, fun u hu => ?_, ?_⟩
      · rcases mem_or_eq_of_mem_set hu with hu | rfl
        · exact h.failing u hu
        · rw [h.same.1, h.same.2] at hfailing
          exact hfailing
      · exact h.solo.move hi (others_idle h hi hturn fun v hv => hover ⟨v, hv⟩) (attempt_step ha)

theorem Knows.bounded (hf : Failing site secret codes a) (h : Knows site a s) (ha : ¬ idle a) :
    Bounded site s := by
  cases a with
  | checking | validating | comparing | reading | deciding | swapping => exact h.1.1
  | spending | resetting => exact hf.elim
  | loading | returned => exact absurd rfl ha

theorem Fair.bounded (h : Fair site secret codes w) : Bounded site w.state := by
  by_cases hidle : ∀ a ∈ w.jobs, idle a = true
  · exact (h.solo.rest hidle).1
  push Not at hidle
  obtain ⟨a, ha, hbusy⟩ := hidle
  obtain ⟨i, hi⟩ := mem_iff_getElem?.mp ha
  exact (h.solo.busy i a hi hbusy).1.bounded (h.failing a ha) hbusy

/-- The row as `EnableWithAuthVersion` leaves it. -/
def Enabled (s : TwoFAStore) : Prop :=
  s.row.failedAttempts = 0 ∧ s.row.lockedUntil = none ∧ s.evaluations = []

instance (s : TwoFAStore) : Decidable (Enabled s) := inferInstanceAs (Decidable (_ ∧ _ ∧ _))

theorem Enabled.fair (h : Enabled s) (hm : 0 < site.maxFailAttempts) :
    Fair site s.row.secret s.backupCodes ⟨s, []⟩ := by
  obtain ⟨hfailed, hlock, hnone⟩ := h
  refine ⟨⟨rfl, rfl⟩, nofun, fun _ => ⟨⟨?_, ?_, fun _ => ?_⟩, ?_⟩, fun i t hi => ?_⟩
  · simp [hnone]
  · simp [hnone, beforeLock]
  · rw [hfailed]
    exact hm
  · simp [hnone, hfailed]
  · simp at hi

/-- Wrong codes, in attempts of which none loads the row during another: at most so many are
evaluated before the lock, none while it stands, and all are counted. -/
theorem guesses_bounded (site : TwoFASite) (s : TwoFAStore) (events : List TwoFAEvent)
    (hm : 0 < site.maxFailAttempts) (hs : Enabled s)
    (hwrong : ∀ g, .attempt g ∈ events → Wrong site s.row.secret s.backupCodes g)
    (hturns : Along (TwoFAWorld.on site) OneByOne ⟨s, []⟩ events) :
    let w := events.foldl (TwoFAWorld.on site) ⟨s, []⟩
    beforeLock w.state.evaluations ≤ site.maxFailAttempts ∧
      (∀ e ∈ w.state.evaluations, Evaluation.Unlocked e) ∧
      ((∀ a ∈ w.jobs, idle a) →
        w.state.row.failedAttempts = w.state.evaluations.length) := by
  have hgood : Fair site s.row.secret s.backupCodes
      (events.foldl (TwoFAWorld.on site) ⟨s, []⟩) := by
    have hattempts := along_of_forall (f := TwoFAWorld.on site)
      (A := fun e => ∀ g, e = .attempt g → Wrong site s.row.secret s.backupCodes g) ⟨s, []⟩
      (fun e he g hg => hwrong g (hg ▸ he))
    exact (hturns.and hattempts).keeps (fun w e h hg => h.on hg.2 hg.1) (hs.fair hm)
  exact ⟨hgood.bounded.few, hgood.bounded.unlocked, fun hidle => (hgood.solo.rest hidle).2.symm⟩

def sampleSite : TwoFASite where
  validate passcode _ _ := passcode = "123456"
  validatePasswordAndHash password hash := password = hash

def sampleFactor : TwoFAStore where
  row := { secret := "secret" }
  backupCodes := [{ id := 1, codeHash := "ABCD-1234" }]

/-- The attempts make so many steps in turn. -/
def turns (attempts : Nat) (plan : List (Nat × Nat)) : List TwoFAEvent :=
  List.replicate attempts (.attempt (.totp "000000")) ++
    plan.flatMap fun turn => List.replicate turn.2 (.step turn.1)

def sixInTurn : List TwoFAEvent := turns 6 ((List.range 6).map (·, 6))

theorem sixth_guess_refused :
    let w := sixInTurn.foldl (TwoFAWorld.on sampleSite) ⟨sampleFactor, []⟩
    (beforeLock w.state.evaluations ≤ 5 ∧ ∀ e ∈ w.state.evaluations, Evaluation.Unlocked e) ∧
      w.state.row.failedAttempts = 5 ∧ w.jobs[5]? = some (.returned none) :=
  have h := guesses_bounded sampleSite sampleFactor sixInTurn (by decide) (by decide)
    (fun g hg => by
      have hcode : g = .totp "000000" := by
        simpa [sixInTurn, turns] using hg
      subst hcode
      intro now
      rfl)
    (by decide +kernel)
  ⟨⟨h.1, h.2.1⟩, by decide +kernel, by decide +kernel⟩

/-- Seven load the row before one is counted. Six compare their code before the lock is set, the
seventh while it stands, and two codes are not counted. -/
def sevenAtOnce : List TwoFAEvent :=
  turns 7 ((List.range 7).map (·, 2) ++ (List.range 6).map (·, 1) ++
    (List.range 7).map (·, 3))

theorem loaded_rows_evaluated :
    let w := sevenAtOnce.foldl (TwoFAWorld.on sampleSite) ⟨sampleFactor, []⟩
    (∀ a ∈ w.jobs, idle a) ∧ sampleSite.maxFailAttempts = 5 ∧
      beforeLock w.state.evaluations = 6 ∧ w.state.row.failedAttempts = 5 ∧
      w.state.evaluations.length = 7 ∧
      w.state.evaluations.head? = some { time := 0, lockedUntil := some 300000000000 } := by
  decide +kernel

end Ren2Hub.Proofs.TwoFARuns
