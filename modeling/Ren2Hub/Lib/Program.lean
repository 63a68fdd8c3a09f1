import Mathlib.Data.List.Basic

namespace Ren2Hub.Lib

/-- One atomic call after the other, the next one picked from the answer. -/
inductive Program (Call : Type) (Answer : Call → Type) (α : Type) where
  | done (value : α)
  | call (c : Call) (next : Answer c → Program Call Answer α)

namespace Program
variable {Call : Type} {Answer : Call → Type} {α β : Type}

def bind (p : Program Call Answer α) (f : α → Program Call Answer β) : Program Call Answer β :=
  match p with
  | .done a => f a
  | .call c next => .call c (fun r => (next r).bind f)

instance : Monad (Program Call Answer) where
  pure := .done
  bind := bind

@[simp] theorem pure_eq (a : α) : (pure a : Program Call Answer α) = .done a := rfl

theorem bind_done (p : Program Call Answer α) : (p >>= .done) = p := by
  induction p with
  | done => rfl
  | call c next ih => exact congrArg (Program.call c) (funext ih)

/-- Every call the process can ever issue satisfies `P`, every result `Q`. -/
def Yields (P : Call → Prop) (Q : α → Prop) : Program Call Answer α → Prop
  | .done a => Q a
  | .call c next => P c ∧ ∀ r, (next r).Yields P Q

/-- Every call the process can ever issue satisfies the predicate. -/
abbrev Uses (P : Call → Prop) (p : Program Call Answer α) : Prop := p.Yields P fun _ => True

variable {P P' : Call → Prop} {Q R : α → Prop} {S : β → Prop} {p : Program Call Answer α}

theorem Yields.bind (hp : p.Yields P Q) (hf : ∀ a, Q a → (f a).Yields P S) :
    (p >>= f).Yields P S := by
  induction p with
  | done a => exact hf a hp
  | call c next ih => exact ⟨hp.1, fun r => ih r (hp.2 r)⟩

theorem Yields.mono (hp : p.Yields P Q) (hc : ∀ c, P c → P' c) (hv : ∀ a, Q a → R a) :
    p.Yields P' R := by
  induction p with
  | done a => exact hv a hp
  | call c next ih => exact ⟨hc c hp.1, fun r => ih r (hp.2 r)⟩

/-- Sequencing after a step that may fail, one continuation for each outcome. -/
theorem Yields.bindExcept {ε γ : Type} {p : Program Call Answer (Except ε γ)}
    {f : Except ε γ → Program Call Answer β} (hp : p.Uses P)
    (herror : ∀ e, (f (.error e)).Yields P S) (hok : ∀ a, (f (.ok a)).Yields P S) :
    (p >>= f).Yields P S := by
  refine hp.bind fun r _ => ?_
  cases r with
  | error e => exact herror e
  | ok a => exact hok a

theorem Uses.bind {f : α → Program Call Answer β} (hp : p.Uses P) (hf : ∀ a, (f a).Uses P) :
    (p >>= f).Uses P :=
  Yields.bind hp fun a _ => hf a

theorem Uses.mono (hp : p.Uses P) (h : ∀ c, P c → P' c) : p.Uses P' :=
  Yields.mono hp h fun _ => id

theorem uses_any (p : Program Call Answer α) : p.Uses (fun _ => True) := by
  induction p with
  | done => trivial
  | call c next ih => exact ⟨trivial, ih⟩

end Program

/-- What a call does, whether it may run now (a taken lock is not ready), and what the caller is
told when it fails without a trace. -/
structure Machine (Call : Type) (Answer : Call → Type) (State : Type) where
  exec : (c : Call) → State → State × Answer c
  ready : Call → State → Bool
  fault : (c : Call) → Option (Answer c)

/-- One scheduling decision: which process moves, and whether its call fails. -/
structure Choice where
  proc : Nat
  fails : Bool

def Choice.go (proc : Nat) : Choice := ⟨proc, false⟩

def Choice.fail (proc : Nat) : Choice := ⟨proc, true⟩

def Choice.turns (plan : List (Nat × Nat)) : List Choice :=
  plan.flatMap fun turn => List.replicate turn.2 (.go turn.1)

/-- A process that stopped for good is one the schedule never picks again. -/
structure Config (Call : Type) (Answer : Call → Type) (State : Type) where
  state : State
  pool : List (Program Call Answer Unit)

namespace Machine
variable {Call : Type} {Answer : Call → Type} {State : Type} {α β Φ : Type}
variable (m : Machine Call Answer State)

section
variable (cfg : Config Call Answer State)

def step (ch : Choice) : Config Call Answer State :=
  match cfg.pool[ch.proc]? with
  | some (.call c next) =>
    if ch.fails then
      match m.fault c with
      | some r => { cfg with pool := cfg.pool.set ch.proc (next r) }
      | none => cfg
    else if m.ready c cfg.state then
      { state := (m.exec c cfg.state).1
        pool := cfg.pool.set ch.proc (next (m.exec c cfg.state).2) }
    else cfg
  | _ => cfg

def run (sched : List Choice) : Config Call Answer State :=
  sched.foldl m.step cfg

/-- The call a scheduling decision really carries out, if it carries one out. -/
def executed (ch : Choice) : Option Call :=
  match cfg.pool[ch.proc]? with
  | some (.call c _) => if ch.fails then none else if m.ready c cfg.state then some c else none
  | _ => none

end

/-- Every call carried out along the schedule finds the state as the guard
wants it. -/
def Meets (guard : Call → State → Prop) :
    List Choice → Config Call Answer State → Prop
  | [], _ => True
  | ch :: sched, cfg =>
    (∀ c, m.executed cfg ch = some c → guard c cfg.state) ∧ Meets guard sched (m.step cfg ch)

variable (cfg : Config Call Answer State)

@[simp] theorem run_cons (ch : Choice) (sched : List Choice) :
    m.run cfg (ch :: sched) = m.run (m.step cfg ch) sched := rfl

/-- A scheduling decision does nothing, fails a call or carries one out. -/
theorem step_cases (ch : Choice) : (m.step cfg ch = cfg ∧ m.executed cfg ch = none) ∨
    (∃ c next r, cfg.pool[ch.proc]? = some (.call c next) ∧ m.fault c = some r ∧
      m.executed cfg ch = none ∧
      m.step cfg ch = { cfg with pool := cfg.pool.set ch.proc (next r) }) ∨
    (∃ c next, cfg.pool[ch.proc]? = some (.call c next) ∧ m.ready c cfg.state = true ∧
      m.executed cfg ch = some c ∧
      m.step cfg ch =
        { state := (m.exec c cfg.state).1
          pool := cfg.pool.set ch.proc (next (m.exec c cfg.state).2) }) := by
  unfold step executed
  cases hp : cfg.pool[ch.proc]? with
  | none => exact .inl ⟨rfl, rfl⟩
  | some p =>
    cases p with
    | done => exact .inl ⟨rfl, rfl⟩
    | call c next =>
      by_cases hf : ch.fails = true
      · cases hr : m.fault c with
        | none => exact .inl ⟨by simp [hf, hr], by simp [hf]⟩
        | some r => exact .inr (.inl ⟨c, next, r, rfl, hr, by simp [hf], by simp [hf, hr]⟩)
      by_cases hy : m.ready c cfg.state = true
      · exact .inr (.inr ⟨c, next, rfl, hy, by simp [hf, hy], by simp [hf, hy]⟩)
      · exact .inl ⟨by simp [hf, hy], by simp [hf, hy]⟩

theorem run_pool_length (sched : List Choice) :
    (m.run cfg sched).pool.length = cfg.pool.length := by
  induction sched generalizing cfg with
  | nil => rfl
  | cons ch sched ih =>
    rw [run_cons, ih]
    rcases m.step_cases cfg ch with ⟨he, _⟩ | ⟨_, _, _, _, _, _, he⟩ | ⟨_, _, _, _, _, he⟩ <;>
      simp [he]

end Machine

end Ren2Hub.Lib
