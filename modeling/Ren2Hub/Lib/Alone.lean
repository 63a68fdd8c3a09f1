import Ren2Hub.Lib.Program

namespace Ren2Hub.Lib.Machine
variable {Call : Type} {Answer : Call → Type} {State : Type} {α β : Type}

/-- A process that has the machine for itself. The list tells which calls fail; those beyond its end
do not. `ready` is not asked. -/
def alone (m : Machine Call Answer State) :
    Program Call Answer α → List Bool → State → α × State
  | .done a, _, s => (a, s)
  | .call c next, faults, s =>
    match if faults.headD false then m.fault c else none with
    | some r => m.alone (next r) faults.tail s
    | none => m.alone (next (m.exec c s).2) faults.tail (m.exec c s).1

variable {m : Machine Call Answer State}

@[simp] theorem alone_done (a : α) (faults : List Bool) (s : State) :
    m.alone (.done a : Program Call Answer α) faults s = (a, s) := rfl

theorem alone_call (c : Call) (next : Answer c → Program Call Answer α) (s : State)
    (h : faults.headD false = false) :
    m.alone (.call c next) faults s =
      m.alone (next (m.exec c s).2) faults.tail (m.exec c s).1 := by
  simp only [alone, h, Bool.false_eq_true, if_false]

theorem alone_fault (next : Answer c → Program Call Answer α) (s : State)
    (h : faults.headD false = true) (hr : m.fault c = some r) :
    m.alone (.call c next) faults s = m.alone (next r) faults.tail s := by
  simp only [alone, h, if_true, hr]

theorem alone_bind (p : Program Call Answer α) (f : α → Program Call Answer β) (s : State) :
    m.alone (p >>= f) [] s = m.alone (f (m.alone p [] s).1) [] (m.alone p [] s).2 := by
  induction p generalizing s with
  | done => rfl
  | call c next ih => exact ih _ _

/-- Whatever fails, the process ends in a value and a state related by `Q`. -/
def Ensures (m : Machine Call Answer State) (Q : α → State → Prop) :
    Program Call Answer α → State → Prop
  | .done a, s => Q a s
  | .call c next, s =>
    m.Ensures Q (next (m.exec c s).2) (m.exec c s).1 ∧
      ∀ r, m.fault c = some r → m.Ensures Q (next r) s

variable {Q R : α → State → Prop} {p : Program Call Answer α}

theorem alone_ensures (h : m.Ensures Q p s) (faults : List Bool) :
    Q (m.alone p faults s).1 (m.alone p faults s).2 := by
  induction p generalizing s faults with
  | done => exact h
  | call c next ih =>
    unfold alone
    split
    · rename_i r hr
      apply ih r
      apply h.2
      split at hr
      · exact hr
      · cases hr
    · exact ih _ h.1 _

theorem Ensures.result (h : m.Ensures Q p s) (hrun : m.alone p faults s = (a, s')) : Q a s' := by
  have h' := alone_ensures h faults
  rw [hrun] at h'
  exact h'

theorem Ensures.bind (hp : m.Ensures Q p s) (hf : ∀ a s, Q a s → m.Ensures S (f a) s) :
    m.Ensures S (p >>= f) s := by
  induction p generalizing s with
  | done a => exact hf a s hp
  | call c next ih => exact ⟨ih _ hp.1, fun r hr => ih r (hp.2 r hr)⟩

theorem Ensures.mono (hp : m.Ensures Q p s) (h : ∀ a s, Q a s → R a s) : m.Ensures R p s := by
  rw [← p.bind_done]
  exact hp.bind h

/-- A process all of whose calls keep `J`. -/
theorem ensures_of_yields {V : α → Prop} {J : State → Prop} (hp : p.Yields P V)
    (hk : ∀ c s, P c → J s → J (m.exec c s).1) (hj : J s) :
    m.Ensures (fun a s' => V a ∧ J s') p s := by
  induction p generalizing s with
  | done => exact ⟨hp, hj⟩
  | call c next ih =>
    exact ⟨ih _ (hp.2 _) (hk c s hp.1 hj), fun r _ => ih r (hp.2 r) hj⟩

end Ren2Hub.Lib.Machine
