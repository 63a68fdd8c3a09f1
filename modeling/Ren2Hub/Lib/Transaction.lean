import Mathlib.Data.List.Basic

namespace Ren2Hub.Lib

/-- Statements on rows `σ` that take effect together or, when one of them fails,
not at all. -/
abbrev Transaction (σ ε : Type) := StateT σ (Except ε)

namespace Transaction
variable {σ ε α β : Type} {t : Transaction σ ε α} {s : σ} {Q R : α → σ → Prop}

def require (c : Prop) [Decidable c] (e : ε) : Transaction σ ε Unit :=
  if c then pure () else throw e

/-- What the caller is told, and the rows afterwards. -/
def commit (t : Transaction σ ε α) (s : σ) : Except ε α × σ :=
  match t.run s with
  | .ok (a, s') => (.ok a, s')
  | .error e => (.error e, s)

theorem run_get {f : σ → Transaction σ ε α} : (get >>= f).run s = (f s).run s := rfl

theorem run_lift :
    ((liftM (Except.ok a : Except ε α) : Transaction σ ε α) >>= f).run s = (f a).run s := rfl

theorem run_bind {f : α → Transaction σ ε β} (h : t.run s = .ok (a, r)) :
    (t >>= f).run s = (f a).run r := by
  change (t.run s >>= fun p => (f p.1).run p.2) = _
  rw [h]
  rfl

theorem require_of {c : Prop} [Decidable c] (h : c) (e : ε) :
    (require c e : Transaction σ ε Unit) = pure () := if_pos h

/-- If all statements go through on `s`, they end in a value and rows with `Q`. -/
def Leaves (t : Transaction σ ε α) (s : σ) (Q : α → σ → Prop) : Prop :=
  ∀ a s', t.run s = .ok (a, s') → Q a s'

@[simp] theorem leaves_pure {a : α} : (pure a : Transaction σ ε α).Leaves s Q ↔ Q a s := by
  constructor
  · intro h
    exact h a s rfl
  intro h b s' hr
  cases hr
  exact h

@[simp] theorem leaves_throw {e : ε} : (throw e : Transaction σ ε α).Leaves s Q ↔ True := by
  constructor
  · intro _
    trivial
  · intro _ b s' hr
    cases hr

@[simp] theorem leaves_get {Q : σ → σ → Prop} : (get : Transaction σ ε σ).Leaves s Q ↔ Q s s :=
  leaves_pure (a := s) (s := s)

@[simp] theorem leaves_modify {f : σ → σ} {Q : Unit → σ → Prop} :
    (modify f : Transaction σ ε Unit).Leaves s Q ↔ Q () (f s) := by
  constructor
  · intro h
    exact h () (f s) rfl
  intro h b s' hr
  cases hr
  exact h

@[simp] theorem leaves_bind {f : α → Transaction σ ε β} {Q : β → σ → Prop} :
    (t >>= f).Leaves s Q ↔ t.Leaves s fun a s' => (f a).Leaves s' Q := by
  constructor
  · intro h a s' hr b s'' hf
    apply h b s''
    change (t.run s >>= fun p => (f p.1).run p.2) = _
    rw [hr]
    exact hf
  · intro h b s'' hr
    change (t.run s >>= fun p => (f p.1).run p.2) = _ at hr
    cases ht : t.run s with
    | error e =>
      rw [ht] at hr
      cases hr
    | ok p =>
      rw [ht] at hr
      exact h p.1 p.2 ht b s'' hr

@[simp] theorem leaves_lift {x : Except ε α} :
    (liftM x : Transaction σ ε α).Leaves s Q ↔ ∀ a, x = .ok a → Q a s := by
  cases x with
  | error e => exact ⟨nofun, nofun⟩
  | ok a =>
    constructor
    · intro h b hb
      cases hb
      exact h a s rfl
    intro h b s' hr
    cases hr
    exact h a rfl

@[simp] theorem leaves_ite {c : Prop} [Decidable c] {u : Transaction σ ε α} :
    (if c then t else u).Leaves s Q ↔ (c → t.Leaves s Q) ∧ (¬ c → u.Leaves s Q) := by
  split <;> simp [*]

@[simp] theorem leaves_require {c : Prop} [Decidable c] {e : ε} {Q : Unit → σ → Prop} :
    (require c e).Leaves s Q ↔ (c → Q () s) := by
  unfold require
  split
  · simp [*]
  · simp [*]

theorem Leaves.mono (h : t.Leaves s Q) (hqr : ∀ a s', Q a s' → R a s') : t.Leaves s R :=
  fun a s' hr => hqr a s' (h a s' hr)

theorem commit_cases (h : t.Leaves s Q) :
    (∃ e, commit t s = (.error e, s)) ∨ ∃ a s', commit t s = (.ok a, s') ∧ Q a s' := by
  unfold commit
  cases hr : t.run s with
  | error e => exact .inl ⟨e, rfl⟩
  | ok p => exact .inr ⟨p.1, p.2, rfl, h p.1 p.2 hr⟩

theorem commit_of_error (h : (commit t s).1 = .error e) : (commit t s).2 = s := by
  unfold commit at h ⊢
  cases hr : t.run s with
  | error e => rfl
  | ok p =>
    rw [hr] at h
    cases h

/-- On rows that look alike through `view` the two give one answer, and rows that
look alike again. -/
def Alike (view : σ → τ) (t t' : Transaction σ ε α) : Prop :=
  ∀ s s', view s = view s' →
    (t.run s).map (Prod.map id view) = (t'.run s').map (Prod.map id view)

section Alike
variable {τ : Type} {view : σ → τ} {t' : Transaction σ ε α}

theorem alike_pure (a : α) : Alike (ε := ε) view (pure a) (pure a) := by
  intro s s' hs
  change Except.ok (a, view s) = .ok (a, view s')
  rw [hs]

theorem alike_throw (e : ε) : Alike (ε := ε) (α := α) view (throw e) (throw e) :=
  fun _ _ _ => rfl

theorem alike_modify (h : ∀ s s', view s = view s' → view (f s) = view (f' s')) :
    Alike (ε := ε) view (modify f) (modify f') := by
  intro s s' hs
  change Except.ok ((), view (f s)) = .ok ((), view (f' s'))
  rw [h s s' hs]

theorem alike_bind (h : Alike view t t') (hf : ∀ a, Alike view (f a) (f' a)) :
    Alike view (t >>= f) (t' >>= f') := by
  intro s s' hs
  have ht := h s s' hs
  change (t.run s >>= fun p => (f p.1).run p.2).map _ =
    (t'.run s' >>= fun p => (f' p.1).run p.2).map _
  cases hr : t.run s with
  | error e =>
    rw [hr] at ht
    cases hr' : t'.run s' with
    | error e' =>
      rw [hr'] at ht
      cases ht
      rfl
    | ok p' =>
      rw [hr'] at ht
      cases ht
  | ok p =>
    rw [hr] at ht
    cases hr' : t'.run s' with
    | error e' =>
      rw [hr'] at ht
      cases ht
    | ok p' =>
      rw [hr'] at ht
      obtain ⟨ha, hv⟩ := Prod.mk.inj (Except.ok.inj ht)
      change ((f p.1).run p.2).map _ = ((f' p'.1).run p'.2).map _
      rw [show p.1 = p'.1 from ha]
      exact hf p'.1 p.2 p'.2 hv

theorem alike_get (h : ∀ s s', view s = view s' → Alike view (f s) (f' s')) :
    Alike view (get >>= f) (get >>= f') :=
  fun s s' hs => h s s' hs s s' hs

theorem alike_lift (x : Except ε α) : Alike (ε := ε) view (liftM x) (liftM x) := by
  cases x with
  | error e => exact alike_throw e
  | ok a => exact alike_pure a

theorem alike_lift_map {x y : Except ε γ} {φ : γ → δ} (h : x.map φ = y.map φ)
    (hf : ∀ a b, φ a = φ b → Alike (ε := ε) view (f a) (f' b)) :
    Alike (ε := ε) view (liftM x >>= f) (liftM y >>= f') := by
  cases x with
  | error e =>
    cases y with
    | error e' =>
      cases h
      exact alike_throw e
    | ok b => cases h
  | ok a =>
    cases y with
    | error e' => cases h
    | ok b => exact hf a b (Except.ok.inj h)

theorem alike_require (c : Prop) [Decidable c] (e : ε) :
    Alike view (require c e) (require c e) := by
  unfold require
  split
  · exact alike_pure ()
  · exact alike_throw e

theorem alike_modify_left (hf : ∀ s, view (f s) = view s) (h : Alike view t t') :
    Alike view (modify f >>= fun _ => t) t' :=
  fun s s' hs => h (f s) s' ((hf s).trans hs)

theorem commit_alike (h : (t.run s).map (Prod.map id view) = (t'.run s).map (Prod.map id view)) :
    (commit t s).1 = (commit t' s).1 ∧ view (commit t s).2 = view (commit t' s).2 := by
  unfold commit
  cases ht : t.run s with
  | error e =>
    cases ht' : t'.run s with
    | error e' =>
      rw [ht, ht'] at h
      cases h
      exact ⟨rfl, rfl⟩
    | ok p' =>
      rw [ht, ht'] at h
      cases h
  | ok p =>
    cases ht' : t'.run s with
    | error e' =>
      rw [ht, ht'] at h
      cases h
    | ok p' =>
      rw [ht, ht'] at h
      obtain ⟨ha, hv⟩ := Prod.mk.inj (Except.ok.inj h)
      exact ⟨congrArg Except.ok ha, hv⟩

end Alike

end Transaction

end Ren2Hub.Lib
