import Mathlib.Data.List.Basic

namespace Ren2Hub.Lib
variable {σ ι : Type} {f : σ → ι → σ} {G : σ → ι → Prop}

/-- What one input keeps, every list of inputs keeps. -/
theorem foldl_keeps {I : σ → Prop} (h : ∀ x a, I x → I (f x a)) (hx : I x) (as : List ι) :
    I (as.foldl f x) := by
  induction as generalizing x with
  | nil => exact hx
  | cons a as ih => exact ih (h x a hx)

/-- Every input of the list meets `G` in the state it finds. -/
def Along (f : σ → ι → σ) (G : σ → ι → Prop) : σ → List ι → Prop
  | _, [] => True
  | x, a :: as => G x a ∧ Along f G (f x a) as

instance [∀ x a, Decidable (G x a)] : (x : σ) → (as : List ι) → Decidable (Along f G x as)
  | _, [] => inferInstanceAs (Decidable True)
  | x, a :: as =>
    haveI : Decidable (Along f G (f x a) as) := instDecidableAlong (f x a) as
    inferInstanceAs (Decidable (_ ∧ _))

/-- What inputs with `G` keep, every list of them keeps. -/
theorem Along.keeps {I : σ → Prop} (h : ∀ x a, I x → G x a → I (f x a)) (hx : I x)
    (has : Along f G x as) : I (as.foldl f x) := by
  induction as generalizing x with
  | nil => exact hx
  | cons a as ih => exact ih (h x a hx has.1) has.2

theorem along_append :
    Along f G x (as ++ bs) ↔ Along f G x as ∧ Along f G (as.foldl f x) bs := by
  induction as generalizing x with
  | nil => simp [Along]
  | cons a as ih => simp [Along, ih, and_assoc]

theorem Along.and (h : Along f G x as) (h' : Along f G' x as) :
    Along f (fun x a => G x a ∧ G' x a) x as := by
  induction as generalizing x with
  | nil => trivial
  | cons a as ih => exact ⟨⟨h.1, h'.1⟩, ih h.2 h'.2⟩

theorem along_of_forall (x : σ) (h : ∀ a ∈ as, A a) : Along f (fun _ => A) x as := by
  induction as generalizing x with
  | nil => trivial
  | cons a as ih =>
    exact ⟨h a List.mem_cons_self, ih (f x a) fun b hb => h b (List.mem_cons_of_mem _ hb)⟩

/-- `J` holds whatever comes and shows that an input without `G` breaks `P`; inputs with `G` keep
`K`, and `K` gives `P`. -/
theorem along_iff {J K P : σ → Prop} (hJ : ∀ x a, A x a → J x → J (f x a))
    (hK : ∀ x a, A x a → K x → G x a → K (f x a)) (hP : ∀ x, K x → P x)
    (hbad : ∀ x a, A x a → J x → ¬ G x a → ¬ P (f x a)) (hj : J x) (hk : K x) (as : List ι)
    (has : Along f A x as) : (∀ pre, pre <+: as → P (pre.foldl f x)) ↔ Along f G x as := by
  constructor
  · intro h
    clear hk
    induction as generalizing x with
    | nil => trivial
    | cons a as ih =>
      obtain ⟨ha, has⟩ := has
      have hg : G x a := by
        by_contra hg
        exact hbad x a ha hj hg (h [a] ⟨as, rfl⟩)
      refine ⟨hg, ih (hJ x a ha hj) has ?_⟩
      intro pre hpre
      exact h (a :: pre) (List.cons_prefix_cons.mpr ⟨rfl, hpre⟩)
  · intro h pre hpre
    apply hP
    clear hj
    induction as generalizing x pre with
    | nil =>
      rw [List.prefix_nil.mp hpre]
      exact hk
    | cons a as ih =>
      cases pre with
      | nil => exact hk
      | cons b pre =>
        obtain ⟨rfl, hrest⟩ := List.cons_prefix_cons.mp hpre
        exact ih (hK x b has.1 hk h.1) has.2 h.2 pre hrest

/-- Where an input keeps `P` exactly if it meets `G`, a list never leaves `P` exactly if all do. -/
theorem along_iff_keeps {P : σ → Prop} (h : ∀ x a, A x a → P x → (P (f x a) ↔ G x a)) (hx : P x)
    (as : List ι) (has : Along f A x as) :
    (∀ pre, pre <+: as → P (pre.foldl f x)) ↔ Along f G x as := by
  induction as generalizing x with
  | nil => simpa [Along] using hx
  | cons a as ih =>
    have hstep := h x a has.1 hx
    constructor
    · intro hpre
      have hnext : P (f x a) := hpre [a] ⟨as, rfl⟩
      refine ⟨hstep.mp hnext, (ih hnext has.2).mp fun pre hp => ?_⟩
      exact hpre (a :: pre) (List.cons_prefix_cons.mpr ⟨rfl, hp⟩)
    · intro halong pre hpre
      cases pre with
      | nil => exact hx
      | cons b pre =>
        obtain ⟨rfl, hrest⟩ := List.cons_prefix_cons.mp hpre
        exact (ih (hstep.mpr halong.1) has.2).mpr halong.2 pre hrest

end Ren2Hub.Lib
