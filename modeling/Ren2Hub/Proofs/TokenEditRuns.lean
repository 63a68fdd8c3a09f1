import Ren2Hub.Billing.TokenEdits
import Ren2Hub.Lib.Inputs

namespace Ren2Hub.Proofs.TokenEditRuns
open Lib Tokens Office

/-- A row before any call on it. -/
def opened (row : Token) : Office := { state := { row } }

/-- The balance is what it was at the start and what was credited and taken since. -/
def Accounted (start : Token) (s : Ledger) : Prop :=
  s.row.remainQuota + s.row.usedQuota = start.remainQuota + start.usedQuota ∧
    s.row.remainQuota = start.remainQuota + s.net

instance (start : Token) (s : Ledger) : Decidable (Accounted start s) :=
  inferInstanceAs (Decidable (_ ∧ _))

/-- An edit that comes to its write still finds the quota it is about to write. -/
def Unmoved (w : Office) : EditEvent → Prop
  | .step i _ => ∀ token, w.jobs[i]? = some (.updating token) →
      token.remainQuota = w.state.row.remainQuota
  | _ => True

variable {start : Token} {s : Ledger} {w : Office}

theorem step_accounted (now : Int) (e : Edit) (h : Accounted start s) :
    Accounted start (e.step now s).1 ↔
      ∀ token, e = .updating token → token.remainQuota = s.row.remainQuota := by
  cases e with
  | reading q =>
    have hsame : ((Edit.reading q).step now s).1 = s := by
      rw [Edit.step]
      split <;> rfl
    simp [hsame, h]
  | validating =>
    have hsame : (Edit.validating.step now s).1 = s := by
      rw [Edit.step]
      split <;> rfl
    simp [hsame, h]
  | marking => simpa [Edit.step, Accounted, Token.selectUpdate] using h
  | done => simpa [Edit.step] using h
  | updating =>
    obtain ⟨hsum, hremain⟩ := h
    simp only [Edit.step, Accounted, Token.update, Edit.updating.injEq, forall_eq']
    omega

theorem addQuota_accounted (delta now : Int) (h : Accounted start s) :
    Accounted start { row := s.row.addQuota delta now, net := s.net + delta } := by
  obtain ⟨hsum, hremain⟩ := h
  simp only [Accounted, Token.addQuota]
  omega

theorem reserve_accounted (quota : Int) (unlimited : Bool) (now : Int) (h : Accounted start s) :
    Accounted start
      { row := (tryReserveTokenQuota quota unlimited now s.row).2
        net := s.net -
          if (tryReserveTokenQuota quota unlimited now s.row).1 then quota else 0 } := by
  have htaken := addQuota_accounted (-quota) now h
  rw [← Int.sub_eq_add_neg] at htaken
  unfold tryReserveTokenQuota reserveTokenQuotaDB decreaseTokenQuota
  by_cases hneg : quota < 0
  · simpa [hneg] using h
  by_cases hzero : quota = 0
  · simpa [hzero] using h
  cases unlimited with
  | true => simpa [hneg, hzero] using htaken
  | false =>
    by_cases henough : s.row.remainQuota ≥ quota
    · simpa [hneg, hzero, henough] using htaken
    · simpa [hneg, hzero, henough] using h

theorem on_accounted (e : EditEvent) (h : Accounted start w.state) :
    Accounted start (w.on e).state ↔ Unmoved w e := by
  cases e with
  | updateToken q =>
    have hsame : (w.on (.updateToken q)).state = w.state := by
      rw [on]
      split <;> rfl
    simp [hsame, h, Unmoved]
  | validateUserToken => simpa [on, Crew.join, Unmoved] using h
  | step i now =>
    simp only [on, Crew.step, Unmoved]
    cases hi : w.jobs[i]? with
    | none => simpa using h
    | some e =>
      simp only [Option.some.injEq]
      exact step_accounted now e h
  | increase quota now =>
    refine iff_of_true ?_ trivial
    by_cases hneg : quota < 0
    · simpa [on, increaseTokenQuota, hneg] using h
    · simpa [on, increaseTokenQuota, hneg] using addQuota_accounted quota now h
  | decrease quota now =>
    refine iff_of_true ?_ trivial
    by_cases hneg : quota < 0
    · simpa [on, decreaseTokenQuota, hneg] using h
    have htaken := addQuota_accounted (-quota) now h
    rw [← Int.sub_eq_add_neg] at htaken
    simpa [on, decreaseTokenQuota, hneg] using htaken
  | reserve quota unlimited now =>
    exact iff_of_true (reserve_accounted quota unlimited now h) trivial

/-- The balance is accounted for exactly if no edit writes back a quota that has changed since. -/
theorem balance_kept_iff (row : Token) (events : List EditEvent) :
    (∀ pre, pre <+: events → Accounted row (pre.foldl on (opened row)).state) ↔
      Along on Unmoved (opened row) events := by
  have hstart : Accounted row (opened row).state := ⟨rfl, (Int.add_zero _).symm⟩
  have hall : Along on (fun _ _ => True) (opened row) events :=
    along_of_forall _ fun _ _ => trivial
  exact along_iff_keeps (P := fun w => Accounted row w.state) (fun w e _ h => on_accounted e h)
    hstart events hall

/-- A token is switched off while a request takes thirty: the thirty come back. -/
theorem switch_off_restores_quota :
    let row : Token := { id := 1, userId := 1, key := "k", status := 1, remainQuota := 100 }
    let off : UpdateRequest := ⟨true, { row with status := 2 }⟩
    let w := [EditEvent.updateToken off, .step 0 0, .decrease 30 0, .step 0 0].foldl on
      (opened row)
    w.state.row.status = 2 ∧ w.state.row.remainQuota = 100 ∧ w.state.row.usedQuota = 30 ∧
      w.state.net = -30 ∧ ¬ Accounted row w.state := by
  decide +kernel

end Ren2Hub.Proofs.TokenEditRuns
