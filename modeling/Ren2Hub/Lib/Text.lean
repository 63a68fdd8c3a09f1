import Mathlib.Data.List.DropRight

namespace Ren2Hub.Lib

/-- `unicode.IsSpace`, the characters `strings.TrimSpace` removes. -/
def isSpace (c : Char) : Bool :=
  c == '\t' || c == '\n' || c == '\x0b' || c == '\x0c' || c == '\r' || c == ' ' ||
  c.toNat == 0x85 || c.toNat == 0xa0 || c.toNat == 0x1680 ||
  (0x2000 ≤ c.toNat && c.toNat ≤ 0x200a) || c.toNat == 0x2028 || c.toNat == 0x2029 ||
  c.toNat == 0x202f || c.toNat == 0x205f || c.toNat == 0x3000

/-- `strings.TrimSpace`. -/
def trimSpace (s : String) : String :=
  String.ofList ((s.toList.dropWhile isSpace).rdropWhile isSpace)

/-- Nothing is left of the string after `strings.TrimSpace`. -/
def blank (s : String) : Bool := s.toList.all isSpace

/-- Cutting at the end leaves a list that does not start with a cut character as
it starts. -/
theorem dropWhile_rdropWhile (p : α → Bool) (l : List α) (h : l.dropWhile p = l) :
    (l.rdropWhile p).dropWhile p = l.rdropWhile p := by
  rw [List.dropWhile_eq_self_iff] at h ⊢
  intro hl
  have hpre := List.rdropWhile_prefix p l
  rw [hpre.getElem hl]
  exact h (Nat.lt_of_lt_of_le hl hpre.length_le)

@[simp] theorem trimSpace_trimSpace (s : String) : trimSpace (trimSpace s) = trimSpace s := by
  unfold trimSpace
  rw [String.toList_ofList, dropWhile_rdropWhile isSpace _ (List.dropWhile_idempotent ..),
    List.rdropWhile_idempotent]

end Ren2Hub.Lib
