import Ren2Hub.Lib.Text

namespace Ren2Hub.Lib

/-- `unicode.ToLower` where it gives ASCII: also of the Kelvin sign and the dotted capital I. -/
def lowerChar (c : Char) : Char :=
  if c.toNat = 0x212a then 'k' else if c.toNat = 0x130 then 'i' else c.toLower

/-- `strings.ToLower`. -/
def lower (s : String) : String := String.ofList (s.toList.map lowerChar)

/-- `unicode.ToUpper` where it gives ASCII: also of the dotless i and the long s. -/
def upperChar (c : Char) : Char :=
  if c.toNat = 0x131 then 'I' else if c.toNat = 0x17f then 'S' else c.toUpper

/-- `strings.ToUpper`. -/
def upper (s : String) : String := String.ofList (s.toList.map upperChar)

/-- `strings.ReplaceAll` of one character by nothing. -/
def without (c : Char) (s : String) : String := String.ofList (s.toList.filter (· ≠ c))

section
variable (part s : String)

/-- `strings.Contains`. -/
def within : Bool := s.toList.tails.any part.toList.isPrefixOf

/-- `strings.HasPrefix`. -/
def startsWith : Bool := part.toList.isPrefixOf s.toList

/-- `strings.HasSuffix`. -/
def endsWith : Bool := part.toList.isSuffixOf s.toList

/-- `strings.TrimPrefix`. -/
def dropStart : String :=
  if startsWith part s then String.ofList (s.toList.drop part.toList.length) else s

/-- `strings.TrimSuffix`. -/
def dropEnd : String :=
  if endsWith part s then
    String.ofList (s.toList.take (s.toList.length - part.toList.length))
  else s

end

/-- What stands before and after the first occurrence of a separator. -/
def cutList (sep : List Char) : List Char → Option (List Char × List Char)
  | [] => if sep = [] then some ([], []) else none
  | c :: s =>
    if sep.isPrefixOf (c :: s) then some ([], (c :: s).drop sep.length)
    else (cutList sep s).map fun (before, after) => (c :: before, after)

/-- `strings.Cut`. -/
def cut (sep s : String) : Option (String × String) :=
  (cutList sep.toList s.toList).map fun (before, after) =>
    (String.ofList before, String.ofList after)

theorem startsWith_iff : startsWith part s = true ↔ ∃ t, s = part ++ t := by
  rw [startsWith, List.isPrefixOf_iff_prefix]
  constructor
  · rintro ⟨t, ht⟩
    exact ⟨String.ofList t, by rw [← String.toList_inj]; simp [ht]⟩
  · rintro ⟨t, rfl⟩
    exact ⟨t.toList, by simp⟩

theorem endsWith_iff : endsWith part s = true ↔ ∃ t, s = t ++ part := by
  rw [endsWith, List.isSuffixOf_iff_suffix]
  constructor
  · rintro ⟨t, ht⟩
    exact ⟨String.ofList t, by rw [← String.toList_inj]; simp [ht]⟩
  · rintro ⟨t, rfl⟩
    exact ⟨t.toList, by simp⟩

theorem dropStart_append (part t : String) : dropStart part (part ++ t) = t := by
  rw [dropStart, if_pos (startsWith_iff.mpr ⟨t, rfl⟩)]
  simp

theorem dropEnd_append (t part : String) : dropEnd part (t ++ part) = t := by
  rw [dropEnd, if_pos (endsWith_iff.mpr ⟨t, rfl⟩)]
  simp

theorem append_eq_append {p t z s : String} (h : p ++ t = z ++ s) :
    (∃ m, z = p ++ m ∧ t = m ++ s) ∨ ∃ y, p = z ++ y ∧ s = y ++ t := by
  simp only [← String.toList_inj, String.toList_append] at h ⊢
  rcases List.append_eq_append_iff.mp h with ⟨m, hm⟩ | ⟨y, hy⟩
  · exact .inl ⟨String.ofList m, by simpa using hm⟩
  · exact .inr ⟨String.ofList y, by simpa using hy⟩

theorem dropEnd_longer (hy : y ≠ "") (t : String) : dropEnd (y ++ t) t = t := by
  apply if_neg
  intro h
  obtain ⟨u, hu⟩ := endsWith_iff.mp h
  have hlen := congrArg String.length hu
  simp only [String.length_append] at hlen
  have hzero : y.length = 0 := by omega
  exact hy (String.length_eq_zero_iff.mp hzero)

theorem isSpace_range (h : isSpace c) : c.toNat ≤ 32 ∨ 133 ≤ c.toNat := by
  by_contra hrange
  have hlow : ∀ d : Char, d.toNat ≤ 32 → c ≠ d := by
    rintro d hd rfl
    omega
  simp only [isSpace, Bool.or_eq_true, Bool.and_eq_true, beq_iff_eq, decide_eq_true_eq,
    hlow '\t' (by decide), hlow '\n' (by decide), hlow '\x0b' (by decide),
    hlow '\x0c' (by decide), hlow '\r' (by decide), hlow ' ' (by decide), false_or] at h
  omega

theorem toLower_cases (c : Char) :
    c.toLower = c ∨ 65 ≤ c.toNat ∧ c.toNat ≤ 90 ∧ c.toLower.toNat = c.toNat + 32 := by
  unfold Char.toLower
  split
  · rename_i h
    obtain ⟨hfrom, hto⟩ := h
    change c.val.toNat ≤ 90 at hto
    refine .inr ⟨hfrom, hto, ?_⟩
    change (c.val.toNat + 32) % 2 ^ 32 = c.val.toNat + 32
    omega
  · exact .inl rfl

@[simp] theorem isSpace_toLower (c : Char) : isSpace c.toLower = isSpace c := by
  rcases toLower_cases c with h | ⟨hfrom, hto, hlow⟩
  · rw [h]
  have hno : ∀ d : Char, 65 ≤ d.toNat ∧ d.toNat ≤ 122 → isSpace d = false := by
    intro d hd
    by_contra hspace
    have := isSpace_range (eq_true_of_ne_false hspace)
    omega
  rw [hno c (by omega), hno c.toLower (by omega)]

@[simp] theorem lowerChar_toLower (c : Char) : lowerChar c.toLower = lowerChar c := by
  rcases toLower_cases c with h | ⟨hfrom, hto, hlow⟩
  · rw [h]
  have htwice : c.toLower.toLower = c.toLower := by
    rcases toLower_cases c.toLower with h | ⟨_, hle, _⟩
    · exact h
    · omega
  simp only [lowerChar, htwice]
  rw [if_neg (by omega), if_neg (by omega), if_neg (by omega), if_neg (by omega)]

end Ren2Hub.Lib
