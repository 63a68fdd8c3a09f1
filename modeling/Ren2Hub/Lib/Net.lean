import Mathlib.Algebra.Group.Int.Defs
import Ren2Hub.Lib.Spelling

namespace Ren2Hub.Lib
open List

/-- `net.IP`, of four or of sixteen bytes. -/
inductive IP where
  | v4 (a : BitVec 32)
  | v6 (a : BitVec 128)
deriving DecidableEq, Repr

namespace IP

def to16 : IP → BitVec 128
  | v4 a => 0xffff#96 ++ a
  | v6 a => a

/-- The four bytes of an address that is one of IPv4 in either form. -/
def to4 : IP → Option (BitVec 32)
  | v4 a => some a
  | v6 a => if a.extractLsb' 32 96 = 0xffff#96 then some (a.extractLsb' 0 32) else none

/-- `IP.Equal`: an IPv4 address is the same in both forms. -/
def equal (x y : IP) : Bool := x.to16 = y.to16

def ipv4 (a b c d : BitVec 8) : BitVec 32 := a ++ b ++ c ++ d

def isUnspecified (x : IP) : Bool := x.equal (v4 0) || x.equal (v6 0)

def isLoopback (x : IP) : Bool :=
  match x.to4 with
  | some a => a.extractLsb' 24 8 = 127
  | none => x.equal (v6 1)

def isLinkLocalUnicast (x : IP) : Bool :=
  match x.to4 with
  | some a => a.extractLsb' 16 16 = 0xa9fe
  | none => x.to16.extractLsb' 118 10 = 0x3fa

def isLinkLocalMulticast (x : IP) : Bool :=
  match x.to4 with
  | some a => a.extractLsb' 8 24 = 0xe00000
  | none => x.to16.extractLsb' 120 8 = 0xff ∧ x.to16.extractLsb' 112 4 = 2

def isInterfaceLocalMulticast : IP → Bool
  | v4 _ => false
  | v6 a => a.extractLsb' 120 8 = 0xff ∧ a.extractLsb' 112 4 = 1

def isPrivate (x : IP) : Bool :=
  match x.to4 with
  | some a => a.extractLsb' 24 8 = 10 ∨ a.extractLsb' 20 12 = 0xac1 ∨
      a.extractLsb' 16 16 = 0xc0a8
  | none => x.to16.extractLsb' 121 7 = 0x7e

end IP

structure IPNet where
  ip : IP
  ones : Nat

/-- `net.CIDRMask`. -/
def cidrMask (w ones : Nat) : BitVec w := BitVec.allOnes w <<< (w - ones)

/-- A network of sixteen bytes that is an IPv4 one takes the last four bytes of its mask. -/
def IPNet.contains (n : IPNet) (x : IP) : Bool :=
  match n.ip.to4, x.to4 with
  | some a, some b =>
    let mask := match n.ip with
      | .v4 _ => cidrMask 32 n.ones
      | .v6 _ => cidrMask 32 (n.ones - 96)
    a &&& mask = b &&& mask
  | none, none => n.ip.to16 &&& cidrMask 128 n.ones = x.to16 &&& cidrMask 128 n.ones
  | _, _ => false

def digitValue (c : Char) : Nat := c.toNat - 48

def decimal (s : List Char) : Nat := s.foldl (fun n c => 10 * n + digitValue c) 0

def isDecimal (s : List Char) : Bool := s ≠ [] ∧ s.all Char.isDigit

/-- `strconv.Atoi`: an optional sign and digits, within 64 bits. -/
def atoi (s : String) : Option Int :=
  let (negative, digits) := match s.toList with
    | '-' :: rest => (true, rest)
    | '+' :: rest => (false, rest)
    | all => (false, all)
  if isDecimal digits then
    let n : Int := if negative then -decimal digits else decimal digits
    if -2 ^ 63 ≤ n ∧ n < 2 ^ 63 then some n else none
  else none

def isHex (c : Char) : Bool :=
  c.isDigit || ('a' ≤ c && c ≤ 'f') || ('A' ≤ c && c ≤ 'F')

def hexValue (c : Char) : Nat :=
  if c.isDigit then digitValue c else if 'a' ≤ c then c.toNat - 87 else c.toNat - 55

def hexNumber (s : List Char) : Nat := s.foldl (fun n c => 16 * n + hexValue c) 0

/-- The four fields of an IPv4 address: `val` is the field being read, `fields` are those
before it. -/
def ipv4Fields : List Char → (val : Option Nat) → (fields : List Nat) → Option (List Nat)
  | [], none, _ => none
  | [], some v, fields => if fields.length = 3 then some (fields ++ [v]) else none
  | c :: s, val, fields =>
    if c.isDigit then
      match val with
      | none => ipv4Fields s (some (digitValue c)) fields
      | some v =>
        -- no further digit after a leading zero
        if v = 0 ∨ 10 * v + digitValue c > 255 then none
        else ipv4Fields s (some (10 * v + digitValue c)) fields
    else if c = '.' then
      match val with
      | none => none
      | some v => if fields.length = 3 then none else ipv4Fields s none (fields ++ [v])
    else none

def parseIPv4 (s : List Char) : Option (BitVec 32) :=
  match ipv4Fields s none [] with
  | some [a, b, c, d] => some (IP.ipv4 (.ofNat 8 a) (.ofNat 8 b) (.ofNat 8 c) (.ofNat 8 d))
  | _ => none

/-- The groups of an IPv6 address and where `::` stands; `room` is how many groups may still come.
-/
def ipv6Groups : (room : Nat) → List Char → (groups : List Nat) → (ellipsis : Option Nat) →
    Option (List Nat × Option Nat)
  | 0, s, groups, ellipsis => if s = [] then some (groups, ellipsis) else none
  | room + 1, s, groups, ellipsis =>
    let digits := s.takeWhile isHex
    if digits = [] ∨ digits.length > 4 then none
    else
      let groups' := groups ++ [hexNumber digits]
      match s.dropWhile isHex with
      | [] => some (groups', ellipsis)
      | '.' :: _ =>
        -- an IPv4 address at the end takes two groups
        if (ellipsis = none ∧ groups.length ≠ 6) ∨ room = 0 then none
        else
          match parseIPv4 s with
          | some a => some (groups ++ [(a.extractLsb' 16 16).toNat, (a.extractLsb' 0 16).toNat],
              ellipsis)
          | none => none
      | [':'] => none
      | [':', ':'] => if ellipsis.isSome then none else some (groups', some groups'.length)
      | ':' :: ':' :: more =>
        if ellipsis.isSome then none else ipv6Groups room more groups' (some groups'.length)
      | ':' :: more => ipv6Groups room more groups' ellipsis
      | _ => none

def groupsValue (groups : List Nat) : BitVec 128 :=
  .ofNat 128 (groups.foldl (fun n g => 65536 * n + g) 0)

def expandGroups : List Nat × Option Nat → Option (BitVec 128)
  | (groups, none) => if groups.length = 8 then some (groupsValue groups) else none
  | (groups, some k) =>
    if groups.length < 8 then
      some (groupsValue (groups.take k ++ List.replicate (8 - groups.length) 0 ++ groups.drop k))
    else none

def parseIPv6 : List Char → Option (BitVec 128)
  | [':', ':'] => some 0
  | ':' :: ':' :: s => (ipv6Groups 8 s [] (some 0)).bind expandGroups
  | s => (ipv6Groups 8 s [] none).bind expandGroups

/-- `net.ParseIP`; an address with a zone is none. -/
def parseIP (s : String) : Option IP :=
  match s.toList.find? fun c => c = '.' ∨ c = ':' ∨ c = '%' with
  | some '.' => (parseIPv4 s.toList).map .v4
  | some ':' => (parseIPv6 s.toList).map .v6
  | _ => none

/-- `net.ParseCIDR`, the network. -/
def parseCIDR (s : String) : Option IPNet :=
  match cut "/" s with
  | some (addr, mask) =>
    match parseIP addr with
    | some (.v4 a) =>
      if isDecimal mask.toList ∧ decimal mask.toList ≤ 32 then
        some ⟨.v4 (a &&& cidrMask 32 (decimal mask.toList)), decimal mask.toList⟩
      else none
    | some (.v6 a) =>
      if isDecimal mask.toList ∧ decimal mask.toList ≤ 128 then
        some ⟨.v6 (a &&& cidrMask 128 (decimal mask.toList)), decimal mask.toList⟩
      else none
    | none => none
  | none => none

example : parseIP "::ffff:127.0.0.1" = some (.v6 0xffff7f000001#128) := by decide +kernel

example : parseIP "010.0.0.1" = none := by decide +kernel

def cutLastColon (s : List Char) : Option (List Char × List Char) :=
  if ':' ∈ s then
    some ((s.reverse.dropWhile (· ≠ ':')).tail.reverse, (s.reverse.takeWhile (· ≠ ':')).reverse)
  else none

/-- `net.SplitHostPort`. -/
def splitHostPort (hostport : String) : Option (String × String) :=
  match cutLastColon hostport.toList with
  | none => none
  | some (before, port) =>
    match before with
    | '[' :: inner =>
      -- the first closing bracket ends the host, and the colon comes next
      if ']' ∈ inner ∧ inner.dropWhile (· ≠ ']') = [']'] then
        let host := inner.takeWhile (· ≠ ']')
        if '[' ∈ inner ∨ '[' ∈ port ∨ ']' ∈ port then none
        else some (String.ofList host, String.ofList port)
      else none
    | host =>
      if ':' ∈ host ∨ '[' ∈ host ∨ ']' ∈ host ∨ '[' ∈ port ∨ ']' ∈ port then none
      else some (String.ofList host, String.ofList port)

/-- `net.JoinHostPort`. -/
def joinHostPort (host port : String) : String :=
  if ':' ∈ host.toList then "[" ++ host ++ "]:" ++ port else host ++ ":" ++ port

example : splitHostPort "[fe80::1]:443" = some ("fe80::1", "443") := by decide +kernel

namespace IP

theorem to4_append (a : BitVec 32) : (v6 (0xffff#96 ++ a)).to4 = some a := by
  have hhigh : (0xffff#96 ++ a).extractLsb' 32 96 = 0xffff#96 := BitVec.extractLsb'_append_eq_left
  have hlow : (0xffff#96 ++ a).extractLsb' 0 32 = a := BitVec.extractLsb'_append_eq_right
  simp only [to4, hhigh, hlow, ↓reduceIte]

variable (x : IP)

@[simp] theorem to4_to16 : (v6 x.to16).to4 = x.to4 := by
  cases x with
  | v4 a => exact to4_append a
  | v6 a => rfl

@[simp] theorem to16_to16 : (v6 x.to16).to16 = x.to16 := rfl

@[simp] theorem equal_to16 (x y : IP) : (v6 x.to16).equal y = x.equal y := rfl

@[simp] theorem isUnspecified_to16 : (v6 x.to16).isUnspecified = x.isUnspecified := rfl

@[simp] theorem isLoopback_to16 : (v6 x.to16).isLoopback = x.isLoopback := by
  unfold isLoopback
  rw [to4_to16, equal_to16]

@[simp] theorem isLinkLocalUnicast_to16 :
    (v6 x.to16).isLinkLocalUnicast = x.isLinkLocalUnicast := by
  unfold isLinkLocalUnicast
  rw [to4_to16, to16_to16]

@[simp] theorem isLinkLocalMulticast_to16 :
    (v6 x.to16).isLinkLocalMulticast = x.isLinkLocalMulticast := by
  unfold isLinkLocalMulticast
  rw [to4_to16, to16_to16]

@[simp] theorem isPrivate_to16 : (v6 x.to16).isPrivate = x.isPrivate := by
  unfold isPrivate
  rw [to4_to16, to16_to16]

@[simp] theorem isInterfaceLocalMulticast_to16 :
    (v6 x.to16).isInterfaceLocalMulticast = x.isInterfaceLocalMulticast := by
  cases x with
  | v4 a =>
    have htop : (0xffff#96 ++ a).extractLsb' 120 8 = 0#8 := by
      rw [BitVec.extractLsb'_append_eq_of_le (by decide)]
      decide
    simp [isInterfaceLocalMulticast, to16, htop]
  | v6 a => rfl

end IP

@[simp] theorem IPNet.contains_to16 (n : IPNet) (x : IP) :
    n.contains (.v6 x.to16) = n.contains x := by
  unfold IPNet.contains
  rw [IP.to4_to16, IP.to16_to16]

def addressChar (c : Char) : Prop := isHex c ∨ c = '.' ∨ c = ':'

theorem ipv4Fields_chars {val fields out} (h : ipv4Fields s val fields = some out) :
    ∀ c ∈ s, addressChar c := by
  induction s generalizing val fields with
  | nil => simp
  | cons c s ih =>
    unfold ipv4Fields at h
    by_cases hdigit : c.isDigit
    · have hc : addressChar c := .inl (by simp [isHex, hdigit])
      rw [if_pos hdigit] at h
      cases val with
      | none => simpa [hc] using ih h
      | some v =>
        simp only [Option.ite_none_left_eq_some] at h
        simpa [hc] using ih h.2
    · rw [if_neg hdigit] at h
      by_cases hdot : c = '.'
      · have hc : addressChar c := .inr (.inl hdot)
        rw [if_pos hdot] at h
        cases val with
        | none => cases h
        | some v =>
          simp only [Option.ite_none_left_eq_some] at h
          simpa [hc] using ih h.2
      · rw [if_neg hdot] at h
        cases h

theorem parseIPv4_chars (h : parseIPv4 s = some a) : ∀ c ∈ s, addressChar c := by
  unfold parseIPv4 at h
  split at h
  · rename_i hfields
    exact ipv4Fields_chars hfields
  · cases h

theorem ipv6Groups_chars {groups ellipsis out} (h : ipv6Groups room s groups ellipsis = some out) :
    ∀ c ∈ s, addressChar c := by
  induction room generalizing s groups ellipsis with
  | zero =>
    simp only [ipv6Groups] at h
    split_ifs at h with hs
    simp [hs]
  | succ room ih =>
    have hdigits : ∀ c ∈ s.takeWhile isHex, addressChar c := fun c hc =>
      .inl (mem_takeWhile_imp hc)
    have hcolon : addressChar ':' := .inr (.inr rfl)
    simp only [ipv6Groups, Option.ite_none_left_eq_some] at h
    replace h := h.2
    have hrest : ∀ c ∈ s.dropWhile isHex, addressChar c := by
      split at h
      · rename_i hs
        simp [hs]
      · rename_i hs
        simp only [Option.ite_none_left_eq_some] at h
        replace h := h.2
        split at h
        · rename_i hv4
          exact fun c hc => parseIPv4_chars hv4 c ((dropWhile_suffix isHex).mem hc)
        · cases h
      · cases h
      · rename_i hs
        simp [hs, hcolon]
      · rename_i hs
        simp only [Option.ite_none_left_eq_some] at h
        simpa [hs, hcolon] using ih h.2
      · rename_i hs
        simpa [hs, hcolon] using ih h
      · cases h
    intro c hc
    rw [← takeWhile_append_dropWhile (p := isHex) (l := s)] at hc
    exact (mem_append.mp hc).elim (hdigits c) (hrest c)

theorem parseIPv6_chars (h : parseIPv6 s = some a) : ∀ c ∈ s, addressChar c := by
  have hcolon : addressChar ':' := .inr (.inr rfl)
  unfold parseIPv6 at h
  split at h
  · simp [hcolon]
  · obtain ⟨out, hout, _⟩ := Option.bind_eq_some_iff.mp h
    simpa [hcolon] using ipv6Groups_chars hout
  · obtain ⟨out, hout, _⟩ := Option.bind_eq_some_iff.mp h
    exact ipv6Groups_chars hout

theorem parseIP_chars (h : parseIP s = some ip) : ∀ c ∈ s.toList, addressChar c := by
  unfold parseIP at h
  split at h
  · obtain ⟨a, ha, _⟩ := Option.map_eq_some_iff.mp h
    exact parseIPv4_chars ha
  · obtain ⟨a, ha, _⟩ := Option.map_eq_some_iff.mp h
    exact parseIPv6_chars ha
  · cases h

theorem addressChar_not_space (h : addressChar c) : isSpace c = false := by
  have hrange : 46 ≤ c.toNat ∧ c.toNat ≤ 102 := by
    rcases h with h | rfl | rfl
    · simp only [isHex, Char.isDigit, Bool.or_eq_true, Bool.and_eq_true, decide_eq_true_eq,
        Char.le_def, UInt32.le_iff_toNat_le] at h
      simp only [Char.toNat]
      rcases h with (h | h) | h
      · change 48 ≤ c.val.toNat ∧ c.val.toNat ≤ 57 at h
        omega
      · change 97 ≤ c.val.toNat ∧ c.val.toNat ≤ 102 at h
        omega
      · change 65 ≤ c.val.toNat ∧ c.val.toNat ≤ 70 at h
        omega
    · decide
    · decide
  by_contra hspace
  have := isSpace_range (eq_true_of_ne_false hspace)
  omega

theorem trimSpace_of_parseIP (h : parseIP s = some ip) : trimSpace s = s := by
  have hnone : ∀ c ∈ s.toList, isSpace c = false := fun c hc =>
    addressChar_not_space (parseIP_chars h c hc)
  have hleft : s.toList.dropWhile isSpace = s.toList := by
    rw [dropWhile_eq_self_iff]
    intro hl
    simpa using hnone _ (getElem_mem hl)
  have hright : s.toList.rdropWhile isSpace = s.toList := by
    rw [rdropWhile_eq_self_iff]
    intro hl
    simpa using hnone _ (getLast_mem hl)
  rw [trimSpace, hleft, hright, String.ofList_toList]

end Ren2Hub.Lib
