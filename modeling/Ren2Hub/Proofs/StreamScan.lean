import Ren2Hub.Convert.StreamScanner

namespace Ren2Hub.Proofs.StreamScan
open Lib Ren2Hub.Convert

/-- The text of a line `data:`, if there is any. -/
def dataText (line : String) : Option String :=
  let text := trimSpace (String.ofList (line.toList.drop 5))
  if startsWith "data:" line && text ≠ "" then some text else none

/-- A line `data:` whose text starts with `[DONE]`. -/
def endsData (line : String) : Bool := (dataText line).any (startsWith "[DONE]")

def terminates (line : String) : Bool := endsData line || startsWith "[DONE]" line

/-- The texts before the first terminator, and how the stream ends. -/
def payloads (err : Bool) (lines : List String) : List String × StreamEndReason :=
  ((lines.takeWhile (!terminates ·)).filterMap dataText,
    if lines.any terminates then .done else if err then .scannerErr else .eof)

theorem scannedData_bare (h : startsWith "[DONE]" line = true) :
    ∃ data, scannedData line = some data ∧ startsWith "[DONE]" data = false := by
  obtain ⟨t, rfl⟩ := startsWith_iff.mp h
  have hsize : ¬ ("[DONE]" ++ t).utf8ByteSize < 6 := by
    rw [String.utf8ByteSize_append]
    exact Nat.not_lt.mpr (Nat.le_add_right 6 _)
  have hcut : ("[DONE]" ++ t).toList.drop 5 = ']' :: t.toList := by simp
  obtain ⟨rest, hrest⟩ : ∃ rest, (']' :: t.toList).rdropWhile isSpace = ']' :: rest := by
    cases hl : (']' :: t.toList).rdropWhile isSpace with
    | nil => exact absurd (List.rdropWhile_eq_nil_iff.mp hl ']' List.mem_cons_self) (by decide)
    | cons c rest =>
      have hpre := List.rdropWhile_prefix isSpace (']' :: t.toList)
      rw [hl, List.cons_prefix_cons] at hpre
      rw [hpre.1]
      exact ⟨rest, rfl⟩
  have htrim : trimSpace (String.ofList (']' :: t.toList)) = String.ofList (']' :: rest) := by
    rw [trimSpace, String.toList_ofList, List.dropWhile_cons_of_neg (by decide), hrest]
  refine ⟨String.ofList (']' :: rest), ?_, ?_⟩
  · rw [scannedData, if_neg hsize, if_neg (by simp [h]), hcut, htrim]
    simp
  · simp only [startsWith, String.toList_ofList]
    rfl

theorem scannedData_eq (h : startsWith "[DONE]" line = false) :
    scannedData line = dataText line := by
  cases hd : startsWith "data:" line with
  | false => simp [scannedData, dataText, h, hd]
  | true =>
    unfold scannedData dataText
    split
    · -- with fewer than six bytes there is nothing after the colon
      rename_i hsize
      obtain ⟨t, rfl⟩ := startsWith_iff.mp hd
      have ht : t = "" := by
        rw [String.utf8ByteSize_append, show ("data:").utf8ByteSize = 5 from rfl] at hsize
        exact String.utf8ByteSize_eq_zero_iff.mp (by omega)
      subst ht
      decide
    · simp [hd, h]

/-- The scanner hands on the texts before the first terminator, and ends with it, exactly if no line
before starts with `[DONE]` itself. -/
theorem scan_payloads_iff (err : Bool) (lines : List String) :
    scan err lines = payloads err lines ↔
      ∀ line ∈ lines.takeWhile (!endsData ·), startsWith "[DONE]" line = false := by
  induction lines with
  | nil => simp [scan, payloads]
  | cons line lines ih =>
    cases hb : startsWith "[DONE]" line with
    | true =>
      obtain ⟨data, hdata, hnot⟩ := scannedData_bare hb
      have hend : endsData line = false := by
        obtain ⟨t, rfl⟩ := startsWith_iff.mp hb
        simp [endsData, dataText, startsWith]
      simp [scan, hdata, hnot, payloads, terminates, hb, hend]
    | false =>
      rw [payloads, Prod.ext_iff] at ih
      cases hd : dataText line with
      | none => simp_all [scan, scannedData_eq hb, payloads, terminates, endsData, Prod.ext_iff]
      | some data =>
        cases hs : startsWith "[DONE]" data with
        | true => simp [scan, scannedData_eq hb, payloads, terminates, endsData, hb, hd, hs]
        | false =>
          simp_all [scan, scannedData_eq hb, payloads, terminates, endsData, Prod.ext_iff]

/-- The end mark without `data:` is passed on as the payload `]`, and does not end the
stream. -/
theorem bare_done_passed_on :
    scan false ["data: a", "[DONE]", "data: b"] = (["a", "]", "b"], .eof) ∧
    payloads false ["data: a", "[DONE]", "data: b"] = (["a"], .done) := by
  decide

end Ren2Hub.Proofs.StreamScan
