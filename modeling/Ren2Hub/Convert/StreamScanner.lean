import Ren2Hub.Lib.Spelling

namespace Ren2Hub.Convert
open Lib

inductive StreamEndReason where
  | done
  | eof
  | scannerErr
deriving DecidableEq

/-- What the loop cuts out of a line it does not skip. The five characters cut off first are ASCII.
-/
def scannedData (line : String) : Option String :=
  if line.utf8ByteSize < 6 then none
  else if !startsWith "data:" line && !startsWith "[DONE]" line then none
  else
    let data := trimSpace (String.ofList (line.toList.drop 5))
    if data = "" then none else some data

/-- The scanner goroutine, when nobody stops it: what it hands on and the end reason. `err` says
whether the scanner ended with an error. -/
def scan (err : Bool) : List String → List String × StreamEndReason
  | [] => ([], if err then .scannerErr else .eof)
  | line :: lines =>
    match scannedData line with
    | none => scan err lines
    | some data =>
      if !startsWith "[DONE]" data then
        let (sent, reason) := scan err lines
        (data :: sent, reason)
      else ([], .done)

end Ren2Hub.Convert
