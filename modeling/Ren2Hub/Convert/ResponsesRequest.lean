import Ren2Hub.Convert.Chat
import Ren2Hub.Lib.Text

namespace Ren2Hub.Convert
open Lib

/-- A field of type `any`: absent or null, a string, or the JSON of another value. -/
inductive Field where
  | null
  | string (text : String)
  | json (text : String)

/-- `responsesArgumentsString`, and `responseToolOutputToChatContent` as well. -/
def Field.toString : Field → String
  | .null => ""
  | .string text | .json text => text

def appendToolCallToLastAssistant (messages : List Message) (call : ToolCallRequest) :
    List Message :=
  match messages.getLast? with
  | some last =>
    if last.role = "assistant" then
      messages.dropLast ++ [{ last with toolCalls := last.toolCalls ++ [call] }]
    else messages ++ [{ role := "assistant", toolCalls := [call] }]
  | none => [{ role := "assistant", toolCalls := [call] }]

end Ren2Hub.Convert
