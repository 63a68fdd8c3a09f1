import Ren2Hub.Convert.Chat

namespace Ren2Hub.Convert

variable {J : Type}

/-- A part has one of its fields set; `text ""` is a part with none. -/
inductive GeminiPart (J : Type) where
  | text (text : String)
  | inlineData (mimeType data : String)
  | fileData (mimeType fileUri : String)
  | functionCall (name : String) (arguments : J)
  | functionResponse (response : J)

structure GeminiChatContent (J : Type) where
  role : String := ""
  parts : List (GeminiPart J)

def callId (n : Nat) : String := "call_" ++ n.repr

def convertGeminiRoleToOpenAI : String → String
  | "user" => "user"
  | "model" => "assistant"
  | "function" => "function"
  | _ => "user"

/-- What the loop over the parts of a content collects. -/
structure Collected where
  mediaContents : List MediaContent := []
  toolCalls : List ToolCallRequest := []
  messages : List Message

/-- What a part adds to the content of its message. -/
def GeminiPart.media? : GeminiPart J → Option MediaContent
  | .text t => if t ≠ "" then some (.text t) else none
  | .inlineData mimeType data =>
    some (.imageUrl ("data:" ++ mimeType ++ ";base64," ++ data) mimeType)
  | .fileData mimeType fileUri => some (.imageUrl fileUri mimeType)
  | .functionCall .. | .functionResponse _ => none

/-- The message of a content, if anything was collected for it. -/
def Collected.message (c : Collected) (role : String) : List Message :=
  match c.toolCalls, c.mediaContents with
  | [], [] => []
  | [], [.text t] => [{ role, content := .string t }]
  | [], media => [{ role, content := .media media }]
  | toolCalls, _ => [{ role, toolCalls }]

def texts (parts : List (GeminiPart J)) : List String :=
  (parts.filterMap (·.media?)).filterMap (·.text?)

def GeminiPart.call? : GeminiPart J → Option (String × J)
  | .functionCall name args => some (name, args)
  | _ => none

def GeminiPart.response? : GeminiPart J → Option J
  | .functionResponse response => some response
  | _ => none

def GeminiChatContent.calls (c : GeminiChatContent J) : List (String × J) :=
  c.parts.filterMap (·.call?)

def GeminiChatContent.responses (c : GeminiChatContent J) : List J :=
  c.parts.filterMap (·.response?)

end Ren2Hub.Convert
