namespace Ren2Hub.Convert

/-- `other` has the JSON of a part of another type. -/
inductive MediaContent where
  | text (text : String)
  | imageUrl (url mimeType : String)
  | other (json : String)

structure ToolCallRequest where
  id : String
  type : String := "function"
  name : String
  arguments : String
  custom : String := ""
deriving DecidableEq

inductive Content where
  | absent
  | string (text : String)
  | media (media : List MediaContent)
  | other (json : String)

structure Message where
  role : String
  content : Content := .absent
  toolCalls : List ToolCallRequest := []
  toolCallId : String := ""

def MediaContent.text? : MediaContent → Option String
  | .text t => some t
  | _ => none

def Content.texts : Content → List String
  | .absent | .other _ => []
  | .string t => [t]
  | .media ms => ms.filterMap (·.text?)

end Ren2Hub.Convert
