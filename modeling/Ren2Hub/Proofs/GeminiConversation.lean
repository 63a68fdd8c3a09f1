import Mathlib
import Ren2Hub.Convert.GeminiRequest

namespace Ren2Hub.Proofs.GeminiConversation
open Ren2Hub.Convert GeminiPart List

variable {J : Type} {toJSONString : J → String}

/-- The tool messages of the parts, after `n` calls of the same content. -/
def answers (toJSONString : J → String) : Nat → List (GeminiPart J) → List Message
  | _, [] => []
  | n, .functionCall .. :: parts => answers toJSONString (n + 1) parts
  | n, .functionResponse r :: parts =>
    { role := "tool", toolCallId := callId n, content := .string (toJSONString r) } ::
      answers toJSONString n parts
  | n, _ :: parts => answers toJSONString n parts

def spoken (c : GeminiChatContent J) : List (String × String) :=
  (texts c.parts).map fun t => (convertGeminiRoleToOpenAI c.role, t)

/-- The texts of the conversation with the roles of their messages. -/
def said (ms : List Message) : List (String × String) :=
  (ms.filter fun m => m.role ≠ "tool" ∧ m.role ≠ "system").flatMap fun m =>
    m.content.texts.map fun t => (m.role, t)

def toolMessages (ms : List Message) : List Message := ms.filter fun m => m.role = "tool"

/-- Which call, counted over the whole request, each response answers: the one at its place among
the calls of the content before. That content's calls are counted from `start`, `next` were made so
far. -/
def answeredCalls : Nat → Nat → List (GeminiChatContent J) → List Nat
  | _, _, [] => []
  | start, next, c :: contents =>
    (range' start c.responses.length) ++ answeredCalls next (next + c.calls.length) contents

/-- The messages keep the conversation. -/
structure Kept (toJSONString : J → String) (contents : List (GeminiChatContent J))
    (ms : List Message) : Prop where
  texts : contents.flatMap spoken <+~ said ms
  calls : (ms.flatMap (·.toolCalls)).map (fun x => (x.name, x.arguments)) =
    (contents.flatMap (·.calls)).map fun x => (x.1, toJSONString x.2)
  ids : ((ms.flatMap (·.toolCalls)).map (·.id)).Nodup
  responses : (toolMessages ms).map (·.content) =
    (contents.flatMap (·.responses)).map fun r => .string (toJSONString r)
  answers : (toolMessages ms).map (fun m => some m.toolCallId) =
    (answeredCalls 0 0 contents).map fun n => (ms.flatMap (·.toolCalls))[n]?.map (·.id)
  after : ∀ before m later, ms = before ++ m :: later → m.role = "tool" →
    ∃ a ∈ before, ∃ x ∈ a.toolCalls, x.id = m.toolCallId

end Ren2Hub.Proofs.GeminiConversation
