import Ren2Hub.Convert.ResponsesRequest
import Ren2Hub.Lib.Checks

namespace Ren2Hub.Proofs.ResponsesConversation
open Lib Ren2Hub.Convert List

/-- A conversation, one thing after the other: a content, or a call of the assistant. -/
inductive Entry where
  | said (role : String) (content : Content) (toolCallId : String)
  | call (call : ToolCallRequest)

def entries (m : Message) : List Entry :=
  (match m.content with
    | .absent => []
    | content => [.said m.role content m.toolCallId]) ++ m.toolCalls.map .call

/-- The messages after the first ones say this, each something, and calls are the
assistant's. -/
def Says (first : List Message) (es : List Entry) (ms : List Message) : Prop :=
  ∃ rest, ms = first ++ rest ∧ rest.flatMap entries = es ∧
    ∀ m ∈ rest, entries m ≠ [] ∧ (m.toolCalls ≠ [] → m.role = "assistant")

theorem Says.add (h : Says first es ms) (hm : entries m = [e])
    (ha : m.toolCalls ≠ [] → m.role = "assistant") : Says first (es ++ [e]) (ms ++ [m]) := by
  obtain ⟨rest, rfl, rfl, hrest⟩ := h
  refine ⟨rest ++ [m], by simp, by simp [hm], fun x hx => ?_⟩
  rcases mem_append.mp hx with hx | hx
  · exact hrest x hx
  · rw [mem_singleton.mp hx, hm]
    exact ⟨by simp, ha⟩

theorem Says.call (hf : ∀ m ∈ first, m.role ≠ "assistant") (h : Says first es ms)
    (c : ToolCallRequest) : Says first (es ++ [.call c]) (appendToolCallToLastAssistant ms c) := by
  have hadd := h.add (m := { role := "assistant", toolCalls := [c] }) (e := .call c) rfl
    fun _ => rfl
  unfold appendToolCallToLastAssistant
  split
  · rename_i last hlast
    split
    · rename_i hrole
      obtain ⟨rest, rfl, rfl, hrest⟩ := h
      cases rest using List.reverseRecOn with
      | nil =>
        rw [append_nil] at hlast
        exact absurd hrole (hf last (mem_of_getLast? hlast))
      | append_singleton init x =>
        simp only [← append_assoc, getLast?_concat, Option.some.injEq] at hlast
        subst hlast
        refine ⟨init ++ [{ x with toolCalls := x.toolCalls ++ [c] }], ?_, ?_, fun m hm => ?_⟩
        · rw [← append_assoc, dropLast_concat, append_assoc]
        · simp [entries]
        rcases mem_append.mp hm with hm | hm
        · exact hrest m (mem_append_left _ hm)
        · rw [mem_singleton.mp hm]
          exact ⟨by simp [entries], fun _ => hrole⟩
    · exact hadd
  · rename_i hnil
    rw [getLast?_eq_none_iff.mp hnil] at hadd
    exact hadd

theorem Says.unique (h : Says first es ms) (h' : Says first es' ms) : es = es' := by
  obtain ⟨rest, rfl, rfl, _⟩ := h
  obtain ⟨rest', heq, rfl, _⟩ := h'
  rw [append_cancel_left heq]

end Ren2Hub.Proofs.ResponsesConversation
