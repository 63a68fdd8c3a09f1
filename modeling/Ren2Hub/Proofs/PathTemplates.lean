import Ren2Hub.Routing.Qualify

namespace Ren2Hub.Proofs.PathTemplates
open Lib Qualify

/-- What may stand for the model. -/
def Model (m : String) : Prop := m ≠ "" ∧ within "/" m = false

/-- The path is one with exactly one placeholder, between `before` and `after`. -/
structure Template (path before after : String) : Prop where
  cut_eq : cut advancedCustomModelPlaceholder path = some (before, after)
  single : within advancedCustomModelPlaceholder after = false

def Fills (before after path : String) : Prop := ∃ m, Model m ∧ path = before ++ m ++ after

/-- `after` begins with the end `y` of `before` and goes on with a name `x`. -/
def Overlap (before after x : String) : Prop :=
  Model x ∧ ∃ z y, y ≠ "" ∧ before = z ++ y ∧ after = y ++ x

/-- The matcher takes the paths of the template, and those in which prefix and suffix share
characters. -/
theorem template_iff (h : Template path before after) (request : String) :
    matchAdvancedCustomIncomingPathTemplate path request = true ↔
      Fills before after request ∨ ∃ x, Overlap before after x ∧ request = before ++ x := by
  have hmatch : matchAdvancedCustomIncomingPathTemplate path request = true ↔
      startsWith before request = true ∧ endsWith after request = true ∧
        Model (dropEnd after (dropStart before request)) := by
    rw [matchAdvancedCustomIncomingPathTemplate, h.cut_eq]
    cases hb : startsWith before request <;> cases ha : endsWith after request <;>
      simp [h.single, Model, hb, ha]
  rw [hmatch]
  constructor
  · rintro ⟨hstart, hend, hmodel⟩
    obtain ⟨t, rfl⟩ := startsWith_iff.mp hstart
    obtain ⟨z, hz⟩ := endsWith_iff.mp hend
    rw [dropStart_append] at hmodel
    rcases append_eq_append hz with ⟨m, _, rfl⟩ | ⟨y, hbefore, rfl⟩
    · rw [dropEnd_append] at hmodel
      exact .inl ⟨m, hmodel, String.append_assoc.symm⟩
    by_cases hy : y = ""
    · subst hy
      have hempty := dropEnd_append "" t
      rw [String.empty_append] at hempty hmodel
      exact absurd hempty hmodel.1
    · rw [dropEnd_longer hy] at hmodel
      exact .inr ⟨t, ⟨hmodel, z, y, hy, hbefore, rfl⟩, rfl⟩
  · rintro (⟨m, hm, rfl⟩ | ⟨x, ⟨hx, z, y, hy, rfl, rfl⟩, rfl⟩)
    · refine ⟨startsWith_iff.mpr ⟨m ++ after, String.append_assoc⟩, endsWith_iff.mpr ⟨_, rfl⟩, ?_⟩
      rw [String.append_assoc, dropStart_append, dropEnd_append]
      exact hm
    · refine ⟨startsWith_iff.mpr ⟨x, rfl⟩, endsWith_iff.mpr ⟨z, String.append_assoc⟩, ?_⟩
      rw [dropStart_append, dropEnd_longer hy]
      exact hx

theorem not_fills_of_overlap (h : Overlap before after x) : ¬ Fills before after (before ++ x) := by
  rintro ⟨m, hm, he⟩
  obtain ⟨_, z, y, _, _, rfl⟩ := h
  have hlen := congrArg String.length he
  simp only [String.length_append] at hlen
  have hzero : m.length = 0 := by omega
  exact hm.1 (String.length_eq_zero_iff.mp hzero)

/-- The other path the matcher tries. -/
def streamPath (path : String) : Option String :=
  (cut ":generateContent" path).map fun (before, after) =>
    before ++ ":streamGenerateContent" ++ after

/-- The template and its form for streams stand for exactly their own paths if and only if no end of
a prefix is also the start of its suffix and followed there by what could be a model; a path that
the form for streams takes that way may still be one of the template. -/
theorem paths_match_exactly_iff (h : Template path before after)
    (hs : ∀ stream, streamPath path = some stream → Template stream before' after') :
    (∀ request,
      (matchAdvancedCustomIncomingPathTemplate path request = true ↔
        Fills before after request) ∧
      (matchAdvancedCustomIncomingPath path request = true ↔
        Fills before after request ∨ (streamPath path).isSome ∧ Fills before' after' request)) ↔
      (∀ x, ¬ Overlap before after x) ∧
      ((streamPath path).isSome → ∀ x, Overlap before' after' x →
        Fills before after (before' ++ x)) := by
  have hfull : ∀ request, matchAdvancedCustomIncomingPath path request = true ↔
      matchAdvancedCustomIncomingPathTemplate path request = true ∨ (streamPath path).isSome ∧
        (Fills before' after' request ∨
          ∃ x, Overlap before' after' x ∧ request = before' ++ x) := by
    intro request
    rw [matchAdvancedCustomIncomingPath]
    cases hc : cut ":generateContent" path with
    | none => simp [streamPath, hc]
    | some parts =>
      rw [← template_iff (hs _ (by rw [streamPath, hc]; rfl)) request]
      simp [streamPath, hc]
  constructor
  · intro hexact
    have hnone : ∀ x, ¬ Overlap before after x := by
      intro x hx
      have hfills := ((hexact (before ++ x)).1.mp ((template_iff h _).mpr (.inr ⟨x, hx, rfl⟩)))
      exact not_fills_of_overlap hx hfills
    refine ⟨hnone, fun hstream x hx => ?_⟩
    have haccepts := (hfull (before' ++ x)).mpr (.inr ⟨hstream, .inr ⟨x, hx, rfl⟩⟩)
    rcases (hexact _).2.mp haccepts with hfills | ⟨_, hfills⟩
    · exact hfills
    · exact absurd hfills (not_fills_of_overlap hx)
  · rintro ⟨hnone, hstream⟩ request
    have htemplate : matchAdvancedCustomIncomingPathTemplate path request = true ↔
        Fills before after request := by
      rw [template_iff h]
      exact or_iff_left fun ⟨x, hx, _⟩ => hnone x hx
    refine ⟨htemplate, ?_⟩
    rw [hfull, htemplate]
    constructor
    · rintro (hfills | ⟨hsome, hfills | ⟨x, hx, rfl⟩⟩)
      · exact .inl hfills
      · exact .inr ⟨hsome, hfills⟩
      · exact .inl (hstream hsome x hx)
    · rintro (hfills | ⟨hsome, hfills⟩)
      · exact .inl hfills
      · exact .inr ⟨hsome, .inl hfills⟩

theorem not_overlap (h : after.toList = c :: rest) (hc : c ∉ before.toList) (x : String) :
    ¬ Overlap before after x := by
  rintro ⟨_, z, y, hy, rfl, rfl⟩
  cases hl : y.toList with
  | nil => exact hy (String.toList_eq_nil_iff.mp hl)
  | cons d l =>
    rw [String.toList_append, hl, List.cons_append, List.cons.injEq] at h
    simp [hl, h.1] at hc

theorem gemini_path_matches_exactly :
    matchAdvancedCustomIncomingPath "/v1beta/models/\x7bmodel\x7d:generateContent"
      "/v1beta/models/m:streamGenerateContent" = true ↔
      Fills "/v1beta/models/" ":generateContent" "/v1beta/models/m:streamGenerateContent" ∨
      (streamPath "/v1beta/models/\x7bmodel\x7d:generateContent").isSome ∧
      Fills "/v1beta/models/" ":streamGenerateContent"
        "/v1beta/models/m:streamGenerateContent" := by
  have h : Template "/v1beta/models/\x7bmodel\x7d:generateContent" "/v1beta/models/"
      ":generateContent" := ⟨by decide, by decide⟩
  have hs : ∀ stream, streamPath "/v1beta/models/\x7bmodel\x7d:generateContent" = some stream →
      Template stream "/v1beta/models/" ":streamGenerateContent" := by
    intro stream hstream
    have he : stream = "/v1beta/models/\x7bmodel\x7d:streamGenerateContent" :=
      (Option.some.inj hstream).symm.trans (by decide)
    rw [he]
    exact ⟨by decide, by decide⟩
  exact ((paths_match_exactly_iff h hs).mpr ⟨not_overlap rfl (by decide), fun _ x hx =>
    absurd hx (not_overlap rfl (by decide) x)⟩ _).2

/-- The `b` is taken for the end of the prefix and the start of the suffix. -/
theorem overlap_accepted :
    Template "/v1/ab\x7bmodel\x7dbc" "/v1/ab" "bc" ∧
    matchAdvancedCustomIncomingPathTemplate "/v1/ab\x7bmodel\x7dbc" "/v1/abc" = true ∧
    ¬ Fills "/v1/ab" "bc" "/v1/abc" := by
  refine ⟨⟨by decide, by decide⟩, by decide, ?_⟩
  rintro ⟨m, hm, he⟩
  have hlen := congrArg String.length he
  simp only [String.length_append] at hlen
  change 7 = 6 + m.length + 2 at hlen
  omega

end Ren2Hub.Proofs.PathTemplates
