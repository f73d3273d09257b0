import Mathlib.Data.List.DropRight
import NodeAttestation.Proofs.Json.Members
import NodeAttestation.Workload

/-!
# Canonical workloads

A workload that has been derived has a kind without white space around it and no argument without a
name, so that it is derived from itself again. Reading a workload from a text does not derive it.
-/

namespace NodeAttestation

namespace Text

theorem trimBlanks_eq_rdropWhile (text : List Char) :
    trimBlanks text = (skipBlanks text).rdropWhile isBlank := rfl

theorem trimBlanks_idempotent (text : List Char) :
    trimBlanks (trimBlanks text) = trimBlanks text := by
  have hfirst : skipBlanks (trimBlanks text) = trimBlanks text := by
    rw [skipBlanks, List.dropWhile_eq_self_iff]
    intro hpos
    -- What is trimmed at its end still begins with what it began with.
    have hstart : trimBlanks text <+: skipBlanks text := by
      rw [trimBlanks_eq_rdropWhile]
      exact List.rdropWhile_prefix isBlank _
    rw [hstart.getElem hpos]
    exact List.dropWhile_get_zero_not isBlank text _
  rw [trimBlanks_eq_rdropWhile (trimBlanks text), hfirst, trimBlanks_eq_rdropWhile,
    List.rdropWhile_idempotent]

theorem trim_idempotent (text : String) : trim (trim text) = trim text := by
  rw [trim, trim, String.toList_ofList, trimBlanks_idempotent]

end Text

namespace Workload

variable {p : Pipeline} {w : Workload}

/-- No white space stands around the kind, and the kind and the names of all arguments hold more
than white space. -/
structure IsCanonical (w : Workload) : Prop where
  kind_ne_empty : w.kind ≠ ""
  trimmed : Text.trim w.kind = w.kind
  named : ∀ name ∈ w.arguments.keys, Text.trim name ≠ ""

theorem derive?_eq_some_iff : derive? p = some w ↔ Text.trim p.kind ≠ "" ∧
    (∀ name ∈ p.arguments.keys, Text.trim name ≠ "") ∧ w = ⟨Text.trim p.kind, p.arguments⟩ := by
  rw [derive?]
  split
  · rename_i hblank
    refine iff_of_false (fun h => nomatch h) ?_
    rintro ⟨hkind, hnames, -⟩
    rcases Bool.or_eq_true_iff.1 hblank with hempty | hany
    · exact hkind (String.isEmpty_iff.1 hempty)
    · obtain ⟨name, hname, hempty⟩ := List.any_eq_true.1 hany
      exact hnames name hname (String.isEmpty_iff.1 hempty)
  · rename_i hblank
    rw [Bool.or_eq_true_iff, not_or, String.isEmpty_iff] at hblank
    obtain ⟨hkind, hnone⟩ := hblank
    have hnames : ∀ name ∈ p.arguments.keys, Text.trim name ≠ "" := by
      intro name hname hempty
      exact hnone (List.any_eq_true.2 ⟨name, hname, String.isEmpty_iff.2 hempty⟩)
    rw [Option.some.injEq, eq_comm]
    exact ⟨fun h => ⟨hkind, hnames, h⟩, fun h => h.2.2⟩

theorem IsCanonical.of_derive? (derived : derive? p = some w) : w.IsCanonical := by
  obtain ⟨hkind, hnames, rfl⟩ := derive?_eq_some_iff.1 derived
  exact ⟨hkind, Text.trim_idempotent _, hnames⟩

theorem IsCanonical.derive?_eq (h : w.IsCanonical) :
    derive? ⟨w.kind, w.arguments⟩ = some w := by
  have hkind : Text.trim w.kind ≠ "" := by
    rw [h.trimmed]
    exact h.kind_ne_empty
  refine derive?_eq_some_iff.2 ⟨hkind, h.named, ?_⟩
  simp only [h.trimmed]

section Reading

theorem filledBy_toJson (w : Workload) : shape.FilledBy [] shape.start
    [("pipelineKind", Json.quoteText w.kind),
      ("pipelineArguments", (Json.ofTextMap w.arguments).compactChars)] w := by
  refine .known (by rfl) (by rfl) ((Json.reads_string w.kind).required _ _ _) ?_
  refine .known (by rfl) (by rfl) ((Json.reads_textMap_compact w.arguments).required _ _ _) ?_
  exact .done (by rfl)

/-- Whatever a workload is, its text gives it back. -/
theorem ofJson_toJson (w : Workload) : ofJson w.toJson.compact = .ok w := by
  have spelled := Json.spellsObject_compact
    [("pipelineKind", .text w.kind), ("pipelineArguments", .ofTextMap w.arguments)]
  simp only [List.map_cons, List.map_nil, Json.compactChars] at spelled
  exact w.filledBy_toJson.readDocument_eq spelled

end Reading

/-- The canonical workloads are those that can be derived, be it from themselves. Every workload can
be read from a text, canonical or not. -/
theorem isCanonical_iff_derived (w : Workload) :
    (w.IsCanonical ↔ ∃ p, derive? p = some w) ∧
      (w.IsCanonical ↔ derive? ⟨w.kind, w.arguments⟩ = some w) ∧
      ofJson w.toJson.compact = .ok w := by
  refine ⟨?_, ?_, w.ofJson_toJson⟩
  · constructor
    · intro canonical
      exact ⟨_, canonical.derive?_eq⟩
    · rintro ⟨p, derived⟩
      exact .of_derive? derived
  · exact ⟨fun canonical => canonical.derive?_eq, fun derived => .of_derive? derived⟩

/-- A kind of nothing but white space is read as it stands, though nothing is derived from it. -/
theorem not_isCanonical_of_blank :
    ofJson "\x7b\"pipelineKind\":\"  \",\"pipelineArguments\":\x7b\x7d\x7d" = .ok ⟨"  ", .empty⟩ ∧
      derive? ⟨"  ", .empty⟩ = none ∧ ¬ IsCanonical ⟨"  ", .empty⟩ := by
  refine ⟨by rfl, by rfl, ?_⟩
  intro canonical
  have trimmed : Text.trim "  " = "  " := canonical.trimmed
  revert trimmed
  decide

end Workload

end NodeAttestation
