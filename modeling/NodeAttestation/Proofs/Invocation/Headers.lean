import NodeAttestation.Proofs.Invocation.Preparation
import NodeAttestation.Proofs.Workload

/-!
# Whether a request can be sent

A header takes all characters but the delete character and the control characters below the space
other than the tab. The arguments of a workload go out in a header as a JSON text, which escapes all
of these but the delete character.
-/

namespace NodeAttestation

def deleteChar : Char := '\x7f'

namespace Headers

section Bytes

/-- Tabs, and all bytes from that of the space on but that of the delete character. -/
def IsLegalByte (b : UInt8) : Prop := b = 9 ∨ 0x20 ≤ b ∧ b ≠ 0x7f

theorem isLegalByte_iff {b : UInt8} :
    IsLegalByte b ↔ b.toNat = 9 ∨ 0x20 ≤ b.toNat ∧ b.toNat ≠ 0x7f := by
  simp [IsLegalByte, ← UInt8.toNat_inj, UInt8.le_iff_toNat_le]

theorem isLegal_iff {c : Char} :
    isLegal c = true ↔ c.toNat = 9 ∨ 0x20 ≤ c.toNat ∧ c.toNat ≠ 0x7f := by
  have htab : c = '\t' ↔ c.toNat = 9 := by
    rw [← Char.toNat_inj]
    rfl
  simp [isLegal, htab]

/-- All bytes of a character beyond ASCII have their highest bit set. -/
theorem high_of_mem_utf8EncodeChar {c : Char} (hc : 0x80 ≤ c.toNat) {b : UInt8}
    (hb : b ∈ String.utf8EncodeChar c) : 0x80 ≤ b.toNat := by
  have hwide : ¬ c.val.toNat ≤ 0x7f := by
    have : c.val.toNat = c.toNat := rfl
    omega
  simp only [String.utf8EncodeChar, hwide, if_false] at hb
  split at hb
  · simp only [List.mem_cons, List.not_mem_nil, or_false] at hb
    rcases hb with rfl | rfl <;> simp only [UInt8.toNat_ofNat'] <;> omega
  · split at hb
    · simp only [List.mem_cons, List.not_mem_nil, or_false] at hb
      rcases hb with rfl | rfl | rfl <;> simp only [UInt8.toNat_ofNat'] <;> omega
    · simp only [List.mem_cons, List.not_mem_nil, or_false] at hb
      rcases hb with rfl | rfl | rfl | rfl <;> simp only [UInt8.toNat_ofNat'] <;> omega

theorem isLegal_iff_bytes (c : Char) :
    isLegal c = true ↔ ∀ b ∈ String.utf8EncodeChar c, IsLegalByte b := by
  rw [isLegal_iff]
  by_cases hc : c.toNat < 0x80
  · have hone : String.utf8EncodeChar c = [UInt8.ofNat c.toNat] := by
      have hnarrow : c.val.toNat ≤ 0x7f := Nat.le_of_lt_succ hc
      rw [String.utf8EncodeChar]
      exact if_pos hnarrow
    have hbyte : (UInt8.ofNat c.toNat).toNat = c.toNat := by
      rw [UInt8.toNat_ofNat']
      omega
    simp only [hone, List.mem_singleton, forall_eq, isLegalByte_iff, hbyte]
  · refine iff_of_true (.inr (by omega)) ?_
    intro b hb
    have hhigh := high_of_mem_utf8EncodeChar (Nat.not_lt.1 hc) hb
    exact isLegalByte_iff.2 (.inr (by omega))

/-- It makes no difference whether the characters of a value are looked at or its bytes. -/
theorem isLegalValue_iff_bytes (value : String) :
    isLegalValue value = true ↔ ∀ b ∈ Bytes.ofText value, IsLegalByte b := by
  have hbytes : Bytes.ofText value = value.toList.flatMap String.utf8EncodeChar := by
    rw [Bytes.ofText, String.toUTF8_eq_toByteArray, ← String.utf8Encode_toList, List.utf8Encode]
    simp
  rw [isLegalValue, List.all_eq_true, hbytes]
  simp only [isLegal_iff_bytes, List.mem_flatMap]
  constructor
  · rintro legal b ⟨c, hc, hb⟩
    exact legal c hc b hb
  · intro legal c hc b hb
    exact legal b ⟨c, hc, hb⟩

end Bytes

section Escaping

open Json (compactChars compactMembers escapeChar quoteText)

theorem isLegal_digitChar : ∀ digit < 16, isLegal (Nat.digitChar digit) = true := by
  decide

/-- What forbids a character and what escapes it differ in a single character. -/
theorem all_isLegal_escapeChar (c : Char) :
    (escapeChar c).all isLegal = true ↔ c ≠ deleteChar := by
  unfold escapeChar
  split
  case h_8 =>
    split
    · rename_i hcontrol
      have hne : c ≠ deleteChar := by
        rintro rfl
        exact absurd hcontrol (by decide)
      have hhigh := isLegal_digitChar (c.toNat / 16) (by omega)
      have hlow := isLegal_digitChar (c.toNat % 16) (by omega)
      rw [Json.hexDigits_four _ hcontrol]
      simp only [List.all_cons, List.all_nil, hhigh, hlow]
      exact iff_of_true (by decide) hne
    · rename_i hvisible
      have hdelete : c ≠ deleteChar ↔ c.toNat ≠ 0x7f := by
        rw [ne_eq, ne_eq, ← Char.toNat_inj]
        rfl
      rw [List.all_cons, List.all_nil, Bool.and_true, isLegal_iff, hdelete]
      omega
  all_goals decide

theorem all_isLegal_quoteText (text : String) :
    (quoteText text).all isLegal = true ↔ deleteChar ∉ text.toList := by
  have hquote : isLegal '"' = true := by decide
  have hescaped : (text.toList.flatMap escapeChar).all isLegal = true ↔
      ∀ c ∈ text.toList, c ≠ deleteChar := by
    rw [List.all_flatMap, List.all_eq_true]
    exact forall₂_congr fun c _ => all_isLegal_escapeChar c
  simp only [quoteText, List.cons_append, List.all_cons, List.all_append, List.all_nil, hquote,
    Bool.true_and, Bool.and_true, hescaped]
  constructor
  · intro clean held
    exact clean _ held rfl
  · rintro clean _ hc rfl
    exact clean hc

theorem all_isLegal_compactMembers (entries : List (String × String)) :
    (compactMembers (entries.map fun entry => (entry.1, .text entry.2))).all isLegal = true ↔
      ∀ entry ∈ entries, deleteChar ∉ entry.1.toList ∧ deleteChar ∉ entry.2.toList := by
  have hcomma : isLegal ',' = true := by decide
  have hcolon : isLegal ':' = true := by decide
  induction entries with
  | nil => simp [compactMembers]
  | cons entry entries ih =>
    simp only [List.map_cons, compactMembers, compactChars, List.cons_append, List.all_cons,
      List.all_append, hcomma, hcolon, Bool.true_and, Bool.and_eq_true, all_isLegal_quoteText, ih,
      List.forall_mem_cons]

/-- A map of texts can stand in a header unless a delete character stands in it. -/
theorem isLegalValue_compact_iff (m : SortedMap String String) :
    isLegalValue (Json.ofTextMap m).compact = true ↔
      ∀ entry ∈ m.entries, deleteChar ∉ entry.1.toList ∧ deleteChar ∉ entry.2.toList := by
  have hopen : isLegal '\x7b' = true := by decide
  have hclose : isLegal '\x7d' = true := by decide
  have hcolon : isLegal ':' = true := by decide
  rw [isLegalValue, Json.compact, String.toList_ofList, Json.ofTextMap]
  cases m.entries with
  | nil => simp [compactChars, hopen, hclose]
  | cons entry entries =>
    simp only [List.map_cons, compactChars, List.cons_append, List.all_cons, List.all_append,
      List.all_nil, hopen, hclose, hcolon, Bool.true_and, Bool.and_true, Bool.and_eq_true,
      all_isLegal_quoteText, all_isLegal_compactMembers, List.forall_mem_cons]

end Escaping

end Headers

/-- A character stands in the name or the value of an argument. -/
def Pipeline.Mentions (p : Pipeline) (c : Char) : Prop :=
  ∃ entry ∈ p.arguments.entries, c ∈ entry.1.toList ∨ c ∈ entry.2.toList

theorem Workload.isLegalValue_argumentsText {p : Pipeline} {w : Workload}
    (derived : derive? p = some w) :
    Headers.isLegalValue w.argumentsText = true ↔ ¬ p.Mentions deleteChar := by
  obtain ⟨-, -, rfl⟩ := derive?_eq_some_iff.1 derived
  rw [argumentsText, Headers.isLegalValue_compact_iff]
  simp only [Pipeline.Mentions, not_exists, not_and, not_or]

namespace Invocation

variable {i : Invocation} {w : Workload} {caller : Caller}

theorem exists_headers_iff (derived : Workload.derive? i.pipeline = some w) :
    (∃ sent, i.headers w caller = .ok sent) ↔ ¬ i.pipeline.Mentions deleteChar ∧
      ∀ value ∈ i.otherValues w caller, Headers.isLegalValue value = true := by
  rw [(i.madeIf_headers w caller).exists_iff, Bool.and_eq_true, List.all_eq_true,
    Workload.isLegalValue_argumentsText derived]

theorem headers_eq_error_iff : i.headers w caller = .error .headerValue ↔
    ¬ ∃ sent, i.headers w caller = .ok sent := by
  have madeIf := i.madeIf_headers w caller
  rw [madeIf.eq_error_iff, madeIf.exists_iff]

/-- If nothing else stands in the way, the headers of an invocation can be made exactly if no delete
character stands in an argument, for then all bytes of the text of the arguments are legal. With a
delete character an invocation fails unless it is turned down before. -/
theorem exists_headers_iff_not_mentions (derived : Workload.derive? i.pipeline = some w)
    (called : i.caller = .ok caller)
    (legal : ∀ value ∈ i.otherValues w caller, Headers.isLegalValue value = true) :
    ((∃ sent, i.headers w caller = .ok sent) ↔ ¬ i.pipeline.Mentions deleteChar) ∧
      ((∀ b ∈ Bytes.ofText w.argumentsText, Headers.IsLegalByte b) ↔
        ¬ i.pipeline.Mentions deleteChar) ∧
      ∀ services c, (i.run services c).1 = .error (.error .headerValue) ↔
        i.checkCold w c = .ok () ∧ i.pipeline.Mentions deleteChar := by
  have made : (∃ sent, i.headers w caller = .ok sent) ↔ ¬ i.pipeline.Mentions deleteChar := by
    rw [exists_headers_iff derived]
    exact and_iff_left legal
  refine ⟨made, ?_, ?_⟩
  · rw [← Headers.isLegalValue_iff_bytes, Workload.isLegalValue_argumentsText derived]
  · intro services c
    rw [run_eq_error_iff derived rfl, prepare_eq_headerValue_iff called, headers_eq_error_iff, made,
      not_not]

section Argued

/-- An invocation with one argument. -/
def arguedInvocation (value : String) : Invocation :=
  { Batch.sampleInvocation .initial .empty with
    pipeline := ⟨" chat ", .ofList [("model", value)]⟩ }

def arguedWorkload (value : String) : Workload := ⟨"chat", .ofList [("model", value)]⟩

/-- Control characters below the space and beyond ASCII go out, a delete character does not. -/
theorem exists_headers_iff_not_mentions_of_argued :
    (∃ sent, (arguedInvocation "\n\x00\x80").headers (arguedWorkload "\n\x00\x80")
        ⟨none, backgroundFeature⟩ = .ok sent) ∧
      ((arguedInvocation "\x7f").run (Batch.sampleServices []) Batch.sampleClient).1 =
        .error (.error .headerValue) := by
  constructor
  · have derived : Workload.derive? (arguedInvocation "\n\x00\x80").pipeline =
        some (arguedWorkload "\n\x00\x80") := by decide +kernel
    refine (exists_headers_iff_not_mentions derived rfl (by decide)).1.2 ?_
    rintro ⟨entry, hentry, held⟩
    cases List.mem_singleton.1 hentry
    revert held
    decide
  · have derived : Workload.derive? (arguedInvocation "\x7f").pipeline =
        some (arguedWorkload "\x7f") := by decide +kernel
    obtain ⟨-, -, fails⟩ := exists_headers_iff_not_mentions derived rfl (by decide)
    refine (fails _ _).2 ⟨by rfl, ?_⟩
    exact ⟨("model", "\x7f"), List.mem_singleton_self _, .inr (by decide)⟩

/-- All but the value of the argument is legal, and nothing is fetched. -/
theorem headers_eq_error_of_delete :
    Workload.derive? (arguedInvocation "\x7f").pipeline = some (arguedWorkload "\x7f") ∧
      (arguedInvocation "\x7f").caller = .ok ⟨none, backgroundFeature⟩ ∧
      (∀ value ∈ (arguedInvocation "\x7f").otherValues (arguedWorkload "\x7f")
        ⟨none, backgroundFeature⟩, Headers.isLegalValue value = true) ∧
      (arguedInvocation "\x7f").headers (arguedWorkload "\x7f") ⟨none, backgroundFeature⟩ =
        .error .headerValue ∧
      ((arguedInvocation "\x7f").run (Batch.sampleServices []) Batch.sampleClient).1 =
        .error (.error .headerValue) := by
  exact ⟨by decide +kernel, rfl, by decide, by rfl, by rfl⟩

end Argued

end Invocation

end NodeAttestation
