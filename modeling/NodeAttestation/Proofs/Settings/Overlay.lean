import NodeAttestation.Proofs.Json.Overlay
import NodeAttestation.Settings.Text

/-!
# Settings are laid over the initial ones

A text gives some of the settings. What is read is what it gives, and the initial value of anything
it leaves out.
-/

namespace NodeAttestation

open Json

namespace Settings

/-- Settings where a text gives them, and the initial ones elsewhere. -/
def overlaid (s : Settings) (names : List String) : Settings where
  environment := if "environment" ∈ names then s.environment else initial.environment
  serviceUrl := if "serviceUrl" ∈ names then s.serviceUrl else initial.serviceUrl
  requestPath := if "prefetchRequestPath" ∈ names then s.requestPath else initial.requestPath
  attestationsPerRequest :=
    if "maxPrefetchedAttestations" ∈ names then s.attestationsPerRequest
    else initial.attestationsPerRequest
  batches := if "maxPrefetchBatches" ∈ names then s.batches else initial.batches
  validitySeconds :=
    if "prewarmAttestationsValiditySecs" ∈ names then s.validitySeconds
    else initial.validitySeconds
  ignoreCertificateErrors :=
    if "ignoreCertificateErrors" ∈ names then s.ignoreCertificateErrors
    else initial.ignoreCertificateErrors
  forceRelay := if "forceOhttp" ∈ names then s.forceRelay else initial.forceRelay
  testOptions := if "testOptions" ∈ names then s.testOptions else initial.testOptions
  overrideCell := if "overrideCellId" ∈ names then s.overrideCell else initial.overrideCell
  defaultBundle :=
    if "defaultBundleIdentifier" ∈ names then s.defaultBundle else initial.defaultBundle
  userAgent := if "userAgent" ∈ names then s.userAgent else initial.userAgent
  maxFrameLength := if "maxFrameLength" ∈ names then s.maxFrameLength else initial.maxFrameLength
  maxLimitSeconds :=
    if "maxRateLimitTtlSecs" ∈ names then s.maxLimitSeconds else initial.maxLimitSeconds

theorem reads_environment {e : Environment} {written : List Char}
    (h : SpellsScalar (.text e.name) written) :
    Reads (readChoice Environment.choices) written e := by
  cases e <;> exact reads_choice_of_spells rfl h

theorem overlays (s : Settings) : shape.Overlays s.toJson.members s.overlaid where
  start := rfl
  names := rfl
  optional := by
    intro field hfield
    simp only [shape, fields, List.mem_cons, List.not_mem_nil, or_false] at hfield
    rcases hfield with rfl | rfl | rfl | rfl | rfl | rfl | rfl | rfl | rfl | rfl | rfl | rfl | rfl |
      rfl <;> rfl
  reads := by
    intro member hmember
    simp only [toJson, members, List.mem_cons, List.not_mem_nil, or_false] at hmember
    rcases hmember with rfl | rfl | rfl | rfl | rfl | rfl | rfl | rfl | rfl | rfl | rfl | rfl |
      rfl | rfl
    · exact Shape.Overlays.exists_field rfl (fun _ => reads_environment) fun _ => by
        simp [overlaid]
    · exact Shape.Overlays.exists_field rfl (fun _ => reads_string_of_spells) fun _ => by
        simp [overlaid]
    · exact Shape.Overlays.exists_field rfl (fun _ => reads_string_of_spells) fun _ => by
        simp [overlaid]
    · exact Shape.Overlays.exists_field rfl (fun _ => reads_uint64_of_spells "usize") fun _ => by
        simp [overlaid]
    · exact Shape.Overlays.exists_field rfl (fun _ => reads_uint64_of_spells "usize") fun _ => by
        simp [overlaid]
    · exact Shape.Overlays.exists_field rfl (fun _ => reads_uint64_of_spells "u64") fun _ => by
        simp [overlaid]
    · exact Shape.Overlays.exists_field rfl (fun _ => reads_bool_of_spells) fun _ => by
        simp [overlaid]
    · exact Shape.Overlays.exists_field rfl (fun _ => reads_bool_of_spells) fun _ => by
        simp [overlaid]
    · exact Shape.Overlays.exists_field rfl (fun _ => reads_optionalString_of_spells) fun _ => by
        simp [overlaid]
    · exact Shape.Overlays.exists_field rfl (fun _ => reads_optionalString_of_spells) fun _ => by
        simp [overlaid]
    · exact Shape.Overlays.exists_field rfl (fun _ => reads_optionalString_of_spells) fun _ => by
        simp [overlaid]
    · exact Shape.Overlays.exists_field rfl (fun _ => reads_string_of_spells) fun _ => by
        simp [overlaid]
    · exact Shape.Overlays.exists_field rfl (fun _ => reads_uint64_of_spells "usize") fun _ => by
        simp [overlaid]
    · exact Shape.Overlays.exists_field rfl (fun _ => reads_uint64_of_spells "u64") fun _ => by
        simp [overlaid]
  congr := by
    intro taken others same
    simp only [toJson, members, List.map_cons, List.map_nil, List.forall_mem_cons] at same
    simp only [overlaid, same]

theorem ofJson_eq_match {s : Settings} {members : List (String × List Char)} {text : String}
    (holds : Holds s.toJson.members members) (spelled : SpellsObject members text.toList) :
    ofJson text =
      match (s.overlaid (members.map (·.1))).defect? with
      | none => .ok (s.overlaid (members.map (·.1)))
      | some defect => .error (.settings defect.message) := by
  rw [ofJson, s.overlays.readDocument_eq holds spelled]
  cases h : (s.overlaid (members.map (·.1))).defect? <;> simp only [h]

theorem nodup_names (s : Settings) : (s.toJson.members.map (·.1)).Nodup := by
  rw [← s.overlays.names]
  decide

/-- Nothing is left of the initial settings where all members are given. -/
theorem overlaid_self (s : Settings) (write : Json → List Char) :
    s.overlaid ((s.toJson.members.map fun member => (member.1, write member.2)).map (·.1)) = s := by
  simp [overlaid, toJson, members]

theorem isScalar_of_mem {s : Settings} {member : String × Json} (h : member ∈ s.toJson.members) :
    member.2.IsScalar := by
  simp only [toJson, members, List.mem_cons, List.not_mem_nil, or_false] at h
  rcases h with rfl | rfl | rfl | rfl | rfl | rfl | rfl | rfl | rfl | rfl | rfl | rfl | rfl | rfl
  all_goals first | exact trivial | exact isScalar_ofOption _

theorem ofJson_toJson {s : Settings} (usable : s.defect? = none) :
    ofJson s.toJson.compact = .ok s ∧ ofJson s.toJson.indented = .ok s := by
  have compact := ofJson_eq_match
    (holds_self s.nodup_names fun _ h => spellsScalar_compactChars (isScalar_of_mem h))
    (spellsObject_compact s.toJson.members)
  have indented := ofJson_eq_match
    (holds_self s.nodup_names fun _ h => spellsScalar_indentedChars (isScalar_of_mem h) 1)
    (spellsObject_indented s.toJson.members)
  rw [overlaid_self, usable] at compact indented
  exact ⟨compact, indented⟩

end Settings

namespace Overrides

/-- Overrides where a text gives them, and none elsewhere. -/
def overlaid (o : Overrides) (names : List String) : Overrides where
  attestationsPerRequest :=
    if "maxPrefetchedAttestations" ∈ names then o.attestationsPerRequest else none
  batches := if "maxPrefetchBatches" ∈ names then o.batches else none
  validitySeconds :=
    if "prewarmAttestationsValiditySecs" ∈ names then o.validitySeconds else none

theorem reads_word? {n : Option UInt64} {written : List Char} (wanted : String)
    (h : SpellsScalar (ofWord? n) written) :
    Reads (readOption (readUInt64 wanted)) written n := by
  cases n with
  | none =>
    obtain rfl := h
    exact reads_null
  | some n => exact reads_someUInt64_of_spells wanted h

theorem overlays (o : Overrides) : shape.Overlays o.toJson.members o.overlaid where
  start := rfl
  names := rfl
  optional := by
    intro field hfield
    simp only [shape, fields, List.mem_cons, List.not_mem_nil, or_false] at hfield
    rcases hfield with rfl | rfl | rfl <;> rfl
  reads := by
    intro member hmember
    simp only [toJson, members, List.mem_cons, List.not_mem_nil, or_false] at hmember
    rcases hmember with rfl | rfl | rfl
    · exact Shape.Overlays.exists_field rfl (fun _ => reads_word? "usize") fun _ => by
        simp [overlaid]
    · exact Shape.Overlays.exists_field rfl (fun _ => reads_word? "usize") fun _ => by
        simp [overlaid]
    · exact Shape.Overlays.exists_field rfl (fun _ => reads_word? "u64") fun _ => by
        simp [overlaid]
  congr := by
    intro taken others same
    simp only [toJson, members, List.map_cons, List.map_nil, List.forall_mem_cons] at same
    simp only [overlaid, same]

end Overrides

namespace Settings

/-- What settings are read as that a text gives in part, and likewise overrides, which are used
however they are. -/
theorem ofJson_eq_overlaid :
    (∀ (s : Settings) (members : List (String × List Char)) (text : String),
        Holds s.toJson.members members → SpellsObject members text.toList →
          ofJson text =
            match (s.overlaid (members.map (·.1))).defect? with
            | none => .ok (s.overlaid (members.map (·.1)))
            | some defect => .error (.settings defect.message)) ∧
      (∀ s : Settings, s.defect? = none →
        ofJson s.toJson.compact = .ok s ∧ ofJson s.toJson.indented = .ok s) ∧
      ∀ (o : Overrides) (members : List (String × List Char)) (text : String),
        Holds o.toJson.members members → SpellsObject members text.toList →
          Overrides.ofJson text = .ok (o.overlaid (members.map (·.1))) :=
  ⟨fun _ _ _ => ofJson_eq_match, fun _ => ofJson_toJson,
    fun o _ _ holds spelled => o.overlays.readDocument_eq holds spelled⟩

section Staging

def staging : Settings := { initial with environment := .staging, maxFrameLength := 7 }

/-- A number beyond all doubles. -/
def hugeNumber : List Char := ['1', 'e', '9', '9', '9']

def stagingMembers : List (String × List Char) :=
  [("x", '[' :: (hugeNumber ++ [']'])), ("environment", quoteText "staging"),
    ("maxFrameLength", ['7'])]

/-- The first letter of a name is escaped. -/
def escapedName : List Char :=
  ['\\', 'u', '0', '0', '6', '5'] ++ "nvironment".toList.flatMap escapeChar

def stagingText : String := String.ofList
  ('\x7b' :: (quoteText "x" ++ ':' :: ('[' :: (hugeNumber ++ [']']) ++ (',' :: ' ' :: '"' ::
    (escapedName ++ '"' :: ' ' :: ':' :: ' ' :: (quoteText "staging" ++ (',' ::
      (quoteText "maxFrameLength" ++ ':' :: '7' :: ' ' :: ['\x7d']))))))) ++ [' '])

theorem grammar_hugeNumber : Grammar .value ('[' :: (hugeNumber ++ [']'])) := by
  have whole : IsWhole ['1'] := .inr ⟨'1', [], rfl, by decide, by simp⟩
  have exponent : IsExponent ('e' :: ([] ++ ['9', '9', '9'])) :=
    .present (.inl rfl) (.inl rfl) (by decide) (by simp)
  have numeral : IsNumeral hugeNumber := .parts whole .absent exponent
  exact .array (.item .first (.number (.inl rfl) numeral) (.closeArray allSpace_nil))

theorem spellsText_escapedName : SpellsText "environment".toList escapedName := by
  have digits : SpellsUnit (16 * (16 * (16 * 0 + 0) + 6) + 5) ['0', '0', '6', '5'] :=
    .digits (by rfl) (by rfl) (by rfl) (by rfl)
  have first : SpellsChar 'e' ['\\', 'u', '0', '0', '6', '5'] := .unit digits (by rfl) (by rfl)
  exact .cons first (spellsText_escape "nvironment".toList)

theorem holds_staging : Holds staging.toJson.members stagingMembers := by
  have name : SpellsScalar (.text "staging") (quoteText "staging") :=
    ⟨_, spellsText_escape "staging".toList, rfl⟩
  have length : SpellsScalar (.integer 7) ['7'] := by
    rw [SpellsScalar]
    rfl
  have last : Holds staging.toJson.members [("maxFrameLength", ['7'])] :=
    .given (by simp [toJson, members, staging, ofWord, ofNat]) length (by decide) .nil
  refine .other (by decide) grammar_hugeNumber (.given ?_ name (by decide) last)
  simp [toJson, members, staging, Environment.name]

theorem spellsObject_staging : SpellsObject stagingMembers stagingText.toList := by
  rw [stagingText, String.toList_ofList]
  have last : SpellsMembers false [("maxFrameLength", ['7'])]
      (',' :: (quoteText "maxFrameLength" ++ ':' :: '7' :: ' ' :: ['\x7d'])) :=
    .quoted (.later allSpace_nil) allSpace_nil allSpace_nil _ _ (.close allSpace_blank)
  have later : SpellsMembers false [("environment", quoteText "staging"), ("maxFrameLength", ['7'])]
      (',' :: ' ' :: '"' :: (escapedName ++ '"' :: ' ' :: ':' :: ' ' :: (quoteText "staging" ++
        ',' :: (quoteText "maxFrameLength" ++ ':' :: '7' :: ' ' :: ['\x7d'])))) :=
    .member (.later allSpace_nil) allSpace_blank spellsText_escapedName allSpace_blank
      allSpace_blank last
  have whole := SpellsMembers.quoted .first allSpace_nil allSpace_nil "x"
    ('[' :: (hugeNumber ++ [']'])) later
  exact .braces allSpace_nil allSpace_blank whole

def fiveBatches : Overrides := ⟨none, some 5, none⟩

/-- One of the overrides is null and one left out. -/
def fiveMembers : List (String × Json) :=
  [("maxPrefetchBatches", ofWord 5), ("maxPrefetchedAttestations", .null)]

theorem holds_fiveBatches : Holds fiveBatches.toJson.members
    (fiveMembers.map fun member => (member.1, member.2.compactChars)) := by
  have last : Holds fiveBatches.toJson.members
      [("maxPrefetchedAttestations", Json.null.compactChars)] :=
    .given List.mem_cons_self (spellsScalar_compactChars trivial) (by decide) .nil
  exact .given (List.mem_cons_of_mem _ List.mem_cons_self) (spellsScalar_compactChars trivial)
    (by decide) last

theorem ofJson_eq_overlaid_of_staging :
    Holds staging.toJson.members stagingMembers ∧
      SpellsObject stagingMembers stagingText.toList ∧ ofJson stagingText = .ok staging ∧
      staging.defect? = none ∧ ofJson staging.toJson.indented = .ok staging ∧
      Overrides.ofJson (Json.object fiveMembers).compact = .ok fiveBatches := by
  have usable : staging.defect? = none := by decide +kernel
  have read := ofJson_eq_overlaid.1 staging _ _ holds_staging spellsObject_staging
  have same : staging.overlaid (stagingMembers.map (·.1)) = staging := by decide
  rw [same, usable] at read
  exact ⟨holds_staging, spellsObject_staging, read, usable,
    (ofJson_eq_overlaid.2.1 staging usable).2,
    ofJson_eq_overlaid.2.2 fiveBatches _ _ holds_fiveBatches (spellsObject_compact fiveMembers)⟩

end Staging

end Settings

end NodeAttestation
