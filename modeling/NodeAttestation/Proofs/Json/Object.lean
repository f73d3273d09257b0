import NodeAttestation.Proofs.Json.Grammar

/-!
# Objects whose members nobody has put in order

A record is read from the members of an object however they are spelled and arranged, and whatever
other members stand between them.
-/

namespace NodeAttestation.Json

/-- What is left of an object that nothing or some member has been read of: members and how their
values are written. -/
inductive SpellsMembers : Bool → List (String × List Char) → List Char → Prop
  | close {first : Bool} {space : List Char} (h : AllSpace space) :
      SpellsMembers first [] (space ++ ['\x7d'])
  | member {first : Bool} {name : String} {members : List (String × List Char)}
      {lead space spelled between after value text : List Char} (leads : Leads first lead)
      (hspace : AllSpace space) (named : SpellsText name.toList spelled)
      (hbetween : AllSpace between) (hafter : AllSpace after)
      (later : SpellsMembers false members text) :
      SpellsMembers first ((name, value) :: members)
        (lead ++ (space ++ '"' ::
          (spelled ++ '"' :: (between ++ ':' :: (after ++ (value ++ text))))))

/-- The text of an object, with space around it. -/
inductive SpellsObject (members : List (String × List Char)) : List Char → Prop
  | braces {before after text : List Char} (hbefore : AllSpace before) (hafter : AllSpace after)
      (spelled : SpellsMembers true members text) :
      SpellsObject members (before ++ ('\x7b' :: text ++ after))

variable {space rest text : List Char} {first : Bool} {name : String}
  {members : List (String × List Char)}

section Names

theorem nextName_close (first : Bool) (hspace : AllSpace space) :
    nextName first (space ++ '\x7d' :: rest) = .ok (none, rest) := by
  rw [nextName, skipSpace_append hspace (by rfl)]
  simp

theorem nextName_spaced (h : AllSpace space) (first : Bool) (input : List Char) :
    nextName first (space ++ input) = nextName first input := by
  rw [nextName, nextName, skipSpace_of_allSpace h]

theorem nextName_lead {lead spelled : List Char} (leads : Leads first lead)
    (hspace : AllSpace space) (named : SpellsText name.toList spelled) :
    nextName first (lead ++ (space ++ '"' :: (spelled ++ '"' :: rest))) =
      .ok (some name, rest) := by
  have hquote : skipSpace (space ++ '"' :: (spelled ++ '"' :: rest)) =
      '"' :: (spelled ++ '"' :: rest) := skipSpace_append hspace (by rfl)
  have hname := readText_of_spells named rest
  cases leads with
  | first => simp [nextName, hquote, hname, Except.map]
  | later h =>
    have hcomma : skipSpace (',' :: (space ++ '"' :: (spelled ++ '"' :: rest))) =
        ',' :: (space ++ '"' :: (spelled ++ '"' :: rest)) := skipSpace_append allSpace_nil (by rfl)
    rw [List.append_assoc, nextName_spaced h]
    simp [nextName, hcomma, hquote, hname, Except.map]

theorem nextName_quoted {lead : List Char} (leads : Leads first lead) (hspace : AllSpace space) :
    nextName first (lead ++ (space ++ (quoteText name ++ rest))) = .ok (some name, rest) := by
  rw [quoteText_append]
  exact nextName_lead leads hspace (spellsText_escape name.toList)

theorem nextName_first (hspace : AllSpace space) :
    nextName true (space ++ (quoteText name ++ rest)) = .ok (some name, rest) :=
  nextName_quoted .first hspace

theorem nextName_later (hspace : AllSpace space) :
    nextName false (',' :: (space ++ (quoteText name ++ rest))) = .ok (some name, rest) :=
  nextName_quoted (.later allSpace_nil) hspace

theorem SpellsMembers.endsNumber (spelled : SpellsMembers false members text) (rest : List Char) :
    EndsNumber (text ++ rest) := by
  cases spelled with
  | close h =>
    rw [List.append_assoc]
    exact endsNumber_spaced h (endsNumber_cons (by decide) rest)
  | member leads =>
    rw [List.append_assoc]
    exact leads.endsNumber _

theorem SpellsMembers.length_lt (spelled : SpellsMembers first members text) :
    members.length < text.length := by
  induction spelled with
  | close => simp
  | member _ _ _ _ _ _ ih =>
    simp only [List.length_append, List.length_cons]
    omega

end Names

section Filling

variable {σ : Type} {shape : Shape σ} {seen : List String} {record next last : σ}
  {value : List Char}

/-- Members fill a record, given those already seen. Those that it does not know can hold any
value. -/
inductive Shape.FilledBy (shape : Shape σ) :
    List String → σ → List (String × List Char) → σ → Prop
  | done {seen : List String} {record : σ} (complete : shape.firstMissing? seen = none) :
      FilledBy shape seen record [] record
  | known {seen : List String} {record next last : σ} {name : String} {value : List Char}
      {members : List (String × List Char)} {field : Field σ}
      (found : shape.fields.find? (·.name == name) = some field)
      (fresh : seen.contains name = false) (reads : Reads (field.read record) value next)
      (later : FilledBy shape (name :: seen) next members last) :
      FilledBy shape seen record ((name, value) :: members) last
  | unknown {seen : List String} {record last : σ} {name : String} {value : List Char}
      {members : List (String × List Char)}
      (missing : shape.fields.find? (·.name == name) = none) (passed : Grammar .value value)
      (later : FilledBy shape seen record members last) :
      FilledBy shape seen record ((name, value) :: members) last

theorem Shape.FilledBy.readMembers_eq (filled : shape.FilledBy seen record members last)
    (spelled : SpellsMembers first members text) {budget : Nat} (enough : members.length < budget) :
    shape.readMembers budget first seen record (text ++ rest) = .ok (last, rest) := by
  induction filled generalizing first text budget with
  | done complete =>
    obtain ⟨budget, rfl⟩ := Nat.exists_eq_add_one.2 enough
    cases spelled with
    | close h =>
      rw [List.append_assoc, List.singleton_append, readMembers]
      simp only [nextName_close first h, Bind.bind, Except.bind, complete]
  | @known seen record next last name value members field found fresh reads _ ih =>
    obtain ⟨budget, rfl⟩ := Nat.exists_eq_add_one.2 (Nat.zero_lt_of_lt enough)
    rw [List.length_cons] at enough
    cases spelled with
    | @member _ _ _ lead space spelled between after value text leads hspace named hbetween hafter
        later =>
      have hread := reads after (text ++ rest) hafter (later.endsNumber rest)
      simp only [List.append_assoc, List.cons_append]
      rw [readMembers, nextName_lead leads hspace named]
      simp only [Bind.bind, Except.bind, found, fresh, colon_spaced hbetween, hread,
        Bool.false_eq_true, if_false]
      exact ih later (by omega)
  | @unknown seen record last name value members missing passed _ ih =>
    obtain ⟨budget, rfl⟩ := Nat.exists_eq_add_one.2 (Nat.zero_lt_of_lt enough)
    rw [List.length_cons] at enough
    cases spelled with
    | @member _ _ _ lead space spelled between after value text leads hspace named hbetween hafter
        later =>
      have hskip := (Grammar.spaced hafter passed).skipValue_eq (later.endsNumber rest)
      rw [List.append_assoc] at hskip
      simp only [List.append_assoc, List.cons_append]
      rw [readMembers, nextName_lead leads hspace named]
      simp only [Bind.bind, Except.bind, missing, colon_spaced hbetween, hskip]
      exact ih later (by omega)

theorem Shape.FilledBy.reads (filled : shape.FilledBy [] shape.start members last)
    (spelled : SpellsMembers true members text) : Reads shape.read ('\x7b' :: text) last := by
  intro space rest hspace _
  have hlength := spelled.length_lt
  rw [List.cons_append, read, skipSpace_append hspace (by rfl)]
  exact filled.readMembers_eq spelled (by rw [List.length_append]; omega)

theorem readDocument_of_reads {α : Type} {read : Reader α} {value : α} {text : String}
    {before core after : List Char} (reads : Reads read core value) (hbefore : AllSpace before)
    (hafter : AllSpace after) (htext : text.toList = before ++ (core ++ after)) :
    readDocument read text = .ok value := by
  have ends : EndsNumber (after ++ []) := endsNumber_spaced hafter fun _ h => nomatch h
  rw [List.append_nil] at ends
  have hskip : skipSpace after = [] := by
    have hnil := skipSpace_of_allSpace hafter []
    rwa [List.append_nil] at hnil
  simp only [readDocument, htext, reads before after hbefore ends, Bind.bind, Except.bind, hskip]
  rfl

theorem Shape.FilledBy.readDocument_eq {text : String}
    (filled : shape.FilledBy [] shape.start members last)
    (spelled : SpellsObject members text.toList) : readDocument shape.read text = .ok last := by
  generalize htext : text.toList = chars at spelled
  cases spelled with
  | braces hbefore hafter inner =>
    exact readDocument_of_reads (filled.reads inner) hbefore hafter htext

end Filling

section Writing

theorem allSpace_newLine (depth : Nat) : AllSpace (newLine depth) := by
  intro c hc
  rcases List.mem_cons.1 hc with rfl | hc
  · rfl
  · rw [List.eq_of_mem_replicate hc]
    rfl

theorem allSpace_blank : AllSpace [' '] := by
  intro c hc
  rw [List.mem_singleton.1 hc]
  rfl

theorem SpellsMembers.quoted {first : Bool} {members : List (String × List Char)}
    {lead space after text : List Char} (leads : Leads first lead) (hspace : AllSpace space)
    (hafter : AllSpace after) (name : String) (value : List Char)
    (later : SpellsMembers false members text) :
    SpellsMembers first ((name, value) :: members)
      (lead ++ (space ++ (quoteText name ++ ':' :: (after ++ (value ++ text))))) := by
  rw [quoteText_append]
  exact .member leads hspace (spellsText_escape name.toList) allSpace_nil hafter later

theorem spellsMembers_compact (members : List (String × Json)) :
    SpellsMembers false (members.map fun member => (member.1, member.2.compactChars))
      (compactMembers members ++ ['\x7d']) := by
  induction members with
  | nil => exact .close allSpace_nil
  | cons member members ih =>
    have spelled := SpellsMembers.quoted (.later allSpace_nil) allSpace_nil allSpace_nil member.1
      member.2.compactChars ih
    simpa [compactMembers] using spelled

theorem spellsMembers_indented (outer depth : Nat) (members : List (String × Json)) :
    SpellsMembers false (members.map fun member => (member.1, member.2.indentedChars depth))
      (indentedMembers depth members ++ (newLine outer ++ ['\x7d'])) := by
  induction members with
  | nil => exact .close (allSpace_newLine outer)
  | cons member members ih =>
    have spelled := SpellsMembers.quoted (.later allSpace_nil) (allSpace_newLine depth)
      allSpace_blank member.1 (member.2.indentedChars depth) ih
    simpa [indentedMembers] using spelled

theorem SpellsMembers.spellsObject {members : List (String × List Char)} {text : List Char}
    (spelled : SpellsMembers true members text) : SpellsObject members ('\x7b' :: text) := by
  have inner := SpellsObject.braces allSpace_nil allSpace_nil spelled
  rwa [List.nil_append, List.append_nil] at inner

theorem spellsObject_compact (members : List (String × Json)) :
    SpellsObject (members.map fun member => (member.1, member.2.compactChars))
      (object members).compact.toList := by
  rw [compact, String.toList_ofList]
  cases members with
  | nil =>
    rw [compactChars]
    exact (SpellsMembers.close allSpace_nil).spellsObject
  | cons member members =>
    have spelled := SpellsMembers.quoted .first allSpace_nil allSpace_nil member.1
      member.2.compactChars (spellsMembers_compact members)
    simpa [compactChars] using spelled.spellsObject

theorem spellsObject_indented (members : List (String × Json)) :
    SpellsObject (members.map fun member => (member.1, member.2.indentedChars 1))
      (object members).indented.toList := by
  rw [indented, String.toList_ofList]
  cases members with
  | nil =>
    rw [indentedChars]
    exact (SpellsMembers.close allSpace_nil).spellsObject
  | cons member members =>
    have spelled := SpellsMembers.quoted .first (allSpace_newLine 1) allSpace_blank member.1
      (member.2.indentedChars 1) (spellsMembers_indented 0 1 members)
    simpa [indentedChars] using spelled.spellsObject

end Writing

end NodeAttestation.Json
