import NodeAttestation.Proofs.Json.Object
import NodeAttestation.Proofs.Keys

/-! # Records, maps and lists are read as they were before they were indented. -/

namespace NodeAttestation.Json

variable {space rest : List Char} {name : String} {first : Bool} {depth : Nat}

theorem endsNumber_newLine (depth : Nat) (rest : List Char) :
    EndsNumber (newLine depth ++ rest) := by
  rintro _ ⟨⟩
  decide

section Names

theorem colon_cons (rest : List Char) : colon (':' :: rest) = .ok rest := by
  rw [colon]
  rfl

theorem length_le_indentedMembers (depth : Nat) (members : List (String × Json)) :
    members.length ≤ (indentedMembers depth members).length := by
  induction members with
  | nil => simp
  | cons member members ih =>
    rw [indentedMembers, List.length_cons]
    simp
    omega

theorem endsNumber_indentedMembers (depth : Nat) (members : List (String × Json)) (outer : Nat)
    (rest : List Char) :
    EndsNumber (indentedMembers depth members ++ (newLine outer ++ rest)) := by
  cases members with
  | nil => exact endsNumber_newLine outer rest
  | cons member members =>
    rw [indentedMembers, List.cons_append]
    exact endsNumber_comma _

end Names

section Records

variable {σ : Type} {shape : Shape σ} {seen : List String} {record last : σ}
  {members : List (String × Json)}

/-- A list of members fills a record, given those already seen. -/
inductive Shape.Fills (shape : Shape σ) (depth : Nat) :
    List String → σ → List (String × Json) → σ → Prop
  | done {seen : List String} {record : σ} (complete : shape.firstMissing? seen = none) :
      Fills shape depth seen record [] record
  | member {seen : List String} {record next last : σ} {name : String} {value : Json}
      {members : List (String × Json)} {field : Field σ}
      (known : shape.fields.find? (·.name == name) = some field)
      (fresh : seen.contains name = false)
      (reads : Reads (field.read record) (value.indentedChars depth) next)
      (rest : Fills shape depth (name :: seen) next members last) :
      Fills shape depth seen record ((name, value) :: members) last

theorem Shape.Fills.filledBy (fills : shape.Fills depth seen record members last) :
    shape.FilledBy seen record
      (members.map fun member => (member.1, member.2.indentedChars depth)) last := by
  induction fills with
  | done complete => exact .done complete
  | member known fresh reads _ ih => exact .known known fresh reads ih

/-- The members of a record, each on a line of its own. -/
theorem reads_record (fills : shape.Fills (depth + 1) [] shape.start members last)
    (hne : members ≠ []) : Reads shape.read ((Json.object members).indentedChars depth) last := by
  obtain ⟨member, members, rfl⟩ := List.exists_cons_of_ne_nil hne
  have spelled := SpellsMembers.quoted .first (allSpace_newLine (depth + 1)) allSpace_blank
    member.1 (member.2.indentedChars (depth + 1)) (spellsMembers_indented depth (depth + 1) members)
  have reads := fills.filledBy.reads spelled
  simpa [indentedChars] using reads

end Records

section Fields

variable {σ α : Type} {read : Reader α} {text : List Char} {value : α}

theorem Reads.required (reads : Reads read text value) (name : String) (put : σ → α → σ)
    (record : σ) :
    Reads ((Field.required name read put).read record) text (put record value) := by
  intro space rest hspace ends
  simp [Field.required, reads space rest hspace ends, Except.map]

theorem Reads.default (reads : Reads read text value) (name : String) (put : σ → α → σ)
    (record : σ) :
    Reads ((Field.default name read put).read record) text (put record value) :=
  reads.required name put record

theorem reads_optionalText (name : String) (put : σ → Option String → σ) (record : σ)
    (text : Option String) (depth : Nat) :
    Reads ((Field.option name readString put).read record) ((ofOption text).indentedChars depth)
      (put record text) := by
  intro space rest hspace ends
  simp [Field.option, Field.default, reads_option text depth space rest hspace ends, Except.map]

end Fields

section Maps

theorem readTextMapFrom_name {input : List Char} {value : String} {m : SortedMap String String}
    (budget : Nat) (hname : nextName first input =
      .ok (some name, ':' :: ' ' :: (quoteText value ++ rest))) (ends : EndsNumber rest) :
    readTextMapFrom (budget + 1) first m input =
      readTextMapFrom budget false (m.insert name value) rest := by
  have hread := reads_string value [' '] rest allSpace_blank ends
  rw [List.singleton_append] at hread
  simp only [readTextMapFrom, hname, Bind.bind, Except.bind, colon_cons, hread]

theorem readTextMapFrom_entries (entries : List (String × String)) (m : SortedMap String String)
    (outer : Nat) {budget : Nat} (hbudget : entries.length < budget) :
    readTextMapFrom budget false m
      (indentedMembers depth (entries.map fun entry => (entry.1, .text entry.2)) ++
        (newLine outer ++ '}' :: rest)) =
      .ok (entries.foldl (fun m entry => m.insert entry.1 entry.2) m, rest) := by
  obtain ⟨budget, rfl⟩ := Nat.exists_eq_add_one.2 (Nat.zero_lt_of_lt hbudget)
  induction entries generalizing m budget with
  | nil =>
    have hclose : nextName false (newLine outer ++ '}' :: rest) = .ok (none, rest) :=
      nextName_close false (allSpace_newLine outer)
    simp [indentedMembers, readTextMapFrom, hclose, Bind.bind, Except.bind]
  | cons entry entries ih =>
    rw [List.length_cons] at hbudget
    obtain ⟨budget, rfl⟩ := Nat.exists_eq_add_one.2 (show 0 < budget by omega)
    simp only [List.map_cons, indentedMembers, indentedChars, List.append_assoc, List.cons_append]
    rw [readTextMapFrom_name (budget + 1) (nextName_later (allSpace_newLine depth))
      (endsNumber_indentedMembers _ _ _ _)]
    exact ih _ budget (by omega)

theorem reads_textMap (m : SortedMap String String) (depth : Nat) :
    Reads readTextMap ((ofTextMap m).indentedChars depth) m := by
  intro space rest hspace _
  have hall : m.entries.foldl (fun m entry => m.insert entry.1 entry.2) .empty = m :=
    SortedMap.ofList_of_perm (.refl _)
  rw [ofTextMap]
  cases hentries : m.entries with
  | nil =>
    have hclose : nextName true ('}' :: rest) = .ok (none, rest) :=
      nextName_close true allSpace_nil
    rw [hentries] at hall
    simp only [List.map_nil, indentedChars, List.cons_append, List.nil_append]
    rw [readTextMap, skipSpace_append hspace (by rfl)]
    simp only [readTextMapFrom, hclose, Bind.bind, Except.bind]
    rw [← hall, List.foldl_nil]
  | cons entry entries =>
    rw [hentries] at hall
    simp only [List.map_cons, indentedChars, List.append_assoc, List.cons_append, List.nil_append]
    rw [readTextMap, skipSpace_append hspace (by rfl)]
    refine (readTextMapFrom_name _ (nextName_first (allSpace_newLine (depth + 1)))
      (endsNumber_indentedMembers _ _ _ _)).trans ?_
    rw [readTextMapFrom_entries entries _ depth]
    · rw [← hall, List.foldl_cons]
    · have := length_le_indentedMembers (depth + 1)
        (entries.map fun entry => (entry.1, Json.text entry.2))
      rw [List.length_map] at this
      simp
      omega

end Maps

section Lists

variable {α β : Type} {read : Reader β}

theorem startsItem_object (members : List (String × Json)) (depth : Nat) :
    StartsItem ((Json.object members).indentedChars depth) := by
  cases members with
  | nil => exact ⟨'{', ['}'], rfl, rfl, by decide, by decide⟩
  | cons member members => exact ⟨'{', _, rfl, rfl, by decide, by decide⟩

theorem endsNumber_indentedItems (depth : Nat) (items : List Json) (outer : Nat)
    (rest : List Char) : EndsNumber (indentedItems depth items ++ (newLine outer ++ rest)) := by
  cases items with
  | nil => exact endsNumber_newLine outer rest
  | cons item items =>
    rw [indentedItems, List.cons_append]
    exact endsNumber_comma _

theorem length_le_indentedItems (depth : Nat) (items : List Json) :
    items.length ≤ (indentedItems depth items).length := by
  induction items with
  | nil => simp
  | cons item items ih =>
    rw [indentedItems, List.length_cons]
    simp
    omega

variable {encode : α → Json} {decoded : α → β}

theorem readListFrom_item {input text : List Char} {done : List β} {value : β} (budget : Nat)
    (hnext : nextItem first input = .ok (true, text ++ rest)) (reads : Reads read text value)
    (ends : EndsNumber rest) :
    readListFrom read (budget + 1) first done input =
      readListFrom read budget false (value :: done) rest := by
  have hread := reads [] rest allSpace_nil ends
  rw [List.nil_append] at hread
  simp only [readListFrom, hnext, Bind.bind, Except.bind, hread]

theorem readListFrom_items {items : List α}
    (starts : ∀ a, StartsItem ((encode a).indentedChars depth))
    (reads : ∀ a ∈ items, Reads read ((encode a).indentedChars depth) (decoded a))
    (outer : Nat) (done : List β) {budget : Nat} (hbudget : items.length < budget) :
    readListFrom read budget false done
      (indentedItems depth (items.map encode) ++ (newLine outer ++ ']' :: rest)) =
      .ok (done.reverse ++ items.map decoded, rest) := by
  obtain ⟨budget, rfl⟩ := Nat.exists_eq_add_one.2 (Nat.zero_lt_of_lt hbudget)
  induction items generalizing done budget with
  | nil =>
    have hclose : nextItem false (newLine outer ++ ']' :: rest) = .ok (false, rest) :=
      nextItem_close false (allSpace_newLine outer)
    simp [indentedItems, readListFrom, hclose, Bind.bind, Except.bind]
  | cons a items ih =>
    rw [List.length_cons] at hbudget
    obtain ⟨budget, rfl⟩ := Nat.exists_eq_add_one.2 (show 0 < budget by omega)
    simp only [List.map_cons, indentedItems, List.append_assoc, List.cons_append]
    rw [readListFrom_item (budget + 1) (nextItem_later (allSpace_newLine depth) (starts a))
        (reads a List.mem_cons_self) (endsNumber_indentedItems _ _ _ _),
      ih (fun b hb => reads b (List.mem_cons_of_mem _ hb)) _ budget (by omega)]
    simp

/-- The items of a list, each on lines of its own. -/
theorem reads_list {items : List α}
    (starts : ∀ a, StartsItem ((encode a).indentedChars (depth + 1)))
    (reads : ∀ a ∈ items, Reads read ((encode a).indentedChars (depth + 1)) (decoded a)) :
    Reads (readList read) ((Json.array (items.map encode)).indentedChars depth)
      (items.map decoded) := by
  intro space rest hspace _
  cases items with
  | nil =>
    have hclose : nextItem true (']' :: rest) = .ok (false, rest) :=
      nextItem_close true allSpace_nil
    simp only [List.map_nil, indentedChars, List.cons_append, List.nil_append]
    rw [readList, skipSpace_append hspace (by rfl)]
    simp only [readListFrom, hclose, Bind.bind, Except.bind, List.reverse_nil]
  | cons a items =>
    simp only [List.map_cons, indentedChars, List.append_assoc, List.cons_append, List.nil_append]
    rw [readList, skipSpace_append hspace (by rfl)]
    refine (readListFrom_item _ (nextItem_first (allSpace_newLine (depth + 1)) (starts a))
      (reads a List.mem_cons_self) (endsNumber_indentedItems _ _ _ _)).trans ?_
    rw [readListFrom_items starts (fun b hb => reads b (List.mem_cons_of_mem _ hb)) depth]
    · simp
    · have := length_le_indentedItems (depth + 1) (items.map encode)
      rw [List.length_map] at this
      simp
      omega

end Lists

end NodeAttestation.Json
