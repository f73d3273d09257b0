import NodeAttestation.Proofs.Json.Record

/-!
# Members in the order of the text

A map that is read does not show in which order its members stood. Here they are read one by one,
and a map written on one line turns out to list its entries by ascending names.
-/

namespace NodeAttestation.Json

variable {rest : List Char}

def readTextMembersFrom : Nat → Bool → Reader (List (String × String))
  | 0, _, _ => .error .malformed
  | budget + 1, first, input => do
    match ← nextName first input with
    | (none, rest) => .ok ([], rest)
    | (some name, rest) =>
      let rest ← colon rest
      let (value, rest) ← readString rest
      let (members, rest) ← readTextMembersFrom budget false rest
      .ok ((name, value) :: members, rest)

/-- The members of an object of strings, members with one name included. -/
def readTextMembers (input : List Char) : Except Fault (Taken (List (String × String))) :=
  match skipSpace input with
  | '\x7b' :: rest => readTextMembersFrom (rest.length + 1) true rest
  | rest => .error (misplaced "a map" rest)

section Order

theorem readTextMapFrom_eq (budget : Nat) (first : Bool) (m : SortedMap String String)
    (input : List Char) : readTextMapFrom budget first m input =
      (readTextMembersFrom budget first input).map fun (members, rest) =>
        (members.foldl (fun m entry => m.insert entry.1 entry.2) m, rest) := by
  induction budget generalizing first m input with
  | zero => rfl
  | succ budget ih =>
    rw [readTextMapFrom, readTextMembersFrom]
    cases nextName first input with
    | error fault => rfl
    | ok named =>
      obtain ⟨_ | name, input⟩ := named
      · rfl
      · cases hcolon : colon input with
        | error fault => simp [Bind.bind, Except.bind, hcolon, Except.map]
        | ok input =>
          cases hvalue : readString input with
          | error fault => simp [Bind.bind, Except.bind, hcolon, hvalue, Except.map]
          | ok read =>
            simp only [Bind.bind, Except.bind, hcolon, hvalue, ih]
            cases readTextMembersFrom budget false read.2 <;> rfl

/-- The map that is read is made of the members in their order. -/
theorem readTextMap_eq (input : List Char) : readTextMap input =
    (readTextMembers input).map fun (members, rest) => (.ofList members, rest) := by
  rw [readTextMap, readTextMembers]
  cases skipSpace input with
  | nil => rfl
  | cons c rest =>
    by_cases hopen : c = '\x7b'
    · subst hopen
      exact readTextMapFrom_eq ..
    · simp [hopen, Except.map]

end Order

section Compact

theorem endsNumber_brace (rest : List Char) : EndsNumber ('\x7d' :: rest) := by
  rintro _ ⟨⟩
  decide

theorem endsNumber_compactMembers (members : List (String × Json)) (rest : List Char) :
    EndsNumber (compactMembers members ++ '\x7d' :: rest) := by
  cases members with
  | nil => exact endsNumber_brace rest
  | cons member members =>
    rw [compactMembers, List.cons_append]
    exact endsNumber_comma _

theorem length_le_compactMembers (members : List (String × Json)) :
    members.length ≤ (compactMembers members).length := by
  induction members with
  | nil => exact Nat.le_refl 0
  | cons member members ih =>
    rw [compactMembers, List.length_cons]
    simp
    omega

theorem readTextMembersFrom_name {first : Bool} {name value : String} {input : List Char}
    (budget : Nat)
    (hname : nextName first input = .ok (some name, ':' :: (quoteText value ++ rest)))
    (ends : EndsNumber rest) : readTextMembersFrom (budget + 1) first input =
      (readTextMembersFrom budget false rest).map fun (members, rest) =>
        ((name, value) :: members, rest) := by
  have hread := reads_string value [] rest allSpace_nil ends
  rw [List.nil_append] at hread
  simp only [readTextMembersFrom, hname, Bind.bind, Except.bind, colon_cons, hread]
  cases readTextMembersFrom budget false rest <;> rfl

theorem readTextMembersFrom_compact (entries : List (String × String)) {budget : Nat}
    (hbudget : entries.length < budget) :
    readTextMembersFrom budget false
      (compactMembers (entries.map fun entry => (entry.1, .text entry.2)) ++ '\x7d' :: rest) =
      .ok (entries, rest) := by
  obtain ⟨budget, rfl⟩ := Nat.exists_eq_add_one.2 (Nat.zero_lt_of_lt hbudget)
  induction entries generalizing budget with
  | nil =>
    have hclose : nextName false ('\x7d' :: rest) = .ok (none, rest) :=
      nextName_close false allSpace_nil
    simp only [List.map_nil, compactMembers, List.nil_append, readTextMembersFrom, hclose,
      Bind.bind, Except.bind]
  | cons entry entries ih =>
    rw [List.length_cons] at hbudget
    obtain ⟨budget, rfl⟩ := Nat.exists_eq_add_one.2 (show 0 < budget by omega)
    simp only [List.map_cons, compactMembers, compactChars, List.append_assoc, List.cons_append]
    refine (readTextMembersFrom_name (budget + 1) (nextName_later allSpace_nil)
      (endsNumber_compactMembers _ _)).trans ?_
    rw [ih budget (by omega)]
    rfl

theorem readTextMembers_compactChars (m : SortedMap String String) :
    readTextMembers ((ofTextMap m).compactChars ++ rest) = .ok (m.entries, rest) := by
  rw [ofTextMap]
  cases hentries : m.entries with
  | nil =>
    have hclose : nextName true ('\x7d' :: rest) = .ok (none, rest) :=
      nextName_close true allSpace_nil
    have hskip : skipSpace ('\x7b' :: '\x7d' :: rest) = '\x7b' :: '\x7d' :: rest := rfl
    simp only [List.map_nil, compactChars, List.cons_append, List.nil_append]
    rw [readTextMembers, hskip]
    simp only [readTextMembersFrom, hclose, Bind.bind, Except.bind]
  | cons entry entries =>
    simp only [List.map_cons, compactChars, List.append_assoc, List.cons_append, List.nil_append]
    rw [readTextMembers]
    refine (readTextMembersFrom_name _ (nextName_first allSpace_nil)
      (endsNumber_compactMembers _ _)).trans ?_
    rw [readTextMembersFrom_compact]
    · rfl
    · have := length_le_compactMembers (entries.map fun entry => (entry.1, Json.text entry.2))
      rw [List.length_map] at this
      simp
      omega

theorem readTextMembers_spaced {space : List Char} (h : AllSpace space) (input : List Char) :
    readTextMembers (space ++ input) = readTextMembers input := by
  rw [readTextMembers, readTextMembers, skipSpace_of_allSpace h]

theorem reads_textMap_compact (m : SortedMap String String) :
    Reads readTextMap (ofTextMap m).compactChars m := by
  intro space rest hspace _
  have hall : SortedMap.ofList m.entries = m := SortedMap.ofList_of_perm (.refl _)
  rw [readTextMap_eq, readTextMembers_spaced hspace, readTextMembers_compactChars]
  simp only [Except.map, hall]

theorem readDocument_textMembers (m : SortedMap String String) :
    readDocument readTextMembers (ofTextMap m).compact = .ok m.entries := by
  have hread : readTextMembers ((ofTextMap m).compactChars ++ []) = .ok (m.entries, []) :=
    readTextMembers_compactChars m
  rw [List.append_nil] at hread
  simp only [readDocument, compact, String.toList_ofList, hread, Bind.bind, Except.bind]
  rfl

theorem readDocument_textMap (m : SortedMap String String) :
    readDocument readTextMap (ofTextMap m).compact = .ok m := by
  refine readDocument_of_reads (reads_textMap_compact m) allSpace_nil allSpace_nil ?_
  rw [compact, String.toList_ofList, List.append_nil, List.nil_append]

/-- No two maps are written alike. -/
theorem compact_ofTextMap_injective {m n : SortedMap String String}
    (h : (ofTextMap m).compact = (ofTextMap n).compact) : m = n := by
  have hm := readDocument_textMap m
  rw [h, readDocument_textMap n] at hm
  exact (Except.ok.inj hm).symm

end Compact

end NodeAttestation.Json
