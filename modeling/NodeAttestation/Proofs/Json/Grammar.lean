import NodeAttestation.Proofs.Json.Reading

/-!
# Values are passed over whatever they are

The grammar of the values of a JSON text. Nothing is asked of a value that is passed over but its
form: numbers have no bounds, names may be repeated and values may be nested to any depth.
-/

namespace NodeAttestation.Json

section Numbers

inductive IsFraction : List Char → Prop
  | absent : IsFraction []
  | present {digits : List Char} (hne : digits ≠ []) (all : AllDigits digits) :
      IsFraction ('.' :: digits)

inductive IsExponent : List Char → Prop
  | absent : IsExponent []
  | present {mark : Char} {sign digits : List Char} (marked : mark = 'e' ∨ mark = 'E')
      (signed : sign = [] ∨ sign = ['+'] ∨ sign = ['-']) (hne : digits ≠ [])
      (all : AllDigits digits) : IsExponent (mark :: (sign ++ digits))

/-- A number without its sign. -/
inductive IsNumeral : List Char → Prop
  | parts {whole fraction exponent : List Char} (hwhole : IsWhole whole)
      (hfraction : IsFraction fraction) (hexponent : IsExponent exponent) :
      IsNumeral (whole ++ (fraction ++ exponent))

variable {fraction exponent text rest : List Char}

theorem exists_exponentPart_digits {mark : Char} {digits : List Char}
    (marked : mark = 'e' ∨ mark = 'E') (hne : digits ≠ []) (all : AllDigits digits)
    (ends : NoDigitNext rest) : ∃ e, exponentPart (mark :: (digits ++ rest)) = .ok (e, rest) := by
  have hmark : (mark == 'e' || mark == 'E') = true := by simpa using marked
  have hread := someDigits_append hne all ends
  obtain ⟨c, tail, rfl⟩ := List.exists_cons_of_ne_nil hne
  have hdigit := (allDigits_cons.1 all).1
  refine ⟨some (digitsValue (c :: tail)), ?_⟩
  simp only [exponentPart, hmark, if_true]
  split <;> rename_i heq
  · cases heq
    exact absurd hdigit (by decide)
  · cases heq
    exact absurd hdigit (by decide)
  · simp only [hread, Bind.bind, Except.bind, Bool.false_eq_true, if_false]

theorem IsExponent.exists_exponentPart (h : IsExponent exponent) (ends : EndsNumber rest) :
    ∃ e, exponentPart (exponent ++ rest) = .ok (e, rest) := by
  cases h with
  | absent => exact ⟨none, exponentPart_of_ends ends⟩
  | @present mark sign digits marked signed hne all =>
    have hmark : (mark == 'e' || mark == 'E') = true := by simpa using marked
    have hread := someDigits_append hne all ends.noDigitNext
    rcases signed with rfl | rfl | rfl
    · exact exists_exponentPart_digits marked hne all ends.noDigitNext
    · refine ⟨some (digitsValue digits), ?_⟩
      simp only [List.cons_append, List.nil_append, exponentPart, hmark, if_true, hread, Bind.bind,
        Except.bind, Bool.false_eq_true, if_false]
    · refine ⟨some (-digitsValue digits), ?_⟩
      simp only [List.cons_append, List.nil_append, exponentPart, hmark, if_true, hread, Bind.bind,
        Except.bind]

theorem IsExponent.noDigitNext (h : IsExponent exponent) (ends : EndsNumber rest) :
    NoDigitNext (exponent ++ rest) := by
  cases h with
  | absent => exact ends.noDigitNext
  | present marked =>
    refine noDigitNext_cons ?_
    rcases marked with rfl | rfl <;> decide

theorem IsExponent.noPointNext (h : IsExponent exponent) (ends : EndsNumber rest) :
    '.' ∉ (exponent ++ rest).head? := by
  cases h with
  | absent => exact fun hpoint => (ends _ hpoint).2.1 rfl
  | present marked => rcases marked with rfl | rfl <;> simp

theorem IsNumeral.exists_numeral (h : IsNumeral text) (negative : Bool)
    (ends : EndsNumber rest) : ∃ n, numeral negative (text ++ rest) = .ok (n, rest) := by
  cases h with
  | @parts whole fraction exponent hwhole hfraction hexponent =>
    obtain ⟨e, he⟩ := hexponent.exists_exponentPart ends
    have hdigits := hexponent.noDigitNext ends
    rw [List.append_assoc, List.append_assoc]
    cases hfraction with
    | absent =>
      have hread := wholePart_append hwhole hdigits
      refine ⟨⟨negative, whole, none, e⟩, ?_⟩
      simp only [List.nil_append, numeral, hread, Bind.bind, Except.bind,
        fractionPart_of_ne (hexponent.noPointNext ends), he]
    | @present digits hne all =>
      have hpart := fractionPart_append hne all hdigits
      have hread := wholePart_append hwhole
        (show NoDigitNext ('.' :: digits ++ (exponent ++ rest)) from noDigitNext_cons (by decide))
      refine ⟨⟨negative, whole, some digits, e⟩, ?_⟩
      simp only [numeral, hread, Bind.bind, Except.bind, hpart, he]

theorem IsNumeral.skipNumber_eq (h : IsNumeral text) (ends : EndsNumber rest) :
    skipNumber (text ++ rest) = .ok rest := by
  obtain ⟨n, hn⟩ := h.exists_numeral false ends
  rw [skipNumber, hn]

end Numbers

/-- What stands before an item or a member: a comma, unless it is the first. -/
inductive Leads : Bool → List Char → Prop
  | first : Leads true []
  | later {space : List Char} (h : AllSpace space) : Leads false (space ++ [','])

/-- The parts of a text: a value with the space before it, and what is left of an array or an
object that nothing or something has been read of. -/
inductive Part where
  | value
  | items (first : Bool)
  | members (first : Bool)

inductive Grammar : Part → List Char → Prop
  | spaced {space text : List Char} (h : AllSpace space) (core : Grammar .value text) :
      Grammar .value (space ++ text)
  | null : Grammar .value "null".toList
  | bool (b : Bool) : Grammar .value (boolText b)
  | number {sign text : List Char} (signed : sign = [] ∨ sign = ['-']) (h : IsNumeral text) :
      Grammar .value (sign ++ text)
  | text {body : List Char} (h : IsTextBody body) : Grammar .value ('"' :: (body ++ ['"']))
  | array {text : List Char} (items : Grammar (.items true) text) : Grammar .value ('[' :: text)
  | object {text : List Char} (members : Grammar (.members true) text) :
      Grammar .value ('\x7b' :: text)
  | closeArray {first : Bool} {space : List Char} (h : AllSpace space) :
      Grammar (.items first) (space ++ [']'])
  | item {first : Bool} {lead value text : List Char} (leads : Leads first lead)
      (held : Grammar .value value) (later : Grammar (.items false) text) :
      Grammar (.items first) (lead ++ (value ++ text))
  | closeObject {first : Bool} {space : List Char} (h : AllSpace space) :
      Grammar (.members first) (space ++ ['\x7d'])
  | member {first : Bool} {lead space name between value text : List Char}
      (leads : Leads first lead) (hspace : AllSpace space) (named : IsTextBody name)
      (hbetween : AllSpace between) (held : Grammar .value value)
      (later : Grammar (.members false) text) :
      Grammar (.members first)
        (lead ++ (space ++ '"' :: (name ++ '"' :: (between ++ ':' :: (value ++ text)))))

/-- A text that cannot be taken for the end of an array or for what separates its items. -/
def StartsItem (text : List Char) : Prop :=
  ∃ c tail, text = c :: tail ∧ isSpace c = false ∧ c ≠ ',' ∧ c ≠ ']'

section Spaces

variable {space rest : List Char} {first : Bool}

theorem skipSpace_of_allSpace (h : AllSpace space) (input : List Char) :
    skipSpace (space ++ input) = skipSpace input :=
  List.dropWhile_append_of_pos h

theorem nextItem_spaced (h : AllSpace space) (first : Bool) (input : List Char) :
    nextItem first (space ++ input) = nextItem first input := by
  rw [nextItem, nextItem, skipSpace_of_allSpace h]

theorem nextItem_first {text : List Char} (hspace : AllSpace space) (starts : StartsItem text) :
    nextItem true (space ++ (text ++ rest)) = .ok (true, text ++ rest) := by
  obtain ⟨c, tail, rfl, hc, hcomma, hbracket⟩ := starts
  rw [nextItem, List.cons_append, skipSpace_append hspace hc]
  split <;> simp_all

theorem nextItem_later {text : List Char} (hspace : AllSpace space) (starts : StartsItem text) :
    nextItem false (',' :: (space ++ (text ++ rest))) = .ok (true, text ++ rest) := by
  obtain ⟨c, tail, rfl, hc, hcomma, hbracket⟩ := starts
  have hskip : skipSpace (',' :: (space ++ (c :: tail ++ rest))) =
      ',' :: (space ++ (c :: tail ++ rest)) := skipSpace_append allSpace_nil (by rfl)
  rw [List.cons_append] at hskip ⊢
  rw [nextItem, hskip]
  simp only [Bool.false_eq_true, if_false, skipSpace_append hspace hc]
  split <;> simp_all

theorem nextItem_close (first : Bool) (hspace : AllSpace space) :
    nextItem first (space ++ ']' :: rest) = .ok (false, rest) := by
  rw [nextItem, skipSpace_append hspace (by rfl)]
  simp

theorem skipName_spaced (h : AllSpace space) (first : Bool) (input : List Char) :
    skipName first (space ++ input) = skipName first input := by
  rw [skipName, skipName, skipSpace_of_allSpace h]

theorem colon_spaced (h : AllSpace space) (rest : List Char) :
    colon (space ++ ':' :: rest) = .ok rest := by
  rw [colon, skipSpace_append h (by rfl)]
  rfl

theorem skipValueWithin_spaced (h : AllSpace space) (budget : Nat) (input : List Char) :
    skipValueWithin budget (space ++ input) = skipValueWithin budget input := by
  cases budget with
  | zero => rw [skipValueWithin, skipValueWithin]
  | succ budget => rw [skipValueWithin, skipValueWithin, skipSpace_of_allSpace h]

end Spaces

section Passing

variable {text rest : List Char} {first : Bool} {part : Part}

theorem IsNumeral.exists_digit (h : IsNumeral text) :
    ∃ c tail, text = c :: tail ∧ c.isDigit = true := by
  cases h with
  | parts hwhole _ _ =>
    obtain ⟨c, tail, rfl⟩ := List.exists_cons_of_ne_nil hwhole.ne_nil
    exact ⟨c, _, rfl, (allDigits_cons.1 hwhole.allDigits).1⟩

theorem startsItem_of_isDigit {c : Char} (h : c.isDigit = true) (tail : List Char) :
    StartsItem (c :: tail) := by
  refine ⟨c, tail, rfl, isSpace_of_isDigit h, ?_, ?_⟩
  all_goals
    rintro rfl
    cases h

/-- A value begins with neither a comma nor a bracket that closes. -/
theorem Grammar.exists_startsItem (h : Grammar .value text) :
    ∃ space core, AllSpace space ∧ text = space ++ core ∧ StartsItem core := by
  generalize hpart : Part.value = part at h
  induction h with
  | spaced hspace _ ih =>
    obtain ⟨space, core, all, rfl, starts⟩ := ih hpart
    refine ⟨_ ++ space, core, ?_, (List.append_assoc ..).symm, starts⟩
    intro c hc
    exact (List.mem_append.1 hc).elim (hspace c) (all c)
  | null => exact ⟨[], _, allSpace_nil, rfl, 'n', _, rfl, rfl, by decide, by decide⟩
  | bool b =>
    cases b with
    | false => exact ⟨[], _, allSpace_nil, rfl, 'f', _, rfl, rfl, by decide, by decide⟩
    | true => exact ⟨[], _, allSpace_nil, rfl, 't', _, rfl, rfl, by decide, by decide⟩
  | number signed h =>
    rcases signed with rfl | rfl
    · obtain ⟨c, tail, rfl, hc⟩ := h.exists_digit
      exact ⟨[], _, allSpace_nil, rfl, startsItem_of_isDigit hc tail⟩
    · exact ⟨[], _, allSpace_nil, rfl, '-', _, rfl, rfl, by decide, by decide⟩
  | text => exact ⟨[], _, allSpace_nil, rfl, '"', _, rfl, rfl, by decide, by decide⟩
  | array => exact ⟨[], _, allSpace_nil, rfl, '[', _, rfl, rfl, by decide, by decide⟩
  | object => exact ⟨[], _, allSpace_nil, rfl, '\x7b', _, rfl, rfl, by decide, by decide⟩
  | _ => cases hpart

theorem StartsItem.length_pos (starts : StartsItem text) : 0 < text.length := by
  obtain ⟨c, tail, rfl, -⟩ := starts
  exact Nat.succ_pos _

theorem Grammar.length_value_pos (h : Grammar .value text) : 0 < text.length := by
  obtain ⟨space, core, -, rfl, starts⟩ := h.exists_startsItem
  have := starts.length_pos
  rw [List.length_append]
  omega

theorem Grammar.length_pos (h : Grammar part text) : 0 < text.length := by
  cases h with
  | item _ held _ =>
    have := held.length_value_pos
    simp only [List.length_append]
    omega
  | closeArray | closeObject | member =>
    simp only [List.length_append, List.length_cons]
    omega
  | spaced h core => exact (Grammar.spaced h core).length_value_pos
  | null => decide
  | bool b => exact (Grammar.bool b).length_value_pos
  | number signed h => exact (Grammar.number signed h).length_value_pos
  | text | array | object => exact Nat.succ_pos _

theorem endsNumber_cons {c : Char} (h : c.isDigit = false ∧ c ≠ '.' ∧ c ≠ 'e' ∧ c ≠ 'E')
    (rest : List Char) : EndsNumber (c :: rest) := by
  rintro _ ⟨⟩
  exact h

theorem endsNumber_comma (rest : List Char) : EndsNumber (',' :: rest) :=
  endsNumber_cons (by decide) rest

theorem endsNumber_spaced {space : List Char} (h : AllSpace space) (ends : EndsNumber rest) :
    EndsNumber (space ++ rest) := by
  cases space with
  | nil => exact ends
  | cons c space =>
    have hc := h c List.mem_cons_self
    simp only [isSpace, Bool.or_eq_true, beq_iff_eq] at hc
    refine endsNumber_cons ?_ _
    rcases hc with ((rfl | rfl) | rfl) | rfl <;> decide

theorem Leads.endsNumber {lead : List Char} (leads : Leads false lead) (rest : List Char) :
    EndsNumber (lead ++ rest) := by
  cases leads with
  | later h =>
    rw [List.append_assoc]
    exact endsNumber_spaced h (endsNumber_comma rest)

/-- A number ends where an array or an object goes on or is closed. -/
theorem Grammar.endsNumber (h : Grammar part text)
    (later : part = .items false ∨ part = .members false) (rest : List Char) :
    EndsNumber (text ++ rest) := by
  cases h with
  | closeArray h | closeObject h =>
    rw [List.append_assoc]
    exact endsNumber_spaced h (endsNumber_cons (by decide) rest)
  | @item first _ _ _ leads | @member first _ _ _ _ _ _ leads =>
    obtain rfl : first = false := by simpa using later
    rw [List.append_assoc]
    exact leads.endsNumber _
  | _ => simp at later

theorem nextItem_lead {lead space core : List Char} (leads : Leads first lead)
    (hspace : AllSpace space) (starts : StartsItem core) :
    nextItem first (lead ++ (space ++ (core ++ rest))) = .ok (true, core ++ rest) := by
  cases leads with
  | first => exact nextItem_first hspace starts
  | later h =>
    rw [List.append_assoc, nextItem_spaced h]
    exact nextItem_later hspace starts

theorem skipName_lead {lead space name : List Char} (leads : Leads first lead)
    (hspace : AllSpace space) (named : IsTextBody name) :
    skipName first (lead ++ (space ++ '"' :: (name ++ '"' :: rest))) = .ok (true, rest) := by
  have hquote : skipSpace (space ++ '"' :: (name ++ '"' :: rest)) = '"' :: (name ++ '"' :: rest) :=
    skipSpace_append hspace (by rfl)
  have hname := named.skipText_eq rest
  cases leads with
  | first => simp [skipName, hquote, hname, Except.map]
  | later h =>
    have hcomma : skipSpace (',' :: (space ++ '"' :: (name ++ '"' :: rest))) =
        ',' :: (space ++ '"' :: (name ++ '"' :: rest)) := skipSpace_append allSpace_nil (by rfl)
    rw [List.append_assoc, skipName_spaced h]
    simp [skipName, hcomma, hquote, hname, Except.map]

theorem skipName_close (first : Bool) : skipName first ('\x7d' :: rest) = .ok (false, rest) := by
  have hclose : skipSpace ('\x7d' :: rest) = '\x7d' :: rest :=
    skipSpace_append allSpace_nil (by rfl)
  simp [skipName, hclose]

/-- A text is passed over within a budget of two for each of its characters. -/
def Passed : Part → List Char → Prop
  | .value, text => ∀ rest budget, EndsNumber rest → 2 * text.length ≤ budget →
      skipValueWithin budget (text ++ rest) = .ok rest
  | .items first, text => ∀ rest budget, 2 * text.length ≤ budget →
      skipItemsWithin budget first (text ++ rest) = .ok rest
  | .members first, text => ∀ rest budget, 2 * text.length ≤ budget →
      skipMembersWithin budget first (text ++ rest) = .ok rest

theorem passed_item {lead value : List Char} (leads : Leads first lead)
    (held : Grammar .value value) (hvalue : Passed .value value)
    (later : Grammar (.items false) text) (htext : Passed (.items false) text) :
    Passed (.items first) (lead ++ (value ++ text)) := by
  intro rest budget enough
  have hpos := held.length_pos
  have hlater := later.length_pos
  simp only [List.length_append] at enough
  obtain ⟨budget, rfl⟩ := Nat.exists_eq_add_one.2 (show 0 < budget by omega)
  have passes := hvalue (text ++ rest) budget (later.endsNumber (.inl rfl) rest) (by omega)
  obtain ⟨space, core, hspace, rfl, starts⟩ := held.exists_startsItem
  rw [List.append_assoc, skipValueWithin_spaced hspace] at passes
  simp only [List.append_assoc]
  rw [skipItemsWithin, nextItem_lead leads hspace starts]
  dsimp only
  rw [passes]
  exact htext rest budget (by omega)

theorem passed_member {lead space name between value : List Char} (leads : Leads first lead)
    (hspace : AllSpace space) (named : IsTextBody name) (hbetween : AllSpace between)
    (held : Grammar .value value) (hvalue : Passed .value value)
    (later : Grammar (.members false) text) (htext : Passed (.members false) text) :
    Passed (.members first)
      (lead ++ (space ++ '"' :: (name ++ '"' :: (between ++ ':' :: (value ++ text))))) := by
  intro rest budget enough
  have hpos := held.length_pos
  have hlater := later.length_pos
  simp only [List.length_append, List.length_cons] at enough
  obtain ⟨budget, rfl⟩ := Nat.exists_eq_add_one.2 (show 0 < budget by omega)
  have passes := hvalue (text ++ rest) budget (later.endsNumber (.inr rfl) rest) (by omega)
  simp only [List.append_assoc, List.cons_append]
  rw [skipMembersWithin, skipName_lead leads hspace named]
  dsimp only
  rw [colon_spaced hbetween]
  dsimp only
  rw [passes]
  exact htext rest budget (by omega)

theorem passed_array (items : Passed (.items true) text) : Passed .value ('[' :: text) := by
  intro rest budget _ enough
  rw [List.length_cons] at enough
  obtain ⟨budget, rfl⟩ := Nat.exists_eq_add_one.2 (show 0 < budget by omega)
  exact items rest budget (by omega)

theorem passed_object (members : Passed (.members true) text) :
    Passed .value ('\x7b' :: text) := by
  intro rest budget _ enough
  rw [List.length_cons] at enough
  obtain ⟨budget, rfl⟩ := Nat.exists_eq_add_one.2 (show 0 < budget by omega)
  exact members rest budget (by omega)

theorem passed_number {sign : List Char} (signed : sign = [] ∨ sign = ['-'])
    (h : IsNumeral text) : Passed .value (sign ++ text) := by
  intro rest budget ends enough
  have hskip := h.skipNumber_eq ends
  obtain ⟨c, tail, rfl, hc⟩ := h.exists_digit
  simp only [List.length_append, List.length_cons] at enough
  obtain ⟨budget, rfl⟩ := Nat.exists_eq_add_one.2 (show 0 < budget by omega)
  rcases signed with rfl | rfl
  · have hdigit : skipSpace (c :: tail ++ rest) = c :: tail ++ rest :=
      skipSpace_append allSpace_nil (isSpace_of_isDigit hc)
    rw [List.nil_append, skipValueWithin, hdigit]
    split <;> rename_i heq <;> cases heq
    case h_9 =>
      rw [if_pos hc]
      exact hskip
    all_goals exact absurd hc (by decide)
  · exact hskip

theorem Grammar.passed (h : Grammar part text) : Passed part text := by
  induction h with
  | spaced h core ih =>
    intro rest budget ends enough
    rw [List.append_assoc, skipValueWithin_spaced h]
    exact ih rest budget ends (by rw [List.length_append] at enough; omega)
  | number signed h => exact passed_number signed h
  | array _ ih => exact passed_array ih
  | object _ ih => exact passed_object ih
  | item leads held later hvalue htext => exact passed_item leads held hvalue later htext
  | member leads hspace named hbetween held later hvalue htext =>
    exact passed_member leads hspace named hbetween held hvalue later htext
  | null =>
    intro rest budget _ enough
    obtain ⟨budget, rfl⟩ := Nat.exists_eq_add_one.2 (Nat.lt_of_lt_of_le (by decide) enough)
    rfl
  | bool b =>
    intro rest budget _ enough
    have hpos := (Grammar.bool b).length_pos
    obtain ⟨budget, rfl⟩ := Nat.exists_eq_add_one.2 (show 0 < budget by omega)
    cases b <;> rfl
  | text h =>
    intro rest budget _ enough
    rw [List.length_cons] at enough
    obtain ⟨budget, rfl⟩ := Nat.exists_eq_add_one.2 (show 0 < budget by omega)
    rw [List.cons_append, List.append_assoc]
    exact h.skipText_eq rest
  | closeArray h =>
    intro rest budget enough
    rw [List.length_append, List.length_singleton] at enough
    obtain ⟨budget, rfl⟩ := Nat.exists_eq_add_one.2 (show 0 < budget by omega)
    rw [List.append_assoc, List.singleton_append, skipItemsWithin, nextItem_close _ h]
  | closeObject h =>
    intro rest budget enough
    rw [List.length_append, List.length_singleton] at enough
    obtain ⟨budget, rfl⟩ := Nat.exists_eq_add_one.2 (show 0 < budget by omega)
    rw [List.append_assoc, List.singleton_append, skipMembersWithin, skipName_spaced h,
      skipName_close]

theorem Grammar.skipValue_eq (h : Grammar .value text) (ends : EndsNumber rest) :
    skipValue (text ++ rest) = .ok rest :=
  h.passed rest _ ends (by rw [List.length_append]; omega)

end Passing

end NodeAttestation.Json
