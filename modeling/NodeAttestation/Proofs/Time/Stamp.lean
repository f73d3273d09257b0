import NodeAttestation.Proofs.Digits
import NodeAttestation.Proofs.Time.Adding
import NodeAttestation.Proofs.Time.Calendar

/-! # What a time stamp is read as. -/

namespace NodeAttestation

section Numbers

variable {digits rest : List Char} {limit : Nat}

theorem takeWhile_isDigit_take (all : AllDigits digits) (h : digits.length ≤ limit)
    (ends : digits.length = limit ∨ NoDigitNext rest) :
    ((digits ++ rest).take limit).takeWhile Char.isDigit = digits := by
  rw [List.take_append, List.take_of_length_le h]
  refine takeWhile_isDigit all ?_
  rcases ends with hlength | ends
  · simpa [hlength] using noDigitNext_nil
  · cases rest with
    | nil => simpa using noDigitNext_nil
    | cons c rest =>
      cases limit - digits.length with
      | zero => exact noDigitNext_nil
      | succ k => exact noDigitNext_cons (ends c rfl)

namespace Stamp

theorem number_append (hne : digits ≠ []) (all : AllDigits digits) (h : digits.length ≤ limit)
    (ends : digits.length = limit ∨ NoDigitNext rest)
    (hvalue : Nat.ofDigitChars 10 digits 0 < 2 ^ 63) :
    number limit (digits ++ rest) = .ok (Nat.ofDigitChars 10 digits 0, rest) := by
  have htake := takeWhile_isDigit_take all h ends
  obtain ⟨c, tail, rfl⟩ := List.exists_cons_of_ne_nil hne
  have hc := (allDigits_cons.1 all).1
  rw [List.cons_append] at htake ⊢
  simp only [number, hc, htake, Bool.not_true, Bool.false_eq_true, if_false]
  rw [← Nat.ofDigitChars_eq_foldl, if_pos hvalue, ← List.cons_append, List.drop_left]

theorem padded_ne_nil {width : Nat} (n : Nat) (h : 0 < width) : padded width n ≠ [] := by
  have := le_length_padded width n
  exact List.ne_nil_of_length_pos (by omega)

theorem skipBlanks_append (hne : digits ≠ []) (all : AllDigits digits) :
    Text.skipBlanks (digits ++ rest) = digits ++ rest := by
  obtain ⟨c, tail, rfl⟩ := List.exists_cons_of_ne_nil hne
  have hblank := isBlank_of_isDigit (allDigits_cons.1 all).1
  rw [Text.skipBlanks, List.cons_append, List.dropWhile_cons, hblank]
  rfl

/-- A number of two digits, whatever follows it. -/
theorem numberWithin_padded {low high n : Nat} (rest : List Char) (hlow : low ≤ n)
    (hhigh : n ≤ high) (h : n < 100) :
    numberWithin low high (padded 2 n ++ rest) = .ok (n, rest) := by
  have hlength : (padded 2 n).length = 2 := length_padded (by decide) h
  have hread : number 2 (padded 2 n ++ rest) = .ok (n, rest) := by
    have hvalue := ofDigitChars_padded 2 n
    rw [number_append (padded_ne_nil n (by decide)) (allDigits_padded 2 n) (Nat.le_of_eq hlength)
      (.inl hlength) (by omega), hvalue]
  rw [numberWithin, skipBlanks_append (padded_ne_nil n (by decide)) (allDigits_padded 2 n), hread]
  simp [Bind.bind, Except.bind, hlow, hhigh]

theorem skipBlanks_cons {c : Char} (h : Text.isBlank c = false) :
    Text.skipBlanks (c :: rest) = c :: rest := by
  rw [Text.skipBlanks, List.dropWhile_cons, h]
  rfl

theorem literal_cons {c : Char} (h : Text.isBlank c = false) :
    literal c (c :: rest) = .ok rest := by
  rw [literal, skipBlanks_cons h]
  simp

end Stamp

end Numbers

namespace Stamp

section Dates

variable {rest : List Char}

theorem ofDigitChars_lt_of_padded {width n : Nat} (h : n < 2 ^ 63) :
    Nat.ofDigitChars 10 (padded width n) 0 < 2 ^ 63 := by
  rwa [ofDigitChars_padded]

theorem isYear_of_natAbs_lt {n : Int} (h : n.natAbs < 2 ^ 31) :
    (-(2 ^ 31) ≤ n && n < 2 ^ 31) = true := by
  rw [Bool.and_eq_true, decide_eq_true_eq, decide_eq_true_eq]
  omega

section Signs

variable {text : List Char} {magnitude : Nat}

theorem readYear_minus (hread : number text.length text = .ok (magnitude, rest))
    (h : magnitude < 2 ^ 31) : readYear ('-' :: text) = .ok (-(magnitude : Int), rest) := by
  have hyear := isYear_of_natAbs_lt (n := -1 * (magnitude : Int)) (by omega)
  rw [readYear, skipBlanks_cons (by decide)]
  simp only [hread, Bind.bind, Except.bind]
  rw [if_pos hyear, Int.neg_one_mul]

theorem readYear_plus (hread : number text.length text = .ok (magnitude, rest))
    (h : magnitude < 2 ^ 31) : readYear ('+' :: text) = .ok ((magnitude : Int), rest) := by
  have hyear := isYear_of_natAbs_lt (n := 1 * (magnitude : Int)) (by omega)
  rw [readYear, skipBlanks_cons (by decide)]
  simp only [hread, Bind.bind, Except.bind]
  rw [if_pos hyear, Int.one_mul]

theorem readYear_digits {c : Char} (hc : c.isDigit = true)
    (hread : number 4 (c :: text) = .ok (magnitude, rest)) (h : magnitude < 2 ^ 31) :
    readYear (c :: text) = .ok ((magnitude : Int), rest) := by
  have hyear := isYear_of_natAbs_lt (n := 1 * (magnitude : Int)) (by omega)
  rw [readYear, skipBlanks_cons (isBlank_of_isDigit hc)]
  split
  rename_i hsign
  split at hsign
  · rename_i hminus
    cases hminus
    exact absurd hc (by decide)
  · rename_i hplus
    cases hplus
    exact absurd hc (by decide)
  · cases hsign
    simp only [hread, Bind.bind, Except.bind]
    rw [if_pos hyear, Int.one_mul]

end Signs

/-- The digits of a year are followed by a dash. -/
theorem readYear_year {n : Int} (h : n.natAbs < 2 ^ 31) (rest : List Char) :
    readYear (year n ++ '-' :: rest) = .ok (n, '-' :: rest) := by
  have hvalue : Nat.ofDigitChars 10 (padded 4 n.natAbs) 0 < 2 ^ 63 :=
    ofDigitChars_lt_of_padded (by omega)
  have ends : NoDigitNext ('-' :: rest) := noDigitNext_cons (by decide)
  have hread (limit : Nat) (hlimit : (padded 4 n.natAbs).length ≤ limit) :
      number limit (padded 4 n.natAbs ++ '-' :: rest) = .ok (n.natAbs, '-' :: rest) := by
    have := number_append (padded_ne_nil _ (by decide)) (allDigits_padded 4 n.natAbs) hlimit
      (.inr ends) hvalue
    rwa [ofDigitChars_padded] at this
  have hwhole := hread (padded 4 n.natAbs ++ '-' :: rest).length (by simp)
  rw [year]
  split
  · rename_i hplain
    simp only [Bool.and_eq_true, decide_eq_true_eq] at hplain
    have hnat : n.toNat = n.natAbs := by omega
    have hlength : (padded 4 n.natAbs).length = 4 := length_padded (by decide) (by omega)
    have hfour := hread 4 (Nat.le_of_eq hlength)
    have hdigits := allDigits_padded 4 n.natAbs
    have hne : padded 4 n.natAbs ≠ [] := padded_ne_nil _ (by decide)
    rw [hnat]
    obtain ⟨c, tail, heq⟩ := List.exists_cons_of_ne_nil hne
    rw [heq] at hfour hdigits ⊢
    exact (readYear_digits (allDigits_cons.1 hdigits).1 hfour h).trans
      (by rw [Int.natAbs_of_nonneg hplain.1])
  · by_cases hsign : n < 0
    · rw [if_pos hsign, List.cons_append, readYear_minus hwhole h,
        Int.ofNat_natAbs_of_nonpos (Int.le_of_lt hsign), Int.neg_neg]
    · rw [if_neg hsign, List.cons_append, readYear_plus hwhole h,
        Int.natAbs_of_nonneg (Int.not_lt.1 hsign)]

/-- A date of the calendar whose year has ten digits at most. -/
theorem readDate_date {d : Date} (hyear : d.year.natAbs < 2 ^ 31)
    (hmonth : 1 ≤ d.month ∧ d.month ≤ 12) (hday : 1 ≤ d.day ∧ d.day ≤ 31) (rest : List Char) :
    readDate (date d ++ rest) = .ok (d, rest) := by
  have hmonth' := numberWithin_padded ('-' :: (padded 2 d.day ++ rest)) hmonth.1 hmonth.2
    (by omega)
  have hday' := numberWithin_padded rest hday.1 hday.2 (by omega)
  simp only [date, List.append_assoc, List.cons_append]
  simp only [readDate, readYear_year hyear, Bind.bind, Except.bind]
  simp only [literal_cons (c := '-') (by decide), hmonth', hday']

end Dates

section Times

/-- Digits of a fraction, up to the end of the stamp. -/
theorem readFraction_padded {places value : Nat} (hpos : 0 < places) (h : places ≤ 9)
    (hvalue : value < 10 ^ places) :
    readFraction ('.' :: padded places value ++ ['Z']) =
      .ok (value * 10 ^ (9 - places), ['Z']) := by
  have hlength := length_padded hpos hvalue
  have ends : NoDigitNext ['Z'] := noDigitNext_cons (by decide)
  have hsmall : value < 2 ^ 63 := by
    have := Nat.pow_le_pow_right (n := 10) (by decide) h
    omega
  have hread : number 9 (padded places value ++ ['Z']) = .ok (value, ['Z']) := by
    rw [number_append (padded_ne_nil value hpos) (allDigits_padded places value) (by omega)
      (.inr ends) (ofDigitChars_lt_of_padded hsmall), ofDigitChars_padded]
  rw [List.cons_append, readFraction]
  simp only [hread, Bind.bind, Except.bind]
  simp [hlength]

theorem readFraction_fraction {nano : Nat} (h : nano < 1000000000) :
    readFraction (fraction nano ++ ['Z']) = .ok (nano, ['Z']) := by
  rw [fraction]
  split
  · simp_all [readFraction]
  · split
    · rename_i hmillis
      have hmillis := eq_of_beq hmillis
      rw [readFraction_padded (by decide) (by decide) (by omega)]
      congr 2
      omega
    · split
      · rename_i hmicros
        have hmicros := eq_of_beq hmicros
        rw [readFraction_padded (by decide) (by decide) (by omega)]
        congr 2
        omega
      · rw [readFraction_padded (by decide) (by decide) h]
        simp

end Times

end Stamp

namespace Instant

/-- Whether the instant lies in a leap second that is not the last of its minute. -/
def IsStray (t : Instant) : Prop := t.isLeap = true ∧ t.second % 60 ≠ 59

instance (t : Instant) : Decidable t.IsStray := inferInstanceAs (Decidable (_ ∧ _))

/-- What the stamp of an instant is read as. The second after a minute's last may be a leap second,
any other is the one that comes next. -/
def restamped (t : Instant) : Instant :=
  if h : t.IsStray then
    { second := t.second + 1
      nano := t.nano - 1000000000
      earliest_le := by have := t.earliest_le; omega
      le_latest := by have := t.le_latest; have := h.2; omega
      nano_lt := by have := t.nano_lt; omega }
  else t

variable {t : Instant}

theorem restamped_eq_self_iff : t.restamped = t ↔ ¬t.IsStray := by
  rw [restamped]
  split
  · rename_i hstray
    refine iff_of_false (fun heq => ?_) (not_not_intro hstray)
    have := congrArg Instant.second heq
    simp only at this
    omega
  · rename_i hstray
    exact iff_of_true rfl hstray

theorem nanos_restamped (t : Instant) : t.restamped.nanos = t.nanos := by
  rw [restamped]
  split
  · rename_i hstray
    have hleap := hstray.1
    rw [isLeap, decide_eq_true_iff, nanosPerSecond] at hleap
    simp only [nanos, nanosPerSecond]
    omega
  · rfl

theorem natAbs_year_lt (t : Instant) : t.date.year.natAbs < 2 ^ 31 := by
  have hfirst := t.earliest_le
  have hlast := t.le_latest
  rw [date, Date.ofDays, Date.epochOffset, secondsPerDay]
  dsimp only
  omega

end Instant

theorem Date.daysInMonth_le (year : Int) (month : Nat) : daysInMonth year month ≤ 31 := by
  rw [daysInMonth]
  repeat' split
  all_goals decide

theorem Date.bounds_of_isValid {d : Date} (h : d.isValid = true) :
    (1 ≤ d.month ∧ d.month ≤ 12) ∧ 1 ≤ d.day ∧ d.day ≤ 31 := by
  simp only [isValid, Bool.and_eq_true, decide_eq_true_eq] at h
  obtain ⟨⟨⟨hfirst, hlast⟩, hday⟩, hlength⟩ := h
  exact ⟨⟨hfirst, hlast⟩, hday, Nat.le_trans hlength (daysInMonth_le _ _)⟩

namespace Stamp

variable {t : Instant}

/-- The parts of the time of day and the nanoseconds of its second. -/
theorem read_parts {d : Date} {hour minute second nano : Nat} (hyear : d.year.natAbs < 2 ^ 31)
    (valid : d.isValid = true) (hhour : hour ≤ 23) (hminute : minute ≤ 59) (hsecond : second ≤ 60)
    (hnano : nano < 1000000000) (hwall : local? d hour minute second nano = some t) :
    read (String.ofList (date d ++ 'T' :: (padded 2 hour ++ ':' :: padded 2 minute ++
      ':' :: padded 2 second ++ fraction nano) ++ ['Z'])) = .ok t := by
  obtain ⟨hmonth, hday⟩ := Date.bounds_of_isValid valid
  have hutc : readOffset (Text.skipBlanks ['Z']) = .ok (0, []) := by rfl
  have hoffset : atOffset t 0 = .ok t := by
    rw [atOffset, if_pos (by decide), Int.sub_zero, t.ofParts?_self]
  simp only [List.append_assoc, List.cons_append]
  simp only [read, String.toList_ofList, Bind.bind, Except.bind]
  rw [readDate_date hyear hmonth hday]
  simp only [beq_self_eq_true, Bool.true_or, if_true]
  rw [numberWithin_padded _ (Nat.zero_le _) hhour (by omega)]
  simp only [literal_cons (c := ':') (by decide)]
  rw [numberWithin_padded _ (Nat.zero_le _) hminute (by omega)]
  simp only [literal_cons (c := ':') (by decide)]
  rw [numberWithin_padded _ (Nat.zero_le _) hsecond (by omega)]
  simp only [readFraction_fraction hnano, hutc, hwall, hoffset]
  rfl

theorem secondOfDay_lt (t : Instant) : t.secondOfDay < 86400 := by
  rw [Instant.secondOfDay, secondsPerDay]
  omega

theorem eq_ofParts? {second : Int} {nano : Nat} (hsecond : second = t.second)
    (hnano : nano = t.nano) : Instant.ofParts? second nano = some t := by
  rw [hsecond, hnano, t.ofParts?_self]

theorem local?_usual (h : t.isLeap = false) :
    local? t.date (t.secondOfDay / 3600) (t.secondOfDay / 60 % 60) (t.secondOfDay % 60) t.nano =
      some t.restamped := by
  have hsame : t.restamped = t := by
    rw [Instant.restamped_eq_self_iff, Instant.IsStray, h]
    simp
  have hsecond : ((t.secondOfDay % 60) == 60) = false := by
    rw [beq_eq_false_iff_ne]
    omega
  rw [hsame, local?, Instant.date, Date.isValid_ofDays, Date.toDays_ofDays, hsecond]
  simp only [Bool.false_eq_true, if_false, if_true]
  apply eq_ofParts?
  · rw [Instant.secondOfDay, secondsPerDay]
    omega
  · omega

theorem local?_leap (h : t.isLeap = true) :
    local? t.date (t.secondOfDay / 3600) (t.secondOfDay / 60 % 60) (t.secondOfDay % 60 + 1)
      (t.nano - 1000000000) = some t.restamped := by
  have hleap := h
  rw [Instant.isLeap, decide_eq_true_iff, nanosPerSecond] at hleap
  have hminute : t.secondOfDay % 60 = t.second % 60 := by
    rw [Instant.secondOfDay, secondsPerDay]
    omega
  have hday : t.second = t.second / 86400 * 86400 + t.secondOfDay := by
    rw [Instant.secondOfDay, secondsPerDay]
    omega
  rw [local?, Instant.date, Date.isValid_ofDays, Date.toDays_ofDays, secondsPerDay]
  by_cases hlast : t.second % 60 = 59
  · have hsecond : ((t.secondOfDay % 60 + 1) == 60) = true := by
      rw [beq_iff_eq]
      omega
    have hsame : t.restamped = t := by
      rw [Instant.restamped_eq_self_iff, Instant.IsStray]
      exact fun hstray => hstray.2 hlast
    rw [hsame, hsecond]
    simp only [if_true]
    apply eq_ofParts? <;> omega
  · have hsecond : ((t.secondOfDay % 60 + 1) == 60) = false := by
      rw [beq_eq_false_iff_ne]
      omega
    have hstray : t.IsStray := ⟨h, hlast⟩
    rw [hsecond]
    simp only [Bool.false_eq_true, if_false, if_true]
    rw [Instant.restamped, dif_pos hstray]
    apply eq_ofParts?
    · simp only
      omega
    · simp only
      omega

/-- A stamp is read as the instant it shows, which is the one it was written for unless that lies
in a leap second within a minute. -/
theorem read_stamp (t : Instant) : read t.stamp = .ok t.restamped := by
  have hday := secondOfDay_lt t
  have hnano := t.nano_lt
  have hvalid : t.date.isValid = true := Date.isValid_ofDays _
  have hzone : "Z".toList = ['Z'] := rfl
  cases hleap : t.isLeap with
  | false =>
    have hsmall : t.nano < 1000000000 := by
      rw [Instant.isLeap, decide_eq_false_iff_not, nanosPerSecond] at hleap
      omega
    have hread := read_parts t.natAbs_year_lt hvalid (by omega) (by omega) (by omega) hsmall
      (local?_usual hleap)
    rw [Instant.stamp, write, timeOfDay]
    simpa only [if_pos hsmall, hzone, Nat.add_zero, Nat.zero_mul, Nat.sub_zero] using hread
  | true =>
    have hlarge : ¬t.nano < 1000000000 := by
      rw [Instant.isLeap, decide_eq_true_iff, nanosPerSecond] at hleap
      omega
    have hread := read_parts t.natAbs_year_lt hvalid (by omega) (by omega) (by omega) (by omega)
      (local?_leap hleap)
    rw [Instant.stamp, write, timeOfDay]
    simpa only [if_neg hlarge, hzone, Nat.one_mul] using hread

end Stamp

end NodeAttestation
