import NodeAttestation.Json.Record
import NodeAttestation.Proofs.Double.Rescaling

/-! # No text holds a double that is not finite. -/

namespace NodeAttestation

namespace Double

variable {x y : Double}

theorem isFinite_neg (finite : x.isFinite = true) : x.neg.isFinite = true := by
  rw [isFinite, decide_eq_true_eq] at finite ⊢
  rw [neg, magnitude_ofMagnitude _ (Nat.le_of_lt finite)]
  exact finite

theorem isFinite_div (finite : x.isFinite = true) (h : stepsPerOne ≤ y.absSteps) :
    (x.div y).isFinite = true := by
  have hle : nearest x.absSteps y.absSteps ≤ x.magnitude :=
    nearest_le_of_le (Nat.lt_of_lt_of_le stepsPerOne_pos h) (Nat.mul_le_mul_left _ h)
  rw [isFinite, decide_eq_true_eq] at finite ⊢
  rw [div, magnitude_ofMagnitude _ (nearest_le _ _)]
  exact Nat.lt_of_le_of_lt hle finite

theorem isFinite_ofNat {n : Nat} (h : n ≤ 2 ^ 64) : (ofNat n).isFinite = true := by
  have hlargest : nearest (2 ^ 64) 1 < infinite := by decide +kernel
  rw [isFinite, decide_eq_true_eq, ofNat, ofQuotient, magnitude_ofMagnitude _ (nearest_le _ _)]
  exact Nat.lt_of_le_of_lt (nearest_mono Nat.one_pos h) hlargest

theorem stepsPerOne_le_tenToThe (exponent : Nat) : stepsPerOne ≤ (tenToThe exponent).absSteps := by
  have hone := absSteps_ofNat_exact (show 1 < 2 ^ 53 by decide)
  rw [Nat.one_mul] at hone
  rw [← hone]
  exact absSteps_ofNat_mono (Nat.pow_pos (by decide))

end Double

namespace Json

open Double

theorem isFinite_scale {x y : Double} {exponent : Int} (finite : x.isFinite = true)
    (h : scale x exponent = some y) : y.isFinite = true := by
  fun_induction scale x exponent with
  | case1 x exponent small nonneg scaled fits =>
    rw [← Option.some.inj h]
    exact fits
  | case2 | case5 => cases h
  | case3 =>
    cases h
    exact isFinite_div finite (stepsPerOne_le_tenToThe _)
  | case4 =>
    cases h
    exact finite
  | case6 x exponent large nonzero negative ih =>
    exact ih (isFinite_div finite (stepsPerOne_le_tenToThe _)) h

theorem absorb_lt (digits : Digits) {start : Nat} (h : start < 2 ^ 64) :
    (absorb start digits).1 < 2 ^ 64 := by
  induction digits generalizing start with
  | nil => exact h
  | cons c rest ih =>
    simp only [absorb]
    split
    · exact ih ‹_›
    · exact h

theorem isFinite_toDouble_integer {n : Int} (h : n.natAbs ≤ 2 ^ 64) :
    (Number.integer n).toDouble.isFinite = true := by
  have finite := isFinite_ofNat h
  rw [Number.toDouble]
  split
  · exact isFinite_neg finite
  · exact finite

theorem Numeral.isFinite_value? {n : Numeral} {value : Number} (h : n.value? = some value) :
    value.toDouble.isFinite = true := by
  have hwhole := absorb_lt n.whole (show 0 < 2 ^ 64 by decide)
  simp only [value?] at h
  split at h
  · split at h
    · cases h
      exact isFinite_toDouble_integer (Nat.le_of_lt hwhole)
    · split at h
      · cases h
        exact isFinite_neg (isFinite_ofNat (Nat.le_of_lt hwhole))
      · cases h
        apply isFinite_toDouble_integer
        rw [Int.natAbs_neg]
        exact Nat.le_of_lt hwhole
  · obtain ⟨x, hscale, rfl⟩ := Option.map_eq_some_iff.1 h
    have finite := isFinite_scale (isFinite_ofNat (Nat.le_of_lt (absorb_lt _ hwhole))) hscale
    simp only [Number.toDouble]
    split
    · exact isFinite_neg finite
    · exact finite

theorem exists_of_bind_eq_ok {ε α β : Type} {first : Except ε α} {next : α → Except ε β} {b : β}
    (h : (first >>= next) = .ok b) : ∃ a, first = .ok a ∧ next a = .ok b := by
  cases first with
  | error e => cases h
  | ok a => exact ⟨a, rfl, h⟩

theorem exists_of_map_eq_ok {ε α β : Type} {first : Except ε α} {f : α → β} {b : β}
    (h : first.map f = .ok b) : ∃ a, first = .ok a ∧ f a = b := by
  cases first with
  | error e => cases h
  | ok a => exact ⟨a, rfl, Except.ok.inj h⟩

/-- Whatever a reader takes from a text has a property. -/
def Gives {α : Type} (read : Reader α) (property : α → Prop) : Prop :=
  ∀ input value rest, read input = .ok (value, rest) → property value

section Readers

variable {α σ : Type} {read : Reader α} {property : α → Prop}

theorem readNumber_gives (negative : Bool) :
    Gives (readNumber negative) fun value => value.toDouble.isFinite = true := by
  intro input value rest h
  rw [readNumber] at h
  split at h
  · cases h
  · cases h
  · split at h
    · cases h
      exact Numeral.isFinite_value? ‹_›
    · cases h

theorem readDouble_gives : Gives readDouble fun x => x.isFinite = true := by
  intro input x rest h
  obtain ⟨⟨number, rest⟩, hread, heq⟩ := exists_of_map_eq_ok h
  cases heq
  rw [readNumberAs] at hread
  split at hread
  · exact readNumber_gives true _ _ _ hread
  · split at hread
    · exact readNumber_gives false _ _ _ hread
    · cases hread
  · cases hread

theorem gives_anything (read : Reader α) : Gives read fun _ => True := fun _ _ _ _ => trivial

theorem Gives.required (gives : Gives read property) {name : String} {put : σ → α → σ} {record : σ}
    {kept : σ → Prop} (h : ∀ value, property value → kept (put record value)) :
    Gives ((Field.required name read put).read record) kept := by
  intro input next rest hread
  obtain ⟨⟨value, rest⟩, hvalue, heq⟩ := exists_of_map_eq_ok hread
  cases heq
  exact h value (gives _ _ _ hvalue)

variable {shape : Shape σ} {kept : σ → Prop} {fields : List (Field σ)} {record : σ}

/-- A record keeps what none of its members breaks. -/
theorem readMembers_gives
    (step : ∀ field ∈ shape.fields, ∀ record, kept record → Gives (field.read record) kept)
    (budget : Nat) (first : Bool) (seen : List String) (start : kept record) :
    Gives (shape.readMembers budget first seen record) kept := by
  induction budget generalizing first seen record with
  | zero => exact fun _ _ _ h => nomatch h
  | succ budget ih =>
    intro input value rest h
    rw [Shape.readMembers] at h
    obtain ⟨⟨name?, afterName⟩, -, h⟩ := exists_of_bind_eq_ok h
    cases name? with
    | none =>
      dsimp only at h
      split at h
      · cases h
      · cases h
        exact start
    | some name =>
      dsimp only at h
      cases hfield : shape.fields.find? (·.name == name) with
      | none =>
        -- What nobody asked for is passed over and leaves the record as it is.
        rw [hfield] at h
        obtain ⟨_, -, h⟩ := exists_of_bind_eq_ok h
        obtain ⟨_, -, h⟩ := exists_of_bind_eq_ok h
        exact ih _ _ start _ _ _ h
      | some field =>
        rw [hfield] at h
        dsimp only at h
        split at h
        · cases h
        · obtain ⟨_, -, h⟩ := exists_of_bind_eq_ok h
          obtain ⟨⟨next, _⟩, hread, h⟩ := exists_of_bind_eq_ok h
          have hnext := step field (List.mem_of_find?_eq_some hfield) record start _ _ _ hread
          exact ih _ _ hnext _ _ _ h

theorem readItems_gives
    (step : ∀ field ∈ fields, ∀ record, kept record → Gives (field.read record) kept)
    (first : Bool) (start : kept record) : Gives (shape.readItems fields first record) kept := by
  induction fields generalizing first record with
  | nil =>
    intro input value rest h
    rw [Shape.readItems, Shape.closeArray] at h
    split at h
    · cases h
    · cases h
      exact start
    · cases h
  | cons field fields ih =>
    intro input value rest h
    rw [Shape.readItems] at h
    obtain ⟨⟨goesOn, afterMark⟩, -, h⟩ := exists_of_bind_eq_ok h
    cases goesOn with
    | false =>
      dsimp only at h
      split at h
      · cases h
        exact start
      · cases h
    | true =>
      obtain ⟨⟨next, _⟩, hread, h⟩ := exists_of_bind_eq_ok h
      have hnext := step field List.mem_cons_self record start _ _ _ hread
      exact ih (fun other hother => step other (List.mem_cons_of_mem _ hother)) _ hnext _ _ _ h

theorem Shape.read_gives (start : kept shape.start)
    (step : ∀ field ∈ shape.fields, ∀ record, kept record → Gives (field.read record) kept) :
    Gives shape.read kept := by
  intro input value rest h
  rw [Shape.read] at h
  split at h
  · exact readMembers_gives step _ _ _ start _ _ _ h
  · exact readItems_gives step _ start _ _ _ h
  · cases h

theorem readListFrom_gives (item : Gives read property) (budget : Nat) (first : Bool)
    {done : List α} (hdone : ∀ a ∈ done, property a) :
    Gives (readListFrom read budget first done) fun values => ∀ a ∈ values, property a := by
  induction budget generalizing first done with
  | zero => exact fun _ _ _ h => nomatch h
  | succ budget ih =>
    intro input values rest h
    rw [readListFrom] at h
    obtain ⟨⟨goesOn, afterMark⟩, -, h⟩ := exists_of_bind_eq_ok h
    cases goesOn with
    | false =>
      cases h
      simpa using hdone
    | true =>
      obtain ⟨⟨a, _⟩, hread, h⟩ := exists_of_bind_eq_ok h
      exact ih _ (List.forall_mem_cons.2 ⟨item _ _ _ hread, hdone⟩) _ _ _ h

theorem readList_gives (item : Gives read property) :
    Gives (readList read) fun values => ∀ a ∈ values, property a := by
  intro input values rest h
  rw [readList] at h
  split at h
  · exact readListFrom_gives item _ _ (by simp) _ _ _ h
  · cases h

theorem readDocument_gives (gives : Gives read property) {text : String} {value : α}
    (h : readDocument read text = .ok value) : property value := by
  obtain ⟨⟨found, rest⟩, hread, h⟩ := exists_of_bind_eq_ok h
  dsimp only at h
  split at h
  · cases h
    exact gives _ _ _ hread
  · cases h

end Readers

end Json

end NodeAttestation
