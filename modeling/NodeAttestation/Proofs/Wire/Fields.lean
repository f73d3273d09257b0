import NodeAttestation.Proofs.Wire.Reading
import NodeAttestation.Wire.Decode

/-!
# Messages as lists of fields

A message is written field by field, and each field is read in the same way whatever follows it. So
what a list of fields is read as can be told one field at a time.
-/

namespace NodeAttestation

/-- What is left of a double that has been written: the sign of zero is lost. -/
def Double.received (x : Double) : Double := if x.magnitude = 0 then .zero else x

namespace Wire

structure RawField where
  number : Nat
  isNumber : IsFieldNumber number
  form : Form
  body : Bytes

namespace RawField

def bytes (field : RawField) : Bytes := key field.number field.form ++ field.body

def write (fields : List RawField) : Bytes := fields.flatMap bytes

def delimited (number : Nat) (content : Bytes) (h : IsFieldNumber number := by decide) : RawField :=
  ⟨number, h, .lengthDelimited, varint content.length ++ content⟩

/-- A field that is left out if it holds a default. -/
def unlessDefault (isDefault : Bool) (field : RawField) : List RawField :=
  if isDefault then [] else [field]

def ofText (number : Nat) (text : String) (h : IsFieldNumber number := by decide) : List RawField :=
  unlessDefault text.isEmpty (delimited number (Bytes.ofText text) h)

def ofOptionalText (number : Nat) (text? : Option String)
    (h : IsFieldNumber number := by decide) : List RawField :=
  match text? with
  | none => []
  | some text => [delimited number (Bytes.ofText text) h]

def ofBytes (number : Nat) (content : Bytes) (h : IsFieldNumber number := by decide) :
    List RawField :=
  unlessDefault content.isEmpty (delimited number content h)

def ofNumber (number n : Nat) (h : IsFieldNumber number := by decide) : List RawField :=
  unlessDefault (n == 0) ⟨number, h, .varint, varint n⟩

def ofDouble (number : Nat) (x : Double) (h : IsFieldNumber number := by decide) : List RawField :=
  unlessDefault (x.magnitude == 0)
    ⟨number, h, .sixtyFourBit, Bytes.littleEndian 8 x.bits.toNat⟩

theorem write_cons (field : RawField) (fields : List RawField) :
    write (field :: fields) = field.bytes ++ write fields := List.flatMap_cons ..

theorem write_append (fields more : List RawField) :
    write (fields ++ more) = write fields ++ write more := List.flatMap_append ..

theorem write_singleton (field : RawField) : write [field] = field.bytes :=
  List.flatMap_singleton ..

theorem bytes_delimited (number : Nat) (content : Bytes) (h : IsFieldNumber number) :
    (delimited number content h).bytes = Wire.delimited number content :=
  (List.append_assoc ..).symm

theorem write_unlessDefault (isDefault : Bool) (field : RawField) :
    write (unlessDefault isDefault field) = if isDefault then [] else field.bytes := by
  cases isDefault with
  | true => rfl
  | false => exact write_singleton field

theorem write_ofText (number : Nat) (text : String) (h : IsFieldNumber number) :
    write (ofText number text h) = textField number text := by
  rw [ofText, write_unlessDefault, bytes_delimited, textField]

theorem write_ofOptionalText (number : Nat) (text? : Option String) (h : IsFieldNumber number) :
    write (ofOptionalText number text? h) = optionalText number text? := by
  cases text? with
  | none => rfl
  | some text => exact (write_singleton _).trans (bytes_delimited ..)

theorem write_ofBytes (number : Nat) (content : Bytes) (h : IsFieldNumber number) :
    write (ofBytes number content h) = bytesField number content := by
  rw [ofBytes, write_unlessDefault, bytes_delimited, bytesField]

theorem write_ofNumber (number n : Nat) (h : IsFieldNumber number) :
    write (ofNumber number n h) = numberField number n := by
  rw [ofNumber, write_unlessDefault, numberField]
  simp only [beq_iff_eq]
  rfl

theorem write_ofDouble (number : Nat) (x : Double) (h : IsFieldNumber number) :
    write (ofDouble number x h) = doubleField number x := by
  rw [ofDouble, write_unlessDefault, doubleField]
  simp only [beq_iff_eq]
  rfl

section Members

variable {number : Nat} {isNumber : IsFieldNumber number} {numbers : List Nat} {field : RawField}

theorem mem_unlessDefault {isDefault : Bool} {other : RawField} :
    field ∈ unlessDefault isDefault other ↔ isDefault = false ∧ field = other := by
  cases isDefault <;> simp [unlessDefault]

theorem eq_of_mem_ofText {text : String} (mem : field ∈ ofText number text isNumber) :
    field = delimited number (Bytes.ofText text) isNumber :=
  (mem_unlessDefault.1 mem).2

theorem eq_of_mem_ofBytes {content : Bytes} (mem : field ∈ ofBytes number content isNumber) :
    field = delimited number content isNumber :=
  (mem_unlessDefault.1 mem).2

theorem exists_of_mem_ofOptionalText {text? : Option String}
    (mem : field ∈ ofOptionalText number text? isNumber) :
    ∃ text, text? = some text ∧ field = delimited number (Bytes.ofText text) isNumber := by
  cases text? with
  | none => cases mem
  | some text => exact ⟨text, rfl, List.mem_singleton.1 mem⟩

/-- What is left out is the default. -/
theorem ite_text {text : String}
    (h : ∀ field ∈ ofText number text isNumber, field.number ∈ numbers) :
    (if number ∈ numbers then text else "") = text := by
  cases empty : text.isEmpty with
  | true => rw [String.isEmpty_iff.1 empty, ite_self]
  | false => exact if_pos (h _ (mem_unlessDefault.2 ⟨empty, rfl⟩))

theorem ite_bytes {content : Bytes}
    (h : ∀ field ∈ ofBytes number content isNumber, field.number ∈ numbers) :
    (if number ∈ numbers then content else []) = content := by
  cases empty : content.isEmpty with
  | true => rw [List.isEmpty_iff.1 empty, ite_self]
  | false => exact if_pos (h _ (mem_unlessDefault.2 ⟨empty, rfl⟩))

theorem ite_optionalText {text? : Option String}
    (h : ∀ field ∈ ofOptionalText number text? isNumber, field.number ∈ numbers) :
    (if number ∈ numbers then text? else none) = text? := by
  cases text? with
  | none => exact ite_self _
  | some text => exact if_pos (h _ (List.mem_singleton_self _))

end Members

theorem length_body_le (field : RawField) : field.body.length ≤ field.bytes.length := by
  rw [bytes, List.length_append]
  exact Nat.le_add_left ..

theorem length_content_le (number : Nat) (content : Bytes) (h : IsFieldNumber number) :
    content.length ≤ (delimited number content h).bytes.length := by
  refine Nat.le_trans ?_ (length_body_le _)
  rw [delimited, List.length_append]
  exact Nat.le_add_left ..

end RawField

open RawField

/-- A merge takes in a piece of the input that is short enough as one field, and nothing of what
follows it. -/
def TakesField {α : Type} (merge : Merge α) (value : α) (piece : Bytes) (next : α) : Prop :=
  piece.length < 2 ^ 64 → ∀ rest, ∃ field form body,
    readKey (piece ++ rest) = .ok ((field, form), body) ∧
      merge field form value body = .ok (next, rest)

/-- A merge takes in bytes as fields that follow one another. -/
inductive Takes {α : Type} (merge : Merge α) : α → Bytes → α → Prop
  | nil (value : α) : Takes merge value [] value
  | cons {value next last : α} {piece bytes : Bytes} (first : TakesField merge value piece next)
      (later : Takes merge next bytes last) : Takes merge value (piece ++ bytes) last

section Takes

variable {α : Type} {merge : Merge α} {value next last : α} {piece bytes : Bytes}

theorem TakesField.length_pos (takes : TakesField merge value piece next) : 0 < piece.length := by
  rw [List.length_pos_iff]
  rintro rfl
  obtain ⟨field, form, body, keyed, -⟩ := takes (by decide) []
  cases keyed

theorem TakesField.takes (takes : TakesField merge value piece next) :
    Takes merge value piece next := by
  have single := Takes.cons takes (.nil next)
  rwa [List.append_nil] at single

theorem Takes.mergeWithin_eq (takes : Takes merge value bytes last)
    (short : bytes.length < 2 ^ 64) {budget : Nat} (enough : bytes.length ≤ budget)
    (rest : Bytes) :
    mergeWithin merge budget rest.length value (bytes ++ rest) = .ok (last, rest) := by
  induction takes generalizing budget with
  | nil value =>
    cases budget with
    | zero => rfl
    | succ budget => exact if_pos (Nat.le_refl _)
  | @cons value next last piece bytes first _ ih =>
    -- A field takes one unit of the budget and at least one byte, so the budget lasts.
    have hpiece := first.length_pos
    rw [List.length_append] at short enough
    obtain ⟨budget, rfl⟩ := Nat.exists_eq_add_one_of_ne_zero (show budget ≠ 0 by omega)
    obtain ⟨field, form, body, keyed, merged⟩ := first (by omega) (bytes ++ rest)
    have hlong : ¬(piece ++ bytes ++ rest).length ≤ rest.length := by
      rw [List.length_append, List.length_append]
      omega
    rw [mergeWithin, if_neg hlong, List.append_assoc, keyed]
    dsimp only [unplaced, bind, Except.bind]
    rw [merged]
    exact ih (by omega) (by omega)

theorem Takes.decode_eq {merge : Nat → Merge α} (takes : Takes (merge maxDepth) value bytes last)
    (short : bytes.length < 2 ^ 64) : decode merge value bytes = .ok last := by
  have hread := takes.mergeWithin_eq short (Nat.le_refl _) []
  rw [List.append_nil] at hread
  rw [decode]
  exact congrArg (Except.map (·.1)) hread

theorem Takes.mergeDelimited_eq (takes : Takes merge value bytes last)
    (short : bytes.length < 2 ^ 64) (rest : Bytes) :
    mergeDelimited merge value (varint bytes.length ++ bytes ++ rest) = .ok (last, rest) := by
  have hlength : (bytes ++ rest).length - bytes.length = rest.length := by
    rw [List.length_append, Nat.add_sub_cancel_left]
  have henough : bytes.length ≤ (bytes ++ rest).length := by
    rw [List.length_append]
    exact Nat.le_add_right ..
  have hread := takes.mergeWithin_eq short henough rest
  rw [mergeDelimited, List.append_assoc, readVarint_varint _ short]
  dsimp only [unplaced, bind, Except.bind]
  rw [if_neg (Nat.not_lt.2 henough), hlength, hread]
  exact if_pos rfl

/-- A message within a message uses up one level of depth. -/
theorem Takes.mergeMessage_eq {merge : Nat → Merge α} {depth : Nat}
    (takes : Takes (merge depth) value bytes last) (short : bytes.length < 2 ^ 64)
    (rest : Bytes) :
    mergeMessage merge (depth + 1) .lengthDelimited value
        (varint bytes.length ++ bytes ++ rest) =
      .ok (last, rest) := takes.mergeDelimited_eq short rest

end Takes

/-- A merge takes in fields that are short enough one after the other, and nothing of what follows
them. -/
inductive Reads {α : Type} (merge : Merge α) : α → List RawField → α → Prop
  | nil (value : α) : Reads merge value [] value
  | cons {value next last : α} {field : RawField} {fields : List RawField}
      (first : field.bytes.length < 2 ^ 64 → ∀ rest,
        merge field.number field.form value (field.body ++ rest) = .ok (next, rest))
      (later : Reads merge next fields last) : Reads merge value (field :: fields) last

section Reads

variable {α : Type} {merge : Merge α} {value next last : α} {field : RawField}
  {fields more : List RawField}

theorem Reads.single (first : field.bytes.length < 2 ^ 64 → ∀ rest,
    merge field.number field.form value (field.body ++ rest) = .ok (next, rest)) :
    Reads merge value [field] next :=
  .cons first (.nil next)

theorem Reads.append (first : Reads merge value fields next) (later : Reads merge next more last) :
    Reads merge value (fields ++ more) last := by
  induction first with
  | nil => exact later
  | cons first _ ih => exact .cons first (ih later)

theorem TakesField.bytes (taken : field.bytes.length < 2 ^ 64 → ∀ rest,
    merge field.number field.form value (field.body ++ rest) = .ok (next, rest)) :
    TakesField merge value field.bytes next := by
  intro short rest
  refine ⟨field.number, field.form, field.body ++ rest, ?_, taken short rest⟩
  rw [RawField.bytes, List.append_assoc]
  exact readKey_key _ _ field.isNumber

theorem Reads.takes (reads : Reads merge value fields last) :
    Takes merge value (write fields) last := by
  induction reads with
  | nil value => exact .nil value
  | cons first _ ih =>
    rw [write_cons]
    exact .cons (.bytes first) ih

theorem Reads.decode_eq {merge : Nat → Merge α} (reads : Reads (merge maxDepth) value fields last)
    (short : (write fields).length < 2 ^ 64) :
    decode merge value (write fields) = .ok last := reads.takes.decode_eq short

theorem Reads.mergeMessage_eq {merge : Nat → Merge α} {depth : Nat}
    (reads : Reads (merge depth) value fields last) (short : (write fields).length < 2 ^ 64)
    (rest : Bytes) :
    mergeMessage merge (depth + 1) .lengthDelimited value
        (varint (write fields).length ++ write fields ++ rest) =
      .ok (last, rest) := reads.takes.mergeMessage_eq short rest

theorem place_of_ok {β : Type} {message name : String} {read : Except Fault (Taken β)} {x : β}
    {rest : Bytes} {put : β → α} (h : read = .ok (x, rest)) :
    place message name read put = .ok (put x, rest) := by
  rw [h]
  rfl

theorem placeScalar_of_ok {β : Type} {message name : String} {read : Except Reason (Taken β)}
    {x : β} {rest : Bytes} {put : β → α} (h : read = .ok (x, rest)) :
    placeScalar message name read put = .ok (put x, rest) := by
  rw [h]
  rfl

theorem map_unplaced_of_ok {β γ : Type} {read : Except Reason β} {x : β} (f : β → γ)
    (h : read = .ok x) : (unplaced read).map f = .ok (f x) := by
  rw [h]
  rfl

end Reads

section Scalars

variable {α : Type} {merge : Merge α} {value : α} {number : Nat} {isNumber : IsFieldNumber number}

/-- What is left out is read as the default that stood there before. -/
theorem Reads.unlessDefault {last : α} {field : RawField} {isDefault : Bool}
    (default : isDefault = true → last = value)
    (reads : isDefault = false → Reads merge value [field] last) :
    Reads merge value (RawField.unlessDefault isDefault field) last := by
  cases isDefault with
  | true =>
    rw [default rfl]
    exact .nil value
  | false => exact reads rfl

theorem Reads.delimited {next : α} {content : Bytes}
    (taken : content.length < 2 ^ 64 → ∀ rest,
      merge number .lengthDelimited value (varint content.length ++ content ++ rest) =
        .ok (next, rest)) :
    Reads merge value [.delimited number content isNumber] next :=
  .single fun short => taken (Nat.lt_of_le_of_lt (length_content_le ..) short)

theorem Reads.text (put : String → α)
    (taken : ∀ {text input rest}, readText .lengthDelimited input = .ok (text, rest) →
      merge number .lengthDelimited value input = .ok (put text, rest))
    (default : put "" = value) (text : String) :
    Reads merge value (ofText number text isNumber) (put text) := by
  refine .unlessDefault (fun hempty => ?_) fun _ => .delimited fun short rest => ?_
  · rw [String.isEmpty_iff.1 hempty]
    exact default
  · exact taken (readText_append rest short)

theorem Reads.optionalText (put : Option String → α)
    (taken : ∀ {text input rest}, readText .lengthDelimited input = .ok (text, rest) →
      merge number .lengthDelimited value input = .ok (put (some text), rest))
    (default : put none = value) (text? : Option String) :
    Reads merge value (ofOptionalText number text? isNumber) (put text?) := by
  cases text? with
  | none =>
    rw [default]
    exact .nil value
  | some text => exact .delimited fun short rest => taken (readText_append rest short)

theorem Reads.bytes (put : Bytes → α)
    (taken : ∀ {content input rest}, readBytes .lengthDelimited input = .ok (content, rest) →
      merge number .lengthDelimited value input = .ok (put content, rest))
    (default : put [] = value) (content : Bytes) :
    Reads merge value (ofBytes number content isNumber) (put content) := by
  refine .unlessDefault (fun hempty => ?_) fun _ => .delimited fun short rest => ?_
  · rw [List.isEmpty_iff.1 hempty]
    exact default
  · exact taken (readBytes_append rest short)

theorem Reads.uint32 (put : UInt32 → α)
    (taken : ∀ {n input rest}, readUInt32 .varint input = .ok (n, rest) →
      merge number .varint value input = .ok (put n, rest))
    (default : put 0 = value) (n : UInt32) :
    Reads merge value (ofNumber number n.toNat isNumber) (put n) := by
  refine .unlessDefault (fun hzero => ?_) fun _ => .single fun _ rest => ?_
  · have hn : n = 0 := UInt32.toNat_inj.1 (beq_iff_eq.1 hzero)
    rw [hn]
    exact default
  · exact taken (readUInt32_append rest n)

theorem Reads.bool (put : Bool → α)
    (taken : ∀ {b input rest}, readBool .varint input = .ok (b, rest) →
      merge number .varint value input = .ok (put b, rest))
    (default : put false = value) (b : Bool) :
    Reads merge value (ofNumber number b.toNat isNumber) (put b) := by
  refine .unlessDefault (fun hzero => ?_) fun _ => .single fun _ rest => ?_
  · cases b with
    | true => cases hzero
    | false => exact default
  · exact taken (readBool_append rest b)

theorem Reads.double (put : Double → α)
    (taken : ∀ {x input rest}, readDouble .sixtyFourBit input = .ok (x, rest) →
      merge number .sixtyFourBit value input = .ok (put x, rest))
    (default : put .zero = value) (x : Double) :
    Reads merge value (ofDouble number x isNumber) (put x.received) := by
  refine .unlessDefault (fun hzero => ?_) fun hother => .single fun _ rest => ?_
  · rw [Double.received, if_pos (beq_iff_eq.1 hzero)]
    exact default
  · rw [Double.received, if_neg (beq_eq_false_iff_ne.1 hother)]
    exact taken (readDouble_append rest x)

end Scalars

end Wire

end NodeAttestation
