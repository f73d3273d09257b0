import Mathlib.Data.List.Forall2
import NodeAttestation.Proofs.Wire.Messages

/-!
# Messages with fields that nobody has declared

A reader passes over fields whose numbers it does not know, whatever they hold, and takes the fields
that it knows in any order. So a message can be extended without those who read it being told.
-/

namespace NodeAttestation

namespace Wire

/-- What can follow the key of a field. Groups are left out. -/
inductive IsValue : Form → Bytes → Prop
  | varint {n : Nat} {bytes : Bytes} (spelled : IsVarint n bytes) : IsValue .varint bytes
  | sixtyFourBit {bytes : Bytes} (height : bytes.length = 8) : IsValue .sixtyFourBit bytes
  | lengthDelimited {length content : Bytes} (spelled : IsVarint content.length length) :
      IsValue .lengthDelimited (length ++ content)
  | thirtyTwoBit {bytes : Bytes} (four : bytes.length = 4) : IsValue .thirtyTwoBit bytes

/-- A field with its number not below a bound. The key may be spelled in any way. -/
inductive IsFieldFrom (least : Nat) : Bytes → Prop
  | mk {number : Nat} {form : Form} {key value : Bytes} (isNumber : IsFieldNumber number)
      (beyond : least ≤ number) (keyed : IsVarint (8 * number + form.code) key)
      (isValue : IsValue form value) : IsFieldFrom least (key ++ value)

/-- Fields in their order, with others before, between and after them whose numbers are not below a
bound. -/
inductive Extends (least : Nat) : List RawField → Bytes → Prop
  | nil : Extends least [] []
  | declared {field : RawField} {fields : List RawField} {bytes : Bytes}
      (later : Extends least fields bytes) : Extends least (field :: fields) (field.bytes ++ bytes)
  | undeclared {piece : Bytes} {fields : List RawField} {bytes : Bytes}
      (isField : IsFieldFrom least piece) (later : Extends least fields bytes) :
      Extends least fields (piece ++ bytes)

/-- A merge passes over the fields from a number on. -/
def PassesFrom {α : Type} (least : Nat) (merge : Nat → Merge α) : Prop :=
  ∀ depth number form value input, least ≤ number →
    merge depth number form value input = skipField depth number form value input

theorem IsValue.skip_eq {form : Form} {bytes : Bytes} (isValue : IsValue form bytes)
    (depth number : Nat) (rest : Bytes) :
    skip (depth + 1) number form (bytes ++ rest) = .ok rest := by
  rw [skip, skipWithin.eq_def]
  dsimp only
  rw [if_neg (Nat.succ_ne_zero depth)]
  cases isValue with
  | varint spelled =>
    dsimp only
    rw [spelled.readVarint_eq]
    rfl
  | sixtyFourBit height =>
    dsimp only
    rw [← height, takeBytes_append]
    rfl
  | @lengthDelimited length content spelled =>
    dsimp only
    rw [List.append_assoc, spelled.readVarint_eq]
    dsimp only [bind, Except.bind]
    rw [takeBytes_append]
    rfl
  | thirtyTwoBit four =>
    dsimp only
    rw [← four, takeBytes_append]
    rfl

section Passing

variable {α : Type} {least depth : Nat} {merge : Nat → Merge α} {value last : α} {bytes : Bytes}
  {fields : List RawField}

theorem extends_write (least : Nat) (fields : List RawField) :
    Extends least fields (RawField.write fields) := by
  induction fields with
  | nil => exact .nil
  | cons field fields ih =>
    rw [RawField.write_cons]
    exact .declared ih

theorem IsFieldFrom.takesField (isField : IsFieldFrom least bytes)
    (passes : PassesFrom least merge) (value : α) :
    TakesField (merge (depth + 1)) value bytes value := by
  cases isField with
  | @mk number form key content isNumber beyond keyed isValue =>
    intro _ rest
    refine ⟨number, form, content ++ rest, ?_, ?_⟩
    · rw [List.append_assoc]
      exact readKey_of_isVarint _ isNumber keyed
    · rw [passes _ _ _ _ _ beyond, skipField, isValue.skip_eq]
      rfl

theorem Reads.takes_of_extends (reads : Reads (merge (depth + 1)) value fields last)
    (passes : PassesFrom least merge) (extended : Extends least fields bytes) :
    Takes (merge (depth + 1)) value bytes last := by
  induction extended generalizing value with
  | nil =>
    cases reads
    exact .nil _
  | declared _ ih =>
    cases reads with
    | cons first later => exact .cons (.bytes first) (ih later)
  | undeclared isField _ ih => exact .cons (isField.takesField passes value) (ih reads)

end Passing

end Wire

open Wire

namespace Attestation

theorem passesFrom_merge : PassesFrom 7 merge := fun
  | _, _ + 7, _, _, _, _ => rfl

theorem takes_of_extends {a : Attestation} {fields : List RawField} {bytes : Bytes}
    (perm : fields.Perm a.fields) (extended : Extends 7 fields bytes) (depth : Nat) :
    Takes (merge (depth + 1)) .empty bytes a :=
  (reads_of_perm perm (depth + 1)).takes_of_extends passesFrom_merge extended

end Attestation

namespace PushedLimit

theorem passesFrom_mergeList : PassesFrom 2 mergeList := fun
  | _, _ + 2, _, _, _, _ => rfl

theorem reads_entries {entries : List PushedLimit} {contents : List Bytes}
    (written : List.Forall₂ Writes entries contents) (depth : Nat) (before : List PushedLimit) :
    Reads (mergeList (depth + 2)) before (contents.map (.delimited 1 ·))
      (before ++ entries.map received) := by
  induction written generalizing before with
  | nil =>
    rw [List.map_nil, List.map_nil, List.append_nil]
    exact .nil before
  | @cons l content entries contents first _ ih =>
    have later := ih (before ++ [l.received])
    rw [List.append_assoc, List.singleton_append] at later
    exact (reads_entry first depth before).append later

theorem exists_contents_of_writesList {entries : List PushedLimit} {bytes : Bytes}
    (h : WritesList entries bytes) :
    ∃ contents, List.Forall₂ Writes entries contents ∧
      RawField.write (contents.map (.delimited 1 ·)) = bytes := by
  induction h with
  | nil => exact ⟨[], .nil, rfl⟩
  | @cons l entries content bytes first _ ih =>
    obtain ⟨contents, written, rfl⟩ := ih
    refine ⟨content :: contents, .cons first written, ?_⟩
    rw [List.map_cons, RawField.write_cons, RawField.bytes_delimited]

end PushedLimit

namespace Response

/-- The bytes that a response may be written as by those who have declared more fields than its
readers. The entries of limits keep their order. -/
inductive Extended : Response → Bytes → Prop
  | empty {bytes : Bytes} (outer : Extends 3 [] bytes) : Extended empty bytes
  | attestation {a : Attestation} {fields : List RawField} {content bytes : Bytes}
      (perm : fields.Perm a.fields) (inner : Extends 7 fields content)
      (outer : Extends 3 [.delimited 1 content] bytes) : Extended (attestation a) bytes
  | limits {entries : List PushedLimit} {contents : List Bytes} {content bytes : Bytes}
      (written : List.Forall₂ PushedLimit.Writes entries contents)
      (inner : Extends 2 (contents.map (.delimited 1 ·)) content)
      (outer : Extends 3 [.delimited 2 content] bytes) : Extended (limits entries) bytes

theorem passesFrom_merge : PassesFrom 3 merge := fun
  | _, _ + 3, _, _, _, _ => rfl

theorem reads_attestation {a : Attestation} {content : Bytes} {depth : Nat}
    (takes : Takes (Attestation.merge depth) .empty content a) :
    Reads (merge (depth + 1)) .empty [.delimited 1 content] (attestation a) :=
  .delimited fun short rest =>
    (merge_attestation ..).trans (place_of_ok (takes.mergeMessage_eq short rest))

theorem reads_limits {entries : List PushedLimit} {content : Bytes} {depth : Nat}
    (takes : Takes (PushedLimit.mergeList depth) [] content entries) :
    Reads (merge (depth + 1)) .empty [.delimited 2 content] (limits entries) :=
  .delimited fun short rest =>
    (merge_limits ..).trans (place_of_ok (takes.mergeMessage_eq short rest))

theorem Extended.takes {r : Response} {bytes : Bytes} (extended : r.Extended bytes) (depth : Nat) :
    Takes (merge (depth + 3)) .empty bytes r.received := by
  cases extended with
  | empty outer => exact (Reads.nil Response.empty).takes_of_extends passesFrom_merge outer
  | attestation perm inner outer =>
    have taken := Attestation.takes_of_extends perm inner (depth + 1)
    exact (reads_attestation taken).takes_of_extends passesFrom_merge outer
  | limits written inner outer =>
    have taken := (PushedLimit.reads_entries written depth []).takes_of_extends
      PushedLimit.passesFrom_mergeList inner
    exact (reads_limits taken).takes_of_extends passesFrom_merge outer

theorem extended_of_writes {r : Response} {bytes : Bytes} (h : r.Writes bytes) :
    r.Extended bytes := by
  cases h with
  | empty => exact .empty .nil
  | attestation a =>
    have inner := extends_write 7 a.fields
    have outer := extends_write 3 [.delimited 1 a.encode]
    rw [Attestation.write_fields] at inner
    rw [RawField.write_singleton, RawField.bytes_delimited] at outer
    exact .attestation (.refl _) inner outer
  | @limits entries content written =>
    obtain ⟨contents, each, rfl⟩ := PushedLimit.exists_contents_of_writesList written
    have outer := extends_write 3
      [.delimited 2 (RawField.write (contents.map (.delimited 1 ·)))]
    rw [RawField.write_singleton, RawField.bytes_delimited] at outer
    exact .limits each (extends_write 2 _) outer

/-- An attestation is read from its fields in any order, and so is a response that holds them, with
any undeclared fields before, between and after the fields of either. -/
theorem decode_of_extended :
    (∀ a : Attestation, RawField.write a.fields = a.encode ∧
        ∀ fields bytes, fields.Perm a.fields → Extends 7 fields bytes → bytes.length < 2 ^ 64 →
          Attestation.decode bytes = .ok a) ∧
      ∀ (r : Response) (bytes : Bytes),
        (r.Writes bytes → r.Extended bytes) ∧
          (r.Extended bytes → bytes.length < 2 ^ 64 → decode bytes = .ok r.received) :=
  ⟨fun a => ⟨a.write_fields, fun _ _ perm extended short =>
      (Attestation.takes_of_extends perm extended 99).decode_eq short⟩,
    fun _ _ => ⟨extended_of_writes, fun extended short => (extended.takes 97).decode_eq short⟩⟩

section Newcomers

/-- Field nine holds a one; both are spelled with a group more than they take. -/
def newcomer : Bytes := [0xC8, 0x00, 0x81, 0x00]

theorem isFieldFrom_newcomer {least : Nat} (h : least ≤ 9) : IsFieldFrom least newcomer := by
  have keyed : IsVarint 72 [0xC8, 0x00] :=
    ⟨.more (b := 0xC8) (by decide) (.last (b := 0x00) (by decide)), by decide, by decide⟩
  have value : IsVarint 1 [0x81, 0x00] :=
    ⟨.more (b := 0x81) (by decide) (.last (b := 0x00) (by decide)), by decide, by decide⟩
  exact @IsFieldFrom.mk least 9 .varint [0xC8, 0x00] _ (by decide) h keyed (.varint value)

def plainAttestation : Attestation := ⟨"n", [], "1.0", "release", none, none⟩

/-- A newcomer follows each field. -/
def interspersed (fields : List RawField) : Bytes :=
  fields.foldr (fun field bytes => field.bytes ++ (newcomer ++ bytes)) []

theorem extends_interspersed {least : Nat} (h : least ≤ 9) (fields : List RawField) :
    Extends least fields (interspersed fields) := by
  induction fields with
  | nil => exact .nil
  | cons field fields ih => exact .declared (.undeclared (isFieldFrom_newcomer h) ih)

def extendedAttestation : Bytes := interspersed plainAttestation.fields.reverse

theorem isFieldNumber_one : IsFieldNumber 1 := by decide

def extendedResponse : Bytes :=
  newcomer ++ interspersed [RawField.delimited 1 extendedAttestation isFieldNumber_one]

/-- The fields of an attestation stand in reverse. -/
theorem decode_of_extended_of_newcomers :
    plainAttestation.fields.reverse.Perm plainAttestation.fields ∧
      Extends 7 plainAttestation.fields.reverse extendedAttestation ∧
      extendedAttestation.length < 2 ^ 64 ∧
      Attestation.decode extendedAttestation = .ok plainAttestation ∧
      (attestation plainAttestation).Extended extendedResponse ∧
      extendedResponse.length < 2 ^ 64 ∧
      decode extendedResponse = .ok (attestation plainAttestation) := by
  have perm := List.reverse_perm plainAttestation.fields
  have inner : Extends 7 plainAttestation.fields.reverse extendedAttestation :=
    extends_interspersed (by decide) _
  have outer : (attestation plainAttestation).Extended extendedResponse :=
    .attestation perm inner
      (.undeclared (isFieldFrom_newcomer (by decide)) (extends_interspersed (by decide) _))
  have short : extendedAttestation.length < 2 ^ 64 := by decide
  have shortToo : extendedResponse.length < 2 ^ 64 := by decide
  exact ⟨perm, inner, short, (decode_of_extended.1 _).2 _ _ perm inner short, outer, shortToo,
    (decode_of_extended.2 _ _).2 outer shortToo⟩

end Newcomers

end Response

end NodeAttestation
