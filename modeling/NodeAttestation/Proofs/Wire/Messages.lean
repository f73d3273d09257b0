import NodeAttestation.Proofs.Keys
import NodeAttestation.Proofs.Wire.Fields
import NodeAttestation.Wire.Encode

/-!
# What a message that has been written is read as

It is the message itself, but for the sign of a zero that it holds. Only the order of the tags of a
limit is left open when it is written.
-/

namespace NodeAttestation

open Wire

namespace Attestation

def fields (a : Attestation) : List RawField :=
  RawField.ofText 1 a.node ++ RawField.ofBytes 2 a.bundle ++ RawField.ofText 3 a.osVersion ++
    RawField.ofText 4 a.releaseType ++ RawField.ofOptionalText 5 a.unvalidatedCell ++
    RawField.ofOptionalText 6 a.ensemble

theorem write_fields (a : Attestation) : RawField.write a.fields = a.encode := by
  simp only [fields, RawField.write_append, RawField.write_ofText, RawField.write_ofBytes,
    RawField.write_ofOptionalText]
  rfl

/-- The attestation as far as some of its fields have been read. -/
def part (a : Attestation) (numbers : List Nat) : Attestation where
  node := if 1 ∈ numbers then a.node else ""
  bundle := if 2 ∈ numbers then a.bundle else []
  osVersion := if 3 ∈ numbers then a.osVersion else ""
  releaseType := if 4 ∈ numbers then a.releaseType else ""
  unvalidatedCell := if 5 ∈ numbers then a.unvalidatedCell else none
  ensemble := if 6 ∈ numbers then a.ensemble else none

theorem part_nil (a : Attestation) : a.part [] = .empty := rfl

theorem part_eq_self {a : Attestation} {numbers : List Nat}
    (all : ∀ field ∈ a.fields, field.number ∈ numbers) : a.part numbers = a := by
  simp only [fields, List.mem_append, or_imp, forall_and] at all
  obtain ⟨⟨⟨⟨⟨node, bundle⟩, version⟩, release⟩, cell⟩, ensemble⟩ := all
  simp only [part, RawField.ite_text node, RawField.ite_bytes bundle, RawField.ite_text version,
    RawField.ite_text release, RawField.ite_optionalText cell, RawField.ite_optionalText ensemble]

theorem reads_field {a : Attestation} {field : RawField} (mem : field ∈ a.fields) (depth : Nat)
    (numbers : List Nat) :
    Reads (merge depth) (a.part numbers) [field] (a.part (field.number :: numbers)) := by
  simp only [fields, List.mem_append] at mem
  rcases mem with ((((node | bundle) | version) | release) | cell) | ensemble
  · obtain rfl := RawField.eq_of_mem_ofText node
    refine .delimited fun short rest => (placeScalar_of_ok (readText_append rest short)).trans ?_
    simp [part, RawField.delimited]
  · obtain rfl := RawField.eq_of_mem_ofBytes bundle
    refine .delimited fun short rest => (placeScalar_of_ok (readBytes_append rest short)).trans ?_
    simp [part, RawField.delimited]
  · obtain rfl := RawField.eq_of_mem_ofText version
    refine .delimited fun short rest => (placeScalar_of_ok (readText_append rest short)).trans ?_
    simp [part, RawField.delimited]
  · obtain rfl := RawField.eq_of_mem_ofText release
    refine .delimited fun short rest => (placeScalar_of_ok (readText_append rest short)).trans ?_
    simp [part, RawField.delimited]
  · obtain ⟨text, present, rfl⟩ := RawField.exists_of_mem_ofOptionalText cell
    refine .delimited fun short rest => (placeScalar_of_ok (readText_append rest short)).trans ?_
    simp [part, RawField.delimited, present]
  · obtain ⟨text, present, rfl⟩ := RawField.exists_of_mem_ofOptionalText ensemble
    refine .delimited fun short rest => (placeScalar_of_ok (readText_append rest short)).trans ?_
    simp [part, RawField.delimited, present]

theorem reads_declared {a : Attestation} {fields : List RawField}
    (declared : ∀ field ∈ fields, field ∈ a.fields) (depth : Nat) (numbers : List Nat) :
    Reads (merge depth) (a.part numbers) fields
      (a.part ((fields.map (·.number)).reverse ++ numbers)) := by
  induction fields generalizing numbers with
  | nil => exact .nil _
  | cons field fields ih =>
    have first := reads_field (declared field List.mem_cons_self) depth numbers
    have later := ih (fun f mem => declared f (List.mem_cons_of_mem field mem))
      (field.number :: numbers)
    rw [List.map_cons, List.reverse_cons, List.append_assoc]
    exact first.append later

/-- The fields of an attestation are read in any order. -/
theorem reads_of_perm {a : Attestation} {fields : List RawField} (perm : fields.Perm a.fields)
    (depth : Nat) : Reads (merge depth) .empty fields a := by
  have reads := reads_declared (fun field mem => perm.subset mem) depth []
  rw [part_nil, List.append_nil, part_eq_self] at reads
  · exact reads
  · intro field mem
    exact List.mem_reverse.2 (List.mem_map_of_mem (perm.symm.subset mem))

theorem reads_fields (a : Attestation) (depth : Nat) : Reads (merge depth) .empty a.fields a :=
  reads_of_perm (.refl _) depth

theorem decode_encode {a : Attestation} (short : a.encode.length < 2 ^ 64) :
    decode a.encode = .ok a := by
  rw [← write_fields] at short ⊢
  exact (a.reads_fields maxDepth).decode_eq short

end Attestation

namespace PushedLimit

def tagFields (tag : String × String) : List RawField :=
  RawField.ofText 1 tag.1 ++ RawField.ofText 2 tag.2

def tagField (tag : String × String) : RawField := .delimited 4 (RawField.write (tagFields tag))

def fieldsWith (tags : List (String × String)) (l : PushedLimit) : List RawField :=
  RawField.ofOptionalText 1 l.bundle ++ RawField.ofOptionalText 2 l.feature ++
    RawField.ofOptionalText 3 l.workloadType ++ tags.map tagField ++
    RawField.ofNumber 5 l.requestCount.toNat ++ RawField.ofDouble 6 l.windowSeconds ++
    RawField.ofDouble 7 l.lifetimeSeconds ++ RawField.ofDouble 8 l.jitter

/-- What is left of a limit that has been written. -/
def received (l : PushedLimit) : PushedLimit :=
  { l with
    windowSeconds := l.windowSeconds.received
    lifetimeSeconds := l.lifetimeSeconds.received
    jitter := l.jitter.received }

theorem bytes_tagField (tag : String × String) : (tagField tag).bytes = encodeTag tag := by
  rw [tagField, RawField.bytes_delimited, tagFields, RawField.write_append, RawField.write_ofText,
    RawField.write_ofText, encodeTag]

theorem write_fieldsWith (tags : List (String × String)) (l : PushedLimit) :
    RawField.write (l.fieldsWith tags) = l.encodeWith tags := by
  have htags : RawField.write (tags.map tagField) = tags.flatMap encodeTag := by
    rw [RawField.write, List.flatMap_map]
    exact congrArg (tags.flatMap ·) (funext bytes_tagField)
  simp only [fieldsWith, RawField.write_append, RawField.write_ofOptionalText,
    RawField.write_ofNumber, RawField.write_ofDouble, htags]
  rfl

theorem reads_tagFields (tag : String × String) (depth : Nat) :
    Reads (mergeTag depth) ("", "") (tagFields tag) tag := by
  have name : Reads (mergeTag depth) ("", "") (RawField.ofText 1 tag.1) (tag.1, "") :=
    .text (·, "") (map_unplaced_of_ok _) rfl tag.1
  have value : Reads (mergeTag depth) (tag.1, "") (RawField.ofText 2 tag.2) tag :=
    .text (tag.1, ·) (map_unplaced_of_ok _) rfl tag.2
  exact name.append value

theorem merge_tag (depth : Nat) (form : Form) (l : PushedLimit) (input : Bytes) :
    merge depth 4 form l input =
      place "RateLimitConfiguration" "workload_tags" (readTag depth input) fun tag =>
        { l with workloadTags := l.workloadTags.insert tag.1 tag.2 } := rfl

theorem reads_tags (tags : List (String × String)) (l : PushedLimit) (depth : Nat) :
    Reads (merge (depth + 1)) l (tags.map tagField)
      { l with workloadTags :=
          tags.foldl (fun m tag => m.insert tag.1 tag.2) l.workloadTags } := by
  induction tags generalizing l with
  | nil => exact .nil l
  | cons tag tags ih =>
    have first : Reads (merge (depth + 1)) l [tagField tag]
        { l with workloadTags := l.workloadTags.insert tag.1 tag.2 } := by
      refine .delimited fun short rest => ?_
      have hread := (reads_tagFields tag depth).takes.mergeDelimited_eq short rest
      exact (merge_tag ..).trans (place_of_ok hread)
    exact first.append (ih _)

theorem reads_fieldsWith (l : PushedLimit) {tags : List (String × String)}
    (h : tags.Perm l.workloadTags.entries) (depth : Nat) :
    Reads (merge (depth + 1)) .empty (l.fieldsWith tags) l.received := by
  have bundle : Reads (merge (depth + 1)) .empty (RawField.ofOptionalText 1 l.bundle)
      ⟨l.bundle, none, none, .empty, 0, .zero, .zero, .zero⟩ :=
    .optionalText (PushedLimit.mk · none none .empty 0 .zero .zero .zero) placeScalar_of_ok rfl
      l.bundle
  have feature : Reads (merge (depth + 1)) _ (RawField.ofOptionalText 2 l.feature)
      ⟨l.bundle, l.feature, none, .empty, 0, .zero, .zero, .zero⟩ :=
    .optionalText (PushedLimit.mk l.bundle · none .empty 0 .zero .zero .zero) placeScalar_of_ok rfl
      l.feature
  have type : Reads (merge (depth + 1)) _ (RawField.ofOptionalText 3 l.workloadType)
      ⟨l.bundle, l.feature, l.workloadType, .empty, 0, .zero, .zero, .zero⟩ :=
    .optionalText (PushedLimit.mk l.bundle l.feature · .empty 0 .zero .zero .zero)
      placeScalar_of_ok rfl l.workloadType
  have tagged := reads_tags tags
    ⟨l.bundle, l.feature, l.workloadType, .empty, 0, .zero, .zero, .zero⟩ depth
  -- Whatever the order of the tags, the map that they make is the one they were taken from.
  have htags : tags.foldl (fun m tag => m.insert tag.1 tag.2) .empty = l.workloadTags :=
    SortedMap.ofList_of_perm h
  rw [htags] at tagged
  have count : Reads (merge (depth + 1)) _ (RawField.ofNumber 5 l.requestCount.toNat)
      ⟨l.bundle, l.feature, l.workloadType, l.workloadTags, l.requestCount, .zero, .zero, .zero⟩ :=
    .uint32 (PushedLimit.mk l.bundle l.feature l.workloadType l.workloadTags · .zero .zero .zero)
      placeScalar_of_ok rfl l.requestCount
  have window : Reads (merge (depth + 1)) _ (RawField.ofDouble 6 l.windowSeconds)
      ⟨l.bundle, l.feature, l.workloadType, l.workloadTags, l.requestCount,
        l.windowSeconds.received, .zero, .zero⟩ :=
    .double (PushedLimit.mk l.bundle l.feature l.workloadType l.workloadTags l.requestCount ·
      .zero .zero) placeScalar_of_ok rfl l.windowSeconds
  have lifetime : Reads (merge (depth + 1)) _ (RawField.ofDouble 7 l.lifetimeSeconds)
      ⟨l.bundle, l.feature, l.workloadType, l.workloadTags, l.requestCount,
        l.windowSeconds.received, l.lifetimeSeconds.received, .zero⟩ :=
    .double (PushedLimit.mk l.bundle l.feature l.workloadType l.workloadTags l.requestCount
      l.windowSeconds.received · .zero) placeScalar_of_ok rfl l.lifetimeSeconds
  have jitter : Reads (merge (depth + 1)) _ (RawField.ofDouble 8 l.jitter) l.received :=
    .double (PushedLimit.mk l.bundle l.feature l.workloadType l.workloadTags l.requestCount
      l.windowSeconds.received l.lifetimeSeconds.received ·) placeScalar_of_ok rfl l.jitter
  exact ((((((bundle.append feature).append type).append tagged).append count).append
    window).append lifetime).append jitter

/-- The bytes that a limit may be written as. -/
def Writes (l : PushedLimit) (bytes : Bytes) : Prop :=
  ∃ tags, tags.Perm l.workloadTags.entries ∧ bytes = l.encodeWith tags

inductive WritesList : List PushedLimit → Bytes → Prop
  | nil : WritesList [] []
  | cons {l : PushedLimit} {entries : List PushedLimit} {content bytes : Bytes}
      (first : l.Writes content) (later : WritesList entries bytes) :
      WritesList (l :: entries) (delimited 1 content ++ bytes)

theorem exists_reads_of_writes {l : PushedLimit} {bytes : Bytes} (h : l.Writes bytes)
    (depth : Nat) :
    ∃ fields, RawField.write fields = bytes ∧
      Reads (merge (depth + 1)) .empty fields l.received := by
  obtain ⟨tags, perm, rfl⟩ := h
  exact ⟨l.fieldsWith tags, write_fieldsWith tags l, l.reads_fieldsWith perm depth⟩

theorem mergeList_entry (depth : Nat) (form : Form) (entries : List PushedLimit) (input : Bytes) :
    mergeList depth 1 form entries input =
      place "RateLimitConfigurationList" "rate_limit_configuration"
        (mergeMessage merge depth form .empty input) fun entry => entries ++ [entry] := rfl

theorem reads_entry {l : PushedLimit} {content : Bytes} (written : l.Writes content) (depth : Nat)
    (before : List PushedLimit) :
    Reads (mergeList (depth + 2)) before [.delimited 1 content] (before ++ [l.received]) := by
  obtain ⟨fields, rfl, reads⟩ := exists_reads_of_writes written depth
  exact .delimited fun short rest =>
    (mergeList_entry ..).trans (place_of_ok (reads.mergeMessage_eq short rest))

theorem exists_reads_of_writesList {entries : List PushedLimit} {bytes : Bytes}
    (h : WritesList entries bytes) (depth : Nat) (before : List PushedLimit) :
    ∃ fields, RawField.write fields = bytes ∧
      Reads (mergeList (depth + 2)) before fields (before ++ entries.map received) := by
  induction h generalizing before with
  | nil =>
    rw [List.map_nil, List.append_nil]
    exact ⟨[], rfl, .nil before⟩
  | @cons l entries content bytes first _ ih =>
    obtain ⟨more, rfl, later⟩ := ih (before ++ [l.received])
    refine ⟨.delimited 1 content :: more, ?_, ?_⟩
    · rw [RawField.write_cons, RawField.bytes_delimited]
    · rw [List.append_assoc, List.singleton_append] at later
      exact (reads_entry first depth before).append later

theorem decodeList_of_writesList {entries : List PushedLimit} {bytes : Bytes}
    (h : WritesList entries bytes) (short : bytes.length < 2 ^ 64) :
    decodeList bytes = .ok (entries.map received) := by
  obtain ⟨fields, rfl, reads⟩ := exists_reads_of_writesList h 98 []
  exact reads.decode_eq short

end PushedLimit

namespace Response

/-- What is left of a response that has been written. -/
def received : Response → Response
  | limits entries => limits (entries.map PushedLimit.received)
  | r => r

/-- The bytes that a response may be written as. -/
inductive Writes : Response → Bytes → Prop
  | empty : Writes empty []
  | attestation (a : Attestation) : Writes (attestation a) (delimited 1 a.encode)
  | limits {entries : List PushedLimit} {content : Bytes}
      (written : PushedLimit.WritesList entries content) :
      Writes (limits entries) (delimited 2 content)

theorem merge_attestation (depth : Nat) (form : Form) (r : Response) (input : Bytes) :
    merge depth 1 form r input =
      place "PrefetchResponse" "r#type"
        (mergeMessage Attestation.merge depth form r.attestationOr input) attestation := rfl

theorem merge_limits (depth : Nat) (form : Form) (r : Response) (input : Bytes) :
    merge depth 2 form r input =
      place "PrefetchResponse" "r#type"
        (mergeMessage PushedLimit.mergeList depth form r.limitsOr input) limits := rfl

theorem exists_reads_of_writes {r : Response} {bytes : Bytes} (h : r.Writes bytes) (depth : Nat) :
    ∃ fields, RawField.write fields = bytes ∧
      Reads (merge (depth + 3)) .empty fields r.received := by
  cases h with
  | empty => exact ⟨[], rfl, .nil _⟩
  | attestation a =>
    refine ⟨[.delimited 1 (RawField.write a.fields)], ?_, .delimited fun short rest => ?_⟩
    · rw [RawField.write_singleton, RawField.bytes_delimited, a.write_fields]
    · have hread := (a.reads_fields (depth + 2)).mergeMessage_eq short rest
      exact (merge_attestation ..).trans (place_of_ok hread)
  | limits written =>
    obtain ⟨fields, rfl, reads⟩ := PushedLimit.exists_reads_of_writesList written depth []
    refine ⟨[.delimited 2 (RawField.write fields)], ?_, .delimited fun short rest => ?_⟩
    · rw [RawField.write_singleton, RawField.bytes_delimited]
    · exact (merge_limits ..).trans (place_of_ok (reads.mergeMessage_eq short rest))

theorem decode_of_writes {r : Response} {bytes : Bytes} (h : r.Writes bytes)
    (short : bytes.length < 2 ^ 64) : decode bytes = .ok r.received := by
  obtain ⟨fields, rfl, reads⟩ := exists_reads_of_writes h 97
  exact reads.decode_eq short

end Response

namespace AttestationRequest

def streamingFields (streaming : Option Bool) : List RawField :=
  match streaming with
  | none => []
  | some value => [.delimited 1 (RawField.write (RawField.ofNumber 1 value.toNat))]

def fields (r : AttestationRequest) : List RawField :=
  streamingFields r.streaming ++ RawField.ofNumber 2 r.count.toNat

theorem write_fields (r : AttestationRequest) : RawField.write r.fields = r.encode := by
  have hstreaming : RawField.write (streamingFields r.streaming) = encodeStreaming r.streaming := by
    cases r.streaming with
    | none => rfl
    | some value =>
      rw [streamingFields, RawField.write_singleton, RawField.bytes_delimited,
        RawField.write_ofNumber]
      rfl
  rw [fields, RawField.write_append, hstreaming, RawField.write_ofNumber, encode]

theorem reads_ofStreaming (value : Bool) (depth : Nat) :
    Reads (mergeStreaming depth) false (RawField.ofNumber 1 value.toNat) value :=
  .bool id placeScalar_of_ok rfl value

theorem merge_streaming (depth : Nat) (form : Form) (r : AttestationRequest) (input : Bytes) :
    merge depth 1 form r input =
      place "PrefetchRequest" "capabilities"
        (mergeMessage mergeStreaming depth form (r.streaming.getD false) input) fun value =>
          { r with streaming := some value } := rfl

theorem reads_fields (r : AttestationRequest) (depth : Nat) :
    Reads (merge (depth + 1)) ⟨none, 0⟩ r.fields r := by
  have streaming : Reads (merge (depth + 1)) ⟨none, 0⟩ (streamingFields r.streaming)
      ⟨r.streaming, 0⟩ := by
    cases r.streaming with
    | none => exact .nil _
    | some value =>
      refine .delimited fun short rest => ?_
      have hread := (reads_ofStreaming value depth).mergeMessage_eq short rest
      exact (merge_streaming ..).trans (place_of_ok hread)
  have count : Reads (merge (depth + 1)) _ (RawField.ofNumber 2 r.count.toNat) r :=
    .uint32 (AttestationRequest.mk r.streaming ·) placeScalar_of_ok rfl r.count
  exact streaming.append count

theorem decode_encode {r : AttestationRequest} (short : r.encode.length < 2 ^ 64) :
    decode r.encode = .ok r := by
  rw [← write_fields] at short ⊢
  exact (r.reads_fields 99).decode_eq short

theorem decode_encode_forCount (count : UInt32) :
    decode (forCount count).encode = .ok (forCount count) := by
  apply decode_encode
  have hstreaming : (encodeStreaming (some true)).length = 4 := rfl
  have hcount := Wire.length_numberField_le 2 count.toNat
  rw [forCount, encode, List.length_append, hstreaming]
  exact Nat.lt_of_le_of_lt (Nat.add_le_add_left hcount 4) (by decide)

theorem decodeStreaming_numberField (value : Bool) :
    Wire.decode mergeStreaming false (numberField 1 value.toNat) = .ok value := by
  cases value <;> rfl

end AttestationRequest

/-- The kinds of messages that client and service exchange, and those that are parts of them. -/
inductive MessageType where
  | request
  | capabilities
  | response
  | attestation
  | limits
  | limit
deriving DecidableEq

namespace MessageType

def Value : MessageType → Type
  | request => AttestationRequest
  | capabilities => Bool
  | response => Response
  | attestation => Attestation
  | limits => List PushedLimit
  | limit => PushedLimit

def encode : (type : MessageType) → type.Value → Bytes
  | request => AttestationRequest.encode
  | capabilities => fun streaming => numberField 1 (Bool.toNat streaming)
  | response => Response.encode
  | attestation => Attestation.encode
  | limits => PushedLimit.encodeList
  | limit => PushedLimit.encode

def decode : (type : MessageType) → Bytes → Except Fault type.Value
  | request => AttestationRequest.decode
  | capabilities => Wire.decode AttestationRequest.mergeStreaming false
  | response => Response.decode
  | attestation => Attestation.decode
  | limits => PushedLimit.decodeList
  | limit => Wire.decode PushedLimit.merge .empty

/-- The bytes that a message may be written as: maps have no order of their own. -/
def Writes : (type : MessageType) → type.Value → Bytes → Prop
  | request => fun r bytes => bytes = AttestationRequest.encode r
  | capabilities => fun streaming bytes => bytes = numberField 1 (Bool.toNat streaming)
  | response => Response.Writes
  | attestation => fun a bytes => bytes = Attestation.encode a
  | limits => PushedLimit.WritesList
  | limit => PushedLimit.Writes

/-- What is left of a message that has been written. -/
def received : (type : MessageType) → type.Value → type.Value
  | request => id
  | capabilities => id
  | response => Response.received
  | attestation => id
  | limits => List.map PushedLimit.received
  | limit => PushedLimit.received

theorem writes_encode (type : MessageType) (m : type.Value) : type.Writes m (type.encode m) := by
  have hlimit (l : PushedLimit) : l.Writes l.encode := ⟨l.workloadTags.entries, .refl _, rfl⟩
  have hlimits (entries : List PushedLimit) :
      PushedLimit.WritesList entries (PushedLimit.encodeList entries) := by
    induction entries with
    | nil => exact .nil
    | cons l entries ih => exact .cons (hlimit l) ih
  cases type with
  | request | capabilities | attestation => rfl
  | limits => exact hlimits m
  | limit => exact hlimit m
  | response =>
    cases m with
    | empty => exact .empty
    | attestation a => exact .attestation a
    | limits entries => exact .limits (hlimits entries)

theorem decode_eq_received {type : MessageType} {m : type.Value} {bytes : Bytes}
    (h : type.Writes m bytes) (short : bytes.length < 2 ^ 64) :
    type.decode bytes = .ok (type.received m) := by
  cases type with
  | request =>
    subst h
    exact AttestationRequest.decode_encode short
  | capabilities =>
    subst h
    exact AttestationRequest.decodeStreaming_numberField m
  | response => exact Response.decode_of_writes h short
  | attestation =>
    subst h
    exact Attestation.decode_encode short
  | limits => exact PushedLimit.decodeList_of_writesList h short
  | limit =>
    obtain ⟨fields, rfl, reads⟩ := PushedLimit.exists_reads_of_writes h 99
    exact reads.decode_eq short

end MessageType

end NodeAttestation
