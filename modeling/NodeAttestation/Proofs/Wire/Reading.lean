import NodeAttestation.Wire.Field

/-! # Numbers, keys and values that have been written are read as what they were. -/

namespace NodeAttestation.Wire

section Varint

/-- The groups of a number, the lowest first. The last of them may be zero, so that a number can be
spelled in more than one way. -/
inductive Spells : Nat → Bytes → Prop
  | last {b : UInt8} (h : b.toNat < 128) : Spells b.toNat [b]
  | more {b : UInt8} {n : Nat} {bytes : Bytes} (h : 128 ≤ b.toNat) (later : Spells n bytes) :
      Spells (b.toNat - 128 + 128 * n) (b :: bytes)

/-- Ten groups at most for 64 bits. -/
structure IsVarint (n : Nat) (bytes : Bytes) : Prop where
  spells : Spells n bytes
  length_le : bytes.length ≤ 10
  lt : n < 2 ^ 64

theorem Spells.length_pos {n : Nat} {bytes : Bytes} (spells : Spells n bytes) :
    0 < bytes.length := by
  cases spells <;> exact Nat.succ_pos _

/-- Of a tenth group only the lowest bit is used. -/
theorem Spells.readVarintFrom_eq {n : Nat} {bytes : Bytes} (spells : Spells n bytes)
    {place : Nat} (hplace : place + bytes.length ≤ 10) (hn : n * 128 ^ place < 2 ^ 64)
    (value : Nat) (rest : Bytes) :
    readVarintFrom place value (bytes ++ rest) = .ok (value + n * 128 ^ place, rest) := by
  induction spells generalizing place value with
  | @last b h =>
    have hten : ¬(place = 9 ∧ 1 < b.toNat) := by
      rintro ⟨rfl, hlarge⟩
      omega
    rw [List.singleton_append, readVarintFrom, if_neg hten, if_pos h]
  | @more b n bytes h later ih =>
    have hlength := later.length_pos
    have hsplit : (b.toNat - 128 + 128 * n) * 128 ^ place =
        (b.toNat - 128) * 128 ^ place + n * 128 ^ (place + 1) := by
      rw [Nat.add_mul, Nat.pow_succ', Nat.mul_assoc, Nat.mul_left_comm]
    rw [List.length_cons] at hplace
    rw [List.cons_append, readVarintFrom, if_neg (by omega), if_neg (by omega),
      ih (by omega) (by omega), hsplit, Nat.add_assoc]

theorem IsVarint.readVarint_eq {n : Nat} {bytes : Bytes} (h : IsVarint n bytes) (rest : Bytes) :
    readVarint (bytes ++ rest) = .ok (n, rest) := by
  have short : 0 + bytes.length ≤ 10 := (Nat.zero_add _).symm ▸ h.length_le
  have hread := h.spells.readVarintFrom_eq short (by have := h.lt; omega) 0 rest
  rwa [Nat.pow_zero, Nat.mul_one, Nat.zero_add] at hread

theorem toNat_ofNat_of_lt {n : Nat} (h : n < 256) : (UInt8.ofNat n).toNat = n := by
  rw [UInt8.toNat_ofNat']
  exact Nat.mod_eq_of_lt h

theorem spells_varintWithin {more n : Nat} (h : n < 128 ^ (more + 1)) :
    Spells n (varintWithin more n) := by
  induction more generalizing n with
  | zero =>
    have hbyte := toNat_ofNat_of_lt (n := n) (by omega)
    have last := Spells.last (b := UInt8.ofNat n) (by omega)
    rwa [hbyte] at last
  | succ more ih =>
    rw [varintWithin]
    split
    · rename_i hlast
      have hbyte := toNat_ofNat_of_lt (n := n) (by omega)
      have last := Spells.last (b := UInt8.ofNat n) (by omega)
      rwa [hbyte] at last
    · have hbyte := toNat_ofNat_of_lt (n := n % 128 + 128) (by omega)
      have hsmall : n / 128 < 128 ^ (more + 1) := by
        rw [Nat.pow_succ'] at h
        omega
      have spells := Spells.more (b := UInt8.ofNat (n % 128 + 128)) (by omega) (ih hsmall)
      rwa [hbyte, Nat.add_sub_cancel, Nat.mod_add_div] at spells

theorem length_varintWithin_le (more n : Nat) : (varintWithin more n).length ≤ more + 1 := by
  induction more generalizing n with
  | zero => exact Nat.le_refl 1
  | succ more ih =>
    rw [varintWithin]
    split
    · exact Nat.succ_le_succ (Nat.zero_le _)
    · exact Nat.succ_le_succ (ih (n / 128))

theorem length_varint_le (n : Nat) : (varint n).length ≤ 10 := length_varintWithin_le 9 n

theorem isVarint_varint {n : Nat} (h : n < 2 ^ 64) : IsVarint n (varint n) :=
  ⟨spells_varintWithin (by omega), length_varint_le n, h⟩

theorem readVarint_varint {n : Nat} (rest : Bytes) (h : n < 2 ^ 64) :
    readVarint (varint n ++ rest) = .ok (n, rest) := (isVarint_varint h).readVarint_eq rest

theorem length_numberField_le (field n : Nat) : (numberField field n).length ≤ 20 := by
  have hkey := length_varint_le (8 * field + Form.varint.code)
  have hnumber := length_varint_le n
  rw [numberField]
  split
  · exact Nat.zero_le 20
  · rw [List.length_append, key]
    omega

end Varint

/-- The numbers that a field can have. -/
def IsFieldNumber (n : Nat) : Prop := 0 < n ∧ n < 2 ^ 29

instance (n : Nat) : Decidable (IsFieldNumber n) := inferInstanceAs (Decidable (_ ∧ _))

theorem Form.code_lt (form : Form) : form.code < 8 := by
  cases form <;> decide

theorem readKey_of_isVarint {field : Nat} {form : Form} {bytes : Bytes} (rest : Bytes)
    (h : IsFieldNumber field) (spelled : IsVarint (8 * field + form.code) bytes) :
    readKey (bytes ++ rest) = .ok ((field, form), rest) := by
  have hcode := form.code_lt
  obtain ⟨hpos, hlt⟩ := h
  have hmod : (8 * field + form.code) % 8 = form.code := by omega
  have hdiv : (8 * field + form.code) / 8 = field := by omega
  rw [readKey, spelled.readVarint_eq]
  dsimp only [bind, Except.bind]
  rw [if_neg (by omega), hmod, hdiv, Form.ofCode?_code]
  exact if_neg (Nat.ne_of_gt hpos)

theorem isVarint_key {field : Nat} (form : Form) (h : IsFieldNumber field) :
    IsVarint (8 * field + form.code) (key field form) :=
  isVarint_varint (by have := form.code_lt; have := h.2; omega)

theorem readKey_key {field : Nat} (form : Form) (rest : Bytes) (h : IsFieldNumber field) :
    readKey (key field form ++ rest) = .ok ((field, form), rest) :=
  readKey_of_isVarint rest h (isVarint_key form h)

section Values

variable (rest : Bytes)

theorem takeBytes_append (bytes : Bytes) :
    takeBytes bytes.length (bytes ++ rest) = .ok (bytes, rest) := by
  rw [takeBytes, if_neg (by rw [List.length_append]; omega), List.take_left, List.drop_left]

theorem readBytes_append {content : Bytes} (h : content.length < 2 ^ 64) :
    readBytes .lengthDelimited (varint content.length ++ content ++ rest) =
      .ok (content, rest) := by
  rw [readBytes, List.append_assoc, readVarint_varint _ h]
  exact takeBytes_append rest content

theorem readText_append {text : String} (h : (Bytes.ofText text).length < 2 ^ 64) :
    readText .lengthDelimited
        (varint (Bytes.ofText text).length ++ Bytes.ofText text ++ rest) =
      .ok (text, rest) := by
  rw [readText, readBytes_append rest h]
  dsimp only [bind, Except.bind]
  rw [Bytes.toText?_ofText]

theorem readUInt32_append (n : UInt32) :
    readUInt32 .varint (varint n.toNat ++ rest) = .ok (n, rest) := by
  have hlt := n.toNat_lt
  rw [readUInt32, readVarint_varint rest (by omega)]
  exact congrArg (fun n => Except.ok (n, rest)) (UInt32.ofNat_toNat ..)

theorem readBool_append (value : Bool) :
    readBool .varint (varint value.toNat ++ rest) = .ok (value, rest) := by
  cases value <;> rfl

theorem readDouble_append (x : Double) :
    readDouble .sixtyFourBit (Bytes.littleEndian 8 x.bits.toNat ++ rest) = .ok (x, rest) := by
  have height : (Bytes.littleEndian 8 x.bits.toNat).length = 8 := Bytes.length_littleEndian ..
  have htake := takeBytes_append rest (Bytes.littleEndian 8 x.bits.toNat)
  have hbits :
      UInt64.ofNat (Bytes.ofLittleEndian (Bytes.littleEndian 8 x.bits.toNat)) = x.bits := by
    rw [Bytes.ofLittleEndian_littleEndian, Nat.mod_eq_of_lt x.bits.toNat_lt, UInt64.ofNat_toNat]
  rw [height] at htake
  rw [readDouble, htake]
  exact congrArg (fun bits => Except.ok ((⟨bits⟩ : Double), rest)) hbits

end Values

end NodeAttestation.Wire
