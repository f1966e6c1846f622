import CppRaft.Store.Stream
import CppRaft.Wire.Varint
import Mathlib.Algebra.Group.Int.Defs

/-!
# The header of a remote call

`RpcHeader` is the message that precedes the arguments of every call.  Writing
and parsing follow the generated code: a field with its default value is left
out, and fields that the message does not have are skipped.
-/

namespace CppRaft.Rpc

open CppRaft.Store
open CppRaft.Wire

/-- The message `RpcHeader`. -/
structure RpcHeader where
  serviceName : Bytes := []
  methodName : Bytes := []
  argsSize : Nat := 0
  deriving DecidableEq

/-- `UnknownFieldParse` of the message library: given the tag of a field, it
returns what follows the field, or fails. -/
structure UnknownFieldParse where
  skip : Nat → Bytes → Option Bytes
  consumes : ∀ {tag : Nat} {input rest : Bytes}, skip tag input = some rest →
    rest.length ≤ input.length

/-- A field of type `bytes`. -/
def writeBytes (tag : UInt8) (value : Bytes) : Bytes :=
  if value = [] then [] else tag :: (writeVarint 4 value.length ++ value)

/-- A field of type `uint32`. -/
def writeUInt32 (tag : UInt8) (value : Nat) : Bytes :=
  if value = 0 then [] else tag :: writeVarint 4 value

/-- `InlineGreedyStringParser`: a length and as many bytes. -/
def inlineGreedyStringParser (input : Bytes) : Option (Bytes × Bytes) :=
  match readVarint 5 input with
  | none => none
  | some (size, rest) =>
      if size ≤ rest.length then some (rest.take size, rest.drop size) else none

theorem inlineGreedyStringParser_append {value : Bytes} (short : value.length < 2 ^ 31)
    (rest : Bytes) :
    inlineGreedyStringParser (writeVarint 4 value.length ++ (value ++ rest)) =
      some (value, rest) := by
  have size := readVarint_writeVarint (k := 4) (n := value.length) (by omega)
    (Nat.lt_succ_self 4) (value ++ rest)
  simp only [inlineGreedyStringParser, size, List.length_append, Nat.le_add_right, if_true,
    List.take_left, List.drop_left]

namespace RpcHeader

/-- `SerializeToString`: the fields that are not empty, in the order of their
numbers. -/
def serialize (header : RpcHeader) : Bytes :=
  writeBytes 10 header.serviceName ++ writeBytes 18 header.methodName ++
    writeUInt32 24 header.argsSize

/-- The switch of `_InternalParse` on the tag of a field. -/
def parseField (unknown : UnknownFieldParse) (header : RpcHeader) (tag : Nat) (rest : Bytes) :
    Option (RpcHeader × Bytes) :=
  if tag = 10 then
    (inlineGreedyStringParser rest).map fun field =>
      ({ header with serviceName := field.1 }, field.2)
  else if tag = 18 then
    (inlineGreedyStringParser rest).map fun field =>
      ({ header with methodName := field.1 }, field.2)
  else if tag = 24 then
    (readVarint 10 rest).map fun field => ({ header with argsSize := field.1 % 2 ^ 32 }, field.2)
  else if tag = 0 ∨ tag % 8 = 4 then none
  else (unknown.skip tag rest).map fun rest => (header, rest)

/-- The loop of `_InternalParse`.  Every round reads at least one byte, so that
the number of bytes is enough fuel. -/
def internalParse (unknown : UnknownFieldParse) : (fuel : Nat) → RpcHeader → Bytes →
    Option RpcHeader
  | _, header, [] => some header
  | 0, _, _ :: _ => none
  | fuel + 1, header, byte :: tail =>
      match readVarint 5 (byte :: tail) with
      | none => none
      | some (tag, rest) =>
          match parseField unknown header (tag % 2 ^ 32) rest with
          | none => none
          | some (header, rest) => internalParse unknown fuel header rest

/-- `ParseFromString`. -/
def parse (unknown : UnknownFieldParse) (input : Bytes) : Option RpcHeader :=
  internalParse unknown input.length {} input

variable {unknown : UnknownFieldParse}

@[simp]
theorem internalParse_nil (fuel : Nat) (header : RpcHeader) :
    internalParse unknown fuel header [] = some header := by
  cases fuel <;> rfl

/-! ## Parsing inverts serializing -/

theorem internalParse_cons {header header' : RpcHeader} {tag : UInt8} {rest rest' : Bytes}
    (short : tag.toNat < 128)
    (field : parseField unknown header tag.toNat rest = some (header', rest')) (fuel : Nat) :
    internalParse unknown (fuel + 1) header (tag :: rest) =
      internalParse unknown fuel header' rest' := by
  have whole : tag.toNat % 2 ^ 32 = tag.toNat := Nat.mod_eq_of_lt (by omega)
  simp only [internalParse, readVarint_cons_of_lt short, whole, field]

variable (unknown) in
/-- A field of type `bytes` is read back, and the loop goes on behind it. -/
theorem internalParse_writeBytes (tag : UInt8) (set : Bytes → RpcHeader) (single : tag.toNat < 128)
    (field : ∀ rest, parseField unknown (set []) tag.toNat rest =
      (inlineGreedyStringParser rest).map fun field => (set field.1, field.2))
    {value : Bytes} (short : value.length < 2 ^ 31) {rest : Bytes} {fuel : Nat}
    (enough : (writeBytes tag value ++ rest).length ≤ fuel) :
    ∃ fuel', rest.length ≤ fuel' ∧
      internalParse unknown fuel (set []) (writeBytes tag value ++ rest) =
        internalParse unknown fuel' (set value) rest := by
  by_cases absent : value = []
  · rw [absent] at enough ⊢
    exact ⟨fuel, enough, rfl⟩
  · rw [writeBytes, if_neg absent, List.cons_append, List.append_assoc] at enough ⊢
    rw [List.length_cons, List.length_append, List.length_append] at enough
    obtain ⟨fuel, rfl⟩ := Nat.exists_eq_succ_of_ne_zero (show fuel ≠ 0 by omega)
    refine ⟨fuel, by omega, internalParse_cons single ?_ fuel⟩
    rw [field, inlineGreedyStringParser_append short, Option.map_some]

theorem internalParse_writeUInt32 {header : RpcHeader} (unset : header.argsSize = 0) {value : Nat}
    (fits : value < 2 ^ 32) {fuel : Nat} (enough : (writeUInt32 24 value).length ≤ fuel) :
    internalParse unknown fuel header (writeUInt32 24 value) =
      some { header with argsSize := value } := by
  by_cases absent : value = 0
  · rw [writeUInt32, if_pos absent, internalParse_nil, absent, ← unset]
  · rw [writeUInt32, if_neg absent] at enough ⊢
    rw [List.length_cons] at enough
    obtain ⟨fuel, rfl⟩ := Nat.exists_eq_succ_of_ne_zero (show fuel ≠ 0 by omega)
    have read := readVarint_writeVarint (k := 4) (n := value) (by omega)
      (show 4 < 10 by decide) []
    rw [List.append_nil] at read
    have field : parseField unknown header (24 : UInt8).toNat (writeVarint 4 value) =
        some ({ header with argsSize := value }, []) := by
      change (readVarint 10 (writeVarint 4 value)).map _ = _
      rw [read, Option.map_some, Nat.mod_eq_of_lt fits]
    rw [internalParse_cons (by decide) field, internalParse_nil]

theorem length_le_writeBytes (tag : UInt8) (value : Bytes) :
    value.length ≤ (writeBytes tag value).length := by
  by_cases absent : value = []
  · rw [absent]
    exact Nat.zero_le _
  · rw [writeBytes, if_neg absent, List.length_cons, List.length_append]
    omega

/-- The names are contained in the written header. -/
theorem name_length_le (header : RpcHeader) :
    header.serviceName.length ≤ header.serialize.length ∧
      header.methodName.length ≤ header.serialize.length := by
  have service := length_le_writeBytes 10 header.serviceName
  have method := length_le_writeBytes 18 header.methodName
  simp only [serialize, List.length_append]
  omega

/-- The names and the length of the arguments are read back. -/
theorem parse_serialize {header : RpcHeader} (service : header.serviceName.length < 2 ^ 31)
    (method : header.methodName.length < 2 ^ 31) (args : header.argsSize < 2 ^ 32) :
    parse unknown header.serialize = some header := by
  rw [parse, serialize, List.append_assoc]
  obtain ⟨fuel, enough, first⟩ := internalParse_writeBytes unknown 10
    (fun value => { serviceName := value }) (by decide) (fun _ => rfl) service (Nat.le_refl _)
  obtain ⟨fuel', enough', second⟩ := internalParse_writeBytes unknown 18
    (fun value => { serviceName := header.serviceName, methodName := value }) (by decide)
    (fun _ => rfl) method enough
  rw [first, second]
  exact internalParse_writeUInt32 rfl args enough'

/-! ## Serializing is shortest -/

theorem writeBytes_length_le {input value rest : Bytes}
    (read : inlineGreedyStringParser input = some (value, rest)) (tag : UInt8) :
    (writeBytes tag value).length + rest.length ≤ input.length + 1 := by
  simp only [inlineGreedyStringParser] at read
  cases size : readVarint 5 input with
  | none => simp only [size, reduceCtorEq] at read
  | some result =>
      obtain ⟨count, after⟩ := result
      simp only [size, Option.ite_none_right_eq_some, Option.some.injEq, Prod.mk.injEq] at read
      obtain ⟨enough, rfl, rfl⟩ := read
      have consumed := writeVarint_length_le size 4
      by_cases absent : after.take count = []
      · rw [writeBytes, if_pos absent, List.length_drop, List.length_nil]
        omega
      · rw [writeBytes, if_neg absent, List.length_cons, List.length_append, List.length_take,
          Nat.min_eq_left enough, List.length_drop]
        omega

theorem writeUInt32_length_le {limit : Nat} {input rest : Bytes} {value : Nat}
    (read : readVarint limit input = some (value, rest)) (tag : UInt8) :
    (writeUInt32 tag (value % 2 ^ 32)).length + rest.length ≤ input.length + 1 := by
  have consumed := writeVarint_length_le read 4
  have smaller := writeVarint_length_mono 4 (Nat.mod_le value (2 ^ 32))
  by_cases absent : value % 2 ^ 32 = 0
  · rw [writeUInt32, if_pos absent, List.length_nil]
    omega
  · rw [writeUInt32, if_neg absent, List.length_cons]
    omega

/-- A field makes the message longer by no more than its bytes and its tag. -/
theorem parseField_length {header result : RpcHeader} {tag : Nat} {input rest : Bytes}
    (parsed : parseField unknown header tag input = some (result, rest)) :
    result.serialize.length + rest.length ≤ header.serialize.length + (input.length + 1) := by
  unfold parseField at parsed
  split at parsed
  · obtain ⟨⟨value, after⟩, read, built⟩ := Option.map_eq_some_iff.mp parsed
    cases built
    have longer := writeBytes_length_le read 10
    simp only [serialize, List.length_append]
    omega
  · split at parsed
    · obtain ⟨⟨value, after⟩, read, built⟩ := Option.map_eq_some_iff.mp parsed
      cases built
      have longer := writeBytes_length_le read 18
      simp only [serialize, List.length_append]
      omega
    · split at parsed
      · obtain ⟨⟨value, after⟩, read, built⟩ := Option.map_eq_some_iff.mp parsed
        cases built
        have longer := writeUInt32_length_le read 24
        simp only [serialize, List.length_append]
        omega
      · split at parsed
        · cases parsed
        · obtain ⟨after, skipped, built⟩ := Option.map_eq_some_iff.mp parsed
          cases built
          have shorter := unknown.consumes skipped
          omega

/-- What the loop has read is not longer than the bytes that it read. -/
theorem internalParse_length {fuel : Nat} {header result : RpcHeader} {input : Bytes}
    (parsed : internalParse unknown fuel header input = some result) :
    result.serialize.length ≤ header.serialize.length + input.length := by
  induction fuel generalizing header input with
  | zero =>
      cases input with
      | nil => cases parsed; exact Nat.le_add_right _ _
      | cons byte tail => cases parsed
  | succ fuel ih =>
      cases input with
      | nil => cases parsed; exact Nat.le_add_right _ _
      | cons byte tail =>
          simp only [internalParse] at parsed
          split at parsed
          · cases parsed
          · next tag rest read =>
              split at parsed
              · cases parsed
              · next header' rest' field =>
                  have round := parseField_length field
                  have tagged := writeVarint_length_le read 0
                  have later := ih parsed
                  rw [writeVarint, List.length_singleton] at tagged
                  omega

/-- No byte string that parses to a header is shorter than the one that is
written. -/
theorem serialize_length_le {header : RpcHeader} {input : Bytes}
    (parsed : parse unknown input = some header) : header.serialize.length ≤ input.length := by
  have bound := internalParse_length parsed
  have empty : serialize {} = [] := rfl
  rw [empty, List.length_nil, Nat.zero_add] at bound
  exact bound

/-- A header for shorter arguments is not longer. -/
theorem serialize_length_mono {header longer : RpcHeader}
    (service : header.serviceName = longer.serviceName)
    (method : header.methodName = longer.methodName) (args : header.argsSize ≤ longer.argsSize) :
    header.serialize.length ≤ longer.serialize.length := by
  have number :
      (writeUInt32 24 header.argsSize).length ≤ (writeUInt32 24 longer.argsSize).length := by
    have shorter := writeVarint_length_mono 4 args
    by_cases absent : header.argsSize = 0
    · rw [writeUInt32, if_pos absent]
      exact Nat.zero_le _
    · rw [writeUInt32, writeUInt32, if_neg absent, if_neg (by omega), List.length_cons,
        List.length_cons]
      omega
  simp only [serialize, service, method, List.length_append]
  omega

end RpcHeader

end CppRaft.Rpc
