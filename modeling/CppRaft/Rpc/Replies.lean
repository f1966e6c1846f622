import CppRaft.Rpc.Request

/-!
# The responses of the Raft service

The fields of `AppendEntriesReply`, `InstallSnapshotResponse` and
`RequestVoteReply` are numbers.  Their generated code is the same but for the
number of the fields: a message is written as the fields that are not zero, and
nothing in it tells its type.
-/

namespace CppRaft.Rpc

open CppRaft.Store
open CppRaft.Wire

universe u v

/-- The response messages of the methods of a service. -/
structure Responses (κ : Type u) (Response : κ → Type v) where
  serialize : (method : κ) → Response method → Bytes
  parse : (method : κ) → Bytes → Option (Response method)
  inverts : ∀ {method : κ} {response : Response method} {bytes : Bytes},
    serializeToString (serialize method response) = some bytes → parse method bytes = some response

/-! ## Messages whose fields are numbers -/

/-- A field of type `int32` or `bool`. -/
def writeNumber (number value : Nat) : Bytes :=
  if value = 0 then [] else writeVarint 4 (8 * number) ++ writeVarint 9 value

/-- The fields from `number` on. -/
def writeNumbers : (number : Nat) → List Nat → Bytes
  | _, [] => []
  | number, value :: rest => writeNumber number value ++ writeNumbers (number + 1) rest

/-- The switch of `_InternalParse` on the tag of a field. -/
def parseNumber (unknown : UnknownFieldParse) (values : List Nat) (tag : Nat) (rest : Bytes) :
    Option (List Nat × Bytes) :=
  if tag % 8 = 0 ∧ 1 ≤ tag / 8 ∧ tag / 8 ≤ values.length then
    (readVarint 10 rest).map fun value =>
      (values.set (tag / 8 - 1) (value.1 % 2 ^ 64), value.2)
  else if tag = 0 ∨ tag % 8 = 4 then none
  else (unknown.skip tag rest).map fun rest => (values, rest)

/-- The loop of `_InternalParse`. -/
def parseNumbers (unknown : UnknownFieldParse) : (fuel : Nat) → List Nat → Bytes →
    Option (List Nat)
  | _, values, [] => some values
  | 0, _, _ :: _ => none
  | fuel + 1, values, byte :: tail =>
      match readVarint 5 (byte :: tail) with
      | none => none
      | some (tag, rest) =>
          match parseNumber unknown values (tag % 2 ^ 32) rest with
          | none => none
          | some (values, rest) => parseNumbers unknown fuel values rest

variable {unknown : UnknownFieldParse}

theorem parseNumbers_of_read {values values' : List Nat} {tag : Nat} {input rest rest' : Bytes}
    (read : readVarint 5 input = some (tag, rest))
    (field : parseNumber unknown values (tag % 2 ^ 32) rest = some (values', rest')) (fuel : Nat) :
    parseNumbers unknown (fuel + 1) values input = parseNumbers unknown fuel values' rest' := by
  cases input with
  | nil => cases read
  | cons byte tail => simp only [parseNumbers, read, field]

variable (unknown)

/-- A field that is not zero is read back into its place. -/
theorem parseNumber_write (before after : List Nat) {value : Nat} (fits : value < 2 ^ 64)
    (rest : Bytes) :
    parseNumber unknown (before ++ 0 :: after) (8 * (before.length + 1))
      (writeVarint 9 value ++ rest) = some (before ++ value :: after, rest) := by
  have known : 8 * (before.length + 1) % 8 = 0 ∧ 1 ≤ 8 * (before.length + 1) / 8 ∧
      8 * (before.length + 1) / 8 ≤ (before ++ 0 :: after).length := by
    rw [List.length_append, List.length_cons]
    omega
  have place : 8 * (before.length + 1) / 8 - 1 = before.length := by omega
  have number := readVarint_writeVarint (k := 9) (n := value) (by omega) (Nat.lt_succ_self 9) rest
  rw [parseNumber, if_pos known, number, Option.map_some, place, Nat.mod_eq_of_lt fits,
    List.set_append_right _ _ (Nat.le_refl _), Nat.sub_self, List.set_cons_zero]

/-- The fields after those that were read are read back. -/
theorem parseNumbers_write (before : List Nat) {values : List Nat}
    (fits : ∀ value ∈ values, value < 2 ^ 64) (few : before.length + values.length < 2 ^ 28)
    (fuel : Nat) (enough : (writeNumbers (before.length + 1) values).length ≤ fuel) :
    parseNumbers unknown fuel (before ++ List.replicate values.length 0)
      (writeNumbers (before.length + 1) values) = some (before ++ values) := by
  induction values generalizing before fuel with
  | nil => cases fuel <;> rfl
  | cons value values ih =>
      rw [List.forall_mem_cons] at fits
      rw [List.length_cons] at few
      have next : (before ++ [value]).length = before.length + 1 := by
        rw [List.length_append, List.length_singleton]
      have later := ih (before ++ [value]) fits.2 (by omega)
      rw [next, List.append_assoc, List.append_assoc] at later
      rw [List.length_cons, List.replicate_succ]
      by_cases absent : value = 0
      · rw [writeNumbers, writeNumber, if_pos absent, List.nil_append] at enough ⊢
        rw [absent] at later ⊢
        exact later fuel enough
      · rw [writeNumbers, writeNumber, if_neg absent, List.append_assoc] at enough ⊢
        have tagged := writeVarint_length_pos 4 (8 * (before.length + 1))
        rw [List.length_append, List.length_append] at enough
        obtain ⟨fuel, rfl⟩ := Nat.exists_eq_succ_of_ne_zero (show fuel ≠ 0 by omega)
        have tag := readVarint_writeVarint (k := 4) (n := 8 * (before.length + 1)) (by omega)
          (Nat.lt_succ_self 4) (writeVarint 9 value ++ writeNumbers (before.length + 1 + 1) values)
        have whole : 8 * (before.length + 1) % 2 ^ 32 = 8 * (before.length + 1) :=
          Nat.mod_eq_of_lt (by omega)
        have field := parseNumber_write unknown before (List.replicate values.length 0) fits.1
          (writeNumbers (before.length + 1 + 1) values)
        rw [← whole] at field
        rw [parseNumbers_of_read tag field]
        exact later fuel (by omega)

/-- `ParseFromArray` of a message with this number of fields. -/
def parseMessage (count : Nat) (input : Bytes) : Option (List Nat) :=
  parseNumbers unknown input.length (List.replicate count 0) input

theorem parseMessage_write {values : List Nat} (fits : ∀ value ∈ values, value < 2 ^ 64)
    (few : values.length < 2 ^ 28) :
    parseMessage unknown values.length (writeNumbers 1 values) = some values :=
  parseNumbers_write unknown [] fits (by rwa [List.length_nil, Nat.zero_add]) _ (Nat.le_refl _)

/-! ## The messages -/

/-- An `int32` is extended to 64 bits. -/
def ofInt32 (n : Int32) : Nat :=
  (n.toBitVec.signExtend 64).toNat

/-- The lower 32 bits of a number on the wire. -/
def toInt32 (value : Nat) : Int32 :=
  Int32.ofBitVec (BitVec.ofNat 32 value)

/-- A `bool` on the wire. -/
def ofBool (b : Bool) : Nat :=
  if b then 1 else 0

/-- Any number but 0 is true. -/
def toBool (value : Nat) : Bool :=
  value != 0

theorem ofInt32_lt (n : Int32) : ofInt32 n < 2 ^ 64 :=
  BitVec.isLt _

theorem ofBool_lt (b : Bool) : ofBool b < 2 ^ 64 := by
  cases b <;> decide

@[simp]
theorem toInt32_ofInt32 (n : Int32) : toInt32 (ofInt32 n) = n := by
  have truncated : BitVec.ofNat 32 (n.toBitVec.signExtend 64).toNat = n.toBitVec := by
    rw [BitVec.ofNat_toNat]
    ext i inside
    rw [BitVec.getElem_setWidth, BitVec.getLsbD_signExtend]
    simp [inside, Nat.lt_trans inside (by decide : 32 < 64)]
  rw [toInt32, ofInt32, truncated]
  exact Int32.ofBitVec_toBitVec n

@[simp]
theorem toBool_ofBool (b : Bool) : toBool (ofBool b) = b := by
  cases b <;> rfl

/-- The reply of a follower. -/
structure AppendEntriesReply where
  term : Int32
  success : Bool
  updateNextIndex : Int32
  appState : Int32
  deriving DecidableEq

/-- The response of a follower that takes a snapshot. -/
structure InstallSnapshotResponse where
  term : Int32
  deriving DecidableEq

/-- The reply of a voter. -/
structure RequestVoteReply where
  term : Int32
  voteGranted : Bool
  voteState : Int32
  deriving DecidableEq

/-- The methods of the service `raftRpc`. -/
inductive RaftMethod
  | appendEntries
  | installSnapshot
  | requestVote
  deriving DecidableEq

/-- The response of a method. -/
abbrev RaftResponse : RaftMethod → Type
  | .appendEntries => AppendEntriesReply
  | .installSnapshot => InstallSnapshotResponse
  | .requestVote => RequestVoteReply

instance : (method : RaftMethod) → DecidableEq (RaftResponse method)
  | .appendEntries => inferInstanceAs (DecidableEq AppendEntriesReply)
  | .installSnapshot => inferInstanceAs (DecidableEq InstallSnapshotResponse)
  | .requestVote => inferInstanceAs (DecidableEq RequestVoteReply)

namespace RaftMethod

/-- The number of fields of its response. -/
def fieldCount : RaftMethod → Nat
  | .appendEntries => 4
  | .installSnapshot => 1
  | .requestVote => 3

/-- The numbers that a response has on the wire. -/
def fields : (method : RaftMethod) → RaftResponse method → List Nat
  | .appendEntries, reply =>
      [ofInt32 reply.term, ofBool reply.success, ofInt32 reply.updateNextIndex,
        ofInt32 reply.appState]
  | .installSnapshot, response => [ofInt32 response.term]
  | .requestVote, reply => [ofInt32 reply.term, ofBool reply.voteGranted, ofInt32 reply.voteState]

/-- The response with these numbers. -/
def ofFields : (method : RaftMethod) → List Nat → Option (RaftResponse method)
  | .appendEntries, [term, success, updateNextIndex, appState] =>
      some ⟨toInt32 term, toBool success, toInt32 updateNextIndex, toInt32 appState⟩
  | .installSnapshot, [term] => some ⟨toInt32 term⟩
  | .requestVote, [term, voteGranted, voteState] =>
      some ⟨toInt32 term, toBool voteGranted, toInt32 voteState⟩
  | _, _ => none

theorem fields_length (method : RaftMethod) (response : RaftResponse method) :
    (method.fields response).length = method.fieldCount := by
  cases method <;> rfl

theorem fields_lt (method : RaftMethod) (response : RaftResponse method) :
    ∀ value ∈ method.fields response, value < 2 ^ 64 := by
  cases method <;>
    simp only [fields, List.forall_mem_cons, ofInt32_lt, ofBool_lt, List.not_mem_nil,
      IsEmpty.forall_iff, implies_true, and_self]

theorem ofFields_fields (method : RaftMethod) (response : RaftResponse method) :
    method.ofFields (method.fields response) = some response := by
  cases method <;> simp [fields, ofFields]

end RaftMethod

/-- The responses of `raftRpc`. -/
def raftResponses : Responses RaftMethod RaftResponse where
  serialize := fun method response => writeNumbers 1 (method.fields response)
  parse := fun method bytes => (parseMessage unknown method.fieldCount bytes).bind method.ofFields
  inverts := by
    intro method response bytes serialized
    obtain ⟨_, rfl⟩ := serializeToString_eq_some.mp serialized
    have few : (method.fields response).length < 2 ^ 28 := by
      rw [RaftMethod.fields_length]
      cases method <;> decide
    have parsed := parseMessage_write unknown (method.fields_lt response) few
    rw [RaftMethod.fields_length] at parsed
    rw [parsed, Option.bind_some, RaftMethod.ofFields_fields]

end CppRaft.Rpc
