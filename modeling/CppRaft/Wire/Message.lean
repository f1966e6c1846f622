import CppRaft.Wire.Varint
import Mathlib.Algebra.Group.Int.Defs
import Mathlib.Algebra.Group.Nat.Defs
import Mathlib.Data.List.Basic
import Mathlib.Data.List.Forall2

/-!
# Messages of numbered fields

A message is written as its fields in order, each with a tag that holds its
number and tells how its value is written; a field with its default value is
left out.  A reader takes the fields as they come: a value that occurs again
replaces the one before it, a repeated field collects its values, and a tag
that the message does not know is handed to `skip`.
-/

namespace CppRaft.Wire

/-- A field with its value. -/
inductive Field
  /-- A number of 64 bits. -/
  | number (value : UInt64)
  | bytes (value : List UInt8)
  /-- Any number of messages, each as it is written. -/
  | messages (values : List (List UInt8))
deriving DecidableEq

/-! ## Writing -/

/-- A length and as many bytes. -/
def writeBlock (value : List UInt8) : List UInt8 :=
  writeVarint 4 value.length ++ value

namespace Field

/-- The field before anything has been read. -/
def blank : Field → Field
  | .number _ => .number 0
  | .bytes _ => .bytes []
  | .messages _ => .messages []

/-- What the tag says about the form of the value. -/
def wireType : Field → Nat
  | .number _ => 0
  | .bytes _ | .messages _ => 2

/-- The number of the field and the form of its value. -/
def tag (number : Nat) (field : Field) : Nat :=
  8 * number + field.wireType

/-- A tag and a value; an empty field is left out, and a repeated one is written
once for each value. -/
def write (number : Nat) (field : Field) : List UInt8 :=
  match field with
  | .number value =>
      if value = 0 then [] else writeVarint 4 (field.tag number) ++ writeVarint 9 value.toNat
  | .bytes value =>
      if value = [] then [] else writeVarint 4 (field.tag number) ++ writeBlock value
  | .messages values =>
      (values.map fun value => writeVarint 4 (field.tag number) ++ writeBlock value).flatten

/-- Blocks have a size that is an `int`. -/
def Fits : Field → Prop
  | .number _ => True
  | .bytes value => value.length < 2 ^ 31
  | .messages values => ∀ value ∈ values, value.length < 2 ^ 31

/-- What a reader holds that has read `later` after `field`. -/
def overlay (field later : Field) : Field :=
  match field, later with
  | .number value, .number value' => .number (if value' = 0 then value else value')
  | .bytes value, .bytes value' => .bytes (if value' = [] then value else value')
  | .messages values, .messages values' => .messages (values ++ values')
  | field, _ => field

theorem wireType_lt (field : Field) : field.wireType < 8 := by
  cases field <;> simp [wireType]

@[simp]
theorem overlay_blank (field : Field) : field.blank.overlay field = field := by
  cases field with
  | number value =>
      by_cases absent : value = 0 <;> simp [blank, overlay, absent]
  | bytes value =>
      by_cases absent : value = [] <;> simp [blank, overlay, absent]
  | messages values => simp [blank, overlay]

end Field

/-- The fields from `number` on. -/
def writeFields : (number : Nat) → List Field → List UInt8
  | _, [] => []
  | number, field :: rest => field.write number ++ writeFields (number + 1) rest

/-! ## Reading -/

/-- A length, and as many bytes if they are there. -/
def readBlock (input : List UInt8) : Option (List UInt8 × List UInt8) :=
  match readVarint 5 input with
  | none => none
  | some (size, rest) =>
      if size ≤ rest.length then some (rest.take size, rest.drop size) else none

/-- The field after one more value has been read. -/
def Field.read (field : Field) (input : List UInt8) : Option (Field × List UInt8) :=
  match field with
  | .number _ =>
      (readVarint 10 input).map fun value => (.number (UInt64.ofNat value.1), value.2)
  | .bytes _ => (readBlock input).map fun value => (.bytes value.1, value.2)
  | .messages values =>
      (readBlock input).map fun value => (.messages (values ++ [value.1]), value.2)

/-- The place of the field that a tag belongs to. -/
def place (fields : List Field) (tag : Nat) : Option Nat :=
  match tag / 8 with
  | 0 => none
  | k + 1 => if (fields[k]?).any fun field => field.wireType = tag % 8 then some k else none

/-- What a reader does with a field that the message does not have: given its
tag, it returns what follows the field, or fails. -/
structure UnknownFields where
  skip : Nat → List UInt8 → Option (List UInt8)
  consumes : ∀ {tag : Nat} {input rest : List UInt8}, skip tag input = some rest →
    rest.length ≤ input.length

variable (unknown : UnknownFields)

/-- One round of a reader, after the tag. -/
def readField (fields : List Field) (tag : Nat)
    (input : List UInt8) : Option (List Field × List UInt8) :=
  match place fields tag with
  | some k =>
      (fields[k]?.bind fun field => field.read input).map fun read =>
        (fields.set k read.1, read.2)
  | none =>
      if tag = 0 ∨ tag % 8 = 4 then none
      else (unknown.skip tag input).map fun rest => (fields, rest)

/-- The loop of a reader. -/
def readFields : (fuel : Nat) → List Field → List UInt8 → Option (List Field)
  | _, fields, [] => some fields
  | 0, _, _ :: _ => none
  | fuel + 1, fields, byte :: tail =>
      match readVarint 5 (byte :: tail) with
      | none => none
      | some (tag, rest) =>
          match readField unknown fields (tag % 2 ^ 32) rest with
          | none => none
          | some (fields, rest) => readFields fuel fields rest

/-- Every round reads at least one byte, so that the number of bytes is enough
fuel. -/
def mergeFields (fields : List Field) (input : List UInt8) : Option (List Field) :=
  readFields unknown input.length fields input

/-! ## What a reader consumes -/

theorem readVarint_length_lt {limit n : Nat} {input rest : List UInt8}
    (read : readVarint limit input = some (n, rest)) : rest.length < input.length := by
  have consumed := writeVarint_length_le read 0
  rw [writeVarint, List.length_singleton] at consumed
  omega

theorem readBlock_eq_some {input value rest : List UInt8}
    (read : readBlock input = some (value, rest)) :
    (writeBlock value).length + rest.length ≤ input.length := by
  unfold readBlock at read
  cases size : readVarint 5 input with
  | none => simp only [size, reduceCtorEq] at read
  | some result =>
      obtain ⟨count, after⟩ := result
      simp only [size, Option.ite_none_right_eq_some, Option.some.injEq, Prod.mk.injEq] at read
      obtain ⟨enough, rfl, rfl⟩ := read
      have consumed := writeVarint_length_le size 4
      rw [writeBlock, List.length_append, List.length_take, Nat.min_eq_left enough,
        List.length_drop]
      omega

theorem readBlock_append {value : List UInt8} (short : value.length < 2 ^ 31)
    (rest : List UInt8) : readBlock (writeBlock value ++ rest) = some (value, rest) := by
  have size := readVarint_writeVarint (k := 4) (n := value.length) (by omega)
    (Nat.lt_succ_self 4) (value ++ rest)
  simp only [readBlock, writeBlock, List.append_assoc, size, List.length_append,
    Nat.le_add_right, if_true, List.take_left, List.drop_left]

theorem Field.read_length {field field' : Field} {input rest : List UInt8}
    (read : field.read input = some (field', rest)) : rest.length ≤ input.length := by
  cases field with
  | number value =>
      obtain ⟨⟨value', after⟩, number, same⟩ := Option.map_eq_some_iff.mp read
      cases same
      exact Nat.le_of_lt (readVarint_length_lt number)
  | bytes value | messages values =>
      obtain ⟨⟨value', after⟩, block, same⟩ := Option.map_eq_some_iff.mp read
      cases same
      exact Nat.le_trans (Nat.le_add_left _ _) (readBlock_eq_some block)

theorem place_eq_some {fields : List Field} {tag k : Nat} :
    place fields tag = some k ↔ ∃ field, fields[k]? = some field ∧ tag = field.tag (k + 1) := by
  unfold place
  constructor
  · intro found
    split at found
    · cases found
    · rename_i k' number
      rw [Option.ite_none_right_eq_some, Option.some.injEq, Option.any_eq_true] at found
      obtain ⟨⟨field, at_, same⟩, rfl⟩ := found
      rw [decide_eq_true_eq] at same
      refine ⟨field, at_, ?_⟩
      rw [Field.tag]
      omega
  · rintro ⟨field, found, rfl⟩
    have small : field.wireType < 8 := field.wireType_lt
    have number : field.tag (k + 1) / 8 = k + 1 := by
      rw [Field.tag]
      omega
    have form : field.wireType = field.tag (k + 1) % 8 := by
      rw [Field.tag]
      omega
    rw [number]
    simp [found, ← form]

variable {unknown}

/-- A round reads a value of a field, or skips what follows an unknown tag. -/
theorem readField_eq_some {fields fields' : List Field} {tag : Nat} {input rest : List UInt8}
    (read : readField unknown fields tag input = some (fields', rest)) :
    (∃ k field field', fields[k]? = some field ∧ tag = field.tag (k + 1) ∧
        field.read input = some (field', rest) ∧ fields' = fields.set k field') ∨
      unknown.skip tag input = some rest ∧ fields' = fields := by
  unfold readField at read
  split at read
  · rename_i k known
    obtain ⟨field, found, same⟩ := place_eq_some.mp known
    rw [found, Option.bind_some, Option.map_eq_some_iff] at read
    obtain ⟨⟨field', after⟩, value, result⟩ := read
    cases result
    exact Or.inl ⟨k, field, field', found, same, value, rfl⟩
  · rw [Option.ite_none_left_eq_some, Option.map_eq_some_iff] at read
    obtain ⟨_, after, skipped, result⟩ := read
    cases result
    exact Or.inr ⟨skipped, rfl⟩

theorem readField_length {fields fields' : List Field} {tag : Nat} {input rest : List UInt8}
    (read : readField unknown fields tag input = some (fields', rest)) :
    rest.length ≤ input.length := by
  rcases readField_eq_some read with ⟨k, field, field', _, _, value, _⟩ | ⟨skipped, _⟩
  · exact Field.read_length value
  · exact unknown.consumes skipped

/-- More fuel than bytes makes no difference. -/
theorem readFields_eq_mergeFields {fuel : Nat} {fields : List Field} {input : List UInt8}
    (enough : input.length ≤ fuel) :
    readFields unknown fuel fields input = mergeFields unknown fields input := by
  induction fuel using Nat.strongRecOn generalizing fields input with
  | ind fuel ih =>
      cases input with
      | nil => cases fuel <;> rfl
      | cons byte tail =>
          rw [List.length_cons] at enough
          obtain ⟨fuel, rfl⟩ := Nat.exists_eq_succ_of_ne_zero (show fuel ≠ 0 by omega)
          rw [mergeFields, List.length_cons]
          simp only [readFields]
          cases tagged : readVarint 5 (byte :: tail) with
          | none => rfl
          | some result =>
              obtain ⟨tag, rest⟩ := result
              have first := readVarint_length_lt tagged
              rw [List.length_cons] at first
              dsimp only
              cases read : readField unknown fields (tag % 2 ^ 32) rest with
              | none => rfl
              | some result =>
                  obtain ⟨fields', rest'⟩ := result
                  have second := readField_length read
                  dsimp only
                  rw [ih fuel (by omega) (by omega), ih tail.length (by omega) (by omega)]

/-- One round of the loop. -/
theorem mergeFields_round {fields fields' : List Field} {tag : Nat} {input rest rest' : List UInt8}
    (tagged : readVarint 5 input = some (tag, rest))
    (read : readField unknown fields (tag % 2 ^ 32) rest = some (fields', rest')) :
    mergeFields unknown fields input = mergeFields unknown fields' rest' := by
  cases input with
  | nil => cases tagged
  | cons byte tail =>
      have first := readVarint_length_lt tagged
      have second := readField_length read
      rw [List.length_cons] at first
      rw [mergeFields, List.length_cons]
      simp only [readFields, tagged, read]
      exact readFields_eq_mergeFields (by omega)

/-! ## Reading inverts writing -/

/-- A value in its place is read over the one that is there. -/
theorem mergeFields_value {fields : List Field} {k : Nat} {field field' : Field}
    (found : fields[k]? = some field) (few : k + 1 < 2 ^ 28) {content rest : List UInt8}
    (read : field.read (content ++ rest) = some (field', rest)) :
    mergeFields unknown fields (writeVarint 4 (field.tag (k + 1)) ++ (content ++ rest)) =
      mergeFields unknown (fields.set k field') rest := by
  have small : field.wireType < 8 := field.wireType_lt
  have bound : field.tag (k + 1) < 2 ^ 32 := by
    rw [Field.tag]
    omega
  have tagged := readVarint_writeVarint (k := 4) (n := field.tag (k + 1)) (by omega)
    (Nat.lt_succ_self 4) (content ++ rest)
  have known := place_eq_some.mpr ⟨field, found, rfl⟩
  apply mergeFields_round tagged
  rw [Nat.mod_eq_of_lt bound]
  simp only [readField, known, found, Option.bind_some, read, Option.map_some]

theorem set_of_getElem? {fields : List Field} {k : Nat} {field : Field}
    (found : fields[k]? = some field) : fields.set k field = fields := by
  obtain ⟨inside, rfl⟩ := List.getElem?_eq_some_iff.mp found
  exact List.set_getElem_self inside

/-- The values of a repeated field are read behind those that are there. -/
theorem mergeFields_messages {fields : List Field} {k : Nat} {values : List (List UInt8)}
    (found : fields[k]? = some (.messages values)) (few : k + 1 < 2 ^ 28)
    {later : List (List UInt8)} (fits : ∀ value ∈ later, value.length < 2 ^ 31)
    (rest : List UInt8) :
    mergeFields unknown fields (Field.write (k + 1) (.messages later) ++ rest) =
      mergeFields unknown (fields.set k (.messages (values ++ later))) rest := by
  induction later generalizing fields values with
  | nil =>
      rw [List.append_nil, set_of_getElem? found]
      rfl
  | cons value later ih =>
      rw [List.forall_mem_cons] at fits
      have inside := (List.getElem?_eq_some_iff.mp found).1
      have split : Field.write (k + 1) (.messages (value :: later)) ++ rest =
          writeVarint 4 (Field.tag (k + 1) (.messages values)) ++
            (writeBlock value ++ (Field.write (k + 1) (.messages later) ++ rest)) := by
        simp only [Field.write, List.map_cons, List.flatten_cons, List.append_assoc]
        rfl
      have read : (Field.messages values).read
          (writeBlock value ++ (Field.write (k + 1) (.messages later) ++ rest)) =
          some (.messages (values ++ [value]), Field.write (k + 1) (.messages later) ++ rest) := by
        simp only [Field.read, readBlock_append fits.1, Option.map_some]
      rw [split, mergeFields_value found few read, ih (List.getElem?_set_self inside) fits.2,
        List.set_set, List.append_assoc, List.singleton_append]

variable (unknown) in
/-- A field that is written is read over the one that is there. -/
theorem mergeFields_field {fields : List Field} {k : Nat} {field later : Field}
    (found : fields[k]? = some field) (same : field.blank = later.blank) (few : k + 1 < 2 ^ 28)
    (fits : later.Fits) (rest : List UInt8) :
    mergeFields unknown fields (later.write (k + 1) ++ rest) =
      mergeFields unknown (fields.set k (field.overlay later)) rest := by
  cases field with
  | number value =>
      cases later with
      | bytes _ | messages _ => cases same
      | number value' =>
          by_cases absent : value' = 0
          · simp only [Field.write, Field.overlay, absent, if_true, List.nil_append,
              set_of_getElem? found]
          · have number := readVarint_writeVarint (k := 9) (n := value'.toNat)
              (Nat.lt_of_lt_of_le value'.toNat_lt (by decide)) (Nat.lt_succ_self 9) rest
            have read : (Field.number value).read (writeVarint 9 value'.toNat ++ rest) =
                some (.number value', rest) := by
              simp only [Field.read, number, Option.map_some, UInt64.ofNat_toNat]
            simp only [Field.write, Field.overlay, absent, if_false, List.append_assoc]
            exact mergeFields_value found few read
  | bytes value =>
      cases later with
      | number _ | messages _ => cases same
      | bytes value' =>
          by_cases absent : value' = []
          · simp only [Field.write, Field.overlay, absent, if_true, List.nil_append,
              set_of_getElem? found]
          · have read : (Field.bytes value).read (writeBlock value' ++ rest) =
                some (.bytes value', rest) := by
              simp only [Field.read, readBlock_append fits, Option.map_some]
            simp only [Field.write, Field.overlay, absent, if_false, List.append_assoc]
            exact mergeFields_value found few read
  | messages values =>
      cases later with
      | number _ | bytes _ => cases same
      | messages values' => exact mergeFields_messages found few fits rest

variable (unknown) in
/-- Fields that are written are read over those that are there: the
concatenation of two messages is the second one laid over the first one. -/
theorem mergeFields_append (before : List Field) {fields later : List Field}
    (same : fields.map Field.blank = later.map Field.blank) (fits : ∀ field ∈ later, field.Fits)
    (few : before.length + later.length < 2 ^ 28) (rest : List UInt8) :
    mergeFields unknown (before ++ fields) (writeFields (before.length + 1) later ++ rest) =
      mergeFields unknown (before ++ List.zipWith Field.overlay fields later) rest := by
  induction fields generalizing before later with
  | nil =>
      cases later with
      | nil => rfl
      | cons _ _ => cases same
  | cons field fields ih =>
      cases later with
      | nil => cases same
      | cons next later =>
          rw [List.map_cons, List.map_cons, List.cons.injEq] at same
          rw [List.forall_mem_cons] at fits
          rw [List.length_cons] at few
          have found : (before ++ field :: fields)[before.length]? = some field := by
            rw [List.getElem?_append_right (Nat.le_refl _), Nat.sub_self, List.getElem?_cons_zero]
          have first := mergeFields_field unknown found same.1 (by omega) fits.1
            (writeFields (before.length + 1 + 1) later ++ rest)
          rw [List.set_append_right _ _ (Nat.le_refl _), Nat.sub_self, List.set_cons_zero] at first
          have others := ih (before ++ [field.overlay next]) same.2 fits.2 (by
            rw [List.length_append, List.length_singleton]
            omega)
          rw [List.length_append, List.length_singleton, List.append_assoc, List.append_assoc]
            at others
          rw [writeFields, List.append_assoc, first]
          exact others

theorem zipWith_overlay_blank (fields : List Field) :
    List.zipWith Field.overlay (fields.map Field.blank) fields = fields := by
  induction fields with
  | nil => rfl
  | cons field fields ih => rw [List.map_cons, List.zipWith_cons_cons, Field.overlay_blank, ih]

/-- What was written is read back. -/
theorem mergeFields_writeFields {fields : List Field} (fits : ∀ field ∈ fields, field.Fits)
    (few : fields.length < 2 ^ 28) :
    mergeFields unknown (fields.map Field.blank) (writeFields 1 fields) = some fields := by
  have blank : (fields.map Field.blank).map Field.blank = fields.map Field.blank := by
    rw [List.map_map]
    apply List.map_congr_left
    intro field _
    cases field <;> rfl
  have whole := mergeFields_append unknown [] blank fits
    (by rwa [List.length_nil, Nat.zero_add]) []
  rw [List.append_nil, zipWith_overlay_blank] at whole
  exact whole

/-! ## Writing is shortest -/

/-- A value that is read makes its field longer by no more than its bytes and
its tag. -/
theorem Field.write_length_le {field field' : Field} {input rest : List UInt8}
    (read : field.read input = some (field', rest)) (number : Nat) :
    (field'.write number).length + rest.length ≤
      (field.write number).length + ((writeVarint 4 (field.tag number)).length + input.length) := by
  cases field with
  | number value =>
      obtain ⟨⟨value', after⟩, taken, same⟩ := Option.map_eq_some_iff.mp read
      cases same
      have consumed := writeVarint_length_le taken 9
      have shorter := writeVarint_length_mono 9 (show (UInt64.ofNat value').toNat ≤ value' by
        rw [UInt64.toNat_ofNat']
        exact Nat.mod_le _ _)
      by_cases absent : UInt64.ofNat value' = 0
      · simp only [Field.write, absent, if_true, List.length_nil]
        omega
      · simp only [Field.write, absent, if_false, List.length_append, Field.tag,
          Field.wireType] at shorter ⊢
        omega
  | bytes value =>
      obtain ⟨⟨value', after⟩, taken, same⟩ := Option.map_eq_some_iff.mp read
      cases same
      have consumed := readBlock_eq_some taken
      by_cases absent : value' = []
      · simp only [Field.write, absent, if_true, List.length_nil]
        omega
      · simp only [Field.write, absent, if_false, List.length_append, Field.tag, Field.wireType]
        omega
  | messages values =>
      obtain ⟨⟨value', after⟩, taken, same⟩ := Option.map_eq_some_iff.mp read
      cases same
      have consumed := readBlock_eq_some taken
      simp only [Field.write, List.map_append, List.flatten_append, List.map_cons, List.map_nil,
        List.flatten_cons, List.flatten_nil, List.append_nil, List.length_append, Field.tag,
        Field.wireType]
      omega

theorem writeFields_set_length {fields : List Field} {k : Nat} {field : Field}
    (found : fields[k]? = some field) (number : Nat) (field' : Field) :
    (writeFields number (fields.set k field')).length + (field.write (number + k)).length =
      (writeFields number fields).length + (field'.write (number + k)).length := by
  induction fields generalizing k number with
  | nil => cases found
  | cons first fields ih =>
      cases k with
      | zero =>
          cases found
          simp only [List.set_cons_zero, writeFields, List.length_append, Nat.add_zero]
          omega
      | succ k =>
          rw [List.getElem?_cons_succ] at found
          have later := ih found (number + 1)
          rw [Nat.add_assoc, Nat.add_comm 1 k] at later
          simp only [List.set_cons_succ, writeFields, List.length_append]
          omega

theorem readFields_length_le {fuel : Nat} {fields result : List Field} {input : List UInt8}
    (read : readFields unknown fuel fields input = some result) :
    (writeFields 1 result).length ≤ (writeFields 1 fields).length + input.length := by
  induction fuel generalizing fields input with
  | zero =>
      cases input with
      | nil =>
          cases read
          exact Nat.le_add_right _ _
      | cons byte tail => cases read
  | succ fuel ih =>
      cases input with
      | nil =>
          cases read
          exact Nat.le_add_right _ _
      | cons byte tail =>
          simp only [readFields] at read
          split at read
          · cases read
          · rename_i tag rest tagged
            split at read
            · cases read
            · rename_i fields' rest' round
              have later := ih read
              have consumed := writeVarint_length_le tagged 4
              have shorter := writeVarint_length_mono 4 (Nat.mod_le tag (2 ^ 32))
              rcases readField_eq_some round with
                ⟨k, field, field', found, same, value, rfl⟩ | ⟨skipped, rfl⟩
              · have longer := Field.write_length_le value (k + 1)
                have replaced := writeFields_set_length found 1 field'
                rw [Nat.add_comm 1 k] at replaced
                rw [same] at shorter
                omega
              · have positive := readVarint_length_lt tagged
                have shorter := unknown.consumes skipped
                omega

/-- No byte string that is read as a message is shorter than the one that is
written. -/
theorem writeFields_length_le {fields result : List Field} {input : List UInt8}
    (read : mergeFields unknown fields input = some result) :
    (writeFields 1 result).length ≤ (writeFields 1 fields).length + input.length :=
  readFields_length_le read

theorem writeFields_blank (number : Nat) (fields : List Field) :
    writeFields number (fields.map Field.blank) = [] := by
  induction fields generalizing number with
  | nil => rfl
  | cons field fields ih =>
      rw [List.map_cons, writeFields, ih, List.append_nil]
      cases field <;> rfl

/-- The blocks of a message are not longer than the message. -/
theorem fits_of_writeFields {number : Nat} {fields : List Field}
    (short : (writeFields number fields).length < 2 ^ 31) : ∀ field ∈ fields, field.Fits := by
  induction fields generalizing number with
  | nil => exact List.forall_mem_nil _
  | cons field fields ih =>
      rw [writeFields, List.length_append] at short
      rw [List.forall_mem_cons]
      refine ⟨?_, @ih (number + 1) (by omega)⟩
      cases field with
      | number value => trivial
      | bytes value =>
          by_cases absent : value = []
          · rw [Field.Fits, absent]
            decide
          · simp only [Field.write, absent, if_false, List.length_append, writeBlock] at short
            rw [Field.Fits]
            omega
      | messages values =>
          intro value member
          have part := (List.sublist_flatten_of_mem (List.mem_map_of_mem
            (f := fun value => writeVarint 4 (Field.tag number (.messages values)) ++
              writeBlock value) member)).length_le
          rw [List.length_append, writeBlock, List.length_append] at part
          rw [Field.write] at short
          omega

/-! ## Numbers of 32 bits -/

/-- The number is an `int32`. -/
def IsInt32 (n : Int) : Prop :=
  -2 ^ 31 ≤ n ∧ n < 2 ^ 31

instance (n : Int) : Decidable (IsInt32 n) :=
  inferInstanceAs (Decidable (_ ∧ _))

/-- A number is extended to 64 bits with its sign. -/
def signExtend (n : Int) : UInt64 :=
  UInt64.ofNat (n % 2 ^ 64).toNat

/-- The number in the lower 32 bits. -/
def int32 (value : UInt64) : Int :=
  (value.toNat : Int).bmod (2 ^ 32)

/-- The field of an `int32`. -/
abbrev Field.ofInt (n : Int) : Field :=
  .number (signExtend n)

theorem toNat_signExtend (n : Int) : ((signExtend n).toNat : Int) = n % 2 ^ 64 := by
  have bound := Int.emod_lt_of_pos n (show (0 : Int) < 2 ^ 64 by omega)
  have nonneg := Int.emod_nonneg n (show (2 ^ 64 : Int) ≠ 0 by omega)
  rw [signExtend, UInt64.toNat_ofNat', Nat.mod_eq_of_lt (by omega), Int.toNat_of_nonneg nonneg]

theorem int32_signExtend {n : Int} (within : IsInt32 n) : int32 (signExtend n) = n := by
  obtain ⟨lower, upper⟩ := within
  have extended := toNat_signExtend n
  unfold int32
  by_cases negative : n < 0
  · rw [Int.bmod_neg]
    · omega
    · omega
  · rw [Int.bmod_eq_emod_of_lt]
    · omega
    · omega

/-- A number that is not negative has no smaller form. -/
theorem signExtend_int32_le {value : UInt64} (nonneg : 0 ≤ int32 value) :
    (signExtend (int32 value)).toNat ≤ value.toNat := by
  have extended := toNat_signExtend (int32 value)
  have least : int32 value ≤ value.toNat := by
    unfold int32 at nonneg ⊢
    by_cases low : (value.toNat : Int) % (2 ^ 32 : Nat) < ((2 ^ 32 : Nat) + 1) / 2
    · rw [Int.bmod_eq_emod_of_lt low]
      omega
    · rw [Int.bmod_neg _ _ (Int.not_lt.mp low)] at nonneg
      omega
  omega

/-- A field is not longer than another one, whatever number they have. -/
def Field.Shorter (field other : Field) : Prop :=
  ∀ number, (field.write number).length ≤ (other.write number).length

theorem Field.Shorter.refl (field : Field) : field.Shorter field :=
  fun _ => Nat.le_refl _

theorem Field.shorter_int32 {value : UInt64} (nonneg : 0 ≤ int32 value) :
    (Field.ofInt (int32 value)).Shorter (.number value) := by
  intro number
  have smaller := signExtend_int32_le nonneg
  have shorter := writeVarint_length_mono 9 smaller
  by_cases absent : signExtend (int32 value) = 0
  · simp only [Field.write, absent, if_true, List.length_nil, Nat.zero_le]
  · have present : value ≠ 0 := by
      rintro rfl
      apply absent
      rw [← UInt64.toNat_inj]
      exact Nat.le_zero.mp smaller
    simp only [Field.write, absent, present, if_false, List.length_append, Field.tag,
      Field.wireType]
    omega

theorem writeFields_length_mono {fields others : List Field}
    (shorter : List.Forall₂ Field.Shorter fields others) (number : Nat) :
    (writeFields number fields).length ≤ (writeFields number others).length := by
  induction shorter generalizing number with
  | nil => exact Nat.le_refl _
  | cons first _ ih =>
      have first := first number
      have rest := ih (number + 1)
      simp only [writeFields, List.length_append]
      omega

/-- Messages with shorter blocks. -/
theorem Field.shorter_messages {values others : List (List UInt8)}
    (shorter : List.Forall₂ (fun value other => value.length ≤ other.length) values others) :
    (Field.messages values).Shorter (.messages others) := by
  intro number
  induction shorter with
  | nil => exact Nat.le_refl _
  | cons first _ ih =>
      have size := writeVarint_length_mono 4 first
      simp only [Field.write, List.map_cons, List.flatten_cons, List.length_append, writeBlock,
        Field.tag, Field.wireType] at ih ⊢
      omega

/-! ## Typed messages -/

universe u

/-- How the values of a type are messages. -/
structure Schema (μ : Type u) where
  blank : List Field
  fields : μ → List Field
  ofFields : List Field → Option μ
  /-- The values whose numbers are within the types of their fields. -/
  Valid : μ → Prop
  few : blank.length < 2 ^ 28
  blank_fields : ∀ message, (fields message).map Field.blank = blank
  ofFields_fields : ∀ {message}, Valid message → (∀ field ∈ fields message, field.Fits) →
    ofFields (fields message) = some message

namespace Schema

variable {μ : Type u} (schema : Schema μ)

/-- `SerializeToString`. -/
def write (message : μ) : List UInt8 :=
  writeFields 1 (schema.fields message)

/-- `ParseFromArray`. -/
def read (unknown : UnknownFields) (input : List UInt8) : Option μ :=
  (mergeFields unknown schema.blank input).bind schema.ofFields

/-- The fields of a message are the shortest ones that are taken for it. -/
def Least (message : μ) : Prop :=
  ∀ fields, schema.ofFields fields = some message →
    List.Forall₂ Field.Shorter (schema.fields message) fields

variable {schema}

variable (unknown) in
theorem read_write {message : μ} (valid : schema.Valid message)
    (short : (schema.write message).length < 2 ^ 31) :
    schema.read unknown (schema.write message) = some message := by
  have fits := fits_of_writeFields short
  have same := schema.blank_fields message
  have few := schema.few
  rw [← same, List.length_map] at few
  rw [read, ← same, write, mergeFields_writeFields fits few, Option.bind_some,
    schema.ofFields_fields valid fits]

theorem write_length_le {message : μ} (least : schema.Least message) {input : List UInt8}
    (parsed : schema.read unknown input = some message) :
    (schema.write message).length ≤ input.length := by
  obtain ⟨fields, merged, built⟩ := Option.bind_eq_some_iff.mp parsed
  have bound := writeFields_length_le merged
  rw [← schema.blank_fields message, writeFields_blank, List.length_nil, Nat.zero_add] at bound
  exact Nat.le_trans (writeFields_length_mono (least fields built) 1) bound

variable (unknown) in
/-- The values of a repeated field are read back. -/
theorem mapM_read_write {messages : List μ} (valid : ∀ message ∈ messages, schema.Valid message)
    (short : ∀ message ∈ messages, (schema.write message).length < 2 ^ 31) :
    (messages.map schema.write).mapM (schema.read unknown) = some messages := by
  induction messages with
  | nil => rfl
  | cons message messages ih =>
      rw [List.forall_mem_cons] at valid short
      rw [List.map_cons, List.mapM_cons, read_write unknown valid.1 short.1, ih valid.2 short.2]
      rfl

/-- The blocks of a repeated field are not shorter than its values. -/
theorem forall₂_write_length_le {messages : List μ}
    (least : ∀ message ∈ messages, schema.Least message) {blocks : List (List UInt8)}
    (parsed : blocks.mapM (schema.read unknown) = some messages) :
    List.Forall₂ (fun value block => value.length ≤ block.length) (messages.map schema.write)
      blocks := by
  induction blocks generalizing messages with
  | nil =>
      cases parsed
      exact List.Forall₂.nil
  | cons block blocks ih =>
      rw [List.mapM_cons] at parsed
      obtain ⟨message, first, rest⟩ := Option.bind_eq_some_iff.mp parsed
      obtain ⟨others, later, same⟩ := Option.bind_eq_some_iff.mp rest
      cases same
      rw [List.forall_mem_cons] at least
      exact List.Forall₂.cons (write_length_le least.1 first) (ih least.2 later)

end Schema

end CppRaft.Wire
