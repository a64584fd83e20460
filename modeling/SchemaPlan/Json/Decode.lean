import SchemaPlan.Decimal.Notation
import SchemaPlan.Json.Value
import SchemaPlan.Keyed
import SchemaPlan.Text.Quoted

set_option autoImplicit false

/-!
# Reading documents into values

A decoder reads a part of a document into a value or says why it cannot.  A
record is described by its fields in order and may be given as an object, whose
unknown members are skipped, or as an array of its fields.

Members are read in the order they stand in: the first that cannot be read
decides the error, a field that is missing is noticed after all members, and a
field met twice is an error.  So a document whose keys are distinct and ascending
(`Json.ofText?`) reports the least bad key.
-/

namespace SchemaPlan.Json

/-! ## Errors -/

/-- What was found where something else was expected. -/
inductive Found
  | null
  | boolean (value : Bool)
  | integer (value : Int)
  | floating (text : String)
  | string (text : String)
  | sequence
  | map
  | unreadable
  deriving DecidableEq, Repr

/-- What was found, in words. -/
def Found.message : Found → String
  | null => "null"
  | boolean value => "boolean \x60" ++ (if value then "true" else "false") ++ "\x60"
  | integer value => "integer \x60" ++ toString value ++ "\x60"
  | floating text => "floating point \x60" ++ text ++ "\x60"
  | string text => "string " ++ Text.quoted text
  | sequence => "sequence"
  | map => "map"
  | unreadable => "unreadable text"

/-- Why a document cannot be read into a value. -/
inductive DecodeError
  | missingField (name : String)
  | duplicateField (name : String)
  | invalidType (found : Found) (expected : String)
  | invalidValue (found : Found) (expected : String)
  | unknownVariant (name : String) (known : List String)
  /-- An array with more items than the record has fields. -/
  | tooLong (length : Nat)
  /-- An array without a field that a record must have. -/
  | tooShort (length : Nat) (record : String) (fields : Nat)
  deriving DecidableEq, Repr

/-- An error in words. -/
def DecodeError.message : DecodeError → String
  | missingField name => "missing field \x60" ++ name ++ "\x60"
  | duplicateField name => "duplicate field \x60" ++ name ++ "\x60"
  | invalidType found expected => "invalid type: " ++ found.message ++ ", expected " ++ expected
  | invalidValue found expected =>
    "invalid value: " ++ found.message ++ ", expected " ++ expected
  | unknownVariant name known =>
    "unknown variant \x60" ++ name ++ "\x60, expected one of "
      ++ String.intercalate ", " (known.map fun k => "\x60" ++ k ++ "\x60")
  | tooLong length =>
    "invalid length " ++ toString length ++ ", expected fewer elements in array"
  | tooShort length record fields =>
    "invalid length " ++ toString length ++ ", expected struct " ++ record ++ " with "
      ++ toString fields ++ (if fields == 1 then " element" else " elements")

/-- A way of reading a document into a value. -/
abbrev Decoder (α : Type) := Json → Except DecodeError α

/-- What a document is, for a message. -/
def found : Json → Found
  | .null => .null
  | .bool value => .boolean value
  | .number n =>
    match n.reading with
    | .natural k => .integer k
    | .negative k => .integer (-k)
    | .floating f => .floating (Decimal.Style.message.writeDouble f)
    | .outOfRange => .unreadable
  | .string text => .string text
  | .array _ => .sequence
  | .object _ => .map
  | .unreadable => .unreadable

/-- The error of a document that is something else than expected. -/
def mistyped {α : Type} (expected : String) (j : Json) : Except DecodeError α :=
  .error (.invalidType j.found expected)

/-! ## Leaves -/

/-- Read a text. -/
def readText : Decoder String
  | .string text => .ok text
  | j => mistyped "a string" j

/-- Read a truth value. -/
def readBool : Decoder Bool
  | .bool value => .ok value
  | j => mistyped "a boolean" j

/-- Read a whole number below a bound; `expected` names the numbers so bounded. -/
def readBounded (bound : Nat) (expected : String) : Decoder Nat
  | .number n =>
    match n.reading with
    | .natural k =>
      if k < bound then .ok k else .error (.invalidValue (.integer k) expected)
    | .negative k => .error (.invalidValue (.integer (-k)) expected)
    | _ => mistyped expected (.number n)
  | j => mistyped expected j

/-- Read a number of 64 bits. -/
def readUInt64 : Decoder UInt64 :=
  fun j => (readBounded (Nat.pow 2 64) "u64" j).map UInt64.ofNat

/-- Read a number of 32 bits. -/
def readUInt32 : Decoder UInt32 :=
  fun j => (readBounded (Nat.pow 2 32) "u32" j).map UInt32.ofNat

/-- Read a number of 16 bits. -/
def readUInt16 : Decoder UInt16 :=
  fun j => (readBounded (Nat.pow 2 16) "u16" j).map UInt16.ofNat

/-- Read a count. -/
def readCount : Decoder Nat := readBounded (Nat.pow 2 64) "usize"

/-- Read one of several words: as a string, or as an object with the word as its
one key and null as the value. -/
def readVariant {α : Type} (known : List String) (ofWord? : String → Option α) : Decoder α
  | .string word =>
    match ofWord? word with
    | some value => .ok value
    | none => .error (.unknownVariant word known)
  | .object [(word, content)] =>
    match ofWord? word with
    | none => .error (.unknownVariant word known)
    | some value =>
      match content with
      | .null => .ok value
      | j => mistyped "unit" j
  | .object _ => .error (.invalidValue .map "map with a single key")
  | j => mistyped "string or map" j

/-! ## Containers -/

/-- Read null as nothing. -/
def readOptional {α : Type} (decode : Decoder α) : Decoder (Option α)
  | .null => .ok none
  | j => (decode j).map some

/-- Read null as a value given for it. -/
def readNullAs {α : Type} (value : α) (decode : Decoder α) : Decoder α
  | .null => .ok value
  | j => decode j

/-- Read each of several documents; the first that cannot be read decides. -/
def readEach {α : Type} (decode : Decoder α) : List Json → Except DecodeError (List α)
  | [] => .ok []
  | j :: rest =>
    match decode j with
    | .error e => .error e
    | .ok value =>
      match readEach decode rest with
      | .error e => .error e
      | .ok values => .ok (value :: values)

/-- Read an array. -/
def readList {α : Type} (decode : Decoder α) : Decoder (List α)
  | .array items => readEach decode items
  | j => mistyped "a sequence" j

/-- Read members into a map; of a repeated key the last value stays. -/
def readEntries {α : Type} (decode : Decoder α) :
    Keyed α → List (String × Json) → Except DecodeError (Keyed α)
  | map, [] => .ok map
  | map, (key, j) :: rest =>
    match decode j with
    | .error e => .error e
    | .ok value => readEntries decode (map.insert key value) rest

/-- Read an object as a map. -/
def readKeyed {α : Type} (decode : Decoder α) : Decoder (Keyed α)
  | .object members => readEntries decode .empty members
  | j => mistyped "a map" j

/-! ## Records -/

/-- Where a field may be left out. -/
inductive Presence
  /-- Nowhere. -/
  | required
  /-- In an object, not in an array. -/
  | inArrays
  /-- Anywhere. -/
  | optional
  deriving DecidableEq, Repr

/-- A field of a record: its name, a second name it is known by, where it may be
left out, and how its value is put into the record. -/
structure Field (α : Type) where
  name : String
  otherName : Option String := none
  presence : Presence
  read : Json → Except DecodeError (α → α)

namespace Field

/-- A field from a decoder and a way to set it. -/
def of {α β : Type} (name : String) (presence : Presence) (decode : Decoder β)
    (set : β → α → α) : Field α :=
  ⟨name, none, presence, fun j => (decode j).map set⟩

/-- Whether a field is known by a name. -/
def isNamed {α : Type} (field : Field α) (name : String) : Bool :=
  field.name == name || field.otherName == some name

end Field

/-- A kind of record: what it is called, its fields in order, the record before
any field is read, and whether an array may have more items than fields. -/
structure RecordFormat (α : Type) where
  name : String
  fields : List (Field α)
  start : α
  extraItems : Bool := false

namespace RecordFormat

variable {α : Type}

/-- Read members in order, given the names of the fields already met. -/
def readMembers (fields : List (Field α)) :
    List String → α → List (String × Json) → Except DecodeError (List String × α)
  | met, record, [] => .ok (met, record)
  | met, record, (key, j) :: rest =>
    match fields.find? (·.isNamed key) with
    | none => readMembers fields met record rest
    | some field =>
      if met.contains field.name then .error (.duplicateField field.name)
      else
        match field.read j with
        | .error e => .error e
        | .ok set => readMembers fields (field.name :: met) (set record) rest

/-- Read items as the fields in order, given how many were read and the whole
record for messages. -/
def readItems (format : RecordFormat α) :
    Nat → List (Field α) → α → List Json → Except DecodeError α
  | _, [], record, [] => .ok record
  | done, [], record, extra =>
    if format.extraItems then .ok record else .error (.tooLong (done + extra.length))
  | done, field :: fields, record, [] =>
    if field.presence = .optional then readItems format (done + 1) fields record []
    else .error (.tooShort done format.name format.fields.length)
  | done, field :: fields, record, j :: rest =>
    match field.read j with
    | .error e => .error e
    | .ok set => readItems format (done + 1) fields (set record) rest

/-- Read a record. -/
def decode (format : RecordFormat α) : Decoder α
  | .object members =>
    match readMembers format.fields [] format.start members with
    | .error e => .error e
    | .ok (met, record) =>
      match format.fields.find? fun f => f.presence == .required && !met.contains f.name with
      | some field => .error (.missingField field.name)
      | none => .ok record
  | .array items => readItems format 0 format.fields format.start items
  | j => mistyped ("struct " ++ format.name) j

end RecordFormat

end SchemaPlan.Json
