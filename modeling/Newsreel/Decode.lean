import Newsreel.Json.Printer
import Newsreel.Text.Debug

/-!
Values read into records.

A record states its fields: the name, how the value is read and what stands for it where it is
absent. Of several faults the first in the order of the given value is reported; fields that are
missing are reported only when all given ones are sound, in the order in which the record declares
them.
-/

namespace Newsreel

/-- Why a value is not what a record asks for. -/
inductive DecodeFault where
  | missingField (name : String)
  | duplicateField (name : String)
  | invalidType (found expected : String)
  | invalidValue (found expected : String)
  | invalidLength (length : Nat) (expected : String)
  | unknownVariant (name : String) (expected : List String)
  | malformed (message : String)
  deriving DecidableEq, Repr

namespace DecodeFault

/-- Names between backticks, with what joins them before the last one. -/
def alternatives : List String → String
  | [] => "there are no variants"
  | [a] => "expected `" ++ a ++ "`"
  | [a, b] => "expected `" ++ a ++ "` or `" ++ b ++ "`"
  | names => "expected one of " ++ String.intercalate ", " (names.map fun n => "`" ++ n ++ "`")

def message : DecodeFault → String
  | .missingField name => "missing field `" ++ name ++ "`"
  | .duplicateField name => "duplicate field `" ++ name ++ "`"
  | .invalidType found expected => "invalid type: " ++ found ++ ", expected " ++ expected
  | .invalidValue found expected => "invalid value: " ++ found ++ ", expected " ++ expected
  | .invalidLength length expected =>
    "invalid length " ++ Text.natural length ++ ", expected " ++ expected
  | .unknownVariant name expected =>
    "unknown variant `" ++ name ++ "`, " ++ alternatives expected
  | .malformed message => message

end DecodeFault

namespace Decode

/-- A value in the words of a complaint about its type. -/
def found : Value → String
  | .null => "null"
  | .bool b => "boolean `" ++ (if b then "true" else "false") ++ "`"
  | .number (.int n) => "integer `" ++ Text.integer n ++ "`"
  | .number (.float x) => "floating point `" ++ Decimal.documentLayout.write x ++ "`"
  | .string s => "string " ++ Text.debug s
  | .array _ => "sequence"
  | .object _ => "map"

def unexpected (value : Value) (expected : String) : DecodeFault :=
  .invalidType (found value) expected

/-- Any value as it is. -/
def any (value : Value) : Except DecodeFault Value := .ok value

def text : Value → Except DecodeFault String
  | .string s => .ok s
  | value => .error (unexpected value "a string")

def path : Value → Except DecodeFault String
  | .string s => .ok s
  | value => .error (unexpected value "path string")

def flag : Value → Except DecodeFault Bool
  | .bool b => .ok b
  | value => .error (unexpected value "a boolean")

/-- A whole number that is not negative. -/
def count : Value → Except DecodeFault Nat
  | .number (.int n) =>
    if 0 ≤ n then .ok n.toNat
    else .error (.invalidValue (found (.number (.int n))) "usize")
  | value => .error (unexpected value "usize")

def real : Value → Except DecodeFault Float
  | .number n => .ok n.toFloat
  | value => .error (unexpected value "f64")

/-- Null for none. -/
def option (decode : Value → Except DecodeFault α) : Value → Except DecodeFault (Option α)
  | .null => .ok none
  | value => (decode value).map some

def list (decode : Value → Except DecodeFault α) : Value → Except DecodeFault (List α)
  | .array items => items.mapM decode
  | value => .error (unexpected value "a sequence")

def fields : Value → Except DecodeFault Fields
  | .object fields => .ok fields
  | value => .error (unexpected value "a map")

/-- Texts by name. -/
def textsByName : Value → Except DecodeFault (List (String × String))
  | .object fields => fields.mapM fun (name, value) => (text value).map fun s => (name, s)
  | value => .error (unexpected value "a map")

/-- One field of a record. -/
structure RecordField (α : Type) where
  name : String
  decode : Value → Except DecodeFault α
  /-- What stands for the field where it is absent; without it the field is required. -/
  absent : Option α

/-- What is tested of a field before the record is built. -/
structure Check where
  name : String
  required : Bool
  fault? : Value → Option DecodeFault

namespace RecordField

def check (field : RecordField α) : Check where
  name := field.name
  required := field.absent.isNone
  fault? value := match field.decode value with
    | .ok _ => none
    | .error fault => some fault

/-- The field of an object whose given fields are sound. -/
def get (field : RecordField α) (given : Fields) : Except DecodeFault α :=
  match Fields.find? field.name given, field.absent with
  | some value, _ => field.decode value
  | none, some default => .ok default
  | none, none => .error (.missingField field.name)

end RecordField

/-- The first fault of a given field, in the order of the object. -/
def firstFault? (checks : List Check) : Fields → Option DecodeFault
  | [] => none
  | (name, value) :: rest =>
    match (checks.find? fun check => check.name = name).bind fun check => check.fault? value with
    | some fault => some fault
    | none => firstFault? checks rest

/-- The items of a list as the fields of a record, in the order of their declaration. -/
def fieldsOfItems (record : String) (size : Nat) :
    (index : Nat) → List Check → List Value → Except DecodeFault Fields
  | index, [], items =>
    if items.isEmpty then .ok []
    else .error (.invalidLength (index + items.length) "fewer elements in array")
  | index, check :: checks, [] =>
    if check.required then
      .error (.invalidLength index
        ("struct " ++ record ++ " with " ++ Text.natural size ++ " elements"))
    else fieldsOfItems record size (index + 1) checks []
  | index, check :: checks, item :: items => match check.fault? item with
    | some fault => .error fault
    | none => do
      let rest ← fieldsOfItems record size (index + 1) checks items
      return (check.name, item) :: rest

/-- The sound fields of an object that is to be a record of the given name. -/
def openRecord (record : String) (checks : List Check) : Value → Except DecodeFault Fields
  | .object given => match firstFault? checks given with
    | some fault => .error fault
    | none => .ok given
  | value => .error (unexpected value ("struct " ++ record))

/-- The sound fields of a record that may also be written as a list of its fields. -/
def record (name : String) (checks : List Check) : Value → Except DecodeFault Fields
  | .array items => fieldsOfItems name checks.length 0 checks items
  | value => openRecord name checks value

end Decode

end Newsreel
