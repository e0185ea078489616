import Switchboard.Json.Record
import Switchboard.MessagePack.Record

/-!
# Documents

A document is a message that has been parsed and not yet been read as a typed value. Either format offers the same
questions: the type tag, whether a field is there, and the content of a field as this or that.

JSON knows no difference between bytes and texts, or between kinds of lists, so the reader decides; the type tag is
one of the fields. In MessagePack each field says what it holds, and no other reading is accepted; the type tag is
not a field.
-/

namespace Switchboard

inductive Document
  | json (members : Table Json)
  | messagePack (record : Record)

namespace Document

/-- The type tag, if there is one. In MessagePack an empty tag is none. -/
def typeTag? : Document → Option String
  | json members => (Table.get? Json.tagName members).bind Json.getStr?
  | messagePack record => if record.tag.isEmpty then none else some record.tag

def hasField (name : String) : Document → Bool
  | json members => Table.has name members
  | messagePack record => Table.has name record.fields

/-- How many documents enclose the innermost one, this one included, or more. -/
def height : Document → Nat
  | json members => (Json.obj members).height
  | messagePack record => record.height

/-- The content of a field by its name: `fromJson` and `fromField` say what may be there. -/
def field {α : Type} (name : String) (fromJson : Json → Except CodecError α)
    (fromField : Field → Except CodecError α) : Document → Except CodecError α
  | json members =>
    match Table.get? name members with
    | some v => fromJson v
    | none => .error (.missingField name)
  | messagePack record =>
    match Table.get? name record.fields with
    | some f => fromField f
    | none => .error (.missingField name)

/-- A value, or an error that says what was expected. -/
def expect {α : Type} (name : String) (expected : Shape) : Option α → Except CodecError α
  | some a => .ok a
  | none => .error (.wrongFieldType name expected)

/-! ### Integers and numbers in JSON -/

/-- An integer of 64 bits. -/
def int64? (v : Json) : Option Int64 := do
  let n ← v.getInt?
  if Int64.minValue.toInt ≤ n ∧ n ≤ Int64.maxValue.toInt then some (Int64.ofInt n) else none

/-- A number; integers become the nearest double. -/
def binary64? : Json → Option Binary64
  | .num (.int n) => some (.ofInt n)
  | .num (.float x) => some x
  | _ => none

/-! ### Single values -/

def getBool (d : Document) (name : String) : Except CodecError Bool :=
  d.field name (fun v => expect name .boolean v.getBool?)
    fun | .bool b => .ok b | _ => .error (.wrongFieldType name .boolean)

def getInt (d : Document) (name : String) : Except CodecError Int64 :=
  d.field name (fun v => expect name .integer (int64? v))
    fun | .int n => .ok n | _ => .error (.wrongFieldType name .integer)

def getFloat (d : Document) (name : String) : Except CodecError Binary64 :=
  d.field name (fun v => expect name .number (binary64? v))
    fun | .float x => .ok x | _ => .error (.wrongFieldType name .float)

def getStr (d : Document) (name : String) : Except CodecError String :=
  d.field name (fun v => expect name .string v.getStr?)
    fun | .str s => .ok s | _ => .error (.wrongFieldType name .string)

/-- A text that may be absent; a field that is there must hold a text. -/
def getStr? (d : Document) (name : String) : Except CodecError (Option String) :=
  if d.hasField name then some <$> d.getStr name else .ok none

def getBytes (d : Document) (name : String) : Except CodecError Bytes :=
  d.field name
    (fun v => do
      let s ← expect name .base64 v.getStr?
      match Base64.decode? s with
      | some b => .ok b
      | none => .error (.invalidField name .notBase64))
    fun | .bytes b => .ok b | _ => .error (.wrongFieldType name .bytes)

/-! ### Lists -/

/-- The items of a JSON array, each read in the same way. -/
def items {α : Type} (name : String) (expected : Shape) (item? : Json → Option α) (v : Json) :
    Except CodecError (List α) := do
  let l ← expect name .list v.getArr?
  expect name expected (l.mapM item?)

def getStrs (d : Document) (name : String) : Except CodecError (List String) :=
  d.field name (items name .strings Json.getStr?)
    fun | .strList l => .ok l | _ => .error (.wrongFieldType name .strings)

def getInts (d : Document) (name : String) : Except CodecError (List Int64) :=
  d.field name (items name .integers int64?)
    fun | .intList l => .ok l | _ => .error (.wrongFieldType name .integers)

def getFloats (d : Document) (name : String) : Except CodecError (List Binary64) :=
  d.field name (items name .numbers binary64?)
    fun | .floatList l => .ok l | _ => .error (.wrongFieldType name .floats)

/-! ### Nested documents -/

def ofJson? (v : Json) : Option Document := json <$> v.getObj?

def getObject (d : Document) (name : String) : Except CodecError Document :=
  d.field name (fun v => expect name .object (ofJson? v))
    fun | .object r => .ok (messagePack r) | _ => .error (.wrongFieldType name .object)

def getObjects (d : Document) (name : String) : Except CodecError (List Document) :=
  d.field name (items name .objects ofJson?)
    fun | .objectList l => .ok (l.map messagePack) | _ => .error (.wrongFieldType name .objects)

end Document

end Switchboard
