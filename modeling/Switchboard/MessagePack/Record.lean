import Switchboard.MessagePack.Item
import Switchboard.Record

/-!
# Records in MessagePack

A record is a map with the entries `@type` and `fields`; a field is a map with one entry, from the name of its kind
to its value. The tag stands apart from the fields, so no field can be taken for it.

Reading is lenient in form: a record may also be an array of its two parts, names may be strings or binaries, the
parts and the kinds may be given by number, unknown parts are passed over, and of fields with one name the last
counts. A part given twice, or not at all, is an error.
-/

namespace Switchboard.MessagePack

/-- How deep arrays and maps may nest. The map around the value of a field does not count. -/
def maxNesting : Nat := 1023

/-- The name of the part that holds the type tag. -/
def tagName : String := "@type"

/-- The name of the part that holds the fields. -/
def fieldsName : String := "fields"

/-- The kinds of fields in the order of their numbers. -/
inductive Kind
  | bool
  | int
  | float
  | str
  | bytes
  | strList
  | intList
  | floatList
  | object
  | objectList
deriving DecidableEq, Repr

namespace Kind

def all : List Kind :=
  [bool, int, float, str, bytes, strList, intList, floatList, object, objectList]

def name : Kind → String
  | bool => "Bool"
  | int => "Int"
  | float => "Float"
  | str => "Str"
  | bytes => "Bytes"
  | strList => "StrList"
  | intList => "IntList"
  | floatList => "FloatList"
  | object => "Object"
  | objectList => "ObjectList"

/-- The kind that an item names, by text or by number. -/
def ofItem? : Item → Option Kind
  | .str b => all.find? fun k => Utf8.encode k.name == b
  | .bin b => all.find? fun k => Utf8.encode k.name == b
  | .unsigned n => all[n]?
  | _ => none

end Kind

/-! ### Writing -/

/-- The one-entry map of a field. -/
def tagged (k : Kind) (value : Item) : Item := .map [(.ofText k.name, value)]

mutual
/-- A record as a map of its two parts. -/
def ofRecord : Record → Item
  | .mk tag fields =>
    .map [(.ofText tagName, .ofText tag), (.ofText fieldsName, .map (ofFields fields))]

def ofFields : List (String × Field) → List (Item × Item)
  | [] => []
  | (name, f) :: r => (.ofText name, ofField f) :: ofFields r

def ofField : Field → Item
  | .bool b => tagged .bool (.bool b)
  | .int n => tagged .int (.ofInt n.toInt)
  | .float x => tagged .float (.double x)
  | .str s => tagged .str (.ofText s)
  | .bytes b => tagged .bytes (.array (b.map fun x => .unsigned x.toNat))
  | .strList l => tagged .strList (.array (l.map .ofText))
  | .intList l => tagged .intList (.array (l.map fun n => .ofInt n.toInt))
  | .floatList l => tagged .floatList (.array (l.map .double))
  | .object r => tagged .object (ofRecord r)
  | .objectList l => tagged .objectList (.array (ofRecords l))

def ofRecords : List Record → List Item
  | [] => []
  | r :: rs => ofRecord r :: ofRecords rs
end

/-- The bytes of a record. -/
def encode (r : Record) : Bytes := (ofRecord r.canonical).write

/-! ### Reading -/

/-- A text, given as a string or as a binary. -/
def text? : Item → Option String
  | .str b => Utf8.decode? b
  | .bin b => Utf8.decode? b
  | _ => none

def bool? : Item → Option Bool
  | .bool b => some b
  | _ => none

/-- An integer of 64 bits. -/
def int? : Item → Option Int64
  | .unsigned n => if n < 1 <<< 63 then some (Int64.ofInt n) else none
  | .signed n => some (Int64.ofInt n)
  | _ => none

/-- A number; integers become the nearest double. -/
def float? : Item → Option Binary64
  | .unsigned n => some (.ofInt n)
  | .signed n => some (.ofInt n)
  | .single bits => some (.ofSingle bits)
  | .double x => some x
  | _ => none

def byte? : Item → Option UInt8
  | .unsigned n => if n < 256 then some (UInt8.ofNat n) else none
  | .signed n => if 0 ≤ n ∧ n < 256 then some (UInt8.ofNat n.toNat) else none
  | _ => none

/-- A list of plain values. A binary stands for the list of its bytes. -/
def list? {α : Type} (element? : Item → Option α) (room : Nat) : Item → Option (List α)
  | .array items => if room = 0 then none else items.mapM element?
  | .bin b => (b.map fun x => Item.unsigned x.toNat).mapM element?
  | _ => none

/-- The parts of a record. -/
inductive Part
  | tag
  | fields
  | unknown
deriving DecidableEq

def Part.ofName (b : Bytes) : Part :=
  if b = Utf8.encode tagName then .tag else if b = Utf8.encode fieldsName then .fields else .unknown

/-- The part that a key names, if it can name one. -/
def Part.ofItem? : Item → Option Part
  | .str b => some (.ofName b)
  | .bin b => some (.ofName b)
  | .unsigned 0 => some .tag
  | .unsigned 1 => some .fields
  | .unsigned _ => some .unknown
  | _ => none

mutual
/-- The record that an item spells, with room for so many more nested arrays and maps. -/
def toRecord? (room : Nat) : Item → Option Record
  | .array [tag, fields] =>
    if room = 0 then none
    else do
      let tag ← text? tag
      let fields ← toFields? (room - 1) fields
      some (.mk tag fields)
  | .map entries => if room = 0 then none else partsOf? (room - 1) none none entries
  | _ => none

/-- Collects the parts of a record from the entries of its map. -/
def partsOf? (room : Nat) (tag : Option String) (fields : Option (Table Field)) :
    List (Item × Item) → Option Record
  | [] => do
    let tag ← tag
    let fields ← fields
    some (.mk tag fields)
  | (key, value) :: rest =>
    match Part.ofItem? key with
    | none => none
    | some .tag => if tag.isSome then none else do
      let t ← text? value
      partsOf? room (some t) fields rest
    | some .fields => if fields.isSome then none else do
      let f ← toFields? room value
      partsOf? room tag (some f) rest
    | some .unknown => if value.nesting ≤ room then partsOf? room tag fields rest else none

def toFields? (room : Nat) : Item → Option (Table Field)
  | .map entries => if room = 0 then none else collectFields? (room - 1) [] entries
  | _ => none

/-- Puts the fields of a map into a table, in the order of the map. -/
def collectFields? (room : Nat) (read : Table Field) : List (Item × Item) → Option (Table Field)
  | [] => some read
  | (key, value) :: rest => do
    let name ← text? key
    let f ← toField? room value
    collectFields? room (Table.put name f read) rest

def toField? (room : Nat) : Item → Option Field
  | .map [(key, value)] =>
    match Kind.ofItem? key with
    | none => none
    | some .bool => .bool <$> bool? value
    | some .int => .int <$> int? value
    | some .float => .float <$> float? value
    | some .str => .str <$> text? value
    | some .bytes => .bytes <$> list? byte? room value
    | some .strList => .strList <$> list? text? room value
    | some .intList => .intList <$> list? int? room value
    | some .floatList => .floatList <$> list? float? room value
    | some .object => .object <$> toRecord? room value
    | some .objectList =>
      match value with
      | .array items => if room = 0 then none else .objectList <$> toRecords? (room - 1) items
      | .bin [] => some (.objectList [])
      | _ => none
  | _ => none

def toRecords? (room : Nat) : List Item → Option (List Record)
  | [] => some []
  | i :: is => do
    let r ← toRecord? room i
    let rs ← toRecords? room is
    some (r :: rs)
end

/-- The record at the front of a byte sequence; what follows it is ignored. -/
def decode? (bs : Bytes) : Option Record := do
  let (item, _) ← read? bs.length bs
  toRecord? maxNesting item

end Switchboard.MessagePack
