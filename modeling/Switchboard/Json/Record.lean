import Switchboard.Codec.Error
import Switchboard.Json.Basic
import Switchboard.Record
import Switchboard.Text.Base64

/-!
# Records in JSON

A record is an object with the type tag as one more member, written first. A field of that name takes the place of
the tag. Bytes are base64 texts. There is no text for a number that is not finite: the first one in the order of
writing is reported, with the field that holds it.
-/

namespace Switchboard.Json

/-- The member that holds the type tag. -/
def tagName : String := "@type"

def ofFloat (field : String) (x : Binary64) : Except CodecError Json :=
  if x.isFinite then .ok (.num (.float x)) else .error (.invalidField field (.notFinite x))

mutual
/-- The members of a record. -/
def membersOf : Record → Except CodecError (Table Json)
  | .mk tag fields => putFields [(tagName, .str tag)] fields

/-- Writes fields into an object, in order. -/
def putFields (written : Table Json) : List (String × Field) → Except CodecError (Table Json)
  | [] => .ok written
  | (name, f) :: r => do
    let v ← ofField name f
    putFields (Table.put name v written) r

/-- The value of one field; its name is for errors. -/
def ofField (name : String) : Field → Except CodecError Json
  | .bool b => .ok (.bool b)
  | .int n => .ok (.int n.toInt)
  | .float x => ofFloat name x
  | .str s => .ok (.str s)
  | .bytes b => .ok (.str (Base64.encode b))
  | .strList l => .ok (.strings l)
  | .intList l => .ok (.arr (l.map fun n => .int n.toInt))
  | .floatList l => .arr <$> l.mapM (ofFloat name)
  | .object r => .obj <$> membersOf r
  | .objectList l => .arr <$> ofRecords l

def ofRecords : List Record → Except CodecError (List Json)
  | [] => .ok []
  | r :: rs => do
    let members ← membersOf r
    let vs ← ofRecords rs
    .ok (.obj members :: vs)
end

/-- A record as a JSON value. -/
def ofRecord (r : Record) : Except CodecError Json := .obj <$> membersOf r

end Switchboard.Json
