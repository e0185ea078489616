import Switchboard.Decimal.Layout
import Switchboard.Log.Level

/-!
# Codec errors

Why bytes cannot be read as a typed value, or a value cannot be written.
-/

namespace Switchboard

/-- What a field was expected to hold. -/
inductive Shape
  | boolean
  | integer
  | number
  | float
  | string
  | base64
  | bytes
  | list
  | strings
  | integers
  | numbers
  | floats
  | object
  | objects
deriving DecidableEq, Repr

def Shape.text : Shape → String
  | boolean => "a boolean"
  | integer => "an integer"
  | number => "a number"
  | float => "a float"
  | string => "a string"
  | base64 => "a base64 string"
  | bytes => "bytes"
  | list => "a list"
  | strings => "a list of strings"
  | integers => "a list of integers"
  | numbers => "a list of numbers"
  | floats => "a list of floats"
  | object => "an object"
  | objects => "a list of objects"

/-- Why the content of a field is refused although its shape is right. -/
inductive FieldFault
  | unknownLevel (name : String)
  | notFinite (x : Binary64)
  | notBase64
deriving DecidableEq

def FieldFault.message : FieldFault → String
  | unknownLevel name => LogLevel.unknownMessage name
  | notFinite x => s!"{String.ofList (Decimal.text Decimal.plain x)} is not representable in JSON"
  | notBase64 => "not a canonical base64 text"

inductive CodecError
  | unknownType (tag : String)
  | typeMismatch (expected found : String)
  | missingTypeTag
  | missingField (field : String)
  | wrongFieldType (field : String) (expected : Shape)
  | invalidField (field : String) (fault : FieldFault)
  | notAnObject
  | malformedJson
  | malformedMessagePack
deriving DecidableEq

namespace CodecError

/-- The name of a kind of error. -/
def kind : CodecError → String
  | unknownType _ => "UnknownType"
  | typeMismatch _ _ => "TypeMismatch"
  | missingTypeTag => "MissingTypeTag"
  | missingField _ => "MissingField"
  | wrongFieldType _ _ => "WrongFieldType"
  | invalidField _ _ => "InvalidField"
  | notAnObject => "NotAnObject"
  | malformedJson => "Json"
  | malformedMessagePack => "MsgPackDecode"

def message : CodecError → String
  | unknownType tag => s!"unknown type tag '{tag}'"
  | typeMismatch expected found => s!"expected type '{expected}', found '{found}'"
  | missingTypeTag => "object has no type tag"
  | missingField field => s!"missing field '{field}'"
  | wrongFieldType field expected => s!"field '{field}' is not {expected.text}"
  | invalidField field fault => s!"field '{field}': {fault.message}"
  | notAnObject => "root value is not an object"
  | malformedJson => "malformed JSON text"
  | malformedMessagePack => "malformed MessagePack"

end CodecError

end Switchboard
