import Switchboard.Json.Token
import Switchboard.Text.Utf8

/-!
# JSON texts

Printing is compact, with the members of an object in order of name. Reading follows the grammar strictly: nothing
but blanks around a value, no trailing commas, at most 127 arrays and objects inside one another. Of members with one
name the last counts.
-/

namespace Switchboard.Json

/-! ### Printing -/

mutual
/-- The tokens of a value. -/
def tokens : Json → List Token
  | .null => [.null]
  | .bool b => [.bool b]
  | .num n => [.num n]
  | .str s => [.str s.toList]
  | .arr items => .openArray :: itemTokens items
  | .obj members => .openObject :: memberTokens members

/-- The tokens of the items behind an opening bracket, up to the closing one. -/
def itemTokens : List Json → List Token
  | [] => [.closeArray]
  | [v] => v.tokens ++ [.closeArray]
  | v :: w :: r => v.tokens ++ .comma :: itemTokens (w :: r)

/-- The tokens of the members behind an opening brace, up to the closing one. -/
def memberTokens : List (String × Json) → List Token
  | [] => [.closeObject]
  | [(k, v)] => .str k.toList :: .colon :: v.tokens ++ [.closeObject]
  | (k, v) :: m :: r => .str k.toList :: .colon :: v.tokens ++ .comma :: memberTokens (m :: r)
end

/-- The text of a value. -/
def print (v : Json) : List Char := v.tokens.flatMap Token.text

/-- The text of a value. -/
def render (v : Json) : String := String.ofList v.print

/-! ### Reading -/

/-- How deep arrays and objects may nest. -/
def maxNesting : Nat := 127

/-- An array or object of which the end has not been read. -/
inductive Frame
  | items (read : List Json)
  | members (read : Table Json) (name : String)

/-- What may come next. -/
inductive Mode
  | value
  | valueOrClose
  | name
  | nameOrClose
  | colon
  | separator
  | done (v : Json)

/-- A reader between two tokens: what it waits for, and the open arrays and objects, innermost first. While a name
is awaited, the frame of its object holds the members read so far. -/
structure Reader where
  mode : Mode
  stack : List Frame

/-- Takes a finished value into the innermost open array or object. -/
def Reader.finish (v : Json) : List Frame → Reader
  | [] => ⟨.done v, []⟩
  | .items read :: stack => ⟨.separator, .items (read ++ [v]) :: stack⟩
  | .members read name :: stack => ⟨.separator, .members (Table.put name v read) name :: stack⟩

/-- Opens an array or object, if it is not nested too deep. -/
def Reader.enter? (mode : Mode) (frame : Frame) (stack : List Frame) : Option Reader :=
  if stack.length < maxNesting then some ⟨mode, frame :: stack⟩ else none

/-- Reads the first token of a value. -/
def Reader.value? (stack : List Frame) : Token → Option Reader
  | .null => some (finish .null stack)
  | .bool b => some (finish (.bool b) stack)
  | .num n => some (finish (.num n) stack)
  | .str s => some (finish (.str (String.ofList s)) stack)
  | .openArray => enter? .valueOrClose (.items []) stack
  | .openObject => enter? .nameOrClose (.members [] "") stack
  | _ => none

/-- Reads one token. -/
def Reader.step? (r : Reader) (t : Token) : Option Reader :=
  match r.mode, t, r.stack with
  | .value, t, stack => value? stack t
  | .valueOrClose, .closeArray, .items read :: stack => some (finish (.arr read) stack)
  | .valueOrClose, t, stack => value? stack t
  | .name, .str s, .members read _ :: stack => some ⟨.colon, .members read (String.ofList s) :: stack⟩
  | .nameOrClose, .str s, .members read _ :: stack => some ⟨.colon, .members read (String.ofList s) :: stack⟩
  | .nameOrClose, .closeObject, .members read _ :: stack => some (finish (.obj read) stack)
  | .colon, .colon, stack => some ⟨.value, stack⟩
  | .separator, .comma, .items read :: stack => some ⟨.value, .items read :: stack⟩
  | .separator, .closeArray, .items read :: stack => some (finish (.arr read) stack)
  | .separator, .comma, .members read name :: stack => some ⟨.name, .members read name :: stack⟩
  | .separator, .closeObject, .members read _ :: stack => some (finish (.obj read) stack)
  | _, _, _ => none

/-- The value that a sequence of tokens spells. -/
def ofTokens? (ts : List Token) : Option Json := do
  let r ← ts.foldlM Reader.step? ⟨.value, []⟩
  match r.mode with
  | .done v => some v
  | _ => none

/-- The value of a text, if it is one. -/
def parseChars? (cs : List Char) : Option Json := lex? cs >>= ofTokens?

/-- The value of a text, if it is one. -/
def parse? (s : String) : Option Json := parseChars? s.toList

/-- The value of a text given by its UTF-8 bytes. -/
def parseBytes? (bs : Bytes) : Option Json := Utf8.decodeChars? bs >>= parseChars?

end Switchboard.Json
