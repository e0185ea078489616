/-!
# Correlation ids

A correlation id ties replies to their request. Its text is a UUID: hyphenated, bare, in braces, or as a URN. Letters
of either case will do, and the text is kept as given.
-/

namespace Switchboard

structure CorrelationId where
  text : String
deriving DecidableEq, Repr, Inhabited

namespace CorrelationId

def isHexDigit (c : Char) : Bool :=
  c.isDigit || ('a' ≤ c && c ≤ 'f') || ('A' ≤ c && c ≤ 'F')

/-- 32 hexadecimal digits. -/
def isBare (cs : List Char) : Bool := cs.length == 32 && cs.all isHexDigit

/-- Hexadecimal digits in groups of 8, 4, 4, 4 and 12 with hyphens between them. -/
def isHyphenated (cs : List Char) : Bool :=
  cs.length == 36 && cs[8]? == some '-' && cs[13]? == some '-' && cs[18]? == some '-' && cs[23]? == some '-' &&
    (cs.take 8 ++ (cs.drop 9).take 4 ++ (cs.drop 14).take 4 ++ (cs.drop 19).take 4 ++ cs.drop 24).all isHexDigit

/-- What the URN of a UUID starts with. -/
def urnHead : List Char := "urn:uuid:".toList

/-- Whether the text starts as the URN of a UUID does. -/
def startsAsUrn (cs : List Char) : Bool := (cs.take urnHead.length).map Char.toLower == urnHead

/-- The text of a UUID in one of its four forms. -/
def isUuid (cs : List Char) : Bool :=
  isBare cs || isHyphenated cs ||
    (cs.head? == some '\x7b' && cs.getLast? == some '\x7d' && isHyphenated (cs.drop 1).dropLast) ||
    (startsAsUrn cs && isHyphenated (cs.drop urnHead.length))

/-- The id of a text, if the text is a UUID. -/
def parse? (text : String) : Option CorrelationId := if isUuid text.toList then some ⟨text⟩ else none

end CorrelationId

end Switchboard
