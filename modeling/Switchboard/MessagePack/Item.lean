import Switchboard.Decimal.Binary64
import Switchboard.Text.Utf8

/-!
# MessagePack items

The values of the MessagePack format and their bytes. Writing uses the shortest header for a length and the shortest
form for an integer. Reading takes any header; it returns the item and the bytes behind it. A signed and an unsigned
integer stay apart, since only the latter can number a field.
-/

namespace Switchboard.MessagePack

inductive Item
  | nil
  | bool (b : Bool)
  | unsigned (n : Nat)
  | signed (n : Int)
  | single (bits : UInt32)
  | double (x : Binary64)
  | str (b : Bytes)
  | bin (b : Bytes)
  | array (items : List Item)
  | map (entries : List (Item × Item))
  | ext (kind : UInt8) (data : Bytes)
deriving Inhabited

/-- An integer, unsigned unless it is negative. -/
def Item.ofInt (n : Int) : Item := if n < 0 then .signed n else .unsigned n.toNat

/-- A text as a string item. -/
def Item.ofText (s : String) : Item := .str (Utf8.encode s)

/-! ### Writing -/

/-- The lowest `count` bytes of a number, the highest of them first. -/
def bigEndian : (count : Nat) → Nat → Bytes
  | 0, _ => []
  | count + 1, n => UInt8.ofNat (n / Nat.pow 256 count % 256) :: bigEndian count n

/-- A header byte with a number of `count` bytes behind it. -/
def header (byte : UInt8) (count n : Nat) : Bytes := byte :: bigEndian count n

def writeUnsigned (n : Nat) : Bytes :=
  if n < 128 then [UInt8.ofNat n]
  else if n < 256 then header 0xcc 1 n
  else if n < 65536 then header 0xcd 2 n
  else if n < 4294967296 then header 0xce 4 n
  else header 0xcf 8 n

def writeNegative (n : Int) : Bytes :=
  if -32 ≤ n then [UInt8.ofNat (n + 256).toNat]
  else if -128 ≤ n then header 0xd0 1 (n + 256).toNat
  else if -32768 ≤ n then header 0xd1 2 (n + 65536).toNat
  else if -2147483648 ≤ n then header 0xd2 4 (n + 4294967296).toNat
  else header 0xd3 8 (n + UInt64.size).toNat

def strHeader (n : Nat) : Bytes :=
  if n < 32 then [UInt8.ofNat (0xa0 + n)]
  else if n < 256 then header 0xd9 1 n
  else if n < 65536 then header 0xda 2 n
  else header 0xdb 4 n

def binHeader (n : Nat) : Bytes :=
  if n < 256 then header 0xc4 1 n
  else if n < 65536 then header 0xc5 2 n
  else header 0xc6 4 n

def arrayHeader (n : Nat) : Bytes :=
  if n < 16 then [UInt8.ofNat (0x90 + n)]
  else if n < 65536 then header 0xdc 2 n
  else header 0xdd 4 n

def mapHeader (n : Nat) : Bytes :=
  if n < 16 then [UInt8.ofNat (0x80 + n)]
  else if n < 65536 then header 0xde 2 n
  else header 0xdf 4 n

def extHeader (kind : UInt8) (n : Nat) : Bytes :=
  if n = 1 then [0xd4, kind]
  else if n = 2 then [0xd5, kind]
  else if n = 4 then [0xd6, kind]
  else if n = 8 then [0xd7, kind]
  else if n = 16 then [0xd8, kind]
  else if n < 256 then header 0xc7 1 n ++ [kind]
  else if n < 65536 then header 0xc8 2 n ++ [kind]
  else header 0xc9 4 n ++ [kind]

mutual
/-- The bytes of an item. -/
def Item.write : Item → Bytes
  | .nil => [0xc0]
  | .bool false => [0xc2]
  | .bool true => [0xc3]
  | .unsigned n => writeUnsigned n
  | .signed n => if n < 0 then writeNegative n else writeUnsigned n.toNat
  | .single bits => header 0xca 4 bits.toNat
  | .double x => header 0xcb 8 x.bits.toNat
  | .str b => strHeader b.length ++ b
  | .bin b => binHeader b.length ++ b
  | .array items => arrayHeader items.length ++ writeItems items
  | .map entries => mapHeader entries.length ++ writeEntries entries
  | .ext kind data => extHeader kind data.length ++ data

def writeItems : List Item → Bytes
  | [] => []
  | i :: r => i.write ++ writeItems r

def writeEntries : List (Item × Item) → Bytes
  | [] => []
  | (k, v) :: r => k.write ++ v.write ++ writeEntries r
end

/-! ### Reading -/

/-- Splits off exactly `n` bytes. -/
def take? (n : Nat) (bs : Bytes) : Option (Bytes × Bytes) :=
  if n ≤ bs.length then some (bs.take n, bs.drop n) else none

/-- The number that a sequence of bytes spells, the highest byte first. -/
def natOfBytes (bs : Bytes) : Nat := bs.foldl (fun n b => n * 256 + b.toNat) 0

/-- Reads a number of `count` bytes. -/
def number? (count : Nat) (bs : Bytes) : Option (Nat × Bytes) := do
  let (b, rest) ← take? count bs
  some (natOfBytes b, rest)

/-- Reads a length of `count` bytes and as many bytes as it says. -/
def sized? (count : Nat) (bs : Bytes) : Option (Bytes × Bytes) := do
  let (n, rest) ← number? count bs
  take? n rest

/-- A number of `count` bytes as a signed integer. -/
def toSigned (count n : Nat) : Int := if 2 * n < Nat.pow 256 count then n else (n : Int) - Nat.pow 256 count

/-- Reads items one after another. -/
def readItems? (item? : Bytes → Option (Item × Bytes)) : (count : Nat) → Bytes → Option (List Item × Bytes)
  | 0, bs => some ([], bs)
  | count + 1, bs => do
    let (i, bs) ← item? bs
    let (is, bs) ← readItems? item? count bs
    some (i :: is, bs)

/-- Reads pairs of items one after another. -/
def readEntries? (item? : Bytes → Option (Item × Bytes)) :
    (count : Nat) → Bytes → Option (List (Item × Item) × Bytes)
  | 0, bs => some ([], bs)
  | count + 1, bs => do
    let (k, bs) ← item? bs
    let (v, bs) ← item? bs
    let (es, bs) ← readEntries? item? count bs
    some ((k, v) :: es, bs)

/-- Reads an extension of a known length. -/
def ext? (length : Nat) (bs : Bytes) : Option (Item × Bytes) :=
  match bs with
  | [] => none
  | kind :: bs => (take? length bs).map fun (data, bs) => (.ext kind data, bs)

/-- Reads one item. The first argument bounds how deep items nest. -/
def read? : (nesting : Nat) → Bytes → Option (Item × Bytes)
  | 0, _ => none
  | _, [] => none
  | nesting + 1, head :: bs =>
    let h := head.toNat
    let items n (bs : Bytes) := (readItems? (read? nesting) n bs).map fun (is, bs) => (Item.array is, bs)
    let entries n (bs : Bytes) := (readEntries? (read? nesting) n bs).map fun (es, bs) => (Item.map es, bs)
    let unsigned count := (number? count bs).map fun (n, bs) => (Item.unsigned n, bs)
    let signed count := (number? count bs).map fun (n, bs) => (Item.signed (toSigned count n), bs)
    let str count := (sized? count bs).map fun (b, bs) => (Item.str b, bs)
    let bin count := (sized? count bs).map fun (b, bs) => (Item.bin b, bs)
    if h < 0x80 then some (.unsigned h, bs)
    else if h < 0x90 then entries (h - 0x80) bs
    else if h < 0xa0 then items (h - 0x90) bs
    else if h < 0xc0 then (take? (h - 0xa0) bs).map fun (b, bs) => (.str b, bs)
    else if 0xe0 ≤ h then some (.signed ((h : Int) - 256), bs)
    else match h with
      | 0xc0 => some (.nil, bs)
      | 0xc2 => some (.bool false, bs)
      | 0xc3 => some (.bool true, bs)
      | 0xc4 => bin 1
      | 0xc5 => bin 2
      | 0xc6 => bin 4
      | 0xc7 => number? 1 bs >>= fun (n, bs) => ext? n bs
      | 0xc8 => number? 2 bs >>= fun (n, bs) => ext? n bs
      | 0xc9 => number? 4 bs >>= fun (n, bs) => ext? n bs
      | 0xca => (number? 4 bs).map fun (n, bs) => (.single (UInt32.ofNat n), bs)
      | 0xcb => (number? 8 bs).map fun (n, bs) => (.double ⟨UInt64.ofNat n⟩, bs)
      | 0xcc => unsigned 1
      | 0xcd => unsigned 2
      | 0xce => unsigned 4
      | 0xcf => unsigned 8
      | 0xd0 => signed 1
      | 0xd1 => signed 2
      | 0xd2 => signed 4
      | 0xd3 => signed 8
      | 0xd4 => ext? 1 bs
      | 0xd5 => ext? 2 bs
      | 0xd6 => ext? 4 bs
      | 0xd7 => ext? 8 bs
      | 0xd8 => ext? 16 bs
      | 0xd9 => str 1
      | 0xda => str 2
      | 0xdb => str 4
      | 0xdc => number? 2 bs >>= fun (n, bs) => items n bs
      | 0xdd => number? 4 bs >>= fun (n, bs) => items n bs
      | 0xde => number? 2 bs >>= fun (n, bs) => entries n bs
      | 0xdf => number? 4 bs >>= fun (n, bs) => entries n bs
      | _ => none

mutual
/-- How many arrays, maps and extensions enclose the innermost item, the item itself included. -/
def Item.nesting : Item → Nat
  | .array items => nestingItems items + 1
  | .map entries => nestingEntries entries + 1
  | .ext _ _ => 1
  | _ => 0

def nestingItems : List Item → Nat
  | [] => 0
  | i :: r => max i.nesting (nestingItems r)

def nestingEntries : List (Item × Item) → Nat
  | [] => 0
  | (k, v) :: r => max (max k.nesting v.nesting) (nestingEntries r)
end

end Switchboard.MessagePack
