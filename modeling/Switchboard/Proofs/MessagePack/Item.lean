import Switchboard.MessagePack.Item

/-!
# Reading what was written, item by item

An item that fits the format reads back from its bytes, whatever stands behind them (`read?_write`). The cases are the
writers: each of them picks one of a few headers by size, and the reader of that header gets the size back.
-/

namespace Switchboard.MessagePack

/-! ### Numbers as bytes -/

@[simp] theorem length_bigEndian (count n : Nat) : (bigEndian count n).length = count := by
  induction count with
  | zero => rfl
  | succ count ih => simp [bigEndian, ih]

private theorem foldl_bigEndian (count n start : Nat) :
    (bigEndian count n).foldl (fun n b => n * 256 + b.toNat) start =
      start * Nat.pow 256 count + n % Nat.pow 256 count := by
  induction count generalizing start with
  | zero => simp [bigEndian, Nat.mod_one]
  | succ count ih =>
    have hbyte : (UInt8.ofNat (n / Nat.pow 256 count % 256)).toNat = n / Nat.pow 256 count % 256 := by
      simp
    have hpow : Nat.pow 256 (count + 1) = Nat.pow 256 count * 256 := rfl
    have hsplit : n % Nat.pow 256 (count + 1) =
        n / Nat.pow 256 count % 256 * Nat.pow 256 count + n % Nat.pow 256 count := by
      rw [hpow, Nat.mod_mul, Nat.mul_comm (Nat.pow 256 count), Nat.add_comm]
    rw [bigEndian, List.foldl_cons, ih, hbyte, hsplit, hpow, Nat.add_mul]
    simp only [Nat.mul_assoc, Nat.mul_comm 256, Nat.add_assoc]

/-- A number reads back from its bytes if there are enough of them. -/
theorem natOfBytes_bigEndian {count n : Nat} (h : n < Nat.pow 256 count) : natOfBytes (bigEndian count n) = n := by
  rw [natOfBytes, foldl_bigEndian, Nat.mod_eq_of_lt h]
  omega

theorem take?_append (b rest : Bytes) : take? b.length (b ++ rest) = some (b, rest) := by
  simp [take?]

theorem number?_bigEndian {count n : Nat} (h : n < Nat.pow 256 count) (rest : Bytes) :
    number? count (bigEndian count n ++ rest) = some (n, rest) := by
  have htake := take?_append (bigEndian count n) rest
  rw [length_bigEndian] at htake
  simp [number?, htake, natOfBytes_bigEndian h]

theorem sized?_bigEndian {count : Nat} {b : Bytes} (h : b.length < Nat.pow 256 count) (rest : Bytes) :
    sized? count (bigEndian count b.length ++ (b ++ rest)) = some (b, rest) := by
  simp [sized?, number?_bigEndian h, take?_append]

/-- A negative number reads back from its two's complement. -/
theorem toSigned_complement {count : Nat} {n : Int} (hlow : -(Nat.pow 256 count : Nat) ≤ 2 * n) (hneg : n < 0) :
    toSigned count (n + (Nat.pow 256 count : Nat)).toNat = n := by
  unfold toSigned
  split <;> omega

/-! ### Items that fit the format -/

mutual
/-- The integers fit 64 bits and the lengths fit 32 bits. A signed integer is negative, as writing makes it. -/
def Item.Fits : Item → Prop
  | .unsigned n => n < UInt64.size
  | .signed n => Int64.minValue.toInt ≤ n ∧ n < 0
  | .str b => b.length < UInt32.size
  | .bin b => b.length < UInt32.size
  | .array items => items.length < UInt32.size ∧ FitsItems items
  | .map entries => entries.length < UInt32.size ∧ FitsEntries entries
  | .ext _ data => data.length < UInt32.size
  | _ => True

def FitsItems : List Item → Prop
  | [] => True
  | i :: r => i.Fits ∧ FitsItems r

def FitsEntries : List (Item × Item) → Prop
  | [] => True
  | (k, v) :: r => k.Fits ∧ v.Fits ∧ FitsEntries r
end

/-! ### Integers -/

section
variable {n : Nat} {room : Nat}

private theorem toNat_ofNat {n : Nat} (h : n < 256) : (UInt8.ofNat n).toNat = n := by
  simp [Nat.mod_eq_of_lt h]

private theorem read?_header_unsigned {byte : UInt8} {count : Nat}
    (hread : ∀ bs, read? (room + 1) (byte :: bs) = (number? count bs).map fun (n, bs) => (Item.unsigned n, bs))
    (h : n < Nat.pow 256 count) (rest : Bytes) :
    read? (room + 1) (header byte count n ++ rest) = some (.unsigned n, rest) := by
  rw [header, List.cons_append, hread, number?_bigEndian h]
  rfl

theorem read?_writeUnsigned (h : n < UInt64.size) (rest : Bytes) :
    read? (room + 1) (writeUnsigned n ++ rest) = some (.unsigned n, rest) := by
  unfold writeUnsigned
  split
  · rename_i hn
    simp [read?, Nat.mod_eq_of_lt (Nat.lt_trans hn (by decide : 128 < 256)), hn]
  · split
    · exact read?_header_unsigned (fun _ => rfl) (by omega) rest
    · split
      · exact read?_header_unsigned (fun _ => rfl) (by omega) rest
      · split
        · exact read?_header_unsigned (fun _ => rfl) (by omega) rest
        · exact read?_header_unsigned (fun _ => rfl) (by omega) rest

private theorem read?_header_signed {byte : UInt8} {count size : Nat} {n : Int} (hsize : Nat.pow 256 count = size)
    (hread : ∀ bs, read? (room + 1) (byte :: bs) =
      (number? count bs).map fun (n, bs) => (Item.signed (toSigned count n), bs))
    (hlow : -(size : Int) ≤ 2 * n) (hneg : n < 0) (rest : Bytes) :
    read? (room + 1) (header byte count (n + size).toNat ++ rest) = some (.signed n, rest) := by
  subst hsize
  rw [header, List.cons_append, hread, number?_bigEndian (by omega), Option.map_some]
  simp only [toSigned_complement hlow hneg]

theorem read?_writeNegative {n : Int} (hlow : Int64.minValue.toInt ≤ n) (hneg : n < 0) (rest : Bytes) :
    read? (room + 1) (writeNegative n ++ rest) = some (.signed n, rest) := by
  have hmin : Int64.minValue.toInt = -9223372036854775808 := rfl
  have h1 : Nat.pow 256 1 = 256 := rfl
  have h2 : Nat.pow 256 2 = 65536 := rfl
  have h4 : Nat.pow 256 4 = 4294967296 := rfl
  have h8 : Nat.pow 256 8 = UInt64.size := rfl
  have hmax : (UInt64.size : Int) = 18446744073709551616 := rfl
  unfold writeNegative
  split
  · rename_i hn
    have hbyte : (UInt8.ofNat (n + 256).toNat).toNat = (n + 256).toNat := toNat_ofNat (by omega)
    have hhead : 0xe0 ≤ (n + 256).toNat := by omega
    have hvalue : (((n + 256).toNat : Nat) : Int) - 256 = n := by omega
    simp only [List.cons_append, List.nil_append, read?, hbyte]
    -- the byte is in the last of the ranges of first bytes that `read?` tells apart
    rw [if_neg (by omega), if_neg (by omega), if_neg (by omega), if_neg (by omega), if_pos hhead, hvalue]
  · split
    · exact read?_header_signed h1 (fun _ => rfl) (by omega) hneg rest
    · split
      · exact read?_header_signed h2 (fun _ => rfl) (by omega) hneg rest
      · split
        · exact read?_header_signed h4 (fun _ => rfl) (by omega) hneg rest
        · exact read?_header_signed h8 (fun _ => rfl) (by omega) hneg rest

/-! ### Sized items -/

private theorem read?_header_sized {byte : UInt8} {count : Nat} {b : Bytes} {make : Bytes → Item}
    (hread : ∀ bs, read? (room + 1) (byte :: bs) = (sized? count bs).map fun (b, bs) => (make b, bs))
    (h : b.length < Nat.pow 256 count) (rest : Bytes) :
    read? (room + 1) (header byte count b.length ++ (b ++ rest)) = some (make b, rest) := by
  rw [header, List.cons_append, hread, sized?_bigEndian h]
  rfl

theorem read?_strHeader {b : Bytes} (h : b.length < UInt32.size) (rest : Bytes) :
    read? (room + 1) (strHeader b.length ++ (b ++ rest)) = some (.str b, rest) := by
  unfold strHeader
  split
  · rename_i hn
    have hbyte : (UInt8.ofNat (0xa0 + b.length)).toNat = 0xa0 + b.length := toNat_ofNat (by omega)
    have hlength : 0xa0 + b.length - 0xa0 = b.length := by omega
    simp only [List.cons_append, List.nil_append, read?, hbyte]
    rw [if_neg (by omega), if_neg (by omega), if_neg (by omega), if_pos (by omega), hlength, take?_append]
    rfl
  · split
    · exact read?_header_sized (fun _ => rfl) (by omega) rest
    · split
      · exact read?_header_sized (fun _ => rfl) (by omega) rest
      · exact read?_header_sized (fun _ => rfl) (by omega) rest

theorem read?_binHeader {b : Bytes} (h : b.length < UInt32.size) (rest : Bytes) :
    read? (room + 1) (binHeader b.length ++ (b ++ rest)) = some (.bin b, rest) := by
  unfold binHeader
  split
  · exact read?_header_sized (fun _ => rfl) (by omega) rest
  · split
    · exact read?_header_sized (fun _ => rfl) (by omega) rest
    · exact read?_header_sized (fun _ => rfl) (by omega) rest

/-! ### Counted items -/

private theorem read?_header_counted {byte : UInt8} (count : Nat) {next : Nat × Bytes → Option (Item × Bytes)}
    (hread : ∀ bs, read? (room + 1) (byte :: bs) = number? count bs >>= next) (h : n < Nat.pow 256 count)
    (rest : Bytes) :
    read? (room + 1) (header byte count n ++ rest) = next (n, rest) := by
  rw [header, List.cons_append, hread, number?_bigEndian h]
  rfl

theorem read?_arrayHeader (h : n < UInt32.size) (rest : Bytes) :
    read? (room + 1) (arrayHeader n ++ rest) =
      (readItems? (read? room) n rest).map fun (is, bs) => (.array is, bs) := by
  unfold arrayHeader
  split
  · rename_i hn
    have hbyte : (UInt8.ofNat (0x90 + n)).toNat = 0x90 + n := toNat_ofNat (by omega)
    have hlength : 0x90 + n - 0x90 = n := by omega
    simp only [List.cons_append, List.nil_append, read?, hbyte]
    rw [if_neg (by omega), if_neg (by omega), if_pos (by omega), hlength]
  · split
    · have hread : ∀ bs, read? (room + 1) (0xdc :: bs) =
          number? 2 bs >>= fun (n, bs) => (readItems? (read? room) n bs).map fun (is, bs) => (Item.array is, bs) :=
        fun _ => rfl
      exact read?_header_counted 2 hread (by omega) rest
    · have hread : ∀ bs, read? (room + 1) (0xdd :: bs) =
          number? 4 bs >>= fun (n, bs) => (readItems? (read? room) n bs).map fun (is, bs) => (Item.array is, bs) :=
        fun _ => rfl
      exact read?_header_counted 4 hread (by omega) rest

theorem read?_mapHeader (h : n < UInt32.size) (rest : Bytes) :
    read? (room + 1) (mapHeader n ++ rest) =
      (readEntries? (read? room) n rest).map fun (es, bs) => (.map es, bs) := by
  unfold mapHeader
  split
  · rename_i hn
    have hbyte : (UInt8.ofNat (0x80 + n)).toNat = 0x80 + n := toNat_ofNat (by omega)
    have hlength : 0x80 + n - 0x80 = n := by omega
    simp only [List.cons_append, List.nil_append, read?, hbyte]
    rw [if_neg (by omega), if_pos (by omega), hlength]
  · split
    · have hread : ∀ bs, read? (room + 1) (0xde :: bs) =
          number? 2 bs >>= fun (n, bs) => (readEntries? (read? room) n bs).map fun (es, bs) => (Item.map es, bs) :=
        fun _ => rfl
      exact read?_header_counted 2 hread (by omega) rest
    · have hread : ∀ bs, read? (room + 1) (0xdf :: bs) =
          number? 4 bs >>= fun (n, bs) => (readEntries? (read? room) n bs).map fun (es, bs) => (Item.map es, bs) :=
        fun _ => rfl
      exact read?_header_counted 4 hread (by omega) rest

theorem read?_extHeader {data : Bytes} (h : data.length < UInt32.size) (kind : UInt8) (rest : Bytes) :
    read? (room + 1) (extHeader kind data.length ++ (data ++ rest)) = some (.ext kind data, rest) := by
  have hext : ∀ length, length = data.length →
      ext? length (kind :: (data ++ rest)) = some (.ext kind data, rest) := by
    rintro _ rfl
    simp only [ext?, take?_append, Option.map_some]
  unfold extHeader
  split
  · rename_i hn
    exact hext 1 hn.symm
  · split
    · rename_i hn
      exact hext 2 hn.symm
    · split
      · rename_i hn
        exact hext 4 hn.symm
      · split
        · rename_i hn
          exact hext 8 hn.symm
        · split
          · rename_i hn
            exact hext 16 hn.symm
          · have hcounted : ∀ {byte : UInt8} (count : Nat),
                (∀ bs, read? (room + 1) (byte :: bs) = number? count bs >>= fun (n, bs) => ext? n bs) →
                data.length < Nat.pow 256 count →
                read? (room + 1) (header byte count data.length ++ [kind] ++ (data ++ rest)) =
                  some (.ext kind data, rest) := fun count hread hn => by
              rw [List.append_assoc, read?_header_counted count hread hn]
              exact hext data.length rfl
            split
            · exact hcounted 1 (fun _ => rfl) (by omega)
            · split
              · exact hcounted 2 (fun _ => rfl) (by omega)
              · exact hcounted 4 (fun _ => rfl) (by omega)

end

/-! ### All items -/

private theorem length_header_pos {h : Bytes} (hne : h ≠ []) (b : Bytes) : b.length < (h ++ b).length := by
  have hpos := List.length_pos_iff.2 hne
  rw [List.length_append]
  omega

/-- No item is written as nothing: it starts with a byte that says what it is. -/
theorem Item.write_ne_nil (i : Item) : i.write ≠ [] := by
  cases i with
  | bool b => cases b <;> exact List.cons_ne_nil _ _
  | unsigned n => grind [Item.write, writeUnsigned, header]
  | signed n => grind [Item.write, writeUnsigned, writeNegative, header]
  | str b => grind [Item.write, strHeader, header]
  | bin b => grind [Item.write, binHeader, header]
  | array items => grind [Item.write, arrayHeader, header]
  | map entries => grind [Item.write, mapHeader, header]
  | ext kind data => grind [Item.write, extHeader, header]
  | _ => exact List.cons_ne_nil _ _

theorem arrayHeader_ne_nil (n : Nat) : arrayHeader n ≠ [] := by grind [arrayHeader, header]

theorem mapHeader_ne_nil (n : Nat) : mapHeader n ≠ [] := by grind [mapHeader, header]

mutual
/-- An item that fits the format reads back from its bytes. The bytes themselves are room enough for its nesting. -/
theorem Item.read?_write (i : Item) (h : i.Fits) {room : Nat} (hroom : i.write.length ≤ room) (rest : Bytes) :
    read? room (i.write ++ rest) = some (i, rest) := by
  obtain ⟨room, rfl⟩ : ∃ n, room = n + 1 :=
    Nat.exists_eq_succ_of_ne_zero (Nat.ne_of_gt (Nat.lt_of_lt_of_le (List.length_pos_iff.2 i.write_ne_nil) hroom))
  cases i with
  | nil => rfl
  | bool b => cases b <;> rfl
  | unsigned n => exact read?_writeUnsigned h rest
  | signed n =>
    rw [Item.write, if_pos h.2]
    exact read?_writeNegative h.1 h.2 rest
  | single bits =>
    have hread : ∀ bs, read? (room + 1) (0xca :: bs) =
        (number? 4 bs).map fun (n, bs) => (.single (UInt32.ofNat n), bs) := fun _ => rfl
    rw [Item.write, header, List.cons_append, hread, number?_bigEndian bits.toNat_lt]
    simp
  | double x =>
    have hread : ∀ bs, read? (room + 1) (0xcb :: bs) =
        (number? 8 bs).map fun (n, bs) => (.double ⟨UInt64.ofNat n⟩, bs) := fun _ => rfl
    rw [Item.write, header, List.cons_append, hread, number?_bigEndian x.bits.toNat_lt]
    simp
  | str b =>
    rw [Item.write, List.append_assoc]
    exact read?_strHeader h rest
  | bin b =>
    rw [Item.write, List.append_assoc]
    exact read?_binHeader h rest
  | array items =>
    have hitems : (writeItems items).length ≤ room := by
      have hlt := length_header_pos (arrayHeader_ne_nil items.length) (writeItems items)
      rw [Item.write] at hroom
      omega
    rw [Item.write, List.append_assoc, read?_arrayHeader h.1, readItems?_write items h.2 hitems rest]
    rfl
  | map entries =>
    have hentries : (writeEntries entries).length ≤ room := by
      have hlt := length_header_pos (mapHeader_ne_nil entries.length) (writeEntries entries)
      rw [Item.write] at hroom
      omega
    rw [Item.write, List.append_assoc, read?_mapHeader h.1, readEntries?_write entries h.2 hentries rest]
    rfl
  | ext kind data =>
    rw [Item.write, List.append_assoc]
    exact read?_extHeader h kind rest

theorem readItems?_write (l : List Item) (h : FitsItems l) {room : Nat} (hroom : (writeItems l).length ≤ room)
    (rest : Bytes) : readItems? (read? room) l.length (writeItems l ++ rest) = some (l, rest) := by
  cases l with
  | nil => rfl
  | cons i l =>
    rw [writeItems, List.length_append] at hroom
    have hl : (writeItems l).length ≤ room := by omega
    rw [writeItems, List.append_assoc, List.length_cons, readItems?, i.read?_write h.1 (by omega)]
    simp [readItems?_write l h.2 hl rest]

theorem readEntries?_write (l : List (Item × Item)) (h : FitsEntries l) {room : Nat}
    (hroom : (writeEntries l).length ≤ room) (rest : Bytes) :
    readEntries? (read? room) l.length (writeEntries l ++ rest) = some (l, rest) := by
  match l with
  | [] => rfl
  | (k, v) :: l =>
    rw [writeEntries, List.length_append, List.length_append] at hroom
    have hv : v.write.length ≤ room := by omega
    have hl : (writeEntries l).length ≤ room := by omega
    rw [writeEntries, List.append_assoc, List.append_assoc, List.length_cons, readEntries?,
      k.read?_write h.1 (by omega)]
    simp [v.read?_write h.2.1 hv, readEntries?_write l h.2.2 hl rest]
end

end Switchboard.MessagePack
