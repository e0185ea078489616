import Mathlib.Data.List.Basic
import Switchboard.Proofs.Lists
import Switchboard.Proofs.MessagePack.Item
import Switchboard.Proofs.Record
import Switchboard.Proofs.Utf8

/-!
# Reading records back from MessagePack

* (items) a record whose fields are in order, at every level, is read from the item that is written for it, as far as
  the reader lets it nest (`toRecord?_ofRecord`);
* (bytes) the item fits the format if the texts and lists in the record are shorter than 4 GiB (`fits_ofRecord`);
* (documents) so the bytes of a record are read as its canonical form (`decode?_encode`), which carries the record.
-/

namespace Switchboard.MessagePack

/-! ### Single values -/

theorem text?_ofText (s : String) : text? (.ofText s) = some s := Utf8.decode?_encode s

theorem int?_ofInt (n : Int64) : int? (.ofInt n.toInt) = some n := by
  have hlow := n.le_toInt
  have hhigh := n.toInt_lt
  unfold Item.ofInt
  split
  · simp [int?]
  · have hsmall : n.toInt.toNat < 1 <<< 63 := by omega
    have hvalue : (n.toInt.toNat : Int) = n.toInt := by omega
    simp only [int?]
    rw [if_pos hsmall, hvalue, Int64.ofInt_toInt]

theorem byte?_unsigned (b : UInt8) : byte? (.unsigned b.toNat) = some b := by
  simp [byte?, b.toNat_lt]

theorem Kind.ofItem?_ofText (k : Kind) : ofItem? (.ofText k.name) = some k := by
  cases k <;> decide +kernel

/-- A list of plain values reads back where there is room for it. -/
theorem list?_map {α : Type} {element? : Item → Option α} {write : α → Item} {room : Nat} (hroom : 1 ≤ room)
    (l : List α) (h : ∀ a ∈ l, element? (write a) = some a) :
    list? element? room (.array (l.map write)) = some l := by
  rw [list?, if_neg (by omega)]
  exact mapM_map_eq_pure h

/-! ### Records -/

mutual
/-- A record in order is read from its item where there is room for it. -/
theorem toRecord?_ofRecord (r : Record) (ho : ∀ q ∈ r.within, Table.Ordered q.fields) {room : Nat}
    (hroom : Codec.messagePack.nesting r ≤ room) : toRecord? room (ofRecord r) = some r := by
  match r with
  | .mk tag fields =>
    have hdeep : Codec.messagePack.nestingFields fields + 2 ≤ room := hroom
    have htag : Part.ofItem? (.ofText tagName) = some .tag := by decide +kernel
    have hfields : Part.ofItem? (.ofText fieldsName) = some .fields := by decide +kernel
    have hcollect := collectFields?_ofFields [] fields (ho _ (Record.mem_within_self _))
      (fun q hq => ho q (List.mem_cons_of_mem _ hq)) (Nat.le_sub_of_add_le hdeep)
    rw [ofRecord, toRecord?, if_neg (by omega), partsOf?, htag]
    simp only [Option.isSome_none, Bool.false_eq_true, if_false, text?_ofText, Option.bind_eq_bind, Option.bind_some]
    rw [partsOf?, hfields]
    simp only [Option.isSome_none, Bool.false_eq_true, if_false, Option.bind_eq_bind]
    rw [toFields?, if_neg (by omega), Nat.sub_sub, hcollect]
    rfl

theorem collectFields?_ofFields (read fields : Table Field) (ho : Table.Ordered (read ++ fields))
    (hwithin : ∀ q ∈ withinFields fields, Table.Ordered q.fields) {room : Nat}
    (hroom : Codec.messagePack.nestingFields fields ≤ room) :
    collectFields? room read (ofFields fields) = some (read ++ fields) := by
  match fields with
  | [] => rw [ofFields, collectFields?, List.append_nil]
  | (name, f) :: r =>
    obtain ⟨hf, hr⟩ := Nat.max_le.1 hroom
    have hfield := toField?_ofField f (fun q hq => hwithin q (List.mem_append_left _ hq)) hf
    rw [ofFields, collectFields?, text?_ofText, Option.bind_eq_bind, Option.bind_some, hfield]
    rw [Option.bind_eq_bind, Option.bind_some, ho.put_append, collectFields?_ofFields (read ++ [(name, f)]) r
      (by simpa using ho) (fun q hq => hwithin q (List.mem_append_right _ hq)) hr]
    simp

theorem toField?_ofField (f : Field) (ho : ∀ q ∈ f.within, Table.Ordered q.fields) {room : Nat}
    (hroom : Codec.messagePack.nestingField f ≤ room) : toField? room (ofField f) = some f := by
  cases f with
  | bool b =>
    simp only [ofField, tagged, toField?, Kind.ofItem?_ofText]
    rfl
  | int n =>
    simp only [ofField, tagged, toField?, Kind.ofItem?_ofText, int?_ofInt]
    rfl
  | float x =>
    simp only [ofField, tagged, toField?, Kind.ofItem?_ofText]
    rfl
  | str s =>
    simp only [ofField, tagged, toField?, Kind.ofItem?_ofText, text?_ofText]
    rfl
  | bytes b =>
    have hpos : 1 ≤ room := hroom
    have hlist := list?_map hpos b fun x _ => byte?_unsigned x
    simp only [ofField, tagged, toField?, Kind.ofItem?_ofText, hlist]
    rfl
  | strList l =>
    have hpos : 1 ≤ room := hroom
    have hlist := list?_map hpos l fun s _ => text?_ofText s
    simp only [ofField, tagged, toField?, Kind.ofItem?_ofText, hlist]
    rfl
  | intList l =>
    have hpos : 1 ≤ room := hroom
    have hlist := list?_map hpos l fun n _ => int?_ofInt n
    simp only [ofField, tagged, toField?, Kind.ofItem?_ofText, hlist]
    rfl
  | floatList l =>
    have hfloat : ∀ x : Binary64, float? (.double x) = some x := fun _ => rfl
    have hpos : 1 ≤ room := hroom
    have hlist := list?_map hpos l fun x _ => hfloat x
    simp only [ofField, tagged, toField?, Kind.ofItem?_ofText, hlist]
    rfl
  | object r =>
    simp only [ofField, tagged, toField?, Kind.ofItem?_ofText, toRecord?_ofRecord r ho hroom]
    rfl
  | objectList l =>
    have hdeep : Codec.messagePack.nestingRecords l + 1 ≤ room := hroom
    simp only [ofField, tagged, toField?, Kind.ofItem?_ofText]
    rw [if_neg (by omega), toRecords?_ofRecords l ho (Nat.le_sub_of_add_le hdeep)]
    rfl

theorem toRecords?_ofRecords (l : List Record) (ho : ∀ q ∈ withinRecords l, Table.Ordered q.fields) {room : Nat}
    (hroom : Codec.messagePack.nestingRecords l ≤ room) : toRecords? room (ofRecords l) = some l := by
  match l with
  | [] => rw [ofRecords, toRecords?]
  | r :: rs =>
    obtain ⟨hr, hrs⟩ := Nat.max_le.1 hroom
    rw [ofRecords, toRecords?, toRecord?_ofRecord r (fun q hq => ho q (List.mem_append_left _ hq)) hr]
    rw [Option.bind_eq_bind, Option.bind_some,
      toRecords?_ofRecords rs (fun q hq => ho q (List.mem_append_right _ hq)) hrs]
    rfl
end

/-! ### Sizes -/

theorem length_ofFields (fields : List (String × Field)) : (ofFields fields).length = fields.length := by
  induction fields with
  | nil => rfl
  | cons e r ih =>
    obtain ⟨name, f⟩ := e
    rw [ofFields, List.length_cons, ih, List.length_cons]

theorem length_ofRecords (l : List Record) : (ofRecords l).length = l.length := by
  induction l with
  | nil => rfl
  | cons r rs ih => rw [ofRecords, List.length_cons, ih, List.length_cons]

/-- A text that is shorter than 4 GiB. -/
def FitsText (s : String) : Prop := (Utf8.encode s).length < UInt32.size

instance (s : String) : Decidable (FitsText s) := inferInstanceAs (Decidable ((Utf8.encode s).length < UInt32.size))

theorem fitsText_kind (k : Kind) : FitsText k.name := by
  cases k <;> decide +kernel

/-- The texts and lists in a field, those in nested records apart, are shorter than 4 GiB. -/
def FitsField : Field → Prop
  | .str s => FitsText s
  | .bytes b => b.length < UInt32.size
  | .strList l => l.length < UInt32.size ∧ ∀ s ∈ l, FitsText s
  | .intList l => l.length < UInt32.size
  | .floatList l => l.length < UInt32.size
  | .objectList l => l.length < UInt32.size
  | _ => True

instance (f : Field) : Decidable (FitsField f) :=
  match f with
  | .bool _ => isTrue trivial
  | .int _ => isTrue trivial
  | .float _ => isTrue trivial
  | .str s => inferInstanceAs (Decidable (FitsText s))
  | .bytes b => inferInstanceAs (Decidable (b.length < UInt32.size))
  | .strList l => inferInstanceAs (Decidable (l.length < UInt32.size ∧ ∀ s ∈ l, FitsText s))
  | .intList l => inferInstanceAs (Decidable (l.length < UInt32.size))
  | .floatList l => inferInstanceAs (Decidable (l.length < UInt32.size))
  | .object _ => isTrue trivial
  | .objectList l => inferInstanceAs (Decidable (l.length < UInt32.size))

structure FitsRecord (r : Record) : Prop where
  tag : FitsText r.tag
  count : r.fields.length < UInt32.size
  fields : ∀ e ∈ r.fields, FitsText e.1 ∧ FitsField e.2

instance (r : Record) : Decidable (FitsRecord r) :=
  decidable_of_iff (FitsText r.tag ∧ r.fields.length < UInt32.size ∧ ∀ e ∈ r.fields, FitsText e.1 ∧ FitsField e.2)
    ⟨fun ⟨htag, hcount, hfields⟩ => ⟨htag, hcount, hfields⟩, fun h => ⟨h.tag, h.count, h.fields⟩⟩

theorem fitsItems_iff {l : List Item} : FitsItems l ↔ ∀ i ∈ l, i.Fits := by
  induction l with
  | nil => simp [FitsItems]
  | cons i l ih => simp [FitsItems, ih]

/-- A list fits if it is not too long and each of its elements fits. -/
private theorem fits_tagged_array {α : Type} {write : α → Item} {l : List α} (k : Kind)
    (hlength : l.length < UInt32.size) (h : ∀ a ∈ l, (write a).Fits) : (tagged k (.array (l.map write))).Fits := by
  have hitems : FitsItems (l.map write) := fitsItems_iff.2 fun i hi => by
    obtain ⟨a, ha, rfl⟩ := List.mem_map.1 hi
    exact h a ha
  have hcount : (l.map write).length < UInt32.size := by rwa [List.length_map]
  exact ⟨(by simp [UInt32.size]), fitsText_kind k, ⟨hcount, hitems⟩, trivial⟩

private theorem fits_tagged {value : Item} (k : Kind) (h : value.Fits) : (tagged k value).Fits :=
  ⟨(by simp [UInt32.size]), fitsText_kind k, h, trivial⟩

theorem fits_ofInt (n : Int64) : (Item.ofInt n.toInt).Fits := by
  unfold Item.ofInt
  split
  · rename_i hneg
    exact ⟨n.minValue_le_toInt, hneg⟩
  · have hhigh := n.toInt_lt
    have hsmall : n.toInt.toNat < 18446744073709551616 := by omega
    exact hsmall

mutual
/-- The item of a record fits the format if the record does, at every level. -/
theorem fits_ofRecord (r : Record) (h : ∀ q ∈ r.within, FitsRecord q) : (ofRecord r).Fits := by
  match r with
  | .mk tag fields =>
    obtain ⟨htag, hcount, hfields⟩ := h _ (Record.mem_within_self _)
    have hentries := fits_ofFields fields hfields fun q hq => h q (List.mem_cons_of_mem _ hq)
    have hlength : (ofFields fields).length = fields.length := length_ofFields fields
    have htagName : FitsText tagName := by decide +kernel
    have hfieldsName : FitsText fieldsName := by decide +kernel
    rw [ofRecord]
    exact ⟨(by simp [UInt32.size]), htagName, htag, hfieldsName, ⟨hlength ▸ hcount, hentries⟩, trivial⟩

theorem fits_ofFields (fields : List (String × Field)) (h : ∀ e ∈ fields, FitsText e.1 ∧ FitsField e.2)
    (hwithin : ∀ q ∈ withinFields fields, FitsRecord q) : FitsEntries (ofFields fields) := by
  match fields with
  | [] => trivial
  | (name, f) :: r =>
    obtain ⟨hname, hf⟩ := h (name, f) List.mem_cons_self
    exact ⟨hname, fits_ofField f hf fun q hq => hwithin q (List.mem_append_left _ hq),
      fits_ofFields r (fun e he => h e (List.mem_cons_of_mem _ he)) fun q hq =>
        hwithin q (List.mem_append_right _ hq)⟩

theorem fits_ofField (f : Field) (h : FitsField f) (hwithin : ∀ q ∈ f.within, FitsRecord q) : (ofField f).Fits := by
  cases f with
  | bool b => exact fits_tagged .bool trivial
  | int n => exact fits_tagged .int (fits_ofInt n)
  | float x => exact fits_tagged .float trivial
  | str s => exact fits_tagged .str h
  | bytes b =>
    have hbyte : ∀ x : UInt8, (Item.unsigned x.toNat).Fits := fun x => Nat.lt_trans x.toNat_lt (by decide)
    exact fits_tagged_array .bytes h fun x _ => hbyte x
  | strList l => exact fits_tagged_array .strList h.1 h.2
  | intList l => exact fits_tagged_array .intList h fun n _ => fits_ofInt n
  | floatList l => exact fits_tagged_array .floatList h fun _ _ => trivial
  | object r => exact fits_tagged .object (fits_ofRecord r hwithin)
  | objectList l =>
    have hlength : (ofRecords l).length = l.length := length_ofRecords l
    have hcount : (ofRecords l).length < UInt32.size := hlength ▸ h
    exact fits_tagged .objectList ⟨hcount, fits_ofRecords l hwithin⟩

theorem fits_ofRecords (l : List Record) (hwithin : ∀ q ∈ withinRecords l, FitsRecord q) :
    FitsItems (ofRecords l) := by
  match l with
  | [] => trivial
  | r :: rs =>
    exact ⟨fits_ofRecord r fun q hq => hwithin q (List.mem_append_left _ hq),
      fits_ofRecords rs fun q hq => hwithin q (List.mem_append_right _ hq)⟩
end

end Switchboard.MessagePack
