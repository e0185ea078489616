import Switchboard.Proofs.Held
import Switchboard.Proofs.Json.Record

/-!
# The members of any record

A record has the members that it holds fields for, and its tag if it holds nothing under that name (`get?_members`).
So its members are those of its canonical form (`members_canonical`), and they are not higher than the record nests,
whatever its names are (`height_members_le`). A record is read from its text as its members (`read_print_members`).
-/

namespace Switchboard.Json

/-- A field takes the place of the tag, and of an earlier field of its name. -/
theorem get?_members (r : Record) (name : String) :
    Table.get? name (members r) =
      ((r.held? name).map value).or (if tagName = name then some (.str r.tag) else none) := by
  cases r with
  | mk tag fields =>
    rw [members, Table.get?_putAll, writes_eq_map]
    exact congrArg (Option.or · _) (Table.last?_map value name fields)

theorem get?_members_of_held {r : Record} {name : String} {f : Field} (h : r.held? name = some f) :
    Table.get? name (members r) = some (value f) := by
  rw [get?_members, h]
  rfl

/-! ### Canonical records -/

private theorem ordered_table_members (r : Record) : Table.Ordered (members r) := (ordered_members r).1

mutual
/-- The canonical form of a record has the same members. -/
theorem members_canonical (r : Record) : members r.canonical = members r := by
  match r with
  | .mk tag fields =>
    refine Table.Ordered.ext (ordered_table_members _) (ordered_table_members _) fun name => ?_
    have hheld : (Record.canonical (.mk tag fields)).held? name = (Table.last? name fields).map Field.canonical := by
      have hordered := Record.ordered_canonical (Record.mem_within_self (Record.canonical (.mk tag fields)))
      exact (hordered.last?_eq name).trans (Record.get?_fields_canonical _ name)
    have htag : (Record.canonical (.mk tag fields)).tag = tag := by rw [Record.canonical_eq]; rfl
    rw [get?_members, get?_members, hheld, htag]
    cases hlast : Table.last? name fields with
    | none =>
      have hnone : Record.held? (.mk tag fields) name = none := hlast
      rw [hnone]
      rfl
    | some f =>
      have hsome : Record.held? (.mk tag fields) name = some f := hlast
      rw [hsome, Option.map_some, Option.map_some, value_canonical_of_mem fields (Table.mem_of_last? hlast)]
      rfl

theorem value_canonical_of_mem (fields : List (String × Field)) {e : String × Field} (he : e ∈ fields) :
    value e.2.canonical = value e.2 := by
  match fields with
  | [] => cases he
  | (name, f) :: r =>
    rcases List.mem_cons.1 he with rfl | he
    · exact value_canonical f
    · exact value_canonical_of_mem r he

theorem value_canonical (f : Field) : value f.canonical = value f := by
  cases f with
  | object r => rw [Field.canonical, value, value, members_canonical r]
  | objectList l => rw [Field.canonical, value, value, values_canonical l]
  | _ => rfl

theorem values_canonical (l : List Record) : values (canonicalRecords l) = values l := by
  match l with
  | [] => rfl
  | r :: rs => rw [canonicalRecords, values, values, members_canonical r, values_canonical rs]
end

/-! ### Heights -/

theorem heightMembers_le_iff {ms : List (String × Json)} {n : Nat} :
    heightMembers ms ≤ n ↔ ∀ m ∈ ms, m.2.height ≤ n := by
  induction ms with
  | nil => simp [heightMembers]
  | cons m r ih =>
    obtain ⟨k, v⟩ := m
    simp [heightMembers, ih]

mutual
/-- The members of a record are not higher than the record nests. -/
theorem height_members_le (r : Record) : (obj (members r)).height ≤ Codec.json.nesting r := by
  match r with
  | .mk tag fields =>
    rw [members, height]
    refine Nat.succ_le_succ (heightMembers_le_iff.2 fun m hm => ?_)
    rcases Table.mem_putAll hm with hm | hm
    · exact heightMembers_le_iff.1 (heightMembers_writes_le fields) m hm
    · rw [List.mem_singleton.1 hm]
      exact Nat.zero_le _

theorem heightMembers_writes_le (fields : List (String × Field)) :
    heightMembers (writes fields) ≤ Codec.json.nestingFields fields := by
  match fields with
  | [] => exact Nat.le_refl _
  | (name, f) :: r =>
    have hf := height_value_le f
    have hr := heightMembers_writes_le r
    rw [writes, heightMembers, Codec.nestingFields]
    omega

theorem height_value_le (f : Field) : (value f).height ≤ Codec.json.nestingField f := by
  cases f with
  | strList l => exact Nat.succ_le_succ (Nat.le_of_eq (heightItems_map (fun _ => rfl) l))
  | intList l => exact Nat.succ_le_succ (Nat.le_of_eq (heightItems_map (fun _ => rfl) l))
  | floatList l => exact Nat.succ_le_succ (Nat.le_of_eq (heightItems_map (fun _ => rfl) l))
  | object r => exact height_members_le r
  | objectList l => exact Nat.succ_le_succ (heightItems_values_le l)
  | _ => exact Nat.le_refl _

theorem heightItems_values_le (l : List Record) : heightItems (values l) ≤ Codec.json.nestingRecords l := by
  match l with
  | [] => exact Nat.le_refl _
  | r :: rs =>
    have hr := height_members_le r
    have hrs := heightItems_values_le rs
    rw [values, heightItems, Codec.nestingRecords]
    omega
end

/-! ### Texts -/

/-- A record is read from its text as its members. -/
theorem read_print_members {r : Record} (hfloats : ∀ x ∈ r.floats, FloatReadsBack x)
    (hdeep : Codec.json.nesting r.canonical ≤ maxNesting) :
    Codec.json.read (Utf8.encodeChars (obj (members r)).print) = .ok (.json (members r)) := by
  have hheight : (obj (members r)).height ≤ maxNesting := by
    rw [← members_canonical]
    exact Nat.le_trans (height_members_le _) hdeep
  rw [Codec.read, parseBytes?_print (ordered_members r) (readsBack_members r hfloats) hheight]

end Switchboard.Json
