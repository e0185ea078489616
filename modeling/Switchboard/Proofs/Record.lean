import Switchboard.Codec.Basic
import Switchboard.Proofs.Table

/-!
# Records at every level

What is asked of a record is mostly asked of all the records inside it as well (`Record.within`). The canonical form
of a record holds the canonical forms of these and nothing else, and its fields are in order
(`Record.ordered_canonical`).

A format nests arrays and objects in its own way: `Codec.nesting` says how deep a record gets in it.
-/

namespace Switchboard

mutual
/-- The record and all records inside it. -/
def Record.within : Record → List Record
  | .mk tag fields => .mk tag fields :: withinFields fields

def withinFields : List (String × Field) → List Record
  | [] => []
  | (_, f) :: r => f.within ++ withinFields r

def Field.within : Field → List Record
  | .object r => r.within
  | .objectList l => withinRecords l
  | _ => []

def withinRecords : List Record → List Record
  | [] => []
  | r :: rs => r.within ++ withinRecords rs
end

theorem Record.mem_within_self (r : Record) : r ∈ r.within := by
  cases r with
  | mk tag fields => exact List.mem_cons_self

theorem mem_withinFields {fields : List (String × Field)} {q : Record} :
    q ∈ withinFields fields ↔ ∃ e ∈ fields, q ∈ e.2.within := by
  induction fields with
  | nil => simp [withinFields]
  | cons e r ih =>
    obtain ⟨name, f⟩ := e
    simp [withinFields, ih]

theorem mem_withinRecords {records : List Record} {q : Record} :
    q ∈ withinRecords records ↔ ∃ r ∈ records, q ∈ r.within := by
  induction records with
  | nil => simp [withinRecords]
  | cons r rs ih => simp [withinRecords, ih]

/-- The names under which a record has fields. -/
def Record.names (r : Record) : List String := r.fields.map (·.1)

/-! ### Plain records -/

/-- What the known types have in common: a tag, and a few fields under different names, none of which is the name that
the tag has in JSON. Neither the tag nor any name is long. -/
def PlainNames (tag : String) (names : List String) : Prop :=
  tag ≠ "" ∧ names.Nodup ∧ Json.tagName ∉ names ∧ names.length < 16 ∧ ∀ s ∈ tag :: names, (Utf8.encode s).length < 64

instance (tag : String) (names : List String) : Decidable (PlainNames tag names) :=
  inferInstanceAs (Decidable (_ ∧ _ ∧ _ ∧ _ ∧ _))

def Record.Plain (r : Record) : Prop := PlainNames r.tag r.names

/-! ### Canonical records -/

theorem canonicalFields_eq_map (fields : List (String × Field)) :
    canonicalFields fields = fields.map fun e => (e.1, e.2.canonical) := by
  induction fields with
  | nil => rfl
  | cons e r ih =>
    obtain ⟨name, f⟩ := e
    rw [canonicalFields, ih, List.map_cons]

theorem canonicalRecords_eq_map (records : List Record) :
    canonicalRecords records = records.map Record.canonical := by
  induction records with
  | nil => rfl
  | cons r rs ih => rw [canonicalRecords, ih, List.map_cons]

theorem Record.canonical_eq (r : Record) : r.canonical = .mk r.tag (Table.ofWrites (canonicalFields r.fields)) := by
  cases r with
  | mk tag fields => rw [canonical, Record.tag, Record.fields]

mutual
/-- The records inside a canonical record are the canonical forms of those that were there. -/
theorem Record.exists_of_mem_within_canonical {r q : Record} (hq : q ∈ r.canonical.within) :
    ∃ q' ∈ r.within, q = q'.canonical := by
  match r with
  | .mk tag fields =>
    rw [Record.canonical, Record.within] at hq
    rcases List.mem_cons.1 hq with rfl | hq
    · exact ⟨.mk tag fields, Record.mem_within_self _, by rw [Record.canonical]⟩
    · obtain ⟨e, he, hqe⟩ := mem_withinFields.1 hq
      have hwrite := mem_withinFields.2 ⟨e, Table.mem_of_mem_ofWrites he, hqe⟩
      obtain ⟨q', hq', rfl⟩ := exists_of_mem_withinFields_canonical hwrite
      exact ⟨q', by rw [Record.within]; exact List.mem_cons_of_mem _ hq', rfl⟩

theorem exists_of_mem_withinFields_canonical {fields : List (String × Field)} {q : Record}
    (hq : q ∈ withinFields (canonicalFields fields)) : ∃ q' ∈ withinFields fields, q = q'.canonical := by
  match fields with
  | [] => cases hq
  | (name, f) :: r =>
    rw [canonicalFields, withinFields, List.mem_append] at hq
    rw [withinFields]
    rcases hq with hq | hq
    · obtain ⟨q', hq', rfl⟩ := Field.exists_of_mem_within_canonical hq
      exact ⟨q', List.mem_append_left _ hq', rfl⟩
    · obtain ⟨q', hq', rfl⟩ := exists_of_mem_withinFields_canonical hq
      exact ⟨q', List.mem_append_right _ hq', rfl⟩

theorem Field.exists_of_mem_within_canonical {f : Field} {q : Record} (hq : q ∈ f.canonical.within) :
    ∃ q' ∈ f.within, q = q'.canonical := by
  cases f with
  | object r => exact Record.exists_of_mem_within_canonical hq
  | objectList l => exact exists_of_mem_withinRecords_canonical hq
  | _ => cases hq

theorem exists_of_mem_withinRecords_canonical {records : List Record} {q : Record}
    (hq : q ∈ withinRecords (canonicalRecords records)) : ∃ q' ∈ withinRecords records, q = q'.canonical := by
  match records with
  | [] => cases hq
  | r :: rs =>
    rw [canonicalRecords, withinRecords, List.mem_append] at hq
    rw [withinRecords]
    rcases hq with hq | hq
    · obtain ⟨q', hq', rfl⟩ := Record.exists_of_mem_within_canonical hq
      exact ⟨q', List.mem_append_left _ hq', rfl⟩
    · obtain ⟨q', hq', rfl⟩ := exists_of_mem_withinRecords_canonical hq
      exact ⟨q', List.mem_append_right _ hq', rfl⟩
end

/-- The fields of a canonical record are in order, at every level. -/
theorem Record.ordered_canonical {r q : Record} (hq : q ∈ r.canonical.within) : Table.Ordered q.fields := by
  obtain ⟨q', -, rfl⟩ := exists_of_mem_within_canonical hq
  rw [canonical_eq]
  exact Table.ordered_ofWrites _

/-! ### Nesting -/

namespace Codec

/-- How many arrays and objects a record is itself. -/
def perRecord : Codec → Nat
  | json => 1
  | messagePack => 2

/-- How many arrays and objects a byte sequence is. -/
def perBytes : Codec → Nat
  | json => 0
  | messagePack => 1

/-- How deep the reader of a format lets arrays and objects nest. -/
def maxNesting : Codec → Nat
  | json => Json.maxNesting
  | messagePack => MessagePack.maxNesting

mutual
/-- How many arrays and objects enclose the innermost value of a record as a format writes it. The map around the
value of a MessagePack field does not count. -/
def nesting (c : Codec) : Record → Nat
  | .mk _ fields => nestingFields c fields + c.perRecord

def nestingFields (c : Codec) : List (String × Field) → Nat
  | [] => 0
  | (_, f) :: r => max (nestingField c f) (nestingFields c r)

def nestingField (c : Codec) : Field → Nat
  | .bytes _ => c.perBytes
  | .strList _ => 1
  | .intList _ => 1
  | .floatList _ => 1
  | .object r => nesting c r
  | .objectList l => nestingRecords c l + 1
  | _ => 0

def nestingRecords (c : Codec) : List Record → Nat
  | [] => 0
  | r :: rs => max (nesting c r) (nestingRecords c rs)
end

variable {c : Codec}

theorem nestingFields_le_iff {fields : List (String × Field)} {n : Nat} :
    c.nestingFields fields ≤ n ↔ ∀ e ∈ fields, c.nestingField e.2 ≤ n := by
  induction fields with
  | nil => simp [nestingFields]
  | cons e r ih =>
    obtain ⟨name, f⟩ := e
    simp [nestingFields, ih]

mutual
/-- A canonical record does not nest deeper. -/
theorem nesting_canonical_le (r : Record) : c.nesting r.canonical ≤ c.nesting r := by
  match r with
  | .mk tag fields =>
    rw [Record.canonical, nesting, nesting]
    refine Nat.add_le_add_right (nestingFields_le_iff.2 fun e he => ?_) _
    have hall := nestingFields_le_iff.1 (nestingFields_canonical_le fields)
    exact hall e (Table.mem_of_mem_ofWrites he)

theorem nestingFields_canonical_le (fields : List (String × Field)) :
    c.nestingFields (canonicalFields fields) ≤ c.nestingFields fields := by
  match fields with
  | [] => exact Nat.le_refl _
  | (name, f) :: r =>
    have hf := nestingField_canonical_le f
    have hr := nestingFields_canonical_le r
    rw [canonicalFields, nestingFields, nestingFields]
    omega

theorem nestingField_canonical_le (f : Field) : c.nestingField f.canonical ≤ c.nestingField f := by
  cases f with
  | object r => exact nesting_canonical_le r
  | objectList l => exact Nat.succ_le_succ (nestingRecords_canonical_le l)
  | _ => exact Nat.le_refl _

theorem nestingRecords_canonical_le (records : List Record) :
    c.nestingRecords (canonicalRecords records) ≤ c.nestingRecords records := by
  match records with
  | [] => exact Nat.le_refl _
  | r :: rs =>
    have hr := nesting_canonical_le r
    have hrs := nestingRecords_canonical_le rs
    rw [canonicalRecords, nestingRecords, nestingRecords]
    omega
end

end Codec

end Switchboard
