import Switchboard.Proofs.Record

/-!
# What records hold

A record holds under each name what was written there last (`Record.held?`). Two records agree if they hold the same,
whatever else was written before and in whatever order, and so do the records inside them (`Record.Agrees`). Records
that agree have the same canonical form (`Record.Agrees.canonical_eq`).
-/

namespace Switchboard

/-- The value that was written last under a name. -/
def Record.held? (r : Record) (name : String) : Option Field := Table.last? name r.fields

theorem Record.isSome_held? {r : Record} {name : String} : (r.held? name).isSome = true ↔ name ∈ r.names :=
  Table.isSome_last?

theorem Record.held?_eq_none {r : Record} {name : String} (h : name ∉ r.names) : r.held? name = none := by
  rw [← Record.isSome_held?] at h
  exact Option.not_isSome_iff_eq_none.1 h

/-- What is held under a name lies inside the record. -/
theorem Record.mem_within_of_held? {r q : Record} {name : String} {f : Field} (h : r.held? name = some f)
    (hq : q ∈ f.within) : q ∈ r.within := by
  cases r with
  | mk tag fields =>
    rw [within]
    exact List.mem_cons_of_mem _ (mem_withinFields.2 ⟨(name, f), Table.mem_of_last? h, hq⟩)

theorem Record.get?_fields_canonical (r : Record) (name : String) :
    Table.get? name r.canonical.fields = (r.held? name).map Field.canonical := by
  rw [canonical_eq, fields, Table.get?_ofWrites, canonicalFields_eq_map]
  exact Table.last?_map _ _ _

/-! ### Agreement -/

mutual
/-- The same tag, and the same names with values that agree. -/
inductive Record.Agrees : Record → Record → Prop
  | intro {r r' : Record} (tag : r.tag = r'.tag) (names : ∀ name, (r.held? name).isSome = (r'.held? name).isSome)
    (values : ∀ name f f', r.held? name = some f → r'.held? name = some f' → Field.Agrees f f') : Record.Agrees r r'

/-- The same value, or records that agree. -/
inductive Field.Agrees : Field → Field → Prop
  | same (f : Field) : Field.Agrees f f
  | object {r r' : Record} (h : Record.Agrees r r') : Field.Agrees (.object r) (.object r')
  | objectList {l l' : List Record} (h : RecordsAgree l l') : Field.Agrees (.objectList l) (.objectList l')

inductive RecordsAgree : List Record → List Record → Prop
  | nil : RecordsAgree [] []
  | cons {r r' : Record} {l l' : List Record} (head : Record.Agrees r r') (tail : RecordsAgree l l') :
    RecordsAgree (r :: l) (r' :: l')
end

theorem Record.Agrees.refl (r : Record) : r.Agrees r := by
  refine .intro rfl (fun _ => rfl) fun name f f' hf hf' => ?_
  obtain rfl : f = f' := Option.some.inj (hf.symm.trans hf')
  exact .same f

/-- It is enough to compare the records name by name, as far as they have names. -/
theorem Record.Agrees.of_names {r r' : Record} (htag : r.tag = r'.tag)
    (hnames : ∀ name, name ∈ r.names ↔ name ∈ r'.names)
    (hvalues : ∀ name ∈ r.names, ∃ f f', r.held? name = some f ∧ r'.held? name = some f' ∧ f.Agrees f') :
    r.Agrees r' := by
  refine .intro htag (fun name => ?_) fun name f f' hf hf' => ?_
  · rw [Bool.eq_iff_iff, isSome_held?, isSome_held?]
    exact hnames name
  · obtain ⟨g, g', hg, hg', h⟩ := hvalues name (isSome_held?.1 (hf ▸ rfl))
    rw [hf] at hg
    rw [hf'] at hg'
    cases hg
    cases hg'
    exact h

mutual
theorem Record.Agrees.canonical_eq {r r' : Record} (h : r.Agrees r') : r.canonical = r'.canonical := by
  match h with
  | .intro htag hnames hvalues =>
    have hfields : r.canonical.fields = r'.canonical.fields := by
      apply Table.Ordered.ext (Record.ordered_canonical (Record.mem_within_self _))
        (Record.ordered_canonical (Record.mem_within_self _))
      intro name
      rw [Record.get?_fields_canonical, Record.get?_fields_canonical]
      have hname := hnames name
      cases hf : r.held? name with
      | none =>
        rw [hf] at hname
        rw [Option.isNone_iff_eq_none.1 (Option.isSome_eq_false_iff.1 hname.symm)]
      | some f =>
        rw [hf] at hname
        obtain ⟨f', hf'⟩ := Option.isSome_iff_exists.1 hname.symm
        rw [hf', Option.map_some, Option.map_some, (hvalues name f f' hf hf').canonical_eq]
    rw [Record.canonical_eq, Record.canonical_eq] at hfields ⊢
    rw [htag]
    exact congrArg (Record.mk r'.tag) hfields

theorem Field.Agrees.canonical_eq {f f' : Field} (h : f.Agrees f') : f.canonical = f'.canonical := by
  match h with
  | .same f => rfl
  | .object hr => rw [Field.canonical, Field.canonical, hr.canonical_eq]
  | .objectList hl => rw [Field.canonical, Field.canonical, hl.canonical_eq]

theorem RecordsAgree.canonical_eq {l l' : List Record} (h : RecordsAgree l l') :
    canonicalRecords l = canonicalRecords l' := by
  match h with
  | .nil => rfl
  | .cons hr hl => rw [canonicalRecords, canonicalRecords, hr.canonical_eq, hl.canonical_eq]
end

end Switchboard
