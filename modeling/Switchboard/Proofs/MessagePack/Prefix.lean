import Switchboard.Proofs.MessagePack.RoundTrip

/-!
# MessagePack items end by themselves

A reader that finds something in some bytes finds the same when more bytes stand behind them, and leaves those over
(`Continues`). Every reader here is put together from `take?` in ways that keep this, so reading an item has it as
well (`continues_read?`). Hence nothing is read from the bytes of an item that are cut short
(`Item.read?_of_properPrefix`).
-/

namespace Switchboard.MessagePack

/-- What the first reader finds, the second finds with any bytes behind. -/
def Continues {α : Type} (read read' : Bytes → Option (α × Bytes)) : Prop :=
  ∀ ⦃bs : Bytes⦄ ⦃a : α⦄ ⦃rest : Bytes⦄, read bs = some (a, rest) → ∀ t, read' (bs ++ t) = some (a, rest ++ t)

section
variable {α β : Type} {read read' : Bytes → Option (α × Bytes)}

theorem Continues.map (h : Continues read read') (f : α → β) :
    Continues (fun bs => (read bs).map fun (a, bs) => (f a, bs)) fun bs =>
      (read' bs).map fun (a, bs) => (f a, bs) := by
  intro bs b rest hread t
  obtain ⟨⟨a, rest'⟩, hfirst, heq⟩ := Option.map_eq_some_iff.1 hread
  cases heq
  simp only [h hfirst t, Option.map_some]

theorem Continues.bind (h : Continues read read') {next next' : α → Bytes → Option (β × Bytes)}
    (hnext : ∀ a, Continues (next a) (next' a)) :
    Continues (fun bs => read bs >>= fun (a, bs) => next a bs) fun bs => read' bs >>= fun (a, bs) => next' a bs := by
  intro bs b rest hread t
  obtain ⟨⟨a, rest'⟩, hfirst, hsecond⟩ := Option.bind_eq_some_iff.1 hread
  simp only [h hfirst t, Option.bind_eq_bind, Option.bind_some]
  exact hnext a hsecond t

/-- What is found without reading on. -/
theorem continues_pure (a : α) : Continues (fun bs => some (a, bs)) fun bs => some (a, bs) := by
  rintro bs _ _ ⟨⟩ t
  rfl

end

/-! ### Bytes and numbers -/

theorem continues_take? (n : Nat) : Continues (take? n) (take? n) := by
  intro bs b rest hread t
  unfold take? at hread
  split at hread
  · rename_i hn
    cases hread
    have hlong : n ≤ (bs ++ t).length := by
      rw [List.length_append]
      omega
    rw [take?, if_pos hlong, List.take_append_of_le_length hn, List.drop_append_of_le_length hn]
  · cases hread

theorem continues_number? (count : Nat) : Continues (number? count) (number? count) :=
  (continues_take? count).bind fun b => continues_pure (natOfBytes b)

theorem continues_sized? (count : Nat) : Continues (sized? count) (sized? count) :=
  (continues_number? count).bind continues_take?

theorem continues_ext? (length : Nat) : Continues (ext? length) (ext? length) := by
  intro bs i rest hread t
  cases bs with
  | nil => cases hread
  | cons kind bs => exact (continues_take? length).map (Item.ext kind) hread t

/-! ### Items -/

section
variable {item? item?' : Bytes → Option (Item × Bytes)}

theorem continues_readItems? (h : Continues item? item?') (count : Nat) :
    Continues (readItems? item? count) (readItems? item?' count) := by
  induction count with
  | zero => exact continues_pure []
  | succ count ih => exact h.bind fun i => ih.bind fun is => continues_pure (i :: is)

theorem continues_readEntries? (h : Continues item? item?') (count : Nat) :
    Continues (readEntries? item? count) (readEntries? item?' count) := by
  induction count with
  | zero => exact continues_pure []
  | succ count ih => exact h.bind fun k => h.bind fun v => ih.bind fun es => continues_pure ((k, v) :: es)

end

/-- An item that is found is found with more bytes behind it, and with more room for nesting. -/
theorem continues_read? {room room' : Nat} (hroom : room ≤ room') : Continues (read? room) (read? room') := by
  induction room generalizing room' with
  | zero =>
    intro bs i rest hread
    cases hread
  | succ room ih =>
    obtain ⟨room', rfl⟩ : ∃ n, room' = n + 1 := Nat.exists_eq_succ_of_ne_zero (by omega)
    have hnested := ih (Nat.le_of_succ_le_succ hroom)
    have hitems : ∀ n, Continues _ _ := fun n => (continues_readItems? hnested n).map Item.array
    have hentries : ∀ n, Continues _ _ := fun n => (continues_readEntries? hnested n).map Item.map
    intro bs i rest hread t
    cases bs with
    | nil => cases hread
    | cons head bs =>
      rw [List.cons_append]
      simp only [read?] at hread ⊢
      generalize head.toNat = h at hread ⊢
      -- the ranges of first bytes that hold a value or a size themselves, in the order of `read?`
      by_cases h1 : h < 0x80
      · simp only [if_pos h1] at hread ⊢
        exact continues_pure _ hread t
      simp only [if_neg h1] at hread ⊢
      by_cases h2 : h < 0x90
      · simp only [if_pos h2] at hread ⊢
        exact hentries _ hread t
      simp only [if_neg h2] at hread ⊢
      by_cases h3 : h < 0xa0
      · simp only [if_pos h3] at hread ⊢
        exact hitems _ hread t
      simp only [if_neg h3] at hread ⊢
      by_cases h4 : h < 0xc0
      · simp only [if_pos h4] at hread ⊢
        exact (continues_take? _).map Item.str hread t
      simp only [if_neg h4] at hread ⊢
      by_cases h5 : 0xe0 ≤ h
      · simp only [if_pos h5] at hread ⊢
        exact continues_pure _ hread t
      simp only [if_neg h5] at hread ⊢
      have hext : ∀ count, Continues _ _ := fun count => (continues_number? count).bind continues_ext?
      have hunsigned : ∀ count, Continues _ _ := fun count => (continues_number? count).map Item.unsigned
      have hsigned : ∀ count, Continues _ _ := fun count =>
        (continues_number? count).map fun n => Item.signed (toSigned count n)
      have hstr : ∀ count, Continues _ _ := fun count => (continues_sized? count).map Item.str
      have hbin : ∀ count, Continues _ _ := fun count => (continues_sized? count).map Item.bin
      split at hread
      · exact continues_pure _ hread t
      · exact continues_pure _ hread t
      · exact continues_pure _ hread t
      · exact hbin 1 hread t
      · exact hbin 2 hread t
      · exact hbin 4 hread t
      · exact hext 1 hread t
      · exact hext 2 hread t
      · exact hext 4 hread t
      · exact (continues_number? 4).map (fun n => Item.single (UInt32.ofNat n)) hread t
      · exact (continues_number? 8).map (fun n => Item.double ⟨UInt64.ofNat n⟩) hread t
      · exact hunsigned 1 hread t
      · exact hunsigned 2 hread t
      · exact hunsigned 4 hread t
      · exact hunsigned 8 hread t
      · exact hsigned 1 hread t
      · exact hsigned 2 hread t
      · exact hsigned 4 hread t
      · exact hsigned 8 hread t
      · exact continues_ext? 1 hread t
      · exact continues_ext? 2 hread t
      · exact continues_ext? 4 hread t
      · exact continues_ext? 8 hread t
      · exact continues_ext? 16 hread t
      · exact hstr 1 hread t
      · exact hstr 2 hread t
      · exact hstr 4 hread t
      · exact (continues_number? 2).bind hitems hread t
      · exact (continues_number? 4).bind hitems hread t
      · exact (continues_number? 2).bind hentries hread t
      · exact (continues_number? 4).bind hentries hread t
      · cases hread

/-! ### Cut short -/

/-- No item is read from the bytes of an item that are cut short. -/
theorem Item.read?_of_properPrefix {i : Item} (h : i.Fits) {bs : Bytes} (hbs : ProperPrefix bs i.write)
    (room : Nat) : read? room bs = none := by
  obtain ⟨⟨cut, hcut⟩, hne⟩ := hbs
  rw [Option.eq_none_iff_forall_ne_some]
  rintro ⟨found, rest⟩ hread
  have hlong : read? (max room i.write.length) i.write = some (i, []) := by
    have hwhole := i.read?_write h (Nat.le_max_right room i.write.length) []
    rwa [List.append_nil] at hwhole
  have hcontinued := continues_read? (Nat.le_max_left room i.write.length) hread cut
  rw [hcut, hlong] at hcontinued
  -- the item takes all of its bytes, so nothing was cut off
  have hrest : [] = rest ++ cut := congrArg Prod.snd (Option.some.inj hcontinued)
  have hempty : cut = [] := (List.append_eq_nil_iff.1 hrest.symm).2
  rw [hempty, List.append_nil] at hcut
  exact hne hcut

/-- No record is read from the bytes of a record that are cut short. -/
theorem decode?_of_properPrefix {r : Record} (hfits : ∀ q ∈ r.canonical.within, FitsRecord q) {bs : Bytes}
    (hbs : ProperPrefix bs (encode r)) : decode? bs = none := by
  have hread := Item.read?_of_properPrefix (fits_ofRecord _ hfits) hbs bs.length
  rw [decode?, hread]
  rfl

end Switchboard.MessagePack
