import Switchboard.Proofs.Codec.Pool
import Mathlib.Data.List.InsertIdx
import Mathlib.Data.List.Nodup
import Mathlib.Data.List.Perm.Basic

/-!
# Encoders on loan

An encoder that a pool lends is guarded: whoever lets it go gives it back. It can be detached from its guard; then it
goes back only if it is released, and is lost if it is let go. In the meantime it encodes and decodes, with success or
without, and its scratch area fills.

None of this can be noticed (`LoanDesk.run_invisible`). Each answer is that of an encoder made for this one use,
whatever was done before. No more encoders are idle than the pool is to keep, each lies with its own codec, and no
encoder is idle and on loan at once, or lent twice: the encoders that are idle or on loan all have different serial
numbers. One step keeps all this (`LoanDesk.Proper.step`, `LoanDesk.step_eq_stepAnew`), and a run is made of steps.
-/

namespace Switchboard

/-! ### Desks -/

/-- An encoder on loan, under its guard or detached from it. -/
structure Loan where
  encoder : Encoder
  guarded : Bool

/-- What is done with an encoder on loan. -/
inductive LoanUse
  | encode (payload : Payload)
  | decode (bytes : Bytes)
  | drop
  | detach
  | release

/-- A new loan, or a use of the loan at some place among all loans. -/
inductive LoanStep
  | borrow (c : Codec)
  | use (place : Nat) (u : LoanUse)

inductive LoanAnswer
  | encoded (result : Except CodecError Bytes)
  | decoded (result : Except CodecError Payload)

/-- A pool and the encoders on loan from it, the latest last. -/
structure LoanDesk where
  pool : EncoderPool
  loans : List Loan

namespace LoanDesk

/-- Nothing was lent yet. -/
def opened (types : TypeRegistry) (standard : Codec) (capacity : Nat) : LoanDesk :=
  ⟨.empty types standard capacity, []⟩

def borrow (s : LoanDesk) (c : Codec) : LoanDesk := ⟨(s.pool.borrow c).2, s.loans ++ [⟨(s.pool.borrow c).1, true⟩]⟩

/-- The loan at a place is now this one. -/
def update (s : LoanDesk) (place : Nat) (l : Loan) : LoanDesk := { s with loans := s.loans.set place l }

/-- Ends a loan. The encoder goes back to the pool. -/
def giveBack (s : LoanDesk) (place : Nat) (l : Loan) : LoanDesk := ⟨s.pool.release l.encoder, s.loans.eraseIdx place⟩

/-- Ends a loan. The encoder is lost. -/
def forget (s : LoanDesk) (place : Nat) : LoanDesk := { s with loans := s.loans.eraseIdx place }

/-- What is done with the loan at a place. Only a detached encoder can be released. -/
def use (s : LoanDesk) (place : Nat) (l : Loan) : LoanUse → Option LoanAnswer × LoanDesk
  | .encode payload =>
    (some (.encoded (l.encoder.encode payload).1), s.update place { l with encoder := (l.encoder.encode payload).2 })
  | .decode bytes => (some (.decoded (l.encoder.decode s.pool.types bytes)), s)
  | .drop => (none, if l.guarded then s.giveBack place l else s.forget place)
  | .detach => (none, s.update place { l with guarded := false })
  | .release => (none, if l.guarded then s else s.giveBack place l)

def step (s : LoanDesk) : LoanStep → Option LoanAnswer × LoanDesk
  | .borrow c => (none, s.borrow c)
  | .use place u =>
    match s.loans[place]? with
    | some l => s.use place l u
    | none => (none, s)

/-- The answers to steps taken one after the other, and the desk after them. -/
def run (s : LoanDesk) : List LoanStep → List (Option LoanAnswer) × LoanDesk
  | [] => ([], s)
  | a :: rest => ((s.step a).1 :: ((s.step a).2.run rest).1, ((s.step a).2.run rest).2)

end LoanDesk

/-! ### A new encoder for each use -/

/-- An encoder that was just made. -/
def Encoder.new (c : Codec) : Encoder := ⟨0, c, []⟩

/-- What is known of a loan without its encoder. -/
structure LoanSlip where
  codec : Codec
  guarded : Bool

def Loan.slip (l : Loan) : LoanSlip := ⟨l.encoder.codec, l.guarded⟩

namespace LoanSlip

/-- The answer of a new encoder, and the loans after the use of the one at a place. -/
def useAnew (types : TypeRegistry) (slips : List LoanSlip) (place : Nat) (l : LoanSlip) :
    LoanUse → Option LoanAnswer × List LoanSlip
  | .encode payload => (some (.encoded ((Encoder.new l.codec).encode payload).1), slips)
  | .decode bytes => (some (.decoded ((Encoder.new l.codec).decode types bytes)), slips)
  | .drop => (none, slips.eraseIdx place)
  | .detach => (none, slips.set place { l with guarded := false })
  | .release => (none, if l.guarded then slips else slips.eraseIdx place)

def stepAnew (types : TypeRegistry) (slips : List LoanSlip) : LoanStep → Option LoanAnswer × List LoanSlip
  | .borrow c => (none, slips ++ [⟨c, true⟩])
  | .use place u =>
    match slips[place]? with
    | some l => useAnew types slips place l u
    | none => (none, slips)

/-- What new encoders answer to steps taken one after the other. -/
def answersAnew (types : TypeRegistry) (slips : List LoanSlip) : List LoanStep → List (Option LoanAnswer)
  | [] => []
  | a :: rest => (stepAnew types slips a).1 :: answersAnew types (stepAnew types slips a).2 rest

end LoanSlip

/-! ### Serial numbers -/

namespace EncoderPool

variable (p : EncoderPool) (n : Nat)

/-- How many idle encoders have a serial number. -/
def idleCount (n : Nat) : Nat :=
  ((p.idle .json).map Encoder.serial).count n + ((p.idle .messagePack).map Encoder.serial).count n

theorem idleCount_setIdle (c : Codec) (l : List Encoder) :
    (p.setIdle c l).idleCount n + ((p.idle c).map Encoder.serial).count n =
      p.idleCount n + (l.map Encoder.serial).count n := by
  cases c <;> simp only [idleCount, setIdle, idle] <;> omega

theorem count_le_idleCount (c : Codec) : ((p.idle c).map Encoder.serial).count n ≤ p.idleCount n := by
  cases c <;> simp only [idleCount] <;> omega

@[simp] theorem made_setIdle (c : Codec) (l : List Encoder) : (p.setIdle c l).made = p.made := by
  cases c <;> rfl

@[simp] theorem made_release (e : Encoder) : (p.release e).made = p.made := by
  unfold release
  simp only
  split
  · exact made_setIdle p e.codec _
  · rfl

/-- What is lent was idle, or has the next serial number. -/
theorem idleCount_borrow (c : Codec) :
    ((p.borrow c).2.made = p.made ∧
        ∀ n, (p.borrow c).2.idleCount n + [(p.borrow c).1.serial].count n = p.idleCount n) ∨
      ((p.borrow c).2.made = p.made + 1 ∧ (p.borrow c).1.serial = p.made ∧
        ∀ n, (p.borrow c).2.idleCount n = p.idleCount n) := by
  unfold borrow
  split
  · rename_i e rest hidle
    refine .inl ⟨made_setIdle p c rest, fun n => ?_⟩
    have hset := p.idleCount_setIdle n c rest
    rw [hidle] at hset
    simp only [List.map_cons, List.count_cons, List.count_nil] at hset ⊢
    omega
  · exact .inr ⟨rfl, rfl, fun n => rfl⟩

/-- What is taken back is idle once more, or lost. -/
theorem idleCount_release_le (e : Encoder) : (p.release e).idleCount n ≤ p.idleCount n + [e.serial].count n := by
  unfold release
  simp only
  split
  · have hset := p.idleCount_setIdle n e.codec (e.reset :: p.idle e.codec)
    have hserial : e.reset.serial = e.serial := rfl
    simp only [List.map_cons, hserial, List.count_cons, List.count_nil] at hset ⊢
    omega
  · omega

end EncoderPool

namespace LoanDesk

variable {types : TypeRegistry} {capacity : Nat} {s : LoanDesk} {place : Nat} {l : Loan}

/-- How many encoders with a serial number are idle or on loan. -/
def holders (s : LoanDesk) (n : Nat) : Nat := s.pool.idleCount n + (s.loans.map (·.encoder.serial)).count n

/-- The pool knows these types, keeps no more idle encoders than this, each with its own codec, no serial number is on
two encoders, and those not yet given out are on none. -/
structure Proper (types : TypeRegistry) (capacity : Nat) (s : LoanDesk) : Prop where
  types : s.pool.types = types
  capacity : s.pool.capacity = capacity
  sound : s.pool.Sound
  bounded : s.pool.Bounded
  single : ∀ n, s.holders n ≤ 1
  unmade : ∀ n, s.pool.made ≤ n → s.holders n = 0

theorem proper_opened (types : TypeRegistry) (standard : Codec) (capacity : Nat) :
    (opened types standard capacity).Proper types capacity :=
  ⟨rfl, rfl, EncoderPool.sound_empty _ _ _, EncoderPool.bounded_empty _ _ _, fun _ => Nat.zero_le _, fun _ _ => rfl⟩

/-- A serial number on a loan, and those on the others. -/
theorem count_loans (hl : s.loans[place]? = some l) (n : Nat) : (s.loans.map (·.encoder.serial)).count n =
    ((s.loans.eraseIdx place).map (·.encoder.serial)).count n + [l.encoder.serial].count n := by
  obtain ⟨hplace, rfl⟩ := List.getElem?_eq_some_iff.1 hl
  have hperm := (List.getElem_cons_eraseIdx_perm hplace).map (·.encoder.serial)
  rw [← hperm.count_eq, List.map_cons, List.count_cons, List.count_cons, List.count_nil]
  omega

theorem holders_borrow (s : LoanDesk) (c : Codec) :
    ((s.borrow c).pool.made = s.pool.made ∧ ∀ n, (s.borrow c).holders n = s.holders n) ∨
      ((s.borrow c).pool.made = s.pool.made + 1 ∧
        ∀ n, (s.borrow c).holders n = s.holders n + [s.pool.made].count n) := by
  have hloans : ∀ n, (s.borrow c).holders n = (s.pool.borrow c).2.idleCount n +
      ((s.loans.map (·.encoder.serial)).count n + [(s.pool.borrow c).1.serial].count n) := by
    intro n
    rw [holders, borrow, List.map_append, List.count_append, List.map_cons, List.map_nil]
  obtain ⟨hmade, hidle⟩ | ⟨hmade, hserial, hidle⟩ := s.pool.idleCount_borrow c
  · refine .inl ⟨hmade, fun n => ?_⟩
    have hn := hidle n
    rw [hloans, holders]
    omega
  · refine .inr ⟨hmade, fun n => ?_⟩
    rw [hloans, hidle, hserial, holders]
    omega

theorem holders_giveBack_le (hl : s.loans[place]? = some l) (n : Nat) :
    (s.giveBack place l).holders n ≤ s.holders n := by
  have hloans := count_loans hl n
  have hidle := s.pool.idleCount_release_le n l.encoder
  simp only [holders, giveBack]
  omega

theorem holders_forget_le (hl : s.loans[place]? = some l) (n : Nat) : (s.forget place).holders n ≤ s.holders n := by
  have hloans := count_loans hl n
  simp only [holders, forget]
  omega

theorem holders_update (hl : s.loans[place]? = some l) {l' : Loan} (hserial : l'.encoder.serial = l.encoder.serial)
    (n : Nat) : (s.update place l').holders n = s.holders n := by
  obtain ⟨hplace, -⟩ := List.getElem?_eq_some_iff.1 hl
  have hperm := (List.set_perm_cons_eraseIdx hplace l').map (·.encoder.serial)
  have hloans := count_loans hl n
  simp only [holders, update, hperm.count_eq, List.map_cons, hserial, List.count_cons, List.count_nil] at hloans ⊢
  omega

/-- What gives out no serial number keeps a desk proper if the pool stays sound and not too full and no number is
there more often than before. -/
theorem Proper.of_le {s' : LoanDesk} (h : s.Proper types capacity) (hdesk : s.pool.SameDesk s'.pool)
    (hcapacity : s'.pool.capacity = s.pool.capacity) (hbounded : s'.pool.Bounded) (hmade : s'.pool.made = s.pool.made)
    (hle : ∀ n, s'.holders n ≤ s.holders n) : s'.Proper types capacity where
  types := hdesk.types.trans h.types
  capacity := hcapacity.trans h.capacity
  sound := hdesk.sound h.sound
  bounded := hbounded
  single n := Nat.le_trans (hle n) (h.single n)
  unmade n hn := Nat.le_zero.1 (Nat.le_trans (hle n) (Nat.le_of_eq (h.unmade n (hmade ▸ hn))))

theorem Proper.borrow (h : s.Proper types capacity) (c : Codec) : (s.borrow c).Proper types capacity := by
  have hdesk := EncoderPool.sameDesk_borrow s.pool c
  have hcapacity := EncoderPool.capacity_borrow s.pool c
  obtain ⟨hmade, hholders⟩ | ⟨hmade, hholders⟩ := s.holders_borrow c
  · exact h.of_le hdesk hcapacity (h.bounded.borrow c) hmade fun n => Nat.le_of_eq (hholders n)
  · refine ⟨hdesk.types.trans h.types, hcapacity.trans h.capacity, hdesk.sound h.sound, h.bounded.borrow c,
      fun n => ?_, fun n hn => ?_⟩
    · -- the new serial number was on no encoder before
      have hsingle := h.single n
      have hunmade := h.unmade n
      rw [hholders, List.count_singleton]
      split
      · rename_i heq
        have hzero := hunmade (Nat.le_of_eq (eq_of_beq heq))
        omega
      · exact hsingle
    · rw [hmade] at hn
      rw [hholders, h.unmade n (Nat.le_of_succ_le hn), List.count_singleton, if_neg]
      simp only [beq_iff_eq]
      omega

theorem Proper.giveBack (h : s.Proper types capacity) (hl : s.loans[place]? = some l) :
    (s.giveBack place l).Proper types capacity :=
  h.of_le (EncoderPool.sameDesk_release _ _) (EncoderPool.capacity_release _ _) (h.bounded.release _)
    (EncoderPool.made_release _ _) (holders_giveBack_le hl)

theorem Proper.forget (h : s.Proper types capacity) (hl : s.loans[place]? = some l) :
    (s.forget place).Proper types capacity :=
  h.of_le (.refl _) rfl h.bounded rfl (holders_forget_le hl)

theorem Proper.update (h : s.Proper types capacity) (hl : s.loans[place]? = some l) {l' : Loan}
    (hserial : l'.encoder.serial = l.encoder.serial) : (s.update place l').Proper types capacity :=
  h.of_le (.refl _) rfl h.bounded rfl fun n => Nat.le_of_eq (holders_update hl hserial n)

theorem Proper.use (h : s.Proper types capacity) (hl : s.loans[place]? = some l) (u : LoanUse) :
    (s.use place l u).2.Proper types capacity := by
  cases u with
  | encode payload =>
    obtain ⟨-, hreset⟩ := EncoderPool.reset_encode l.encoder payload
    have hserial : (l.encoder.encode payload).2.reset.serial = l.encoder.reset.serial := by rw [hreset]
    exact h.update hl hserial
  | decode bytes => exact h
  | drop =>
    simp only [LoanDesk.use]
    split
    · exact h.giveBack hl
    · exact h.forget hl
  | detach => exact h.update hl rfl
  | release =>
    simp only [LoanDesk.use]
    split
    · exact h
    · exact h.giveBack hl

theorem Proper.step (h : s.Proper types capacity) (a : LoanStep) : (s.step a).2.Proper types capacity := by
  cases a with
  | borrow c => exact h.borrow c
  | use place u =>
    cases hl : s.loans[place]? with
    | none => simpa only [LoanDesk.step, hl] using h
    | some l => simpa only [LoanDesk.step, hl] using h.use hl u

theorem Proper.run (h : s.Proper types capacity) (steps : List LoanStep) : (s.run steps).2.Proper types capacity := by
  induction steps generalizing s with
  | nil => exact h
  | cons a rest ih => exact ih (h.step a)

/-! ### Answers -/

/-- With an encoder on loan a desk answers as if it was new, and the loans are the same afterwards. -/
theorem use_eq_useAnew (hl : s.loans[place]? = some l) (u : LoanUse) :
    ((s.use place l u).1, (s.use place l u).2.loans.map Loan.slip) =
      LoanSlip.useAnew s.pool.types (s.loans.map Loan.slip) place l.slip u := by
  cases u with
  | encode payload =>
    obtain ⟨hcodec, -⟩ := EncoderPool.reset_encode l.encoder payload
    have hslip : (s.loans.map Loan.slip).set place l.slip = s.loans.map Loan.slip := by
      obtain ⟨hplace, rfl⟩ := List.getElem?_eq_some_iff.1 hl
      rw [← List.map_set, List.set_getElem_self]
    have hused : Loan.slip { l with encoder := (l.encoder.encode payload).2 } = l.slip := by
      rw [Loan.slip, hcodec, Loan.slip]
    simp only [use, LoanSlip.useAnew, update, List.map_set, hused, hslip, EncoderPool.fst_encode]
    rfl
  | decode bytes => rfl
  | drop =>
    simp only [use, LoanSlip.useAnew]
    split <;> simp only [giveBack, forget, List.eraseIdx_map]
  | detach => simp only [use, LoanSlip.useAnew, update, List.map_set, Loan.slip]
  | release =>
    simp only [use, LoanSlip.useAnew]
    cases hguarded : l.guarded <;> simp [giveBack, List.eraseIdx_map, Loan.slip, hguarded]

/-- A step is answered as new encoders would. -/
theorem step_eq_stepAnew (hsound : s.pool.Sound) (a : LoanStep) :
    ((s.step a).1, (s.step a).2.loans.map Loan.slip) = LoanSlip.stepAnew s.pool.types (s.loans.map Loan.slip) a := by
  cases a with
  | borrow c =>
    have hcodec := hsound.codec_borrow c
    simp only [step, LoanSlip.stepAnew, borrow, List.map_append, List.map_cons, List.map_nil, Loan.slip, hcodec]
  | use place u =>
    simp only [step, LoanSlip.stepAnew, List.getElem?_map]
    cases hl : s.loans[place]? with
    | none => rfl
    | some l => exact use_eq_useAnew hl u

theorem Proper.answers (h : s.Proper types capacity) (steps : List LoanStep) :
    (s.run steps).1 = LoanSlip.answersAnew types (s.loans.map Loan.slip) steps := by
  induction steps generalizing s with
  | nil => rfl
  | cons a rest ih =>
    have hstep := step_eq_stepAnew h.sound a
    rw [h.types] at hstep
    rw [LoanDesk.run, LoanSlip.answersAnew, ← hstep, ih (h.step a)]

/-- A desk after some steps. -/
def used (types : TypeRegistry) (standard : Codec) (capacity : Nat) (steps : List LoanStep) : LoanDesk :=
  ((opened types standard capacity).run steps).2

/-- Whatever is done with a pool and its loans, each answer is that of a new encoder; no more encoders are idle than
the pool is to keep, and each lies with its own codec; no encoder is both idle and on loan, and none is there
twice. -/
theorem run_invisible (types : TypeRegistry) (standard : Codec) (capacity : Nat) (steps : List LoanStep) :
    ((opened types standard capacity).run steps).1 = LoanSlip.answersAnew types [] steps ∧
    (∀ c, ((used types standard capacity steps).pool.idle c).length ≤ capacity ∧
      ∀ e ∈ (used types standard capacity steps).pool.idle c, e.codec = c) ∧
    (∀ l ∈ (used types standard capacity steps).loans, ∀ c,
      ∀ e ∈ (used types standard capacity steps).pool.idle c, l.encoder.serial ≠ e.serial) ∧
    (((used types standard capacity steps).pool.idle .json
      ++ (used types standard capacity steps).pool.idle .messagePack
      ++ (used types standard capacity steps).loans.map Loan.encoder).map Encoder.serial).Nodup := by
  have hopened := proper_opened types standard capacity
  have h : (used types standard capacity steps).Proper types capacity := hopened.run steps
  refine ⟨hopened.answers steps, ?_⟩
  generalize used types standard capacity steps = s at h
  refine ⟨fun c => ⟨h.capacity ▸ h.bounded c, h.sound c⟩, fun l hl c e he heq => ?_, ?_⟩
  · have hidle : 0 < ((s.pool.idle c).map Encoder.serial).count e.serial :=
      List.count_pos_iff.2 (List.mem_map_of_mem he)
    have hlent : 0 < (s.loans.map (·.encoder.serial)).count e.serial :=
      List.count_pos_iff.2 (List.mem_map.2 ⟨l, hl, heq⟩)
    have hle := s.pool.count_le_idleCount e.serial c
    have hsingle := h.single e.serial
    rw [holders] at hsingle
    omega
  · rw [List.nodup_iff_count_le_one]
    intro n
    have hsingle := h.single n
    simpa only [holders, EncoderPool.idleCount, List.map_append, List.count_append, List.map_map,
      Function.comp_def] using hsingle

/-- Of three encoders lent by a pool that keeps one, the first is detached and lost, the last comes back in time. -/
example :
    ((used .standard .json 1 [.borrow .json, .borrow .json, .borrow .json, .use 2 .drop, .use 0 .detach, .use 0 .drop,
    .use 0 .drop]).pool.idle .json).map Encoder.serial = [2] := by rfl

end LoanDesk

end Switchboard
