import Switchboard.Codec.Pool

/-!
# Sound pools

A pool is sound if the idle encoders of a codec are encoders of that codec. An empty pool is sound, and whatever is
lent and taken back, it stays so. So what a sound pool encodes and decodes depends only on the codecs and on the types
that it knows, never on what was done with it before.

Nor does a pool ever keep more idle encoders than it is to (`Reached.bounded`). So there is always room for what it
has lent, and encoding leaves no fewer idle encoders behind (`Bounded.length_idle_encode`).
-/

namespace Switchboard.EncoderPool

variable {p : EncoderPool}

/-- Every idle encoder lies with its own codec. -/
def Sound (p : EncoderPool) : Prop := ∀ c, ∀ e ∈ p.idle c, e.codec = c

theorem sound_empty (types : TypeRegistry) (standard : Codec) (capacity : Nat) :
    (empty types standard capacity).Sound := by
  intro c e he
  cases c <;> cases he

@[simp] theorem idle_setIdle_self (p : EncoderPool) (c : Codec) (l : List Encoder) : (p.setIdle c l).idle c = l := by
  cases c <;> rfl

theorem idle_setIdle_of_ne (p : EncoderPool) {c c' : Codec} (h : c' ≠ c) (l : List Encoder) :
    (p.setIdle c l).idle c' = p.idle c' := by
  cases c <;> cases c' <;> first | exact absurd rfl h | rfl

theorem Sound.setIdle (h : p.Sound) {c : Codec} {l : List Encoder} (hl : ∀ e ∈ l, e.codec = c) :
    (p.setIdle c l).Sound := by
  intro c' e he
  by_cases hc : c' = c
  · subst hc
    rw [idle_setIdle_self] at he
    exact hl e he
  · rw [idle_setIdle_of_ne p hc] at he
    exact h c' e he

theorem Sound.borrow (h : p.Sound) (c : Codec) : (p.borrow c).2.Sound := by
  unfold EncoderPool.borrow
  split
  · rename_i e rest hidle
    apply h.setIdle
    intro e' he'
    exact h c e' (hidle ▸ List.mem_cons_of_mem e he')
  · intro c' e he
    have hidle : ({ p with made := p.made + 1 } : EncoderPool).idle c' = p.idle c' := by cases c' <;> rfl
    rw [hidle] at he
    exact h c' e he

/-- What is lent is an encoder of the codec that was asked for. -/
theorem Sound.codec_borrow (h : p.Sound) (c : Codec) : (p.borrow c).1.codec = c := by
  unfold EncoderPool.borrow
  split
  · rename_i e rest hidle
    exact h c e (hidle ▸ List.mem_cons_self)
  · rfl

theorem Sound.release (h : p.Sound) (e : Encoder) : (p.release e).Sound := by
  unfold EncoderPool.release
  simp only
  split
  · apply h.setIdle
    intro e' he'
    rcases List.mem_cons.1 he' with rfl | he'
    · rfl
    · exact h _ e' he'
  · exact h

/-! ### What stays as it is -/

/-- Two states of one pool: what it knows is the same, and it is sound if it was. -/
structure SameDesk (p p' : EncoderPool) : Prop where
  types : p'.types = p.types
  standard : p'.standard = p.standard
  sound : p.Sound → p'.Sound

theorem SameDesk.refl (p : EncoderPool) : SameDesk p p := ⟨rfl, rfl, id⟩

theorem SameDesk.trans {p' p'' : EncoderPool} (h : SameDesk p p') (h' : SameDesk p' p'') : SameDesk p p'' :=
  ⟨h'.types.trans h.types, h'.standard.trans h.standard, fun hs => h'.sound (h.sound hs)⟩

theorem sameDesk_borrow (p : EncoderPool) (c : Codec) : SameDesk p (p.borrow c).2 := by
  refine ⟨?_, ?_, fun h => h.borrow c⟩ <;>
  · unfold EncoderPool.borrow
    split
    · cases c <;> rfl
    · rfl

theorem sameDesk_release (p : EncoderPool) (e : Encoder) : SameDesk p (p.release e) := by
  refine ⟨?_, ?_, fun h => h.release e⟩ <;>
  · unfold EncoderPool.release
    simp only
    split
    · cases e.codec <;> rfl
    · rfl

/-! ### Encoding and decoding -/

theorem sameDesk_encode (p : EncoderPool) (c : Codec) (payload : Payload) : SameDesk p (p.encode c payload).2 :=
  (sameDesk_borrow p c).trans (sameDesk_release _ _)

theorem sameDesk_decodeDetected (p : EncoderPool) (bytes : Bytes) : SameDesk p (p.decodeDetected bytes).2 :=
  (sameDesk_borrow p _).trans (sameDesk_release _ _)

/-- What an encoder answers does not depend on its scratch area. -/
theorem fst_encode (e : Encoder) (payload : Payload) : (e.encode payload).1 = e.codec.encode payload := by
  unfold Encoder.encode
  cases e.codec.encode payload <;> rfl

/-- A sound pool encodes as the codec does. -/
theorem Sound.encode_fst (h : p.Sound) (c : Codec) (payload : Payload) :
    (p.encode c payload).1 = c.encode payload := by
  have hcodec := h.codec_borrow c
  have hencode := fst_encode (p.borrow c).1 payload
  rw [hcodec] at hencode
  exact hencode

/-- A sound pool decodes as the codec does that the message speaks for. -/
theorem Sound.decodeDetected_fst (h : p.Sound) (bytes : Bytes) :
    (p.decodeDetected bytes).1 = (Codec.detect bytes).decode p.types bytes := by
  have hcodec := h.codec_borrow (Codec.detect bytes)
  have htypes := (sameDesk_borrow p (Codec.detect bytes)).types
  unfold EncoderPool.decodeDetected Encoder.decode
  simp only [hcodec, htypes]

/-- Whatever encoder a pool lends, it decodes by some codec. -/
theorem exists_decode_of_decodeDetected (p : EncoderPool) (bytes : Bytes) :
    ∃ c : Codec, (p.decodeDetected bytes).1 = c.decode p.types bytes := by
  have htypes := (sameDesk_borrow p (Codec.detect bytes)).types
  refine ⟨(p.borrow (Codec.detect bytes)).1.codec, ?_⟩
  unfold EncoderPool.decodeDetected Encoder.decode
  simp only [htypes]

/-! ### How full a pool is -/

/-- No more encoders are idle than the pool is to keep. -/
def Bounded (p : EncoderPool) : Prop := ∀ c, (p.idle c).length ≤ p.capacity

theorem bounded_empty (types : TypeRegistry) (standard : Codec) (capacity : Nat) :
    (empty types standard capacity).Bounded := by
  intro c
  cases c <;> exact Nat.zero_le _

@[simp] theorem capacity_setIdle (p : EncoderPool) (c : Codec) (l : List Encoder) :
    (p.setIdle c l).capacity = p.capacity := by
  cases c <;> rfl

@[simp] theorem capacity_borrow (p : EncoderPool) (c : Codec) : (p.borrow c).2.capacity = p.capacity := by
  unfold EncoderPool.borrow
  split
  · exact capacity_setIdle p c _
  · rfl

@[simp] theorem capacity_release (p : EncoderPool) (e : Encoder) : (p.release e).capacity = p.capacity := by
  unfold EncoderPool.release
  simp only
  split
  · exact capacity_setIdle p e.codec _
  · rfl

/-- What is lent is missing from the idle encoders of its codec, if it is not new. -/
theorem idle_borrow (p : EncoderPool) (c c' : Codec) :
    (p.borrow c).2.idle c' = if c' = c then (p.idle c).tail else p.idle c' := by
  unfold EncoderPool.borrow
  split
  · rename_i e rest hidle
    split
    · rename_i hc
      rw [hc, idle_setIdle_self, hidle, List.tail_cons]
    · rename_i hc
      exact idle_setIdle_of_ne p hc rest
  · rename_i hidle
    have hsame : ({ p with made := p.made + 1 } : EncoderPool).idle c' = p.idle c' := by cases c' <;> rfl
    rw [hsame]
    split
    · rename_i hc
      rw [hc, hidle, List.tail_nil]
    · rfl

/-- What is taken back lies on top of the idle encoders of its codec, if there is room. -/
theorem idle_release (p : EncoderPool) (e : Encoder) (c : Codec) :
    (p.release e).idle c =
      if c = e.codec ∧ (p.idle e.codec).length < p.capacity then e.reset :: p.idle e.codec else p.idle c := by
  unfold EncoderPool.release
  simp only
  split
  · rename_i hroom
    by_cases hc : c = e.codec
    · simp [hc, hroom]
    · rw [idle_setIdle_of_ne p hc, if_neg fun h => hc h.1]
  · rename_i hfull
    rw [if_neg fun h => hfull h.2]

theorem Bounded.borrow (h : p.Bounded) (c : Codec) : (p.borrow c).2.Bounded := by
  intro c'
  rw [idle_borrow, capacity_borrow]
  split
  · have hc := h c
    rw [List.length_tail]
    omega
  · exact h c'

theorem Bounded.release (h : p.Bounded) (e : Encoder) : (p.release e).Bounded := by
  intro c
  rw [idle_release, capacity_release]
  split
  · rename_i hroom
    exact hroom.2
  · exact h c

/-- What is done with a pool: an encoder is borrowed, or one is given to it, wherever it comes from. -/
inductive Use
  | borrow (c : Codec)
  | release (e : Encoder)

def use (p : EncoderPool) : Use → EncoderPool
  | .borrow c => (p.borrow c).2
  | .release e => p.release e

def useAll (p : EncoderPool) (uses : List Use) : EncoderPool := uses.foldl use p

/-- The pool is what some use has left of a new one. -/
def Reached (p : EncoderPool) : Prop :=
  ∃ types standard capacity uses, p = (empty types standard capacity).useAll uses

theorem Sound.useAll (h : p.Sound) (uses : List Use) : (p.useAll uses).Sound := by
  induction uses generalizing p with
  | nil => exact h
  | cons u uses ih =>
    cases u with
    | borrow c => exact ih (h.borrow c)
    | release e => exact ih (h.release e)

theorem Bounded.useAll (h : p.Bounded) (uses : List Use) : (p.useAll uses).Bounded := by
  induction uses generalizing p with
  | nil => exact h
  | cons u uses ih =>
    cases u with
    | borrow c => exact ih (h.borrow c)
    | release e => exact ih (h.release e)

theorem Reached.sound (h : p.Reached) : p.Sound := by
  obtain ⟨types, standard, capacity, uses, rfl⟩ := h
  exact (sound_empty types standard capacity).useAll uses

theorem Reached.bounded (h : p.Reached) : p.Bounded := by
  obtain ⟨types, standard, capacity, uses, rfl⟩ := h
  exact (bounded_empty types standard capacity).useAll uses

/-! ### What a loan leaves behind -/

/-- An encoder is the same after encoding, but for its scratch area. -/
theorem reset_encode (e : Encoder) (payload : Payload) :
    (e.encode payload).2.codec = e.codec ∧ (e.encode payload).2.reset = e.reset := by
  unfold Encoder.encode
  split <;> exact ⟨rfl, rfl⟩

/-- After encoding the borrowed encoder lies on top of the others of its codec, if there is room for it. -/
theorem Sound.idle_encode (h : p.Sound) (c : Codec) (payload : Payload) (c' : Codec) :
    (p.encode c payload).2.idle c' =
      if c' = c ∧ ((p.borrow c).2.idle c).length < p.capacity then (p.borrow c).1.reset :: (p.borrow c).2.idle c
      else (p.borrow c).2.idle c' := by
  obtain ⟨hcodec, hreset⟩ := reset_encode (p.borrow c).1 payload
  have hlent := h.codec_borrow c
  change ((p.borrow c).2.release ((p.borrow c).1.encode payload).2).idle c' = _
  rw [idle_release, hcodec, hlent, hreset, capacity_borrow]

/-- A pool that encodes has no fewer idle encoders afterwards. -/
theorem Bounded.length_idle_encode (hb : p.Bounded) (h : p.Sound) (c : Codec) (payload : Payload) (c' : Codec) :
    (p.idle c').length ≤ ((p.encode c payload).2.idle c').length := by
  rw [h.idle_encode]
  by_cases hc : c' = c
  · subst hc
    have hlent : ((p.borrow c').2.idle c').length = (p.idle c').length - 1 := by
      rw [idle_borrow, if_pos rfl, List.length_tail]
    have hbound := hb c'
    split
    · rw [List.length_cons, hlent]
      omega
    · rename_i hfull
      -- without room nothing was idle: there was a place for what was lent
      rw [not_and, hlent] at hfull
      have hnone := hfull rfl
      rw [hlent]
      omega
  · refine Nat.le_of_eq ?_
    rw [if_neg fun h => hc h.1, idle_borrow, if_neg hc]

end Switchboard.EncoderPool
