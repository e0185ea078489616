import Switchboard.Bus.Executor
import Mathlib.Data.List.Perm.Basic

/-!
# How executors are called

An executor is not called with what is no packet. With a packet it is called with the errors among the payloads, if
there are any, and then with the other payloads (`Executor.execute_of_packet`). Only the second call can fail, so at
most one error is reported (`Executor.length_execute_le`).
-/

namespace Switchboard

/-! ### The two halves of a packet -/

namespace Packet

theorem map_error_errors (p : Packet) : p.errors.map Payload.error = p.payloads.filter (·.error?.isSome) := by
  unfold errors
  induction p.payloads with
  | nil => rfl
  | cons x l ih =>
    cases x with
    | error e => exact congrArg (Payload.error e :: ·) ih
    | _ => exact ih

theorem error?_of_mem_others {p : Packet} {x : Payload} (h : x ∈ p.others) : x.error? = none :=
  Option.isNone_iff_eq_none.1 (List.mem_filter.1 h).2

/-- No payload is lost, and none is counted twice. -/
theorem perm_errors_others (p : Packet) : (p.errors.map Payload.error ++ p.others).Perm p.payloads := by
  have hothers : p.others = p.payloads.filter fun x => !x.error?.isSome :=
    List.filter_congr fun x _ => (Option.not_isSome x.error?).symm
  rw [p.map_error_errors, hothers]
  exact List.filter_append_perm _ _

end Packet

/-! ### Execution -/

namespace Executor

variable {σ : Type} {decoded : Option Payload} {packet : Packet}

/-- What is no packet is reported, and the executor is not called. -/
theorem execute_of_none (x : Executor σ) (h : decoded.bind Packet.ofPayload? = none) (s : σ) :
    x.execute decoded s = ([.noValidPacket], s) := by
  unfold execute
  rw [h]

/-- A packet is handled by the two halves of an executor, one after the other. -/
theorem execute_of_packet (x : Executor σ) (h : decoded.bind Packet.ofPayload? = some packet) (s : σ) :
    x.execute decoded s =
      let handled := x.handlePayloads packet packet.others
        (if packet.errors.isEmpty then s else x.handleErrors packet packet.errors s)
      (match handled.1 with
        | .ok _ => []
        | .error e => [.ofBusError e], handled.2) := by
  unfold execute
  rw [h]
  simp only
  generalize x.handlePayloads packet packet.others _ = handled
  obtain ⟨result, s'⟩ := handled
  cases result <;> rfl

/-- What an executor leaves behind. -/
theorem execute_snd (x : Executor σ) (decoded : Option Payload) (s : σ) :
    (x.execute decoded s).2 =
      match decoded.bind Packet.ofPayload? with
      | none => s
      | some packet => (x.handlePayloads packet packet.others
          (if packet.errors.isEmpty then s else x.handleErrors packet packet.errors s)).2 := by
  cases h : decoded.bind Packet.ofPayload? with
  | none => rw [x.execute_of_none h]
  | some packet => rw [x.execute_of_packet h]

/-- At most one error is reported. -/
theorem length_execute_le (x : Executor σ) (decoded : Option Payload) (s : σ) :
    (x.execute decoded s).1.length ≤ 1 := by
  cases h : decoded.bind Packet.ofPayload? with
  | none => rw [x.execute_of_none h]; exact Nat.le_refl 1
  | some packet =>
    rw [x.execute_of_packet h]
    simp only
    split <;> simp

end Executor

end Switchboard
