import Switchboard.Proofs.Delivery.Change
import Switchboard.Proofs.Request.Frame

/-!
# What a request gathers

A request counts the packets that reach it, one after the other. As long as it is open it keeps those that carry its
id, in this order (`Request.replies_foldl_count`), and it keeps no others (`Request.count_of_foreign`).
-/

namespace Switchboard

/-! ### One request -/

/-- Marking a request as sent changes neither its id nor its replies. -/
theorem ReplyCollector.id_replies_markSent (r : ReplyCollector) :
    r.markSent.id = r.id ∧ r.markSent.replies = r.replies := by
  unfold markSent
  split <;> exact ⟨rfl, rfl⟩

theorem ReplyCollector.isClosed_markSent {r : ReplyCollector} (h : r.isClosed = false) :
    r.markSent.isClosed = false := by
  unfold markSent
  split
  · rfl
  · exact h

namespace Request

variable {r : Request} {packet : Packet}

/-- The request after a packet has reached it. -/
def count (r : Request) (packet : Packet) : Request := { r with collector := (r.collector.receive packet).2 }

@[simp] theorem id_count (r : Request) (packet : Packet) : (r.count packet).collector.id = r.collector.id := by
  unfold count ReplyCollector.receive
  split
  · rfl
  · split <;> rfl

/-- A packet with another id is not counted. -/
theorem count_of_foreign {h : RpcHeader} (hheader : packet.header = .rpc h) (hid : h.packetId ≠ r.collector.id.text) :
    r.count packet = r := by
  unfold count ReplyCollector.receive ReplyCollector.check
  rw [hheader]
  simp only [if_neg hid]

theorem count_of_unclosed (hopen : r.collector.isClosed = false) (hcheck : r.collector.check packet = .ok ()) :
    r.count packet = { r with collector :=
      { r.collector with replies := r.collector.replies ++ [packet], phase := .accumulating } } := by
  unfold count ReplyCollector.receive
  rw [hcheck]
  simp only [hopen]
  rfl

/-- An open request keeps the packets that carry its id, in order of arrival. -/
theorem replies_foldl_count {l : List Packet} (hopen : r.collector.isClosed = false)
    (hcheck : ∀ packet ∈ l, r.collector.check packet = .ok ()) :
    (l.foldl count r).collector.replies = r.collector.replies ++ l ∧
      (l.foldl count r).collector.isClosed = false ∧ (l.foldl count r).collector.id = r.collector.id := by
  induction l generalizing r with
  | nil => simp [hopen]
  | cons packet l ih =>
    rw [List.forall_mem_cons] at hcheck
    have hcount := count_of_unclosed hopen hcheck.1
    obtain ⟨hreplies, hstill, hid⟩ := ih (r := r.count packet) (by rw [hcount]; rfl) fun packet' hpacket' => by
      rw [hcount]
      exact hcheck.2 packet' hpacket'
    rw [List.foldl_cons]
    refine ⟨?_, hstill, hid.trans (r.id_count packet)⟩
    rw [hreplies, hcount, List.append_assoc, List.singleton_append]

end Request

/-! ### One request among others -/

/-- One request counts some packets, one after the other, and all others stay as they are. -/
def RequestChange.gathers (client serial : Nat) (packets : List Packet) : RequestChange := fun j k r r' =>
  r' = if j = client ∧ k = serial then packets.foldl Request.count r else r

theorem RequestChange.gathers_nil (client serial : Nat) : gathers client serial [] = none := by
  funext j k r r'
  simp [gathers, none]

theorem RequestChange.id_of_gathers {client serial j k : Nat} {packets : List Packet} {r r' : Request}
    (h : gathers client serial packets j k r r') : r'.collector.id = r.collector.id := by
  have hfold : (packets.foldl Request.count r).collector.id = r.collector.id := by
    clear h
    induction packets generalizing r with
    | nil => rfl
    | cons packet packets ih => exact ih.trans (r.id_count packet)
  rw [h]
  split
  · exact hfold
  · rfl

namespace Bus

variable {client serial : Nat} {b b' b'' : Bus}

theorem Changed.gather {l l' : List Packet} (h : Changed (.gathers client serial l) b b')
    (h' : Changed (.gathers client serial l') b' b'') : Changed (.gathers client serial (l ++ l')) b b'' := by
  refine h.trans (fun j k r r' r'' hfirst hsecond => ?_) h'
  unfold RequestChange.gathers at *
  rw [hsecond, hfirst]
  split
  · rw [List.foldl_append]
  · rfl

/-- A reply route lets its request count the packet that comes in, if it is one. -/
theorem changed_replyExecutor (client serial : Nat) (decoded : Option Payload) (b : Bus) :
    Changed (.gathers client serial (decoded.bind Packet.ofPayload?).toList) b
      ((replyExecutor client serial).execute decoded b).2 := by
  rw [Executor.execute_snd]
  cases decoded.bind Packet.ofPayload? with
  | none =>
    rw [Option.toList_none, RequestChange.gathers_nil]
    exact .refl_none b
  | some packet =>
    simp only [Option.toList_some]
    -- errors are told before the packet is counted
    have herrors : Changed .none b (if packet.errors.isEmpty then b
        else (replyExecutor client serial).handleErrors packet packet.errors b) := by
      split
      · exact .refl_none b
      · simp only [replyExecutor]
        split
        · exact changed_record b _
        · exact .refl_none b
    refine herrors.none_trans ?_
    generalize (if packet.errors.isEmpty then b
      else (replyExecutor client serial).handleErrors packet packet.errors b) = b₁
    have hrefl : ∀ {j k : Nat} {r : Request}, ¬(j = client ∧ k = serial) →
        RequestChange.gathers client serial [packet] j k r r := by
      intro j k r hother
      exact (if_neg hother).symm
    simp only [replyExecutor]
    split
    · rename_i hnone
      -- without the request there is nothing to count
      refine ⟨rfl, rfl, rfl, rfl, rfl, rfl, fun {j c} hc =>
        ⟨c, hc, rfl, .refl _, rfl, rfl, fun {k r} hr => ?_, rfl, rfl, rfl⟩⟩
      refine ⟨r, hr, hrefl ?_⟩
      rintro ⟨rfl, rfl⟩
      simp [request?, hc, hr] at hnone
    · rename_i r hr
      refine ⟨rfl, rfl, rfl, rfl, rfl, by simp [updateClient], fun {j c} hc => ?_⟩
      rw [clients_updateClient]
      by_cases hj : client = j
      · subst hj
        rw [if_pos rfl, hc]
        refine ⟨_, rfl, rfl, .refl _, rfl, by simp [Client.updateCollector], fun {k q} hq => ?_, rfl, rfl, rfl⟩
        simp only [Client.updateCollector, List.getElem?_modify, hq]
        by_cases hk : serial = k
        · subst hk
          obtain rfl : r = q := by simpa [request?, hc, hq] using hr.symm
          exact ⟨r.count packet, by simp [Request.count], by simp [RequestChange.gathers]⟩
        · exact ⟨q, by simp [hk], hrefl fun h => hk h.2.symm⟩
      · rw [if_neg hj]
        exact ⟨c, hc, rfl, .refl _, rfl, rfl, fun hq => ⟨_, hq, hrefl fun h => hj h.1.symm⟩, rfl, rfl, rfl⟩

end Bus

end Switchboard
