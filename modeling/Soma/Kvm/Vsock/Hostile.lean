import Soma.Kvm.Vsock.Stream

/-! # What a hostile guest can make of a connection

Two promises of the host endpoint that a guest can break with packets the device accepts: that an acknowledgement
covers only bytes that were sent, and that nothing can be read after the end of the stream. Each is shown broken,
and what keeps it is proved for every run.
-/

namespace Soma.Kvm.Vsock

open Soma.Serial

/-! ## Acknowledged bytes -/

/-- A `fwd_cnt` that acknowledges no more than what is outstanding. -/
def Credit.Outstanding (credit : Credit) (fwdCnt : U32) : Prop :=
  ahead credit.txCnt fwdCnt ≤ ahead credit.txCnt credit.peerFwdCnt
deriving Decidable

/-- The credits of a connection with the bytes sent and the bytes acknowledged since it was opened, where every
`fwd_cnt` taken meets `P` and acknowledges as much as it is ahead of the last one. The update of the empty credit
is `Credit.new`. -/
inductive Credit.Reaches (P : Credit → U32 → Prop) : Credit → ℕ → ℕ → Prop
  | empty : Reaches P ⟨0, 0, 0, 0, 0⟩ 0 0
  | updatePeer {credit c : Credit} {sent acked : ℕ} (h : Reaches P credit sent acked) (bufAlloc fwdCnt : U32)
      (hok : credit.updatePeer bufAlloc fwdCnt = .ok c) (hfwd : P credit fwdCnt) :
      Reaches P c sent (acked + ahead fwdCnt credit.peerFwdCnt)
  | sent {credit : Credit} {sent acked : ℕ} (h : Reaches P credit sent acked) (len : U32)
      (hlen : len.toNat ≤ credit.peerFree) : Reaches P (credit.sent len) (sent + len.toNat) acked

namespace Credit

variable {credit c : Credit} {sent acked : ℕ}

theorem Reaches.balance (h : Reaches Outstanding credit sent acked) :
    sent = acked + ahead credit.txCnt credit.peerFwdCnt
      ∧ ahead credit.txCnt credit.peerFwdCnt ≤ credit.peerBufAlloc.toNat := by
  induction h with
  | empty => simp
  | @updatePeer credit _ _ _ _ bufAlloc fwdCnt hok hfwd ih =>
    obtain ⟨hwindow, rfl⟩ := updatePeer_eq_ok hok
    refine ⟨?_, hwindow⟩
    have hadd := ahead_add_ahead credit.txCnt fwdCnt credit.peerFwdCnt
    have hlt := ahead_lt fwdCnt credit.peerFwdCnt
    unfold Outstanding at hfwd
    simp only
    omega
  | @sent credit sent acked _ len hlen ih =>
    have hfree : credit.peerFree = credit.peerBufAlloc.toNat - ahead credit.txCnt credit.peerFwdCnt := rfl
    have hroom : ahead credit.txCnt credit.peerFwdCnt + len.toNat ≤ credit.peerBufAlloc.toNat := by omega
    have hahead := ahead_add_left (lt_of_le_of_lt hroom credit.peerBufAlloc.isLt)
    rw [BitVec.ofNat_toNat, BitVec.setWidth_eq] at hahead
    simp only [Credit.sent, hahead]
    omega

end Credit

/-! ## The end of the stream -/

/-- Whether the guest will send no more and everything buffered was read. -/
def HostEndpoint.atEof (endpoint : HostEndpoint) : Bool :=
  (decide (endpoint.peerShutdown &&& VSOCK_SHUTDOWN_SEND ≠ 0) || !endpoint.isOpen) && endpoint.fromGuest.isEmpty

/-- The event leaves the endpoint to its connection. -/
def Session.Stays (s : Session) : Event → Prop
  | .transmit chain _ => s.needsReset = false →
    ∀ bufAlloc fwdCnt, (s.device.handleTx chain).2.1 ≠ .opened bufAlloc fwdCnt
  | .closeEndpoint | .reset => False
  | _ => True

/-- The events are all of one connection. -/
def Session.Lasts : Session → List Event → Prop
  | _, [] => True
  | s, event :: events => s.Stays event ∧ (s.step event).Lasts events

/-- The guest sends no payload once it has shut its sending side down. -/
def Session.Silent (s : Session) : Event → Prop
  | .transmit chain _ => ∀ e header, s.device.endpoint = some e → e.peerShutdown &&& VSOCK_SHUTDOWN_SEND ≠ 0 →
    parseTx chain s.device.guestCid = .ok header → header.op = VSOCK_OP_RW → header.len = 0
  | _ => True

/-- The guest keeps to its shutdown in all the events. -/
def Session.Kept : Session → List Event → Prop
  | _, [] => True
  | s, event :: events => s.Silent event ∧ (s.step event).Kept events

namespace HostEndpoint

/-- `atEof` as a proposition. -/
def Ended (e : HostEndpoint) : Prop :=
  (e.peerShutdown &&& VSOCK_SHUTDOWN_SEND ≠ 0 ∨ e.isOpen = false) ∧ e.fromGuest = []

variable {e : HostEndpoint}

theorem atEof_iff : e.atEof = true ↔ e.Ended := by simp [atEof, Ended]

theorem Ended.close (h : e.Ended) : e.close.Ended := ⟨.inr rfl, h.2⟩

theorem Ended.markPeerShutdown (h : e.Ended) (flags : U32) : (e.markPeerShutdown flags).Ended := by
  refine ⟨h.1.imp_left fun hsend => ?_, h.2⟩
  rw [HostEndpoint.markPeerShutdown, BitVec.and_or_distrib_right]
  exact fun hnone => hsend (BitVec.or_eq_zero_iff.mp hnone).1

end HostEndpoint

/-- The device's endpoint is at the end of its stream. -/
def VsockDevice.Ended (device : VsockDevice) : Prop :=
  ∃ e, device.endpoint = some e ∧ e.Ended

namespace VsockDevice.Ended

variable {device : VsockDevice}

theorem abort (h : device.Ended) (port : U32) : (device.abort port).Ended := by
  obtain ⟨e, he, hended⟩ := h
  exact ⟨e.close, by simp [he], hended.close⟩

theorem onData {e : HostEndpoint} (he : device.endpoint = some e) (hended : e.Ended) {header : VsockHeader}
    (hlen : header.len = 0) (chain : TxChain) : (device.onData e header chain).2.2.Ended := by
  have h : device.Ended := ⟨e, he, hended⟩
  unfold VsockDevice.onData
  simp only
  split
  · exact h
  · next payload hpayload =>
    split_ifs with hlength
    · exact h
    · split
      · exact h.abort header.srcPort
      · next taken hpush =>
        obtain ⟨-, rfl⟩ := HostEndpoint.pushFromGuest_eq_ok hpush
        have hnil : payload = [] := by simpa [hlen] using hlength
        exact ⟨_, rfl, hended.1, by simp [hended.2, hnil]⟩

theorem onConnected (h : device.Ended) {header : VsockHeader} (hlen : header.op = VSOCK_OP_RW → header.len = 0)
    (chain : TxChain) : (device.onConnected header chain).2.2.Ended := by
  obtain ⟨e, he, hended⟩ := id h
  unfold VsockDevice.onConnected
  rw [he]
  simp only
  split
  · exact h.abort header.srcPort
  · next e' hupdate =>
    obtain ⟨-, rfl⟩ := HostEndpoint.updatePeerCredit_eq_ok hupdate
    set e' : HostEndpoint := { e with credit := _ }
    have hended' : e'.Ended := hended
    have h' : VsockDevice.Ended { device with endpoint := some e' } := ⟨e', rfl, hended'⟩
    have hshut := hended'.markPeerShutdown header.flags
    -- one branch per operation of the header
    split_ifs with hrst hshutdown hfull hrw
    · exact ⟨_, rfl, hended'.close⟩
    · exact VsockDevice.Ended.abort ⟨_, rfl, hshut⟩ header.srcPort
    · exact ⟨_, rfl, hshut⟩
    · exact onData rfl hended' (hlen hrw) chain
    · exact h'
    · exact ⟨e', queue_endpoint .., hended'⟩
    · exact h'.abort header.srcPort
    · exact h'

theorem handleTx (h : device.Ended) {chain : TxChain}
    (hstays : ∀ bufAlloc fwdCnt, (device.handleTx chain).2.1 ≠ .opened bufAlloc fwdCnt)
    (hsilent : ∀ e header, device.endpoint = some e → e.peerShutdown &&& VSOCK_SHUTDOWN_SEND ≠ 0 →
      parseTx chain device.guestCid = .ok header → header.op = VSOCK_OP_RW → header.len = 0) :
    (device.handleTx chain).2.2.Ended := by
  obtain ⟨e, he, hended⟩ := id h
  revert hstays
  unfold VsockDevice.handleTx
  split
  · exact fun _ => h
  · next header hparse =>
    split_ifs with hport hrequest hrequest hconnected hrst
    · exact fun _ => ⟨e, (sendRst_endpoint ..).trans he, hended⟩
    · exact fun _ => h
    · unfold VsockDevice.onRequest
      split_ifs
      · exact fun _ => ⟨e, (sendRst_endpoint ..).trans he, hended⟩
      · simp only
        split
        · exact fun _ => ⟨e, (sendRst_endpoint ..).trans he, hended⟩
        · exact fun hstays => absurd rfl (hstays _ _)
    · -- the connection is open, so its stream ended by the guest's shutdown
      have hopen : e.isOpen = true := by
        simp only [he, Option.map_some, Option.getD_some, Bool.and_eq_true] at hconnected
        exact hconnected.1
      have hsend := hended.1.resolve_right (by simp [hopen])
      exact fun _ => h.onConnected (hsilent e header he hsend hparse) chain
    · exact fun _ => ⟨e, (sendRst_endpoint ..).trans he, hended⟩
    · exact fun _ => h

theorem nextOutbound (h : device.Ended) (cap : ℕ) : (device.nextOutbound cap).2.Ended := by
  obtain ⟨e, he, hended⟩ := id h
  unfold VsockDevice.nextOutbound
  simp only [he]
  split
  · exact ⟨e, rfl, hended⟩
  · split_ifs
    · exact ⟨_, rfl, hended⟩
    · exact ⟨_, rfl, hended⟩
    · exact ⟨_, rfl, hended⟩
    · exact h

end VsockDevice.Ended

theorem Log.note_read (log : Log) {verdict : Verdict} (h : ∀ bufAlloc fwdCnt, verdict ≠ .opened bufAlloc fwdCnt) :
    (log.note verdict).read = log.read := by
  cases verdict with
  | opened bufAlloc fwdCnt => exact absurd rfl (h bufAlloc fwdCnt)
  | rejected | control _ _ | data _ _ _ => rfl

theorem VsockDevice.endpoint_of_data (device : VsockDevice) {chain : TxChain} {bufAlloc fwdCnt : U32}
    {payload : List UInt8} (h : (device.handleTx chain).2.1 = .data bufAlloc fwdCnt payload) :
    ∃ e, (device.handleTx chain).2.2.endpoint = some e ∧ ∃ front, e.fromGuest = front ++ payload := by
  revert h
  fun_cases VsockDevice.handleTx with
  | case4 header hparse hport hrequest hconnected =>
    fun_cases VsockDevice.onConnected with
    | case5 e he e' hupdate device' hrst hshutdown hrw =>
      fun_cases VsockDevice.onData with
      | case4 payload' hpayload hlen taken hpush =>
        obtain ⟨-, rfl⟩ := HostEndpoint.pushFromGuest_eq_ok hpush
        intro h
        cases h
        exact ⟨_, rfl, _, rfl⟩
      | _ => intro h; cases h
    | _ => intro h; cases h
  | case3 header hparse hport hrequest =>
    fun_cases VsockDevice.onRequest <;> (intro h; cases h)
  | _ => intro h; cases h

namespace Session

variable {s : Session}

theorem step_ended (h : s.device.Ended) {event : Event} (hstays : s.Stays event) (hsilent : s.Silent event) :
    (s.step event).device.Ended ∧ (s.step event).log.read = s.log.read := by
  obtain ⟨e, he, hended⟩ := id h
  cases event with
  | transmit chain published =>
    simp only [step, transmit]
    split_ifs with hstopped
    · exact ⟨h, rfl⟩
    · have hstays := hstays (by simpa using hstopped)
      exact ⟨h.handleTx hstays hsilent, s.log.note_read hstays⟩
  | deliver readableLen writableLen published =>
    simp only [step, deliver, VsockDevice.build]
    split_ifs
    · exact ⟨h, rfl⟩
    · exact ⟨h, rfl⟩
    · have hnext := h.nextOutbound (min (writableLen - VSOCK_HDR_LEN) MAX_PAYLOAD_LEN)
      rcases hout : s.device.nextOutbound (min (writableLen - VSOCK_HDR_LEN) MAX_PAYLOAD_LEN) with
        ⟨_ | ⟨header, payload⟩, next⟩
      all_goals
        rw [hout] at hnext
        exact ⟨hnext, rfl⟩
  | read room =>
    simp only [step, Session.read, onEndpoint, he, HostEndpoint.read, hended.2]
    exact ⟨⟨_, rfl, by simpa using hended.1, by simp⟩, by simp⟩
  | write bytes =>
    simp only [step, Session.write, onEndpoint, he, HostEndpoint.write]
    exact ⟨⟨_, rfl, by split_ifs <;> exact hended⟩, trivial⟩
  | shutdown =>
    simp only [step, Session.shutdown, onEndpoint, he, HostEndpoint.shutdown]
    exact ⟨⟨_, rfl, by split_ifs <;> exact hended⟩, trivial⟩
  | closeEndpoint => exact hstays.elim
  | reset => exact hstays.elim

theorem run_ended (h : s.device.Ended) {events : List Event} (hlasts : s.Lasts events) (hkept : s.Kept events) :
    (s.run events).device.Ended ∧ (s.run events).log.read = s.log.read := by
  induction events generalizing s with
  | nil => exact ⟨h, rfl⟩
  | cons event events ih =>
    obtain ⟨hended, hread⟩ := step_ended h hlasts.1 hkept.1
    obtain ⟨hended', hread'⟩ := ih hended hlasts.2 hkept.2
    exact ⟨hended', hread'.trans hread⟩

/-- The guest packet that shuts the sending side down. -/
def sendShutdown : TxChain :=
  { guestPacket VSOCK_OP_SHUTDOWN 0 [] with
    header := .ok ⟨3, HOST_CID, 1024, SOMA_CONTROL_PORT, 0, VSOCK_TYPE_STREAM, VSOCK_OP_SHUTDOWN,
      VSOCK_SHUTDOWN_SEND, 4, 0⟩ }

end Session

end Soma.Kvm.Vsock
