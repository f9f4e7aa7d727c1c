import Soma.Kvm.Vsock.Device

/-! # Stream integrity and credit of a connection

A session is the device behind its transport, driven by three independent parties: the guest
transmits packets and posts receive buffers, and the host reads, writes and shuts its endpoint down.
Beside the device it keeps the history of the current connection, from which the properties are
stated; a new connection starts a new history.

The transport stops at the first fault: a payload that could not be read, a packet that could not be
written out or a chain that could not be completed sets `DEVICE_NEEDS_RESET`, and nothing is served
or delivered before the driver resets the device.
-/

namespace Soma.Kvm.Vsock

open Soma.Serial VsockDevice HostEndpoint List

/-- The history of one connection. -/
structure Log where
  /-- Payloads of the accepted data packets, in order. -/
  accepted : List UInt8
  /-- Bytes the host has read. -/
  read : List UInt8
  /-- Bytes the endpoint accepted from the host. -/
  written : List UInt8
  /-- Bytes delivered to the guest. -/
  delivered : List UInt8
  /-- How many bytes were taken for sending, delivered or lost in a fault. -/
  sent : ℕ
  /-- The last window accepted from the guest. -/
  bufAlloc : U32
  fwdCnt : U32
deriving DecidableEq

namespace Log

def start (bufAlloc fwdCnt : U32) : Log :=
  ⟨[], [], [], [], 0, bufAlloc, fwdCnt⟩

variable (log : Log)

def window (bufAlloc fwdCnt : U32) : Log :=
  { log with bufAlloc, fwdCnt }

/-- What a transmit chain adds to the history. -/
def note : Verdict → Log
  | .rejected => log
  | .opened bufAlloc fwdCnt => .start bufAlloc fwdCnt
  | .control bufAlloc fwdCnt => log.window bufAlloc fwdCnt
  | .data bufAlloc fwdCnt payload =>
    { log.window bufAlloc fwdCnt with accepted := log.accepted ++ payload }

/-- A packet's payload is on its way; it counts as delivered once its chain was published. -/
def send (payload : List UInt8) (published : Bool) : Log :=
  { log with
    sent := log.sent + payload.length
    delivered := if published then log.delivered ++ payload else log.delivered }

@[simp] theorem send_nil (published : Bool) : log.send [] published = log := by
  cases published <;> simp [send]

end Log

/-- The device, whether `DEVICE_NEEDS_RESET` is set, and the history of its connection. -/
structure Session where
  device : VsockDevice
  needsReset : Bool
  log : Log
deriving DecidableEq

/-- What one of the parties does; `published` says whether the chain could be written out and
completed on the used ring. -/
inductive Event where
  | transmit (chain : TxChain) (published : Bool)
  | deliver (readableLen writableLen : ℕ) (published : Bool)
  | read (room : ℕ)
  | write (bytes : List UInt8)
  | shutdown
  | closeEndpoint
  | reset

namespace Session

def start (device : VsockDevice) : Session :=
  ⟨device, false, .start 0 0⟩

variable (s : Session)

/-- One chain of the transmit queue. -/
def transmit (chain : TxChain) (published : Bool) : Session :=
  if s.needsReset then s
  else
    let (result, verdict, device) := s.device.handleTx chain
    ⟨device, !result.isOk || !published, s.log.note verdict⟩

/-- One turn of the receive delivery loop. -/
def deliver (readableLen writableLen : ℕ) (published : Bool) : Session :=
  if s.needsReset ∨ ¬ s.device.hasOutbound then s
  else match s.device.build readableLen writableLen with
    | (.packet _ payload, device) => ⟨device, !published, s.log.send payload published⟩
    | (_, device) => ⟨device, !published, s.log⟩

/-- A host call on the endpoint, if there is one. -/
def onEndpoint (f : HostEndpoint → HostEndpoint × Log) : Session :=
  match s.device.endpoint with
  | none => s
  | some endpoint =>
    let (endpoint, log) := f endpoint
    { s with device := { s.device with endpoint := some endpoint }, log }

def read (s : Session) (room : ℕ) : Session :=
  s.onEndpoint fun endpoint =>
    let (bytes, endpoint) := endpoint.read room
    (endpoint, { s.log with read := s.log.read ++ bytes })

def write (bytes : List UInt8) : Session :=
  s.onEndpoint fun endpoint =>
    let (count, endpoint) := endpoint.write bytes
    (endpoint, { s.log with written := s.log.written ++ bytes.take count })

def shutdown : Session :=
  s.onEndpoint fun endpoint => (endpoint.shutdown, s.log)

def step : Event → Session
  | .transmit chain published => s.transmit chain published
  | .deliver readableLen writableLen published => s.deliver readableLen writableLen published
  | .read room => s.read room
  | .write bytes => s.write bytes
  | .shutdown => s.shutdown
  | .closeEndpoint => { s with device := s.device.closeEndpoint }
  | .reset => { s with device := s.device.reset, needsReset := false }

def run (events : List Event) : Session :=
  events.foldl step s

end Session

/-! ## The connection invariant -/

/-- An endpoint agrees with the history of its connection. `stopped` is `DEVICE_NEEDS_RESET`: the
bytes taken by a failed delivery are lost, but then nothing is delivered any more. -/
structure Tracks (log : Log) (e : HostEndpoint) (stopped : Bool) : Prop where
  received : log.accepted = log.read ++ e.fromGuest
  inFlight : ahead e.credit.rxCnt e.credit.fwdCnt = e.fromGuest.length
  fits : e.fromGuest.length ≤ HOST_BUF_ALLOC.toNat
  buffered : e.toGuest.length ≤ HOST_TX_BUFFER
  pending : e.isOpen → stopped = false → log.written = log.delivered ++ e.toGuest
  delivered : log.delivered <+: log.written
  sent : e.credit.txCnt = BitVec.ofNat 32 log.sent
  counted : stopped = false → log.sent = log.delivered.length
  bufAlloc : e.credit.peerBufAlloc = log.bufAlloc
  fwdCnt : e.credit.peerFwdCnt = log.fwdCnt
  outstanding : ahead e.credit.txCnt e.credit.peerFwdCnt ≤ e.credit.peerBufAlloc.toNat

namespace Tracks

variable {log : Log} {e : HostEndpoint} {stopped : Bool} {e' : HostEndpoint}

theorem congr (h : Tracks log e stopped) (hcredit : e'.credit = e.credit) (hfrom : e'.fromGuest = e.fromGuest)
    (hto : e'.toGuest = e.toGuest) (hopen : e'.isOpen = e.isOpen) : Tracks log e' stopped := by
  obtain ⟨_, _, _, _, _, _, _, _, _⟩ := e
  obtain ⟨_, _, _, _, _, _, _, _, _⟩ := e'
  obtain ⟨rfl, rfl, rfl, rfl⟩ : _ ∧ _ ∧ _ ∧ _ := ⟨hcredit, hfrom, hto, hopen⟩
  exact ⟨h.received, h.inFlight, h.fits, h.buffered, h.pending, h.delivered, h.sent, h.counted,
    h.bufAlloc, h.fwdCnt, h.outstanding⟩

theorem stop (h : Tracks log e false) (stopped : Bool) : Tracks log e stopped :=
  { h with
    pending := fun hopen _ => h.pending hopen rfl
    counted := fun _ => h.counted rfl }

theorem close (h : Tracks log e stopped) : Tracks log e.close stopped :=
  { h with
    buffered := Nat.zero_le _
    pending := fun hopen => nomatch hopen }

theorem of_accept {peerPort generation bufAlloc fwdCnt : U32}
    (h : accept peerPort generation bufAlloc fwdCnt = .ok e) :
    Tracks (.start bufAlloc fwdCnt) e stopped := by
  obtain ⟨hwindow, rfl⟩ := accept_eq_ok h
  exact
    { received := rfl
      inFlight := ahead_self _
      fits := Nat.zero_le _
      buffered := Nat.zero_le _
      pending := fun _ _ => rfl
      delivered := prefix_rfl
      sent := rfl
      counted := fun _ => rfl
      bufAlloc := rfl
      fwdCnt := rfl
      outstanding := hwindow }

section

variable (h : Tracks log e stopped)
include h

/-- A window is taken only when it covers everything outstanding. -/
theorem of_updatePeerCredit {bufAlloc fwdCnt : U32} (hupdate : e.updatePeerCredit bufAlloc fwdCnt = .ok e') :
    Tracks (log.window bufAlloc fwdCnt) e' stopped := by
  obtain ⟨hwindow, rfl⟩ := updatePeerCredit_eq_ok hupdate
  exact { h with
    bufAlloc := rfl
    fwdCnt := rfl
    outstanding := hwindow }

theorem of_pushFromGuest {bytes : List UInt8} (hpush : e.pushFromGuest bytes = .ok e') :
    Tracks { log with accepted := log.accepted ++ bytes } e' stopped := by
  obtain ⟨hroom, rfl⟩ := pushFromGuest_eq_ok hpush
  have hahead := ahead_add_left (lt_of_le_of_lt hroom HOST_BUF_ALLOC.isLt)
  rw [h.inFlight] at hroom hahead
  exact { h with
    received := by simp only [h.received, append_assoc]
    inFlight := by simpa using hahead
    fits := by simpa only [length_append] using hroom }

theorem of_read (room : ℕ) : Tracks { log with read := log.read ++ (e.read room).1 } (e.read room).2 stopped := by
  have hsplit : log.accepted = (log.read ++ e.fromGuest.take room) ++ e.fromGuest.drop room := by
    rw [h.received, append_assoc, take_append_drop]
  have hfits : (e.fromGuest.drop room).length ≤ HOST_BUF_ALLOC.toNat := by
    have := h.fits
    rw [length_drop]
    omega
  have hle : (e.fromGuest.take room).length ≤ ahead e.credit.rxCnt e.credit.fwdCnt := by
    rw [h.inFlight, length_take]
    omega
  have hahead := ahead_add_right hle
  have hleft : ahead e.credit.rxCnt e.credit.fwdCnt - (e.fromGuest.take room).length
      = (e.fromGuest.drop room).length := by
    rw [h.inFlight, length_take, length_drop]
    omega
  rw [hleft, ← clampU32_of_lt (lt_of_le_of_lt hle (ahead_lt _ _))] at hahead
  unfold HostEndpoint.read
  simp only
  split_ifs with hsome
  · exact { h with
      received := hsplit
      inFlight := hahead
      fits := hfits }
  · exact { h with
      received := hsplit
      inFlight := by simpa [show (e.fromGuest.take room).length = 0 by omega] using hleft
      fits := hfits }

theorem of_write (bytes : List UInt8) :
    Tracks { log with written := log.written ++ bytes.take (e.write bytes).1 } (e.write bytes).2
      stopped := by
  unfold write
  split_ifs with hrefused
  · simpa using h
  · have hbuffered := h.buffered
    exact { h with
      buffered := by
        simp only [length_append, length_take]
        omega
      pending := fun hopen hgoing => by
        simp only [h.pending hopen hgoing, append_assoc]
      delivered := h.delivered.trans (prefix_append _ _) }

end

theorem of_takeToGuest (h : Tracks log e false) (hopen : e.isOpen) (cap : ℕ) (published : Bool) :
    Tracks (log.send (e.takeToGuest cap).1 published) (e.takeToGuest cap).2 (!published) := by
  set take := min (min cap e.credit.peerFree) e.toGuest.length with htake
  have hlen : (e.toGuest.take take).length = take := by
    rw [length_take]
    omega
  have hfree : ahead e.credit.txCnt e.credit.peerFwdCnt + take ≤ e.credit.peerBufAlloc.toNat := by
    have hpeer : e.credit.peerFree
        = e.credit.peerBufAlloc.toNat - ahead e.credit.txCnt e.credit.peerFwdCnt := rfl
    have := h.outstanding
    omega
  have hahead := ahead_add_left (lt_of_le_of_lt hfree e.credit.peerBufAlloc.isLt)
  have hclamp : clampU32 take = BitVec.ofNat 32 take := by
    have := e.credit.peerBufAlloc.isLt
    exact clampU32_of_lt (by omega)
  have hwritten := h.pending hopen rfl
  exact { h with
    buffered := by
      have := h.buffered
      simp only [takeToGuest, length_drop]
      omega
    pending := fun _ hgoing => by
      have hpublished : published = true := by simpa using hgoing
      simp only [Log.send, takeToGuest, hpublished, if_true, append_assoc, take_append_drop]
      exact hwritten
    delivered := by
      cases published with
      | false => exact h.delivered
      | true =>
        refine ⟨e.toGuest.drop take, ?_⟩
        simp only [Log.send, takeToGuest, if_true, append_assoc, ← htake, take_append_drop]
        exact hwritten.symm
    sent := by
      simp only [Log.send, takeToGuest, Credit.sent, ← htake, hclamp, hlen, h.sent, BitVec.ofNat_add]
    counted := fun hgoing => by
      have hpublished : published = true := by simpa using hgoing
      simp only [Log.send, takeToGuest, hpublished, if_true, length_append, h.counted rfl]
    outstanding := by
      simp only [takeToGuest, Credit.sent, ← htake, hclamp, hahead]
      exact hfree }

end Tracks

/-! ## One event -/

/-- Whatever endpoint the device has agrees with the history. -/
def Holds (log : Log) (device : VsockDevice) (stopped : Bool) : Prop :=
  ∀ e, device.endpoint = some e → Tracks log e stopped

variable (device : VsockDevice)

@[simp] theorem VsockDevice.queue_endpoint (op : U16) (dstPort flags : U32) :
    (device.queue op dstPort flags).endpoint = device.endpoint := by
  unfold queue
  split_ifs <;> rfl

@[simp] theorem VsockDevice.sendRst_endpoint (port : U32) : (device.sendRst port).endpoint = device.endpoint := by
  simp [sendRst]

@[simp] theorem VsockDevice.abort_endpoint (port : U32) :
    (device.abort port).endpoint = device.endpoint.map close := by
  simp [abort]

def payloadOf (packet : Option (VsockHeader × List UInt8)) : List UInt8 :=
  (packet.map (·.2)).getD []

@[simp] theorem payloadOf_none : payloadOf none = [] := rfl

@[simp] theorem payloadOf_some (header : VsockHeader) (payload : List UInt8) :
    payloadOf (some (header, payload)) = payload := rfl

namespace Holds

variable {log : Log} {device} {device' : VsockDevice} {stopped : Bool}

theorem of_some {e : HostEndpoint} (hdevice : device.endpoint = some e) (h : Tracks log e stopped) :
    Holds log device stopped := by
  intro e' he'
  obtain rfl : e = e' := Option.some.inj (hdevice.symm.trans he')
  exact h

theorem of_none (hdevice : device.endpoint = none) : Holds log device stopped := by
  intro e he
  rw [hdevice] at he
  cases he

theorem congr (h : Holds log device stopped) (hsame : device'.endpoint = device.endpoint) :
    Holds log device' stopped :=
  fun e he => h e (hsame ▸ he)

theorem stop (h : Holds log device false) (stopped : Bool) : Holds log device stopped :=
  fun e he => (h e he).stop stopped

theorem abort (h : Holds log device stopped) (port : U32) : Holds log (device.abort port) stopped := by
  intro e he
  rw [abort_endpoint, Option.map_eq_some_iff] at he
  obtain ⟨e₀, he₀, rfl⟩ := he
  exact (h e₀ he₀).close

theorem onRequest (h : Holds log device stopped) (header : VsockHeader) :
    Holds (log.note (device.onRequest header).1) (device.onRequest header).2 stopped := by
  unfold VsockDevice.onRequest
  split_ifs with hopen
  · exact h.congr (sendRst_endpoint _ _)
  · simp only
    split
    · exact h.congr (sendRst_endpoint _ _)
    · next e haccept =>
      exact of_some (queue_endpoint _ _ _ _) (Tracks.of_accept haccept)

theorem onData {e : HostEndpoint} {header : VsockHeader} (hdevice : device.endpoint = some e)
    (h : Tracks (log.window header.bufAlloc header.fwdCnt) e stopped) (chain : TxChain) :
    Holds (log.note (device.onData e header chain).2.1) (device.onData e header chain).2.2
      stopped := by
  have hwindow := of_some hdevice h
  unfold VsockDevice.onData
  simp only
  split
  · exact hwindow
  · next payload hpayload =>
    split_ifs with hlen
    · exact hwindow
    · split
      · exact hwindow.abort header.srcPort
      · next taken hpush => exact of_some rfl (h.of_pushFromGuest hpush)

theorem onConnected (h : Holds log device stopped) (header : VsockHeader) (chain : TxChain) :
    Holds (log.note (device.onConnected header chain).2.1) (device.onConnected header chain).2.2
      stopped := by
  unfold VsockDevice.onConnected
  split
  · exact h
  · next e he =>
    split
    · exact h.abort header.srcPort
    · next e' hupdate =>
      have htracks := (h e he).of_updatePeerCredit hupdate
      have hwindow : Holds (log.window header.bufAlloc header.fwdCnt)
          { device with endpoint := some e' } stopped := of_some rfl htracks
      have hshut : Tracks (log.window header.bufAlloc header.fwdCnt)
          (e'.markPeerShutdown header.flags) stopped := htracks.congr rfl rfl rfl rfl
      simp only
      -- one branch per operation of the header
      split_ifs
      · exact of_some rfl htracks.close
      · exact (of_some rfl hshut).abort header.srcPort
      · exact of_some rfl hshut
      · exact onData rfl htracks chain
      · exact hwindow
      · exact hwindow.congr (queue_endpoint _ _ _ _)
      · exact hwindow.abort header.srcPort
      · exact hwindow

theorem handleTx (h : Holds log device stopped) (chain : TxChain) :
    Holds (log.note (device.handleTx chain).2.1) (device.handleTx chain).2.2 stopped := by
  unfold VsockDevice.handleTx
  split
  · exact h
  · next header hparse =>
    split_ifs
    · exact h.congr (sendRst_endpoint _ _)
    · exact h
    · exact h.onRequest header
    · exact h.onConnected header chain
    · exact h.congr (sendRst_endpoint _ _)
    · exact h

theorem nextOutbound (h : Holds log device false) (cap : ℕ) (published : Bool) :
    Holds (log.send (payloadOf (device.nextOutbound cap).1) published) (device.nextOutbound cap).2
      (!published) := by
  have hstop := h.stop (!published)
  unfold VsockDevice.nextOutbound
  simp only
  split
  · rw [payloadOf_some, Log.send_nil]
    exact hstop.congr rfl
  · split
    · rw [payloadOf_none, Log.send_nil]
      exact hstop
    · next e he =>
      have htracks := h e he
      split_ifs with hshutdown hdata hdue
      · rw [payloadOf_some, Log.send_nil]
        exact of_some rfl ((htracks.stop _).congr rfl rfl rfl rfl)
      · have hopen : e.isOpen := by
          have hcan := hdata.1
          simp only [canSendData, Bool.and_eq_true] at hcan
          exact hcan.1.1
        exact of_some rfl (htracks.of_takeToGuest hopen cap published)
      · rw [payloadOf_some, Log.send_nil]
        exact of_some rfl ((htracks.stop _).congr rfl rfl rfl rfl)
      · rw [payloadOf_none, Log.send_nil]
        exact hstop

end Holds

namespace Session

/-- The session's endpoint agrees with its history. -/
def Consistent (s : Session) : Prop :=
  Holds s.log s.device s.needsReset

variable {s : Session}

theorem transmit_consistent (h : s.Consistent) (chain : TxChain) (published : Bool) :
    (s.transmit chain published).Consistent := by
  unfold transmit
  split_ifs with hstopped
  · exact h
  · have hgoing : s.needsReset = false := by simpa using hstopped
    unfold Consistent at h
    rw [hgoing] at h
    exact (h.handleTx chain).stop _

theorem deliver_consistent (h : s.Consistent) (readableLen writableLen : ℕ) (published : Bool) :
    (s.deliver readableLen writableLen published).Consistent := by
  unfold deliver
  split_ifs with hidle
  · exact h
  · have hgoing : s.needsReset = false := by
      simp only [not_or, Bool.not_eq_true] at hidle
      exact hidle.1
    unfold Consistent at h
    rw [hgoing] at h
    unfold build
    split_ifs with hshape
    · exact h.stop _
    · have hnext := h.nextOutbound (min (writableLen - VSOCK_HDR_LEN) MAX_PAYLOAD_LEN) published
      rcases hout : s.device.nextOutbound (min (writableLen - VSOCK_HDR_LEN) MAX_PAYLOAD_LEN) with
        ⟨_ | ⟨header, payload⟩, next⟩
      · rw [hout, payloadOf_none, Log.send_nil] at hnext
        exact hnext
      · rw [hout, payloadOf_some] at hnext
        exact hnext

theorem onEndpoint_consistent (h : s.Consistent) {f : HostEndpoint → HostEndpoint × Log}
    (hf : ∀ e, Tracks s.log e s.needsReset → Tracks (f e).2 (f e).1 s.needsReset) :
    (s.onEndpoint f).Consistent := by
  unfold onEndpoint
  split
  · exact h
  · next e he => exact Holds.of_some rfl (hf e (h e he))

theorem closeEndpoint_endpoint (device : VsockDevice) : device.closeEndpoint.endpoint = none := by
  unfold closeEndpoint
  split
  · split_ifs <;> simp
  · assumption

theorem step_consistent (h : s.Consistent) (event : Event) : (s.step event).Consistent := by
  cases event with
  | transmit chain published => exact transmit_consistent h chain published
  | deliver readableLen writableLen published =>
    exact deliver_consistent h readableLen writableLen published
  | read room => exact onEndpoint_consistent h fun e he => he.of_read room
  | write bytes => exact onEndpoint_consistent h fun e he => he.of_write bytes
  | shutdown =>
    refine onEndpoint_consistent h fun e he => ?_
    unfold HostEndpoint.shutdown
    split_ifs
    · exact he.congr rfl rfl rfl rfl
    · exact he
  | closeEndpoint => exact Holds.of_none (closeEndpoint_endpoint _)
  | reset => exact Holds.of_none rfl

theorem run_consistent (h : s.Consistent) (events : List Event) : (s.run events).Consistent := by
  induction events generalizing s with
  | nil => exact h
  | cons event events ih => exact ih (step_consistent h event)

theorem start_consistent {guestCid : U64} {device : VsockDevice} (hnew : new guestCid = some device) :
    (start device).Consistent := by
  apply Holds.of_none
  unfold new at hnew
  split_ifs at hnew
  cases hnew
  rfl

/-- After any sequence of transmitted packets, host calls and deliveries, the connection reads and
delivers prefixes of what was accepted in order, its buffers keep to their bounds, the credit counts
the unread bytes, and no more is outstanding than the guest's last window allows. -/
theorem stream_keeps_order_and_credit (guestCid : U64) (device : VsockDevice)
    (hnew : new guestCid = some device) (events : List Event) (e : HostEndpoint)
    (he : ((start device).run events).device.endpoint = some e) :
    let log := ((start device).run events).log
    log.read <+: log.accepted
      ∧ log.delivered <+: log.written
      ∧ e.credit.inFlight.toNat = e.fromGuest.length
      ∧ e.credit.inFlight.toNat ≤ HOST_BUF_ALLOC.toNat
      ∧ e.toGuest.length ≤ HOST_TX_BUFFER
      ∧ (((start device).run events).needsReset = false → log.sent = log.delivered.length)
      ∧ ahead (BitVec.ofNat 32 log.sent) log.fwdCnt ≤ log.bufAlloc.toNat := by
  have htracks := run_consistent (start_consistent hnew) events e he
  have hflight : e.credit.inFlight.toNat = e.fromGuest.length := htracks.inFlight
  refine ⟨⟨e.fromGuest, htracks.received.symm⟩, htracks.delivered, hflight, ?_, htracks.buffered,
    htracks.counted, ?_⟩
  · rw [hflight]
    exact htracks.fits
  · rw [← htracks.sent, ← htracks.fwdCnt, ← htracks.bufAlloc]
    exact htracks.outstanding

/-- A packet of guest `3` to the control port with a window of four bytes. -/
def guestPacket (op : U16) (fwdCnt : U32) (payload : List UInt8) : TxChain where
  readableLen := VSOCK_HDR_LEN + payload.length
  writableLen := 0
  header := .ok ⟨3, HOST_CID, 1024, SOMA_CONTROL_PORT, clampU32 payload.length, VSOCK_TYPE_STREAM, op,
    0, 4, fwdCnt⟩
  payload := .ok payload

/-- The guest connects and sends three bytes, of which the host reads two; of the six bytes the host
writes, the window lets four out. -/
def exchange : List Event :=
  [.transmit (guestPacket VSOCK_OP_REQUEST 0 []) true,
    .transmit (guestPacket VSOCK_OP_RW 0 [1, 2, 3]) true, .read 2, .write [4, 5, 6, 7, 8, 9],
    .deliver 0 100 true, .deliver 0 100 true, .deliver 0 100 true]

theorem exchange_keeps_order_and_credit :
    let s := (start ⟨3, 0, none, []⟩).run exchange
    s.log.read = [1, 2] ∧ s.log.read <+: s.log.accepted
      ∧ s.log.delivered = [4, 5, 6, 7] ∧ s.log.delivered <+: s.log.written
      ∧ s.needsReset = false
      ∧ ahead (BitVec.ofNat 32 s.log.sent) s.log.fwdCnt ≤ s.log.bufAlloc.toNat := by
  have h := stream_keeps_order_and_credit 3 ⟨3, 0, none, []⟩ rfl exchange _ rfl
  exact ⟨by decide, h.1, by decide, h.2.1, by decide, h.2.2.2.2.2.2⟩

end Session

end Soma.Kvm.Vsock
