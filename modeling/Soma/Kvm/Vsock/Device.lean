import Soma.Kvm.Virtio.Memory
import Soma.Lib.Checked

/-! # The virtio socket device

The host end of the guest-control stream: the packet header and its validation, the credit
accounting of one connection, the host endpoint with its two byte queues, and the device that
applies transmitted packets to the endpoint and picks the next packet for the guest.

Protocol counters are 32-bit words that advance modulo `2 ^ 32`. A transmit chain is what the
device sees of it: the lengths the walker validated, the header that was read from it, and what the
later read of its payload returned, since the guest may rewrite its memory between the two.
-/

namespace Soma.Kvm.Vsock

open Lib

/-! ## Packets -/

def HOST_CID : U64 := 2
/-- The control port, `"SOMA"` in ASCII. -/
def SOMA_CONTROL_PORT : U32 := 0x534f4d41
def VSOCK_HDR_LEN : ℕ := 44
def MAX_PAYLOAD_LEN : ℕ := 2 ^ 16
def VSOCK_TYPE_STREAM : U16 := 1
def VSOCK_OP_REQUEST : U16 := 1
def VSOCK_OP_RESPONSE : U16 := 2
def VSOCK_OP_RST : U16 := 3
def VSOCK_OP_SHUTDOWN : U16 := 4
def VSOCK_OP_RW : U16 := 5
def VSOCK_OP_CREDIT_UPDATE : U16 := 6
def VSOCK_OP_CREDIT_REQUEST : U16 := 7
def VSOCK_SHUTDOWN_RCV : U32 := 1
def VSOCK_SHUTDOWN_SEND : U32 := 2

/-- One packet header in host byte order. -/
structure VsockHeader where
  srcCid : U64
  dstCid : U64
  srcPort : U32
  dstPort : U32
  len : U32
  ty : U16
  op : U16
  flags : U32
  bufAlloc : U32
  fwdCnt : U32
deriving DecidableEq

/-- Why a guest packet was rejected. -/
inductive PacketError where
  | writableSegment
  | noHeader (len : ℕ)
  | memory (error : GuestMemoryError)
  | type (ty : U16)
  | op (op : U16)
  | sourceCid (cid : U64)
  | destinationCid (cid : U64)
  | lengthMismatch (declared : U32) (actual : ℕ)
  | payloadTooLarge (len : U32)
  | payloadOnControl (op : U16)
  | flags (op : U16) (flags : U32)
deriving DecidableEq

def ALLOWED_OPS : List U16 :=
  [VSOCK_OP_REQUEST, VSOCK_OP_RESPONSE, VSOCK_OP_RST, VSOCK_OP_SHUTDOWN, VSOCK_OP_RW,
    VSOCK_OP_CREDIT_UPDATE, VSOCK_OP_CREDIT_REQUEST]

/-- A popped transmit chain, with what the two reads of its bytes return. -/
structure TxChain where
  readableLen : ℕ
  writableLen : ℕ
  header : Except GuestMemoryError VsockHeader
  payload : Except GuestMemoryError (List UInt8)

/-- Only `SHUTDOWN` carries flags, and only the two directions. -/
def VsockHeader.flagsOk (header : VsockHeader) : Bool :=
  if header.op = VSOCK_OP_SHUTDOWN then
    header.flags ≠ 0 ∧ header.flags &&& ~~~(VSOCK_SHUTDOWN_RCV ||| VSOCK_SHUTDOWN_SEND) = 0
  else
    header.flags = 0

/-- Validates a transmit chain; the first failing check names the rejection. -/
def parseTx (chain : TxChain) (guestCid : U64) : Except PacketError VsockHeader :=
  if chain.writableLen ≠ 0 then .error .writableSegment
  else if chain.readableLen < VSOCK_HDR_LEN then .error (.noHeader chain.readableLen)
  else match chain.header with
    | .error error => .error (.memory error)
    | .ok header =>
      if header.ty ≠ VSOCK_TYPE_STREAM then .error (.type header.ty)
      else if header.op ∉ ALLOWED_OPS then .error (.op header.op)
      else if header.srcCid ≠ guestCid then .error (.sourceCid header.srcCid)
      else if header.dstCid ≠ HOST_CID then .error (.destinationCid header.dstCid)
      else if header.len.toNat ≠ chain.readableLen - VSOCK_HDR_LEN then
        .error (.lengthMismatch header.len (chain.readableLen - VSOCK_HDR_LEN))
      else if MAX_PAYLOAD_LEN < header.len.toNat then .error (.payloadTooLarge header.len)
      else if header.op ≠ VSOCK_OP_RW ∧ header.len ≠ 0 then .error (.payloadOnControl header.op)
      else if ¬ header.flagsOk then .error (.flags header.op header.flags)
      else .ok header

/-! ## Credit -/

/-- The receive buffer the host advertises. -/
def HOST_BUF_ALLOC : U32 := 65536

/-- Why a credit update is refused. -/
inductive CreditError where
  | impossibleAccounting (bufAlloc fwdCnt : U32)
  | exceeded (len : U32)
deriving DecidableEq

/-- Both directions of credit of one connection. -/
structure Credit where
  peerBufAlloc : U32
  peerFwdCnt : U32
  txCnt : U32
  rxCnt : U32
  fwdCnt : U32
deriving DecidableEq

namespace Credit

variable (credit : Credit)

/-- Takes the window of a received packet, unless it cannot be true given what was sent. -/
def updatePeer (bufAlloc fwdCnt : U32) : Except CreditError Credit :=
  let unconsumed := credit.txCnt - fwdCnt
  if bufAlloc < unconsumed then .error (.impossibleAccounting bufAlloc fwdCnt)
  else .ok { credit with peerBufAlloc := bufAlloc, peerFwdCnt := fwdCnt }

variable {credit c : Credit}

theorem updatePeer_eq_ok {bufAlloc fwdCnt : U32} (h : credit.updatePeer bufAlloc fwdCnt = .ok c) :
    Serial.ahead credit.txCnt fwdCnt ≤ bufAlloc.toNat
      ∧ c = { credit with peerBufAlloc := bufAlloc, peerFwdCnt := fwdCnt } := by
  unfold updatePeer at h
  simp only at h
  split_ifs at h with hwindow
  cases h
  exact ⟨Nat.le_of_not_lt hwindow, rfl⟩

/-- Fresh accounting from the first advertised window. -/
def new (bufAlloc fwdCnt : U32) : Except CreditError Credit :=
  updatePeer ⟨0, 0, 0, 0, 0⟩ bufAlloc fwdCnt

/-- The bytes the host may send now; the subtraction saturates. -/
def peerFree : ℕ :=
  credit.peerBufAlloc.toNat - (credit.txCnt - credit.peerFwdCnt).toNat

def sent (len : U32) : Credit :=
  { credit with txCnt := credit.txCnt + len }

/-- Accepts `len` bytes if they fit what the host advertised; the addition is checked. -/
def acceptRx (len : U32) : Except CreditError Credit :=
  let inFlight := credit.rxCnt - credit.fwdCnt
  let total := inFlight.toNat + len.toNat
  if total < 2 ^ 32 ∧ total ≤ HOST_BUF_ALLOC.toNat then
    .ok { credit with rxCnt := credit.rxCnt + len }
  else .error (.exceeded len)

theorem acceptRx_eq_ok {len : U32} (h : credit.acceptRx len = .ok c) :
    Serial.ahead credit.rxCnt credit.fwdCnt + len.toNat ≤ HOST_BUF_ALLOC.toNat
      ∧ c = { credit with rxCnt := credit.rxCnt + len } := by
  unfold acceptRx at h
  simp only at h
  split_ifs at h with hroom
  cases h
  exact ⟨hroom.2, rfl⟩

def consumed (len : U32) : Credit :=
  { credit with fwdCnt := credit.fwdCnt + len }

/-- The window to place in every outgoing header. -/
def localFields : U32 × U32 :=
  (HOST_BUF_ALLOC, credit.fwdCnt)

/-- Bytes received from the guest and not yet consumed by the host. -/
def inFlight : U32 :=
  credit.rxCnt - credit.fwdCnt

end Credit

/-- A length as a 32-bit word, clamped at the largest one. -/
def clampU32 (n : ℕ) : U32 :=
  if n < 2 ^ 32 then BitVec.ofNat 32 n else BitVec.allOnes 32

theorem clampU32_of_lt {n : ℕ} (h : n < 2 ^ 32) : clampU32 n = BitVec.ofNat 32 n :=
  if_pos h

/-! ## The host endpoint -/

/-- The largest number of host-written bytes waiting to be sent. -/
def HOST_TX_BUFFER : ℕ := 2 ^ 16

/-- How far the host's shutdown is. -/
inductive HostShutdown where
  | none
  | requested
  | sent
deriving DecidableEq

/-- One accepted stream connection as seen by the host. -/
structure HostEndpoint where
  peerPort : U32
  generation : U32
  credit : Credit
  fromGuest : List UInt8
  toGuest : List UInt8
  isOpen : Bool
  peerShutdown : U32
  hostShutdown : HostShutdown
  creditUpdateDue : Bool
deriving DecidableEq

namespace HostEndpoint

/-- A new connection with its first window. -/
def accept (peerPort generation bufAlloc fwdCnt : U32) : Except CreditError HostEndpoint := do
  let credit ← Credit.new bufAlloc fwdCnt
  return ⟨peerPort, generation, credit, [], [], true, 0, .none, false⟩

theorem accept_eq_ok {peerPort generation bufAlloc fwdCnt : U32} {e : HostEndpoint}
    (h : accept peerPort generation bufAlloc fwdCnt = .ok e) :
    Serial.ahead (0 : U32) fwdCnt ≤ bufAlloc.toNat
      ∧ e = ⟨peerPort, generation, ⟨bufAlloc, fwdCnt, 0, 0, 0⟩, [], [], true, 0, .none, false⟩ := by
  obtain ⟨credit, hnew, h⟩ := bind_eq_ok.mp h
  cases h
  obtain ⟨hwindow, rfl⟩ := Credit.updatePeer_eq_ok hnew
  exact ⟨hwindow, rfl⟩

variable (endpoint : HostEndpoint)

/-- Moves up to `room` buffered bytes into the caller's buffer. -/
def read (room : ℕ) : List UInt8 × HostEndpoint :=
  let bytes := endpoint.fromGuest.take room
  let rest := { endpoint with fromGuest := endpoint.fromGuest.drop room }
  if 0 < bytes.length then
    (bytes, { rest with
      credit := endpoint.credit.consumed (clampU32 bytes.length), creditUpdateDue := true })
  else (bytes, rest)

/-- Queues host bytes; answers how many were accepted. -/
def write (bytes : List UInt8) : ℕ × HostEndpoint :=
  if ¬ endpoint.isOpen ∨ endpoint.peerShutdown &&& VSOCK_SHUTDOWN_RCV ≠ 0
      ∨ endpoint.hostShutdown ≠ .none then
    (0, endpoint)
  else
    let room := HOST_TX_BUFFER - endpoint.toGuest.length
    let take := min bytes.length room
    (take, { endpoint with toGuest := endpoint.toGuest ++ bytes.take take })

def shutdown : HostEndpoint :=
  if endpoint.hostShutdown = .none then { endpoint with hostShutdown := .requested } else endpoint

def updatePeerCredit (bufAlloc fwdCnt : U32) : Except CreditError HostEndpoint := do
  let credit ← endpoint.credit.updatePeer bufAlloc fwdCnt
  return { endpoint with credit }

variable {endpoint} {e : HostEndpoint}

theorem updatePeerCredit_eq_ok {bufAlloc fwdCnt : U32} (h : endpoint.updatePeerCredit bufAlloc fwdCnt = .ok e) :
    Serial.ahead endpoint.credit.txCnt fwdCnt ≤ bufAlloc.toNat
      ∧ e = { endpoint with credit :=
          { endpoint.credit with peerBufAlloc := bufAlloc, peerFwdCnt := fwdCnt } } := by
  obtain ⟨credit, hupdate, h⟩ := bind_eq_ok.mp h
  cases h
  obtain ⟨hwindow, rfl⟩ := Credit.updatePeer_eq_ok hupdate
  exact ⟨hwindow, rfl⟩

/-- Takes a payload within the window. -/
def pushFromGuest (endpoint : HostEndpoint) (bytes : List UInt8) :
    Except CreditError HostEndpoint :=
  if 2 ^ 32 ≤ bytes.length then .error (.exceeded (BitVec.allOnes 32))
  else do
    let credit ← endpoint.credit.acceptRx (BitVec.ofNat 32 bytes.length)
    return { endpoint with credit, fromGuest := endpoint.fromGuest ++ bytes }

theorem pushFromGuest_eq_ok {bytes : List UInt8} (h : endpoint.pushFromGuest bytes = .ok e) :
    Serial.ahead endpoint.credit.rxCnt endpoint.credit.fwdCnt + bytes.length ≤ HOST_BUF_ALLOC.toNat
      ∧ e = { endpoint with
          fromGuest := endpoint.fromGuest ++ bytes
          credit := { endpoint.credit with
            rxCnt := endpoint.credit.rxCnt + BitVec.ofNat 32 bytes.length } } := by
  unfold pushFromGuest at h
  split_ifs at h with hlong
  obtain ⟨credit, haccept, h⟩ := bind_eq_ok.mp h
  cases h
  obtain ⟨hroom, rfl⟩ := Credit.acceptRx_eq_ok haccept
  rw [BitVec.toNat_ofNat, Nat.mod_eq_of_lt (by omega)] at hroom
  exact ⟨hroom, rfl⟩

variable (endpoint)

/-- Takes up to `max` bytes to send, bounded by what the peer can still buffer. -/
def takeToGuest (cap : ℕ) : List UInt8 × HostEndpoint :=
  let take := min (min cap endpoint.credit.peerFree) endpoint.toGuest.length
  (endpoint.toGuest.take take, { endpoint with
    toGuest := endpoint.toGuest.drop take
    credit := endpoint.credit.sent (clampU32 take)
    creditUpdateDue := false })

def canSendData : Bool :=
  endpoint.isOpen && !endpoint.toGuest.isEmpty && decide (0 < endpoint.credit.peerFree)

/-- Remembers what the guest shut down. -/
def markPeerShutdown (flags : U32) : HostEndpoint :=
  { endpoint with peerShutdown :=
      endpoint.peerShutdown ||| (flags &&& (VSOCK_SHUTDOWN_RCV ||| VSOCK_SHUTDOWN_SEND)) }

def peerFullyShut : Bool :=
  endpoint.peerShutdown = VSOCK_SHUTDOWN_RCV ||| VSOCK_SHUTDOWN_SEND

def shutdownReady : Bool :=
  endpoint.isOpen && decide (endpoint.hostShutdown = .requested) && endpoint.toGuest.isEmpty

def close : HostEndpoint :=
  { endpoint with isOpen := false, toGuest := [] }

variable {endpoint}

end HostEndpoint

/-! ## The device -/

def MAX_OUTBOUND_PACKETS : ℕ := 64

/-- A queued control packet. -/
structure Outbound where
  op : U16
  dstPort : U32
  flags : U32
deriving DecidableEq

/-- The device and its connection. -/
structure VsockDevice where
  guestCid : U64
  generation : U32
  endpoint : Option HostEndpoint
  outbound : List Outbound
deriving DecidableEq

/-- What a transmit chain came to: which window and which payload the connection took from it.
The device itself returns only whether it faulted. -/
inductive Verdict where
  | rejected
  | opened (bufAlloc fwdCnt : U32)
  | control (bufAlloc fwdCnt : U32)
  | data (bufAlloc fwdCnt : U32) (payload : List UInt8)
deriving DecidableEq

namespace VsockDevice

def new (guestCid : U64) : Option VsockDevice :=
  if guestCid < 3 ∨ 0xffffffff ≤ guestCid then none else some ⟨guestCid, 0, none, []⟩

variable (device : VsockDevice)

/-- Queues a control packet; a full queue drops it. -/
def queue (op : U16) (dstPort flags : U32) : VsockDevice :=
  if device.outbound.length < MAX_OUTBOUND_PACKETS then
    { device with outbound := device.outbound ++ [⟨op, dstPort, flags⟩] }
  else device

def sendRst (port : U32) : VsockDevice :=
  device.queue VSOCK_OP_RST port 0

/-- Closes the endpoint and resets the guest's. -/
def abort (port : U32) : VsockDevice :=
  sendRst { device with endpoint := device.endpoint.map HostEndpoint.close } port

/-- Drops the endpoint; an open connection is reset first. -/
def closeEndpoint : VsockDevice :=
  match device.endpoint with
  | some endpoint =>
    let dropped := { device with endpoint := none }
    if endpoint.isOpen then dropped.queue VSOCK_OP_RST endpoint.peerPort 0 else dropped
  | none => device

/-- A driver reset clears every transient state. -/
def reset : VsockDevice :=
  { device with endpoint := none, outbound := [], generation := device.generation + 1 }

/-- Opens a connection, one at a time. -/
def onRequest (header : VsockHeader) : Verdict × VsockDevice :=
  if (device.endpoint.map (·.isOpen)).getD false then
    (.rejected, device.sendRst header.srcPort)
  else
    let bumped := { device with generation := device.generation + 1 }
    match HostEndpoint.accept header.srcPort bumped.generation header.bufAlloc header.fwdCnt with
    | .error _ => (.rejected, bumped.sendRst header.srcPort)
    | .ok endpoint =>
      (.opened header.bufAlloc header.fwdCnt,
        queue { bumped with endpoint := some endpoint } VSOCK_OP_RESPONSE header.srcPort 0)

/-- The payload of a data packet is read only now, and must have the declared length. -/
def onData (endpoint : HostEndpoint) (header : VsockHeader) (chain : TxChain) :
    Except DeviceFault Unit × Verdict × VsockDevice :=
  let window := Verdict.control header.bufAlloc header.fwdCnt
  match chain.payload with
  | .error error => (.error (.memory error), window, device)
  | .ok payload =>
    if payload.length ≠ header.len.toNat then (.error .protocol, window, device)
    else match endpoint.pushFromGuest payload with
      | .error _ => (.ok (), window, device.abort header.srcPort)
      | .ok taken =>
        (.ok (), .data header.bufAlloc header.fwdCnt payload, { device with endpoint := some taken })

/-- A packet of the open connection: its window first, then its operation. -/
def onConnected (header : VsockHeader) (chain : TxChain) :
    Except DeviceFault Unit × Verdict × VsockDevice :=
  match device.endpoint with
  | none => (.ok (), .rejected, device)
  | some endpoint =>
    match endpoint.updatePeerCredit header.bufAlloc header.fwdCnt with
    | .error _ => (.ok (), .rejected, device.abort header.srcPort)
    | .ok endpoint =>
      let device := { device with endpoint := some endpoint }
      let window := Verdict.control header.bufAlloc header.fwdCnt
      if header.op = VSOCK_OP_RST then
        (.ok (), window, { device with endpoint := some endpoint.close })
      else if header.op = VSOCK_OP_SHUTDOWN then
        let shut := endpoint.markPeerShutdown header.flags
        let device := { device with endpoint := some shut }
        (.ok (), window, if shut.peerFullyShut then device.abort header.srcPort else device)
      else if header.op = VSOCK_OP_RW then
        device.onData endpoint header chain
      else if header.op = VSOCK_OP_CREDIT_UPDATE then
        (.ok (), window, device)
      else if header.op = VSOCK_OP_CREDIT_REQUEST then
        (.ok (), window, device.queue VSOCK_OP_CREDIT_UPDATE header.srcPort 0)
      else if header.op = VSOCK_OP_RESPONSE then
        (.ok (), window, device.abort header.srcPort)
      else (.ok (), window, device)

/-- Validates one transmit chain and applies it to the connection. -/
def handleTx (chain : TxChain) : Except DeviceFault Unit × Verdict × VsockDevice :=
  match parseTx chain device.guestCid with
  | .error _ => (.ok (), .rejected, device)
  | .ok header =>
    if header.dstPort ≠ SOMA_CONTROL_PORT then
      (.ok (), .rejected,
        if header.op = VSOCK_OP_REQUEST then device.sendRst header.srcPort else device)
    else if header.op = VSOCK_OP_REQUEST then
      (.ok (), device.onRequest header)
    else if (device.endpoint.map fun e => e.isOpen && decide (e.peerPort = header.srcPort)).getD
        false then
      device.onConnected header chain
    else
      (.ok (), .rejected,
        if header.op ≠ VSOCK_OP_RST then device.sendRst header.srcPort else device)

def hasOutbound : Bool :=
  !device.outbound.isEmpty || (device.endpoint.map fun e =>
    e.canSendData || e.shutdownReady || (e.isOpen && e.creditUpdateDue)).getD false

/-- The header every outgoing packet starts from. -/
def outgoing : VsockHeader :=
  let (bufAlloc, fwdCnt) :=
    (device.endpoint.map fun e => e.credit.localFields).getD (HOST_BUF_ALLOC, 0)
  ⟨HOST_CID, device.guestCid, SOMA_CONTROL_PORT, 0, 0, VSOCK_TYPE_STREAM, 0, 0, bufAlloc, fwdCnt⟩

/-- The next packet for the guest with at most `cap` payload bytes: queued control packets, then an
orderly shutdown, then data, then a credit update. -/
def nextOutbound (cap : ℕ) : Option (VsockHeader × List UInt8) × VsockDevice :=
  let header := device.outgoing
  match device.outbound with
  | control :: rest =>
    (some ({ header with op := control.op, dstPort := control.dstPort, flags := control.flags }, []),
      { device with outbound := rest })
  | [] =>
    match device.endpoint with
    | none => (none, device)
    | some endpoint =>
      let header := { header with dstPort := endpoint.peerPort }
      if endpoint.shutdownReady then
        (some ({ header with op := VSOCK_OP_SHUTDOWN,
                             flags := VSOCK_SHUTDOWN_RCV ||| VSOCK_SHUTDOWN_SEND }, []),
          { device with endpoint := some { endpoint with hostShutdown := .sent } })
      else if endpoint.canSendData ∧ 0 < cap then
        let (payload, taken) := endpoint.takeToGuest cap
        (some ({ header with op := VSOCK_OP_RW, len := clampU32 payload.length,
                             fwdCnt := taken.credit.localFields.2 }, payload),
          { device with endpoint := some taken })
      else if endpoint.isOpen ∧ endpoint.creditUpdateDue then
        (some ({ header with op := VSOCK_OP_CREDIT_UPDATE }, []),
          { device with endpoint := some { endpoint with creditUpdateDue := false } })
      else (none, device)

/-- What the receive path writes into a chain: nothing fits, an empty answer for a chain of the
wrong shape, or a packet. -/
inductive Built where
  | nothing
  | dropped
  | packet (header : VsockHeader) (payload : List UInt8)
deriving DecidableEq

/-- Builds the bytes for a receive chain; the payload is sized to what the chain can hold. -/
def build (readableLen writableLen : ℕ) : Built × VsockDevice :=
  if readableLen ≠ 0 ∨ writableLen < VSOCK_HDR_LEN then (.dropped, device)
  else
    match device.nextOutbound (min (writableLen - VSOCK_HDR_LEN) MAX_PAYLOAD_LEN) with
    | (none, next) => (.nothing, next)
    | (some (header, payload), next) => (.packet header payload, next)

end VsockDevice

end Soma.Kvm.Vsock
