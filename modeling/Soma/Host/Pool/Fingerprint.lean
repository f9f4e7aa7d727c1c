import Soma.Host.Admission.Profile
import Soma.Netd.Intent
import Soma.Template.Wire

/-! # What a claim is known by

The canonical bytes of a pool key and of an assignment intent. Neither has a decoder, and both are
injective; a claim's fingerprint is the digest of its intent alone.
-/

namespace Soma.Host.Pool.Canonical

open Soma.Codec Soma.Codec.Format Soma.Host.Capacity Soma.Netd

structure CpuClass where
  vcpus : U32
  workload : WorkloadClass

structure MemoryShape where
  guestBytes : U64
  memoryClass : MemoryClass

structure OverlayIdentity where
  name : String
  version : U32
  logicalBytes : U64
  templateDigest : Bytes 32

structure PoolKey where
  hostProfile : Bytes 32
  generation : Bytes 32
  cpu : CpuClass
  memory : MemoryShape
  overlay : OverlayIdentity
  network : ProfileDigest

def workloadCode : WorkloadClass → UInt8
  | .apiWaiting => 1
  | .build => 2
  | .idleInteractive => 3

def memoryCode : MemoryClass → UInt8
  | .guaranteed => 1
  | .elastic _ => 2

def expectedBytes : MemoryClass → U64
  | .guaranteed => 0
  | .elastic expected => expected.toBitVec

def PoolKey.encode (key : PoolKey) : List UInt8 :=
  Text.bytes "SOMAPOOL" ++ (key.hostProfile.1 ++ (key.generation.1 ++ (putWord key.cpu.vcpus
    ++ ([workloadCode key.cpu.workload] ++ (putWord key.memory.guestBytes
    ++ ([memoryCode key.memory.memoryClass] ++ (putWord (expectedBytes key.memory.memoryClass)
    ++ (putWord key.overlay.version ++ (putWord key.overlay.logicalBytes ++ (key.overlay.templateDigest.1
    ++ (key.network.1 ++ (putLength (65535 : U16) (Text.bytes key.overlay.name).length
    ++ Text.bytes key.overlay.name))))))))))))

/-- Everything a caller binds to one claim; the deadline is in nanoseconds. -/
structure AssignmentIntent where
  instance_ : Netd.InstanceId
  operation : Netd.OperationId
  vsockCid : U32
  network : NetworkIntent
  deadline : ℕ
  launchMaterial : Bytes 32

namespace AssignmentIntent

variable (intent : AssignmentIntent)

def deadlineNanos : U64 :=
  if intent.deadline < 2 ^ 64 then BitVec.ofNat 64 intent.deadline else BitVec.allOnes 64

def encode : List UInt8 :=
  intent.instance_.bytes.1 ++ (intent.operation.bytes.1 ++ (putWord intent.vsockCid
    ++ (putWord intent.deadlineNanos ++ (intent.launchMaterial.1 ++ intent.network.encode))))

def fingerprint (prims : Primitives) (intent : AssignmentIntent) : Bytes 32 :=
  prims.sha256 intent.encode

end AssignmentIntent

/-- What a Launch on the pool of a key claims its worker with: the key is not read. -/
def claimOf (prims : Primitives) (_key : PoolKey) (intent : AssignmentIntent) : Netd.OperationId × Bytes 32 :=
  (intent.operation, intent.fingerprint prims)

/-! ## Injectivity -/

theorem workloadCode_injective {c c' : WorkloadClass} (h : workloadCode c = workloadCode c') : c = c' := by
  cases c <;> cases c' <;> simp_all [workloadCode]

theorem memory_injective {c c' : MemoryClass} (hcode : memoryCode c = memoryCode c')
    (hexpected : expectedBytes c = expectedBytes c') : c = c' := by
  cases c <;> cases c' <;> simp_all [memoryCode, expectedBytes, UInt64.toBitVec_inj]

theorem PoolKey.encode_injective : Function.Injective PoolKey.encode := by
  rintro ⟨profile, generation, ⟨vcpus, workload⟩, ⟨guest, memory⟩, ⟨name, version, logical, template⟩, network⟩
    ⟨profile', generation', ⟨vcpus', workload'⟩, ⟨guest', memory'⟩, ⟨name', version', logical', template'⟩, network'⟩ h
  obtain ⟨rfl, h⟩ := array_inj (List.append_cancel_left h)
  obtain ⟨rfl, h⟩ := array_inj h
  obtain ⟨rfl, h⟩ := word_inj (by decide) h
  obtain ⟨hworkload, h⟩ := List.cons.inj h
  obtain rfl := workloadCode_injective hworkload
  obtain ⟨rfl, h⟩ := word_inj (by decide) h
  obtain ⟨hcode, h⟩ := List.cons.inj h
  obtain ⟨hexpected, h⟩ := word_inj (by decide) h
  obtain rfl := memory_injective hcode hexpected
  obtain ⟨rfl, h⟩ := word_inj (by decide) h
  obtain ⟨rfl, h⟩ := word_inj (by decide) h
  obtain ⟨rfl, h⟩ := array_inj h
  obtain ⟨rfl, h⟩ := array_inj h
  have hname : Text.bytes name = Text.bytes name' := (List.append_inj h (by simp)).2
  have hread := Text.ofBytes_bytes name
  rw [hname, Text.ofBytes_bytes] at hread
  cases hread
  rfl

theorem AssignmentIntent.encode_injective {intent intent' : AssignmentIntent} (hdeadline : intent.deadline < 2 ^ 64)
    (hdeadline' : intent'.deadline < 2 ^ 64) (h : intent.encode = intent'.encode) : intent = intent' := by
  obtain ⟨⟨instance_, _⟩, ⟨operation, _⟩, cid, network, deadline, material⟩ := intent
  obtain ⟨⟨instance', _⟩, ⟨operation', _⟩, cid', network', deadline', material'⟩ := intent'
  obtain ⟨rfl, h⟩ := array_inj h
  obtain ⟨rfl, h⟩ := array_inj h
  obtain ⟨rfl, h⟩ := word_inj (by decide) h
  obtain ⟨hnanos, h⟩ := word_inj (by decide) h
  obtain ⟨rfl, h⟩ := array_inj h
  have hnetwork := network.decode_encode
  rw [show network.encode = network'.encode from h, network'.decode_encode] at hnetwork
  cases hnetwork
  have heq := congrArg BitVec.toNat hnanos
  simp only [deadlineNanos, if_pos hdeadline, if_pos hdeadline', BitVec.toNat_ofNat,
    Nat.mod_eq_of_lt hdeadline, Nat.mod_eq_of_lt hdeadline'] at heq
  subst heq
  rfl

/-- **A claim's fingerprint identifies its intent.**  Both encodings are injective. Where the hash
does not collide on the encodings of two intents, their claims are equal exactly when the intents
are, whichever pools they are made on. -/
theorem claim_identifies_intent :
    Function.Injective PoolKey.encode ∧
    (∀ intent intent' : AssignmentIntent, intent.deadline < 2 ^ 64 → intent'.deadline < 2 ^ 64 →
      intent.encode = intent'.encode → intent = intent') ∧
    ∀ (prims : Primitives) (key key' : PoolKey) (intent intent' : AssignmentIntent),
      intent.deadline < 2 ^ 64 → intent'.deadline < 2 ^ 64 →
      (prims.sha256 intent.encode = prims.sha256 intent'.encode → intent.encode = intent'.encode) →
      (claimOf prims key intent = claimOf prims key' intent' ↔ intent = intent') := by
  refine ⟨PoolKey.encode_injective, fun _ _ => AssignmentIntent.encode_injective, ?_⟩
  intro prims key key' intent intent' hdeadline hdeadline' hfree
  constructor
  · intro hclaim
    exact AssignmentIntent.encode_injective hdeadline hdeadline' (hfree (congrArg Prod.snd hclaim))
  · rintro rfl
    rfl

def smallKey : PoolKey :=
  let digest : Bytes 32 := .fill 32 1
  ⟨digest, digest, ⟨1, .apiWaiting⟩, ⟨512, .guaranteed⟩, ⟨"small", 1, 4096, digest⟩, digest⟩

def smallIntent : AssignmentIntent where
  instance_ := ⟨.fill 16 1, rfl⟩
  operation := ⟨.fill 16 2, rfl⟩
  vsockCid := 3
  network := ⟨.denied, [], [], .fill 32 1, Nat.zero_le _, Nat.zero_le _⟩
  deadline := 1000
  launchMaterial := .fill 32 4

/-- Launches on the pools of one and of two vCPUs present one claim. -/
theorem claim_ignores_vcpus :
    smallKey ≠ { smallKey with cpu := ⟨2, .apiWaiting⟩ } ∧
      ∀ prims, claimOf prims smallKey smallIntent =
        claimOf prims { smallKey with cpu := ⟨2, .apiWaiting⟩ } smallIntent := by
  refine ⟨?_, fun _ => rfl⟩
  intro heq
  exact absurd (congrArg (fun key => key.cpu.vcpus) heq) (by decide)

end Soma.Host.Pool.Canonical
