import Soma.Template.Schema

/-! # Backend capabilities

What the selected Backend supports, as its constructor and its decoder build it: platforms strictly
sorted by key, a mask of known idle actions, and limits.
-/

namespace Soma.Template

open Soma.Lib Soma.Codec Soma.Text

def MAX_BACKEND_PLATFORMS : ℕ := 16

/-- The largest Machine shape a Backend admits. -/
structure ResourceLimits where
  maxVcpus : U32
  maxMemoryMib : U64
  maxWritableStorageMib : U64
deriving DecidableEq

/-- The bits of a mask that stand for no action. -/
def unknownActions (mask : UInt8) : UInt8 :=
  mask &&& ~~~0b111

variable (platforms : List OciPlatform)

def platformsRule : Prop :=
  platforms ≠ [] ∧ platforms.length ≤ MAX_BACKEND_PLATFORMS
    ∧ platforms.Pairwise fun a b => platformKey a < platformKey b

/-- What the backend can run. -/
structure BackendCapabilities where
  platforms : List OciPlatform
  idleActions : UInt8
  limits : ResourceLimits
  valid : platformsRule platforms
  known : unknownActions idleActions = 0
deriving DecidableEq

namespace BackendCapabilities

variable (backend : BackendCapabilities)

def supportsPlatform (platform : OciPlatform) : Bool :=
  backend.platforms.contains platform

def supportsIdleAction (action : IdleAction) : Bool :=
  backend.idleActions &&& ((1 : UInt8) <<< action.code) != 0

def encode : List UInt8 :=
  Writer.putList putPlatform backend.platforms ++ [backend.idleActions]
    ++ putWord backend.limits.maxVcpus ++ putWord backend.limits.maxMemoryMib
    ++ putWord backend.limits.maxWritableStorageMib

/-- The mask, refused where it names an unknown action. -/
def readMask : Reader { mask : UInt8 // unknownActions mask = 0 } :=
  refine Reader.u8 fun mask =>
    if h : unknownActions mask = 0 then .ok ⟨mask, h⟩
    else .error (.invalidDiscriminant "backend.idle_actions" mask)

def readLimits : Reader ResourceLimits := do
  let maxVcpus ← Reader.u32
  let maxMemoryMib ← Reader.u64
  let maxWritableStorageMib ← Reader.u64
  return { maxVcpus, maxMemoryMib, maxWritableStorageMib }

/-- The three parts as they stand on the wire. -/
def readParts : Reader (List OciPlatform × { mask : UInt8 // unknownActions mask = 0 } × ResourceLimits) := do
  let platforms ← Reader.count MAX_BACKEND_PLATFORMS >>= many (readPlatform "backend.platforms")
  let mask ← readMask
  let limits ← readLimits
  return (platforms, mask, limits)

/-- The keys must be there, sorted and without equal neighbours. -/
def keysRule : Prop :=
  platforms ≠ [] ∧ (platforms.IsChain fun a b => platformKey a ≤ platformKey b)
    ∧ platforms.IsChain fun a b => platformKey a ≠ platformKey b

instance (platforms : List OciPlatform) : Decidable (keysRule platforms) :=
  inferInstanceAs (Decidable (_ ∧ _))

def decode : Reader BackendCapabilities :=
  refine readParts fun (platforms, mask, limits) =>
    -- The count was compared with the bound on reading; it is repeated for the type.
    if h : platforms.length ≤ MAX_BACKEND_PLATFORMS ∧ keysRule platforms then
      .ok ⟨platforms, mask.1, limits, ⟨h.2.1, h.1, sorted_and_distinct.mp h.2.2⟩, mask.2⟩
    else .error (.invalidField "backend.platforms")

theorem readMask_format : Exact readMask (fun mask => [mask.1]) := by
  refine u8_format.refine Subtype.val ?_ ?_
  · rintro ⟨mask, h⟩
    rw [dif_pos h]
  · intro value mask h
    split_ifs at h
    cases h
    rfl

theorem readLimits_format : Exact readLimits (fun limits => putWord limits.maxVcpus
    ++ (putWord limits.maxMemoryMib ++ putWord limits.maxWritableStorageMib)) :=
  Format.record (u32_format.field ResourceLimits.maxVcpus fun _ =>
    u64_format.field ResourceLimits.maxMemoryMib fun _ =>
    u64_format.field ResourceLimits.maxWritableStorageMib fun _ =>
    Format.done (by rintro ⟨⟩; grind)) (by simp) (by simp)

theorem readParts_format : Format readParts
    (fun parts => Writer.putList putPlatform parts.1 ++ ([parts.2.1.1] ++ (putWord parts.2.2.maxVcpus
      ++ (putWord parts.2.2.maxMemoryMib ++ putWord parts.2.2.maxWritableStorageMib))))
    (fun parts => parts.1.length ≤ MAX_BACKEND_PLATFORMS) := by
  have hplatforms := list_format (show MAX_BACKEND_PLATFORMS < 2 ^ 16 by decide)
    (readPlatform_format "backend.platforms")
  exact Format.record (hplatforms.field Prod.fst fun _ =>
    readMask_format.field (Prod.fst ∘ Prod.snd) fun _ =>
    readLimits_format.field (Prod.snd ∘ Prod.snd) fun _ => Format.done (by grind)) (by simp) (by simp)

theorem format : Exact decode encode := by
  refine (readParts_format.refine (fun b => (b.platforms, ⟨b.idleActions, b.known⟩, b.limits)) ?_ ?_).congr ?_ ?_
  · rintro ⟨platforms, mask, limits, hvalid, hknown⟩
    have hkeys : platforms.length ≤ MAX_BACKEND_PLATFORMS ∧ keysRule platforms :=
      ⟨hvalid.2.1, hvalid.1, sorted_and_distinct.mpr hvalid.2.2⟩
    exact dif_pos hkeys
  · rintro ⟨platforms, mask, limits⟩ backend h
    simp only at h
    split_ifs at h
    cases h
    rfl
  · intro backend
    exact iff_of_true backend.valid.2.1 trivial
  · intro backend _
    simp [encode]

end BackendCapabilities

end Soma.Template
