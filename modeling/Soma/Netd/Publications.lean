import Mathlib.Data.List.Perm.Subperm
import Soma.Netd.Intent

/-! # Effective port publications

The engine accepts what a backend published when there are as many publications as requests and each request is
served by some publication. One publication may serve two requests: a fixed host port and an automatic one for the
same endpoint of the guest. Then a publication nobody requested takes the place that is left.
-/

namespace Soma.Netd

open List

structure EffectivePortPublication where
  bind : HostBind
  hostPort : NonZero 16
  guestPort : NonZero 16
  protocol : TransportProtocol
deriving DecidableEq

instance : Inhabited EffectivePortPublication :=
  ⟨.ipv4 0 (by decide), ⟨1, by decide⟩, ⟨1, by decide⟩, .tcp⟩

def HostPort.requested : HostPort → Option (NonZero 16)
  | .automatic => none
  | .fixed port => some port

def HostBind.conflicts : HostBind → HostBind → Bool
  | .ipv4 left _, .ipv4 right _ => left = 0 ∨ right = 0 ∨ left = right
  | .ipv6 left _ _, .ipv6 right _ _ => left = 0 ∨ right = 0 ∨ left = right
  | .ipv6 address v6Only _, .ipv4 .. | .ipv4 .., .ipv6 address v6Only _ => address = 0 ∧ ¬v6Only

/-- The fields that identify a publication are all it has. -/
def repeatsIdentity : List PortPublication → List PortPublication → Bool
  | _, [] => false
  | complete, publication :: rest => publication ∈ complete || repeatsIdentity (publication :: complete) rest

def conflictsLater : List PortPublication → Bool
  | [] => false
  | left :: rest => (left.hostPort.requested.any fun port => rest.any fun right =>
      right.hostPort.requested = some port ∧ right.protocol = left.protocol ∧ right.bind.conflicts left.bind)
    || conflictsLater rest

variable (publications : List PortPublication)

def hasPublicationCollision : Bool :=
  repeatsIdentity [] publications || conflictsLater publications

/-- The publications that a policy can hold. -/
def Holdable : Prop :=
  publications.length ≤ MAX_PORT_PUBLICATIONS ∧ hasPublicationCollision publications = false

variable (request : PortPublication)

def Serves (effective : EffectivePortPublication) : Prop :=
  effective.bind = request.bind ∧ effective.guestPort = request.guestPort ∧ effective.protocol = request.protocol
    ∧ ∀ port ∈ request.hostPort.requested, effective.hostPort = port

instance (request : PortPublication) (effective : EffectivePortPublication) : Decidable (Serves request effective) :=
  inferInstanceAs (Decidable (_ ∧ _ ∧ _ ∧ _))

/-- `none` when the backend could not observe them. -/
def publicationsMatch (observed : Option (List EffectivePortPublication)) (requested : List PortPublication) : Bool :=
  observed.any fun observed =>
    observed.length = requested.length ∧ requested.all fun request => observed.any fun e => Serves request e

/-- Each request with the publication of its own that serves it, and none left over. -/
def Corresponds (requested : List PortPublication) (observed : List EffectivePortPublication) : Prop :=
  ∃ served, Forall₂ Serves requested served ∧ served.Perm observed

/-- `a` takes any host port for the endpoint of the guest that `b` is for. -/
def Overlaps (a b : PortPublication) : Prop :=
  a.hostPort = .automatic ∧ a.bind = b.bind ∧ a.guestPort = b.guestPort ∧ a.protocol = b.protocol

variable {requested : List PortPublication} {observed : List EffectivePortPublication}

theorem publicationsMatch_iff : publicationsMatch (some observed) requested = true ↔
    observed.length = requested.length ∧ ∀ request ∈ requested, ∃ e ∈ observed, Serves request e := by
  simp [publicationsMatch]

theorem nodup_of_repeatsIdentity {complete publications : List PortPublication}
    (h : repeatsIdentity complete publications = false) :
    publications.Nodup ∧ ∀ p ∈ publications, p ∉ complete := by
  induction publications generalizing complete with
  | nil => simp
  | cons publication rest ih =>
    simp only [repeatsIdentity, Bool.or_eq_false_iff, decide_eq_false_iff_not] at h
    obtain ⟨hnodup, hfresh⟩ := ih h.2
    have hnew : publication ∉ rest := fun hmem => hfresh publication hmem (by simp)
    refine ⟨nodup_cons.mpr ⟨hnew, hnodup⟩, ?_⟩
    exact forall_mem_cons.mpr ⟨h.1, fun p hp hmem => hfresh p hp (mem_cons_of_mem _ hmem)⟩

/-- Requests that share no publication are served by distinct ones, which then are all there are. -/
theorem corresponds_of_match (hnodup : requested.Nodup)
    (hone : ∀ a ∈ requested, ∀ b ∈ requested, ∀ e, Serves a e → Serves b e → a = b)
    (hlength : observed.length = requested.length)
    (hserved : ∀ request ∈ requested, ∃ e ∈ observed, Serves request e) : Corresponds requested observed := by
  choose! server hserver using hserved
  have hdistinct : (requested.map server).Nodup := by
    refine hnodup.map_on fun a ha b hb heq => hone a ha b hb _ (hserver a ha).2 ?_
    rw [heq]
    exact (hserver b hb).2
  have hsub : requested.map server ⊆ observed := by
    intro e he
    obtain ⟨request, hrequest, rfl⟩ := mem_map.mp he
    exact (hserver request hrequest).1
  refine ⟨requested.map server, ?_, (subperm_of_subset hdistinct hsub).perm_of_length_le ?_⟩
  · exact forall₂_map_right_iff.mpr (forall₂_same.mpr fun r hr => (hserver r hr).2)
  · rw [hlength, length_map]

variable {e : EffectivePortPublication}

/-- Requests without overlap share no publication: with two fixed host ports they would be one request. -/
theorem eq_of_serves {a b : PortPublication} (hab : Overlaps a b → a = b)
    (hba : Overlaps b a → b = a) (ha : Serves a e) (hb : Serves b e) : a = b := by
  obtain ⟨abind, aport, aguest, aprotocol⟩ := a
  obtain ⟨bbind, bport, bguest, bprotocol⟩ := b
  obtain ⟨rfl, rfl, rfl, haport⟩ := ha
  obtain ⟨rfl, rfl, rfl, hbport⟩ := hb
  cases aport with
  | automatic => exact hab ⟨rfl, rfl, rfl, rfl⟩
  | fixed => cases bport with
    | automatic => exact (hba ⟨rfl, rfl, rfl, rfl⟩).symm
    | fixed => rw [← haport _ rfl, ← hbport _ rfl]

/-- The publication of a request, on its port or on some port. -/
def PortPublication.effective : EffectivePortPublication :=
  ⟨request.bind, request.hostPort.requested.getD ⟨1, by decide⟩, request.guestPort, request.protocol⟩

theorem serves_effective : Serves request request.effective := by
  refine ⟨rfl, rfl, rfl, ?_⟩
  intro port hport
  simp [PortPublication.effective, Option.mem_def.mp hport]

theorem exists_unrequested (hlength : requested.length ≤ MAX_PORT_PUBLICATIONS) :
    ∃ port, ∀ request ∈ requested, request.guestPort ≠ port := by
  let ports : List (NonZero 16) :=
    (finRange 33).map fun i : Fin 33 => ⟨BitVec.ofNat 16 (i.val + 1), by revert i; decide⟩
  by_contra hall
  push Not at hall
  have hsub : ports ⊆ requested.map PortPublication.guestPort := fun port _ => mem_map.mpr (hall port)
  have hle := (subperm_of_subset (by decide +kernel : ports.Nodup) hsub).length_le
  rw [length_map, length_map, length_finRange] at hle
  exact absurd (hle.trans hlength) (by decide)

theorem not_corresponds (he : e ∈ observed)
    (hstranger : ∀ request ∈ requested, ¬ Serves request e) : ¬ Corresponds requested observed := by
  rintro ⟨served, hforall, hperm⟩
  obtain ⟨request, hrequest, hserves⟩ := Lib.exists_of_mem_forall₂ hforall.flip (hperm.mem_iff.mpr he)
  exact hstranger request hrequest hserves

theorem exists_stranger {a b : PortPublication} (hlength : requested.length ≤ MAX_PORT_PUBLICATIONS)
    (ha : a ∈ requested) (hb : b ∈ requested) (hne : a ≠ b) (hoverlaps : Overlaps a b) :
    ∃ observed, publicationsMatch (some observed) requested = true ∧ ¬ Corresponds requested observed := by
  obtain ⟨port, hport⟩ := exists_unrequested hlength
  let stranger : EffectivePortPublication := ⟨a.bind, port, port, a.protocol⟩
  have hrest {request : PortPublication} (hother : request ≠ a) (hrequest : request ∈ requested) :
      request.effective ∈ stranger :: (requested.erase a).map PortPublication.effective :=
    mem_cons_of_mem _ (mem_map_of_mem ((mem_erase_of_ne hother).mpr hrequest))
  refine ⟨stranger :: (requested.erase a).map PortPublication.effective, publicationsMatch_iff.mpr ⟨?_, ?_⟩, ?_⟩
  · rw [length_cons, length_map, length_erase_add_one ha]
  · intro request hrequest
    by_cases hsame : request = a
    · subst hsame
      obtain ⟨hautomatic, hbind, hguest, hprotocol⟩ := hoverlaps
      exact ⟨b.effective, hrest hne.symm hb, hbind.symm, hguest.symm, hprotocol.symm,
        by simp [hautomatic, HostPort.requested]⟩
    · exact ⟨_, hrest hsame hrequest, serves_effective request⟩
  · refine not_corresponds (mem_cons_self (a := stranger)) ?_
    intro request hrequest hserves
    exact hport request hrequest hserves.2.1.symm

/-- Every accepted observation is exactly what was requested if and only if no two requests of the policy overlap. -/
theorem publications_correspond_iff (requested : List PortPublication) (hpolicy : Holdable requested) :
    (∀ observed, publicationsMatch (some observed) requested = true → Corresponds requested observed)
      ↔ ∀ a ∈ requested, ∀ b ∈ requested, Overlaps a b → a = b := by
  obtain ⟨hlength, hcollision⟩ := hpolicy
  have hnodup := (nodup_of_repeatsIdentity (Bool.or_eq_false_iff.mp hcollision).1).1
  constructor
  · intro hexact a ha b hb hoverlaps
    by_contra hne
    obtain ⟨observed, hmatch, hnot⟩ := exists_stranger hlength ha hb hne hoverlaps
    exact hnot (hexact observed hmatch)
  · intro hclear observed hmatch
    obtain ⟨hlength, hserved⟩ := publicationsMatch_iff.mp hmatch
    refine corresponds_of_match hnodup (fun a ha b hb e => ?_) hlength hserved
    exact eq_of_serves (hclear a ha b hb) (hclear b hb a ha)

/-- An automatic and a fixed host port for port 80 of the guest. -/
def overlapping : List PortPublication :=
  let bind := HostBind.ipv4 0x7F000001#32 (by decide)
  [⟨bind, .automatic, ⟨80, by decide⟩, .tcp⟩, ⟨bind, .fixed ⟨8080, by decide⟩, ⟨80, by decide⟩, .tcp⟩]

/-- An automatic host port for port 80 of the guest and a fixed one for port 22. -/
def separate : List PortPublication :=
  let bind := HostBind.ipv4 0x7F000001#32 (by decide)
  [⟨bind, .automatic, ⟨80, by decide⟩, .tcp⟩, ⟨bind, .fixed ⟨8022, by decide⟩, ⟨22, by decide⟩, .tcp⟩]

theorem fixed_publication_exact : Holdable separate ∧ ∀ observed,
    publicationsMatch (some observed) separate = true → Corresponds separate observed :=
  have hpolicy : Holdable separate := ⟨by decide, by decide⟩
  ⟨hpolicy, (publications_correspond_iff _ hpolicy).mpr (by simp [separate, Overlaps])⟩

/-- Port 80 is published once, and port 22 in the place of the other request. -/
theorem unrequested_port_accepted : Holdable overlapping ∧
    ∃ observed, publicationsMatch (some observed) overlapping = true ∧ ¬ Corresponds overlapping observed := by
  let bind := HostBind.ipv4 0x7F000001#32 (by decide)
  let stranger : EffectivePortPublication := ⟨bind, ⟨9999, by decide⟩, ⟨22, by decide⟩, .tcp⟩
  refine ⟨⟨by decide, by decide⟩, [⟨bind, ⟨8080, by decide⟩, ⟨80, by decide⟩, .tcp⟩, stranger], by decide, ?_⟩
  exact not_corresponds (e := stranger) (by simp) (by decide)

end Soma.Netd
