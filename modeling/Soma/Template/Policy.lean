import Soma.Template.Readback

/-! # Policy rules of a decoded lock

The rules of the validator that relate groups of a lock: its envelope and its ceiling, its secrets and its
environment. The decoder applies the shape rules of each group and none of these. What resolution issues obeys them,
and so do accepted bytes whose groups are those of an issued lock (`issued_within_policy`).
-/

namespace Soma.Template

open Soma.Lib Soma.Codec Soma.Text Validate

section

variable [AddressText]

/-- The policy rules that can be decided from a lock alone. -/
structure PolicyRules (lock : TemplateLock) : Prop where
  ingress : lock.network.ingress ≤ lock.ceiling.ingress
  egress : lock.network.egress.intent ≤ lock.ceiling.egress
  domains : lock.ceiling.CoversDomains lock.network.egress.domains
  cidrs : lock.ceiling.CoversCidrs lock.network.egress.cidrs
  environment : ∀ secret ∈ lock.secrets, secret.delivery = .environment →
    ∀ entry ∈ lock.environment, entry.name ≠ secret.scope
  exclusive : lock.secrets.Pairwise Exclusive

variable {network : Network} {ceiling : PolicyCeiling}

theorem covers_of_envelope {e : NetworkEnvelope} (h : envelope network ceiling = .ok e) :
    ceiling.CoversDomains e.egress.domains ∧ ceiling.CoversCidrs e.egress.cidrs := by
  obtain ⟨-, hparse, hegress, hceiling, -⟩ := envelope_eq_ok.mp h
  obtain ⟨-, -, hcovers⟩ := checkCeiling_eq_ok.mp hceiling
  cases hkind : e.egress with
  | deny | unrestricted =>
    simp [PolicyCeiling.CoversDomains, PolicyCeiling.CoversCidrs, EgressEnvelope.domains, EgressEnvelope.cidrs]
  | allowlist domains cidrs =>
    rw [hkind] at hegress hcovers
    obtain ⟨rfl, rfl, -⟩ := egressOf_allowlist hegress
    obtain ⟨hdomains, hcidrs⟩ := hcovers rfl
    constructor
    · exact fun allowed hallowed value hvalue => hdomains allowed hallowed value (mem_sorted.mp hvalue)
    · intro allowed hallowed text htext
      obtain ⟨value, hvalue, c, hc, rfl⟩ := mem_canonicalList htext hparse
      obtain ⟨inner, hinner, houter⟩ := cidrCovered_iff.mp (hcidrs allowed hallowed value hvalue)
      rw [hc] at hinner
      cases hinner
      exact cidrCovered_iff.mpr ⟨c, c.parse_canonical, houter⟩

variable [Sha256] {template : Template} {registry : ModuleRegistry} {resolver : OciResolver}
  {backend : BackendCapabilities} {oracle : FilesystemOracle} {issued : TemplateLock}

theorem policyRules_of_resolve
    (h : resolveWith registry template resolver ceiling backend oracle = .ok issued) : PolicyRules issued := by
  obtain ⟨composition, image, validated, -, -, haccepts, rfl⟩ := resolveWith_eq_ok.mp h
  obtain ⟨-, -, -, hceiling, hingress⟩ := envelope_eq_ok.mp haccepts.network
  obtain ⟨hingressLe, hegressLe, -⟩ := checkCeiling_eq_ok.mp hceiling
  obtain ⟨hdomains, hcidrs⟩ := covers_of_envelope haccepts.network
  obtain ⟨hrules, hdistinct, hsecrets⟩ := secrets_eq_ok.mp haccepts.secrets
  refine ⟨hingress ▸ hingressLe, hegressLe, hdomains, hcidrs, ?_, ?_⟩
  · intro secret hsecret hdelivery
    change secret ∈ validated.secrets at hsecret
    rw [hsecrets, mem_sortBy, List.mem_map] at hsecret
    obtain ⟨authored, hauthored, rfl⟩ := hsecret
    have hunowned := (hrules authored hauthored).unowned
    rw [Unowned, hdelivery] at hunowned
    exact hunowned
  · have hmap : (template.secrets.map locked).Pairwise Exclusive :=
      List.pairwise_map.mpr (hdistinct.imp fun hpair => hpair.2)
    change validated.secrets.Pairwise Exclusive
    rw [hsecrets]
    exact ((List.perm_insertionSort _ _).pairwise_iff fun hpair => hpair.symm).mpr hmap

end

theorem storageLock_groups : (resolvePlain (storageTemplate 1)).map (fun lock =>
    letI := hexText; (lock.network.egress, lock.ceiling, lock.secrets.map LockedSecret.scope))
      = .ok (.allowlist ["*.b.example.org"] ["0a010000/16"], zoneCeiling, ["/run/key", "TOKEN"]) := by
  decide +kernel

end Soma.Template
