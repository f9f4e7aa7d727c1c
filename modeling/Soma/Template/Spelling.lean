import Soma.Template.Readback

/-! # Spelling

Documents of one selection are written in many ways: in another order, with restated seals, with defaults
written out. Each projection of the lock normalizes on its own, and each gives one result for all of
these.

* `Respelled`: the Templates that differ only in how they are written.
* `resolve_respelled`: resolution accepts both or neither, with the same bytes and the same digest.
-/

namespace Soma.Template

open Soma.Lib Soma.Codec Soma.Text Validate List

/-! ## The same selection -/

/-- Commands with the same effect once defaults are applied. -/
structure SameCommand (a b : Command) : Prop where
  program : a.program = b.program
  args : a.args = b.args
  workingDirectory : a.workingDirectory.elim DEFAULT_WORKING_DIRECTORY Subtype.val
    = b.workingDirectory.elim DEFAULT_WORKING_DIRECTORY Subtype.val
  user : a.user.elim DEFAULT_USER Subtype.val = b.user.elim DEFAULT_USER Subtype.val

/-- Whether an entry repeats the value a module seals under its name. -/
def Restates (sealed : List SealedValue) (entry : EnvironmentEntry) : Prop :=
  ∃ s ∈ sealed, s.name.1 = entry.name ∧ entry.value = some s.value

/-- The same entries in any order, where a sealed value may also be stated or not. -/
structure SameEnvironment (sealed : List SealedValue) (a b : List EnvironmentEntry) : Prop where
  others : ∀ entry, ¬ Restates sealed entry → a.count entry = b.count entry
  restated : ∀ entry, Restates sealed entry →
    a.count entry = b.count entry ∨ (a.count entry ≤ 1 ∧ b.count entry ≤ 1)

variable (secret : SecretReference)

/-- A reference with its defaults written out. -/
def filled : SecretReference where
  name := secret.name
  source := secret.source
  delivery := secret.delivery
  scope := digestScope secret
  mode := digestMode secret

section

variable [AddressText]

/-- Texts of one network. -/
def SameCidr (a b : String) : Prop :=
  a = b ∨ ∃ cidr, Cidr.parse a = .ok cidr ∧ Cidr.parse b = .ok cidr

/-- The same destinations in any order and spelling; with destinations, denial is an allowlist. -/
structure SameNetwork (a b : Network) : Prop where
  ingress : a.ingress = b.ingress
  domains : ∀ domain, domain ∈ a.allowDomains ↔ domain ∈ b.allowDomains
  cidrs : ∀ x ∈ a.allowCidrs, ∃ y ∈ b.allowCidrs, SameCidr x y
  cidrs' : ∀ y ∈ b.allowCidrs, ∃ x ∈ a.allowCidrs, SameCidr y x
  egress : a.egress = b.egress ∨ (a.hasDestinations = true ∧ a.egress ≠ .unrestricted
    ∧ b.egress ≠ .unrestricted)

/-- Templates that differ only in how the selection is written; the name is free. -/
structure Respelled (registry : ModuleRegistry) (resolver : OciResolver) (a b : Template) : Prop where
  description : a.description = b.description
    ∨ (description a = .ok () ∧ description b = .ok ())
  image : ∀ image, resolveImage a resolver = .ok image ↔ resolveImage b resolver = .ok image
  platform : a.workload.platform = b.workload.platform
  modules : a.modules = b.modules
  command : Option.Rel SameCommand a.command b.command
  resources : a.resources = b.resources
  network : SameNetwork a.network b.network
  lifecycle : a.lifecycle = b.lifecycle
  environment : ∀ composed sealed, order a registry = .ok composed →
    sealedEnvironment composed = .ok sealed → SameEnvironment sealed a.environment b.environment
  secrets : (a.secrets.map filled).Perm (b.secrets.map filled)

end

/-! ## Environment -/

variable {a b : Template}

theorem order_congr (registry : ModuleRegistry) (h : a.modules = b.modules) :
    order a registry = order b registry := by
  rw [order, order, h]

/-- An entry under a sealed name restates its value. -/
def Consistent (sealed : List SealedValue) (entry : EnvironmentEntry) : Prop :=
  ∀ s ∈ sealed, s.name.1 = entry.name → entry.value = some s.value

variable {sealed : List SealedValue}

variable {template : Template}

theorem templateOverrides_eq_ok {modules : List ModuleSpec} (hseals : SealsInv modules sealed) :
    templateOverrides template sealed = .ok () ↔ ∀ entry ∈ template.environment, Consistent sealed entry := by
  refine forIdx_eq_ok_of fun index entry => ?_
  unfold overrideRule
  cases hfind : sealed.find? fun s => s.name.1 == entry.name with
  | none =>
    refine iff_of_true rfl fun s hs hname => ?_
    exact absurd (beq_iff_eq.mpr hname) (find?_eq_none.mp hfind s hs)
  | some first =>
    have hfirst := mem_of_find?_eq_some hfind
    have hname := find?_some hfind
    simp only [beq_iff_eq] at hname
    have hvalue : Consistent sealed entry ↔ entry.value = some first.value := by
      constructor
      · intro h
        exact h first hfirst hname
      · intro h s hs hs'
        rw [hseals.value_eq hs hfirst (hs'.trans hname.symm)]
        exact h
    rw [hvalue]
    dsimp only
    split_ifs with h <;> simp [h]

variable {entry : EnvironmentEntry}

section

variable {modules : List ModuleSpec} {sealed : List SealedValue} {a b : List EnvironmentEntry}

theorem Restates.consistent (hseals : SealsInv modules sealed)
    (h : Restates sealed entry) : Consistent sealed entry := by
  obtain ⟨s, hs, hname, hvalue⟩ := h
  intro t ht htname
  rw [hseals.value_eq ht hs (htname.trans hname.symm)]
  exact hvalue

section

variable (h : SameEnvironment sealed a b)
include h

theorem SameEnvironment.symm : SameEnvironment sealed b a where
  others entry hentry := (h.others entry hentry).symm
  restated entry hentry := (h.restated entry hentry).imp Eq.symm And.symm

theorem SameEnvironment.mem (hentry : entry ∈ b) : entry ∈ a ∨ Restates sealed entry := by
  by_cases hrestates : Restates sealed entry
  · exact .inr hrestates
  · refine .inl (count_pos_iff.mp ?_)
    rw [h.others entry hrestates]
    exact count_pos_iff.mpr hentry

theorem SameEnvironment.consistent (hseals : SealsInv modules sealed) (ha : ∀ entry ∈ a, Consistent sealed entry) :
    ∀ entry ∈ b, Consistent sealed entry := by
  intro entry hentry
  rcases h.mem hentry with hmem | hrestates
  · exact ha entry hmem
  · exact hrestates.consistent hseals

theorem SameEnvironment.names (hseals : SealsInv modules sealed) (ha : ∀ entry ∈ a, Consistent sealed entry)
    (hnames : (a.map EnvironmentEntry.name).Nodup) : (b.map EnvironmentEntry.name).Nodup := by
  have hb := h.consistent hseals ha
  have hnodup : b.Nodup := by
    rw [nodup_iff_count_le_one]
    intro entry
    have hle := nodup_iff_count_le_one.mp hnames.of_map entry
    by_cases hrestates : Restates sealed entry
    · rcases h.restated entry hrestates with heq | hone
      · omega
      · exact hone.2
    · rw [← h.others entry hrestates]
      exact hle
  -- Entries of one name are equal: neither is sealed and both stand in `a`, or both restate one seal.
  refine hnodup.map_on fun x hx y hy hxy => ?_
  by_cases hsealed : ∃ s ∈ sealed, s.name.1 = x.name
  · obtain ⟨s, hs, hname⟩ := hsealed
    have hxv := hb x hx s hs hname
    have hyv := hb y hy s hs (hname.trans hxy)
    obtain ⟨xname, xvalue⟩ := x
    obtain ⟨yname, yvalue⟩ := y
    simp only at hxy hxv hyv
    rw [hxy, hxv, hyv]
  · have hfree : ∀ z ∈ b, z.name = x.name → z ∈ a := by
      intro z hz hzx
      refine (h.mem hz).resolve_right ?_
      rintro ⟨s, hs, hname, -⟩
      exact hsealed ⟨s, hs, hname.trans hzx⟩
    exact inj_on_of_nodup_map hnames (hfree x hx rfl) (hfree y hy hxy.symm) hxy

end

theorem filterMap_lockEntry (c : Composition) (l : List EnvironmentEntry) :
    l.filterMap (lockEntry c) = (l.filter fun e => !isSealed c e.name).map fun e => ⟨e.name, e.value, none⟩ := by
  induction l with
  | nil => rfl
  | cons e l ih =>
    rw [filterMap_cons, filter_cons, ih, lockEntry]
    cases isSealed c e.name <;> rfl

theorem SameEnvironment.effective_perm {composition : Composition} (h : SameEnvironment composition.sealed a b) :
    (effective a composition).Perm (effective b composition) := by
  rw [effective, effective, filterMap_lockEntry, filterMap_lockEntry]
  refine Perm.append_right _ (Perm.map _ (perm_iff_count.mpr fun entry => ?_))
  by_cases hentry : isSealed composition entry.name = true
  · rw [count_eq_zero_of_not_mem (by simp [hentry]), count_eq_zero_of_not_mem (by simp [hentry])]
  · have hfree : ¬ Restates composition.sealed entry := by
      rintro ⟨s, hs, hname, -⟩
      exact hentry (any_eq_true.mpr ⟨s, hs, beq_iff_eq.mpr hname⟩)
    rw [count_filter (by simp [hentry]), count_filter (by simp [hentry]), h.others entry hfree]

end

variable {composition : Composition}

theorem Restates.entryRule (hseals : SealsInv composition.modules composition.sealed)
    (hmodules : modules composition = .ok ())
    (h : Restates composition.sealed entry) : EntryRule composition entry := by
  obtain ⟨s, hs, hname, hvalue⟩ := h
  obtain ⟨spec, hspec, hpair⟩ := hseals.declared s hs
  refine ⟨hname ▸ s.name.2, fun value hv => ?_⟩
  rw [hvalue, Option.mem_def, Option.some.injEq] at hv
  have hvalues := forM_eq_ok.mp hmodules spec hspec
  obtain ⟨-, hvalues⟩ := seq_eq_ok.mp hvalues
  obtain ⟨-, hvalues⟩ := seq_eq_ok.mp hvalues
  have hliteral := (forIdx_eq_ok_of (P := fun pair : EnvironmentName × String =>
    environmentLiteral composition.modules pair.1.1 pair.2 = false)
    fun _ _ => ensure_eq_ok).mp hvalues _ hpair
  rw [← hname, ← hv]
  exact hliteral

theorem environment_respelled {locked : List LockedEnvironment}
    (hseals : SealsInv composition.modules composition.sealed)
    (hsame : SameEnvironment composition.sealed a.environment b.environment)
    (hconsistent : ∀ entry ∈ a.environment, Consistent composition.sealed entry)
    (hvalues : modules composition = .ok ()) (h : environment a composition = .ok locked) :
    environment b composition = .ok locked := by
  obtain ⟨hrules, hnames, hlength, rfl⟩ := environment_eq_ok.mp h
  have hperm := hsame.effective_perm
  refine environment_eq_ok.mpr ⟨?_, hsame.names hseals hconsistent hnames, ?_, ?_⟩
  · intro entry hentry
    rcases hsame.mem hentry with hmem | hrestates
    · exact hrules entry hmem
    · exact hrestates.entryRule hseals hvalues
  · rw [← hperm.length_eq]
    exact hlength
  · exact sortBy_eq_of_perm (effective_names_nodup hnames hseals) hperm

/-! ## The environment of the digest -/

variable {start : List (String × Option String)}

theorem foldl_orInsert {entries : List EnvironmentEntry}
    (h : (start.map Prod.fst ++ entries.map EnvironmentEntry.name).Nodup) :
    entries.foldl (fun m e => orInsert m (e.name, e.value)) start
      = start ++ entries.map fun e => (e.name, e.value) := by
  induction entries generalizing start with
  | nil => simp
  | cons e entries ih =>
    have hfresh : (start.any fun x => x.1 == e.name) = false := by
      rw [any_eq_false]
      intro x hx hxe
      rw [nodup_append] at h
      exact h.2.2 _ (mem_map_of_mem hx) _ (mem_cons_self) (beq_iff_eq.mp hxe)
    rw [foldl_cons, orInsert, hfresh, if_neg (by simp), ih, map_cons]
    · simp
    · simpa using h

theorem foldl_insert (h : (sealed.map fun s => s.name.1).Nodup) :
    sealed.foldl (fun m s => insert m (s.name.1, some s.value)) start
      = (start.filter fun e => !sealed.any fun s => s.name.1 == e.1)
        ++ sealed.map fun s => (s.name.1, some s.value) := by
  induction sealed generalizing start with
  | nil => simp
  | cons s sealed ih =>
    rw [map_cons, nodup_cons] at h
    have hfresh : (sealed.any fun t => t.name.1 == s.name.1) = false := by
      rw [any_eq_false]
      intro t ht htname
      exact h.1 (mem_map.mpr ⟨t, ht, beq_iff_eq.mp htname⟩)
    rw [foldl_cons, ih h.2, insert, filter_append, filter_filter]
    have hfilter : (start.filter fun e => (!sealed.any fun t => t.name.1 == e.1) && e.1 != s.name.1)
        = start.filter fun e => !(s :: sealed).any fun t => t.name.1 == e.1 := by
      refine filter_congr fun e _ => ?_
      rw [any_cons, Bool.not_or, Bool.and_comm, bne, BEq.comm]
    rw [hfilter]
    simp [hfresh]

theorem effectiveEnvironment_eq (hnames : (template.environment.map EnvironmentEntry.name).Nodup)
    (hseals : SealsInv composition.modules composition.sealed) :
    effectiveEnvironment template composition
      = (sortBy LockedEnvironment.name (effective template.environment composition)).map
        fun e => (e.name, e.value) := by
  have hmap : (effective template.environment composition).map (fun e => (e.name, e.value))
      = ((template.environment.map fun e => (e.name, e.value)).filter fun e =>
          !composition.sealed.any fun s => s.name.1 == e.1)
        ++ composition.sealed.map fun s => (s.name.1, some s.value) := by
    rw [effective, map_append, map_map, filterMap_lockEntry, map_map, filter_map]
    rfl
  rw [effectiveEnvironment, foldl_orInsert (by simpa using hnames), nil_append,
    foldl_insert hseals.distinct, ← hmap]
  exact (map_insertionSort (fun x y : LockedEnvironment => x.name ≤ y.name)
    (fun x y : String × Option String => x.1 ≤ y.1) _ _ fun _ _ _ _ => Iff.rfl).symm

/-! ## Secrets -/

theorem filled_spec :
    scopeOf (filled secret) = scopeOf secret
      ∧ modeOf (filled secret) = modeOf secret := by
  obtain ⟨name, source, delivery, scope, mode⟩ := secret
  cases delivery <;> cases scope <;> cases mode <;> exact ⟨rfl, rfl⟩

theorem locked_filled : locked (filled secret) = locked secret := by
  obtain ⟨hscope, hmode⟩ := filled_spec secret
  simp only [locked, hscope, hmode]
  rfl

theorem putSecret_filled : putSecret (filled secret) = putSecret secret := by
  obtain ⟨name, source, delivery, scope, mode⟩ := secret
  cases delivery <;> cases scope <;> cases mode <;> rfl

variable {environment : List LockedEnvironment}

theorem secretRule_filled {modules : List ModuleSpec} {envelope : NetworkEnvelope} {secret : SecretReference} :
    SecretRule modules envelope environment (filled secret) ↔
      SecretRule modules envelope environment secret := by
  obtain ⟨hscopeOf, -⟩ := filled_spec secret
  have hscope : ScopeRule envelope (filled secret) ↔ ScopeRule envelope secret := by
    unfold ScopeRule
    rw [hscopeOf]
    obtain ⟨name, source, delivery, scope, mode⟩ := secret
    cases delivery <;> rfl
  have hmode : ModeRule (filled secret) ↔ ModeRule secret := by
    obtain ⟨name, source, delivery, scope, mode⟩ := secret
    cases delivery <;> cases mode <;> rfl
  rw [secretRule_iff, secretRule_iff, hscope, hmode, hscopeOf, locked_filled]
  rfl

theorem distinct_filled {a b : SecretReference} : Distinct (filled a) (filled b) ↔ Distinct a b := by
  unfold Distinct
  rw [locked_filled, locked_filled]
  rfl

theorem distinct_symm {a b : SecretReference} (h : Distinct a b) : Distinct b a :=
  ⟨h.1.symm, h.2.symm⟩

variable {result : List LockedSecret}

theorem secrets_eq_ok_filled {envelope : NetworkEnvelope} :
    secrets template composition envelope environment = .ok result ↔
      (∀ secret ∈ template.secrets.map filled,
        SecretRule composition.modules envelope environment secret)
        ∧ (template.secrets.map filled).Pairwise Distinct
        ∧ result = sortBy LockedSecret.name ((template.secrets.map filled).map locked) := by
  rw [secrets_eq_ok, forall_mem_map, pairwise_map, map_map]
  simp only [secretRule_filled, distinct_filled]
  rw [show locked ∘ filled = locked from funext locked_filled]

theorem secrets_respelled {envelope : NetworkEnvelope}
    (hperm : (a.secrets.map filled).Perm (b.secrets.map filled))
    (h : secrets a composition envelope environment = .ok result) :
    secrets b composition envelope environment = .ok result := by
  obtain ⟨hrules, hpairs, rfl⟩ := secrets_eq_ok_filled.mp h
  refine secrets_eq_ok_filled.mpr ⟨?_, ?_, ?_⟩
  · exact fun secret hsecret => hrules secret (hperm.mem_iff.mpr hsecret)
  · exact (hperm.pairwise_iff distinct_symm).mp hpairs
  · refine sortBy_eq_of_perm ?_ (hperm.map _)
    rw [map_map, nodup_iff_pairwise_ne, pairwise_map]
    exact hpairs.imp fun h => h.1

theorem putSecrets_respelled (hperm : (a.secrets.map filled).Perm (b.secrets.map filled))
    (hnames : (a.secrets.map SecretReference.name).Nodup) :
    Writer.putList putSecret (sortBy SecretReference.name a.secrets)
      = Writer.putList putSecret (sortBy SecretReference.name b.secrets) := by
  have hput : ∀ l : List SecretReference, Writer.putList putSecret l = Writer.putList putSecret (l.map filled) := by
    intro l
    simp only [Writer.putList, length_map, flatMap_map, putSecret_filled]
  have hsorted := map_sortBy_eq_of_perm (f := filled) (k := SecretReference.name) (fun _ => rfl) hnames hperm
  rw [hput, hput (sortBy SecretReference.name b.secrets)]
  exact congrArg (Writer.putList putSecret) hsorted

/-! ## Network -/

section

variable [AddressText] {a b : Network} {x y : String}

theorem SameCidr.parse_eq (h : SameCidr x y) : Cidr.parse x = Cidr.parse y := by
  rcases h with rfl | ⟨cidr, hx, hy⟩
  · rfl
  · rw [hx, hy]

theorem SameNetwork.hasDestinations (h : SameNetwork a b) : a.hasDestinations = b.hasDestinations := by
  have hdomains : a.allowDomains.isEmpty = b.allowDomains.isEmpty := by
    rw [Bool.eq_iff_iff, List.isEmpty_iff, List.isEmpty_iff]
    simp only [eq_nil_iff_forall_not_mem, h.domains]
  have hcidrs : a.allowCidrs.isEmpty = b.allowCidrs.isEmpty := by
    rw [Bool.eq_iff_iff, List.isEmpty_iff, List.isEmpty_iff]
    simp only [eq_nil_iff_forall_not_mem]
    constructor
    · intro hnone y hy
      obtain ⟨x, hx, -⟩ := h.cidrs' y hy
      exact hnone x hx
    · intro hnone x hx
      obtain ⟨y, hy, -⟩ := h.cidrs x hx
      exact hnone y hy
  rw [Network.hasDestinations, Network.hasDestinations, hdomains, hcidrs]

theorem SameNetwork.symm (h : SameNetwork a b) : SameNetwork b a where
  ingress := h.ingress.symm
  domains domain := (h.domains domain).symm
  cidrs := h.cidrs'
  cidrs' := h.cidrs
  egress := h.egress.imp Eq.symm fun hboth => ⟨h.hasDestinations ▸ hboth.1, hboth.2.2, hboth.2.1⟩

theorem SameNetwork.logicalEgress_eq (h : SameNetwork a b) : logicalEgress a = logicalEgress b := by
  unfold logicalEgress
  rw [← h.hasDestinations]
  rcases h.egress with heq | ⟨hsome, ha, hb⟩
  · rw [heq]
  · rw [hsome]
    cases hae : a.egress <;> cases hbe : b.egress <;> simp_all

theorem SameNetwork.canonicalList_eq (h : SameNetwork a b) :
    canonicalList a.allowCidrs = canonicalList b.allowCidrs := by
  have hsub : ∀ {l m : List String}, (∀ x ∈ l, ∃ y ∈ m, SameCidr x y) → ∀ {f : String → String},
      (∀ {x y}, SameCidr x y → f x = f y) → ∀ v ∈ l.map f, v ∈ m.map f := by
    intro l m hlm f hf v hv
    obtain ⟨x, hx, rfl⟩ := mem_map.mp hv
    obtain ⟨y, hy, hxy⟩ := hlm x hx
    exact mem_map.mpr ⟨y, hy, (hf hxy).symm⟩
  refine sorted_congr fun v => ⟨hsub h.cidrs ?_ v, hsub h.cidrs' ?_ v⟩
  all_goals
    rintro x y (rfl | ⟨cidr, hx, hy⟩)
    · rfl
    · rw [hx, hy]

theorem egressOf_eq_ok {network : Network} {e : EgressEnvelope} :
    egressOf network = .ok e ↔ match logicalEgress network with
      | .unrestricted => network.hasDestinations = false ∧ e = .unrestricted
      | .allowlist => network.hasDestinations = true
          ∧ e = .allowlist (sorted network.allowDomains) (canonicalList network.allowCidrs)
      | .deny => e = .deny := by
  unfold egressOf logicalEgress
  have hok : ∀ x : EgressEnvelope, (Except.ok x : Except Rejection EgressEnvelope) = .ok e ↔ e = x :=
    fun x => Except.ok.injEq x e ▸ eq_comm
  cases network.egress <;> cases network.hasDestinations <;> simp [hok]

theorem envelope_respelled {ceiling : PolicyCeiling} {e : NetworkEnvelope} (hsame : SameNetwork a b)
    (h : envelope a ceiling = .ok e) : envelope b ceiling = .ok e := by
  obtain ⟨hdomains, hcidrs, hegress, hceiling, hingress⟩ := envelope_eq_ok.mp h
  have hparse : ∀ y ∈ b.allowCidrs, ∃ c, Cidr.parse y = .ok c := by
    intro y hy
    obtain ⟨x, hx, hyx⟩ := hsame.cidrs' y hy
    rw [hyx.parse_eq]
    exact hcidrs x hx
  refine envelope_eq_ok.mpr ⟨?_, hparse, ?_, ?_, ?_⟩
  · exact fun value hvalue => hdomains value ((hsame.domains value).mpr hvalue)
  · rw [egressOf_eq_ok, ← hsame.logicalEgress_eq, ← hsame.hasDestinations, ← hsame.canonicalList_eq,
      ← sorted_congr hsame.domains]
    exact egressOf_eq_ok.mp hegress
  · rw [checkCeiling_eq_ok] at hceiling ⊢
    obtain ⟨hin, hclass, hcovers⟩ := hceiling
    refine ⟨hsame.ingress ▸ hin, hclass, fun hallow => ⟨?_, ?_⟩⟩
    · intro allowed hallowed domain hdomain
      exact (hcovers hallow).1 allowed hallowed domain ((hsame.domains domain).mpr hdomain)
    · intro allowed hallowed y hy
      obtain ⟨x, hx, hyx⟩ := hsame.cidrs' y hy
      rw [cidrCovered, hyx.parse_eq]
      exact (hcovers hallow).2 allowed hallowed x hx
  · rw [hingress, hsame.ingress]

theorem putNetwork_respelled (h : SameNetwork a b) : putNetwork a = putNetwork b := by
  rw [putNetwork, putNetwork, h.logicalEgress_eq, sorted_congr h.domains, h.canonicalList_eq, h.ingress]

end

/-! ## The command -/

theorem SameCommand.refl (c : Command) : SameCommand c c := ⟨rfl, rfl, rfl, rfl⟩

variable {c d : Command}

theorem SameCommand.symm (h : SameCommand c d) : SameCommand d c :=
  ⟨h.program.symm, h.args.symm, h.workingDirectory.symm, h.user.symm⟩

theorem SameCommand.validate_eq (h : SameCommand c d) : command c = command d := by
  unfold command
  rw [h.program, h.args, h.workingDirectory, h.user]

theorem SameCommand.put_eq (h : SameCommand c d) : putCommand c = putCommand d := by
  rw [putCommand, putCommand, h.program, h.args, h.workingDirectory, h.user]

theorem defaultCommand_respelled {modules : List ModuleSpec} {c : Command}
    (hsame : Option.Rel SameCommand a.command b.command) (h : defaultCommand a modules = .ok c) :
    ∃ d, defaultCommand b modules = .ok d ∧ SameCommand c d := by
  unfold defaultCommand at h ⊢
  generalize a.command = x at hsame h
  generalize b.command = y at hsame ⊢
  cases hsame with
  | none => exact ⟨c, h, .refl c⟩
  | some hcd =>
    cases h
    exact ⟨_, rfl, hcd⟩

/-! ## The lock -/

section

variable [AddressText] {registry : ModuleRegistry} {resolver : OciResolver} {a b : Template}

section

variable {composition : Composition} {command : Command} {image : ResolvedImage} {ceiling : PolicyCeiling}
  {backend : BackendCapabilities} {oracle : FilesystemOracle} {validated : Validated}
  (h : Respelled registry resolver a b)
include h

theorem Respelled.symm : Respelled registry resolver b a where
  description := h.description.imp Eq.symm And.symm
  image image := (h.image image).symm
  platform := h.platform.symm
  modules := h.modules.symm
  command := by
    have hcommand := h.command
    cases ha : a.command <;> cases hb : b.command <;> rw [ha, hb] at hcommand <;> cases hcommand
    · exact .none
    · exact .some (by assumption : SameCommand _ _).symm
  resources := h.resources.symm
  network := h.network.symm
  lifecycle := h.lifecycle.symm
  environment composed sealed horder hsealed :=
    (h.environment composed sealed (order_congr registry h.modules ▸ horder) hsealed).symm
  secrets := h.secrets.symm

variable (hcompose : compose a registry = .ok composition)
include hcompose

theorem compose_respelled :
    ∃ command, compose b registry = .ok { composition with command }
      ∧ SameCommand composition.command command := by
  obtain ⟨horder, hfields, hpaths, hsealed, hoverrides, hcommand⟩ := compose_eq_ok.mp hcompose
  have hseals := sealedEnvironment_spec hsealed
  have hsame := h.environment _ _ horder hsealed
  obtain ⟨command, hdefault, hcommands⟩ := defaultCommand_respelled h.command hcommand
  refine ⟨command, compose_eq_ok.mpr ⟨?_, hfields, hpaths, hsealed, ?_, hdefault⟩, hcommands⟩
  · rw [← order_congr registry h.modules]
    exact horder
  · rw [templateOverrides_eq_ok hseals] at hoverrides ⊢
    exact hsame.consistent hseals hoverrides

variable (hcommand : SameCommand composition.command command)
  (haccepts : Accepts a composition image ceiling backend oracle validated)
include hcommand haccepts

theorem accepts_respelled : Accepts b { composition with command } image ceiling backend oracle validated := by
  obtain ⟨horder, -, -, hsealed, hoverrides, -⟩ := compose_eq_ok.mp hcompose
  have hseals := sealedEnvironment_spec hsealed
  have hsame := h.environment _ _ horder hsealed
  have hconsistent := (templateOverrides_eq_ok hseals).mp hoverrides
  have hdescription : description b = .ok () := by
    rcases h.description with heq | hboth
    · rw [description, ← heq]
      exact haccepts.description
    · exact hboth.2
  exact {
    platforms := by
      rw [platforms, ← h.platform]
      exact haccepts.platforms
    resources := by
      rw [resources, ← h.resources]
      exact haccepts.resources
    lifecycle := by
      rw [lifecycle, ← h.lifecycle]
      exact haccepts.lifecycle
    description := hdescription
    command := hcommand.validate_eq ▸ haccepts.command
    modules := haccepts.modules
    environment := environment_respelled hseals hsame hconsistent haccepts.modules haccepts.environment
    network := envelope_respelled h.network haccepts.network
    secrets := secrets_respelled h.secrets haccepts.secrets
    required := haccepts.required
    executable := haccepts.executable }

theorem contentBytes_respelled : contentBytes b { composition with command } = contentBytes a composition := by
  obtain ⟨-, -, -, hsealed, -, -⟩ := compose_eq_ok.mp hcompose
  have hseals := sealedEnvironment_spec hsealed
  have hother := accepts_respelled h hcompose hcommand haccepts
  obtain ⟨-, hnames, -, hlocked⟩ := environment_eq_ok.mp haccepts.environment
  obtain ⟨-, hnames', -, hlocked'⟩ := environment_eq_ok.mp hother.environment
  have henvironment : effectiveEnvironment b { composition with command }
      = effectiveEnvironment a composition := by
    have hleft : effectiveEnvironment b { composition with command }
        = validated.environment.map fun e => (e.name, e.value) := by
      rw [hlocked']
      exact effectiveEnvironment_eq hnames' hseals
    rw [hleft, effectiveEnvironment_eq hnames hseals, ← hlocked]
  have hsecrets : (a.secrets.map SecretReference.name).Nodup := by
    obtain ⟨-, hpairs, -⟩ := secrets_eq_ok.mp haccepts.secrets
    rw [nodup_iff_pairwise_ne, pairwise_map]
    exact hpairs.imp fun h => h.1
  rw [contentBytes, contentBytes, henvironment, ← putSecrets_respelled h.secrets hsecrets, ← h.platform,
    ← h.resources, ← h.lifecycle, ← putNetwork_respelled h.network, ← hcommand.put_eq]

end

variable [Sha256] {ceiling : PolicyCeiling} {backend : BackendCapabilities} {oracle : FilesystemOracle}

theorem resolve_of_respelled (h : Respelled registry resolver a b) {lock : TemplateLock}
    (hresolve : resolveWith registry a resolver ceiling backend oracle = .ok lock) :
    resolveWith registry b resolver ceiling backend oracle = .ok lock := by
  obtain ⟨composition, image, validated, hcompose, himage, haccepts, rfl⟩ :=
    resolveWith_eq_ok.mp hresolve
  obtain ⟨command, hcompose', hcommand⟩ := compose_respelled h hcompose
  refine resolveWith_eq_ok.mpr ⟨_, image, validated, hcompose', (h.image image).mp himage,
    accepts_respelled h hcompose hcommand haccepts, ?_⟩
  rw [TemplateLock.assemble, TemplateLock.assemble, contentDigest, contentDigest,
    contentBytes_respelled h hcompose hcommand haccepts, h.resources, h.lifecycle]

/-- Templates that differ only in how they are written are both accepted or both refused, and their locks
have the same bytes and the same content digest. -/
theorem resolve_respelled (h : Respelled registry resolver a b) :
    ((∃ lock, resolveWith registry a resolver ceiling backend oracle = .ok lock)
        ↔ ∃ lock, resolveWith registry b resolver ceiling backend oracle = .ok lock)
      ∧ ∀ lock lock', resolveWith registry a resolver ceiling backend oracle = .ok lock →
        resolveWith registry b resolver ceiling backend oracle = .ok lock' →
        lock.encode = lock'.encode ∧ lock.contentDigest = lock'.contentDigest := by
  refine ⟨⟨?_, ?_⟩, ?_⟩
  · rintro ⟨lock, hlock⟩
    exact ⟨lock, resolve_of_respelled h hlock⟩
  · rintro ⟨lock, hlock⟩
    exact ⟨lock, resolve_of_respelled h.symm hlock⟩
  · intro lock lock' hlock hlock'
    rw [resolve_of_respelled h hlock] at hlock'
    cases hlock'
    exact ⟨rfl, rfl⟩

end

/-! ### One selection in two spellings -/

/-- A Template with a name, a working directory and destinations of its own. -/
def spelledTemplate (name : String) (directory : Option (Valid (boundedText "command.working_directory")))
    (egress : EgressIntent) (domains : List String) : Template :=
  { storageTemplate 1 with
    name
    command := some ⟨⟨"sh", sh_check⟩, ⟨[], noArguments_check⟩, directory, none⟩
    network := ⟨egress, domains, [], .deny⟩ }

/-- Another name, a default written out, an allowlist with its destinations in another order and one of
them twice. -/
theorem resolve_respelled_destinations :
    letI := hexText
    letI := zeroHash
    let a := spelledTemplate "box" none .deny ["b.org", "a.org"]
    let b := spelledTemplate "crate" (some ⟨"/", by decide +kernel⟩) .allowlist ["a.org", "b.org", "a.org"]
    let resolver : OciResolver := fun _ platform =>
      .ok ⟨digestFromBytes ⟨replicate 32 0, rfl⟩, platform, 1⟩
    Respelled .empty resolver a b ∧ ∀ ceiling backend oracle,
      ((∃ lock, resolveWith .empty a resolver ceiling backend oracle = .ok lock)
        ↔ ∃ lock, resolveWith .empty b resolver ceiling backend oracle = .ok lock) := by
  let _ := hexText
  let _ := zeroHash
  have hsame : Respelled .empty (fun _ platform =>
      .ok ⟨digestFromBytes ⟨replicate 32 0, rfl⟩, platform, 1⟩)
      (spelledTemplate "box" none .deny ["b.org", "a.org"])
      (spelledTemplate "crate" (some ⟨"/", by decide +kernel⟩) .allowlist ["a.org", "b.org", "a.org"]) :=
    { description := .inl rfl
      image := fun _ => Iff.rfl
      platform := rfl
      modules := rfl
      command := .some ⟨rfl, rfl, rfl, rfl⟩
      resources := rfl
      network := ⟨rfl, by simp [spelledTemplate, or_comm], by simp [spelledTemplate],
        by simp [spelledTemplate], .inr ⟨rfl, by decide, by decide⟩⟩
      lifecycle := rfl
      environment := fun _ _ _ _ => ⟨fun _ _ => rfl, fun _ _ => .inl rfl⟩
      secrets := .refl _ }
  exact ⟨hsame, fun _ _ _ => (resolve_respelled hsame).1⟩

end Soma.Template
