import Soma.Netd.Handle

/-! # Runs of the broker

* **`Serving`** and **`Served`**: every point of a request frame, its capability check and its reply
  included, and its end.
* **`boot_spec`**: the start of a process touches only bundles it draws, and ends with a pool of unused ones.
* **`broker_invariant`**: a property of the world that every boot and every request keep holds in every
  reachable configuration. `Sound` and `Coherent` come with it.
-/

namespace Soma.Netd

open Soma.Codec Soma.Lib Soma.Guest Prog

variable {prims : Primitives} {allow : (a : Act) → Choice a → World → Prop}
  {m : State} {w : World} {peer : U32} {request : Request}

/-! ## One request -/

theorem handle_spec (hdraws : allow ≤ DrawsNew) (hcoherent : Coherent m w) (hsound : Sound w) :
    Does prims allow m w peer request (handle prims m peer request) w := by
  cases request with
  | claim instance_ operation vsockCid intent =>
    exact claim_spec hdraws ⟨instance_, operation, vsockCid, intent⟩ hcoherent hsound
  | activate slot receipt => exact handleActivate_spec hcoherent
  | release slot => exact handleRelease_spec hcoherent hsound
  | reconcile => exact handleReconcile_spec hcoherent

def refusal : Reply :=
  failed (.unauthorized "peer capability")

/-- Every point of a request frame. -/
inductive Serving (prims : Primitives) (m : State) (w : World) (peer : U32) (request : Request) :
    World → Prop
  | refusing (h : ¬ m.authority.permits peer request.capability) : Serving prims m w peer request w
  | refused (h : ¬ m.authority.permits peer request.capability) :
      Serving prims m w peer request (w.log (.replied peer request refusal))
  | handling {w' : World} (h : m.authority.permits peer request.capability)
      (hduring : During prims m w peer request w') : Serving prims m w peer request w'
  | replied {w' : World} {reply : Reply} {m' : State} (h : m.authority.permits peer request.capability)
      (hdone : Done prims m w peer request reply m' w') :
      Serving prims m w peer request (w'.log (.replied peer request reply))

/-- The end of a request frame. -/
inductive Served (prims : Primitives) (m : State) (w : World) (peer : U32) (request : Request) :
    State → World → Prop
  | refused (h : ¬ m.authority.permits peer request.capability) :
      Served prims m w peer request m (w.log (.replied peer request refusal))
  | replied {w' : World} {reply : Reply} {m' : State} (h : m.authority.permits peer request.capability)
      (hdone : Done prims m w peer request reply m' w') :
      Served prims m w peer request m' (w'.log (.replied peer request reply))

theorem serveRequest_spec (hdraws : allow ≤ DrawsNew) (hcoherent : Coherent m w) (hsound : Sound w) :
    (serveRequest prims peer request m).Safe exec allow (Serving prims m w peer request)
      (Served prims m w peer request) w := by
  unfold serveRequest
  split_ifs with hpermits
  · change Safe exec allow _ _ (handle prims m peer request >>= fun r => _) w
    refine Safe.bind ((handle_spec hdraws hcoherent hsound).weaken (fun w' h => .handling hpermits h)) ?_
    rintro ⟨reply, m'⟩ w₁ hC₁ hdone
    refine safe_act hC₁ fun e r w₂ hexec _ => ?_
    cases hexec
    exact safe_ret (.replied hpermits hdone) (.replied hpermits hdone)
  · refine safe_act (.refusing hpermits) fun e r w₂ hexec _ => ?_
    cases hexec
    exact safe_ret (.refused hpermits) (.refused hpermits)

/-! ## Soundness -/

variable {event : Event}

theorem Sound.log (h : Sound w) : Sound (w.log event) :=
  ⟨h.drawn, h.records, h.generations⟩

variable {p : Scope} {w' : World}

theorem Job.record_assigned (h : Job prims m w peer w' request p) {slot : Slot} (hp : p.record .assigned slot) :
    ∃ bundle m₁, slot = bundle.slot ∧ Takes prims m w bundle m₁ ∧ p = claimScope m bundle peer := by
  cases h with
  | idle => cases hp
  | @claim _ bundle m₁ hfree htakes hdrawn => exact ⟨bundle, m₁, hp, htakes, rfl⟩
  | replay hlive hpeer => cases hp
  | activate hlive hpeer => cases hp.1
  | releaseLive hlive hpeer => cases hp.1
  | releaseRecord hdecoded howner => cases hp.1

variable {other : Request} {reply : Reply} {u : U32}

theorem Job.not_replied (h : Job prims m w peer w' request p)
    : ¬ p.event (.replied u other reply) := by
  cases h with
  | idle => nofun
  | claim hfree htakes hdrawn =>
    rintro (hassign | ⟨-, hprepare⟩)
    · rcases hassign with ⟨_, h⟩ | h | h <;> cases h
    · obtain ⟨_, h⟩ := hprepare
      cases h
  | replay hlive hpeer => nofun
  | activate hlive hpeer =>
    rintro (h | ⟨h, -⟩) <;> cases h
  | releaseLive hlive hpeer => nofun
  | releaseRecord hdecoded howner => nofun

theorem During.replied (h : During prims m w peer request w') (hmem : .replied u other reply ∈ w'.trace) :
    .replied u other reply ∈ w.trace := by
  obtain ⟨p, hjob, hframe⟩ := h.job
  exact (hframe.of_mem_trace hmem).resolve_right hjob.not_replied

theorem Job.record_drawn (h : Job prims m w peer w' request p) (hcoherent : Coherent m w) (hsound : Sound w)
    (hdrawn : ∀ id ∈ w.drawn, id ∈ w'.drawn) {kind : Kind} {slot : Slot} (hp : p.record kind slot) :
    slot.bundle ∈ w'.drawn := by
  cases h with
  | idle | replay => cases hp
  | claim hfree htakes hdrawn' =>
    obtain rfl : slot = _ := hp
    exact hdrawn'
  | activate hlive hpeer | releaseLive hlive hpeer =>
    have hlive := hcoherent.live _ _ hlive
    rw [hp.2, hlive.bundle]
    exact hdrawn _ (hsound.drawn _ _ hlive.file)
  | releaseRecord hdecoded howner =>
    obtain ⟨hslot, hfile⟩ := hsound.decoded hdecoded
    rw [hp.2, hslot]
    exact hdrawn _ (hsound.drawn _ _ hfile)

theorem During.assigned (h : During prims m w peer request w') {slot : Slot} {bytes : List UInt8}
    (hfile : w'.file (.record .assigned slot) = some bytes) :
    w.file (.record .assigned slot) = some bytes ∨ Claims prims m w peer request slot w' := by
  rcases h.records slot with hsame | hclaims
  · exact .inl (hsame.symm.trans hfile)
  · exact .inr hclaims

theorem Claims.taken {slot : Slot} (h : Claims prims m w peer request slot w') :
    ∃ bundle m₁, slot = bundle.slot ∧ Takes prims m w bundle m₁ := by
  obtain ⟨_, bundle, m₁, _, _, _, htakes, _, hslot, _⟩ := h
  exact ⟨bundle, m₁, hslot, htakes⟩

theorem During.claims_unique (h : During prims m w peer request w') (hcoherent : Coherent m w) (hsound : Sound w)
    {slot slot' : Slot} (hc : Claims prims m w peer request slot w')
    (hc' : Claims prims m w peer request slot' w') : slot = slot' := by
  obtain ⟨p, hjob, hframe⟩ := h.job
  have hrecord : ∀ s, Claims prims m w peer request s w' → p.record .assigned s := by
    intro s hs
    by_contra hp
    obtain ⟨bundle, m₁, rfl, htakes⟩ := hs.taken
    obtain ⟨_, _, _, _, _, _, _, _, _, hfile⟩ := hs
    rw [hframe.files (.record .assigned bundle.slot) hp, htakes.record_none hsound hcoherent rfl] at hfile
    cases hfile
  obtain ⟨bundle, m₁, hslot, -, rfl⟩ := hjob.record_assigned (hrecord slot hc)
  exact hslot.trans (hrecord slot' hc').symm

theorem During.sound (h : During prims m w peer request w') (hcoherent : Coherent m w) (hsound : Sound w) :
    Sound w' where
  drawn file bytes hfile := by
    obtain ⟨p, hjob, hframe⟩ := h.job
    by_cases hp : p.record file.kind file.slot
    · exact hjob.record_drawn hcoherent hsound hframe.drawn hp
    · rw [hframe.files file hp] at hfile
      exact hframe.drawn _ (hsound.drawn file bytes hfile)
  records slot bytes hfile := by
    rcases h.assigned hfile with hold | hclaims
    · exact hsound.records slot bytes hold
    · obtain ⟨claim, bundle, m₁, t, -, -, -, -, rfl, hfile'⟩ := hclaims
      rw [hfile'] at hfile
      cases hfile
      exact ⟨_, rfl, rfl⟩
  generations slot slot' bytes bytes' hfile hfile' heq := by
    rcases h.assigned hfile with hold | hclaims <;> rcases h.assigned hfile' with hold' | hclaims'
    · exact hsound.generations slot slot' bytes bytes' hold hold' heq
    · obtain ⟨bundle, m₁, rfl, htakes⟩ := hclaims'.taken
      rw [htakes.record_none hsound hcoherent heq] at hold
      cases hold
    · obtain ⟨bundle, m₁, rfl, htakes⟩ := hclaims.taken
      rw [htakes.record_none hsound hcoherent heq.symm] at hold'
      cases hold'
    · exact h.claims_unique hcoherent hsound hclaims hclaims'

theorem Serving.sound (h : Serving prims m w peer request w') (hcoherent : Coherent m w) (hsound : Sound w) :
    Sound w' := by
  cases h with
  | refusing h => exact hsound
  | refused h => exact hsound.log
  | handling h hduring => exact hduring.sound hcoherent hsound
  | replied h hdone => exact (hdone.during.sound hcoherent hsound).log

theorem Coherent.log (h : Coherent m w) : Coherent m (w.log event) where
  pool bundle hbundle := by
    obtain ⟨⟨epoch, hprepared⟩, hdrawn, hfiles⟩ := h.pool bundle hbundle
    exact ⟨⟨epoch, List.mem_cons_of_mem _ hprepared⟩, hdrawn, hfiles⟩
  apart := h.apart
  live slot owned howned := { h.live slot owned howned with }
  held := h.held

theorem Served.coherent {m' : State} (h : Served prims m w peer request m' w') (hcoherent : Coherent m w) :
    Coherent m' w' := by
  cases h with
  | refused h => exact hcoherent.log
  | replied h hdone => exact hdone.coherent.log

/-! ## The start of a process -/

/-- A start touches only bundles that were not drawn before. -/
def bootScope (w₀ : World) : Scope :=
  ⟨fun slot => slot.bundle ∉ w₀.drawn, fun _ => True, fun _ _ => False,
    fun event => ∃ epoch slot leases zone, event = .prepared epoch slot leases zone⟩

theorem Sound.of_files (h : Sound w) (hfiles : ∀ file, w'.file file = w.file file)
    (hdrawn : ∀ id ∈ w.drawn, id ∈ w'.drawn) : Sound w' where
  drawn file bytes hfile := hdrawn _ (h.drawn file bytes (hfiles file ▸ hfile))
  records slot bytes hfile := h.records slot bytes (hfiles _ ▸ hfile)
  generations slot slot' bytes bytes' hfile hfile' :=
    h.generations slot slot' bytes bytes' (hfiles _ ▸ hfile) (hfiles _ ▸ hfile')

theorem Frame.boot_sound {w₀ w' : World} (h : Frame (bootScope w₀) w w') (hsound : Sound w) : Sound w' :=
  hsound.of_files (fun file => h.files file nofun) h.drawn

theorem Frame.of_prepare_boot {w₀ w₁ w₂ : World} {bundle : SterileBundle} (hid : bundle.id ∉ w₀.drawn)
    (h : Frame (prepareScope bundle) w₁ w₂) : Frame (bootScope w₀) w₁ w₂ := by
  refine h.mono ?_ (fun _ _ => trivial) nofun ?_
  · rintro _ rfl
    exact hid
  · rintro event ⟨epoch, rfl⟩
    exact ⟨epoch, _, _, _, rfl⟩

variable {w₀ : World}

theorem prepare_boot {broker : Broker} {id : BundleId} (hid : id ∉ w₀.drawn) :
    (prepare prims broker id).Safe exec allow (Frame (bootScope w₀) w)
      (fun r w' => ∀ bundle, r.1 = .ok bundle → bundle.id = id ∧ Prepared bundle w') w := by
  rcases hreserve : broker.reserve with ⟨error | ⟨leases, zone⟩, broker'⟩
  · rw [prepare_of_error hreserve]
    exact safe_ret (.refl _ w) nofun
  · refine (((safe_of_within (prepare_within hreserve)).conj prepare_logged).returns
      (prepare_returns hreserve)).mono (fun w' h => h.1.of_prepare_boot hid) ?_
    rintro r w' - ⟨⟨-, hlogged⟩, -, hbundle⟩ bundle hr
    exact ⟨by rw [hbundle bundle hr], hlogged bundle hr⟩

/-- The bundles of a new pool are unused, were not drawn before, and are different. -/
theorem preparePool_spec (hdraws : allow ≤ DrawsNew) (n : ℕ) {broker : Broker} (hsound : Sound w)
    (hdrawn : ∀ id ∈ w₀.drawn, id ∈ w.drawn) :
    (preparePool prims n broker).run.Safe exec allow (Frame (bootScope w₀) w)
      (fun r w' => ∀ pool broker', r = .ok (pool, broker') →
        (∀ b ∈ pool, b.id ∉ w.drawn ∧ Unused b w') ∧ pool.Pairwise fun b b' => b.id ≠ b'.id) w := by
  induction n generalizing broker w with
  | zero =>
    refine safe_ret (.refl _ w) fun pool broker' h => ?_
    cases h
    exact ⟨by simp, .nil⟩
  | succ n ih =>
    refine safe_act (.refl _ w) fun e r w₁ hexec hallow => ?_
    cases e with
    | error error =>
      cases hexec
      exact safe_ret (.refl _ w) (by rintro _ _ ⟨⟩)
    | ok id =>
      have hid : id ∉ w.drawn := hdraws _ _ _ hallow
      cases hexec
      have hnew : id ∉ w₀.drawn := fun h => hid (hdrawn id h)
      have hdraw : Frame (bootScope w₀) w { w with drawn := id :: w.drawn } := .draw id
      refine Safe.andThen ((prepare_boot hnew).and_here.lift.weaken (fun w' h => hdraw.trans h)) ?_
        (by rintro _ _ _ ⟨_, ⟨⟩, _⟩)
      rintro x w₂ hC₂ ⟨⟨result, broker'⟩, hr, hframe₂, hresult⟩
      cases hr
      rcases result with error | bundle
      · exact safe_ret hC₂ (by rintro _ _ ⟨⟩)
      obtain ⟨hbundle, hlogged⟩ := hresult bundle rfl
      have hdrawn₂ : ∀ i ∈ id :: w.drawn, i ∈ w₂.drawn := hframe₂.drawn
      change Safe exec allow _ _ (ExceptT.run (preparePool prims n broker' >>= fun r =>
        pure (bundle :: r.1, r.2))) w₂
      refine Safe.andThen ((ih (hC₂.boot_sound hsound) fun i h => hC₂.drawn i (hdrawn i h)).and_here.weaken
        (fun w' h => hC₂.trans h)) ?_ fun _ _ _ _ _ _ h => by cases h
      rintro ⟨pool, broker₂⟩ w₃ hC₃ ⟨hframe₃, hpool⟩
      obtain ⟨hunused, hapart⟩ := hpool pool broker₂ rfl
      refine safe_ret hC₃ fun all broker₃ h => ?_
      cases h
      have hfirst : bundle.id ∈ w₂.drawn := hdrawn₂ _ (hbundle ▸ List.mem_cons_self ..)
      refine ⟨?_, List.pairwise_cons.mpr ⟨fun b hb heq => ?_, hapart⟩⟩
      · rintro b (_ | ⟨_, hb⟩)
        · refine ⟨hbundle ▸ hid, hlogged.frame hframe₃, hframe₃.drawn _ hfirst, fun file hfile => ?_⟩
          rw [hC₃.files file (by rintro ⟨⟩)]
          cases hcontent : w.file file with
          | none => rfl
          | some bytes =>
            have hold := hsound.drawn file bytes hcontent
            rw [hfile, hbundle] at hold
            exact (hid hold).elim
        · exact ⟨fun h => (hunused b hb).1 (hdrawn₂ _ (List.mem_cons_of_mem _ h)), (hunused b hb).2⟩
      · exact (hunused b hb).1 (heq ▸ hfirst)

theorem serve_of_preparePool {options : Options} {C : World → Prop} {P : List SterileBundle → Broker → World → Prop}
    (hC : C w)
    (hpool : ∀ ipam, Ipam.new options.profile.leases options.profile.transit options.generation
        options.limit = .ok ipam →
      (preparePool prims options.prepared ⟨options.profile, options.pid, ipam, 1⟩).run.Safe exec allow C
        (fun r w' => ∀ pool broker, r = .ok (pool, broker) → P pool broker w') w) :
    (serve prims options).Safe exec allow C (fun m? w' => ∀ m, m? = some m →
      P m.pool m.broker w' ∧ m.assigned = (fun _ => none) ∧ m.operations = fun _ => none) w := by
  have hopen : (Broker.open options).run.Safe exec allow (· = w) (fun r _ => ∀ broker, r = .ok broker →
      ∃ ipam, Ipam.new options.profile.leases options.profile.transit options.generation options.limit
        = .ok ipam ∧ broker = ⟨options.profile, options.pid, ipam, 1⟩) w := by
    refine safe_act rfl fun e r w₁ hexec _ => ?_
    cases hexec
    rcases e with error | _
    · exact safe_ret rfl nofun
    refine safe_act rfl fun e r w₂ hexec _ => ?_
    cases hexec
    rcases e with error | _
    · exact safe_ret rfl nofun
    generalize Ipam.new options.profile.leases options.profile.transit options.generation options.limit
      = allocator
    rcases allocator with error | ipam
    · exact safe_ret rfl nofun
    · refine safe_ret rfl fun broker h => ⟨ipam, rfl, ?_⟩
      cases h
      rfl
  have hstart : (start prims options).run.Safe exec allow C (fun r w' => ∀ m, r = .ok m →
      P m.pool m.broker w' ∧ m.assigned = (fun _ => none) ∧ m.operations = fun _ => none) w := by
    refine Safe.andThen (hopen.and_here.weaken (fun w' h => h ▸ hC)) ?_
      fun _ _ _ _ _ h => by cases h
    rintro broker _ - ⟨rfl, hbroker⟩
    obtain ⟨ipam, hipam, rfl⟩ := hbroker broker rfl
    refine Safe.andThen (hpool ipam hipam) ?_ fun _ _ _ _ _ h => by cases h
    rintro ⟨pool, broker⟩ w₁ hC₁ hP
    refine safe_act hC₁ fun e r w₂ hexec _ => ?_
    cases hexec
    rcases e with error | _
    · exact safe_ret hC₁ nofun
    · refine safe_ret hC₁ fun m hm => ?_
      cases hm
      exact ⟨hP pool broker rfl, rfl, rfl⟩
  refine hstart.bind fun r w' hC' hP => ?_
  cases r with
  | error error => exact safe_ret hC' nofun
  | ok m =>
    refine safe_ret hC' fun m' hm' => ?_
    cases hm'
    exact hP m rfl

theorem boot_spec (hdraws : allow ≤ DrawsNew) (options : Options) (hsound : Sound w) :
    (serve prims options).Safe exec allow (Frame (bootScope w) w)
      (fun m? w' => ∀ m, m? = some m → Coherent m w' ∧ ∀ slot, m.assigned slot = none) w := by
  refine (serve_of_preparePool (.refl _ w)
    fun ipam _ => preparePool_spec hdraws options.prepared hsound fun _ h => h).mono (fun _ h => h) ?_
  rintro m? w' - h m hm
  obtain ⟨⟨hunused, hapart⟩, hassigned, hoperations⟩ := h m hm
  refine ⟨⟨fun b hb => (hunused b hb).2, hapart, ?_, ?_⟩, fun slot => by rw [hassigned]⟩
  · rw [hassigned]
    nofun
  · rw [hoperations]
    nofun

/-! ## Reachable configurations -/

theorem sound_empty : Sound .empty where
  drawn file bytes h := by cases h
  records slot bytes h := by cases h
  generations slot slot' bytes bytes' h := by cases h

/-- What is known of a reachable configuration: `K` of the world, `J` of memory and world between
requests, and the memory and world that the request being served found. -/
structure Held (prims : Primitives) (G : Guard) (K : World → Prop) (J : State → World → Prop) (c : Config) :
    Prop where
  sound : Sound c.world
  world : K c.world
  idle : ∀ m, c.rest = .ret (some m) → Coherent m c.world ∧ J m c.world
  serving : ∀ peer request m w, c.serving = some ((peer, request), m, w) →
    Sound w ∧ Coherent m w ∧ K w ∧ J m w ∧ G.request (peer, request) m w
      ∧ Serving prims m w peer request c.world
  served : ∀ peer request m w m', c.serving = some ((peer, request), m, w) → c.rest = .ret (some m') →
    Served prims m w peer request m' c.world

variable {G : Guard} {c : Config}

/-- **Invariant rule of the broker.** -/
theorem broker_invariant (hdraws : G.act ≤ DrawsNew) (K : World → Prop) (J : State → World → Prop) (hinit : K .empty)
    (hboot : ∀ options w, Sound w → K w → G.restart options w →
      (serve prims options).Safe exec G.act K (fun m? w' => ∀ m, m? = some m → J m w') w.revive)
    (hserve : ∀ peer request m w, Sound w → Coherent m w → K w → J m w → G.request (peer, request) m w →
      (serveRequest prims peer request m).Safe exec G.act K J w)
    (h : Service.Reach (broker prims) G .empty c) : Held prims G K J c := by
  let found : Option ((U32 × Request) × State × World) → World → Prop := fun serving w' =>
    ∀ peer request m w, serving = some ((peer, request), m, w) →
      Sound w ∧ Coherent m w ∧ K w ∧ J m w ∧ G.request (peer, request) m w
        ∧ Serving prims m w peer request w'
  have hsafe := Service.Reach.invariant
    (fun serving w => (Sound w ∧ K w) ∧ found serving w)
    (fun serving m' w' => (Coherent m' w' ∧ J m' w') ∧ ∀ peer request m w,
      serving = some ((peer, request), m, w) → Served prims m w peer request m' w')
    ⟨⟨sound_empty, hinit⟩, nofun⟩ ?boot ?serve h
  case boot =>
    rintro options serving w ⟨⟨hsound, hK⟩, -⟩ hrestart
    have hrevive : Sound w.revive := hsound.of_files (fun _ => rfl) fun _ h => h
    refine ((boot_spec hdraws options hrevive).conj (hboot options w hsound hK hrestart)).mono ?_ ?_
    · rintro w' ⟨hframe, hK'⟩
      exact ⟨⟨hframe.boot_sound hrevive, hK'⟩, nofun⟩
    · rintro m? w' - ⟨hcoherent, hJ⟩ m hm
      exact ⟨⟨(hcoherent m hm).1, hJ m hm⟩, nofun⟩
  case serve =>
    rintro ⟨peer, request⟩ serving m w ⟨⟨hsound, hK⟩, -⟩ ⟨⟨hcoherent, hJ⟩, -⟩ hrequest
    refine ((serveRequest_spec hdraws hcoherent hsound).conj
      (hserve peer request m w hsound hcoherent hK hJ hrequest)).mono ?_ ?_
    · rintro w' ⟨hserving, hK'⟩
      refine ⟨⟨hserving.sound hcoherent hsound, hK'⟩, ?_⟩
      intro peer' request' m' w₀ heq
      cases heq
      exact ⟨hsound, hcoherent, hK, hJ, hrequest, hserving⟩
    · rintro m' w' - ⟨hserved, hJ'⟩
      refine ⟨⟨hserved.coherent hcoherent, hJ'⟩, ?_⟩
      intro peer' request' m₀ w₀ heq
      cases heq
      exact hserved
  refine ⟨hsafe.here.1.1, hsafe.here.1.2, fun m hrest => ?_, hsafe.here.2,
    fun peer request m w m' hserving hrest => ?_⟩
  · rw [hrest] at hsafe
    exact (hsafe.2 m rfl).1
  · rw [hrest] at hsafe
    exact (hsafe.2 m' rfl).2 peer request m w hserving

theorem file_of_keys_empty {file : FileName} (h : w.files.keys.isEmpty) : w.file file = none := by
  rw [List.isEmpty_iff] at h
  refine AList.lookup_eq_none.mpr fun hmem => ?_
  rw [AList.mem_keys, h] at hmem
  cases hmem

theorem Reach.held (hdraws : G.act ≤ DrawsNew) (h : Service.Reach (broker prims) G .empty c) :
    Held prims G (fun _ => True) (fun _ _ => True) c := by
  refine broker_invariant hdraws _ _ trivial ?_ ?_ h
  · intro options w hsound _ _
    have hrevive : Sound w.revive := hsound.of_files (fun _ => rfl) fun _ h => h
    exact (boot_spec hdraws options hrevive).mono (fun _ _ => trivial) fun _ _ _ _ _ _ => trivial
  · intro peer request m w hsound hcoherent _ _ _
    exact (serveRequest_spec hdraws hcoherent hsound).mono (fun _ _ => trivial) fun _ _ _ _ => trivial

/-! ## A broker to run -/

namespace Sample

def primitives : Primitives :=
  ⟨fun _ => .fill 32 7, fun _ _ => some (.fill 32 9)⟩

def idOf (kind : IdKind) (byte : UInt8) : FixedId kind :=
  ⟨⟨1 :: List.replicate 15 byte, rfl⟩, rfl⟩

/-- The environment in which everything succeeds. -/
def calm (id : UInt8) : (a : Act) → Choice a
  | .exists_ _ | .pinExists _ => false
  | .prepared _ _ _ | .issued _ _ | .settled _ => ()
  | .create _ | .sync _ | .link _ _ | .remove _ | .syncDir | .read _ | .readDir => none
  | .write _ _ => none
  | .query _ _ => none
  | .kernel _ _ | .flushZone _ _ => none
  | .bindPort _ => .ok 8080
  | .listPins | .listLinks | .listTables => .ok []
  | .probePrivilege | .openLedger | .bindSocket | .sendTap _ _ | .reply _ _ _ => .ok ()
  | .freshId => .ok (idOf .bundle id)
  | .clock => .ok 1
  | .challenge => .ok ⟨.fill 32 3, rfl⟩

/-- A broker with an empty pool that serves two peers. -/
def options : Options :=
  ⟨.sample, ⟨[1000, 2000], [1000]⟩, ⟨1, by decide⟩, 16384, 0, 77⟩

def slot (id : UInt8) : Slot :=
  ⟨idOf .bundle id, ⟨1, by decide⟩⟩

def claimOf (operation : UInt8) : ClaimRequest :=
  ⟨idOf .instance_ 1, idOf .operation operation, 7, .denied primitives .sample⟩

/-- The record in a slot can be read and is of the claim's operation. -/
def holds (w : World) (slot : Slot) (claim : ClaimRequest) : Bool :=
  match w.decoded primitives (.record .assigned slot) with
  | some (.ok record) => record.instance_ = claim.instance_ ∧ record.operation = claim.operation
  | _ => false

theorem assignedTo_of_holds {w : World} {slot : Slot} {claim : ClaimRequest} (hsound : Sound w)
    (h : holds w slot claim) : AssignedTo w slot (claim.instance_, claim.operation) := by
  unfold holds at h
  split at h
  · next record hdecoded =>
    obtain ⟨hslot, hfile⟩ := hsound.decoded hdecoded
    obtain ⟨hinstance, hoperation⟩ := of_decide_eq_true h
    exact ⟨record, hslot, by rw [hinstance, hoperation], hfile⟩
  · cases h

/-- Serves one request to its end; a bundle drawn meanwhile gets the given identity. -/
def asks (peer : U32) (request : Request) (id : UInt8) : List (Service.Move Choice Options (U32 × Request)) :=
  [.request (peer, request), .finish (calm id)]

def starts : List (Service.Move Choice Options (U32 × Request)) :=
  [.restart options, .finish (calm 0)]

end Sample

/-- The assumption on identities, computed. -/
def drawsNew : (a : Act) → Choice a → World → Bool
  | .freshId, .ok id, w => id ∉ w.drawn
  | _, _, _ => true

theorem drawsNew_sound {a : Act} {e : Choice a} (h : drawsNew a e w) : DrawsNew a e w := by
  cases a with
  | freshId =>
    rcases e with error | id
    · trivial
    · simpa [drawsNew, DrawsNew] using h
  | _ => trivial

/-- Every run, checked. -/
def anyCheck : Service.Check Choice World Options State (U32 × Request) where
  act := drawsNew
  request _ _ _ := true
  restart _ _ := true

theorem anyCheck_le : anyCheck.guard.Le anyRun :=
  ⟨fun _ _ _ => drawsNew_sound, fun _ _ _ _ => trivial, fun _ _ _ => trivial⟩

/-- **The broker's memory is on its ledger.**  In every run, with any failures and any crashes, what the
broker remembers between two requests is what the state directory records; and no request, however far
it gets, changes or removes a record that it found. -/
theorem memory_is_recorded (h : Service.Reach (broker prims) anyRun .empty c) :
    (∀ m, c.rest = .ret (some m) → Coherent m c.world) ∧
      ∀ peer request m w, c.serving = some ((peer, request), m, w) → ∀ kind slot bytes,
        w.file (.record kind slot) = some bytes → c.world.file (.record kind slot) = some bytes := by
  have hheld := Reach.held le_rfl h
  refine ⟨fun m hm => (hheld.idle m hm).1, fun peer request m w hserving kind slot bytes hfile => ?_⟩
  obtain ⟨-, -, -, -, -, hat⟩ := hheld.serving peer request m w hserving
  generalize c.world = w' at hat
  cases hat with
  | refusing _ | refused _ => exact hfile
  | handling _ hduring =>
    obtain ⟨p, -, hframe⟩ := hduring.job
    exact hframe.records kind slot bytes hfile
  | replied _ hdone =>
    obtain ⟨p, -, hframe⟩ := hdone.during.job
    exact hframe.records kind slot bytes hfile

open Sample in
/-- Bundle 11 is claimed and released: its assignment stays on the ledger. -/
theorem memory_is_recorded_released : ∃ c : Config, Service.Reach (broker primitives) anyRun .empty c ∧
    ∃ bytes, c.world.file (.record .assigned (slot 11)) = some bytes := by
  have hrun : ∃ c : Config, Service.Reach (broker primitives) anyRun .empty c ∧
      c.serving.any fun s => (s.2.2.file (.record .assigned (slot 11))).isSome :=
    Service.Reach.exists_of_play anyCheck (starts ++ asks 1000 (claimOf 2).frame 11 ++ asks 1000 (.release (slot 11)) 0)
      anyCheck_le (by decide +kernel)
  obtain ⟨c, hreach, hfound⟩ := hrun
  obtain ⟨⟨⟨peer, request⟩, m, w⟩, hserving, hsome⟩ := (Option.any_eq_true _ _).mp hfound
  obtain ⟨bytes, hfile⟩ := Option.isSome_iff_exists.mp hsome
  exact ⟨c, hreach, bytes, (memory_is_recorded hreach).2 peer request m w hserving _ _ bytes hfile⟩

end Soma.Netd
