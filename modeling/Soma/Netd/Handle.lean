import Soma.Netd.Effects

/-! # Every request keeps to its job

`handle_spec`: from a coherent memory over a sound world, every point of a request satisfies `During` and
its end satisfies `Done`, whatever fails. One lemma per kind of request.
-/

namespace Soma.Netd

open Soma.Codec Soma.Lib Soma.Guest Prog Function Safe

variable {prims : Primitives} {allow : (a : Act) → Choice a → World → Prop}
  {m : State} {w : World} {peer : U32} {p : Scope} {request : Request} {w' : World}

theorem During.of_frame (hjob : Job prims m w peer w' request p) (hframe : Frame p w w')
    (hrecord : ∀ slot, ¬ p.record .assigned slot) (hhanded : ∀ u slot, p.event (.handed u slot) → OwnedBy w slot u)
    (hforwarded : ∀ slot receipt, ¬ p.event (.forwarded slot receipt)) : During prims m w peer request w' where
  job := ⟨p, hjob, hframe⟩
  records slot := .inl (hframe.files _ (hrecord slot))
  handed u slot hmem := (hframe.of_mem_trace hmem).imp_right fun h => (hhanded u slot h).frame hframe
  once slot := (hframe.forwards_eq (hforwarded slot)).trans_le (Nat.le_succ _)

theorem During.idle (hframe : Frame idleScope w w') : During prims m w peer request w' :=
  .of_frame .idle hframe nofun nofun nofun

variable {m' : State} {reply : Reply}

/-- A reply that hands nothing over. -/
abbrev Reply.Plain (reply : Reply) : Prop := ∀ slot launch challenge, reply ≠ .claimed slot launch challenge

/-- From every point of the program on, the request keeps to its job, and it ends done. -/
abbrev Does (prims : Primitives) (allow : (a : Act) → Choice a → World → Prop) (m : State) (w : World) (peer : U32)
    (request : Request) (prog : Op (Reply × State)) (w₁ : World) : Prop :=
  prog.Safe exec allow (During prims m w peer request) (fun r w' => Done prims m w peer request r.1 r.2 w') w₁

theorem Done.of_same (hduring : During prims m w peer request w') (hcoherent : Coherent m' w')
    (hbroker : (m'.broker = m.broker ∧ NoneNew w w') ∨ m.pool = [] ∧ m'.broker = m.broker.reserve.2)
    (hassigned : m'.assigned = m.assigned) (hquiet : ∀ slot, w'.forwards slot = w.forwards slot)
    (hreply : ∀ slot launch challenge, reply = .claimed slot launch challenge →
      ∃ owned, m.assigned slot = some owned ∧ owned.peer = peer
        ∧ owned.assigned.activation = some challenge
        ∧ ∃ operation, request.operation = some operation ∧ AssignedTo w' slot operation) :
    Done prims m w peer request reply m' w' where
  during := hduring
  coherent := hcoherent
  broker := hbroker
  others slot owned h _ := by
    rw [hassigned]
    exact h
  live slot owned h := .kept (hassigned ▸ h)
  quiet slot _ _ _ _ := hquiet slot
  claimed slot launch challenge h := by
    rw [hassigned]
    exact hreply slot launch challenge h

variable {owned : Owned} {slot : Slot}

theorem reown_assigned (h : m.assigned slot = some owned)
    (hslot : owned.assigned.record.slot = slot) : ((m.disown slot).own owned).assigned = m.assigned := by
  funext slot'
  simp only [State.own, State.disown, hslot]
  by_cases hne : slot' = slot
  · rw [hne, update_self, h]
  · rw [update_of_ne hne, update_of_ne hne]

theorem Done.at_once (hcoherent : Coherent m' w) (hbroker : m'.broker = m.broker)
    (hassigned : m'.assigned = m.assigned) (hreply : reply.Plain) :
    Done prims m w peer request reply m' w :=
  .of_same (.idle (.refl _ w)) hcoherent (.inl ⟨hbroker, fun _ _ _ _ h => h⟩) hassigned (fun _ => rfl)
    fun slot launch challenge h => (hreply slot launch challenge h).elim

theorem Done.put_back (hcoherent : Coherent m w) (howned : m.assigned slot = some owned) (hreply : reply.Plain) :
    Done prims m w peer request reply ((m.disown slot).own owned) w := by
  have hlive := hcoherent.live slot owned howned
  have hslot : owned.assigned.record.slot = slot := hlive.record
  refine .at_once ?_ rfl (reown_assigned howned hslot) hreply
  refine Coherent.own (hcoherent.shrink rfl (fun _ _ h => (disown_assigned h).1) fun _ _ h => h) ?_
  rw [hslot]
  exact hlive

theorem Done.of_release {complete : Bool} {operation : InstanceId × OperationId}
    (hduring : During prims m w peer request w') (hcoherent : Coherent m w') (hnew : NoneNew w w')
    (hquiet : ∀ s, s ≠ slot → w'.forwards s = w.forwards s) (howned : m.assigned slot = some owned)
    (hpeer : owned.peer = peer) (hreply : reply.Plain) :
    Done prims m w peer request reply ((m.disown slot).forgetIf complete operation) w' where
  during := hduring
  coherent := hcoherent.shrink forgetIf_pool (fun s o h => (disown_assigned (forgetIf_assigned ▸ h)).1)
    fun _ _ h => forgetIf_operations (m := m.disown slot) h
  broker := .inl ⟨forgetIf_broker, hnew⟩
  others s o ho hne := by
    have hs : s ≠ slot := by
      rintro rfl
      rw [howned] at ho
      cases ho
      exact hne hpeer
    rw [forgetIf_assigned]
    exact (update_of_ne hs ..).trans ho
  live s o h := .kept (disown_assigned (forgetIf_assigned ▸ h)).1
  quiet s o _ h _ := hquiet s (disown_assigned (forgetIf_assigned ▸ h)).2
  claimed slot launch challenge h := (hreply slot launch challenge h).elim

/-! ## Reconcile -/

theorem handleReconcile_spec (hcoherent : Coherent m w) :
    Does prims allow m w peer .reconcile (handleReconcile prims m) w := by
  have hreturns : (reconcile prims).run.Returns fun r => ∀ reply, r = .ok reply → reply.Plain := by
    refine Returns.bind returns_true fun r _ => ?_
    rcases r with error | pins
    · nofun
    refine Returns.bind returns_true fun r _ => ?_
    rcases r with error | links
    · nofun
    refine Returns.bind returns_true fun r _ => ?_
    rcases r with error | tables
    · nofun
    refine Returns.bind returns_true fun r _ => ?_
    rcases r with error | entries
    · nofun
    rintro reply hreply slot launch challenge rfl
    cases hreply
  have hsafe : (reconcile prims).run.Safe exec allow _ _ w :=
    (safe_of_within (p := idleScope) reconcile_within).returns hreturns
  refine (hsafe.weaken (fun w' h => During.idle h)).bind ?_
  rintro r w' hduring ⟨hframe, hreply⟩
  have hdone : ∀ reply : Reply, reply.Plain → Done prims m w peer .reconcile reply m w' := fun reply h =>
    .of_same hduring (hcoherent.frame hframe nofun) (.inl ⟨rfl, hframe.noneNew nofun⟩) rfl
      (fun _ => hframe.forwards_eq nofun) fun slot launch challenge heq => (h slot launch challenge heq).elim
  cases r with
  | ok reply => exact safe_ret hduring (hdone reply (hreply reply rfl))
  | error error => exact safe_ret hduring (hdone _ nofun)

/-! ## Activate -/

variable {receipt : ActivationReceipt} {assigned : Assigned}

theorem activate_returns :
    (activate prims assigned receipt).Returns fun r => r.2.record = assigned.record
      ∧ r.2.bundle = assigned.bundle ∧ r.2.activation = none := by
  unfold activate
  split
  · next h => exact ⟨rfl, rfl, h⟩
  · simp only
    split
    · exact ⟨rfl, rfl, rfl⟩
    · split_ifs
      · refine Returns.bind returns_true fun r _ => ?_
        cases r <;> exact ⟨rfl, rfl, rfl⟩
      · exact ⟨rfl, rfl, rfl⟩

/-- Kernel work that turns no forwarding on. -/
def quietScope (slot : Slot) : Scope :=
  { idleScope with bundle := (· = slot) }

theorem exec_kernel_forwards {op : KernelOp} {e : Option (Error × Bool)} {r : Except Error Bool}
    (h : exec (.kernel slot op) e w = some (r, w')) (s : Slot) : w'.forwards s ≤ w.forwards s + 1 := by
  simp only [exec] at h
  split_ifs at h
  · cases h
    exact Nat.le_succ _
  · cases h
    have hchange : (w.change slot op e).trace = w.trace := by
      rcases e with _ | ⟨_, _ | _⟩ <;> rfl
    cases op with
    | forwardingOn receipt =>
      simp only [World.forwards, World.logOp, World.log, List.countP_cons, hchange]
      split_ifs <;> omega
    | _ => simp [World.forwards, World.logOp, hchange]

theorem raise_once :
    (raise assigned receipt).run.Safe exec allow (fun w' => ∀ s, w'.forwards s ≤ w.forwards s + 1)
      (fun _ _ => True) w := by
  have hquiet : ∀ {α : Type} {prog : Op α} {w₁ : World} (n : ℕ), n ≤ 1 →
      (∀ s, w₁.forwards s ≤ w.forwards s + n) →
      prog.All (Act.Within (quietScope assigned.bundle.slot)) →
      prog.Safe exec allow (fun w' => ∀ s, w'.forwards s ≤ w.forwards s + 1)
        (fun _ w' => ∀ s, w'.forwards s ≤ w.forwards s + n) w₁ := by
    intro α prog w₁ n hn h₁ hall
    have hsame : ∀ w', Frame (quietScope assigned.bundle.slot) w₁ w' → ∀ s,
        w'.forwards s ≤ w.forwards s + n := by
      intro w' h s
      rw [h.forwards_eq (by rintro _ ⟨⟩)]
      exact h₁ s
    exact (safe_of_within hall).mono
      (fun w' h s => (hsame w' h s).trans (Nat.add_le_add_left hn _)) fun _ w' _ h => hsame w' h
  have hzero := fun {α : Type} {prog : Op α} {w₁ : World} => @hquiet α prog w₁ 0 (Nat.zero_le 1)
  refine andThen (hzero (fun _ => le_rfl) verify_within) ?_ fun _ _ _ _ => trivial
  intro _ w₁ _ h₁
  refine andThen (hzero h₁ (kernel_within rfl (by rintro _ ⟨⟩))) ?_ fun _ _ _ _ => trivial
  intro _ w₂ _ h₂
  refine andThen (hzero h₂ (kernel_within rfl (by rintro _ ⟨⟩))) ?_ fun _ _ _ _ => trivial
  intro _ w₃ _ h₃
  refine andThen (hzero h₃ (kernel_within rfl (by rintro _ ⟨⟩))) ?_ fun _ _ _ _ => trivial
  intro _ w₄ _ h₄
  refine andThen (hzero h₄ (kernel_within rfl (by rintro _ ⟨⟩))) ?_ fun _ _ _ _ => trivial
  intro _ w₅ _ h₅
  refine andThen (hzero h₅ (kernel_within rfl (by rintro _ ⟨⟩))) ?_ fun _ _ _ _ => trivial
  intro _ w₆ hC₆ h₆
  -- the one action that turns forwarding on
  refine safe_act hC₆ fun e r w₇ hexec _ => ?_
  have h₇ : ∀ s, w₇.forwards s ≤ w.forwards s + 1 := fun s =>
    (exec_kernel_forwards hexec s).trans (Nat.add_le_add_right (h₆ s) 1)
  cases r with
  | error error => exact safe_ret h₇ trivial
  | ok _ => exact (hquiet 1 le_rfl h₇ (install_within rfl)).mono (fun _ h => h) fun _ _ _ _ => trivial

theorem activate_once :
    (activate prims assigned receipt).Safe exec allow (fun w' => ∀ s, w'.forwards s ≤ w.forwards s + 1)
      (fun _ _ => True) w := by
  have hnow : ∀ s, w.forwards s ≤ w.forwards s + 1 := fun s => Nat.le_succ _
  unfold activate
  split
  · exact safe_ret hnow trivial
  · simp only
    split
    · exact safe_ret hnow trivial
    · split_ifs
      · refine bind raise_once fun result w₁ h₁ _ => ?_
        cases result <;> exact safe_ret h₁ trivial
      · exact safe_ret hnow trivial

theorem release_within {pid : ℕ} (h : p.bundle assigned.bundle.slot)
    (hzone : p.zone assigned.bundle.zone) (hrecord : p.record .released assigned.bundle.slot)
    (hevent : p.event (.settled assigned.bundle.slot)) : (release pid assigned).All (Act.Within p) :=
  releaseSterile_within h hzone hrecord hevent

theorem handleActivate_spec (hcoherent : Coherent m w) :
    Does prims allow m w peer (.activate slot receipt) (handleActivate prims m peer slot receipt) w := by
  have hidle : During prims m w peer (.activate slot receipt) w := .idle (.refl _ w)
  unfold handleActivate
  split
  · exact safe_ret hidle (.at_once hcoherent rfl rfl nofun)
  next owned howned =>
  have hlive := hcoherent.live slot owned howned
  simp only
  split_ifs with hpeer hreplayed
  · exact safe_ret hidle (.put_back hcoherent howned nofun)
  · exact safe_ret hidle (.put_back hcoherent howned nofun)
  rw [not_not] at hpeer
  have hduring : ∀ w', Frame (activateScope prims owned.assigned receipt) w w' ∧
      (∀ s, w'.forwards s ≤ w.forwards s + 1) → During prims m w peer (.activate slot receipt) w' :=
    fun w' h =>
    { job := ⟨_, .activate howned hpeer, h.1⟩
      records := fun s => .inl (h.1.files _ fun hrecord => nomatch hrecord.1)
      handed := fun u s hmem => .inl ((h.1.of_mem_trace hmem).resolve_right nofun)
      once := h.2 }
  have hcoherent' : ∀ w', Frame (activateScope prims owned.assigned receipt) w w' → Coherent m w' := by
    refine fun w' h => hcoherent.frame h fun bundle hbundle kind s hs => ?_
    rw [hs.2, hlive.bundle]
    exact hcoherent.live_ne_pool howned hbundle
  have hother : ∀ w', Frame (activateScope prims owned.assigned receipt) w w' → ∀ s, s ≠ slot →
      w'.forwards s = w.forwards s := by
    refine fun w' h s hs => h.forwards_eq ?_
    rintro r (heq | ⟨heq, -⟩)
    · cases heq
    · cases heq
      exact hs hlive.bundle
  have hwithin : (activate prims owned.assigned receipt).All
      (Act.Within (activateScope prims owned.assigned receipt)) :=
    activate_within rfl fun challenge hchallenge hauth => .inr ⟨rfl, challenge, hchallenge, hauth⟩
  have hactivate : (activate prims owned.assigned receipt).Safe exec allow _ _ w :=
    ((safe_of_within hwithin).conj activate_once).and_here.returns activate_returns
  refine bind (hactivate.weaken hduring) ?_
  rintro ⟨result, assigned⟩ w₁ hC₁ ⟨⟨⟨hframe₁, honce₁⟩, -⟩, hrecord, hbundle, hspent⟩
  simp only at hrecord hbundle hspent
  cases result with
  | ok _ =>
    have hslot : assigned.record.slot = slot := by rw [hrecord, hlive.record]
    have hlive₁ := hlive.frame hframe₁
    refine safe_ret hC₁ ⟨hC₁, ?_, .inl ⟨rfl, hframe₁.noneNew nofun⟩, ?_, ?_, ?_, nofun⟩
    · refine Coherent.own
        ((hcoherent' w₁ hframe₁).shrink rfl (fun s o h => (disown_assigned h).1) fun _ _ h => h) ?_
      exact
        { record := rfl
          bundle := by rw [hbundle, hrecord, hlive.bundle, hlive.record]
          zone := by rw [hbundle, hrecord, hlive.zone]
          owner := by rw [hrecord, hlive.owner]
          file := by rw [hrecord, hlive.record, hlive₁.file] }
    · intro s o ho hne
      simp only [State.own, State.disown, hslot]
      have hs : s ≠ slot := by
        rintro rfl
        rw [howned] at ho
        cases ho
        exact hne hpeer
      rw [update_of_ne hs, update_of_ne hs, ho]
    · intro s o ho
      obtain ⟨rfl, heq⟩ | ⟨-, ho⟩ := update_eq_some.mp ho
      · cases heq
        rw [← hslot] at howned
        exact .spent howned hpeer hrecord hbundle hspent
      · exact .kept (disown_assigned ho).1
    · intro s o challenge ho hchallenge
      obtain ⟨-, heq⟩ | ⟨hs, -⟩ := update_eq_some.mp ho
      · cases heq
        rw [hspent] at hchallenge
        cases hchallenge
      · exact hother w₁ hframe₁ s (hslot ▸ hs)
  | error error =>
    have hrelease : (release m.broker.pid assigned).All
        (Act.Within (releaseScope owned.assigned.bundle.slot owned.assigned.bundle.zone)) := by
      rw [← hbundle]
      exact release_within rfl rfl ⟨rfl, rfl⟩ rfl
    have hframe₂ : ∀ w', Frame (releaseScope owned.assigned.bundle.slot owned.assigned.bundle.zone) w₁ w' →
        Frame (activateScope prims owned.assigned receipt) w w' ∧ ∀ s, w'.forwards s ≤ w.forwards s + 1 := by
      intro w' h
      refine ⟨hframe₁.trans ?_, fun s => ?_⟩
      · exact h.mono (fun _ h => h) (fun _ h => h) (fun _ _ h => h) fun _ h => .inl h
      · rw [h.forwards_eq nofun]
        exact honce₁ s
    refine bind ((safe_of_within hrelease).and_here.weaken
      (fun w' h => hduring w' (hframe₂ w' h))) ?_
    rintro evidence w₂ hC₂ ⟨h₂, -⟩
    have hframe := (hframe₂ w₂ h₂).1
    exact safe_ret hC₂
      (.of_release hC₂ (hcoherent' w₂ hframe) (hframe.noneNew nofun) (hother w₂ hframe) howned hpeer nofun)

/-! ## Release -/

theorem Sound.decoded (hsound : Sound w) {record : AssignmentRecord}
    (h : w.decoded prims (.record .assigned slot) = some (.ok record)) :
    record.slot = slot ∧ w.file (.record .assigned slot) = some record.encode := by
  obtain ⟨bytes, hfile, hdecode⟩ := Option.map_eq_some_iff.mp h
  obtain ⟨r, hslot, rfl⟩ := hsound.records slot bytes hfile
  rw [AssignmentRecord.take_encode, AssignmentRecord.decode_encode] at hdecode
  split_ifs at hdecode
  cases hdecode
  exact ⟨hslot, hfile⟩

theorem handleRelease_spec (hcoherent : Coherent m w) (hsound : Sound w) :
    Does prims allow m w peer (.release slot) (handleRelease prims m peer slot) w := by
  have hidle : During prims m w peer (.release slot) w := .idle (.refl _ w)
  unfold handleRelease
  split
  · next owned howned =>
    have hlive := hcoherent.live slot owned howned
    simp only
    split_ifs with hpeer
    · exact safe_ret hidle (.put_back hcoherent howned nofun)
    rw [not_not] at hpeer
    have hwithin : (release m.broker.pid owned.assigned).All
        (Act.Within (releaseScope owned.assigned.bundle.slot owned.assigned.bundle.zone)) :=
      release_within rfl rfl ⟨rfl, rfl⟩ rfl
    refine bind ((safe_of_within hwithin).weaken
      (fun w' h => During.of_frame (.releaseLive howned hpeer) h (fun _ h => nomatch h.1) nofun nofun)) ?_
    intro evidence w₁ hC₁ hframe₁
    refine safe_ret hC₁ (.of_release hC₁ (hcoherent.frame hframe₁ ?_) (hframe₁.noneNew nofun)
      (fun _ _ => hframe₁.forwards_eq nofun) howned hpeer nofun)
    intro bundle hbundle kind s hs
    rw [hs.2, hlive.bundle]
    exact hcoherent.live_ne_pool howned hbundle
  · change Safe exec allow _ _ ((lookup prims slot).run >>= fun entry => _) w
    refine bind (lookup_spec.and_here.weaken (fun w' h => h ▸ hidle)) ?_
    rintro (error | entry) _ hC ⟨rfl, hentry, -⟩
    · exact safe_ret hC (.at_once hcoherent rfl rfl nofun)
    have hdecoded := hentry entry rfl
    simp only
    split_ifs with howner
    · exact safe_ret hC (.at_once hcoherent rfl rfl nofun)
    rw [not_not] at howner
    obtain ⟨hslot, hfile⟩ := hsound.decoded hdecoded
    have hwithin : (releaseRecord m.broker.pid entry.record).All
        (Act.Within (releaseScope entry.record.slot entry.record.zone)) :=
      releaseRecord_within rfl rfl ⟨rfl, rfl⟩ rfl
    refine bind ((safe_of_within hwithin).weaken
      (fun w' h => During.of_frame (.releaseRecord hdecoded howner) h (fun _ h => nomatch h.1) nofun nofun)) ?_
    intro evidence w₁ hC₁ hframe₁
    refine safe_ret hC₁ (.of_same hC₁ (Coherent.shrink (hcoherent.frame hframe₁ ?_)
      forgetIf_pool (fun _ _ h => forgetIf_assigned ▸ h) fun _ _ h => forgetIf_operations h)
      (.inl ⟨forgetIf_broker, hframe₁.noneNew nofun⟩) forgetIf_assigned
      (fun _ => hframe₁.forwards_eq nofun) nofun)
    rintro bundle hbundle kind s ⟨-, rfl⟩ heq
    rw [← hslot] at hfile
    rw [(hcoherent.pool bundle hbundle).files (.record .assigned entry.record.slot) heq] at hfile
    cases hfile

/-! ## Claim -/

abbrev ClaimRequest.frame (request : ClaimRequest) : Request :=
  .claim request.instance_ request.operation request.vsockCid request.intent

theorem deliverDescriptor_returns :
    (deliverDescriptor peer assigned).run.Returns fun r => ∀ reply, r = .ok reply → ∃ challenge,
      assigned.activation = some challenge
        ∧ reply = .claimed assigned.record.slot assigned.launch.bytes challenge := by
  unfold deliverDescriptor
  split
  · nofun
  · next challenge hchallenge =>
    refine Returns.bind returns_true fun r _ => ?_
    rcases r with error | _
    · nofun
    intro reply hreply
    cases hreply
    exact ⟨challenge, hchallenge, rfl⟩

variable {bundle : SterileBundle} {m₁ : State}

section

variable (h : Takes prims m w bundle m₁)
include h

theorem Takes.coherent (hcoherent : Coherent m w) (hframe : Frame p w w')
    (hp : ∀ kind slot, p.record kind slot → slot.bundle = bundle.id) : Coherent m₁ w' := by
  cases h with
  | @pooled _ pool hpool =>
    have hapart := hcoherent.apart
    rw [hpool, List.pairwise_cons] at hapart
    refine ⟨fun b hb => ?_, hapart.2, fun slot owned ho => (hcoherent.live slot owned ho).frame hframe,
      fun operation slot hslot => (hcoherent.held operation slot hslot).frame hframe⟩
    refine (hcoherent.pool b (hpool ▸ List.mem_cons_of_mem _ hb)).frame hframe fun kind slot hs => ?_
    rw [hp kind slot hs]
    exact hapart.1 b hb
  | prepared hpool hid hreserve =>
    refine Coherent.shrink (hcoherent.frame hframe ?_) rfl (fun _ _ h => h) fun _ _ h => h
    rw [hpool]
    nofun

theorem Takes.broker (hframe : Frame (claimScope m bundle peer) w w') :
    (m₁.broker = m.broker ∧ NoneNew w w') ∨ m.pool = [] ∧ m₁.broker = m.broker.reserve.2 := by
  cases h with
  | pooled hpool =>
    refine .inl ⟨rfl, hframe.noneNew ?_⟩
    rintro epoch slot leases zone (hassign | ⟨hempty, -⟩)
    · rcases hassign with ⟨_, h⟩ | h | h <;> cases h
    · rw [hpool] at hempty
      cases hempty
  | prepared hpool hid hreserve => exact .inr ⟨hpool, by rw [hreserve]⟩

theorem Takes.assigned_eq : m₁.assigned = m.assigned := by
  cases h <;> rfl

end

section assign

variable {request : ClaimRequest}

/-- Every point of an assignment: its frame, and the record is absent or the one it writes. -/
structure Assigning (prims : Primitives) (m : State) (w : World) (peer : U32) (request : ClaimRequest)
    (bundle : SterileBundle) (m₁ : State) (w' : World) : Prop where
  prepared : Prepared bundle w'
  drawn : bundle.id ∈ w'.drawn
  frame : Frame (claimScope m bundle peer) w w'
  record : w'.file (.record .assigned bundle.slot) = none
    ∨ ∃ t, w'.file (.record .assigned bundle.slot)
        = some (m₁.broker.recordOf prims bundle peer request t).encode
  handed : ∀ u slot, .handed u slot ∈ w'.trace → .handed u slot ∈ w.trace ∨ OwnedBy w' slot u

theorem claimScope_not_forwarded (slot : Slot) (receipt : ActivationReceipt) :
    ¬ (claimScope m bundle peer).event (.forwarded slot receipt) := by
  rintro (hassign | ⟨-, hprepare⟩)
  · rcases hassign with ⟨_, h⟩ | h | h <;> cases h
  · obtain ⟨_, h⟩ := hprepare
    cases h

theorem Assigning.safe {α : Type} {prog : Op α} {p : Scope} {w' : World}
    (h : Assigning prims m w peer request bundle m₁ w') (hall : prog.All (Act.Within p))
    (hrecord : ¬ p.record .assigned bundle.slot) (hhanded : ∀ u slot, p.event (.handed u slot) → OwnedBy w' slot u)
    (hp : ∀ {w₁ w₂ : World}, Frame p w₁ w₂ → Frame (assignScope bundle peer) w₁ w₂) :
    prog.Safe exec allow (Assigning prims m w peer request bundle m₁)
      (fun _ w'' => Assigning prims m w peer request bundle m₁ w'' ∧ Frame p w' w'') w' := by
  refine (safe_of_within hall).mono (fun w'' hframe => ?_) fun _ w'' hframe _ => ⟨?_, hframe⟩
  all_goals exact
    { prepared := h.prepared.frame hframe
      drawn := hframe.drawn _ h.drawn
      frame := h.frame.trans (.of_assign (hp hframe))
      record := by
        rw [hframe.files (.record .assigned bundle.slot) hrecord]
        exact h.record
      handed := fun u slot hmem => (hframe.of_mem_trace hmem).elim
        (fun hmem => (h.handed u slot hmem).imp_right fun ho => ho.frame hframe)
        fun hevent => .inr ((hhanded u slot hevent).frame hframe) }

variable {w₁ w₂ : World}

theorem Frame.of_releaseScope (h : Frame (releaseScope bundle.slot bundle.zone) w₁ w₂) :
    Frame (assignScope bundle peer) w₁ w₂ :=
  h.mono (fun _ h => h) (fun _ h => h) (fun _ _ h => h.2) fun _ h => .inr (.inl h)

/-- Recording an assignment and building what goes with it. -/
def recordScope (bundle : SterileBundle) : Scope :=
  ⟨(· = bundle.slot), fun _ => False, fun _ s => s = bundle.slot,
    fun event => ∃ challenge, event = .issued bundle.slot challenge⟩

theorem Frame.of_recordScope (h : Frame (recordScope bundle) w₁ w₂) : Frame (assignScope bundle peer) w₁ w₂ :=
  h.mono (fun _ h => h) nofun (fun _ _ h => h) fun _ h => .inl h

theorem Frame.of_replayScope (h : Frame (replayScope peer bundle.slot) w₁ w₂) :
    Frame (assignScope bundle peer) w₁ w₂ :=
  h.mono nofun nofun nofun fun _ h => .inr (.inr h)

section

variable {w' : World} (h : Assigning prims m w peer request bundle m₁ w')
  (hnone : w.file (.record .assigned bundle.slot) = none)
  (hfree : m.operations (request.instance_, request.operation) = none) (htakes : Takes prims m w bundle m₁)
include h hnone hfree htakes

theorem Assigning.during : During prims m w peer request.frame w' where
  job := ⟨_, .claim hfree htakes h.drawn, h.frame⟩
  records slot := by
    by_cases hslot : slot = bundle.slot
    · subst hslot
      rcases h.record with hfile | ⟨t, hfile⟩
      · exact .inl (hfile.trans hnone.symm)
      · exact .inr ⟨request, bundle, m₁, t, rfl, hfree, htakes, h.prepared, rfl, hfile⟩
    · exact .inl (h.frame.files _ hslot)
  handed := h.handed
  once slot := (h.frame.forwards_eq (claimScope_not_forwarded slot)).trans_le (Nat.le_succ _)

theorem Assigning.refused {reply : Reply} (hcoherent : Coherent m w) (hreply : reply.Plain) :
    Done prims m w peer request.frame reply m₁ w' :=
  .of_same (h.during hnone hfree htakes)
    (htakes.coherent hcoherent h.frame fun _ _ hs => congrArg Slot.bundle hs) (htakes.broker h.frame)
    htakes.assigned_eq (fun slot => h.frame.forwards_eq (claimScope_not_forwarded slot))
    fun slot launch challenge heq => (hreply slot launch challenge heq).elim

theorem Assigning.delivered {challenge : ActivationChallenge} (hcoherent : Coherent m w)
    (hnew : NewlyAssigned prims m₁.broker bundle peer request assigned w')
    (hchallenge : assigned.activation = some challenge) :
    Done prims m w peer request.frame (.claimed assigned.record.slot assigned.launch.bytes challenge)
      (m₁.own ⟨peer, assigned⟩) w' := by
  obtain ⟨t, hrecord⟩ := hnew.record
  have hslot : assigned.record.slot = bundle.slot := by rw [hrecord]; rfl
  have hentry : ∀ slot owned, m.assigned slot = some owned → slot ≠ bundle.slot := by
    rintro _ owned ho rfl
    have hfile := (hcoherent.live _ owned ho).file
    rw [hnone] at hfile
    cases hfile
  refine ⟨h.during hnone hfree htakes, ?_, htakes.broker h.frame, ?_, ?_,
    fun slot _ _ _ _ => h.frame.forwards_eq (claimScope_not_forwarded slot), ?_⟩
  · refine Coherent.own (htakes.coherent hcoherent h.frame fun _ _ hs => congrArg Slot.bundle hs) ?_
    exact
      { record := rfl
        bundle := by rw [hnew.taken, hslot]
        zone := by rw [hnew.taken, hrecord]; rfl
        owner := by rw [hrecord]; rfl
        file := by rw [hslot, hnew.file] }
  · intro slot owned ho _
    simp only [State.own, hslot, htakes.assigned_eq]
    rw [update_of_ne (hentry slot owned ho), ho]
  · intro slot owned ho
    obtain ⟨rfl, heq⟩ | ⟨-, ho⟩ := update_eq_some.mp ho
    · cases heq
      rw [hslot]
      exact .claimed rfl htakes hnew
    · exact .kept (htakes.assigned_eq ▸ ho)
  · intro slot launch other heq
    cases heq
    refine ⟨⟨peer, assigned⟩, update_self .., rfl, hchallenge, _, rfl, assigned.record, rfl, ?_, ?_⟩
    · rw [hrecord]
      rfl
    · rw [hslot, hnew.file]

end

theorem assignTo_spec (hcoherent : Coherent m w) (hsound : Sound w) {w₁ : World}
    (hfree : m.operations (request.instance_, request.operation) = none) (htakes : Takes prims m w bundle m₁)
    (hprepared : Prepared bundle w₁) (hdrawn : bundle.id ∈ w₁.drawn)
    (hframe : Frame (claimScope m bundle peer) w w₁)
    (hhanded : ∀ u slot, .handed u slot ∈ w₁.trace → .handed u slot ∈ w.trace)
    (hnone₁ : w₁.file (.record .assigned bundle.slot) = none) :
    Does prims allow m w peer request.frame (assignTo prims m₁ peer request bundle) w₁ := by
  have hnone : w.file (.record .assigned bundle.slot) = none := htakes.file_none hsound hcoherent rfl
  refine mono (C := Assigning prims m w peer request bundle m₁) ?_
    (fun w' h => h.during hnone hfree htakes) fun _ _ _ h => h
  have hwithin : (tryAssign prims m₁.broker bundle peer request).run.All
      (Act.Within (recordScope bundle)) :=
    tryAssign_within rfl rfl fun challenge => ⟨challenge, rfl⟩
  have hsafe : (tryAssign prims m₁.broker bundle peer request).run.Safe exec allow _ _ w₁ :=
    (safe_of_within hwithin).conj (tryAssign_spec hnone₁)
  have hassigning : ∀ w', Frame (recordScope bundle) w₁ w' ∧
      Recorded prims m₁.broker bundle peer request w₁ w' →
      Assigning prims m w peer request bundle m₁ w' := fun w' h =>
    { prepared := hprepared.frame h.1
      drawn := h.1.drawn _ hdrawn
      frame := hframe.trans (.of_assign (.of_recordScope h.1))
      record := h.2.imp (fun heq => heq.trans hnone₁) fun h => h
      handed := fun u slot hmem =>
        .inl (hhanded u slot ((h.1.of_mem_trace hmem).resolve_right (by rintro ⟨_, h⟩; cases h))) }
  refine bind (hsafe.weaken hassigning) ?_
  rintro (error | assigned) w₂ hC₂ ⟨hframe₂, hnew⟩
  · have hrelease : (releaseSterile m₁.broker.pid bundle []).All
        (Act.Within (releaseScope bundle.slot bundle.zone)) := releaseSterile_within rfl rfl ⟨rfl, rfl⟩ rfl
    refine bind (hC₂.safe hrelease nofun nofun .of_releaseScope) ?_
    rintro evidence w₃ hC₃ -
    exact safe_ret hC₃ (hC₃.refused hnone hfree htakes hcoherent nofun)
  · have hnew := hnew assigned rfl
    obtain ⟨t, hrecord⟩ := hnew.record
    have hslot : assigned.record.slot = bundle.slot := by rw [hrecord]; rfl
    have hdeliver : (deliverDescriptor peer assigned).run.All
        (Act.Within (replayScope peer bundle.slot)) :=
      deliverDescriptor_within fun _ _ => congrArg (Event.handed peer) hslot
    have howned : ∀ u s, (replayScope peer bundle.slot).event (.handed u s) → OwnedBy w₂ s u := by
      intro u s hevent
      cases hevent
      exact ⟨assigned.record, hslot, by rw [hrecord]; rfl, hnew.file⟩
    refine bind
      ((hC₂.safe hdeliver nofun howned .of_replayScope).returns deliverDescriptor_returns) ?_
    rintro (error | reply) w₃ hC₃ ⟨⟨-, hframe₃⟩, hreply⟩
    · have hrelease : (release m₁.broker.pid assigned).All
          (Act.Within (releaseScope bundle.slot bundle.zone)) := by
        rw [← hnew.taken]
        exact release_within rfl rfl ⟨rfl, rfl⟩ rfl
      refine bind (hC₃.safe hrelease nofun nofun .of_releaseScope) ?_
      rintro evidence w₄ hC₄ -
      exact safe_ret hC₄ (hC₄.refused hnone hfree htakes hcoherent nofun)
    · obtain ⟨challenge, hchallenge, rfl⟩ := hreply reply rfl
      refine safe_ret hC₃ (hC₃.delivered hnone hfree htakes hcoherent ?_ hchallenge)
      exact { hnew with
        file := hframe₃.records _ _ _ hnew.file
        challenge := hnew.challenge.imp fun _ h => ⟨h.1, hframe₃.mem_trace h.2⟩ }

end assign

theorem replay_spec (hcoherent : Coherent m w) {request : ClaimRequest}
    (hheld : m.operations (request.instance_, request.operation) = some slot) :
    (replay prims m peer request slot).Safe exec allow (During prims m w peer request.frame)
      (fun reply w' => Done prims m w peer request.frame reply m w') w := by
  have hidle : During prims m w peer request.frame w := .idle (.refl _ w)
  unfold replay
  split
  · exact safe_ret hidle (.at_once hcoherent rfl rfl nofun)
  next owned howned =>
  have hlive := hcoherent.live slot owned howned
  split_ifs with hpeer hmismatch
  · exact safe_ret hidle (.at_once hcoherent rfl rfl nofun)
  · exact safe_ret hidle (.at_once hcoherent rfl rfl nofun)
  rw [not_not] at hpeer
  have hdeliver : (deliverDescriptor peer owned.assigned).run.All
      (Act.Within (replayScope peer owned.assigned.record.slot)) := deliverDescriptor_within fun _ _ => rfl
  have hhanded : ∀ u s, (replayScope peer owned.assigned.record.slot).event (.handed u s) →
      OwnedBy w s u := by
    intro u s hevent
    cases hevent
    rw [hlive.record, ← hpeer]
    exact hlive.ownedBy
  refine bind (((safe_of_within hdeliver).returns deliverDescriptor_returns).weaken
    (fun w' h => During.of_frame (.replay howned hpeer) h nofun hhanded nofun)) ?_
  rintro (error | reply) w₁ hC₁ ⟨hframe, hreply⟩
  · exact safe_ret hC₁ (.of_same hC₁ (hcoherent.frame hframe nofun)
      (.inl ⟨rfl, hframe.noneNew nofun⟩) rfl (fun _ => hframe.forwards_eq nofun) nofun)
  · obtain ⟨challenge, hchallenge, rfl⟩ := hreply reply rfl
    refine safe_ret hC₁ (.of_same hC₁ (hcoherent.frame hframe nofun)
      (.inl ⟨rfl, hframe.noneNew nofun⟩) rfl (fun _ => hframe.forwards_eq nofun) ?_)
    intro s launch other heq
    cases heq
    refine ⟨owned, hlive.record ▸ howned, hpeer, hchallenge, _, rfl, ?_⟩
    rw [hlive.record]
    exact (hcoherent.held _ slot hheld).frame hframe

theorem claim_spec (hdraws : allow ≤ DrawsNew) (request : ClaimRequest) (hcoherent : Coherent m w) (hsound : Sound w) :
    Does prims allow m w peer request.frame (claim prims m peer request) w := by
  unfold claim
  split
  · next slot hheld =>
    exact (replay_spec hcoherent hheld).bind fun reply w' hC hdone => safe_ret hC hdone
  next hfree =>
  have htaking : ∀ w', Taking prims m w w' → During prims m w peer request.frame w' := by
    rintro w' (hframe | ⟨bundle, m₁, hpool, htakes, hdrawn, hframe⟩)
    · exact .idle hframe
    · exact
        { job := ⟨_, .claim hfree htakes hdrawn, .of_prepare hpool hframe⟩
          records := fun slot => .inl (hframe.files _ nofun)
          handed := fun u slot hmem =>
            .inl ((hframe.of_mem_trace hmem).resolve_right (by rintro ⟨_, h⟩; cases h))
          once := fun slot => (hframe.forwards_eq (by rintro _ ⟨_, h⟩; cases h)).trans_le (Nat.le_succ _) }
  change Safe exec allow _ _ (takeBundle prims m >>= fun r => _) w
  refine bind ((takeBundle_spec hdraws hcoherent).and_here.weaken htaking) ?_
  rintro ⟨error | bundle, m₁⟩ w₁ hC₁ ⟨htaking₁, hok, herror⟩
  · obtain ⟨hpool, hassigned, hoperations, hbroker⟩ := herror error rfl
    refine safe_ret hC₁ (.of_same hC₁ ?_ hbroker hassigned (fun slot => ?_) nofun)
    rotate_left
    · rcases htaking₁ with hframe | ⟨_, _, _, _, _, hframe⟩
      · exact hframe.forwards_eq nofun
      · exact hframe.forwards_eq (by rintro _ ⟨_, h⟩; cases h)
    refine Coherent.shrink ?_ hpool (fun _ _ h => hassigned ▸ h) fun _ _ h => hoperations ▸ h
    rcases htaking₁ with hframe | ⟨_, _, _, _, _, hframe⟩ <;> exact hcoherent.frame hframe nofun
  · obtain ⟨htakes, hprepared, hdrawn, hframe⟩ := hok bundle rfl
    simp only at htakes
    have hframe₁ : Frame (claimScope m bundle peer) w w₁ :=
      hframe.elim .of_idle fun h => .of_prepare h.1 h.2
    have hhanded : ∀ u slot, .handed u slot ∈ w₁.trace → .handed u slot ∈ w.trace := by
      intro u slot hmem
      rcases hframe with h | ⟨-, h⟩
      · exact (h.of_mem_trace hmem).resolve_right nofun
      · exact (h.of_mem_trace hmem).resolve_right (by rintro ⟨_, h⟩; cases h)
    refine assignTo_spec hcoherent hsound hfree htakes hprepared hdrawn hframe₁ hhanded ?_
    have hfile : w₁.file (.record .assigned bundle.slot) = w.file (.record .assigned bundle.slot) :=
      hframe.elim (fun h => h.files _ nofun) fun h => h.2.files _ nofun
    rw [hfile]
    exact htakes.file_none hsound hcoherent rfl

end Soma.Netd
