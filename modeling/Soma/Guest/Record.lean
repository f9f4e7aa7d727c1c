import Soma.Guest.Frame

/-! # The encrypted record layer

Each party of a session seals payloads for the other and opens what arrives. The cipher is a parameter; in an
authentic run a reader accepts at a counter only what the peer wrote at that counter. Everything else is up to
the network, which may hand either party any bytes at any time.

The invariant of a whole run is that what a party was handed is a prefix of what its peer sealed.
-/

namespace Soma.Guest

open Soma.Codec Function List

def OUTER_HEADER : ℕ := 2
def MIN_RECORD_CIPHERTEXT : ℕ := AEAD_TAG + INNER_HEADER

inductive Error where
  | sessionPoisoned
  | recordTooLarge
  | sessionExhausted
  | peerRecordRejected
deriving DecidableEq

/-- The transport of a direction, from outside the source: the ciphertext of a plaintext at a counter, unless it
refuses to write, and what it accepts at a counter. -/
structure Cipher where
  encrypt : ℕ → List UInt8 → Option (List UInt8)
  decrypt : ℕ → List UInt8 → Option (List UInt8)
  length_encrypt : ∀ {n text ciphertext}, encrypt n text = some ciphertext → ciphertext.length = text.length + AEAD_TAG

/-- The counters of the transport and of the records. -/
structure AuthenticatedSession where
  sendNonce : ℕ
  receiveNonce : ℕ
  nextSend : ℕ
  nextReceive : ℕ
  poisoned : Bool
deriving DecidableEq

def AuthenticatedSession.new : AuthenticatedSession := ⟨0, 0, 0, 0, false⟩

namespace Record

def plaintext (sequence : ℕ) (payload : List UInt8) : List UInt8 :=
  toBytes 8 sequence ++ toBytes 2 payload.length ++ payload

/-- The framed record with the plaintext that was written. The transport has advanced even where the record is
then refused. -/
def sealPayload (cipher : Cipher) (session : AuthenticatedSession) (payload : List UInt8) :
    Except Error (List UInt8 × List UInt8) × AuthenticatedSession :=
  if session.poisoned then (.error .sessionPoisoned, session)
  else if MAX_RECORD_PAYLOAD < payload.length then (.error .recordTooLarge, session)
  else if 2 ^ 64 ≤ session.nextSend + 1 then (.error .sessionExhausted, session)
  else
    let text := plaintext session.nextSend payload
    match cipher.encrypt session.sendNonce text with
    | none => (.error .sessionExhausted, session)
    | some ciphertext =>
      let session := { session with sendNonce := session.sendNonce + 1 }
      if 2 ^ 16 ≤ ciphertext.length then (.error .recordTooLarge, session)
      else (.ok (toBytes 2 ciphertext.length ++ ciphertext, text), { session with nextSend := session.nextSend + 1 })

def exactCiphertext (framed : List UInt8) : Option (List UInt8) :=
  if framed.length < OUTER_HEADER then none
  else
    let length := ofBytes (framed.take OUTER_HEADER)
    if length < MIN_RECORD_CIPHERTEXT ∨ framed.length ≠ OUTER_HEADER + length then none
    else some (framed.drop OUTER_HEADER)

def exactPlaintext (expectedSequence : ℕ) (plaintext : List UInt8) : Option (List UInt8) :=
  if plaintext.length < INNER_HEADER then none
  else
    let sequence := ofBytes (plaintext.take 8)
    let payloadLength := ofBytes ((plaintext.drop 8).take 2)
    if sequence ≠ expectedSequence ∨ plaintext.length ≠ INNER_HEADER + payloadLength then none
    else some (plaintext.drop INNER_HEADER)

/-- The transport has advanced even where the payload is then refused. -/
def openOnce (cipher : Cipher) (session : AuthenticatedSession) (framed : List UInt8) :
    Option (List UInt8) × AuthenticatedSession :=
  match exactCiphertext framed >>= cipher.decrypt session.receiveNonce with
  | none => (none, session)
  | some text =>
    let session := { session with receiveNonce := session.receiveNonce + 1 }
    match exactPlaintext session.nextReceive text with
    | none => (none, session)
    | some payload =>
      if 2 ^ 64 ≤ session.nextReceive + 1 then (none, session)
      else (some payload, { session with nextReceive := session.nextReceive + 1 })

/-- Opens a frame; a rejection poisons the session. -/
def openFrame (cipher : Cipher) (session : AuthenticatedSession) (framed : List UInt8) :
    Except Error (List UInt8) × AuthenticatedSession :=
  if session.poisoned then (.error .sessionPoisoned, session)
  else
    match openOnce cipher session framed with
    | (some payload, session) => (.ok payload, session)
    | (none, session) => (.error .peerRecordRejected, { session with poisoned := true })

/-! ## Two parties and a network -/

/-- An end of the session. -/
inductive Party where
  | initiator
  | responder
deriving DecidableEq

def Party.peer : Party → Party
  | initiator => responder
  | responder => initiator

/-- One party: its session, the plaintexts it wrote, the payloads it sealed and those it was handed. -/
structure Endpoint where
  session : AuthenticatedSession
  written : List (List UInt8)
  sealed : List (List UInt8)
  delivered : List (List UInt8)
deriving DecidableEq

abbrev Link := Party → Endpoint

def Link.start : Link := fun _ => ⟨.new, [], [], []⟩

/-- A party seals a payload, or the network hands it some bytes. -/
inductive Event where
  | sends (party : Party) (payload : List UInt8)
  | receives (party : Party) (framed : List UInt8)
deriving DecidableEq

variable (cipher : Party → Cipher)

def Link.sends (link : Link) (party : Party) (payload : List UInt8) : Link :=
  match sealPayload (cipher party) (link party).session payload with
  | (.error _, session) => update link party { link party with session }
  | (.ok (_, text), session) => update link party { link party with
      session
      written := (link party).written ++ [text]
      sealed := (link party).sealed ++ [payload] }

def Link.receives (link : Link) (party : Party) (framed : List UInt8) : Link :=
  match openFrame (cipher party.peer) (link party).session framed with
  | (.error _, session) => update link party { link party with session }
  | (.ok payload, session) => update link party { link party with
      session
      delivered := (link party).delivered ++ [payload] }

def Link.step (link : Link) : Event → Link
  | .sends party payload => link.sends cipher party payload
  | .receives party framed => link.receives cipher party framed

variable (events : List Event)

def Link.run : Link := events.foldl (Link.step cipher) Link.start

/-- The cipher is ideal at a step: what is accepted at a counter is what the peer wrote at that counter. -/
def Link.Ideal (link : Link) : Event → Prop
  | .sends _ _ => True
  | .receives party framed => (link party).session.poisoned = false →
      ∀ text, exactCiphertext framed >>= (cipher party.peer).decrypt (link party).session.receiveNonce = some text →
        (link party.peer).written[(link party).session.receiveNonce]? = some text

/-- The cipher is ideal at every step of a run. -/
def Link.Authentic (link : Link) : List Event → Prop
  | [] => True
  | event :: events => link.Ideal cipher event ∧ (link.step cipher event).Authentic events

/-! ## What one call does -/

variable {cipher}

theorem drop_plaintext (sequence : ℕ) (payload : List UInt8) :
    (plaintext sequence payload).drop INNER_HEADER = payload := by
  refine drop_left' ?_
  rw [length_append, toBytes_length, toBytes_length]
  rfl

variable {c : Cipher} {session session' : AuthenticatedSession} {framed payload : List UInt8}

theorem sealPayload_eq_ok {text : List UInt8} (h : sealPayload c session payload = (.ok (framed, text), session')) :
    text = plaintext session.nextSend payload
      ∧ session' = { session with sendNonce := session.sendNonce + 1, nextSend := session.nextSend + 1 } := by
  unfold sealPayload at h
  dsimp only at h
  split_ifs at h
  · cases h
  · cases h
  · cases h
  split at h
  · cases h
  · split_ifs at h
    · cases h
    · cases h
      exact ⟨rfl, rfl⟩

/-- A payload that fits has a ciphertext that fits, so the transport has not advanced where sealing fails. -/
theorem sealPayload_eq_error {error : Error} (h : sealPayload c session payload = (.error error, session')) :
    session' = session := by
  unfold sealPayload at h
  dsimp only at h
  split_ifs at h with hpoisoned hlarge
  · cases h
    rfl
  · cases h
    rfl
  · cases h
    rfl
  split at h
  · cases h
    rfl
  · next ciphertext hencrypt =>
    have hlength := c.length_encrypt hencrypt
    have hfits : ciphertext.length < 2 ^ 16 := by
      simp only [plaintext, length_append, toBytes_length, AEAD_TAG] at hlength
      simp only [MAX_RECORD_PAYLOAD, NOISE_MESSAGE_MAX, AEAD_TAG, INNER_HEADER] at hlarge
      omega
    rw [if_neg hfits.not_ge] at h
    cases h

/-- Opening touches neither the flag nor the counters of sending, and only hands on what the cipher accepts. -/
theorem openOnce_spec (c : Cipher) (session : AuthenticatedSession) (framed : List UInt8) :
    ∃ receive next, (openOnce c session framed).2 = { session with receiveNonce := receive, nextReceive := next }
      ∧ ∀ payload, (openOnce c session framed).1 = some payload → receive = session.receiveNonce + 1
        ∧ ∃ text, exactCiphertext framed >>= c.decrypt session.receiveNonce = some text
          ∧ payload = text.drop INNER_HEADER := by
  unfold openOnce
  split
  · exact ⟨_, _, rfl, nofun⟩
  · next text hread =>
    dsimp only
    split
    · exact ⟨_, _, rfl, nofun⟩
    · next payload hpayload =>
      have hdrop : payload = text.drop INNER_HEADER := by
        unfold exactPlaintext at hpayload
        dsimp only at hpayload
        split_ifs at hpayload
        exact (Option.some.inj hpayload).symm
      split_ifs
      · exact ⟨_, _, rfl, nofun⟩
      · refine ⟨_, _, rfl, ?_⟩
        rintro _ ⟨⟩
        exact ⟨rfl, text, hread, hdrop⟩

theorem openFrame_eq_ok (h : openFrame c session framed = (.ok payload, session')) :
    session.poisoned = false
      ∧ (∃ text, exactCiphertext framed >>= c.decrypt session.receiveNonce = some text
        ∧ payload = text.drop INNER_HEADER)
      ∧ ∃ next, session' = { session with receiveNonce := session.receiveNonce + 1, nextReceive := next } := by
  obtain ⟨receive, next, hsession, hpayload⟩ := openOnce_spec c session framed
  unfold openFrame at h
  split_ifs at h with hpoisoned
  · cases h
  · split at h
    · next hopen =>
      rw [hopen] at hsession hpayload
      cases h
      obtain ⟨rfl, htext⟩ := hpayload _ rfl
      exact ⟨Bool.eq_false_iff.mpr hpoisoned, htext, next, hsession⟩
    · cases h

theorem openFrame_eq_error {error : Error} (h : openFrame c session framed = (.error error, session')) :
    session'.poisoned = true ∧ session'.sendNonce = session.sendNonce ∧ session'.nextSend = session.nextSend := by
  obtain ⟨receive, next, hsession, -⟩ := openOnce_spec c session framed
  unfold openFrame at h
  split_ifs at h with hpoisoned
  · cases h
    exact ⟨hpoisoned, rfl, rfl⟩
  · split at h
    · cases h
    · next hopen =>
      rw [hopen] at hsession
      cases h
      subst hsession
      exact ⟨rfl, rfl, rfl⟩

/-! ## The run -/

/-- The counters of a party are the numbers of records it sealed and was handed. -/
structure Endpoint.Counted (endpoint : Endpoint) : Prop where
  written : endpoint.written = endpoint.sealed.mapIdx plaintext
  sendNonce : endpoint.session.sendNonce = endpoint.sealed.length
  nextSend : endpoint.session.nextSend = endpoint.sealed.length
  receiveNonce : endpoint.session.poisoned = false → endpoint.session.receiveNonce = endpoint.delivered.length

/-- What every run of a link keeps. -/
structure Aligned (link : Link) : Prop where
  counted : ∀ p, (link p).Counted
  delivered : ∀ p, (link p).delivered <+: (link p.peer).sealed

theorem Party.peer_peer (p : Party) : p.peer.peer = p := by
  cases p <;> rfl

theorem Party.peer_ne (p : Party) : p.peer ≠ p := by
  cases p <;> decide

variable {link : Link} {p : Party}

theorem Aligned.update (h : Aligned link) {endpoint : Endpoint} (hcounted : endpoint.Counted)
    (hdelivered : endpoint.delivered <+: (link p.peer).sealed) (hsealed : (link p).sealed <+: endpoint.sealed) :
    Aligned (update link p endpoint) := by
  have hcases : ∀ q : Party, q = p ∨ q = p.peer := by
    intro q
    cases q <;> cases p <;> simp [Party.peer]
  constructor <;> intro q <;> rcases hcases q with rfl | rfl
  · rwa [update_self]
  · rw [update_of_ne (Party.peer_ne p)]
    exact h.counted _
  · rwa [update_self, update_of_ne (Party.peer_ne q)]
  · rw [update_of_ne (Party.peer_ne p), Party.peer_peer, update_self]
    have hprefix := h.delivered p.peer
    rw [Party.peer_peer] at hprefix
    exact hprefix.trans hsealed

theorem Aligned.sends (h : Aligned link) (p : Party) (payload : List UInt8) :
    Aligned (link.sends cipher p payload) := by
  have hp := h.counted p
  unfold Link.sends
  split
  · next error session hseal =>
    obtain rfl := sealPayload_eq_error hseal
    exact h.update ⟨hp.written, hp.sendNonce, hp.nextSend, hp.receiveNonce⟩ (h.delivered p) (prefix_refl _)
  · next framed text session hseal =>
    obtain ⟨rfl, rfl⟩ := sealPayload_eq_ok hseal
    refine h.update ⟨?_, ?_, ?_, hp.receiveNonce⟩ (h.delivered p) (prefix_append _ _)
    · rw [mapIdx_concat, hp.written, hp.nextSend]
    · rw [length_append, length_singleton, ← hp.sendNonce]
    · rw [length_append, length_singleton, ← hp.nextSend]

theorem Aligned.receives (h : Aligned link) {framed : List UInt8} (hideal : link.Ideal cipher (.receives p framed)) :
    Aligned (link.receives cipher p framed) := by
  have hp := h.counted p
  unfold Link.receives
  split
  · next error session hopen =>
    obtain ⟨hpoisoned, hsend, hnext⟩ := openFrame_eq_error hopen
    refine h.update ⟨hp.written, hsend.trans hp.sendNonce, hnext.trans hp.nextSend, ?_⟩ (h.delivered p)
      (prefix_refl _)
    intro hclean
    cases hpoisoned.symm.trans hclean
  · next payload session hopen =>
    obtain ⟨hclean, ⟨text, haccepted, rfl⟩, next, rfl⟩ := openFrame_eq_ok hopen
    have htext := hideal hclean text haccepted
    have hnonce := hp.receiveNonce hclean
    refine h.update ⟨hp.written, hp.sendNonce, hp.nextSend, ?_⟩ ?_ (prefix_refl _)
    · intro _
      rw [length_append, length_singleton, ← hnonce]
    · -- the plaintext at the counter is the one of the next payload
      rw [hnonce, (h.counted p.peer).written, getElem?_mapIdx] at htext
      obtain ⟨payload, hpayload, rfl⟩ := Option.map_eq_some_iff.mp htext
      rw [drop_plaintext]
      obtain ⟨rest, hrest⟩ := h.delivered p
      rw [← hrest, getElem?_append_right (Nat.le_refl _), Nat.sub_self] at hpayload
      cases rest with
      | nil => cases hpayload
      | cons head tail =>
        obtain rfl := Option.some.inj hpayload
        exact ⟨tail, by rw [← hrest, append_assoc]; rfl⟩

theorem Aligned.run (hauthentic : Link.start.Authentic cipher events) : Aligned (Link.run cipher events) := by
  have hrun : ∀ link : Link, Aligned link → link.Authentic cipher events →
      Aligned (events.foldl (Link.step cipher) link) := by
    clear hauthentic
    induction events with
    | nil => exact fun _ h _ => h
    | cons event events ih =>
      intro link h hauthentic
      refine ih _ ?_ hauthentic.2
      cases event with
      | sends p payload => exact h.sends p payload
      | receives p framed => exact h.receives hauthentic.1
  exact hrun _ ⟨fun _ => ⟨rfl, rfl, rfl, fun _ => rfl⟩, fun _ => nil_prefix⟩ hauthentic

theorem poisoned_step (h : (link p).session.poisoned = true) (event : Event) :
    (link.step cipher event p).session.poisoned = true
      ∧ (link.step cipher event p).delivered = (link p).delivered := by
  have hother : ∀ {q endpoint}, q ≠ p → update link q endpoint p = link p :=
    fun hq => update_of_ne (Ne.symm hq) _ _
  cases event with
  | sends q payload =>
    by_cases hq : q = p
    · subst hq
      simp [Link.step, Link.sends, sealPayload, h, update_self]
    · rcases hseal : sealPayload (cipher q) (link q).session payload with ⟨_ | _, _⟩ <;>
        simp [Link.step, Link.sends, hseal, hother hq, h]
  | receives q framed =>
    by_cases hq : q = p
    · subst hq
      simp [Link.step, Link.receives, openFrame, h, update_self]
    · rcases hopen : openFrame (cipher q.peer) (link q).session framed with ⟨_ | _, _⟩ <;>
        simp [Link.step, Link.receives, hopen, hother hq, h]

theorem poisoned_run (h : (link p).session.poisoned = true) (events : List Event) :
    (events.foldl (Link.step cipher) link p).delivered = (link p).delivered := by
  induction events generalizing link with
  | nil => rfl
  | cons event events ih =>
    obtain ⟨hpoisoned, hdelivered⟩ := poisoned_step h event
    rw [foldl_cons, ih hpoisoned, hdelivered]

/-- In an authentic run, what a party was handed is a prefix of what its peer sealed; and after the first rejected
frame it is handed nothing more. -/
theorem delivered_authentic_prefix (hauthentic : Link.start.Authentic cipher events) (p : Party) :
    (Link.run cipher events p).delivered <+: (Link.run cipher events p.peer).sealed
      ∧ ∀ framed error session,
          openFrame (cipher p.peer) (Link.run cipher events p).session framed = (.error error, session) →
        ∀ later, (Link.run cipher (events ++ .receives p framed :: later) p).delivered
          = (Link.run cipher events p).delivered := by
  refine ⟨(Aligned.run events hauthentic).delivered p, ?_⟩
  intro framed error session hrejected later
  have hstep : Link.step cipher (Link.run cipher events) (.receives p framed)
      = update (Link.run cipher events) p { Link.run cipher events p with session } := by
    simp only [Link.step, Link.receives, hrejected]
  rw [Link.run, foldl_append, foldl_cons]
  show (later.foldl (Link.step cipher) (Link.step cipher (Link.run cipher events) (.receives p framed)) p).delivered = _
  rw [hstep, poisoned_run]
  · rw [update_self]
  · rw [update_self]
    exact (openFrame_eq_error hrejected).1

theorem length_tagging {text ciphertext : List UInt8} {tag : UInt8}
    (h : some (text ++ replicate AEAD_TAG tag) = some ciphertext) : ciphertext.length = text.length + AEAD_TAG := by
  cases h
  rw [length_append, length_replicate]

/-- A tag of the counter behind the plaintext. -/
def tagging : Cipher where
  encrypt n text := some (text ++ replicate AEAD_TAG (UInt8.ofNat n))
  decrypt n ciphertext :=
    let text := ciphertext.take (ciphertext.length - AEAD_TAG)
    if ciphertext = text ++ replicate AEAD_TAG (UInt8.ofNat n) then some text else none
  length_encrypt := length_tagging

/-- The record of a payload under that cipher. -/
def tagged (sequence : ℕ) (payload : List UInt8) : List UInt8 :=
  toBytes 2 (INNER_HEADER + payload.length + AEAD_TAG)
    ++ (plaintext sequence payload ++ replicate AEAD_TAG (UInt8.ofNat sequence))

/-- The initiator sends two records; the responder is handed the first, the first again, and the second. -/
theorem replayed_record_ends_session :
    let sent := [.sends .initiator [1], .sends .initiator [2, 3], .receives .responder (tagged 0 [1])]
    (Link.run (fun _ => tagging) sent .responder).delivered = [[1]]
      ∧ (Link.run (fun _ => tagging) sent .responder).delivered <+:
        (Link.run (fun _ => tagging) sent .initiator).sealed
      ∧ (Link.run (fun _ => tagging) (sent ++ .receives .responder (tagged 0 [1]) ::
        [.receives .responder (tagged 1 [2, 3])]) .responder).delivered = [[1]] := by
  intro sent
  have hauthentic : Link.start.Authentic (fun _ => tagging) sent := by
    refine ⟨trivial, trivial, fun _ text htext => ?_, trivial⟩
    have haccepted : exactCiphertext (tagged 0 [1]) >>= tagging.decrypt 0 = some (plaintext 0 [1]) := by decide
    cases haccepted.symm.trans htext
    rfl
  have hdelivered : (Link.run (fun _ => tagging) sent .responder).delivered = [[1]] := by decide
  obtain ⟨hsealed, hrejected⟩ := delivered_authentic_prefix sent hauthentic .responder
  refine ⟨hdelivered, hsealed, ?_⟩
  rw [hrejected (tagged 0 [1]) .peerRecordRejected _ rfl, hdelivered]

end Record

end Soma.Guest
