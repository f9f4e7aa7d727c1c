import Soma.Lib.Codec

/-! # Decoders that refuse a repeated key

A keyed decoder carries the keys read so far beside its input and fails on one it has seen. `Keyed` is
`Format` for such decoders: they accept exactly the encodings of admissible values whose keys are new and
pairwise distinct, and they end with those keys added.
-/

namespace Soma.Codec

open List

variable {ε κ α β : Type}

/-- A decoder with the keys read so far. -/
abbrev KeyedDecoder (ε κ α : Type) := StateT (List κ) (Decoder ε) α

/-- Adds a key, or fails when it was read before. -/
def once [DecidableEq κ] (e : ε) (key : κ) : KeyedDecoder ε κ Unit := fun seen =>
  if key ∈ seen then fail e else pure ((), seen ++ [key])

/-- A value that may be absent. -/
def keyedOptional (presence : Decoder ε Bool) (d : KeyedDecoder ε κ α) : KeyedDecoder ε κ (Option α) := do
  if ← StateT.lift presence then
    let x ← d
    return some x
  else
    return none

/-- Each key is new when it is reached. -/
def Fresh (seen : List κ) : List κ → Prop
  | [] => True
  | key :: keys => key ∉ seen ∧ Fresh (seen ++ [key]) keys

variable {keys seen : List κ}

theorem fresh_append {more : List κ} : Fresh seen (keys ++ more) ↔ Fresh seen keys ∧ Fresh (seen ++ keys) more := by
  induction keys generalizing seen with
  | nil => simp [Fresh]
  | cons key keys ih => simp [Fresh, ih, and_assoc]

theorem fresh_iff : Fresh seen keys ↔ keys.Nodup ∧ ∀ key ∈ keys, key ∉ seen := by
  induction keys generalizing seen with
  | nil => simp [Fresh]
  | cons key keys ih =>
    rw [Fresh, ih, nodup_cons]
    constructor
    · intro h
      refine ⟨⟨fun hmem => ?_, h.2.1⟩, fun k hk => ?_⟩
      · exact h.2.2 key hmem (by simp)
      · cases hk with
        | head => exact h.1
        | tail _ hk => exact fun hseen => h.2.2 k hk (by simp [hseen])
    · intro h
      refine ⟨h.2 key (by simp), h.1.2, fun k hk hseen => ?_⟩
      rw [mem_append, mem_singleton] at hseen
      cases hseen with
      | inl hseen => exact h.2 k (mem_cons_of_mem _ hk) hseen
      | inr heq => exact h.1.1 (heq ▸ hk)

theorem fresh_nil : Fresh [] keys ↔ keys.Nodup := by
  simp [fresh_iff]

/-- From any keys, the decoder is a format for the admissible values with new keys, which it adds. -/
def Keyed (d : KeyedDecoder ε κ α) (enc : α → List UInt8) (keys : α → List κ) (ok : α → Prop) : Prop :=
  ∀ seen, Format (d seen) (fun p => enc p.1)
    (fun p => ok p.1 ∧ Fresh seen (keys p.1) ∧ p.2 = seen ++ keys p.1)

/-- A decoder that reads no key. -/
theorem Format.keyed {d : Decoder ε α} {enc : α → List UInt8} {ok : α → Prop} (h : Format d enc ok) :
    Keyed (StateT.lift d : KeyedDecoder ε κ α) enc (fun _ => []) ok := by
  intro seen
  refine (h.bind Prod.fst (fun x _ => Format.pure (x, seen)) ?_).congr ?_ ?_
  · intro x p hp
    rw [hp]
  · intro p
    simp only [Fresh, append_nil, true_and, Prod.ext_iff]
  · intro p _
    simp

namespace Keyed

variable {d : KeyedDecoder ε κ α} {enc enc' : α → List UInt8} {keys keys' : α → List κ}
  {ok ok' : α → Prop}

theorem congr (h : Keyed d enc keys ok) (hok : ∀ x, ok x ↔ ok' x) (henc : ∀ x, ok x → enc x = enc' x)
    (hkeys : ∀ x, ok x → keys x = keys' x) : Keyed d enc' keys' ok' := by
  intro seen
  refine (h seen).congr (fun p => ?_) (fun p hp => henc p.1 hp.1)
  rw [← hok]
  constructor
  · intro hp
    rw [← hkeys p.1 hp.1]
    exact hp
  · intro hp
    rw [hkeys p.1 hp.1]
    exact hp

protected theorem pure (x : α) : Keyed (pure x : KeyedDecoder ε κ α) (fun _ => []) (fun _ => []) (· = x) := by
  intro seen
  refine (Format.pure (x, seen)).congr (fun p => ?_) (fun _ _ => rfl)
  simp only [Prod.ext_iff, Fresh, append_nil, true_and]

protected theorem once [DecidableEq κ] (e : ε) (key : κ) :
    Keyed (once e key) (fun _ => []) (fun _ => [key]) (fun _ => True) := by
  intro seen
  refine ((Format.pure ((), seen ++ [key])).require (c := key ∈ seen) (e := e)).congr (fun p => ?_) (fun _ _ => rfl)
  simp only [Fresh, Prod.ext_iff, true_and, and_true]

variable {f : α → KeyedDecoder ε κ β}

/-- A field, then the rest of the record; `proj` is the field's projection. -/
protected theorem bind {enc₂ : α → β → List UInt8}
    {keys₂ : α → β → List κ} {ok₂ : α → β → Prop} (proj : β → α) (hd : Keyed d enc keys ok)
    (hf : ∀ x, ok x → Keyed (f x) (enc₂ x) (keys₂ x) (ok₂ x)) (hproj : ∀ x y, ok₂ x y → proj y = x) :
    Keyed (d >>= f) (fun y => enc (proj y) ++ enc₂ (proj y) y)
      (fun y => keys (proj y) ++ keys₂ (proj y) y) (fun y => ok (proj y) ∧ ok₂ (proj y) y) := by
  intro seen
  -- the keys after the field are those its value adds
  have hnext : ∀ p : α × List κ, (ok p.1 ∧ Fresh seen (keys p.1) ∧ p.2 = seen ++ keys p.1) →
      Format (f p.1 p.2) (fun q => enc₂ p.1 q.1)
        (fun q => p.2 = seen ++ keys p.1 ∧ ok₂ p.1 q.1 ∧ Fresh p.2 (keys₂ p.1 q.1)
          ∧ q.2 = p.2 ++ keys₂ p.1 q.1) := by
    intro p hp
    exact (hf p.1 hp.1 p.2).congr (fun q => (and_iff_right hp.2.2).symm) (fun _ _ => rfl)
  refine ((hd seen).bind (fun q => (proj q.1, seen ++ keys (proj q.1))) hnext ?_).congr ?_ ?_
  · intro p q hq
    rw [hproj p.1 q.1 hq.2.1, ← hq.1]
  · intro q
    simp only [fresh_append, append_assoc]
    tauto
  · intro q _
    rfl

/-- One field of a record; `read` says what the fields before it were. -/
theorem field {enc₂ : β → List UInt8} {keys₂ : β → List κ} {read ok₂ : β → Prop}
    (proj : β → α) (hd : Keyed d enc keys ok)
    (hf : ∀ x, Keyed (f x) enc₂ keys₂ fun y => (read y ∧ proj y = x) ∧ ok₂ y) :
    Keyed (d >>= f) (fun y => enc (proj y) ++ enc₂ y) (fun y => keys (proj y) ++ keys₂ y)
      fun y => read y ∧ ok (proj y) ∧ ok₂ y :=
  (hd.bind proj (fun x _ => hf x) (fun _ _ h => h.1.2)).congr (fun y => by simp [and_left_comm])
    (fun _ _ => rfl) (fun _ _ => rfl)

/-- The end of a record: the fields that were read are those of one value. -/
theorem done {x : α} {read : α → Prop} (h : ∀ y, read y ↔ y = x) :
    Keyed (pure x : KeyedDecoder ε κ α) (fun _ => []) (fun _ => []) fun y => read y ∧ True :=
  (Keyed.pure x).congr (fun y => by simp [h]) (fun _ _ => rfl) (fun _ _ => rfl)

/-- A record from its first field on. -/
theorem record (h : Keyed d enc keys fun x => True ∧ ok x) (hok : ∀ x, ok x ↔ ok' x)
    (henc : ∀ x, enc x = enc' x) (hkeys : ∀ x, keys x = keys' x) : Keyed d enc' keys' ok' :=
  h.congr (fun x => by rw [true_and, hok]) (fun x _ => henc x) (fun x _ => hkeys x)

/-- A check before the rest. -/
protected theorem require {c : Prop} [Decidable c] {e : ε} (h : Keyed d enc keys ok) :
    Keyed (if c then StateT.lift (fail e) else d) enc keys (fun x => ¬ c ∧ ok x) := by
  intro seen
  by_cases hc : c
  · rw [if_pos hc]
    have hfail : Format (fail e : Decoder ε (α × List κ)) (fun p => enc p.1) (fun _ => False) := Format.fail e
    exact hfail.congr (fun p => by simp [hc]) (fun _ _ => rfl)
  · rw [if_neg hc]
    exact (h seen).congr (fun p => by simp [hc]) (fun _ _ => rfl)

/-- A value that may be absent. -/
protected theorem optional {presence : Decoder ε Bool} {encFlag : Bool → List UInt8}
    (hflag : Exact presence encFlag) (h : Keyed d enc keys ok) :
    Keyed (keyedOptional presence d) (fun o => encFlag o.isSome ++ o.elim [] enc)
      (fun o => o.elim [] keys) (fun o => ∀ x ∈ o, ok x) := by
  refine record (hflag.keyed.field Option.isSome fun present => ?_) (by simp; exact fun _ => Iff.rfl)
    (fun _ => rfl) (fun _ => rfl)
  intro seen
  cases present with
  | false =>
    refine (Format.pure (none, seen)).congr ?_ ?_
    · rintro ⟨_ | _, after⟩ <;> simp [Fresh]
    · rintro _ rfl
      rfl
  | true =>
    apply (h seen).map fun p => (some p.1, p.2)
    · exact fun _ => rfl
    · rintro ⟨_ | _, after⟩ <;> simp

/-- A value, then the list of those after it. -/
theorem cons {f : α → KeyedDecoder ε κ (List α)} {oks : α → List α → Prop} (h : Keyed d enc keys ok)
    (hf : ∀ x, ok x → Keyed (f x) (fun xs => xs.flatMap enc) (fun xs => xs.flatMap keys) (oks x)) :
    Keyed (d >>= fun x => f x >>= fun xs => pure (x :: xs)) (fun ys => ys.flatMap enc)
      (fun ys => ys.flatMap keys) (fun ys => ∃ x xs, ys = x :: xs ∧ ok x ∧ oks x xs) := by
  intro seen
  apply (h seen).seq (fun p q => (p.1 :: q.1, q.2)) (fun p hp => hf p.1 hp.1 p.2)
  · exact fun _ _ => flatMap_cons
  · rintro ⟨ys, after⟩
    dsimp only
    constructor
    · rintro ⟨⟨x, xs, rfl, hx, hxs⟩, hfresh, rfl⟩
      rw [flatMap_cons, fresh_append] at hfresh
      exact ⟨(x, seen ++ keys x), (xs, _), rfl, ⟨hx, hfresh.1, rfl⟩, hxs, hfresh.2, by simp⟩
    · rintro ⟨p, q, ⟨⟩, ⟨hx, hfresh, hp⟩, hxs, hfreshes, hq⟩
      rw [hp] at hfreshes hq
      rw [flatMap_cons, fresh_append]
      exact ⟨⟨p.1, q.1, rfl, hx, hxs⟩, ⟨hfresh, hfreshes⟩, by simp [hq]⟩

end Keyed

end Soma.Codec
