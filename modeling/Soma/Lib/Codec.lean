import Soma.Lib.Checked
import Soma.Lib.Serial

/-! # Byte formats

A decoder consumes bytes from the front of its input and fails with an error of its own. A format
ties a decoder to an encoder:

* **`Format d enc ok`**: the decoder `d` accepts exactly the encodings `enc x` of the values with
  `ok x`, each followed by anything, and leaves what follows. Both directions are kept together: that
  an encoded value reads back, and that what was read has no other encoding.
* The rules follow the text of a decoder: `pure`, `bind` (one value and the rest), `require` (a check),
  `refine` (a validated type), `many` (a counted list). A record is read field by field (`record`,
  `field`, `done`) and its projections say which field each step read.
-/

namespace Soma.Codec

open List

/-- A decoder over a list of bytes. -/
abbrev Decoder (ε α : Type) := StateT (List UInt8) (Except ε) α

/-- Byte strings of a fixed length. -/
abbrev Bytes (n : ℕ) := { bs : List UInt8 // bs.length = n }

/-- One byte, `n` times. -/
abbrev Bytes.fill (n : ℕ) (b : UInt8) : Bytes n := ⟨replicate n b, length_replicate⟩

section decoders

variable {ε α : Type}

def fail (e : ε) : Decoder ε α := fun _ => .error e

variable (short : ℕ → ℕ → ε)

/-- Takes exactly `n` bytes; `short` is told how many were needed and how many were left. -/
def array (n : ℕ) : Decoder ε (Bytes n) := fun bs =>
  if h : n ≤ bs.length then .ok (⟨bs.take n, by simp [h]⟩, bs.drop n)
  else .error (short n bs.length)

/-- Takes exactly `n` bytes, as a list. -/
def take (n : ℕ) : Decoder ε (List UInt8) := do
  let bs ← array short n
  return bs.1

/-- The value of a big-endian byte string. -/
def ofBytes (bs : List UInt8) : ℕ :=
  bs.foldl (fun v b => v * 256 + b.toNat) 0

/-- The last `n` big-endian bytes of a value. -/
def toBytes : ℕ → ℕ → List UInt8
  | 0, _ => []
  | n + 1, v => toBytes n (v / 256) ++ [UInt8.ofNat v]

/-- A big-endian word of `w` bits. -/
def word (w : ℕ) : Decoder ε (BitVec w) := do
  let bs ← array short (w / 8)
  return BitVec.ofNat w (ofBytes bs.1)

/-- The big-endian bytes of a word. -/
def putWord {w : ℕ} (x : BitVec w) : List UInt8 :=
  toBytes (w / 8) x.toNat

def byte : Decoder ε UInt8 := fun bs =>
  match bs with
  | [] => .error (short 1 0)
  | b :: rest => .ok (b, rest)

/-- Reads `n` values one after another. -/
def many (d : Decoder ε α) : ℕ → Decoder ε (List α)
  | 0 => pure []
  | n + 1 => do
    let x ← d
    let xs ← many d n
    return x :: xs

/-- Reads `n` values, each checked against those before it. -/
def manyChecked (d : Decoder ε α) (bad : List α → α → Bool) (e : ε) : ℕ → List α → Decoder ε (List α)
  | 0, _ => pure []
  | n + 1, acc => do
    let x ← d
    let xs ← (if bad acc x then fail e else manyChecked d bad e n (acc ++ [x]) : Decoder ε (List α))
    return x :: xs

/-- Whether every value passes the check against those before it. -/
def Admits (bad : List α → α → Bool) : List α → List α → Prop
  | _, [] => True
  | acc, x :: xs => ¬ bad acc x ∧ Admits bad (acc ++ [x]) xs

/-- A value behind a presence flag. -/
def optional (presence : Decoder ε Bool) (d : Decoder ε α) : Decoder ε (Option α) := do
  if ← presence then
    let x ← d
    return some x
  else
    return none

/-- Lists of a fixed length. -/
abbrev Tuple (α : Type) (n : ℕ) := { xs : List α // xs.length = n }

/-- Reads exactly `n` values, as a tuple. -/
def fixed (d : Decoder ε α) : (n : ℕ) → Decoder ε (Tuple α n)
  | 0 => pure ⟨[], rfl⟩
  | n + 1 => do
    let x ← d
    let xs ← fixed d n
    return ⟨x :: xs.1, congrArg (· + 1) xs.2⟩

/-- Reads one value and then another. -/
def pair {β : Type} (d₁ : Decoder ε α) (d₂ : Decoder ε β) : Decoder ε (α × β) := do
  let x ← d₁
  let y ← d₂
  return (x, y)

/-- Reads the whole of an input; `trailing` is told how much was left. -/
def whole (trailing : ℕ → ε) (d : Decoder ε α) (bs : List UInt8) : Except ε α := do
  let (x, rest) ← d bs
  if rest.length = 0 then return x else throw (trailing rest.length)

/-- Continues with a validated value. -/
def refine {β : Type} (d : Decoder ε α) (f : α → Except ε β) : Decoder ε β := do
  let x ← d
  match f x with
  | .ok y => return y
  | .error e => fail e

/-- Reports the errors of a decoder as others. -/
def relabel {ε' : Type} (f : ε → ε') (d : Decoder ε α) : Decoder ε' α := fun bs => (d bs).mapError f

/-- A byte that must be zero or one. -/
def flag (bad : UInt8 → ε) : Decoder ε Bool :=
  refine (byte short) fun
    | 0 => .ok false
    | 1 => .ok true
    | other => .error (bad other)

def putFlag (present : Bool) : List UInt8 :=
  [if present then 1 else 0]

/-- A number within a bound. -/
def atMost {w : ℕ} (excess : ℕ → ε) (bound : ℕ) (d : Decoder ε (BitVec w)) :
    Decoder ε { n : ℕ // n ≤ bound } :=
  refine d fun value =>
    if h : value.toNat ≤ bound then .ok ⟨value.toNat, h⟩ else .error (excess value.toNat)

/-- A number as a word; one that does not fit is replaced. -/
def putLength {w : ℕ} (other : BitVec w) (n : ℕ) : List UInt8 :=
  putWord (if n < 2 ^ w then BitVec.ofNat w n else other)

end decoders

/-! ## Big-endian words -/

theorem toBytes_length (n v : ℕ) : (toBytes n v).length = n := by
  induction n generalizing v with
  | zero => rfl
  | succ n ih => rw [toBytes, length_append, ih, length_singleton]

@[simp] theorem length_putWord {w : ℕ} (x : BitVec w) : (putWord x).length = w / 8 :=
  toBytes_length _ _

@[simp] theorem length_putFlag (present : Bool) : (putFlag present).length = 1 := rfl

@[simp] theorem length_putLength {w : ℕ} (other : BitVec w) (n : ℕ) : (putLength other n).length = w / 8 :=
  length_putWord _

variable {α : Type} {enc : α → List UInt8} {n : ℕ}

theorem length_flatMap_const (h : ∀ x, (enc x).length = n) (xs : List α) :
    (xs.flatMap enc).length = xs.length * n := by
  induction xs with
  | nil => simp
  | cons x xs ih => rw [flatMap_cons, length_append, ih, h, length_cons, Nat.succ_mul, Nat.add_comm]

theorem length_flatMap_le (h : ∀ x, (enc x).length ≤ n) (xs : List α) :
    (xs.flatMap enc).length ≤ xs.length * n := by
  induction xs with
  | nil => simp
  | cons x xs ih =>
    have hx := h x
    rw [flatMap_cons, length_append, length_cons, Nat.succ_mul]
    omega

variable (bs : List UInt8)

theorem ofBytes_append_singleton (b : UInt8) : ofBytes (bs ++ [b]) = ofBytes bs * 256 + b.toNat := by
  rw [ofBytes, ofBytes, foldl_append]
  rfl

theorem ofBytes_toBytes (n v : ℕ) : ofBytes (toBytes n v) = v % 256 ^ n := by
  induction n generalizing v with
  | zero => rw [Nat.pow_zero, Nat.mod_one]; rfl
  | succ n ih =>
    have hpow : 256 ^ (n + 1) = 256 * 256 ^ n := Nat.pow_succ'
    rw [toBytes, ofBytes_append_singleton, ih, UInt8.toNat_ofNat', hpow, Nat.mod_mul]
    omega

theorem toBytes_ofBytes : toBytes bs.length (ofBytes bs) = bs := by
  induction bs using reverseRecOn with
  | nil => rfl
  | append_singleton bs b ih =>
    have hb : b.toNat < 256 := b.toNat_lt
    have hdiv : (ofBytes bs * 256 + b.toNat) / 256 = ofBytes bs := by omega
    have hlast : UInt8.ofNat (ofBytes bs * 256 + b.toNat) = b := by
      rw [← UInt8.toNat_inj, UInt8.toNat_ofNat']
      omega
    rw [length_append, length_singleton, toBytes, ofBytes_append_singleton, hdiv, ih, hlast]

theorem ofBytes_lt : ofBytes bs < 256 ^ bs.length := by
  have h := congrArg ofBytes (toBytes_ofBytes bs)
  rw [ofBytes_toBytes] at h
  rw [← h]
  exact Nat.mod_lt _ (Nat.pow_pos (by decide))

/-! ## Formats -/

variable {ε α β : Type} {d : Decoder ε α} {bs} {rest : List UInt8} {x : α} {y : β}

theorem decode_bind {f : α → Decoder ε β} : (d >>= f) bs = .ok (y, rest) ↔
      ∃ x mid, d bs = .ok (x, mid) ∧ f x mid = .ok (y, rest) := by
  change (d bs >>= fun p => f p.1 p.2) = _ ↔ _
  cases hd : d bs with
  | error e =>
    constructor
    · intro h; cases h
    · rintro ⟨x, mid, h, -⟩; cases h
  | ok p =>
    constructor
    · intro h; exact ⟨p.1, p.2, rfl, h⟩
    · rintro ⟨x, mid, h, hf⟩; cases h; exact hf

theorem refine_eq_ok {f : α → Except ε β} :
    refine d f bs = .ok (y, rest) ↔ ∃ x, d bs = .ok (x, rest) ∧ f x = .ok y := by
  rw [refine, decode_bind]
  constructor
  · rintro ⟨x, mid, hd, h⟩
    cases hf : f x with
    | error e => rw [hf] at h; cases h
    | ok y' =>
      rw [hf] at h
      cases h
      exact ⟨x, hd, hf⟩
  · rintro ⟨x, hd, hf⟩
    refine ⟨x, rest, hd, ?_⟩
    rw [hf]
    rfl

theorem relabel_eq_ok {ε' : Type} {f : ε → ε'} {p : α × List UInt8} : relabel f d bs = .ok p ↔ d bs = .ok p := by
  unfold relabel
  cases hd : d bs with
  | error e => simp [Except.mapError]
  | ok q => simp [Except.mapError]

theorem whole_eq_ok_iff {trailing : ℕ → ε} : whole trailing d bs = .ok x ↔ d bs = .ok (x, []) := by
  unfold whole
  cases hd : d bs with
  | error e =>
    constructor <;> exact nofun
  | ok p =>
    obtain ⟨y, rest⟩ := p
    simp only [bind, Except.bind]
    split_ifs with hrest
    · rw [length_eq_zero_iff.mp hrest]
      constructor <;>
      · rintro ⟨⟩
        rfl
    · constructor
      · intro h; cases h
      · intro h; cases h; exact absurd rfl hrest

/-- The decoder accepts exactly the encodings of the admissible values, and leaves what follows. -/
structure Format {ε α : Type} (d : Decoder ε α) (enc : α → List UInt8) (ok : α → Prop) : Prop where
  complete : ∀ x rest, ok x → d (enc x ++ rest) = .ok (x, rest)
  sound : ∀ bs x rest, d bs = .ok (x, rest) → ok x ∧ bs = enc x ++ rest

/-- The decoder accepts exactly the encodings of all values. -/
abbrev Exact {ε α : Type} (d : Decoder ε α) (enc : α → List UInt8) : Prop :=
  Format d enc fun _ => True

namespace Format

variable {ε α β : Type} {d : Decoder ε α} {enc enc' : α → List UInt8} {ok ok' : α → Prop}

theorem congr (h : Format d enc ok) (hok : ∀ x, ok x ↔ ok' x) (henc : ∀ x, ok x → enc x = enc' x) :
    Format d enc' ok' where
  complete x rest hx := by
    rw [← henc x ((hok x).mpr hx)]
    exact h.complete x rest ((hok x).mpr hx)
  sound bs x rest hd := by
    obtain ⟨hx, hbs⟩ := h.sound bs x rest hd
    rw [henc x hx] at hbs
    exact ⟨(hok x).mp hx, hbs⟩

protected theorem pure (x : α) : Format (pure x : Decoder ε α) (fun _ => []) (· = x) where
  complete := by
    rintro _ rest rfl
    rfl
  sound bs y rest hd := by
    cases hd
    exact ⟨rfl, rfl⟩

protected theorem fail (e : ε) : Format (fail e : Decoder ε α) enc (fun _ => False) where
  complete _ _ h := h.elim
  sound _ _ _ hd := nomatch hd

variable {f : α → Decoder ε β} (proj : β → α) {enc₂ : α → β → List UInt8} {ok₂ : α → β → Prop}

/-- A field, then the rest of the record; `proj` is the field's projection. -/
protected theorem bind (hd : Format d enc ok)
    (hf : ∀ x, ok x → Format (f x) (enc₂ x) (ok₂ x)) (hproj : ∀ x y, ok₂ x y → proj y = x) :
    Format (d >>= f) (fun y => enc (proj y) ++ enc₂ (proj y) y)
      (fun y => ok (proj y) ∧ ok₂ (proj y) y) where
  complete y rest hy := by
    rw [append_assoc]
    exact decode_bind.mpr ⟨_, _, hd.complete _ _ hy.1, (hf _ hy.1).complete y rest hy.2⟩
  sound bs y rest hy := by
    obtain ⟨x, mid, hx, hmid⟩ := decode_bind.mp hy
    obtain ⟨hok, rfl⟩ := hd.sound bs x mid hx
    obtain ⟨hok₂, rfl⟩ := (hf x hok).sound mid y rest hmid
    obtain rfl := hproj x y hok₂
    exact ⟨⟨hok, hok₂⟩, by rw [append_assoc]⟩

/-- Two parts, and what is made of them. -/
theorem seq {γ : Type} {enc₃ : γ → List UInt8} {ok₃ : γ → Prop}
    (g : α → β → γ) (h : Format d enc ok) (hf : ∀ x, ok x → Format (f x) (enc₂ x) (ok₂ x))
    (henc : ∀ x y, enc₃ (g x y) = enc x ++ enc₂ x y) (hok : ∀ z, ok₃ z ↔ ∃ x y, g x y = z ∧ ok x ∧ ok₂ x y) :
    Format (d >>= fun x => f x >>= fun y => pure (g x y)) enc₃ ok₃ where
  complete z rest hz := by
    obtain ⟨x, y, rfl, hx, hy⟩ := (hok z).mp hz
    rw [henc, append_assoc]
    exact decode_bind.mpr ⟨x, _, h.complete x _ hx, decode_bind.mpr ⟨y, rest, (hf x hx).complete y rest hy, rfl⟩⟩
  sound bs z rest hd := by
    obtain ⟨x, mid, hx, hd⟩ := decode_bind.mp hd
    obtain ⟨y, mid', hy, hd⟩ := decode_bind.mp hd
    cases hd
    obtain ⟨hokx, rfl⟩ := h.sound bs x mid hx
    obtain ⟨hoky, rfl⟩ := (hf x hokx).sound mid y rest hy
    exact ⟨(hok _).mpr ⟨x, y, rfl, hokx, hoky⟩, by rw [henc, append_assoc]⟩

variable {enc₂ : β → List UInt8} {ok₂ : β → Prop}

/-- One alternative of a type, with its values. -/
protected theorem map (f : α → β) (h : Format d enc ok)
    (henc : ∀ x, enc₂ (f x) = enc x) (hok : ∀ y, ok₂ y ↔ ∃ x, f x = y ∧ ok x) : Format (f <$> d) enc₂ ok₂ :=
  Format.seq (fun x _ => f x) h (fun x _ => Format.pure ()) (by simp [henc]) (by simp [hok])

/-- A record with the values it is read from. -/
theorem iso (f : α → β) (g : β → α) (h : Format d enc ok) (hgf : ∀ x, g (f x) = x) (hfg : ∀ y, f (g y) = y) :
    Format (f <$> d) (fun y => enc (g y)) (fun y => ok (g y)) := by
  refine h.map f (fun x => by rw [hgf]) fun y => ⟨fun hy => ⟨g y, hfg y, hy⟩, ?_⟩
  rintro ⟨x, rfl, hx⟩
  rwa [hgf]

/-- A record read as the tuple of its fields. -/
theorem ofTuple {f : α → β} {enc' : β → List UInt8} {ok' : β → Prop} (h : Format d enc ok) (g : β → α)
    (hgf : ∀ x, g (f x) = x) (hfg : ∀ y, f (g y) = y) (hok : ∀ y, ok (g y) ↔ ok' y) (henc : ∀ y, enc (g y) = enc' y) :
    Format (f <$> d) enc' ok' :=
  (h.iso f g hgf hfg).congr hok fun y _ => henc y

protected theorem pair {d₂ : Decoder ε β} (h : Format d enc ok)
    (h₂ : Format d₂ enc₂ ok₂) : Format (pair d d₂) (fun p => enc p.1 ++ enc₂ p.2) (fun p => ok p.1 ∧ ok₂ p.2) :=
  h.seq Prod.mk (fun _ _ => h₂) (fun _ _ => rfl) (by simp)

/-- A tag, then the alternative it selects. -/
theorem tagged {body : β → List UInt8} (tag : β → α) (h : Exact d enc)
    (hf : ∀ t, Format (f t) body (fun y => tag y = t ∧ ok₂ y)) :
    Format (d >>= f) (fun y => enc (tag y) ++ body y) ok₂ :=
  (h.bind tag (fun t _ => hf t) (fun _ _ hy => hy.1)).congr (fun y => by simp) (fun _ _ => rfl)

variable {read ok₂ : β → Prop}

/-- One field of a record; `read` says what the fields before it were. -/
theorem field (hd : Format d enc ok)
    (hf : ∀ x, Format (f x) enc₂ fun y => (read y ∧ proj y = x) ∧ ok₂ y) :
    Format (d >>= f) (fun y => enc (proj y) ++ enc₂ y) fun y => read y ∧ ok (proj y) ∧ ok₂ y :=
  (hd.bind proj (fun x _ => hf x) (fun _ _ h => h.1.2)).congr (fun y => by simp [and_left_comm]) (fun _ _ => rfl)

/-- The end of a record: the fields that were read are those of one value. -/
theorem done {x : α} {read : α → Prop} (h : ∀ y, read y ↔ y = x) :
    Format (pure x : Decoder ε α) (fun _ => []) fun y => read y ∧ True :=
  (Format.pure x).congr (fun y => by simp [h]) (fun _ _ => rfl)

/-- A record from its first field on. -/
theorem record (h : Format d enc fun x => True ∧ ok x) (hok : ∀ x, ok x ↔ ok' x) (henc : ∀ x, enc x = enc' x) :
    Format d enc' ok' :=
  h.congr (fun x => by rw [true_and, hok]) (fun x _ => henc x)

variable {e : ε}

/-- A check before the rest. -/
protected theorem require {c : Prop} [Decidable c] (h : Format d enc ok) :
    Format (if c then fail e else d) enc (fun x => ¬ c ∧ ok x) where
  complete x rest hx := by
    rw [if_neg hx.1]
    exact h.complete x rest hx.2
  sound bs x rest hd := by
    split_ifs at hd with hc
    · cases hd
    · obtain ⟨hx, hbs⟩ := h.sound bs x rest hd
      exact ⟨⟨hc, hx⟩, hbs⟩

/-- One field of a record that is checked before the fields after it. -/
theorem checked {c : α → Prop} [DecidablePred c] {e : α → ε} (hd : Format d enc ok)
    (hf : ∀ x, ¬ c x → Format (f x) enc₂ fun y => (read y ∧ proj y = x) ∧ ok₂ y) :
    Format (d >>= fun x => if c x then fail (e x) else f x) (fun y => enc (proj y) ++ enc₂ y)
      fun y => read y ∧ ok (proj y) ∧ ¬ c (proj y) ∧ ok₂ y := by
  refine hd.field proj fun x => ?_
  by_cases hc : c x
  · rw [if_pos hc]
    exact (Format.fail _).congr (by grind) (fun _ _ => rfl)
  · rw [if_neg hc]
    exact (hf x hc).congr (by grind) (fun _ _ => rfl)

variable {f : α → Except ε β}

/-- Some values of a type, with the values they are read from. -/
theorem refineOn (valid : β → Prop) (raw : β → α) (h : Format d enc ok)
    (hraw : ∀ y, valid y → f (raw y) = .ok y) (hf : ∀ x y, f x = .ok y → valid y ∧ raw y = x) :
    Format (refine d f) (fun y => enc (raw y)) (fun y => ok (raw y) ∧ valid y) where
  complete y rest hy := refine_eq_ok.mpr ⟨raw y, h.complete _ rest hy.1, hraw y hy.2⟩
  sound bs y rest hy := by
    obtain ⟨x, hx, hfx⟩ := refine_eq_ok.mp hy
    obtain ⟨hvalid, rfl⟩ := hf x y hfx
    obtain ⟨hok, hbs⟩ := h.sound bs _ rest hx
    exact ⟨⟨hok, hvalid⟩, hbs⟩

/-- A validated type with its underlying value. -/
protected theorem refine (raw : β → α) (h : Format d enc ok) (hraw : ∀ y, f (raw y) = .ok y)
    (hf : ∀ x y, f x = .ok y → raw y = x) : Format (refine d f) (fun y => enc (raw y)) (fun y => ok (raw y)) :=
  (h.refineOn (fun _ => True) raw (fun y _ => hraw y) (fun x y hxy => ⟨trivial, hf x y hxy⟩)).congr
    (fun _ => iff_of_eq (and_true _)) (fun _ _ => rfl)

/-- A constant that must be there. -/
protected theorem expect [DecidableEq α] {expected : α} (h : Exact d enc) :
    Exact (refine d fun value => if value ≠ expected then .error e else .ok ()) (fun _ => enc expected) := by
  refine h.refine (fun _ => expected) ?_ ?_
  · intro _
    simp
  · intro value _ hvalue
    split_ifs at hvalue with hne
    exact (not_not.mp hne).symm

/-- A value behind its code: each code is read back, and from that code only. -/
protected theorem coded {code : β → α} {fromCode : α → Option β} {e : α → ε} (h : Exact d enc)
    (hcode : ∀ y, fromCode (code y) = some y) (hfrom : ∀ x y, fromCode x = some y → code y = x) :
    Exact (refine d fun x => Lib.okOr (fromCode x) (e x)) (fun y => enc (code y)) := by
  refine h.refine code ?_ ?_
  · intro y
    rw [hcode]
    rfl
  · intro x y hxy
    exact hfrom x y (Lib.okOr_eq_ok.mp hxy)

variable (short : ℕ → ℕ → ε)

protected theorem array (n : ℕ) : Exact (array short n) Subtype.val where
  complete := by
    rintro ⟨x, rfl⟩ rest -
    simp [array]
  sound bs x rest hd := by
    unfold array at hd
    split_ifs at hd with hn
    cases hd
    exact ⟨trivial, (take_append_drop n bs).symm⟩

protected theorem take (n : ℕ) :
    Format (take short n) (fun bs => bs) (fun bs => bs.length = n) :=
  (Format.array short n).map Subtype.val (fun _ => rfl) (by simp)

protected theorem byte : Exact (byte short) (fun b => [b]) where
  complete _ _ _ := rfl
  sound bs b rest hd := by
    cases bs with
    | nil => cases hd
    | cons b' bs =>
      cases hd
      exact ⟨trivial, rfl⟩

variable {w : ℕ}

protected theorem word (hw : 8 ∣ w) : Exact (word short w) putWord := by
  have hpow : 256 ^ (w / 8) = 2 ^ w := by
    rw [show 256 = 2 ^ 8 from rfl, ← Nat.pow_mul, Nat.mul_div_cancel' hw]
  refine ((Format.array short (w / 8)).bind (fun x => ⟨putWord x, toBytes_length _ _⟩)
    (fun bs _ => Format.pure _) ?_).congr ?_ ?_
  · rintro bs x rfl
    apply Subtype.ext
    have hlt := ofBytes_lt bs.1
    have hbytes := toBytes_ofBytes bs.1
    rw [bs.2] at hlt hbytes
    change toBytes (w / 8) (BitVec.ofNat w (ofBytes bs.1)).toNat = bs.1
    rw [BitVec.toNat_ofNat, Nat.mod_eq_of_lt (hpow ▸ hlt), hbytes]
  · intro x
    refine ⟨fun _ => trivial, fun _ => ⟨trivial, ?_⟩⟩
    change x = BitVec.ofNat w (ofBytes (toBytes (w / 8) x.toNat))
    rw [ofBytes_toBytes, hpow, BitVec.toNat_mod_cancel, BitVec.ofNat_toNat, BitVec.setWidth_eq]
  · intro x _
    exact append_nil _

variable {rest rest' : List UInt8}

/-- What a decoder reads exactly is told apart by its encoding, whatever follows. -/
theorem inj (h : Exact d enc) {x y : α} (heq : enc x ++ rest = enc y ++ rest') :
    x = y ∧ rest = rest' := by
  have hx := h.complete x rest trivial
  rw [heq, h.complete y rest' trivial] at hx
  cases hx
  exact ⟨rfl, rfl⟩

theorem array_inj {n : ℕ} {x y : Bytes n} (h : x.1 ++ rest = y.1 ++ rest') :
    x = y ∧ rest = rest' :=
  inj (Format.array (fun _ _ => ()) n) h

theorem word_inj (hw : 8 ∣ w) {x y : BitVec w}
    (h : putWord x ++ rest = putWord y ++ rest') : x = y ∧ rest = rest' :=
  inj (Format.word (fun _ _ => ()) hw) h

protected theorem many (h : Format d enc ok) (n : ℕ) :
    Format (many d n) (fun xs => xs.flatMap enc) (fun xs => xs.length = n ∧ ∀ x ∈ xs, ok x) := by
  induction n with
  | zero =>
    refine (Format.pure []).congr ?_ ?_
    · simp +contextual [length_eq_zero_iff]
    · rintro _ rfl
      rfl
  | succ n ih =>
    refine h.seq (· :: ·) (fun _ _ => ih) (fun _ _ => flatMap_cons) ?_
    rintro (_ | ⟨x, xs⟩)
    · simp
    · simp [and_assoc, and_left_comm]

protected theorem manyChecked (h : Format d enc ok) (bad : List α → α → Bool) (e : ε) (n : ℕ) (acc : List α) :
    Format (manyChecked d bad e n acc) (fun xs => xs.flatMap enc)
      (fun xs => xs.length = n ∧ (∀ x ∈ xs, ok x) ∧ Admits bad acc xs) := by
  induction n generalizing acc with
  | zero =>
    refine (Format.pure []).congr ?_ ?_
    · simp +contextual [length_eq_zero_iff, Admits]
    · rintro _ rfl
      rfl
  | succ n ih =>
    refine h.seq (· :: ·) (fun x _ => (ih (acc ++ [x])).require) (fun _ _ => flatMap_cons) ?_
    rintro (_ | ⟨x, xs⟩)
    · simp
    · simp [Admits, and_assoc, and_left_comm]

/-- A value that may be absent. -/
protected theorem optional {presence : Decoder ε Bool} {encFlag : Bool → List UInt8}
    (hflag : Exact presence encFlag) (h : Format d enc ok) :
    Format (optional presence d) (fun o => encFlag o.isSome ++ o.elim [] enc)
      (fun o => ∀ x ∈ o, ok x) := by
  refine hflag.tagged Option.isSome fun present => ?_
  cases present with
  | false => exact (Format.pure none).congr (by rintro (_ | _) <;> simp) (by rintro _ rfl; rfl)
  | true => exact h.map some (fun _ => rfl) (by rintro (_ | _) <;> simp)

protected theorem flag (bad : UInt8 → ε) : Exact (flag short bad) putFlag := by
  refine ((Format.byte short).refine (fun present => if present then 1 else 0) ?_ ?_).congr
    (fun _ => Iff.rfl) (fun _ _ => rfl)
  · intro present
    cases present <;> rfl
  · intro value present h
    split at h
    · cases h; rfl
    · cases h; rfl
    · cases h

/-- A number that fits its word, up to a bound. -/
theorem upTo {w bound : ℕ} {d : Decoder ε (BitVec w)} (hd : Exact d putWord) (excess : ℕ → ε)
    (hbound : bound < 2 ^ w) :
    Format (refine d fun value => if bound < value.toNat then .error (excess value.toNat) else .ok value.toNat)
      (fun n => putWord (BitVec.ofNat w n)) (· ≤ bound) := by
  refine (hd.refineOn (· ≤ bound) (fun n => BitVec.ofNat w n) ?_ ?_).congr
    (fun _ => iff_of_eq (true_and _)) (fun _ _ => rfl)
  · intro n hn
    have hvalue : (BitVec.ofNat w n).toNat = n := by
      rw [BitVec.toNat_ofNat]
      exact Nat.mod_eq_of_lt (by omega)
    simp only [hvalue]
    exact if_neg (Nat.not_lt.mpr hn)
  · intro value n h
    split_ifs at h with hlt
    cases h
    exact ⟨Nat.not_lt.mp hlt, BitVec.ofNat_toNat .. |>.trans (BitVec.setWidth_eq _)⟩

variable {bound : ℕ} {excess : ℕ → ε}

protected theorem atMost {d : Decoder ε (BitVec w)} (other : BitVec w) (hbound : bound < 2 ^ w)
    (hd : Exact d putWord) :
    Exact (atMost excess bound d) (fun n => putLength other n.1) := by
  refine (hd.refine (fun n => BitVec.ofNat w n.1) ?_ ?_).congr (fun _ => Iff.rfl) ?_
  · rintro ⟨n, hn⟩
    have hvalue : (BitVec.ofNat w n).toNat = n := by
      rw [BitVec.toNat_ofNat]
      exact Nat.mod_eq_of_lt (by omega)
    simp only [hvalue, hn, dif_pos]
  · intro value n h
    split_ifs at h with hle
    cases h
    exact (BitVec.ofNat_toNat ..).trans (BitVec.setWidth_eq _)
  · rintro ⟨n, hn⟩ -
    have hfits : n < 2 ^ w := by omega
    simp only [putLength, if_pos hfits]

section bounded

variable {count : Decoder ε (BitVec w)} (other : BitVec w) (hbound : bound < 2 ^ w) (hcount : Exact count putWord)
include hbound hcount

/-- A bounded size, then as much as it says. -/
theorem sized {f : ℕ → Decoder ε α} {size : α → ℕ} (h : ∀ n, Format (f n) enc fun x => size x = n ∧ ok x) :
    Format (atMost excess bound count >>= fun n => f n.1) (fun x => putLength other (size x) ++ enc x)
      (fun x => size x ≤ bound ∧ ok x) where
  complete x rest hx := by
    rw [append_assoc]
    exact decode_bind.mpr ⟨⟨size x, hx.1⟩, _, (hcount.atMost other hbound).complete ⟨size x, hx.1⟩ _ trivial,
      (h _).complete x rest ⟨rfl, hx.2⟩⟩
  sound bs x rest hd := by
    obtain ⟨n, mid, hn, hx⟩ := decode_bind.mp hd
    obtain ⟨-, rfl⟩ := (hcount.atMost other hbound).sound bs n mid hn
    obtain ⟨⟨hsize, hok⟩, rfl⟩ := (h n.1).sound mid x rest hx
    exact ⟨⟨hsize ▸ n.2, hok⟩, by rw [hsize, append_assoc]⟩

/-- A list behind a bounded length. -/
theorem bounded (h : Format d enc ok) :
    Format (atMost excess bound count >>= fun n => many d n.1)
      (fun xs => putLength other xs.length ++ xs.flatMap enc) (fun xs => xs.length ≤ bound ∧ ∀ x ∈ xs, ok x) :=
  sized other hbound hcount h.many

/-- Bytes behind a bounded length. -/
theorem boundedBytes (short : ℕ → ℕ → ε) :
    Format (atMost excess bound count >>= fun n => take short n.1)
      (fun bs => putLength other bs.length ++ bs) (fun bs => bs.length ≤ bound) := by
  have hbytes (n : ℕ) : Format (take short n) (fun bs => bs) fun bs => bs.length = n ∧ True :=
    (Format.take short n).congr (by simp) (fun _ _ => rfl)
  exact (sized other hbound hcount hbytes).congr (by simp) (fun _ _ => rfl)

end bounded

protected theorem relabel {ε' : Type} (f : ε → ε') (h : Format d enc ok) : Format (relabel f d) enc ok where
  complete x rest hx := relabel_eq_ok.mpr (h.complete x rest hx)
  sound bs x rest hd := h.sound bs x rest (relabel_eq_ok.mp hd)

protected theorem fixed (h : Format d enc ok) (n : ℕ) :
    Format (fixed d n) (fun xs => xs.1.flatMap enc) (fun xs => ∀ x ∈ xs.1, ok x) := by
  induction n with
  | zero =>
    refine (Format.pure (ε := ε) (⟨[], rfl⟩ : Tuple α 0)).congr ?_ ?_
    · rintro ⟨xs, hxs⟩
      obtain rfl := length_eq_zero_iff.mp hxs
      simp
    · rintro _ rfl
      rfl
  | succ n ih =>
    refine h.seq _ (fun _ _ => ih) (fun _ _ => flatMap_cons) ?_
    rintro ⟨_ | ⟨x, xs⟩, hlen⟩
    · cases hlen
    · constructor
      · intro hall
        obtain ⟨hx, hxs⟩ := forall_mem_cons.mp hall
        exact ⟨x, ⟨xs, Nat.succ.inj hlen⟩, rfl, hx, hxs⟩
      · rintro ⟨_, _, ⟨⟩, hx, hxs⟩
        exact forall_mem_cons.mpr ⟨hx, hxs⟩

/-- A whole input is accepted exactly when it is the encoding of an admissible value. -/
theorem whole_eq_ok (h : Format d enc ok) {trailing : ℕ → ε} {bs : List UInt8} {x : α} :
    whole trailing d bs = .ok x ↔ ok x ∧ bs = enc x := by
  rw [whole_eq_ok_iff]
  constructor
  · intro hd
    obtain ⟨hok, hbs⟩ := h.sound bs x [] hd
    exact ⟨hok, by rw [hbs, append_nil]⟩
  · rintro ⟨hok, rfl⟩
    have hd := h.complete x [] hok
    rwa [append_nil] at hd

/-- A list behind its length. -/
theorem counted {count : Decoder ε ℕ} {encCount : ℕ → List UInt8} {okCount : ℕ → Prop}
    (hcount : Format count encCount okCount) (h : Format d enc ok) :
    Format (count >>= many d) (fun xs => encCount xs.length ++ xs.flatMap enc)
      (fun xs => okCount xs.length ∧ ∀ x ∈ xs, ok x) :=
  (hcount.bind length (fun n _ => h.many n) (fun _ _ hxs => hxs.1)).congr
    (fun xs => by simp) (fun _ _ => rfl)

end Format

end Soma.Codec
