import Soma.Lib.Codec

/-! # Bounded writers

A writer appends to the bytes written so far and fails when they would exceed a bound, or when a value
cannot be written. `Writes` says what a writer adds and when it is refused for the value; the bound only
ever refuses the whole.
-/

namespace Soma.Codec

/-- What is written so far; a failure leaves nothing. -/
abbrev Writer (ε α : Type) := StateT (List UInt8) (Except ε) α

variable {ε α : Type}

/-- Appends bytes that keep the whole within the bound. -/
def putBytes (bound : ℕ) (e : ε) (bytes : List UInt8) : Writer ε Unit := fun written =>
  if bound < written.length + bytes.length then .error e else .ok ((), written ++ bytes)

/-- Refuses a value that fails a check. -/
def check (e : ε) (c : Prop) [Decidable c] : Writer ε Unit := fun written =>
  if c then .ok ((), written) else .error e

/-- A writer adds exactly `bytes`, provided `ok` and that the whole stays within the bound. -/
def Writes (bound : ℕ) (w : Writer ε Unit) (bytes : List UInt8) (ok : Prop) : Prop :=
  ∀ written written', written.length ≤ bound →
    (w written = .ok ((), written') ↔ ok ∧ written' = written ++ bytes ∧ written'.length ≤ bound)

namespace Writes

variable {bound : ℕ} {w v : Writer ε Unit} {bytes more : List UInt8} {ok ok' : Prop}

theorem congr (h : Writes bound w bytes ok) (hok : ok ↔ ok') : Writes bound w bytes ok' :=
  fun written written' hbound => by rw [h written written' hbound, hok]

theorem putBytes (e : ε) : Writes bound (putBytes bound e bytes) bytes True := by
  intro written written' _
  rw [Codec.putBytes]
  split_ifs with hlong
  · simp only [true_and, false_iff, not_and]
    intro hwritten
    rw [hwritten, List.length_append]
    omega
  · simp only [Except.ok.injEq, Prod.mk.injEq, true_and]
    constructor
    · intro hwritten
      refine ⟨hwritten.symm, ?_⟩
      rw [← hwritten, List.length_append]
      omega
    · intro hwritten
      exact hwritten.1.symm

theorem check (e : ε) (c : Prop) [Decidable c] : Writes bound (check e c) [] c := by
  intro written written' hbound
  rw [Codec.check]
  split_ifs with hc
  · simp only [Except.ok.injEq, Prod.mk.injEq, true_and, List.append_nil, hc]
    constructor
    · intro hwritten
      exact ⟨hwritten.symm, hwritten ▸ hbound⟩
    · intro hwritten
      exact hwritten.1.symm
  · simp [hc]

theorem pure : Writes bound (pure () : Writer ε Unit) [] True := by
  intro written written' hbound
  constructor
  · intro h
    cases h
    exact ⟨trivial, (List.append_nil _).symm, hbound⟩
  · intro h
    rw [h.2.1, List.append_nil]
    rfl

/-- One writer, then another. -/
theorem andThen (h : Writes bound w bytes ok) (h' : Writes bound v more ok') :
    Writes bound (w >>= fun _ => v) (bytes ++ more) (ok ∧ ok') := by
  intro written written' hbound
  have hbind : (w >>= fun _ => v) written = .ok ((), written')
      ↔ ∃ mid, w written = .ok ((), mid) ∧ v mid = .ok ((), written') := by
    change (w written >>= fun p => v p.2) = _ ↔ _
    cases hw : w written with
    | error e => simp [bind, Except.bind]
    | ok p =>
      obtain ⟨_, mid⟩ := p
      constructor
      · intro hv
        exact ⟨mid, rfl, hv⟩
      · intro hv
        obtain ⟨mid', hmid, hv⟩ := hv
        cases hmid
        exact hv
  rw [hbind]
  constructor
  · intro hw
    obtain ⟨mid, hw, hv⟩ := hw
    obtain ⟨hok, hmid, hlength⟩ := (h written mid hbound).mp hw
    obtain ⟨hok', hwritten, hlength'⟩ := (h' mid written' hlength).mp hv
    exact ⟨⟨hok, hok'⟩, by rw [hwritten, hmid, List.append_assoc], hlength'⟩
  · intro hw
    obtain ⟨⟨hok, hok'⟩, hwritten, hlength⟩ := hw
    have hmid : (written ++ bytes).length ≤ bound := by
      rw [hwritten, List.length_append, List.length_append] at hlength
      rw [List.length_append]
      omega
    refine ⟨written ++ bytes, (h _ _ hbound).mpr ⟨hok, rfl, hmid⟩, (h' _ _ hmid).mpr ⟨hok', ?_, hlength⟩⟩
    rw [hwritten, List.append_assoc]

/-- A check that implies what the writer itself asks for. -/
theorem checked {c : Prop} [Decidable c] (e : ε) (h : Writes bound w bytes ok) (hok : c → ok) :
    Writes bound (Codec.check e c >>= fun _ => w) bytes c :=
  ((check e c).andThen h).congr (and_iff_left_of_imp hok)

/-- A loop over a list writes the elements in order. -/
theorem forM {f : α → Writer ε Unit} {enc : α → List UInt8} {oks : α → Prop} {xs : List α}
    (h : ∀ x ∈ xs, Writes bound (f x) (enc x) (oks x)) :
    Writes bound (xs.forM f) (xs.flatMap enc) (∀ x ∈ xs, oks x) := by
  induction xs with
  | nil => exact pure.congr (by simp)
  | cons x xs ih =>
    have htail := ih fun y hy => h y (List.mem_cons_of_mem _ hy)
    have hhead := h x List.mem_cons_self
    exact (hhead.andThen htail).congr (by simp)

end Writes

/-- Running a writer from nothing. -/
def runWriter (w : Writer ε Unit) : Except ε (List UInt8) := do
  let p ← w []
  return p.2

theorem runWriter_eq_ok {bound : ℕ} {w : Writer ε Unit} {bytes : List UInt8} {ok : Prop}
    (h : Writes bound w bytes ok) {result : List UInt8} :
    runWriter w = .ok result ↔ ok ∧ result = bytes ∧ result.length ≤ bound := by
  have hrun : runWriter w = .ok result ↔ w [] = .ok ((), result) := by
    rw [runWriter]
    cases w [] with
    | error e => simp [bind, Except.bind]
    | ok p =>
      obtain ⟨_, written⟩ := p
      simp [bind, Except.bind, pure, Except.pure]
  rw [hrun, h [] result (Nat.zero_le _), List.nil_append]

end Soma.Codec
