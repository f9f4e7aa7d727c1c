import Mathlib.Data.List.Destutter
import Mathlib.Data.List.Sort
import Mathlib.Data.String.Basic

/-! # Texts and canonical lists

A text is a `String`, that is a sequence of Unicode scalars; its bytes are its UTF-8 encoding and its
length is counted in bytes.

* **Bytes**: `bytes` and `ofBytes` are inverse to each other where `ofBytes` answers at all.
* **Canonical lists**: sorting by a key and then dropping repeated keys gives a list whose keys strictly
  increase (`pairwise_dedupBy_sortBy`), and the two scans a reader makes, sorted and without equal
  neighbours, accept exactly those lists (`sorted_and_distinct`).
-/

namespace Soma.Text

open List

/-! ## UTF-8 -/

variable (s : String)

/-- The UTF-8 bytes of a text. -/
def bytes : List UInt8 :=
  s.toByteArray.data.toList

/-- The text with the given UTF-8 bytes, where they are valid. -/
def ofBytes (bs : List UInt8) : Option String :=
  String.fromUTF8? ⟨bs.toArray⟩

@[simp]
theorem length_bytes : (bytes s).length = s.utf8ByteSize := by
  simp [bytes, ByteArray.size_data]

theorem ofBytes_bytes : ofBytes (bytes s) = some s := by
  have hvalid : s.toByteArray.IsValidUTF8 := s.isValidUTF8
  simp [ofBytes, bytes, String.fromUTF8?, hvalid, String.fromUTF8]

theorem bytes_of_ofBytes {bs : List UInt8} {s : String} (h : ofBytes bs = some s) : bytes s = bs := by
  unfold ofBytes String.fromUTF8? at h
  split_ifs at h
  cases h
  rfl

/-! ## Pieces of a text -/

/-- The two parts around the first occurrence of a separator. -/
def splitOnce (sep : Char) : List Char → Option (List Char × List Char)
  | [] => none
  | c :: rest =>
    if c = sep then some ([], rest) else (splitOnce sep rest).map fun (a, b) => (c :: a, b)

/-- What is left of a text after a given start. -/
def stripPrefix (start text : List Char) : Option (List Char) :=
  if start <+: text then some (text.drop start.length) else none

/-- What is left of a text before a given end. -/
def stripSuffix (stop text : List Char) : Option (List Char) :=
  if stop <:+ text then some (text.take (text.length - stop.length)) else none

theorem stripPrefix_eq_some {start text rest : List Char} :
    stripPrefix start text = some rest ↔ text = start ++ rest := by
  unfold stripPrefix
  constructor
  · intro h
    split_ifs at h with hstart
    obtain ⟨tail, rfl⟩ := hstart
    rw [drop_left, Option.some.injEq] at h
    rw [h]
  · rintro rfl
    rw [if_pos (prefix_append start rest), drop_left]

theorem stripSuffix_eq_some {stop text rest : List Char} :
    stripSuffix stop text = some rest ↔ text = rest ++ stop := by
  unfold stripSuffix
  constructor
  · intro h
    split_ifs at h with hstop
    obtain ⟨head, rfl⟩ := hstop
    rw [length_append, Nat.add_sub_cancel, take_left, Option.some.injEq] at h
    rw [h]
  · rintro rfl
    rw [if_pos (suffix_append rest stop), length_append, Nat.add_sub_cancel, take_left]

theorem splitOnce_append {sep : Char} {a : List Char} (ha : sep ∉ a) (b : List Char) :
    splitOnce sep (a ++ sep :: b) = some (a, b) := by
  induction a with
  | nil => simp [splitOnce]
  | cons c a ih =>
    rw [mem_cons, not_or] at ha
    rw [cons_append, splitOnce, if_neg (Ne.symm ha.1), ih ha.2]
    rfl

/-! ## Canonical lists -/

section canonical

variable {α β : Type} [LinearOrder β] (key : α → β) (l : List α)

/-- A stable sort by a key. -/
def sortBy : List α :=
  l.insertionSort fun a b => key a ≤ key b

/-- Keeps the first of neighbours with equal keys. -/
def dedupBy : List α :=
  l.destutter fun a b => key a ≠ key b

variable {key}

theorem mem_sortBy {l : List α} {a : α} : a ∈ sortBy key l ↔ a ∈ l :=
  mem_insertionSort _

theorem length_sortBy : (sortBy key l).length = l.length :=
  length_insertionSort _ l

theorem pairwise_sortBy : (sortBy key l).Pairwise fun a b => key a ≤ key b := by
  have : Std.Total fun a b : α => key a ≤ key b := ⟨fun a b => le_total _ _⟩
  have : IsTrans α fun a b => key a ≤ key b := ⟨fun a b c => le_trans⟩
  exact pairwise_insertionSort _ l

theorem pairwise_lt_sortBy {l : List α} (h : (l.map key).Nodup) :
    (sortBy key l).Pairwise fun a b => key a < key b := by
  have hperm : (sortBy key l).Perm l := perm_insertionSort _ l
  have hnodup : (sortBy key l).Pairwise fun a b => key a ≠ key b :=
    pairwise_map.mp ((hperm.map key).nodup_iff.mpr h)
  exact (pairwise_sortBy l).imp₂ (fun _ _ => lt_of_le_of_ne) hnodup

/-- A list scanned for order and for equal neighbours has strictly increasing keys. -/
theorem sorted_and_distinct {l : List α} :
    (l.IsChain fun a b => key a ≤ key b) ∧ (l.IsChain fun a b => key a ≠ key b) ↔
      l.Pairwise fun a b => key a < key b := by
  have : IsTrans α fun a b => key a < key b := ⟨fun a b c => lt_trans⟩
  rw [← isChain_iff_pairwise]
  constructor
  · rintro ⟨hle, hne⟩
    rw [isChain_iff_getElem] at hle hne ⊢
    exact fun i hi => lt_of_le_of_ne (hle i hi) (hne i hi)
  · intro h
    exact ⟨h.imp fun _ _ => le_of_lt, h.imp fun _ _ => ne_of_lt⟩

theorem pairwise_dedupBy_sortBy : (dedupBy key (sortBy key l)).Pairwise fun a b => key a < key b := by
  have hle : (dedupBy key (sortBy key l)).Pairwise fun a b => key a ≤ key b :=
    (pairwise_sortBy l).sublist (destutter_sublist _ _)
  exact sorted_and_distinct.mp ⟨hle.isChain, isChain_destutter _ _⟩

theorem map_sortBy_eq_of_perm {γ : Type} {f : α → γ} {k : γ → β} (hkey : ∀ a, k (f a) = key a)
    {l l' : List α} (hnodup : (l.map key).Nodup) (hperm : (l.map f).Perm (l'.map f)) :
    (sortBy key l).map f = (sortBy key l').map f := by
  have hkeys : (l'.map key).Nodup := by
    have h := hperm.map k
    simp only [map_map, Function.comp_def, hkey] at h
    exact h.nodup_iff.mp hnodup
  have hsorted : ∀ {m : List α}, (m.map key).Nodup →
      ((sortBy key m).map f).Pairwise fun a b => k a < k b := by
    intro m hm
    rw [pairwise_map]
    simp only [hkey]
    exact pairwise_lt_sortBy hm
  refine Perm.eq_of_pairwise (fun a b _ _ hab hba => absurd hba (lt_asymm hab)) (hsorted hnodup)
    (hsorted hkeys) ?_
  have hl : (sortBy key l).Perm l := perm_insertionSort _ l
  have hl' : (sortBy key l').Perm l' := perm_insertionSort _ l'
  exact (hl.map f).trans (hperm.trans (hl'.map f).symm)

theorem sortBy_eq_of_perm {l l' : List α} (hnodup : (l.map key).Nodup) (hperm : l.Perm l') :
    sortBy key l = sortBy key l' := by
  have h := map_sortBy_eq_of_perm (f := id) (fun _ => rfl) hnodup (by simpa using hperm)
  simpa using h

theorem length_dedupBy_le : (dedupBy key l).length ≤ l.length :=
  (destutter_sublist _ _).length_le

end canonical

variable (values : List String)

/-- The sorted list of the values without repetitions. -/
def sorted : List String :=
  dedupBy id (sortBy id values)

theorem pairwise_sorted : (sorted values).Pairwise (· < ·) :=
  pairwise_dedupBy_sortBy values

theorem mem_sorted {values : List String} {v : String} : v ∈ sorted values ↔ v ∈ values := by
  have hle : (sortBy id values).Pairwise fun a b => a ≤ b := pairwise_sortBy values
  have hdedup : sorted values = (sortBy id values).dedup := hle.destutter_eq_dedup
  rw [hdedup, mem_dedup, mem_sortBy]

theorem sorted_congr {a b : List String} (h : ∀ v, v ∈ a ↔ v ∈ b) : sorted a = sorted b := by
  have hnodup : ∀ values, (sorted values).Nodup :=
    fun values => (pairwise_sorted values).imp fun h => ne_of_lt h
  have hperm : (sorted a).Perm (sorted b) :=
    (perm_ext_iff_of_nodup (hnodup a) (hnodup b)).mpr fun v => by rw [mem_sorted, mem_sorted, h]
  exact hperm.eq_of_pairwise (fun _ _ _ _ hab hba => absurd hba (lt_asymm hab)) (pairwise_sorted a)
    (pairwise_sorted b)

theorem length_sorted_le : (sorted values).length ≤ values.length :=
  (length_dedupBy_le _).trans_eq (length_sortBy values)

end Soma.Text
