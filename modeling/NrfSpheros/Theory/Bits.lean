/-
  The bits of a byte.

  1. `bit b j` is bit `j` of `b`.  What the operations do to it, and that the bits determine the byte
     (`ext_bit`).
  2. A byte put together from parts with `|||` has a bit if one of the parts has it (`bit_foldl_or`),
     and if the parts are single bits these are its bits (`bit_gather_iff`).
  3. **A mask and values** (`pack`): some of the keys have a value.  The mask says which, and the values
     follow in the order of their bits, so that each key finds its own again (`lookup_unpack`).
-/
import Mathlib.Data.List.Sort
import Mathlib.Data.Nat.Bitwise

namespace Bits

/-- Bit `j` of `b`. -/
def bit (b : UInt8) (j : Nat) : Bool := b.toNat.testBit j

theorem bit_of_le (b : UInt8) {j : Nat} (h : 8 ≤ j) : bit b j = false := by
  apply Nat.testBit_lt_two_pow
  exact Nat.lt_of_lt_of_le b.toNat_lt (Nat.pow_le_pow_right (by decide) h)

@[simp] theorem bit_zero (j : Nat) : bit 0 j = false := Nat.zero_testBit j

theorem bit_one (j : Nat) : bit 1 j = decide (j = 0) := by
  show Nat.testBit 1 j = _
  cases j with
  | zero => rfl
  | succ j => simp [Nat.testBit_succ]

/-- Bits of a conjunction. -/
@[simp] theorem bit_and (a b : UInt8) (j : Nat) : bit (a &&& b) j = (bit a j && bit b j) := by
  unfold bit
  rw [UInt8.toNat_and, Nat.testBit_and]

/-- Bits of a disjunction. -/
@[simp] theorem bit_or (a b : UInt8) (j : Nat) : bit (a ||| b) j = (bit a j || bit b j) := by
  unfold bit
  rw [UInt8.toNat_or, Nat.testBit_or]

/-- A shift to the left moves the bits up. -/
theorem bit_shiftLeft (a : UInt8) {k : UInt8} (hk : k.toNat < 8) (j : Nat) :
    bit (a <<< k) j = (decide (j < 8 ∧ k.toNat ≤ j) && bit a (j - k.toNat)) := by
  unfold bit
  rw [UInt8.toNat_shiftLeft, Nat.mod_eq_of_lt hk, Nat.testBit_mod_two_pow, Nat.testBit_shiftLeft]
  by_cases hj : j < 8 <;> by_cases hkj : k.toNat ≤ j <;> simp [hj, hkj]

/-- A shift to the right moves them down. -/
theorem bit_shiftRight (a : UInt8) {k : UInt8} (hk : k.toNat < 8) (j : Nat) :
    bit (a >>> k) j = bit a (j + k.toNat) := by
  unfold bit
  rw [UInt8.toNat_shiftRight, Nat.mod_eq_of_lt hk, Nat.testBit_shiftRight, Nat.add_comm]

/-- The remainder by a power of two keeps the low bits. -/
theorem bit_mod (a : UInt8) {m : UInt8} {k : Nat} (hm : m.toNat = 2 ^ k) (j : Nat) :
    bit (a % m) j = (decide (j < k) && bit a j) := by
  unfold bit
  rw [UInt8.toNat_mod, hm, Nat.testBit_mod_two_pow]

/-- **The bits determine the byte.** -/
theorem ext_bit {a b : UInt8} (h : ∀ j, j < 8 → bit a j = bit b j) : a = b := by
  apply UInt8.toNat_inj.mp
  apply Nat.eq_of_testBit_eq
  intro j
  rcases Nat.lt_or_ge j 8 with hj | hj
  · exact h j hj
  · exact (bit_of_le a hj).trans (bit_of_le b hj).symm

/-- One bit of `a`, moved to place `i`. -/
theorem bit_pick (a : UInt8) {k i : UInt8} (hk : k.toNat < 8) (hi : i.toNat < 8) (j : Nat) :
    bit (((a &&& 1 <<< k) >>> k) <<< i) j = (decide (j = i.toNat) && bit a k.toNat) := by
  rw [bit_shiftLeft _ hi, bit_shiftRight _ hk, bit_and, bit_shiftLeft _ hk, bit_one,
    Nat.add_sub_cancel]
  by_cases hj : j = i.toNat
  · simp [hj, hi, hk]
  · by_cases hle : i.toNat ≤ j
    · have hne : ¬ j - i.toNat = 0 := by omega
      simp [hj, hne]
    · simp [hj, hle]

/-- A byte put together from parts. -/
theorem bit_foldl_or {α : Type} (f : α → UInt8) (l : List α) (acc : UInt8) (j : Nat) :
    bit (l.foldl (fun acc x => acc ||| f x) acc) j = (bit acc j || l.any fun x => bit (f x) j) := by
  induction l generalizing acc with
  | nil => simp
  | cons x l ih => rw [List.foldl_cons, ih, bit_or, List.any_cons, Bool.or_assoc]

/-- A byte that gathers bits, each at a place of its own. -/
theorem bit_gather_iff {n : Nat} {part : Fin n → UInt8} {place : Fin n → Nat} {f : Fin n → Bool}
    {j : Nat} (hpart : ∀ k, bit (part k) j = (decide (j = place k) && f k)) :
    bit ((List.finRange n).foldl (fun acc k => acc ||| part k) 0) j = true ↔
      ∃ k, j = place k ∧ f k = true := by
  rw [bit_foldl_or, bit_zero, Bool.false_or, List.any_eq_true]
  constructor
  · rintro ⟨k, -, hk⟩
    rw [hpart, Bool.and_eq_true, decide_eq_true_eq] at hk
    exact ⟨k, hk⟩
  · rintro ⟨k, hk⟩
    refine ⟨k, List.mem_finRange k, ?_⟩
    rw [hpart, Bool.and_eq_true, decide_eq_true_eq]
    exact hk

/-! ## A mask and values -/

/-- The set bits, the lowest first. -/
def setBits (b : UInt8) : List Nat := (List.range 8).filter fun j => bit b j

theorem mem_setBits {b : UInt8} {j : Nat} : j ∈ setBits b ↔ bit b j = true := by
  unfold setBits
  rw [List.mem_filter, List.mem_range]
  constructor
  · exact And.right
  · intro h
    refine ⟨Nat.lt_of_not_le fun hle => ?_, h⟩
    rw [bit_of_le b hle] at h
    exact Bool.false_ne_true h

section Packing

variable {K V : Type} (place : K → UInt8) (f : K → Option V)

/-- A key with a value sets its bit and adds the value. -/
def pack (r : UInt8 × List V) (k : K) : UInt8 × List V :=
  match f k with
  | none => r
  | some v => (r.1 ||| 1 <<< place k, r.2 ++ [v])

/-- The values, each with the set bit it stands at. -/
def unpack (r : UInt8 × List V) : List (Nat × V) := (setBits r.1).zip r.2

/-- One bit alone. -/
theorem bit_one_shiftLeft {i : UInt8} (hi : i.toNat < 8) (j : Nat) :
    bit (1 <<< i) j = decide (j = i.toNat) := by
  rw [bit_shiftLeft _ hi, bit_one, ← Bool.decide_and, decide_eq_decide]
  omega

variable {place f}

theorem values_foldl_pack (l : List K) (r : UInt8 × List V) :
    (l.foldl (pack place f) r).2 = r.2 ++ l.filterMap f := by
  induction l generalizing r with
  | nil => simp
  | cons k l ih =>
    rw [List.foldl_cons, ih]
    cases hk : f k with
    | none => simp [pack, hk]
    | some v => simp [pack, hk]

/-- The mask has the bits of the keys with a value. -/
theorem bit_foldl_pack (hplace : ∀ k, (place k).toNat < 8) (l : List K) (r : UInt8 × List V)
    (j : Nat) : bit (l.foldl (pack place f) r).1 j = true ↔
      bit r.1 j = true ∨ ∃ k ∈ l, (f k).isSome = true ∧ j = (place k).toNat := by
  induction l generalizing r with
  | nil => simp
  | cons k l ih =>
    rw [List.foldl_cons, ih, List.exists_mem_cons_iff, ← or_assoc]
    apply or_congr_left
    cases hk : f k with
    | none => simp [pack, hk]
    | some v => simp [pack, hk, bit_one_shiftLeft (hplace k)]

/-- Keys in the order of their bits: the set bits are theirs, in that order. -/
theorem setBits_foldl_pack (hplace : ∀ k, (place k).toNat < 8) {l : List K}
    (hl : l.Pairwise fun k k' => (place k).toNat < (place k').toNat) :
    setBits (l.foldl (pack place f) (0, [])).1 =
      (l.filter fun k => (f k).isSome).map fun k => (place k).toNat := by
  have hbits : (setBits (l.foldl (pack place f) (0, [])).1).Pairwise (· < ·) :=
    List.pairwise_lt_range.filter _
  have hkeys : ((l.filter fun k => (f k).isSome).map fun k => (place k).toNat).Pairwise (· < ·) :=
    List.pairwise_map.mpr (hl.filter _)
  apply hbits.eq_of_mem_iff hkeys
  intro j
  rw [mem_setBits, bit_foldl_pack hplace, bit_zero, List.mem_map]
  constructor
  · rintro (h | ⟨k, hk, hsome, rfl⟩)
    · exact absurd h Bool.false_ne_true
    · exact ⟨k, List.mem_filter.mpr ⟨hk, hsome⟩, rfl⟩
  · rintro ⟨k, hk, rfl⟩
    obtain ⟨hmem, hsome⟩ := List.mem_filter.mp hk
    exact Or.inr ⟨k, hmem, hsome, rfl⟩

/-- There are as many values as set bits. -/
theorem length_values_pack (hplace : ∀ k, (place k).toNat < 8) {l : List K}
    (hl : l.Pairwise fun k k' => (place k).toNat < (place k').toNat) :
    (l.foldl (pack place f) (0, [])).2.length =
      (setBits (l.foldl (pack place f) (0, [])).1).length := by
  rw [setBits_foldl_pack hplace hl, values_foldl_pack, List.nil_append, List.length_map]
  induction l with
  | nil => rfl
  | cons k l ih =>
    have hrest := ih hl.of_cons
    cases hk : f k with
    | none => simp [hk, hrest]
    | some v => simp [hk, hrest]

/-- Where the keys with a value stand in the line, their values stand. -/
theorem zip_filterMap (key : K → Nat) (l : List K) :
    ((l.filter fun k => (f k).isSome).map key).zip (l.filterMap f) =
      l.filterMap fun k => (f k).map fun v => (key k, v) := by
  induction l with
  | nil => rfl
  | cons k l ih =>
    cases hk : f k with
    | none => simp [hk, ih]
    | some v => simp [hk, ih]

theorem lookup_filterMap {key : K → Nat} (hkey : Function.Injective key) {l : List K} {k : K}
    (hk : (f k).isSome = true → k ∈ l) :
    (l.filterMap fun k => (f k).map fun v => (key k, v)).lookup (key k) = f k := by
  induction l with
  | nil =>
    cases hv : f k with
    | none => rfl
    | some v => exact absurd (hk (by rw [hv]; rfl)) List.not_mem_nil
  | cons k' l ih =>
    by_cases heq : k = k'
    · subst heq
      cases hv : f k with
      | none =>
        rw [hv] at ih
        rw [List.filterMap_cons_none (by rw [hv]; rfl)]
        exact ih fun h => absurd h Bool.false_ne_true
      | some v => simp [hv]
    · have hrest := ih fun h => (List.mem_cons.mp (hk h)).resolve_left heq
      have hne : (key k == key k') = false := by
        rw [beq_eq_false_iff_ne]
        exact fun h => heq (hkey h)
      cases hv : f k' with
      | none => rw [List.filterMap_cons_none (by rw [hv]; rfl), hrest]
      | some v =>
        rw [List.filterMap_cons_some (b := (key k', v)) (by rw [hv]; rfl), List.lookup_cons, hne]
        exact hrest

/-- **Each key finds its own value.** -/
theorem lookup_unpack (hplace : ∀ k, (place k).toNat < 8)
    (hkey : Function.Injective fun k => (place k).toNat) {l : List K}
    (hl : l.Pairwise fun k k' => (place k).toNat < (place k').toNat) {k : K} (hk : k ∈ l) :
    (unpack (l.foldl (pack place f) (0, []))).lookup (place k).toNat = f k := by
  unfold unpack
  rw [setBits_foldl_pack hplace hl, values_foldl_pack, List.nil_append, zip_filterMap]
  exact lookup_filterMap hkey fun _ => hk

end Packing

end Bits
