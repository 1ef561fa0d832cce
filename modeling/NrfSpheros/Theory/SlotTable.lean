/-
  Fixed arrays of slots, each owned by at most one key.

  A slot has an owner, or is free, and a block of data, which outlives its owner: a slot that is
  taken again holds what the last owner left there until it is written.

  1. `SlotTable` — the keys own at most one slot each, by construction.
  2. `alloc?`, `free`, `modify`, `find?` — taking a given slot, giving a key's slot back, writing to a
     slot, and looking a key up.
  3. **Counting against indexing** (`lt_count_iff`) — the numbers below the number of owned slots are
     the owned slots exactly when these have no gap; `lt_count_iff_of_owned` — it is enough that they
     are owned.
-/
import Mathlib.Data.Fintype.Fin
import Mathlib.Order.Interval.Finset.Fin

structure SlotTable (κ α : Type) (n : Nat) where
  owner : Fin n → Option κ
  data : Fin n → α
  unique : ∀ {i j k}, owner i = some k → owner j = some k → i = j

namespace SlotTable

variable {κ α : Type} {n : Nat}

/-- All slots free, over the same data. -/
def empty (a : α) : SlotTable κ α n where
  owner _ := none
  data _ := a
  unique h := absurd h (by simp)

/-- The number of owned slots. -/
def count (t : SlotTable κ α n) : Nat := (Finset.univ.filter fun i => (t.owner i).isSome).card

/-- Write to slot `i`, owned or not. -/
def modify (t : SlotTable κ α n) (i : Fin n) (f : α → α) : SlotTable κ α n :=
  { t with data := Function.update t.data i (f (t.data i)) }

@[simp] theorem owner_modify (t : SlotTable κ α n) (i : Fin n) (f : α → α) :
    (t.modify i f).owner = t.owner := rfl

/-- The block that was changed. -/
theorem data_modify_self (t : SlotTable κ α n) (i : Fin n) (f : α → α) :
    (t.modify i f).data i = f (t.data i) := Function.update_self ..

/-- The others. -/
theorem data_modify_of_ne (t : SlotTable κ α n) {i j : Fin n} (h : j ≠ i) (f : α → α) :
    (t.modify i f).data j = t.data j := Function.update_of_ne h ..

section operations

variable [DecidableEq κ]

/-- The slot of a key. -/
def find? (t : SlotTable κ α n) (k : κ) : Option (Fin n) :=
  (List.finRange n).find? fun i => t.owner i = some k

/-- Give slot `i` to `k`, if it is free and `k` has none. -/
def alloc? (t : SlotTable κ α n) (k : κ) (i : Fin n) : Option (SlotTable κ α n) :=
  if h : t.owner i = none ∧ ∀ j, t.owner j ≠ some k then
    some
      { owner := Function.update t.owner i (some k)
        data := t.data
        unique := by
          intro a b l ha hb
          by_cases hai : a = i <;> by_cases hbi : b = i
          · rw [hai, hbi]
          · rw [hai, Function.update_self, Option.some.injEq] at ha
            rw [Function.update_of_ne hbi, ← ha] at hb
            exact absurd hb (h.2 b)
          · rw [hbi, Function.update_self, Option.some.injEq] at hb
            rw [Function.update_of_ne hai, ← hb] at ha
            exact absurd ha (h.2 a)
          · rw [Function.update_of_ne hai] at ha
            rw [Function.update_of_ne hbi] at hb
            exact t.unique ha hb }
  else none

/-- Give back the slot of `k`, if it has one. -/
def free (t : SlotTable κ α n) (k : κ) : SlotTable κ α n where
  owner i := if t.owner i = some k then none else t.owner i
  data := t.data
  unique := by
    intro a b l ha hb
    split at ha
    · cases ha
    split at hb
    · cases hb
    exact t.unique ha hb

/-- What an allocation does: a free slot is taken, and its block left as it was. -/
theorem alloc?_eq_some {t t' : SlotTable κ α n} {k : κ} {i : Fin n} (h : t.alloc? k i = some t') :
    t.owner i = none ∧ (∀ j, t.owner j ≠ some k) ∧
      t'.owner = Function.update t.owner i (some k) ∧ t'.data = t.data := by
  unfold alloc? at h
  split at h
  · rename_i hfree
    obtain rfl := Option.some.inj h
    exact ⟨hfree.1, hfree.2, rfl, rfl⟩
  · cases h

/-- An owner is found in its slot. -/
theorem find?_of_owner {t : SlotTable κ α n} {k : κ} {i : Fin n} (h : t.owner i = some k) :
    t.find? k = some i := by
  have hsome : (t.find? k).isSome := by
    rw [find?, List.find?_isSome]
    exact ⟨i, List.mem_finRange i, decide_eq_true h⟩
  obtain ⟨j, hj⟩ := Option.isSome_iff_exists.mp hsome
  have howner := List.find?_some (p := fun i => decide (t.owner i = some k)) hj
  rw [hj, t.unique (of_decide_eq_true howner) h]

end operations

/-! ## Counting against indexing -/

theorem count_le (t : SlotTable κ α n) : t.count ≤ n := by
  have h := Finset.card_filter_le (Finset.univ : Finset (Fin n)) fun i => (t.owner i).isSome
  rwa [Finset.card_univ, Fintype.card_fin] at h

/-- If the numbers below the count are owned slots at all, they are all of them. -/
theorem lt_count_iff_of_owned {t : SlotTable κ α n}
    (h : ∀ i : Fin n, i.val < t.count → (t.owner i).isSome) (i : Fin n) :
    i.val < t.count ↔ (t.owner i).isSome := by
  have hbelow : (Finset.univ.filter fun i : Fin n => i.val < t.count) ⊆
      Finset.univ.filter fun i => (t.owner i).isSome := by
    intro j hj
    exact Finset.mem_filter.mpr ⟨Finset.mem_univ j, h j (Finset.mem_filter.mp hj).2⟩
  have hcard : (Finset.univ.filter fun i => (t.owner i).isSome).card ≤
      (Finset.univ.filter fun i : Fin n => i.val < t.count).card := by
    rw [Fin.card_filter_val_lt, Nat.min_eq_right t.count_le]
    exact Nat.le_refl _
  refine ⟨h i, fun hi => ?_⟩
  have hmem : i ∈ Finset.univ.filter fun i => (t.owner i).isSome :=
    Finset.mem_filter.mpr ⟨Finset.mem_univ i, hi⟩
  rw [← Finset.eq_of_subset_of_card_le hbelow hcard] at hmem
  exact (Finset.mem_filter.mp hmem).2

/-- **The numbers below the count are the owned slots exactly when these have no gap.** -/
theorem lt_count_iff {t : SlotTable κ α n} :
    (∀ i : Fin n, i.val < t.count ↔ (t.owner i).isSome) ↔
      ∀ i j : Fin n, j < i → (t.owner i).isSome → (t.owner j).isSome := by
  constructor
  · intro h i j hji hi
    exact (h j).mp (Nat.lt_trans hji ((h i).mpr hi))
  · intro h i
    constructor
    · intro hlt
      by_contra hfree
      -- every owned slot lies below the free slot `i`
      have hbelow : (Finset.univ.filter fun j => (t.owner j).isSome) ⊆ Finset.Iio i := by
        intro j hj
        have howned := (Finset.mem_filter.mp hj).2
        rw [Finset.mem_Iio]
        by_contra hge
        rcases lt_or_eq_of_le (not_lt.mp hge) with hij | rfl
        · exact hfree (h j i hij howned)
        · exact hfree howned
      have hcard := Finset.card_le_card hbelow
      rw [Fin.card_Iio] at hcard
      exact absurd hlt (Nat.not_lt.mpr hcard)
    · intro howned
      have hbelow : Finset.Iic i ⊆ Finset.univ.filter fun j => (t.owner j).isSome := by
        intro j hj
        refine Finset.mem_filter.mpr ⟨Finset.mem_univ j, ?_⟩
        rcases lt_or_eq_of_le (Finset.mem_Iic.mp hj) with hji | rfl
        · exact h i j hji howned
        · exact howned
      have hcard := Finset.card_le_card hbelow
      rw [Fin.card_Iic] at hcard
      exact hcard

end SlotTable
