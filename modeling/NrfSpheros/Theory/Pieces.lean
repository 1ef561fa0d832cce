/-
  Cutting a list into pieces of one length.

  `pieces n l` are the consecutive pieces of `l` of length `n`, the last one shorter if need be.

  1. They make up the list (`flatten_pieces`), every one but the last has length `n`, and the last has
     length between 1 and `n` (`pieces_eq_concat`).
  2. `sendAll` — handing the pieces on one after the other, with a state.  The outputs come from the
     pieces in order (`map_sendAll`).
  3. Elements chosen from a list by a condition that does not come back once it fails are the first
     ones of it (`filter_initial`).
  4. Of numbered lists one after the other, a condition that holds in one of them only chooses that
     one (`filter_flatMap_range`).
-/
import Mathlib.Data.List.Infix

namespace Pieces

variable {α β σ : Type}

/-- The number of pieces of `len` elements. -/
def count (n len : Nat) : Nat := (len + n - 1) / n

/-- The pieces of `l`. -/
def pieces (n : Nat) (l : List α) : List (List α) :=
  (List.range (count n l.length)).map fun k => (l.drop (n * k)).take n

@[simp] theorem length_pieces (n : Nat) (l : List α) :
    (pieces n l).length = count n l.length := by
  simp [pieces]

@[simp] theorem pieces_nil {n : Nat} (hn : 0 < n) : pieces n ([] : List α) = [] := by
  have hcount : count n 0 = 0 := Nat.div_eq_of_lt (by omega)
  rw [pieces, List.length_nil, hcount]
  rfl

theorem count_of_pos {n len : Nat} (hn : 0 < n) (h : 0 < len) :
    count n len = count n (len - n) + 1 := by
  unfold count
  rcases Nat.lt_or_ge len n with hlt | hge
  · have hone : (len + n - 1) / n = 1 := Nat.div_eq_of_lt_le (by omega) (by omega)
    have hzero : (len - n + n - 1) / n = 0 := Nat.div_eq_of_lt (by omega)
    rw [hone, hzero]
  · have hsplit : len + n - 1 = len - n + n - 1 + n := by omega
    rw [hsplit, Nat.add_div_right _ hn]

/-- The first piece, and the pieces of what is left. -/
theorem pieces_of_ne_nil {n : Nat} (hn : 0 < n) {l : List α} (h : l ≠ []) :
    pieces n l = l.take n :: pieces n (l.drop n) := by
  have hpos : 0 < l.length := List.length_pos_iff.mpr h
  unfold pieces
  rw [count_of_pos hn hpos, List.length_drop, List.range_succ_eq_map, List.map_cons, List.map_map,
    Nat.mul_zero, List.drop_zero]
  congr 1
  refine List.map_congr_left fun k _ => ?_
  show (l.drop (n * (k + 1))).take n = ((l.drop n).drop (n * k)).take n
  rw [List.drop_drop, Nat.mul_succ, Nat.add_comm]

/-- What holds of the empty list, and of a list if it holds behind its first piece. -/
theorem drop_induction {n : Nat} (hn : 0 < n) {P : List α → Prop} (hnil : P [])
    (hdrop : ∀ l, l ≠ [] → P (l.drop n) → P l) (l : List α) : P l := by
  induction hk : l.length using Nat.strongRecOn generalizing l with
  | ind k ih =>
    by_cases h : l = []
    · rw [h]
      exact hnil
    · have hpos : 0 < l.length := List.length_pos_iff.mpr h
      have hrest : (l.drop n).length = l.length - n := List.length_drop
      exact hdrop l h (ih _ (by omega) (l.drop n) hrest)

/-- **The pieces make up the list.** -/
theorem flatten_pieces {n : Nat} (hn : 0 < n) (l : List α) : (pieces n l).flatten = l := by
  induction l using drop_induction hn with
  | hnil =>
    rw [pieces_nil hn]
    rfl
  | hdrop l h ih =>
    rw [pieces_of_ne_nil hn h, List.flatten_cons, ih]
    exact List.take_append_drop n l

/-- Every piece but the last is full, and the last is not empty. -/
theorem pieces_eq_concat {n : Nat} (hn : 0 < n) {l : List α} (h : l ≠ []) :
    ∃ full last, pieces n l = full ++ [last] ∧ (∀ piece ∈ full, piece.length = n) ∧
      0 < last.length ∧ last.length ≤ n := by
  induction l using drop_induction hn with
  | hnil => exact absurd rfl h
  | hdrop l h ih =>
    have hpos : 0 < l.length := List.length_pos_iff.mpr h
    rw [pieces_of_ne_nil hn h]
    by_cases hrest : l.drop n = []
    · -- the list is one piece
      refine ⟨[], l.take n, by rw [hrest, pieces_nil hn]; rfl, by simp, ?_, ?_⟩
      · rw [List.length_take]
        omega
      · exact List.length_take_le n l
    · have hlt : n < l.length := Nat.lt_of_not_le fun hle => hrest (List.drop_eq_nil_iff.mpr hle)
      obtain ⟨full, last, heq, hfull, hlast⟩ := ih hrest
      refine ⟨l.take n :: full, last, by rw [heq]; rfl, ?_, hlast⟩
      refine List.forall_mem_cons.mpr ⟨?_, hfull⟩
      rw [List.length_take]
      omega

/-! ## Handing the pieces on -/

/-- Every piece is handed to `send`, with the number of elements before it. -/
def sendAll (send : σ → Nat → List α → β × σ) : σ → Nat → List (List α) → List β × σ
  | s, _, [] => ([], s)
  | s, offset, piece :: rest =>
    let r := send s offset piece
    let t := sendAll send r.2 (offset + piece.length) rest
    (r.1 :: t.1, t.2)

variable {send : σ → Nat → List α → β × σ}

/-- What an output keeps of its piece. -/
theorem map_sendAll {γ : Type} {f : β → γ} {g : List α → γ}
    (hsend : ∀ s offset piece, f (send s offset piece).1 = g piece) (ps : List (List α)) (s : σ)
    (offset : Nat) : (sendAll send s offset ps).1.map f = ps.map g := by
  induction ps generalizing s offset with
  | nil => rfl
  | cons piece ps ih =>
    show f (send s offset piece).1 :: _ = _
    rw [hsend, ih]
    rfl

/-- What every send keeps, they all keep; and the outputs are those of sends from such states. -/
theorem sendAll_invariant {I : σ → Prop} {J : β → Prop}
    (hsend : ∀ s offset piece, I s → J (send s offset piece).1 ∧ I (send s offset piece).2)
    (ps : List (List α)) {s : σ} (hs : I s) (offset : Nat) :
    (∀ b ∈ (sendAll send s offset ps).1, J b) ∧ I (sendAll send s offset ps).2 := by
  induction ps generalizing s offset with
  | nil => exact ⟨fun b hb => absurd hb List.not_mem_nil, hs⟩
  | cons piece ps ih =>
    obtain ⟨hout, hnext⟩ := hsend s offset piece hs
    obtain ⟨houts, hend⟩ := ih hnext (offset + piece.length)
    exact ⟨List.forall_mem_cons.mpr ⟨hout, houts⟩, hend⟩

/-! ## First ones -/

/-- If what comes after an element without `p` is without it as well, the elements with `p` are the
    first ones. -/
theorem filter_initial {p : α → Bool} {l : List α}
    (h : l.Pairwise fun a b => p a = false → p b = false) : l.filter p <+: l := by
  induction l with
  | nil => exact List.prefix_rfl
  | cons a l ih =>
    obtain ⟨hhead, htail⟩ := List.pairwise_cons.mp h
    cases ha : p a with
    | true =>
      rw [List.filter_cons_of_pos ha]
      exact List.cons_prefix_cons.mpr ⟨rfl, ih htail⟩
    | false =>
      have hnone : (a :: l).filter p = [] := by
        refine List.filter_eq_nil_iff.mpr (List.forall_mem_cons.mpr ⟨by simp [ha], fun b hb => ?_⟩)
        rw [hhead b hb ha]
        exact Bool.false_ne_true
      rw [hnone]
      exact List.nil_prefix

/-- The same of the numbers below `n`. -/
theorem first_iff {p : Nat → Prop} {n : Nat} :
    (∀ j k, j < k → k < n → ¬ p j → ¬ p k) ↔ ∃ m, ∀ k, k < n → (p k ↔ k < m) := by
  constructor
  · intro h
    induction n with
    | zero => exact ⟨0, fun k hk => absurd hk (Nat.not_lt_zero k)⟩
    | succ n ih =>
      obtain ⟨m, hm⟩ := ih fun j k hjk hk => h j k hjk (Nat.lt_succ_of_lt hk)
      by_cases hn : p n
      · -- what is before a number with `p` has `p`
        have hall : ∀ k, k < n → p k := fun k hk =>
          by_contra fun hp => h k n hk (Nat.lt_succ_self n) hp hn
        refine ⟨n + 1, fun k hk => iff_of_true ?_ hk⟩
        rcases Nat.lt_or_eq_of_le (Nat.le_of_lt_succ hk) with hlt | rfl
        · exact hall k hlt
        · exact hn
      · refine ⟨min m n, fun k hk => ?_⟩
        rcases Nat.lt_or_eq_of_le (Nat.le_of_lt_succ hk) with hlt | rfl
        · rw [hm k hlt]
          omega
        · exact iff_of_false hn (by omega)
  · rintro ⟨m, hm⟩ j k hjk hk hj
    rw [hm j (by omega)] at hj
    rw [hm k hk]
    omega

/-! ## One of several lists -/

theorem filter_flatMap_range {f : Nat → List α} {p : α → Bool} {i : Nat}
    (hown : ∀ a ∈ f i, p a = true) {n : Nat} (hi : i < n)
    (hother : ∀ j < n, j ≠ i → ∀ a ∈ f j, p a = false) :
    ((List.range n).flatMap f).filter p = f i := by
  induction n with
  | zero => exact absurd hi (Nat.not_lt_zero i)
  | succ n ih =>
    rw [List.range_succ, List.flatMap_append, List.flatMap_singleton, List.filter_append]
    by_cases hlast : i = n
    · subst hlast
      have hnone : ((List.range i).flatMap f).filter p = [] := by
        refine List.filter_eq_nil_iff.mpr fun a ha => ?_
        obtain ⟨j, hj, ha⟩ := List.mem_flatMap.mp ha
        have hlt := List.mem_range.mp hj
        rw [hother j (Nat.lt_succ_of_lt hlt) (Nat.ne_of_lt hlt) a ha]
        exact Bool.false_ne_true
      rw [hnone, List.filter_eq_self.mpr hown]
      rfl
    · have hlt : i < n := by omega
      have hnone : (f n).filter p = [] := by
        refine List.filter_eq_nil_iff.mpr fun a ha => ?_
        rw [hother n (Nat.lt_succ_self n) (Ne.symm hlast) a ha]
        exact Bool.false_ne_true
      rw [ih hlt fun j hj => hother j (Nat.lt_succ_of_lt hj), hnone, List.append_nil]

end Pieces
