/-
  Total correctness of programs with a state and exceptions.

  `Ends x s Q`: from the state `s` the program `x` ends without an exception, in a result and a state
  that meet `Q`.

  1. One rule for each construct, as an equivalence, so that `simp` executes a program.
  2. `Ends.mono` — a weaker postcondition; `Ends.both` — two of one run.
  3. `Ends.forM` — a loop over a list keeps what its body keeps, and ends if its body does;
     `Ends.forM_range` — a loop that counts, with an invariant that knows the count.
-/
import Mathlib.Logic.Basic

variable {σ ε α β : Type}

/-- `x` ends from `s`, with `Q` of its result and its state. -/
def Ends (x : StateT σ (Except ε) α) (s : σ) (Q : α → σ → Prop) : Prop :=
  ∃ a s', x s = .ok (a, s') ∧ Q a s'

namespace Ends

variable {s : σ} {Q R : α → σ → Prop}

/-- A run that comes to its end has one result and one state. -/
theorem of_ok {x : StateT σ (Except ε) α} {a : α} {s' : σ} (h : x s = .ok (a, s')) :
    Ends x s Q ↔ Q a s' := by
  constructor
  · rintro ⟨b, t, heq, hq⟩
    rw [h] at heq
    cases heq
    exact hq
  · exact fun hq => ⟨a, s', h, hq⟩

/-- A run that throws does not end. -/
theorem of_error {x : StateT σ (Except ε) α} {e : ε} (h : x s = .error e) : ¬ Ends x s Q := by
  rintro ⟨b, t, heq, -⟩
  rw [h] at heq
  cases heq

/-- A program that does not end has thrown. -/
theorem exists_error {x : StateT σ (Except ε) α} (h : ¬ Ends x s fun _ _ => True) :
    ∃ e, x s = .error e := by
  cases hx : x s with
  | ok r => exact absurd ((of_ok hx).mpr trivial) h
  | error e => exact ⟨e, rfl⟩

/-- `pure` ends where it is. -/
@[simp] theorem pure_iff (a : α) : Ends (pure a : StateT σ (Except ε) α) s Q ↔ Q a s :=
  of_ok rfl

/-- `get` gives the state. -/
@[simp] theorem get_iff {Q : σ → σ → Prop} :
    Ends (get : StateT σ (Except ε) σ) s Q ↔ Q s s :=
  of_ok rfl

/-- `modify` changes it. -/
@[simp] theorem modify_iff (f : σ → σ) {Q : PUnit → σ → Prop} :
    Ends (modify f : StateT σ (Except ε) PUnit) s Q ↔ Q ⟨⟩ (f s) :=
  of_ok rfl

/-- A computation without a state that has not thrown. -/
theorem lift_iff {x : Except ε α} {a : α} (h : x = .ok a) :
    Ends (liftM x : StateT σ (Except ε) α) s Q ↔ Q a s :=
  of_ok (by rw [h]; rfl)

/-- `throw` does not end. -/
@[simp] theorem throw_iff (e : ε) : ¬ Ends (throw e : StateT σ (Except ε) α) s Q :=
  of_error rfl

/-- One program after the other: the second is to meet `Q` from where the first ends. -/
@[simp] theorem bind_iff (x : StateT σ (Except ε) α) (f : α → StateT σ (Except ε) β)
    {Q : β → σ → Prop} :
    Ends (x >>= f) s Q ↔ Ends x s fun a s' => Ends (f a) s' Q := by
  cases hx : x s with
  | ok r =>
    have hbind : (x >>= f) s = f r.1 r.2 := by
      show (x s >>= fun p => f p.1 p.2) = _
      rw [hx]
      rfl
    rw [of_ok (x := x) hx]
    unfold Ends
    rw [hbind]
  | error e =>
    have hbind : (x >>= f) s = .error e := by
      show (x s >>= fun p => f p.1 p.2) = _
      rw [hx]
      rfl
    exact iff_of_false (of_error hbind) (of_error hx)

/-- A weaker postcondition. -/
theorem mono {x : StateT σ (Except ε) α} (h : Ends x s Q) (hQR : ∀ a s', Q a s' → R a s') :
    Ends x s R := by
  obtain ⟨a, s', hx, hq⟩ := h
  exact ⟨a, s', hx, hQR a s' hq⟩

/-- Two postconditions are met by one result. -/
theorem both {x : StateT σ (Except ε) α} (h : Ends x s Q) (h' : Ends x s R) :
    ∃ a s', Q a s' ∧ R a s' := by
  obtain ⟨a, s', hx, hq⟩ := h
  exact ⟨a, s', hq, (of_ok hx).mp h'⟩

/-- **Loops.** -/
theorem forM {I : σ → Prop} {f : α → StateT σ (Except ε) PUnit} {l : List α}
    (hbody : ∀ a ∈ l, ∀ s, I s → Ends (f a) s fun _ => I) (hs : I s) :
    Ends (l.forM f) s fun _ => I := by
  induction l generalizing s with
  | nil => exact (pure_iff (s := s) PUnit.unit).mpr hs
  | cons a l ih =>
    show Ends (f a >>= fun _ => l.forM f) s fun _ => I
    rw [bind_iff]
    refine (hbody a List.mem_cons_self s hs).mono fun _ s' hs' => ?_
    exact ih (fun b hb => hbody b (List.mem_cons_of_mem a hb)) hs'

/-- **Counting loops.**  The invariant may say how far the loop has come. -/
theorem forM_range {I : Nat → σ → Prop} {f : Nat → StateT σ (Except ε) PUnit} {n : Nat}
    (hbody : ∀ i, i < n → ∀ s, I i s → Ends (f i) s fun _ => I (i + 1)) (hs : I 0 s) :
    Ends ((List.range n).forM f) s fun _ => I n := by
  -- the last `k` rounds, from the one with the number `i` on
  have hrest : ∀ k i, i + k = n → ∀ s, I i s → Ends ((List.range' i k).forM f) s fun _ => I n := by
    intro k
    induction k with
    | zero =>
      rintro i rfl s hi
      exact (pure_iff (s := s) PUnit.unit).mpr hi
    | succ k ih =>
      intro i hik s hi
      show Ends (f i >>= fun _ => (List.range' (i + 1) k).forM f) s fun _ => I n
      rw [bind_iff]
      exact (hbody i (by omega) s hi).mono fun _ t ht => ih (i + 1) (by omega) t ht
  rw [List.range_eq_range']
  exact hrest n 0 (Nat.zero_add n) s hs

end Ends
