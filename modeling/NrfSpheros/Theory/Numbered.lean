/-
  A store whose entries are numbered as they come.

  `num i` is the key of the `i`-th entry; below a limit the keys are different.  `Holds num limit store
  xs`: the store has the entries `xs`, the `i`-th under `num i`, and nothing under the keys after them.

  1. The next entry under the next key (`Holds.put`).
  2. A range of keys looked up (`Holds.mapM_range'`).
-/
import Mathlib.Data.List.Basic
import Mathlib.Logic.Function.Basic

namespace Numbered

variable {κ α : Type} {num : Nat → κ} {limit : Nat} {store : κ → Option α} {xs : List α}

/-- The numbers below the limit are not used twice. -/
def Distinct (num : Nat → κ) (limit : Nat) : Prop :=
  ∀ i j, i < limit → j < limit → num i = num j → i = j

def Holds (num : Nat → κ) (limit : Nat) (store : κ → Option α) (xs : List α) : Prop :=
  ∀ i, i < limit → store (num i) = xs[i]?

theorem holds_nil : Holds num limit (fun _ => (none : Option α)) [] := fun _ _ => rfl

/-- **The next entry.** -/
theorem Holds.put [DecidableEq κ] (h : Holds num limit store xs) (hnum : Distinct num limit)
    (hlt : xs.length < limit) (x : α) :
    Holds num limit (Function.update store (num xs.length) (some x)) (xs ++ [x]) := by
  intro i hi
  by_cases hlast : i = xs.length
  · subst hlast
    rw [Function.update_self, List.getElem?_concat_length]
  · rw [Function.update_of_ne fun heq => hlast (hnum i xs.length hi hlt heq), h i hi]
    rcases Nat.lt_or_gt_of_ne hlast with hbefore | hafter
    · rw [List.getElem?_append_left hbefore]
    · rw [List.getElem?_eq_none (Nat.le_of_lt hafter), List.getElem?_eq_none]
      rw [List.length_append, List.length_singleton]
      omega

/-- **Keys one after another** have the entries one after another. -/
theorem Holds.mapM_range' (h : Holds num limit store xs) {base n : Nat}
    (hn : base + n ≤ xs.length) (hlimit : xs.length ≤ limit) :
    ((List.range' base n).map num).mapM store = some ((xs.drop base).take n) := by
  induction n generalizing base with
  | zero => rfl
  | succ n ih =>
    have hbase : base < xs.length := by omega
    have hfirst : store (num base) = some xs[base] := by
      rw [h base (by omega), List.getElem?_eq_getElem hbase]
    have hrest : ((List.range' (base + 1) n).map num).mapM store = some ((xs.drop (base + 1)).take n) :=
      ih (by omega)
    rw [List.range'_succ, List.map_cons, List.mapM_cons, hfirst, hrest,
      List.drop_eq_getElem_cons hbase]
    rfl

/-- An entry keeps its place when more come after it. -/
theorem take_drop_append {base n : Nat} (hn : base + n ≤ xs.length) (ys : List α) :
    ((xs ++ ys).drop base).take n = (xs.drop base).take n := by
  rw [List.drop_append_of_le_length (by omega), List.take_append_of_le_length]
  rw [List.length_drop]
  omega

end Numbered
