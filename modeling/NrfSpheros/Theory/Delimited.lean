/-
  Words that end in a delimiter.

  `Delimited d w` — the word `w` ends in `d` and has no other `d`.  Such words need neither lengths nor
  separators when they are sent one after the other: `cut d` cuts a stream after each `d`, without a
  look at the words, and `cut_flatten` says that it finds them.  So no other list of delimited words
  makes the same stream (`flatten_inj`), and the initial pieces of the stream that are whole words are
  those that end in `d` (`whole_iff`).
-/
import Mathlib.Data.List.Basic

variable {α : Type}

/-- `w` ends in `d` and has no other `d`. -/
def Delimited (d : α) (w : List α) : Prop := ∃ xs, w = xs ++ [d] ∧ d ∉ xs

namespace Delimited

/-! ## The places to cut -/

section

variable {d : α}

theorem getLast?_eq {w : List α} (hw : Delimited d w) : w.getLast? = some d := by
  obtain ⟨xs, rfl, -⟩ := hw
  exact List.getLast?_concat

/-- No proper piece of a word ends in `d`. -/
theorem eq_of_prefix {w l : List α} (hw : Delimited d w) (hl : l <+: w)
    (hend : l.getLast? = some d) : l = w := by
  obtain ⟨xs, rfl, hxs⟩ := hw
  rcases List.prefix_concat_iff.mp hl with h | h
  · exact h
  · exact absurd (h.subset (List.mem_of_getLast? hend)) hxs

theorem getLast?_flatten {ws : List (List α)} (hws : ∀ w ∈ ws, Delimited d w) :
    ws.flatten = [] ∨ ws.flatten.getLast? = some d := by
  rcases List.eq_nil_or_concat ws with rfl | ⟨us, w, rfl⟩
  · exact Or.inl rfl
  · have hw := (hws w (by simp)).getLast?_eq
    right
    rw [List.concat_eq_append, List.flatten_append, List.flatten_singleton, List.getLast?_append, hw]
    rfl

/-- A piece that ends in `d` is made of whole words. -/
theorem exists_take {ws : List (List α)} (hws : ∀ w ∈ ws, Delimited d w) {l : List α}
    (hl : l <+: ws.flatten) (hend : l.getLast? = some d) : ∃ k, l = (ws.take k).flatten := by
  induction ws generalizing l with
  | nil =>
    rw [List.flatten_nil, List.prefix_nil] at hl
    rw [hl] at hend
    cases hend
  | cons w ws ih =>
    obtain ⟨hw, hrest⟩ := List.forall_mem_cons.mp hws
    rw [List.flatten_cons] at hl
    rcases List.prefix_or_prefix_of_prefix hl (List.prefix_append w ws.flatten) with h | ⟨m, rfl⟩
    · refine ⟨1, ?_⟩
      rw [hw.eq_of_prefix h hend, List.take_succ_cons, List.take_zero, List.flatten_singleton]
    · have hm : m <+: ws.flatten := (List.prefix_append_right_inj w).mp hl
      by_cases hnil : m = []
      · refine ⟨1, ?_⟩
        rw [hnil, List.append_nil, List.take_succ_cons, List.take_zero, List.flatten_singleton]
      · rw [List.getLast?_append_of_ne_nil w hnil] at hend
        obtain ⟨k, rfl⟩ := ih hrest hm hend
        exact ⟨k + 1, rfl⟩

/-- **The places to cut** are the beginning and every place after a `d`: an initial piece of the
    stream is made of whole words exactly there. -/
theorem whole_iff {ws : List (List α)} (hws : ∀ w ∈ ws, Delimited d w) {l : List α}
    (hl : l <+: ws.flatten) :
    (∃ k, l = (ws.take k).flatten) ↔ l = [] ∨ l.getLast? = some d := by
  constructor
  · rintro ⟨k, rfl⟩
    exact getLast?_flatten fun w hw => hws w (List.mem_of_mem_take hw)
  · rintro (rfl | hend)
    · exact ⟨0, rfl⟩
    · exact exists_take hws hl hend

end

/-! ## Cutting -/

variable [DecidableEq α] {d : α}

/-- The stream cut after each `d`; what follows the last one is a piece of its own. -/
def cut (d : α) : List α → List (List α)
  | [] => []
  | a :: s =>
    if a = d then [a] :: cut d s
    else
      match cut d s with
      | [] => [[a]]
      | w :: ws => (a :: w) :: ws

theorem cut_append {xs : List α} (hxs : d ∉ xs) (s : List α) :
    cut d (xs ++ d :: s) = (xs ++ [d]) :: cut d s := by
  induction xs with
  | nil => simp only [List.nil_append, cut, if_true]
  | cons a xs ih =>
    rw [List.mem_cons, not_or] at hxs
    rw [List.cons_append, cut, if_neg (Ne.symm hxs.1), ih hxs.2]
    rfl

/-- **Cutting finds the words.** -/
theorem cut_flatten {ws : List (List α)} (hws : ∀ w ∈ ws, Delimited d w) :
    cut d ws.flatten = ws := by
  induction ws with
  | nil => rfl
  | cons w ws ih =>
    obtain ⟨⟨xs, rfl, hxs⟩, hrest⟩ := List.forall_mem_cons.mp hws
    rw [List.flatten_cons, List.append_assoc, List.singleton_append, cut_append hxs, ih hrest]

/-- **There is one way to cut.** -/
theorem flatten_inj {us vs : List (List α)} (hus : ∀ w ∈ us, Delimited d w)
    (hvs : ∀ w ∈ vs, Delimited d w) : us.flatten = vs.flatten ↔ us = vs := by
  constructor
  · intro h
    rw [← cut_flatten hus, h, cut_flatten hvs]
  · exact congrArg List.flatten

end Delimited
