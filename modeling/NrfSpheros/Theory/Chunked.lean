/-
  Consuming a stream in chunks.

  A receiver is handed a stream piece by piece.  Within one call it loops over the symbols of the
  chunk; the loop body changes the receiver's state, may emit outputs, and may *leave the call*:
  return early, throw, or hit undefined behaviour.  Leaving a call drops the rest of its chunk.
  The next chunk is then handed over by a new call, unless the exit was fatal.

  `body s a` is one round of the loop, `call` one call, `calls` a session.  What matters to a
  client is when chunk boundaries are invisible: `calls_eq_call` — if the loop over the whole
  stream never leaves, then every way of cutting it gives the same outputs and the same state.
-/
import Mathlib.Data.List.Basic

namespace Chunked

/-- What a piece of input did: the state left behind, what was emitted, and the reason for
    leaving the call, `none` when the loop ran to its end. -/
structure Outcome (σ β ε : Type) where
  state : σ
  out : List β
  exit : Option ε
deriving DecidableEq, Repr

variable {σ α β ε : Type}

/-- The outcome of a continuation, with what was emitted before it. -/
def Outcome.after (r : Outcome σ β ε) (o : List β) : Outcome σ β ε :=
  { r with out := o ++ r.out }

@[simp] theorem Outcome.after_state (r : Outcome σ β ε) (o : List β) :
    (r.after o).state = r.state := rfl

@[simp] theorem Outcome.after_out (r : Outcome σ β ε) (o : List β) :
    (r.after o).out = o ++ r.out := rfl

@[simp] theorem Outcome.after_exit (r : Outcome σ β ε) (o : List β) :
    (r.after o).exit = r.exit := rfl

@[simp] theorem Outcome.after_nil (r : Outcome σ β ε) : r.after [] = r := rfl

@[simp] theorem Outcome.after_after (r : Outcome σ β ε) (o o' : List β) :
    (r.after o).after o' = r.after (o' ++ o) := by
  simp [Outcome.after]

variable (body : σ → α → Outcome σ β ε)

/-- One call: the loop over a chunk. -/
def call : σ → List α → Outcome σ β ε
  | s, [] => ⟨s, [], none⟩
  | s, a :: as =>
    match body s a with
    | ⟨s', o, none⟩ => (call s' as).after o
    | ⟨s', o, some e⟩ => ⟨s', o, some e⟩

/-- A session: one call a chunk, until a fatal exit. -/
def calls (fatal : ε → Bool) : σ → List (List α) → Outcome σ β ε
  | s, [] => ⟨s, [], none⟩
  | s, c :: cs =>
    if (call body s c).exit.any fatal then call body s c
    else (calls fatal (call body s c).state cs).after (call body s c).out

@[simp] theorem call_nil (s : σ) : call body s ([] : List α) = ⟨s, [], none⟩ := rfl

/-- A call on one symbol is one round. -/
theorem call_singleton (s : σ) (a : α) : call body s [a] = body s a := by
  rcases hb : body s a with ⟨s', o, _ | e⟩ <;> simp [call, hb, Outcome.after]

variable {body}

theorem call_cons_of_stay {s s' : σ} {a : α} {o : List β} (h : body s a = ⟨s', o, none⟩)
    (as : List α) : call body s (a :: as) = (call body s' as).after o := by
  simp [call, h]

theorem call_cons_of_leave {s s' : σ} {a : α} {o : List β} {e : ε}
    (h : body s a = ⟨s', o, some e⟩) (as : List α) :
    call body s (a :: as) = ⟨s', o, some e⟩ := by
  simp [call, h]

/-- A call that ran to its end can be continued. -/
theorem call_append {xs : List α} : ∀ {s : σ}, (call body s xs).exit = none → ∀ ys : List α,
    call body s (xs ++ ys) = (call body (call body s xs).state ys).after (call body s xs).out := by
  induction xs with
  | nil =>
    intro s _ ys
    simp
  | cons a xs ih =>
    intro s h ys
    rcases hb : body s a with ⟨s', o, _ | e⟩
    · rw [call_cons_of_stay hb] at h
      rw [List.cons_append, call_cons_of_stay hb, call_cons_of_stay hb, ih h]
      simp
    · rw [call_cons_of_leave hb] at h
      cases h

/-- A call that was left drops the rest of its chunk. -/
theorem call_append_of_leave {xs : List α} : ∀ {s : σ} {e : ε}, (call body s xs).exit = some e →
    ∀ ys : List α, call body s (xs ++ ys) = call body s xs := by
  induction xs with
  | nil =>
    intro s e h
    cases h
  | cons a xs ih =>
    intro s e h ys
    rcases hb : body s a with ⟨s', o, _ | e'⟩
    · rw [call_cons_of_stay hb] at h
      rw [List.cons_append, call_cons_of_stay hb, call_cons_of_stay hb, ih h]
    · rw [List.cons_append, call_cons_of_leave hb, call_cons_of_leave hb]

/-- What the session does after its first chunks. -/
theorem calls_append (fatal : ε → Bool) (ds : List (List α)) : ∀ (cs : List (List α)) (s : σ),
    calls body fatal s (cs ++ ds) =
      if (calls body fatal s cs).exit = none then
        (calls body fatal (calls body fatal s cs).state ds).after (calls body fatal s cs).out
      else calls body fatal s cs := by
  intro cs
  induction cs with
  | nil =>
    intro s
    simp [calls]
  | cons c cs ih =>
    intro s
    rw [List.cons_append, calls, calls]
    by_cases hc : (call body s c).exit.any fatal
    · rw [if_pos hc, if_pos hc, if_neg]
      intro hnone
      rw [hnone] at hc
      cases hc
    · rw [if_neg hc, if_neg hc, ih]
      by_cases hrest : (calls body fatal (call body s c).state cs).exit = none <;> simp [hrest]

/-- **Chunk boundaries are invisible** on a stream that never makes the loop leave. -/
theorem calls_eq_call (fatal : ε → Bool) : ∀ {cs : List (List α)} {s : σ},
    (call body s cs.flatten).exit = none → calls body fatal s cs = call body s cs.flatten := by
  intro cs
  induction cs with
  | nil =>
    intro s _
    rfl
  | cons c cs ih =>
    intro s h
    rw [List.flatten_cons] at h ⊢
    have hc : (call body s c).exit = none := by
      cases he : (call body s c).exit with
      | none => rfl
      | some e => rw [call_append_of_leave he, he] at h; exact h
    rw [call_append hc] at h ⊢
    rw [calls, hc, ih (by simpa using h)]
    simp

/-- Empty chunks do nothing. -/
theorem calls_of_flatten_nil (fatal : ε → Bool) : ∀ {cs : List (List α)} (s : σ),
    cs.flatten = [] → calls body fatal s cs = ⟨s, [], none⟩ := by
  intro cs
  induction cs with
  | nil =>
    intro s _
    rfl
  | cons c cs ih =>
    intro s h
    rw [List.flatten_cons, List.append_eq_nil_iff] at h
    rw [h.1, calls, call_nil]
    simp [ih s h.2]

/-- Chunk boundaries are invisible also when the loop leaves at the very last symbol of the
    stream: nothing is left to drop.  The session is over then if the exit was fatal. -/
theorem calls_flatten_concat (fatal : ε → Bool) : ∀ {cs : List (List α)} {s : σ} {xs : List α}
    {a : α}, cs.flatten = xs ++ [a] → (call body s xs).exit = none →
    (calls body fatal s cs).state = (call body s (xs ++ [a])).state ∧
      (calls body fatal s cs).out = (call body s (xs ++ [a])).out ∧
      (calls body fatal s cs).exit = (call body s (xs ++ [a])).exit.filter fatal := by
  intro cs
  induction cs with
  | nil =>
    intro s xs a h _
    exact absurd h (by simp)
  | cons c cs ih =>
    intro s xs a h hxs
    rw [List.flatten_cons] at h
    rcases List.eq_nil_or_concat cs.flatten with hnil | ⟨ys, b, hys⟩
    · -- the last symbol is in this chunk
      rw [hnil, List.append_nil] at h
      subst h
      rw [calls]
      split
      · rename_i hfatal
        refine ⟨rfl, rfl, ?_⟩
        cases he : (call body s (xs ++ [a])).exit with
        | none => rfl
        | some e =>
          rw [he] at hfatal
          exact (if_pos hfatal).symm
      · rename_i hstay
        rw [calls_of_flatten_nil fatal _ hnil]
        refine ⟨rfl, by simp, ?_⟩
        cases he : (call body s (xs ++ [a])).exit with
        | none => rfl
        | some e =>
          rw [he] at hstay
          exact (if_neg hstay).symm
    · -- this chunk ends inside the part the loop stays in
      rw [List.concat_eq_append] at hys
      rw [hys, ← List.append_assoc] at h
      obtain ⟨rfl, hab⟩ := List.append_inj' h rfl
      rw [List.singleton_inj] at hab
      subst hab
      have hc : (call body s c).exit = none := by
        cases he : (call body s c).exit with
        | none => rfl
        | some e => rw [call_append_of_leave he, he] at hxs; exact hxs
      rw [call_append hc] at hxs
      rw [List.append_assoc, call_append hc, calls, hc]
      simpa using ih hys (by simpa using hxs)

/-! ## Invariants of the loop -/

/-- What every round preserves, a call preserves; and every output is one that a round can make
    from a state with the invariant. -/
theorem call_invariant {I : σ → Prop} {J : β → Prop}
    (hbody : ∀ s a, I s → I (body s a).state ∧ ∀ o ∈ (body s a).out, J o) :
    ∀ {s : σ} (xs : List α), I s →
      I (call body s xs).state ∧ ∀ o ∈ (call body s xs).out, J o := by
  intro s xs
  induction xs generalizing s with
  | nil =>
    intro hs
    exact ⟨hs, fun o ho => absurd ho (List.not_mem_nil)⟩
  | cons a xs ih =>
    intro hs
    have hround := hbody s a hs
    rcases hb : body s a with ⟨s', o, _ | e⟩
    · rw [hb] at hround
      rw [call_cons_of_stay hb]
      refine ⟨(ih hround.1).1, fun x hx => ?_⟩
      rcases List.mem_append.mp hx with hx | hx
      · exact hround.2 x hx
      · exact (ih hround.1).2 x hx
    · rw [hb] at hround
      rw [call_cons_of_leave hb]
      exact hround

/-- What every round preserves, a session preserves. -/
theorem calls_invariant {fatal : ε → Bool} {I : σ → Prop} {J : β → Prop}
    (hbody : ∀ s a, I s → I (body s a).state ∧ ∀ o ∈ (body s a).out, J o) :
    ∀ {s : σ} {cs : List (List α)}, I s →
      I (calls body fatal s cs).state ∧ ∀ o ∈ (calls body fatal s cs).out, J o := by
  intro s cs
  induction cs generalizing s with
  | nil =>
    intro hs
    exact ⟨hs, fun o ho => absurd ho (List.not_mem_nil)⟩
  | cons c cs ih =>
    intro hs
    have hcall := call_invariant hbody c hs
    rw [calls]
    split
    · exact hcall
    · refine ⟨(ih hcall.1).1, fun x hx => ?_⟩
      rcases List.mem_append.mp hx with hx | hx
      · exact hcall.2 x hx
      · exact (ih hcall.1).2 x hx

end Chunked
