/-
  Runs of a labelled transition function.

  `step s e = some s'` says that in state `s` the step labelled `e` is possible and leads to `s'`;
  `none` that it cannot happen there.  A run is a list of labels folded through `step`.

  1. `run` and its composition laws; `run_simulation` and `run_refines`, one system following another
     step by step and with a run for each step; `run_rel`, two systems following each other.
  2. `invariant` — what the initial state has and every step keeps, every run reaches.
  3. `Along G s es` — every step of the run meets `G` in the state it is taken in: the shape of an
     assumption about the environment or of a condition on a schedule.  `invariant_along` is the
     induction rule under such an assumption, `run_simulation_along` simulation under one.
  4. `Always J s es` — every state of the run meets `J`.
  5. **First violation** — two conditions on a run that agree in every step before which nothing has
     gone wrong agree on the run (`along_simulation` for two systems in step, `along_congr` for one,
     `always_iff_along` for a condition on the states), though after the first violation the states
     may say anything.
-/
import Mathlib.Data.List.Basic

namespace Transition

variable {σ ε : Type} (step : σ → ε → Option σ)

/-- The state a list of steps leads to, `none` if one of them is not possible. -/
def run (s : σ) (es : List ε) : Option σ := es.foldlM step s

@[simp] theorem run_nil (s : σ) : run step s [] = some s := rfl

@[simp] theorem run_cons (s : σ) (e : ε) (es : List ε) :
    run step s (e :: es) = (step s e).bind fun s' => run step s' es := rfl

theorem run_append (s : σ) (es fs : List ε) :
    run step s (es ++ fs) = (run step s es).bind fun s' => run step s' fs := by
  simp only [run, List.foldlM_append]
  rfl

variable {step}

theorem run_cons_eq_some {s t : σ} {e : ε} {es : List ε} (h : run step s (e :: es) = some t) :
    ∃ m, step s e = some m ∧ run step m es = some t := by
  rw [run_cons] at h
  exact Option.bind_eq_some_iff.mp h

/-- **Forward simulation.**  What the first system can do the second can, and they stay related. -/
theorem run_simulation {τ : Type} {step' : τ → ε → Option τ} {R : σ → τ → Prop}
    (hstep : ∀ {s t e s'}, R s t → step s e = some s' → ∃ t', step' t e = some t' ∧ R s' t') :
    ∀ {es : List ε} {s : σ} {t : τ} {s' : σ}, R s t → run step s es = some s' →
      ∃ t', run step' t es = some t' ∧ R s' t' := by
  intro es
  induction es with
  | nil =>
    intro s t s' hR h
    rw [run_nil, Option.some.injEq] at h
    exact ⟨t, rfl, h ▸ hR⟩
  | cons e es ih =>
    intro s t s' hR h
    obtain ⟨m, hm, hrest⟩ := run_cons_eq_some h
    obtain ⟨n, hn, hR'⟩ := hstep hR hm
    obtain ⟨t', ht', hR''⟩ := ih hR' hrest
    refine ⟨t', ?_, hR''⟩
    rw [run_cons, hn]
    exact ht'

/-- **Forward simulation, a run for a step.**  What the first system does in one step the second does
    in some number of steps. -/
theorem run_refines {τ φ : Type} {step' : τ → φ → Option τ} {R : σ → τ → Prop}
    (hstep : ∀ {s t e s'}, R s t → step s e = some s' → ∃ fs t', run step' t fs = some t' ∧ R s' t') :
    ∀ {es : List ε} {s : σ} {t : τ} {s' : σ}, R s t → run step s es = some s' →
      ∃ fs t', run step' t fs = some t' ∧ R s' t' := by
  intro es
  induction es with
  | nil =>
    intro s t s' hR h
    rw [run_nil, Option.some.injEq] at h
    exact ⟨[], t, rfl, h ▸ hR⟩
  | cons e es ih =>
    intro s t s' hR h
    obtain ⟨m, hm, hrest⟩ := run_cons_eq_some h
    obtain ⟨fs, n, hn, hR'⟩ := hstep hR hm
    obtain ⟨gs, t', ht', hR''⟩ := ih hR' hrest
    refine ⟨fs ++ gs, t', ?_, hR''⟩
    rw [run_append, hn]
    exact ht'

/-- **Two systems in step.**  A step leads both to related states, or is possible in neither. -/
theorem run_rel {τ : Type} {step' : τ → ε → Option τ} {R : σ → τ → Prop}
    (hstep : ∀ {s t e}, R s t → Option.Rel R (step s e) (step' t e)) {es : List ε} {s : σ} {t : τ}
    (hR : R s t) : Option.Rel R (run step s es) (run step' t es) := by
  induction es generalizing s t with
  | nil => exact Option.Rel.some hR
  | cons e es ih =>
    have hrel := hstep (e := e) hR
    rw [run_cons, run_cons]
    cases hs : step s e with
    | none =>
      rw [hs] at hrel
      cases ht : step' t e with
      | none => exact Option.Rel.none
      | some t' =>
        rw [ht] at hrel
        cases hrel
    | some s' =>
      rw [hs] at hrel
      cases ht : step' t e with
      | none =>
        rw [ht] at hrel
        cases hrel
      | some t' =>
        rw [ht] at hrel
        cases hrel with
        | some hR' => exact ih hR'

theorem rel_some {α β : Type} {R : α → β → Prop} {a : α} {y : Option β}
    (h : Option.Rel R (some a) y) : ∃ b, y = some b ∧ R a b := by
  cases h with
  | some hR => exact ⟨_, rfl, hR⟩

/-- What related states have in common, the ends of the runs do. -/
theorem rel_map_eq {α β γ : Type} {R : α → β → Prop} {f : α → γ} {g : β → γ} {x : Option α}
    {y : Option β} (h : Option.Rel R x y) (hfg : ∀ a b, R a b → f a = g b) :
    x.map f = y.map g := by
  cases h with
  | some hR => exact congrArg some (hfg _ _ hR)
  | none => rfl

/-! ## Invariants -/

/-- Every step of the run from `s` meets `G` in the state it is taken in. -/
def Along (step : σ → ε → Option σ) (G : σ → ε → Prop) : σ → List ε → Prop
  | _, [] => True
  | s, e :: es => G s e ∧ ∀ s', step s e = some s' → Along step G s' es

/-- **The invariant rule under an assumption on the steps.** -/
theorem invariant_along {G : σ → ε → Prop} {I : σ → Prop}
    (hstep : ∀ {s e s'}, I s → G s e → step s e = some s' → I s') :
    ∀ {es : List ε} {s t : σ}, I s → Along step G s es → run step s es = some t → I t := by
  intro es
  induction es with
  | nil =>
    intro s t hs _ h
    rw [run_nil, Option.some.injEq] at h
    exact h ▸ hs
  | cons e es ih =>
    intro s t hs hG h
    obtain ⟨m, hm, hrest⟩ := run_cons_eq_some h
    exact ih (hstep hs hG.1 hm) (hG.2 m hm) hrest

/-- **Forward simulation under an assumption on the steps.** -/
theorem run_simulation_along {τ : Type} {step' : τ → ε → Option τ} {R : σ → τ → Prop}
    {G : σ → ε → Prop}
    (hstep : ∀ {s t e s'}, R s t → G s e → step s e = some s' → ∃ t', step' t e = some t' ∧ R s' t')
    {es : List ε} {s : σ} {t : τ} {s' : σ} (hR : R s t) (hG : Along step G s es)
    (h : run step s es = some s') : ∃ t', run step' t es = some t' ∧ R s' t' := by
  induction es generalizing s t with
  | nil =>
    rw [run_nil, Option.some.injEq] at h
    exact ⟨t, rfl, h ▸ hR⟩
  | cons e es ih =>
    obtain ⟨m, hm, hrest⟩ := run_cons_eq_some h
    obtain ⟨n, hn, hR'⟩ := hstep hR hG.1 hm
    obtain ⟨t', ht', hR''⟩ := ih hR' (hG.2 m hm) hrest
    refine ⟨t', ?_, hR''⟩
    rw [run_cons, hn]
    exact ht'

/-- A condition on the labels alone is met along a run whose labels all meet it. -/
theorem along_of_forall_mem {P : ε → Prop} {es : List ε} (h : ∀ e ∈ es, P e) (s : σ) :
    Along step (fun _ e => P e) s es := by
  induction es generalizing s with
  | nil => trivial
  | cons e es ih =>
    exact ⟨h e (List.mem_cons_self), fun s' _ => ih (fun x hx => h x (List.mem_cons_of_mem e hx)) s'⟩

theorem along_true (s : σ) (es : List ε) : Along step (fun _ _ => True) s es :=
  along_of_forall_mem (fun _ _ => trivial) s

/-- **The invariant rule.** -/
theorem invariant {I : σ → Prop} (hstep : ∀ {s e s'}, I s → step s e = some s' → I s')
    {es : List ε} {s t : σ} (hs : I s) (h : run step s es = some t) : I t :=
  invariant_along (fun hi _ he => hstep hi he) hs (along_true s es) h

/-- Every state of the run from `s` meets `J`. -/
def Always (step : σ → ε → Option σ) (J : σ → Prop) : σ → List ε → Prop
  | s, [] => J s
  | s, e :: es => J s ∧ ∀ s', step s e = some s' → Always step J s' es

/-- The last state of the run is one of them. -/
theorem always_run {J : σ → Prop} : ∀ {es : List ε} {s t : σ}, Always step J s es →
    run step s es = some t → J t := by
  intro es
  induction es with
  | nil =>
    intro s t hJ h
    rw [run_nil, Option.some.injEq] at h
    exact h ▸ hJ
  | cons e es ih =>
    intro s t hJ h
    obtain ⟨m, hm, hrest⟩ := run_cons_eq_some h
    exact ih (hJ.2 m hm) hrest

theorem along_and {G H : σ → ε → Prop} {s : σ} {es : List ε} :
    Along step (fun s e => G s e ∧ H s e) s es ↔ Along step G s es ∧ Along step H s es := by
  induction es generalizing s with
  | nil => exact ⟨fun _ => ⟨trivial, trivial⟩, fun _ => trivial⟩
  | cons e es ih =>
    constructor
    · rintro ⟨⟨hg, hh⟩, hrest⟩
      exact ⟨⟨hg, fun s' hs' => (ih.mp (hrest s' hs')).1⟩, hh, fun s' hs' => (ih.mp (hrest s' hs')).2⟩
    · rintro ⟨⟨hg, hgs⟩, hh, hhs⟩
      exact ⟨⟨hg, hh⟩, fun s' hs' => ih.mpr ⟨hgs s' hs', hhs s' hs'⟩⟩

/-! ## First violation -/

section violation

variable {I : σ → Prop} {G H : σ → ε → Prop} {J : σ → Prop}

/-- **Two systems in step.**  The conditions agree on related states, and a good step leads both to
    related states or is possible in neither. -/
theorem along_simulation {τ : Type} {step' : τ → ε → Option τ} {R : σ → τ → Prop}
    {K : τ → ε → Prop} (hiff : ∀ {s t e}, R s t → (G s e ↔ K t e))
    (hstep : ∀ {s t e}, R s t → K t e → Option.Rel R (step s e) (step' t e)) {s : σ} {t : τ}
    (hR : R s t) (es : List ε) : Along step G s es ↔ Along step' K t es := by
  induction es generalizing s t with
  | nil => exact Iff.rfl
  | cons e es ih =>
    refine and_congr_right_iff.mpr (fun hg => ?_) |>.trans (and_congr_left' (hiff hR))
    have hrel := hstep hR ((hiff hR).mp hg)
    -- both go on, or both are stuck
    cases hs : step s e with
    | none =>
      rw [hs] at hrel
      cases ht : step' t e with
      | none => exact iff_of_true (fun _ h => absurd h (by simp)) (fun _ h => absurd h (by simp))
      | some t' =>
        rw [ht] at hrel
        cases hrel
    | some s' =>
      rw [hs] at hrel
      cases ht : step' t e with
      | none =>
        rw [ht] at hrel
        cases hrel
      | some t' =>
        rw [ht] at hrel
        cases hrel with
        | some hR' =>
          have hnext := ih hR'
          constructor
          · intro h t'' ht''
            exact Option.some.inj ht'' ▸ hnext.mp (h s' rfl)
          · intro h s'' hs''
            exact Option.some.inj hs'' ▸ hnext.mpr (h t' rfl)

/-- Two conditions on the steps that agree while `I` holds, which a good step keeps. -/
theorem along_congr (hiff : ∀ {s e}, I s → (G s e ↔ H s e))
    (hstep : ∀ {s e s'}, I s → H s e → step s e = some s' → I s') {s : σ} (hs : I s)
    (es : List ε) : Along step G s es ↔ Along step H s es := by
  refine along_simulation (R := fun s t => s = t ∧ I s) ?_ ?_ ⟨rfl, hs⟩ es
  · rintro s _ e ⟨rfl, hi⟩
    exact hiff hi
  · rintro s _ e ⟨rfl, hi⟩ hgood
    cases he : step s e with
    | none => exact Option.Rel.none
    | some s' => exact Option.Rel.some ⟨rfl, hstep hi hgood he⟩

/-- The same on the runs along which `K` holds. -/
theorem along_congr_of {K : σ → ε → Prop} (hiff : ∀ {s e}, I s → K s e → (G s e ↔ H s e))
    (hstep : ∀ {s e s'}, I s → K s e → H s e → step s e = some s' → I s') {s : σ} (hs : I s)
    {es : List ε} (hK : Along step K s es) : Along step G s es ↔ Along step H s es := by
  have hboth : Along step (fun s e => K s e ∧ G s e) s es ↔
      Along step (fun s e => K s e ∧ H s e) s es := by
    apply along_congr (I := I)
    · exact fun {s e} hi => and_congr_right (hiff hi)
    · exact fun {s e s'} hi h => hstep hi h.1 h.2
    · exact hs
  rw [along_and, along_and, and_iff_right hK, and_iff_right hK] at hboth
  exact hboth

/-- **What good steps keep.**  A condition that the invariant of the good steps gives, and the first
    bad step breaks, holds on the runs of good steps and on no other. -/
theorem always_iff_along_good (hgood : ∀ {s e s'}, I s → G s e → step s e = some s' → I s')
    (hj : ∀ {s}, I s → J s) (hbad : ∀ {s e s'}, I s → ¬ G s e → step s e = some s' → ¬ J s')
    (hnone : ∀ {s e}, step s e = none → G s e) {s : σ} (hi : I s) (es : List ε) :
    Always step J s es ↔ Along step G s es := by
  induction es generalizing s with
  | nil => exact iff_of_true (hj hi) trivial
  | cons e es ih =>
    cases he : step s e with
    | none =>
      have hnever : ∀ {P : σ → Prop} s', step s e = some s' → P s' :=
        fun s' hs' => absurd (he.symm.trans hs') (by simp)
      exact iff_of_true ⟨hj hi, hnever⟩ ⟨hnone he, hnever⟩
    | some s' =>
      have hnext : ∀ {P : σ → Prop}, (∀ t, step s e = some t → P t) ↔ P s' :=
        fun {P} => ⟨fun h => h s' he, fun h t ht => Option.some.inj (he.symm.trans ht) ▸ h⟩
      show (J s ∧ ∀ t, step s e = some t → Always step J t es) ↔
        G s e ∧ ∀ t, step s e = some t → Along step G t es
      rw [hnext, hnext]
      constructor
      · rintro ⟨-, hrest⟩
        have hj' : J s' := by
          cases es with
          | nil => exact hrest
          | cons _ _ => exact hrest.1
        -- a bad step would break `J` at once
        have hg : G s e := by
          by_contra hg
          exact hbad hi hg he hj'
        exact ⟨hg, (ih (hgood hi hg he)).mp hrest⟩
      · rintro ⟨hg, hrest⟩
        exact ⟨hj hi, (ih (hgood hi hg he)).mpr hrest⟩

/-- A condition on the states that a step keeps exactly when it is good. -/
theorem always_iff_along (hiff : ∀ {s e s'}, I s → J s → step s e = some s' → (J s' ↔ G s e))
    (hnone : ∀ {s e}, step s e = none → G s e)
    (hstep : ∀ {s e s'}, I s → step s e = some s' → I s') {s : σ} (hi : I s) (hj : J s)
    (es : List ε) : Always step J s es ↔ Along step G s es := by
  apply always_iff_along_good (I := fun s => I s ∧ J s)
  · exact fun hs hg he => ⟨hstep hs.1 he, (hiff hs.1 hs.2 he).mpr hg⟩
  · exact fun hs => hs.2
  · exact fun hs hg he hj' => hg ((hiff hs.1 hs.2 he).mp hj')
  · exact hnone
  · exact ⟨hi, hj⟩

/-- The same on a run that is possible, where the condition is only asked of its steps. -/
theorem always_iff_along_of_run
    (hiff : ∀ {s e s'}, I s → J s → step s e = some s' → (J s' ↔ G s e))
    (hstep : ∀ {s e s'}, I s → step s e = some s' → I s') : ∀ {es : List ε} {s t : σ}, I s → J s →
      run step s es = some t → (Always step J s es ↔ Along step G s es) := by
  have hguard : ∀ {es : List ε} {s t : σ}, run step s es = some t →
      (Along step (fun s e => step s e ≠ none → G s e) s es ↔ Along step G s es) := by
    intro es
    induction es with
    | nil => exact fun _ => Iff.rfl
    | cons e es ih =>
      intro s t hrun
      obtain ⟨m, hm, hrest⟩ := run_cons_eq_some hrun
      have hsome : step s e ≠ none := by rw [hm]; exact Option.some_ne_none m
      refine and_congr (forall_prop_of_true hsome) (forall₂_congr fun s' hs' => ?_)
      rw [hm, Option.some.injEq] at hs'
      exact hs' ▸ ih hrest
  intro es s t hi hj hrun
  rw [← hguard hrun]
  refine always_iff_along (fun hi hj he => ?_) (fun he hne => absurd he hne) hstep hi hj es
  rw [hiff hi hj he, he]
  exact ⟨fun hg _ => hg, fun h => h (Option.some_ne_none _)⟩

end violation

end Transition
