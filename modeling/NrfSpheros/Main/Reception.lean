/-
  When a frame arrives whole.

  The callback takes a run of bytes that ends on `\n` for the end of a frame and has the driver
  stop, but a frame's payload may hold that byte too.

  1. `Unbroken` — the driver does not stop before the last byte of a run; on the inbox this is what
     makes a frame whole (`Inbox.whole_iff`).
  2. **Whole frames** (`frame_received_iff`) — which runs deliver a frame in one buffer, and which
     frames are delivered so by every run.
-/
import NrfSpheros.Main.Receiver

namespace NrfSpheros

/-! ## The inbox and the driver's stops -/

namespace RxStep

/-- The bytes the driver reports. -/
def received : RxStep → List UInt8
  | .bytes run => run
  | _ => []

/-- The driver has stopped. -/
def Stops : RxStep → Prop
  | .disabled _ => True
  | _ => False

theorem stops_disabled (malloc : Malloc) : (disabled malloc).Stops := trivial

theorem not_stops_bytes (run : List UInt8) : ¬ (bytes run).Stops := not_false

end RxStep

/-- The bytes the driver reports in a run. -/
def received (es : List RxStep) : List UInt8 := es.flatMap RxStep.received

/-- The driver does not stop before the last byte. -/
def Unbroken (es : List RxStep) : Prop := es.Pairwise fun e e' => e.Stops → e'.received = []

theorem received_cons (e : RxStep) (es : List RxStep) :
    received (e :: es) = e.received ++ received es :=
  List.flatMap_cons

theorem received_eq_nil {es : List RxStep} : received es = [] ↔ ∀ e ∈ es, e.received = [] :=
  List.flatMap_eq_nil_iff

/-- Once the driver has stopped, a run is unbroken if it brings no more bytes. -/
theorem unbroken_cons_of_stops {e : RxStep} {es : List RxStep} (he : e.Stops) :
    Unbroken (e :: es) ↔ received es = [] := by
  rw [Unbroken, List.pairwise_cons, received_eq_nil]
  constructor
  · exact fun h e' he' => h.1 e' he' he
  · intro h
    exact ⟨fun e' he' _ => h e' he', List.pairwise_of_forall_mem_list fun _ _ b hb _ => h b hb⟩

theorem unbroken_cons_of_not_stops {e : RxStep} {es : List RxStep} (he : ¬ e.Stops) :
    Unbroken (e :: es) ↔ Unbroken es := by
  rw [Unbroken, List.pairwise_cons]
  exact and_iff_right fun _ _ h => absurd h he

namespace Inbox

variable {r r' : Inbox} {es : List RxStep}

theorem step_of_not_stops {e : RxStep} {got : List UInt8} (hgot : r.current = some got)
    (he : ¬ e.Stops) (h : r.step e = some r') :
    r' = { r with
      current := some (got ++ e.received)
      ending := r.ending || e.received.getLast? = some 0x0a } := by
  obtain ⟨frames, current, ending⟩ := r
  obtain rfl : current = some got := hgot
  cases e with
  | bytes run => exact (Option.some.inj h).symm
  | disabled malloc => exact absurd trivial he
  | work malloc => exact absurd h (by simp [step])
  | bufRequest malloc | get =>
    obtain rfl := Option.some.inj h
    simp [RxStep.received]

theorem step_of_stops {e : RxStep} {got : List UInt8} (hgot : r.current = some got)
    (he : e.Stops) (h : r.step e = some r') :
    r.ending = true ∧ r'.frames = r.frames ++ [got] ∧ r'.ending = false := by
  obtain ⟨frames, current, ending⟩ := r
  obtain rfl : current = some got := hgot
  cases e with
  | disabled malloc =>
    cases ending with
    | true =>
      obtain rfl := Option.some.inj h
      exact ⟨rfl, rfl, rfl⟩
    | false => exact absurd h (by simp [step])
  | bytes _ | work _ | bufRequest _ | get => exact absurd he not_false

/-- Frames are only added. -/
theorem frames_prefix_step {e : RxStep} (h : r.step e = some r') : r.frames <+: r'.frames := by
  by_cases he : e.Stops
  · cases hgot : r.current with
    | none => cases e <;> simp [step, hgot, RxStep.Stops] at h he
    | some got =>
      rw [(step_of_stops hgot he h).2.1]
      exact List.prefix_append _ _
  · have hsame : r'.frames = r.frames := by
      cases hgot : r.current with
      | some got => rw [step_of_not_stops hgot he h]
      | none =>
        cases e with
        | disabled malloc => exact absurd trivial he
        | bytes run => exact absurd h (by simp [step, hgot])
        | work malloc =>
          simp only [step, hgot, Option.some.injEq] at h
          rw [← h]
        | bufRequest malloc | get => rw [Option.some.inj h]
    rw [hsame]

theorem frames_prefix_run (h : Transition.run step r es = some r') : r.frames <+: r'.frames :=
  Transition.invariant (I := fun x => r.frames <+: x.frames)
    (fun hx hstep => hx.trans (frames_prefix_step hstep)) List.prefix_rfl h

/-- Without bytes, an inbox that is not asked to end gets no frame. -/
theorem frames_of_received_nil (hend : r.ending = false) (hbytes : received es = [])
    (h : Transition.run step r es = some r') : r'.frames = r.frames := by
  have hquiet : Transition.Along step (fun _ e => e.received = []) r es :=
    Transition.along_of_forall_mem (received_eq_nil.mp hbytes) r
  -- a frame comes only when the driver stops, which takes a byte `\n`
  have hstep : ∀ {x : Inbox} {e : RxStep} {x' : Inbox},
      x.frames = r.frames ∧ x.ending = false → e.received = [] → x.step e = some x' →
        x'.frames = r.frames ∧ x'.ending = false := by
    rintro ⟨frames, current, ending⟩ e x' ⟨rfl, rfl⟩ he h
    cases e with
    | bytes run =>
      obtain rfl : run = [] := he
      cases current with
      | none => exact absurd h (by simp [step])
      | some got =>
        obtain rfl := Option.some.inj h
        exact ⟨rfl, rfl⟩
    | disabled malloc => cases current <;> exact absurd h (by simp [step])
    | work malloc =>
      cases current with
      | none =>
        obtain rfl := Option.some.inj h
        exact ⟨rfl, rfl⟩
      | some got => exact absurd h (by simp [step])
    | bufRequest malloc | get =>
      obtain rfl := Option.some.inj h
      exact ⟨rfl, rfl⟩
  exact (Transition.invariant_along (I := fun x => x.frames = r.frames ∧ x.ending = false) hstep
    ⟨rfl, hend⟩ hquiet h).1

/-- **Whole frames.**  The inbox receives `got`, the rest of the frame comes in the run, and its last
    byte is `\n`: it is received whole exactly when the driver does not stop before that byte. -/
theorem whole_iff {got : List UInt8} (hgot : r.current = some got)
    (hasked : got.getLast? = some 0x0a → r.ending = true)
    (hlast : (got ++ received es).getLast? = some 0x0a)
    (h : Transition.run step r es = some r') (hdone : r'.ending = false) :
    r'.frames = r.frames ++ [got ++ received es] ↔ Unbroken es := by
  induction es generalizing r got with
  | nil =>
    obtain rfl := Option.some.inj h
    rw [received, List.flatMap_nil, List.append_nil] at hlast
    exact absurd (hasked hlast) (by simp [hdone])
  | cons e es ih =>
    obtain ⟨m, hm, hrest⟩ := Transition.run_cons_eq_some h
    by_cases he : e.Stops
    · obtain ⟨-, hframes, hend⟩ := step_of_stops hgot he hm
      have hnone : e.received = [] := by
        cases e with
        | disabled malloc => rfl
        | bytes _ | work _ | bufRequest _ | get => exact absurd he not_false
      rw [unbroken_cons_of_stops he, received_cons, hnone, List.nil_append]
      constructor
      · intro hwhole
        -- the part handed over already is a prefix of the one frame, so nothing is left
        have hprefix := frames_prefix_run hrest
        rw [hframes, hwhole, List.prefix_append_right_inj] at hprefix
        obtain ⟨rest, hrest⟩ := hprefix
        simpa using (List.cons.inj hrest).1
      · intro hnil
        rw [frames_of_received_nil hend hnil hrest, hframes, hnil, List.append_nil]
    · have hm' := step_of_not_stops hgot he hm
      rw [received_cons, ← List.append_assoc] at hlast ⊢
      rw [unbroken_cons_of_not_stops he,
        ← ih (show m.current = some (got ++ e.received) by rw [hm']) ?_ hlast hrest]
      · rw [hm']
      · intro hnl
        show m.ending = true
        rw [hm', Bool.or_eq_true, decide_eq_true_eq]
        by_cases hnil : e.received = []
        · rw [hnil, List.append_nil] at hnl
          exact Or.inl (hasked hnl)
        · rw [List.getLast?_append_of_ne_nil _ hnil] at hnl
          exact Or.inr hnl

/-- A frame with `\n` at its end only does not stop the driver early. -/
theorem unbroken_of_single_end {got : List UInt8} (hgot : r.current = some got)
    (hasked : r.ending = true → 0x0a ∈ got) (hplain : 0x0a ∉ (got ++ received es).dropLast)
    (h : Transition.run step r es = some r') : Unbroken es := by
  induction es generalizing r got with
  | nil => exact List.Pairwise.nil
  | cons e es ih =>
    obtain ⟨m, hm, hrest⟩ := Transition.run_cons_eq_some h
    by_cases he : e.Stops
    · have hmem := hasked (step_of_stops hgot he hm).1
      rw [unbroken_cons_of_stops he]
      by_contra hne
      rw [received_cons, List.dropLast_append_of_ne_nil (by simp [hne])] at hplain
      exact hplain (List.mem_append_left _ hmem)
    · have hm' := step_of_not_stops hgot he hm
      rw [unbroken_cons_of_not_stops he]
      rw [received_cons, ← List.append_assoc] at hplain
      have hcur : m.current = some (got ++ e.received) := by rw [hm']
      refine ih hcur (fun hend => ?_) hplain hrest
      rw [hm', Bool.or_eq_true, decide_eq_true_eq] at hend
      rcases hend with hend | hend
      · exact List.mem_append_left _ (hasked hend)
      · exact List.mem_append_right _ (List.mem_of_getLast? hend)

end Inbox

/-! ## Whole frames -/

namespace Receiver

/-- A block of zeros. -/
def block : Vector UInt8 recieveBuffSize := Vector.replicate recieveBuffSize 0

/-- A listening receiver can be given a run that ends on `\n`, and the driver can then stop. -/
theorem run_line {s : Receiver} {r : Inbox} {line : List UInt8} (h : s.Refines r)
    (hgot : r.current = some []) (hlast : line.getLast? = some 0x0a)
    (hfits : line.length ≤ recieveBuffSize) (data : Vector UInt8 recieveBuffSize) :
    ∃ s' r', Transition.run step (.ok s) [.bytes line, .disabled (some data)] = some (.ok s') ∧
      s'.Refines r' ∧ r'.current = some [] ∧ r'.ending = false := by
  have hne : line ≠ [] := by
    rintro rfl
    exact absurd hlast (by simp)
  obtain ⟨m, hm⟩ := step_bytes h hgot hne hfits
  obtain ⟨r₁, hr₁, m', hm', hrefines, -⟩ := refines_step h hm
  obtain rfl := Except.ok.inj hm'
  have hnext := Inbox.step_of_not_stops hgot (RxStep.not_stops_bytes line) hr₁
  have hcur : r₁.current = some line := by rw [hnext]; rfl
  have hend : r₁.ending = true := by
    rw [hnext, Bool.or_eq_true, decide_eq_true_eq]
    exact Or.inr hlast
  obtain ⟨t, ht⟩ := step_disabled hrefines hcur hend (some data)
  obtain ⟨r₂, hr₂, t', ht', hrefines', -⟩ := refines_step hrefines ht
  obtain rfl := Except.ok.inj ht'
  obtain ⟨-, -, hend₂⟩ := Inbox.step_of_stops hcur (RxStep.stops_disabled _) hr₂
  refine ⟨t, r₂, ?_, hrefines', ?_, hend₂⟩
  · rw [Transition.run_cons, hm, Option.bind_some, Transition.run_cons, ht]
    rfl
  · simp only [Inbox.step, hcur, hend, Option.some.injEq] at hr₂
    rw [← hr₂]
    rfl

/-- Two such lines in a row, as a run that is not unbroken. -/
theorem run_two_lines {s : Receiver} {r : Inbox} {line line' : List UInt8} (h : s.Refines r)
    (hgot : r.current = some []) (hlast : line.getLast? = some 0x0a)
    (hlast' : line'.getLast? = some 0x0a) (hfits : (line ++ line').length ≤ recieveBuffSize) :
    ∃ es s', Transition.run step (.ok s) es = some (.ok s') ∧ received es = line ++ line' ∧
      s'.uart.rxDisabling = false ∧ ¬ Unbroken es := by
  rw [List.length_append] at hfits
  obtain ⟨s₁, r₁, hrun₁, hr₁, hgot₁, -⟩ :=
    run_line h hgot hlast (Nat.le_trans (Nat.le_add_right _ _) hfits) block
  obtain ⟨s₂, r₂, hrun₂, hr₂, -, hend₂⟩ :=
    run_line hr₁ hgot₁ hlast' (Nat.le_trans (Nat.le_add_left _ _) hfits) block
  refine ⟨[.bytes line, .disabled (some block)] ++ [.bytes line', .disabled (some block)], s₂, ?_,
    ?_, hr₂.ending.trans hend₂, ?_⟩
  · rw [Transition.run_append, hrun₁]
    exact hrun₂
  · simp [received, RxStep.received]
  · intro hunbroken
    -- the second line comes after the first stop
    have hnil : line' = [] := (List.pairwise_cons.mp (List.pairwise_cons.mp hunbroken).2).1
      (.bytes line') (by simp) (RxStep.stops_disabled _)
    rw [hnil] at hlast'
    exact absurd hlast' (by simp)

/-- What a host sends. -/
structure IsFrame (m : List UInt8) : Prop where
  start : m.head? = some 0x8d
  stop : m.getLast? = some 0x0a
  fits : m.length ≤ recieveBuffSize

/-- Since `s` one buffer was put on the fifo, and its first `len` bytes are `m`. -/
def Delivers (s : Receiver) (t : Except Fault Receiver) (m : List UInt8) : Prop :=
  ∃ v b, t = .ok v ∧ v.put = s.put ++ [b] ∧ b.contents = m

/-- The driver has completed what it was asked to do. -/
def Settled (t : Except Fault Receiver) : Prop := ∀ v, t = .ok v → v.uart.rxDisabling = false

/-- What is delivered, seen on the inbox. -/
theorem delivers_iff {s s' : Receiver} {r r' : Inbox} {m : List UInt8} (h : s.Refines r)
    (h' : s'.Refines r') (hput : s.put <+: s'.put) :
    s.Delivers (.ok s') m ↔ r'.frames = r.frames ++ [m] := by
  rw [← h.frames, ← h'.frames]
  constructor
  · rintro ⟨v, b, hv, hb, rfl⟩
    obtain rfl := Except.ok.inj hv
    rw [hb, List.map_append]
    rfl
  · intro heq
    obtain ⟨added, hadded⟩ := hput
    rw [← hadded, List.map_append, List.append_cancel_left_eq] at heq
    obtain ⟨b, rfl, hb⟩ := List.map_eq_singleton_iff.mp heq
    exact ⟨s', b, rfl, hadded.symm, hb⟩

/-- Every way the driver splits and reports `m` from `s` on delivers it. -/
def AlwaysDelivers (s : Receiver) (m : List UInt8) : Prop :=
  ∀ es t, Transition.run step (.ok s) es = some t → received es = m → Settled t → s.Delivers t m

/-- A run from a listening receiver, seen on the inbox. -/
theorem delivers_iff_unbroken {s : Receiver} {r : Inbox} {t : Except Fault Receiver}
    {es : List RxStep} (hr : s.Refines r) (hgot : r.current = some [])
    (hlast : (received es).getLast? = some 0x0a)
    (hrun : Transition.run step (.ok s) es = some t) (hdone : Settled t) :
    s.Delivers t (received es) ↔ Unbroken es := by
  obtain ⟨r', hrun', s', rfl, hr', hput⟩ := refines_run hr hrun
  rw [delivers_iff hr hr' hput]
  exact Inbox.whole_iff hgot (fun h => absurd h (by simp)) hlast hrun'
    (hr'.ending.symm.trans (hdone s' rfl))

/-- The frames that do not depend on timing are those without `\n` before their end. -/
theorem alwaysDelivers_iff {s : Receiver} {r : Inbox} {m : List UInt8} (hr : s.Refines r)
    (hgot : r.current = some []) (hend : r.ending = false) (hm : IsFrame m) :
    s.AlwaysDelivers m ↔ 0x0a ∉ m.dropLast := by
  constructor
  · intro hall hmem
    obtain ⟨before, rest, hsplit⟩ := List.append_of_mem hmem
    have hm' : m = (before ++ [0x0a]) ++ (rest ++ [0x0a]) := by
      obtain ⟨start, rfl⟩ := List.getLast?_eq_some_iff.mp hm.stop
      rw [List.dropLast_concat] at hsplit
      rw [hsplit]
      simp
    have hfits := hm.fits
    rw [hm'] at hfits
    -- a run that delivers the two lines apart, so the driver stops in between
    obtain ⟨es, t, hrun, hbytes, hdone, hbroken⟩ :=
      run_two_lines hr hgot List.getLast?_concat List.getLast?_concat hfits
    rw [← hm'] at hbytes
    have hsettled : Settled (.ok t) := by
      intro v hv
      obtain rfl := Except.ok.inj hv
      exact hdone
    have hdelivers := hall es _ hrun hbytes hsettled
    subst hbytes
    exact hbroken ((delivers_iff_unbroken hr hgot hm.stop hrun hsettled).mp hdelivers)
  · intro hplain es t hrun hbytes hdone
    subst hbytes
    rw [delivers_iff_unbroken hr hgot hm.stop hrun hdone]
    obtain ⟨r', hrun', -⟩ := refines_run hr hrun
    exact Inbox.unbroken_of_single_end hgot (fun h => absurd h (by simp [hend])) hplain hrun'

/-- **When a frame is received whole.**  `m` arrives while the receiver is listening. -/
theorem frame_received_iff {data : Vector UInt8 recieveBuffSize} {es₀ : List RxStep}
    {s : Receiver} {m : List UInt8}
    (hreach : Transition.run step (.ok (init data)) es₀ = some (.ok s)) (hs : s.Listening)
    (hm : IsFrame m) :
    (∀ es t, Transition.run step (.ok s) es = some t → received es = m → Settled t →
      (s.Delivers t m ↔ Unbroken es)) ∧
    (s.AlwaysDelivers m ↔ 0x0a ∉ m.dropLast) := by
  obtain ⟨r, hr⟩ := refines_reachable hreach
  obtain ⟨hgot, hend⟩ := refines_listening hr hs
  refine ⟨fun es t hrun hbytes hdone => ?_, alwaysDelivers_iff hr hgot hend hm⟩
  subst hbytes
  exact delivers_iff_unbroken hr hgot hm.stop hrun hdone

/-- The colours and headings of one Sphero, its green value being `\n`. -/
def greenFrame : List UInt8 := [0x8d, 0x01, 0x00, 0x0a, 0x00, 0x00, 0x00, 0x00, 0x0a]

theorem isFrame_greenFrame : IsFrame greenFrame := ⟨rfl, rfl, by decide⟩

theorem listening_init : (init block).Listening := ⟨rfl, 0, ⟨block, 0⟩, rfl, rfl, rfl⟩

/-- The receiver after `uart_init`. -/
theorem frame_received_iff_init :
    (∀ es t, Transition.run step (.ok (init block)) es = some t → received es = greenFrame →
      Settled t → ((init block).Delivers t greenFrame ↔ Unbroken es)) ∧
    ((init block).AlwaysDelivers greenFrame ↔ 0x0a ∉ greenFrame.dropLast) :=
  @frame_received_iff block [] (init block) greenFrame rfl listening_init isFrame_greenFrame

/-- What the host relies on: a frame is received whole however it is split into runs of bytes. -/
def ReceivesFrames : Prop :=
  ∀ (data : Vector UInt8 recieveBuffSize) (es₀ : List RxStep) (s : Receiver) (m : List UInt8),
    Transition.run step (.ok (init data)) es₀ = some (.ok s) → s.Listening → IsFrame m →
      s.AlwaysDelivers m

/-- A pause after the green value: the driver stops there, and the frame arrives in two buffers. -/
theorem frame_cut_short : ¬ ReceivesFrames := by
  intro h
  have hall := h block [] (init block) greenFrame rfl listening_init isFrame_greenFrame
  obtain ⟨v, b, hv, hput, -⟩ := hall
    [.bytes [0x8d, 0x01, 0x00, 0x0a], .disabled (some block),
      .bytes [0x00, 0x00, 0x00, 0x00, 0x0a], .disabled (some block)] _ rfl rfl
    (by
      intro v hv
      obtain rfl := Except.ok.inj hv
      rfl)
  obtain rfl := Except.ok.inj hv
  have htwo : (2 : Nat) = 1 := congrArg List.length hput
  exact absurd htwo (by decide)

end Receiver

end NrfSpheros
