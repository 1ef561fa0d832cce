/-
  Which responses reach the command that waits for them, over every interleaving of the command
  thread and the receive callback.

  1. **Own response** (`response_of_own_request`) — a wait that ends with a raised signal finds a
     response to its own request, received after the request was set up, and takes out no entry but
     its own, as long as fewer than 255 packets were created in between.

  2. **Lost response** (`response_kept_iff`) — `execute` sends the packet before `setup_response`
     makes the entry, so a response can come while `waiting` does not know its id; `handle_packet`
     then drops it.  A response is kept, and its wait succeeds, exactly when it comes after
     `setup_response` and no later request has taken the id over when the wait ends.
-/
import NrfSpheros.Sphero.Requests

namespace NrfSpheros

namespace System

/-! ## What a run keeps of an earlier state -/

/-- `t` comes after `s`: the ghosts have grown, and what was not set up in `s` has a newer signal. -/
structure Later (s t : System) : Prop where
  received : s.received <+: t.received
  setups : s.setups <+: t.setups
  next : s.sphero.nextSignal ≤ t.sphero.nextSignal
  newer : ∀ {r}, r ∈ t.setups → r ∈ s.setups ∨ s.sphero.nextSignal ≤ r.signal
  live : ∀ {r}, r ∈ t.requests → r ∈ s.setups → r ∈ s.requests

theorem later_refl (s : System) : Later s s :=
  ⟨List.prefix_rfl, List.prefix_rfl, Nat.le_refl _, Or.inl, fun hr _ => hr⟩

theorem later_step {s t t' : System} {e : Step} (hs : s.Sound) (h : Later s t)
    (ht : t.step e = some t') : Later s t' := by
  cases e with
  | create did cid tid data =>
    obtain ⟨-, rfl⟩ := step_create ht
    exact { h with }
  | execute =>
    obtain ⟨p, -, rfl⟩ := step_execute ht
    exact { h with }
  | setup =>
    obtain ⟨p, -, rfl⟩ := step_setup ht
    -- a request set up since has a signal that is newer than those before
    have hnew : s.sphero.nextSignal ≤ (t.newRequest p).signal := h.next
    refine ⟨h.received, h.setups.trans (List.prefix_append _ _), Nat.le_succ_of_le h.next, ?_, ?_⟩
    · intro r hr
      rcases List.mem_append.mp hr with hr | hr
      · exact h.newer hr
      · exact Or.inr (List.mem_singleton.mp hr ▸ hnew)
    · intro r hr hold
      rcases List.mem_append.mp hr with hr | hr
      · exact h.live hr hold
      · have hlt := (hs.registered.bounds hold).2.1
        rw [List.mem_singleton.mp hr] at hlt
        exact absurd hlt (Nat.not_lt.mpr hnew)
  | finish =>
    obtain ⟨p, -, rfl⟩ := step_finish ht
    exact { h with }
  | receive q =>
    obtain rfl := step_receive ht
    refine ⟨h.received.trans (List.prefix_append _ _), h.setups, ?_, h.newer, h.live⟩
    rw [Sphero.handlePacket_nextSignal]
    exact h.next
  | wait r =>
    obtain ⟨-, -, rfl⟩ := step_wait ht
    exact { h with }
  | wake =>
    obtain ⟨r, -, rfl⟩ := step_wake ht
    refine ⟨h.received, h.setups, ?_, h.newer, fun hr hold => h.live (List.mem_of_mem_erase hr) hold⟩
    rw [Sphero.waitForResponse_nextSignal]
    exact h.next

theorem later_run {s t : System} {es : List Step} (hs : s.Sound)
    (hrun : Transition.run step s es = some t) : Later s t :=
  Transition.invariant (later_step hs) (later_refl s) hrun

/-! ## The first command of a Sphero -/

/-- The packet of the first `wake_with_response`. -/
def firstWake : Packet := (Power.wake PacketManager.new 0).1

/-- What the robot answers to it. -/
def firstAnswer : Packet :=
  { firstWake with flags := PacketFlags.isResponse, err := PacketError.success }

/-- Its request, when `since` packets were received before `setup_response`. -/
def firstRequest (since : Nat) : Request := ⟨firstWake, 0, 1, since⟩

/-! ## Own response -/

/-- **Responses go to their own request.** -/
theorem response_of_own_request {id : UInt8} {es : List Step} {s : System}
    (hrun : Transition.run step (new id) es = some s) :
    (∀ k, k ∈ s.sphero.responses → k ∈ s.sphero.waiting) ∧
    (∀ k q, s.sphero.responses.lookup k = some q → q.id = k) ∧
    ∀ r, s.thread = .polling r → s.created < r.birth + 255 →
      ∀ res, s.sphero.kPoll r.signal = .ready res →
        (s.sphero.waitForResponse r.signal).2 ≠ .noPacket ∧
        (∃ q, s.sphero.responses.lookup res = some q ∧
          q.did = r.packet.did ∧ q.cid = r.packet.cid ∧ q.seq = r.packet.seq ∧
          q ∈ s.received.drop r.since) ∧
        (∀ k, k ≠ r.packet.id →
          (s.sphero.waitForResponse r.signal).1.waiting.lookup k = s.sphero.waiting.lookup k ∧
          (s.sphero.waitForResponse r.signal).1.responses.lookup k = s.sphero.responses.lookup k) ∧
        ∀ r' ∈ s.setups, r' ≠ r → s.InPlace r' ∨ s.created < r'.birth + 255 →
          r'.packet.id ≠ r.packet.id := by
  have hsound := sound_reachable hrun
  have hmaps := hsound.consistent
  refine ⟨fun k hk => ?_, fun k q hq => (hmaps.stored hq).1, fun r hr hfew res hres => ?_⟩
  · obtain ⟨q, hq⟩ := Finmap.mem_iff.mp hk
    exact (hmaps.stored hq).2
  have hlive := hsound.registered.polling hr
  have hsetup := hsound.registered.live hlive
  obtain ⟨hplace, hanswers, rfl⟩ := (hsound.kPoll_eq_ready hlive).mp hres
  have hmem := (hmaps.entry_of_ready hres).2
  have hwait := Sphero.waitForResponse_of_ready hres hmem
  refine ⟨by rw [hwait]; exact Sphero.WaitResult.noConfusion, ?_, fun k hk => ?_, ?_⟩
  · -- the last answer is what is recorded
    obtain ⟨q, hq⟩ : ∃ q, (s.answers r).getLast? = some q :=
      Option.isSome_iff_exists.mp (List.getLast?_isSome.mpr hanswers)
    have hin := List.mem_filter.mp (List.mem_of_getLast? hq)
    obtain ⟨hdid, hcid, hseq⟩ := Packet.id_eq_iff.mp (of_decide_eq_true hin.2)
    exact ⟨q, hsound.response_eq hlive hplace hq, hdid, hcid, hseq, hin.1⟩
  · rw [hwait]
    exact ⟨Finmap.lookup_erase_ne hk, Finmap.lookup_erase_ne hk⟩
  · rintro r' hr' hne (hplace' | hfew') hid
    · rw [InPlace, hid, show s.sphero.waiting.lookup r.packet.id = some r.signal from hplace,
        Option.some.injEq] at hplace'
      exact hne (hsound.registered.signal_inj hr' hsetup hplace'.symm)
    · -- of two recent requests with one id, one would have taken it over from the other
      rcases Nat.lt_trichotomy r.birth r'.birth with hlt | heq | hlt
      · exact hsound.not_superseded hsetup hfew ⟨r', hr', hlt, hid⟩
      · exact hne (hsound.registered.birth_inj hr' hsetup heq.symm)
      · exact hsound.not_superseded hr' hfew' ⟨r, hsetup, hlt, hid.symm⟩

/-- The first command and its answer. -/
theorem response_of_own_request_wake :
    ∃ s, Transition.run step (new 0)
        [.create 19 13 0 [], .execute, .setup, .receive firstAnswer, .wait (firstRequest 0)]
          = some s ∧
      ∃ q, s.sphero.responses.lookup firstWake.id = some q ∧
        q.did = firstWake.did ∧ q.cid = firstWake.cid ∧ q.seq = firstWake.seq ∧
        q ∈ s.received := by
  refine ⟨_, rfl, ?_⟩
  have hown := @response_of_own_request 0
    [.create 19 13 0 [], .execute, .setup, .receive firstAnswer, .wait (firstRequest 0)] _ rfl
  exact (hown.2.2 (firstRequest 0) rfl (by decide) firstWake.id rfl).2.1

/-! ## Lost response -/

/-- The command of the request has sent its packet: it is set up, or about to be. -/
def Sent (s : System) (r : Request) : Prop :=
  r ∈ s.requests ∨ (s.thread = .executed r.packet ∧ s.created = r.birth)

/-- The response is in `responses` and the request's signal is raised. -/
def Recorded (s : System) (r : Request) (q : Packet) : Prop :=
  s.sphero.responses.lookup r.packet.id = some q ∧
    s.sphero.signals.lookup r.signal = some ⟨true, r.packet.id⟩

/-- A response that comes while the entry is in place is recorded there. -/
theorem recorded_of_inPlace {s s' : System} {r : Request} {q : Packet} (hplace : s.InPlace r)
    (hq : q.id = r.packet.id) (hreceive : s.step (.receive q) = some s') : s'.Recorded r q := by
  have hlookup : s.sphero.waiting.lookup q.id = some r.signal := by
    rw [hq]
    exact hplace
  obtain rfl := step_receive hreceive
  unfold Recorded
  rw [Sphero.handlePacket_of_lookup hlookup, hq]
  exact ⟨Finmap.lookup_insert _, Finmap.lookup_insert _⟩

/-- A response that came after the request was set up is one of its answers from then on. -/
theorem answers_of_received {s s' t : System} {r : Request} {q : Packet}
    (hsince : r.since ≤ s.received.length) (hq : q.id = r.packet.id)
    (hreceive : s.step (.receive q) = some s') (hlater : Later s' t) : t.answers r ≠ [] := by
  obtain rfl := step_receive hreceive
  obtain ⟨rest, hrest⟩ := hlater.received
  have hmem : q ∈ t.received.drop r.since := by
    rw [← hrest, List.append_assoc, List.drop_append_of_le_length hsince]
    exact List.mem_append_right _ (List.mem_cons_self)
  exact List.ne_nil_of_mem (List.mem_filter.mpr ⟨hmem, decide_eq_true hq⟩)

/-- **When a response is not lost.**  `q` comes in state `s`, the wait of `r` ends in state `t`. -/
theorem response_kept_iff {id : UInt8} {es fs : List Step} {s s' t : System} {r : Request}
    {q : Packet} (hrun : Transition.run step (new id) es = some s) (hq : q.id = r.packet.id)
    (hreceive : s.step (.receive q) = some s') (hrest : Transition.run step s' fs = some t)
    (hpolling : t.thread = .polling r) :
    (s'.Recorded r q ∧ t.sphero.kPoll r.signal = .ready r.packet.id) ↔
      r ∈ s.requests ∧ ¬ t.Superseded r := by
  have hs := sound_reachable hrun
  have hs' := sound_step hs hreceive
  have ht := sound_run hs' hrest
  have hlive := ht.registered.polling hpolling
  have hlater := later_run hs' hrest
  have hsame := step_receive hreceive
  constructor
  · rintro ⟨⟨-, hraised⟩, hready⟩
    obtain ⟨hplace, -, -⟩ := (ht.kPoll_eq_ready hlive).mp hready
    refine ⟨?_, (ht.placed r hlive).mp hplace⟩
    -- the signal is there already, so the request was set up before the response came
    have hlt := hs'.consistent.fresh (Finmap.mem_of_lookup_eq_some hraised)
    rcases hlater.newer (ht.registered.live hlive) with hold | hnew
    · have hr := hlater.live hlive hold
      rw [hsame] at hr
      exact hr
    · exact absurd hlt (Nat.not_lt.mpr hnew)
  · rintro ⟨hr, hsup⟩
    have hsince := (hs.registered.bounds (hs.registered.live hr)).2.2
    have hbefore : ¬ s.Superseded r := by
      rintro ⟨r', hr', hlt⟩
      have hmem : r' ∈ s'.setups := by rw [hsame]; exact hr'
      exact hsup ⟨r', hlater.setups.subset hmem, hlt⟩
    exact ⟨recorded_of_inPlace ((hs.placed r hr).mpr hbefore) hq hreceive,
      (ht.kPoll_eq_ready hlive).mpr
        ⟨(ht.placed r hlive).mpr hsup, answers_of_received hsince hq hreceive hlater, rfl⟩⟩

/-- The first command, answered after `setup_response`. -/
theorem response_kept_iff_wake :
    ∃ s s' t, Transition.run step (new 0) [.create 19 13 0 [], .execute, .setup] = some s ∧
      s.step (.receive firstAnswer) = some s' ∧
      Transition.run step s' [.wait (firstRequest 0)] = some t ∧
      ((s'.Recorded (firstRequest 0) firstAnswer ∧
        t.sphero.kPoll (firstRequest 0).signal = .ready (firstRequest 0).packet.id) ↔
        firstRequest 0 ∈ s.requests ∧ ¬ t.Superseded (firstRequest 0)) := by
  refine ⟨_, _, _, rfl, rfl, rfl, ?_⟩
  exact @response_kept_iff 0 [.create 19 13 0 [], .execute, .setup] [.wait (firstRequest 0)]
    _ _ _ _ _ rfl rfl rfl rfl rfl

/-- Every response that comes after its packet was sent and before the wait ends is kept. -/
def NoLostResponse : Prop :=
  ∀ (id : UInt8) (es fs : List Step) (s s' t : System) (r : Request) (q : Packet),
    Transition.run step (new id) es = some s → s.Sent r → q.id = r.packet.id →
    s.step (.receive q) = some s' → Transition.run step s' fs = some t →
    t.thread = .polling r →
      s'.Recorded r q ∧ t.sphero.kPoll r.signal = .ready r.packet.id

/-- The answer to the first command comes between `execute` and `setup_response`. -/
theorem lost_response : ¬ NoLostResponse := by
  intro h
  have hkept := h 0 [.create 19 13 0 [], .execute] [.setup, .wait (firstRequest 1)] _ _ _
    (firstRequest 1) firstAnswer rfl (Or.inr ⟨rfl, rfl⟩) rfl rfl rfl rfl
  exact absurd hkept.2 (by decide)

end System

end NrfSpheros
