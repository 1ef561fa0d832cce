/-
  What the end of a `wait_for_response` returns, and what it leaves in the maps.

  1. **Stored packet** (`stored_packet_not_read`) — the wait finds the response of its id, takes the
     id out of `waiting` and `responses` and leaves every other entry alone; but the packet it
     returns is read through the iterator of the entry it has just erased.

  2. **Leftovers** (`no_leftover_iff`) — the erasure is on the successful exit only: the id of a wait
     that times out stays in `waiting`, and a late response to it is recorded for nobody.  The maps
     belong to requests whose wait is still to return exactly when every wait that returns was
     answered, or its id is not left in `waiting`, or is that of another such request.
-/
import NrfSpheros.Sphero.Delivery

namespace NrfSpheros

namespace Sphero

open NrfSpheros.System (firstAnswer)

/-! ## Stored packet -/

/-- The wait takes the entries of `k` out of both maps and no others. -/
structure TakesOut (s : Sphero) (σ : SignalPtr) (k : UInt32) : Prop where
  waiting : k ∉ (s.waitForResponse σ).1.waiting
  responses : k ∉ (s.waitForResponse σ).1.responses
  others : ∀ j, j ≠ k →
    (s.waitForResponse σ).1.waiting.lookup j = s.waiting.lookup j ∧
      (s.waitForResponse σ).1.responses.lookup j = s.responses.lookup j

/-- The wait returns the packet stored for `k`, read while its entry is there, and takes `k` out. -/
def ReturnsStored (s : Sphero) (σ : SignalPtr) (k : UInt32) (q : Packet) : Prop :=
  (s.waitForResponse σ).2 = .read (some q) ∧ s.TakesOut σ k

theorem takesOut_of_ready {s : Sphero} {σ : SignalPtr} {k : UInt32} (hready : s.kPoll σ = .ready k)
    (hk : k ∈ s.responses) : s.TakesOut σ k := by
  have hwait := waitForResponse_of_ready hready hk
  constructor
  · rw [hwait]
    exact fun hmem => (Finmap.mem_erase.mp hmem).1 rfl
  · rw [hwait]
    exact fun hmem => (Finmap.mem_erase.mp hmem).1 rfl
  · intro j hj
    rw [hwait]
    exact ⟨Finmap.lookup_erase_ne hj, Finmap.lookup_erase_ne hj⟩

/-- **The maps are as they should be, the packet is not read from them**: no wait that finds its
    response returns it through a valid iterator. -/
theorem stored_packet_not_read {s : Sphero} {σ : SignalPtr} {k : UInt32} {q : Packet}
    (hready : s.kPoll σ = .ready k) (hq : s.responses.lookup k = some q) (_hk : k ∈ s.waiting) :
    ¬ s.ReturnsStored σ k q ∧ s.TakesOut σ k ∧ (s.waitForResponse σ).2 = .read none := by
  have hmem := Finmap.mem_of_lookup_eq_some hq
  have hread : (s.waitForResponse σ).2 = .read none := by
    rw [waitForResponse_of_ready hready hmem]
  refine ⟨?_, takesOut_of_ready hready hmem, hread⟩
  rintro ⟨hstored, -⟩
  rw [hread, WaitResult.read.injEq] at hstored
  exact absurd hstored (by simp)

/-- A Sphero that waits for the answer to one command, just received. -/
def answered (q : Packet) : Sphero := ((create 0).setupResponse q).1.handlePacket q

theorem stored_packet_not_read_wake :
    ¬ (answered firstAnswer).ReturnsStored 0 firstAnswer.id firstAnswer ∧
      (answered firstAnswer).TakesOut 0 firstAnswer.id ∧
      ((answered firstAnswer).waitForResponse 0).2 = .read none :=
  stored_packet_not_read (by decide) (by decide) (by decide)

theorem returns_stored_fails :
    ¬ ∀ (s : Sphero) (σ : SignalPtr) (k : UInt32) (q : Packet), s.kPoll σ = .ready k →
      s.responses.lookup k = some q → k ∈ s.waiting → s.ReturnsStored σ k q := by
  intro h
  have hstored := h (answered firstAnswer) 0 firstAnswer.id firstAnswer (by decide) (by decide)
    (by decide)
  exact absurd hstored.1 (by decide)

end Sphero

namespace System

/-! ## Leftovers -/

/-- The id of a request that was set up and whose wait has not returned. -/
def Pending (s : System) (k : UInt32) : Prop := ∃ r ∈ s.requests, r.packet.id = k

/-- Every key belongs to a pending request, and a response to no pending request is dropped. -/
structure NoLeftover (s : System) : Prop where
  keys : ∀ k, k ∈ s.sphero.waiting ∨ k ∈ s.sphero.responses → s.Pending k
  dropped : ∀ q, ¬ s.Pending q.id → s.sphero.handlePacket q = s.sphero

/-- The second half follows from the first, and of the two maps `waiting` is the larger one. -/
theorem noLeftover_iff {s : System} (hc : s.sphero.Consistent) :
    s.NoLeftover ↔ ∀ k ∈ s.sphero.waiting, s.Pending k := by
  constructor
  · exact fun h k hk => h.keys k (Or.inl hk)
  · intro h
    constructor
    · rintro k (hk | hk)
      · exact h k hk
      · obtain ⟨q, hq⟩ := Finmap.mem_iff.mp hk
        exact h k (hc.stored hq).2
    · intro q hq
      have hout : q.id ∉ s.sphero.waiting := fun hmem => hq (h _ hmem)
      exact Sphero.handlePacket_of_lookup_none (Finmap.lookup_eq_none.mpr hout)

theorem noLeftover_new (id : UInt8) : (new id).NoLeftover := by
  rw [noLeftover_iff (Sphero.consistent_create id)]
  exact fun k hk => absurd hk Finmap.notMem_empty

/-- The wait that returns was answered, or its id is not left in `waiting`, or another pending
    request has it. -/
def Cleared (s : System) : Step → Prop
  | .wake => ∀ r, s.thread = .polling r →
      (s.InPlace r ∧ s.answers r ≠ []) ∨ r.packet.id ∉ s.sphero.waiting ∨
        ∃ r' ∈ s.requests, r' ≠ r ∧ r'.packet.id = r.packet.id
  | _ => True

/-- A wait that was not answered changes nothing. -/
theorem waitForResponse_of_unanswered {s : System} {r : Request} (hs : s.Sound)
    (hr : r ∈ s.requests) (hun : ¬ (s.InPlace r ∧ s.answers r ≠ [])) :
    (s.sphero.waitForResponse r.signal).1 = s.sphero := by
  rcases Sphero.waitForResponse_cases s.sphero r.signal with heq | ⟨res, hready, -, -⟩
  · exact heq
  · obtain ⟨hplace, hanswers, -⟩ := (hs.kPoll_eq_ready hr).mp hready
    exact absurd ⟨hplace, hanswers⟩ hun

/-- A wait that was answered leaves the ids of the others. -/
theorem mem_waiting_of_answered {s : System} {r : Request} (hs : s.Sound) (hr : r ∈ s.requests)
    (hplace : s.InPlace r) (hanswers : s.answers r ≠ []) {k : UInt32}
    (hk : k ∈ (s.sphero.waitForResponse r.signal).1.waiting) :
    k ≠ r.packet.id ∧ k ∈ s.sphero.waiting := by
  have hready := (hs.kPoll_eq_ready hr).mpr ⟨hplace, hanswers, rfl⟩
  rw [Sphero.waitForResponse_of_ready hready (hs.consistent.entry_of_ready hready).2] at hk
  exact Finmap.mem_erase.mp hk

theorem noLeftover_wake {s s' : System} (hs : s.Sound) (hj : s.NoLeftover)
    (h : s.step .wake = some s') : s'.NoLeftover ↔ s.Cleared .wake := by
  have hs' := sound_step hs h
  rw [noLeftover_iff hs'.consistent]
  obtain ⟨r, ht, rfl⟩ := step_wake h
  have hr := hs.registered.polling ht
  have hpending : ∀ k, Pending { s with
      sphero := (s.sphero.waitForResponse r.signal).1
      thread := .idle
      requests := s.requests.erase r } k ↔ ∃ r' ∈ s.requests, r' ≠ r ∧ r'.packet.id = k := by
    intro k
    refine exists_congr fun r' => ?_
    rw [hs.registered.nodup.mem_erase_iff, and_comm (a := r' ≠ r), and_assoc]
  have hcleared : s.Cleared .wake ↔
      (s.InPlace r ∧ s.answers r ≠ []) ∨ r.packet.id ∉ s.sphero.waiting ∨
        ∃ r' ∈ s.requests, r' ≠ r ∧ r'.packet.id = r.packet.id := by
    constructor
    · exact fun hc => hc r ht
    · intro hc r' ht'
      rw [ht, Thread.polling.injEq] at ht'
      exact ht' ▸ hc
  -- a key of another id still has the request it had
  have hother : ∀ k ∈ s.sphero.waiting, k ≠ r.packet.id →
      ∃ r' ∈ s.requests, r' ≠ r ∧ r'.packet.id = k := by
    intro k hk hne
    obtain ⟨r', hr', rfl⟩ := hj.keys k (Or.inl hk)
    exact ⟨r', hr', fun e => hne (by rw [e]), rfl⟩
  simp only [hpending, hcleared]
  by_cases hun : s.InPlace r ∧ s.answers r ≠ []
  · refine iff_of_true (fun k hk => ?_) (Or.inl hun)
    obtain ⟨hne, hk⟩ := mem_waiting_of_answered hs hr hun.1 hun.2 hk
    exact hother k hk hne
  · rw [waitForResponse_of_unanswered hs hr hun, or_iff_right hun]
    constructor
    · intro hkeys
      by_cases hmem : r.packet.id ∈ s.sphero.waiting
      · exact Or.inr (hkeys _ hmem)
      · exact Or.inl hmem
    · rintro hclear k hk
      by_cases hne : k = r.packet.id
      · subst hne
        exact hclear.resolve_left (not_not.mpr hk)
      · exact hother k hk hne

theorem noLeftover_step {s s' : System} {e : Step} (hs : s.Sound) (hj : s.NoLeftover)
    (h : s.step e = some s') : s'.NoLeftover ↔ s.Cleared e := by
  have hkeys := (noLeftover_iff hs.consistent).mp hj
  have hiff := noLeftover_iff (sound_step hs h).consistent
  cases e with
  | create did cid tid data =>
    obtain ⟨-, rfl⟩ := step_create h
    exact iff_of_true (hiff.mpr hkeys) trivial
  | execute =>
    obtain ⟨p, -, rfl⟩ := step_execute h
    exact iff_of_true (hiff.mpr hkeys) trivial
  | setup =>
    obtain ⟨p, -, rfl⟩ := step_setup h
    refine iff_of_true (hiff.mpr fun k hk => ?_) trivial
    -- the new entry belongs to the new request
    rcases Finmap.mem_insert.mp hk with rfl | hk
    · exact ⟨s.newRequest p, List.mem_append_right _ (List.mem_singleton_self _), rfl⟩
    · obtain ⟨r, hr, hid⟩ := hkeys k hk
      exact ⟨r, List.mem_append_left _ hr, hid⟩
  | finish =>
    obtain ⟨p, -, rfl⟩ := step_finish h
    exact iff_of_true (hiff.mpr hkeys) trivial
  | receive q =>
    obtain rfl := step_receive h
    refine iff_of_true (hiff.mpr fun k hk => ?_) trivial
    rw [Sphero.handlePacket_waiting] at hk
    exact hkeys k hk
  | wait r =>
    obtain ⟨-, -, rfl⟩ := step_wait h
    exact iff_of_true (hiff.mpr hkeys) trivial
  | wake => exact noLeftover_wake hs hj h

theorem cleared_of_none {s : System} {e : Step} (h : s.step e = none) : s.Cleared e := by
  cases e with
  | wake =>
    intro r ht
    simp only [step, ht] at h
    cases h
  | _ => trivial

/-- **No leftover request state.** -/
theorem no_leftover_iff (id : UInt8) (es : List Step) :
    Transition.Always step NoLeftover (new id) es ↔ Transition.Along step Cleared (new id) es :=
  Transition.always_iff_along noLeftover_step cleared_of_none sound_step (sound_new id)
    (noLeftover_new id) es

/-- The first command times out, and its answer comes late. -/
def lateAnswer : List Step :=
  [.create 19 13 0 [], .execute, .setup, .wait (firstRequest 0), .wake, .receive firstAnswer]

/-- The answer is recorded, and nobody waits for it. -/
theorem leftover_late_answer :
    ¬ ∀ (id : UInt8) (es : List Step), Transition.Always step NoLeftover (new id) es := by
  intro h
  obtain ⟨s, hs, hmem, hnone⟩ : ∃ s, Transition.run step (new 0) lateAnswer = some s ∧
      firstAnswer.id ∈ s.sphero.responses ∧ s.requests = [] :=
    ⟨_, rfl, by decide, by decide⟩
  obtain ⟨r, hr, -⟩ := (Transition.always_run (h 0 lateAnswer) hs).keys _ (Or.inr hmem)
  rw [hnone] at hr
  exact absurd hr List.not_mem_nil

end System

end NrfSpheros
