/-
  `sphero.cpp`, the response side of a Sphero object: `setup_response`, `handle_packet` and
  `wait_for_response` over the maps `waiting` and `responses`.

  * An `std::unordered_map` is a `Finmap`; `insert_or_assign` is `insert`.
  * `waiting` owns its signals: the `shared_ptr` in the map is the only one that outlives a call,
    so a signal exists while its entry does.  `signals` is the part of the heap that holds them.
    A `CommandResponse` is a raw pointer to a signal; waiting on it when the signal is gone is
    undefined behaviour.  `make_shared` takes a pointer not used before.
  * An iterator into a map is valid while its key is in the map.  `wait_for_response` reads its
    iterator after erasing the key.
-/
import Mathlib.Data.Finmap
import NrfSpheros.Controls.PacketManager
import NrfSpheros.Controls.PacketCollector

namespace NrfSpheros

/-- The address of a signal. -/
abbrev SignalPtr := Nat

/-- `struct k_poll_signal`. -/
structure KPollSignal where
  signaled : Bool
  result : UInt32
deriving DecidableEq, Repr

/-- The fields of a Sphero object. -/
structure Sphero where
  /-- The id of the Sphero context. -/
  spheroId : UInt8
  /-- The index of the next animation frame. -/
  frameIndex : UInt16
  /-- The index of the next animation. -/
  animationIndex : UInt8
  packetManager : PacketManager
  packetCollector : PacketCollector
  waiting : Finmap fun _ : UInt32 => SignalPtr
  responses : Finmap fun _ : UInt32 => Packet
  /-- The signals that `waiting` owns. -/
  signals : Finmap fun _ : SignalPtr => KPollSignal
  /-- The next pointer `make_shared` returns. -/
  nextSignal : SignalPtr

namespace Sphero

/-- The members as the constructor sets them, before it subscribes. -/
def create (id : UInt8) : Sphero where
  spheroId := id
  frameIndex := 0
  animationIndex := 0
  packetManager := PacketManager.new
  packetCollector := PacketCollector.new
  waiting := ∅
  responses := ∅
  signals := ∅
  nextSignal := 0

/-- The signal a removed or overwritten entry owned is destroyed with it. -/
def release (s : Sphero) (id : UInt32) : Finmap fun _ : SignalPtr => KPollSignal :=
  match s.waiting.lookup id with
  | none => s.signals
  | some old => s.signals.erase old

/-- `k_poll_signal_raise(signal, result)`. -/
def raise (s : Sphero) (signal : SignalPtr) (result : UInt32) : Sphero :=
  { s with signals := s.signals.insert signal ⟨true, result⟩ }

/-- `Sphero::handle_packet`: a packet that is waited for is stored, and its signal raised. -/
def handlePacket (s : Sphero) (packet : Packet) : Sphero :=
  let id := packet.id
  match s.waiting.lookup id with
  | none => s
  | some signal => raise { s with responses := s.responses.insert id packet } signal id

/-- `Sphero::setup_response`: a new signal, in the place of an older one for the same id. -/
def setupResponse (s : Sphero) (packet : Packet) : Sphero × SignalPtr :=
  let signal := s.nextSignal
  let id := packet.id
  ({ s with
      signals := (s.release id).insert signal ⟨false, 0⟩
      nextSignal := s.nextSignal + 1
      waiting := s.waiting.insert id signal }, signal)

/-- How `k_poll(response, 1, K_MSEC(10000))` ends, called when nothing more will happen to the
    signal before the timeout. -/
inductive PollResult
  /-- The signal was raised, with this result. -/
  | ready (result : UInt32)
  /-- An error code: the timeout. -/
  | timeout
  /-- The pointer is dangling: undefined behaviour. -/
  | dangling
deriving DecidableEq, Repr

/-- `k_poll` on the signal, when it ends. -/
def kPoll (s : Sphero) (response : SignalPtr) : PollResult :=
  match s.signals.lookup response with
  | none => .dangling
  | some signal => if signal.signaled then .ready signal.result else .timeout

/-- How `wait_for_response` ends. -/
inductive WaitResult
  /-- "Failed to wait for response", `nullopt`. -/
  | timeout
  /-- "No packet for packet id", `nullopt`. -/
  | noPacket
  /-- `packet->second`, a packet if the iterator is still valid when it is read. -/
  | read (packet : Option Packet)
  /-- The signal was gone. -/
  | dangling
deriving DecidableEq, Repr

/-- `Sphero::wait_for_response`: the entry is erased, and then read. -/
def waitForResponse (s : Sphero) (response : SignalPtr) : Sphero × WaitResult :=
  match s.kPoll response with
  | .dangling => (s, .dangling)
  | .timeout => (s, .timeout)
  | .ready res =>
    -- `auto packet = responses.find(res)`: the iterator is the key, or `end()`
    if res ∉ s.responses then (s, .noPacket)
    else
      let s := { s with signals := s.release res, waiting := s.waiting.erase res }
      let s := { s with responses := s.responses.erase res }
      (s, .read (s.responses.lookup res))

/-- `received_cb_wrapper`: one notification through the packet collector. -/
def receivedCb (s : Sphero) (chunk : Chunk) : Sphero × Option Exit :=
  let r := s.packetCollector.addPacket chunk
  let s := { s with packetCollector := r.state }
  ((callbacks r.out).foldl handlePacket s, r.exit)

/-! ## What the functions do -/

/-- A packet that nobody waits for. -/
theorem handlePacket_of_lookup_none {s : Sphero} {q : Packet} (h : s.waiting.lookup q.id = none) :
    s.handlePacket q = s := by
  simp only [handlePacket, h]

/-- One that is waited for. -/
theorem handlePacket_of_lookup {s : Sphero} {q : Packet} {σ : SignalPtr}
    (h : s.waiting.lookup q.id = some σ) :
    s.handlePacket q =
      { s with
        responses := s.responses.insert q.id q
        signals := s.signals.insert σ ⟨true, q.id⟩ } := by
  simp only [handlePacket, h, raise]

@[simp] theorem handlePacket_waiting (s : Sphero) (q : Packet) :
    (s.handlePacket q).waiting = s.waiting := by
  cases h : s.waiting.lookup q.id with
  | none => rw [handlePacket_of_lookup_none h]
  | some σ => rw [handlePacket_of_lookup h]

@[simp] theorem handlePacket_nextSignal (s : Sphero) (q : Packet) :
    (s.handlePacket q).nextSignal = s.nextSignal := by
  cases h : s.waiting.lookup q.id with
  | none => rw [handlePacket_of_lookup_none h]
  | some σ => rw [handlePacket_of_lookup h]

@[simp] theorem handlePacket_packetManager (s : Sphero) (q : Packet) :
    (s.handlePacket q).packetManager = s.packetManager := by
  cases h : s.waiting.lookup q.id with
  | none => rw [handlePacket_of_lookup_none h]
  | some σ => rw [handlePacket_of_lookup h]

/-- A notification adds no entries and creates no packets. -/
theorem receivedCb_frame (s : Sphero) (chunk : Chunk) :
    (s.receivedCb chunk).1.waiting = s.waiting ∧
      (s.receivedCb chunk).1.packetManager = s.packetManager := by
  have hfold : ∀ (packets : List Packet) (t : Sphero),
      (packets.foldl handlePacket t).waiting = t.waiting ∧
        (packets.foldl handlePacket t).packetManager = t.packetManager := by
    intro packets
    induction packets with
    | nil => exact fun t => ⟨rfl, rfl⟩
    | cons q packets ih =>
      intro t
      obtain ⟨hw, hm⟩ := ih (t.handlePacket q)
      rw [handlePacket_waiting] at hw
      rw [handlePacket_packetManager] at hm
      exact ⟨hw, hm⟩
  exact hfold _ _

/-- A poll is ready if the signal is raised. -/
theorem kPoll_eq_ready {s : Sphero} {σ : SignalPtr} {v : UInt32} :
    s.kPoll σ = .ready v ↔ s.signals.lookup σ = some ⟨true, v⟩ := by
  unfold kPoll
  cases h : s.signals.lookup σ with
  | none => simp
  | some signal =>
    rcases signal with ⟨b, r⟩
    cases b <;> simp

/-- The wait for a raised signal whose response is there takes the id out of the maps and then
    reads an iterator to the erased key. -/
theorem waitForResponse_of_ready {s : Sphero} {σ : SignalPtr} {res : UInt32}
    (h : s.kPoll σ = .ready res) (hres : res ∈ s.responses) :
    s.waitForResponse σ =
      ({ s with
          signals := s.release res
          waiting := s.waiting.erase res
          responses := s.responses.erase res }, .read none) := by
  simp only [waitForResponse, h, hres, not_true, if_false, Finmap.lookup_erase]

/-- Waiting either changes nothing, or it ends with the removal of the entry it found. -/
theorem waitForResponse_cases (s : Sphero) (σ : SignalPtr) :
    (s.waitForResponse σ).1 = s ∨
      ∃ res, s.kPoll σ = .ready res ∧ res ∈ s.responses ∧
        (s.waitForResponse σ).1 =
          { s with
            signals := s.release res
            waiting := s.waiting.erase res
            responses := s.responses.erase res } := by
  cases h : s.kPoll σ with
  | dangling => exact Or.inl (by simp only [waitForResponse, h])
  | timeout => exact Or.inl (by simp only [waitForResponse, h])
  | ready res =>
    by_cases hres : res ∈ s.responses
    · exact Or.inr ⟨res, rfl, hres, by rw [waitForResponse_of_ready h hres]⟩
    · exact Or.inl (by simp only [waitForResponse, h, hres, not_false_iff, if_true])

@[simp] theorem waitForResponse_nextSignal (s : Sphero) (σ : SignalPtr) :
    (s.waitForResponse σ).1.nextSignal = s.nextSignal := by
  rcases waitForResponse_cases s σ with heq | ⟨res, -, -, heq⟩ <;> rw [heq]

@[simp] theorem waitForResponse_packetManager (s : Sphero) (σ : SignalPtr) :
    (s.waitForResponse σ).1.packetManager = s.packetManager := by
  rcases waitForResponse_cases s σ with heq | ⟨res, -, -, heq⟩ <;> rw [heq]

/-- A wait makes no entries. -/
theorem lookup_of_waitForResponse {s : Sphero} {σ τ : SignalPtr} {id : UInt32}
    (h : (s.waitForResponse σ).1.waiting.lookup id = some τ) : s.waiting.lookup id = some τ := by
  rcases waitForResponse_cases s σ with heq | ⟨res, -, -, heq⟩
  · rwa [heq] at h
  · rw [heq] at h
    by_cases hid : id = res
    · rw [hid, Finmap.lookup_erase] at h
      cases h
    · rwa [Finmap.lookup_erase_ne hid] at h

/-- What is left of the signals when the entry of `id` goes: those the other entries own. -/
theorem lookup_release (s : Sphero) (id : UInt32) (σ : SignalPtr) :
    (s.release id).lookup σ =
      if s.waiting.lookup id = some σ then none else s.signals.lookup σ := by
  unfold release
  cases hid : s.waiting.lookup id with
  | none => simp
  | some old =>
    by_cases hσ : old = σ
    · rw [if_pos (by rw [hσ]), hσ]
      exact Finmap.lookup_erase σ s.signals
    · rw [if_neg (by simpa using hσ)]
      exact Finmap.lookup_erase_ne (Ne.symm hσ)

theorem mem_release {s : Sphero} {id : UInt32} {σ : SignalPtr} :
    σ ∈ s.release id ↔ σ ∈ s.signals ∧ s.waiting.lookup id ≠ some σ := by
  rw [← Finmap.lookup_isSome, lookup_release, ← Finmap.lookup_isSome]
  by_cases hσ : s.waiting.lookup id = some σ <;> simp [hσ]

/-! ## What holds of the maps of every Sphero object -/

/-- The three maps fit together: the signals are those `waiting` owns, each by one entry, and a
    raised one belongs to the id it was raised with, whose response is there. -/
structure Consistent (s : Sphero) : Prop where
  /-- The signal of an entry exists. -/
  owned : ∀ {k σ}, s.waiting.lookup k = some σ → σ ∈ s.signals
  /-- Every signal is owned by an entry. -/
  owner : ∀ {σ}, σ ∈ s.signals → ∃ k, s.waiting.lookup k = some σ
  /-- Two entries do not share a signal. -/
  inj : ∀ {k l σ}, s.waiting.lookup k = some σ → s.waiting.lookup l = some σ → k = l
  /-- `make_shared` has returned every signal there is. -/
  fresh : ∀ {σ}, σ ∈ s.signals → σ < s.nextSignal
  /-- A raised signal carries its own id, and the response is recorded. -/
  raised : ∀ {k σ v}, s.waiting.lookup k = some σ → s.signals.lookup σ = some ⟨true, v⟩ →
    v = k ∧ k ∈ s.responses
  /-- A response lies under its own id, which is in `waiting`. -/
  stored : ∀ {k q}, s.responses.lookup k = some q → q.id = k ∧ k ∈ s.waiting

/-- A new object has no entries. -/
theorem consistent_create (id : UInt8) : (create id).Consistent where
  owned h := absurd h (by simp [create])
  owner h := absurd h Finmap.notMem_empty
  inj h := absurd h (by simp [create])
  fresh h := absurd h Finmap.notMem_empty
  raised h := absurd h (by simp [create])
  stored h := absurd h (by simp [create])

namespace Consistent

variable {s : Sphero}

/-- The entry of a signal that was raised. -/
theorem entry_of_ready (h : s.Consistent) {σ : SignalPtr} {v : UInt32}
    (hv : s.kPoll σ = .ready v) : s.waiting.lookup v = some σ ∧ v ∈ s.responses := by
  rw [kPoll_eq_ready] at hv
  obtain ⟨k, hk⟩ := h.owner (Finmap.mem_of_lookup_eq_some hv)
  obtain ⟨rfl, hr⟩ := h.raised hk hv
  exact ⟨hk, hr⟩

/-- `handle_packet` keeps the maps together. -/
theorem handlePacket (h : s.Consistent) (q : Packet) : (s.handlePacket q).Consistent := by
  cases hw : s.waiting.lookup q.id with
  | none =>
    rw [handlePacket_of_lookup_none hw]
    exact h
  | some σ =>
    rw [handlePacket_of_lookup hw]
    have hσ := h.owned hw
    have hsig : ∀ {τ}, τ ∈ s.signals.insert σ ⟨true, q.id⟩ ↔ τ ∈ s.signals := by
      intro τ
      rw [Finmap.mem_insert]
      exact ⟨fun hτ => hτ.elim (fun e => e ▸ hσ) id, Or.inr⟩
    constructor
    · exact fun hk => hsig.mpr (h.owned hk)
    · exact fun hτ => h.owner (hsig.mp hτ)
    · exact h.inj
    · exact fun hτ => h.fresh (hsig.mp hτ)
    · intro k τ v hk hv
      -- the signal just raised, or one that was raised before
      by_cases hτ : τ = σ
      · subst hτ
        rw [Finmap.lookup_insert, Option.some.injEq, KPollSignal.mk.injEq] at hv
        have hkq : k = q.id := h.inj hk hw
        exact ⟨by rw [← hv.2, hkq], Finmap.mem_insert.mpr (Or.inl hkq)⟩
      · rw [Finmap.lookup_insert_of_ne _ hτ] at hv
        obtain ⟨rfl, hr⟩ := h.raised hk hv
        exact ⟨rfl, Finmap.mem_insert.mpr (Or.inr hr)⟩
    · intro k r hr
      by_cases hk : k = q.id
      · subst hk
        rw [Finmap.lookup_insert, Option.some.injEq] at hr
        exact ⟨by rw [← hr], Finmap.mem_of_lookup_eq_some hw⟩
      · rw [Finmap.lookup_insert_of_ne _ hk] at hr
        exact h.stored hr

/-- `setup_response` replaces the entry of an id together with its signal. -/
theorem setupResponse (h : s.Consistent) (p : Packet) : (s.setupResponse p).1.Consistent := by
  have hnew : s.nextSignal ∉ s.signals := fun hn => Nat.lt_irrefl _ (h.fresh hn)
  -- the entries afterwards: the new one, and the old ones under other ids
  have hentry : ∀ {k σ}, (s.waiting.insert p.id s.nextSignal).lookup k = some σ →
      (k = p.id ∧ σ = s.nextSignal) ∨ (k ≠ p.id ∧ σ ≠ s.nextSignal ∧ s.waiting.lookup k = some σ) := by
    intro k σ hk
    by_cases hkp : k = p.id
    · subst hkp
      rw [Finmap.lookup_insert, Option.some.injEq] at hk
      exact Or.inl ⟨rfl, hk.symm⟩
    · rw [Finmap.lookup_insert_of_ne _ hkp] at hk
      exact Or.inr ⟨hkp, fun e => hnew (e ▸ h.owned hk), hk⟩
  unfold Sphero.setupResponse
  constructor
  · intro k σ hk
    rcases hentry hk with ⟨-, rfl⟩ | ⟨hkp, -, hk⟩
    · exact Finmap.mem_insert.mpr (Or.inl rfl)
    · exact Finmap.mem_insert.mpr
        (Or.inr (mem_release.mpr ⟨h.owned hk, fun e => hkp (h.inj hk e)⟩))
  · intro σ hσ
    rcases Finmap.mem_insert.mp hσ with rfl | hσ
    · exact ⟨p.id, Finmap.lookup_insert _⟩
    · obtain ⟨hσ, hne⟩ := mem_release.mp hσ
      obtain ⟨k, hk⟩ := h.owner hσ
      have hkp : k ≠ p.id := fun e => hne (e ▸ hk)
      exact ⟨k, (Finmap.lookup_insert_of_ne _ hkp).trans hk⟩
  · intro k l σ hk hl
    rcases hentry hk with ⟨rfl, hσ⟩ | ⟨-, hσ, hk⟩ <;> rcases hentry hl with ⟨rfl, hσ'⟩ | ⟨-, hσ', hl⟩
    · rfl
    · exact absurd hσ hσ'
    · exact absurd hσ' hσ
    · exact h.inj hk hl
  · intro σ hσ
    rcases Finmap.mem_insert.mp hσ with rfl | hσ
    · exact Nat.lt_succ_self _
    · exact Nat.lt_succ_of_lt (h.fresh (mem_release.mp hσ).1)
  · intro k σ v hk hv
    rcases hentry hk with ⟨rfl, rfl⟩ | ⟨hkp, hσ, hk⟩
    · rw [Finmap.lookup_insert, Option.some.injEq, KPollSignal.mk.injEq] at hv
      exact absurd hv.1 Bool.false_ne_true
    · rw [Finmap.lookup_insert_of_ne _ hσ, lookup_release, if_neg (fun e => hkp (h.inj hk e))] at hv
      exact h.raised hk hv
  · intro k q hq
    obtain ⟨hid, hk⟩ := h.stored hq
    exact ⟨hid, Finmap.mem_insert.mpr (Or.inr hk)⟩

/-- `wait_for_response` takes an id out of all three maps, or changes nothing. -/
theorem waitForResponse (h : s.Consistent) (σ : SignalPtr) :
    (s.waitForResponse σ).1.Consistent := by
  rcases waitForResponse_cases s σ with heq | ⟨res, -, -, heq⟩
  · rw [heq]
    exact h
  rw [heq]
  -- the entries left are those of the other ids
  have hentry : ∀ {k τ}, (s.waiting.erase res).lookup k = some τ →
      k ≠ res ∧ s.waiting.lookup k = some τ := by
    intro k τ hk
    have hne : k ≠ res := by
      rintro rfl
      rw [Finmap.lookup_erase] at hk
      exact absurd hk (by simp)
    rw [Finmap.lookup_erase_ne hne] at hk
    exact ⟨hne, hk⟩
  constructor
  · intro k τ hk
    obtain ⟨hne, hk⟩ := hentry hk
    exact mem_release.mpr ⟨h.owned hk, fun e => hne (h.inj hk e)⟩
  · intro τ hτ
    obtain ⟨hτ, hne⟩ := mem_release.mp hτ
    obtain ⟨k, hk⟩ := h.owner hτ
    have hkr : k ≠ res := fun e => hne (e ▸ hk)
    exact ⟨k, (Finmap.lookup_erase_ne hkr).trans hk⟩
  · exact fun hk hl => h.inj (hentry hk).2 (hentry hl).2
  · exact fun hτ => h.fresh (mem_release.mp hτ).1
  · intro k τ v hk hv
    obtain ⟨hne, hk⟩ := hentry hk
    rw [lookup_release, if_neg (fun e => hne (h.inj hk e))] at hv
    obtain ⟨rfl, hr⟩ := h.raised hk hv
    exact ⟨rfl, Finmap.mem_erase.mpr ⟨hne, hr⟩⟩
  · intro k q hq
    have hne : k ≠ res := by
      rintro rfl
      rw [Finmap.lookup_erase] at hq
      exact absurd hq (by simp)
    rw [Finmap.lookup_erase_ne hne] at hq
    obtain ⟨hid, hk⟩ := h.stored hq
    exact ⟨hid, Finmap.mem_erase.mpr ⟨hne, hk⟩⟩

end Consistent

/-! ## The three maps as one -/

/-- What a Sphero object holds for one id. -/
structure Entry where
  signal : SignalPtr
  state : Option KPollSignal
  response : Option Packet
deriving DecidableEq

/-- What the maps have for an id. -/
def entry (s : Sphero) (id : UInt32) : Option Entry :=
  (s.waiting.lookup id).map fun signal =>
    ⟨signal, s.signals.lookup signal, s.responses.lookup id⟩

theorem entry_eq_some {s : Sphero} {id : UInt32} {e : Entry} :
    s.entry id = some e ↔
      s.waiting.lookup id = some e.signal ∧ e.state = s.signals.lookup e.signal ∧
        e.response = s.responses.lookup id := by
  rcases e with ⟨signal, state, response⟩
  constructor
  · intro h
    obtain ⟨σ, hσ, he⟩ := Option.map_eq_some_iff.mp h
    rw [Entry.mk.injEq] at he
    obtain ⟨rfl, rfl, rfl⟩ := he
    exact ⟨hσ, rfl, rfl⟩
  · rintro ⟨hσ, hstate, hresponse⟩
    exact Option.map_eq_some_iff.mpr ⟨signal, hσ, Entry.mk.injEq .. ▸ ⟨rfl, hstate.symm, hresponse.symm⟩⟩

/-- A packet is recorded in the entry of its id, if there is one, and raises its signal. -/
theorem entry_handlePacket_self (s : Sphero) (q : Packet) :
    (s.handlePacket q).entry q.id =
      (s.entry q.id).map fun e => { e with state := some ⟨true, q.id⟩, response := some q } := by
  cases hw : s.waiting.lookup q.id with
  | none =>
    rw [handlePacket_of_lookup_none hw]
    simp only [entry, hw, Option.map_none]
  | some σ =>
    rw [handlePacket_of_lookup hw]
    simp only [entry, hw, Option.map_some, Finmap.lookup_insert]

/-- A new request takes its id over, with a signal not raised. -/
theorem entry_setupResponse_self (s : Sphero) (p : Packet) :
    (s.setupResponse p).1.entry p.id =
      some ⟨s.nextSignal, some ⟨false, 0⟩, s.responses.lookup p.id⟩ := by
  simp only [entry, setupResponse, Option.map_some, Finmap.lookup_insert]

namespace Consistent

variable {s : Sphero}

/-- A packet leaves the entries of other ids alone. -/
theorem entry_handlePacket_of_ne (h : s.Consistent) {q : Packet} {id : UInt32} (hne : id ≠ q.id) :
    (s.handlePacket q).entry id = s.entry id := by
  cases hw : s.waiting.lookup q.id with
  | none => rw [handlePacket_of_lookup_none hw]
  | some σ =>
    rw [handlePacket_of_lookup hw]
    unfold entry
    refine Option.map_congr fun τ hτ => ?_
    have hστ : τ ≠ σ := fun e => hne (h.inj hτ (e ▸ hw))
    rw [Finmap.lookup_insert_of_ne _ hστ, Finmap.lookup_insert_of_ne _ hne]

/-- A new request leaves the entries of other ids alone. -/
theorem entry_setupResponse_of_ne (h : s.Consistent) {p : Packet} {id : UInt32}
    (hne : id ≠ p.id) : (s.setupResponse p).1.entry id = s.entry id := by
  have hwaiting : (s.setupResponse p).1.waiting.lookup id = s.waiting.lookup id :=
    Finmap.lookup_insert_of_ne _ hne
  unfold entry
  rw [hwaiting]
  refine Option.map_congr fun τ hτ => ?_
  have hnew : τ ≠ s.nextSignal := fun e => Nat.lt_irrefl _ (e ▸ h.fresh (h.owned hτ))
  have hold : s.waiting.lookup p.id ≠ some τ := fun e => hne (h.inj hτ e)
  have hsignal : (s.setupResponse p).1.signals.lookup τ = s.signals.lookup τ := by
    show ((s.release p.id).insert s.nextSignal ⟨false, 0⟩).lookup τ = _
    rw [Finmap.lookup_insert_of_ne _ hnew, lookup_release, if_neg hold]
  rw [hsignal]
  rfl

/-- The end of a wait leaves every entry alone but the one of the result. -/
theorem entry_waitForResponse_of_ne (h : s.Consistent) {σ : SignalPtr} {id : UInt32}
    (hne : s.kPoll σ ≠ .ready id) : (s.waitForResponse σ).1.entry id = s.entry id := by
  rcases waitForResponse_cases s σ with heq | ⟨res, hready, -, heq⟩
  · rw [heq]
  rw [heq]
  have hid : id ≠ res := fun e => hne (e ▸ hready)
  unfold entry
  rw [Finmap.lookup_erase_ne hid, Finmap.lookup_erase_ne hid]
  refine Option.map_congr fun τ hτ => ?_
  rw [lookup_release, if_neg fun e => hid (h.inj hτ e)]

/-- What was waited for is taken out. -/
theorem entry_waitForResponse_self (h : s.Consistent) {σ : SignalPtr} {id : UInt32}
    (hready : s.kPoll σ = .ready id) : (s.waitForResponse σ).1.entry id = none := by
  rw [waitForResponse_of_ready hready (h.entry_of_ready hready).2]
  simp only [entry, Finmap.lookup_erase, Option.map_none]

end Consistent

end Sphero

end NrfSpheros
