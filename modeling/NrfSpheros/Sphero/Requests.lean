/-
  `sphero.cpp`: the command thread of one Sphero and the receive callback, interleaved.

  1. **The system.**  The command thread runs the commands one after another, as `wake_with_response`
     or `drive` do: `create` a packet, `execute` it, then `setup` a response (an operation
     `…_with_response`) or `finish` (an operation without one).  Later it may `wait` on the handle;
     while `k_poll` blocks it does nothing else, and `wake` is its return, with the rest of
     `wait_for_response`.  The callback delivers any packet to `handle_packet` at any moment
     (`receive`); what one notification does is such a run (`run_receivedCb`).  A command that is
     atomic for the callback is the run in which its steps are adjacent.

  2. **Ghosts.**  `created` counts the packets, `received` lists those handed to `handle_packet`,
     `setups` the requests ever set up and `requests` those whose handle is still to be waited on.
     A request knows which packet of the Sphero it sent (`birth`) and how many packets had been
     received when it was set up (`since`).

  3. **The mailbox of a request.**  What the three maps are for: a request has its `answers`, the
     packets with its id received since it was set up.  The entry of a request stays `InPlace` until
     its wait ends or a later request takes the id over (`inPlace_iff`), and while it is there the
     signal and the recorded response are those of the mailbox (`Mailbox`).

  4. **Ids.**  A sequence number is the number of packets before it modulo 255, so two packets with
     one id were created at least 255 packets apart (`birth_apart`).
-/
import NrfSpheros.Sphero.Responses
import NrfSpheros.Theory.Run

namespace NrfSpheros

/-- What `setup_response` hands out, with the ghosts of the run. -/
structure Request where
  packet : Packet
  signal : SignalPtr
  /-- The packet was the `birth`-th the Sphero created. -/
  birth : Nat
  /-- The number of packets received before `setup_response`. -/
  since : Nat
deriving DecidableEq

/-- Where the command thread stands. -/
inductive Thread
  | idle
  | created (packet : Packet)
  | executed (packet : Packet)
  | polling (request : Request)
deriving DecidableEq

/-- The packet of the command that is running. -/
def Thread.current : Thread → Option Packet
  | .created packet => some packet
  | .executed packet => some packet
  | _ => none

/-- A Sphero object with its command thread and the ghosts of a run. -/
structure System where
  sphero : Sphero
  thread : Thread
  created : Nat
  received : List Packet
  /-- Every request that was set up. -/
  setups : List Request
  /-- The requests whose wait has not ended. -/
  requests : List Request

namespace System

/-- A step of the thread that uses the object, or of the one that receives. -/
inductive Step
  | create (did cid tid : UInt8) (data : List UInt8)
  | execute
  | setup
  | finish
  | receive (packet : Packet)
  | wait (request : Request)
  | wake

/-- A new object, and no thread in one of its methods. -/
def new (id : UInt8) : System where
  sphero := Sphero.create id
  thread := .idle
  created := 0
  received := []
  setups := []
  requests := []

/-- The request `setup_response` makes of the packet just executed. -/
def newRequest (s : System) (packet : Packet) : Request where
  packet := packet
  signal := (s.sphero.setupResponse packet).2
  birth := s.created
  since := s.received.length

/-- One step. -/
def step (s : System) : Step → Option System
  | .create did cid tid data =>
    match s.thread with
    | .idle =>
      let r := Commands.encode s.sphero.packetManager did cid tid data
      some { s with
        sphero := { s.sphero with packetManager := r.2 }
        thread := .created r.1
        created := s.created + 1 }
    | _ => none
  | .execute =>
    match s.thread with
    | .created packet => some { s with thread := .executed packet }
    | _ => none
  | .setup =>
    match s.thread with
    | .executed packet =>
      some { s with
        sphero := (s.sphero.setupResponse packet).1
        thread := .idle
        setups := s.setups ++ [s.newRequest packet]
        requests := s.requests ++ [s.newRequest packet] }
    | _ => none
  | .finish =>
    match s.thread with
    | .executed _ => some { s with thread := .idle }
    | _ => none
  | .receive packet =>
    some { s with
      sphero := s.sphero.handlePacket packet
      received := s.received ++ [packet] }
  | .wait request =>
    match s.thread with
    | .idle => if request ∈ s.requests then some { s with thread := .polling request } else none
    | _ => none
  | .wake =>
    match s.thread with
    | .polling request =>
      some { s with
        sphero := (s.sphero.waitForResponse request.signal).1
        thread := .idle
        requests := s.requests.erase request }
    | _ => none

/-! ## What each step needs and does -/

section inversion

variable {s s' : System}

/-- A command makes its packet. -/
theorem step_create {did cid tid : UInt8} {data : List UInt8}
    (h : s.step (.create did cid tid data) = some s') :
    s.thread = .idle ∧
      s' = { s with
        sphero := { s.sphero with
          packetManager := (Commands.encode s.sphero.packetManager did cid tid data).2 }
        thread := .created (Commands.encode s.sphero.packetManager did cid tid data).1
        created := s.created + 1 } := by
  simp only [step] at h
  split at h
  · exact ⟨‹_›, (Option.some.inj h).symm⟩
  · cases h

/-- It goes to the robot. -/
theorem step_execute (h : s.step .execute = some s') :
    ∃ p, s.thread = .created p ∧ s' = { s with thread := .executed p } := by
  simp only [step] at h
  split at h
  · exact ⟨_, ‹_›, (Option.some.inj h).symm⟩
  · cases h

/-- The response is set up: a request from now on. -/
theorem step_setup (h : s.step .setup = some s') :
    ∃ p, s.thread = .executed p ∧
      s' = { s with
        sphero := (s.sphero.setupResponse p).1
        thread := .idle
        setups := s.setups ++ [s.newRequest p]
        requests := s.requests ++ [s.newRequest p] } := by
  simp only [step] at h
  split at h
  · exact ⟨_, ‹_›, (Option.some.inj h).symm⟩
  · cases h

/-- A command without a response is done. -/
theorem step_finish (h : s.step .finish = some s') :
    ∃ p, s.thread = .executed p ∧ s' = { s with thread := .idle } := by
  simp only [step] at h
  split at h
  · exact ⟨_, ‹_›, (Option.some.inj h).symm⟩
  · cases h

/-- A packet arrives. -/
theorem step_receive {q : Packet} (h : s.step (.receive q) = some s') :
    s' = { s with sphero := s.sphero.handlePacket q, received := s.received ++ [q] } :=
  (Option.some.inj h).symm

/-- A wait begins. -/
theorem step_wait {r : Request} (h : s.step (.wait r) = some s') :
    s.thread = .idle ∧ r ∈ s.requests ∧ s' = { s with thread := .polling r } := by
  simp only [step] at h
  split at h
  · split at h
    · exact ⟨‹_›, ‹_›, (Option.some.inj h).symm⟩
    · cases h
  · cases h

/-- It ends. -/
theorem step_wake (h : s.step .wake = some s') :
    ∃ r, s.thread = .polling r ∧
      s' = { s with
        sphero := (s.sphero.waitForResponse r.signal).1
        thread := .idle
        requests := s.requests.erase r } := by
  simp only [step] at h
  split at h
  · exact ⟨_, ‹_›, (Option.some.inj h).symm⟩
  · cases h

end inversion

/-- Packets that arrive one after the other. -/
theorem run_receive (s : System) (packets : List Packet) :
    Transition.run step s (packets.map .receive) =
      some { s with
        sphero := packets.foldl Sphero.handlePacket s.sphero
        received := s.received ++ packets } := by
  induction packets generalizing s with
  | nil =>
    rw [List.append_nil]
    rfl
  | cons q packets ih =>
    rw [List.map_cons, Transition.run_cons]
    show Transition.run step { s with
      sphero := s.sphero.handlePacket q
      received := s.received ++ [q] } (packets.map .receive) = _
    rw [ih, List.append_assoc]
    rfl

/-- **One notification** is a run: the packets the collector takes out of it come in order. -/
theorem run_receivedCb (s : System) (chunk : Chunk) :
    Transition.run step
        { s with sphero :=
          { s.sphero with packetCollector := (s.sphero.packetCollector.addPacket chunk).state } }
        ((callbacks (s.sphero.packetCollector.addPacket chunk).out).map .receive) =
      some { s with
        sphero := (s.sphero.receivedCb chunk).1
        received := s.received ++ callbacks (s.sphero.packetCollector.addPacket chunk).out } :=
  run_receive _ _

/-! ## The maps -/

/-- No step spoils the maps. -/
theorem consistent_step {s s' : System} {e : Step} (h : s.sphero.Consistent)
    (hs : s.step e = some s') : s'.sphero.Consistent := by
  cases e with
  | create did cid tid data =>
    obtain ⟨-, rfl⟩ := step_create hs
    exact ⟨h.owned, h.owner, h.inj, h.fresh, h.raised, h.stored⟩
  | execute =>
    obtain ⟨p, -, rfl⟩ := step_execute hs
    exact h
  | setup =>
    obtain ⟨p, -, rfl⟩ := step_setup hs
    exact h.setupResponse p
  | finish =>
    obtain ⟨p, -, rfl⟩ := step_finish hs
    exact h
  | receive q =>
    obtain rfl := step_receive hs
    exact h.handlePacket q
  | wait r =>
    obtain ⟨-, -, rfl⟩ := step_wait hs
    exact h
  | wake =>
    obtain ⟨r, -, rfl⟩ := step_wake hs
    exact h.waitForResponse r.signal

/-! ## The requests and their entries -/

/-- The entry of the request's id is still the one its `setup_response` made. -/
def InPlace (s : System) (r : Request) : Prop :=
  s.sphero.waiting.lookup r.packet.id = some r.signal

instance (s : System) (r : Request) : Decidable (s.InPlace r) :=
  inferInstanceAs (Decidable (s.sphero.waiting.lookup r.packet.id = some r.signal))

/-- A later request has taken the id over. -/
def Superseded (s : System) (r : Request) : Prop :=
  ∃ r' ∈ s.setups, r.birth < r'.birth ∧ r'.packet.id = r.packet.id

/-- The requests among each other: no two of one packet or one signal, and none newer than the run. -/
structure Registered (s : System) : Prop where
  live : ∀ {r}, r ∈ s.requests → r ∈ s.setups
  nodup : s.requests.Nodup
  polling : ∀ {r}, s.thread = .polling r → r ∈ s.requests
  bounds : ∀ {r}, r ∈ s.setups →
    r.birth ≤ s.created ∧ r.signal < s.sphero.nextSignal ∧ r.since ≤ s.received.length
  /-- While a command runs, its packet is newer than every request. -/
  older : ∀ {r}, r ∈ s.setups → s.thread.current ≠ none → r.birth < s.created
  birth_inj : ∀ {r r'}, r ∈ s.setups → r' ∈ s.setups → r.birth = r'.birth → r = r'
  signal_inj : ∀ {r r'}, r ∈ s.setups → r' ∈ s.setups → r.signal = r'.signal → r = r'
  /-- The signal of a request is in no entry but that of its id. -/
  key : ∀ {r k}, r ∈ s.setups → s.sphero.waiting.lookup k = some r.signal → k = r.packet.id

theorem registered_new (id : UInt8) : (new id).Registered where
  live h := absurd h (List.not_mem_nil)
  nodup := List.nodup_nil
  polling h := absurd h (by simp [new])
  bounds h := absurd h (List.not_mem_nil)
  older h := absurd h (List.not_mem_nil)
  birth_inj h := absurd h (List.not_mem_nil)
  signal_inj h := absurd h (List.not_mem_nil)
  key h := absurd h (List.not_mem_nil)

/-- A number that tells the members of a list apart still does after one with a larger number. -/
theorem inj_concat {α : Type} {f : α → Nat} {rs : List α} {x : α}
    (hinj : ∀ {r r'}, r ∈ rs → r' ∈ rs → f r = f r' → r = r') (hnew : ∀ {r}, r ∈ rs → f r < f x)
    {r r' : α} (hr : r ∈ rs ++ [x]) (hr' : r' ∈ rs ++ [x]) (heq : f r = f r') : r = r' := by
  rcases List.mem_append.mp hr with hr | hr <;> rcases List.mem_append.mp hr' with hr' | hr'
  · exact hinj hr hr' heq
  · rw [List.mem_singleton.mp hr'] at heq
    exact absurd heq (Nat.ne_of_lt (hnew hr))
  · rw [List.mem_singleton.mp hr] at heq
    exact absurd heq.symm (Nat.ne_of_lt (hnew hr'))
  · rw [List.mem_singleton.mp hr, List.mem_singleton.mp hr']

/-- A new request is registered with the signal and the birth no request has had. -/
theorem registered_setup {s s' : System} (hc : s.sphero.Consistent) (h : s.Registered)
    (hs : s.step .setup = some s') : s'.Registered := by
  obtain ⟨p, ht, rfl⟩ := step_setup hs
  have hbusy : s.thread.current ≠ none := by rw [ht]; exact Option.some_ne_none p
  have holder : ∀ {r}, r ∈ s.setups → r.birth < (s.newRequest p).birth := fun hr => h.older hr hbusy
  have hsignals : ∀ {r}, r ∈ s.setups → r.signal < (s.newRequest p).signal :=
    fun hr => (h.bounds hr).2.1
  constructor
  · intro r hr
    rcases List.mem_append.mp hr with hr | hr
    · exact List.mem_append_left _ (h.live hr)
    · exact List.mem_append_right _ hr
  · refine List.Nodup.append h.nodup (List.nodup_singleton _) ?_
    rw [List.disjoint_singleton]
    exact fun hn => Nat.lt_irrefl _ (holder (h.live hn))
  · exact fun hp => absurd hp (by simp)
  · intro r hr
    rcases List.mem_append.mp hr with hr | hr
    · obtain ⟨hb, hsig, hsince⟩ := h.bounds hr
      exact ⟨hb, Nat.lt_succ_of_lt hsig, hsince⟩
    · rw [List.mem_singleton.mp hr]
      exact ⟨Nat.le_refl _, Nat.lt_succ_self _, Nat.le_refl _⟩
  · exact fun _ hn => absurd rfl hn
  · exact inj_concat h.birth_inj holder
  · exact inj_concat h.signal_inj hsignals
  · intro r k hr hk
    -- the entry under its own id is the new one, all others are old
    by_cases hkp : k = p.id
    · subst hkp
      have hsignal : s.sphero.nextSignal = r.signal :=
        Option.some.inj ((Finmap.lookup_insert _).symm.trans hk)
      rcases List.mem_append.mp hr with hr | hr
      · exact absurd hsignal.symm (Nat.ne_of_lt (hsignals hr))
      · rw [List.mem_singleton.mp hr]
        rfl
    · have hold : s.sphero.waiting.lookup k = some r.signal :=
        (Finmap.lookup_insert_of_ne _ hkp).symm.trans hk
      rcases List.mem_append.mp hr with hr | hr
      · exact h.key hr hold
      · rw [List.mem_singleton.mp hr] at hold
        exact absurd (hc.fresh (hc.owned hold)) (Nat.lt_irrefl _)

/-- A step keeps the requests so. -/
theorem registered_step {s s' : System} {e : Step} (hc : s.sphero.Consistent) (h : s.Registered)
    (hs : s.step e = some s') : s'.Registered := by
  cases e with
  | create did cid tid data =>
    obtain ⟨ht, rfl⟩ := step_create hs
    exact { h with
      polling := fun hp => absurd hp (by simp)
      bounds := fun hr => ⟨Nat.le_succ_of_le (h.bounds hr).1, (h.bounds hr).2⟩
      older := fun hr _ => Nat.lt_succ_of_le (h.bounds hr).1 }
  | execute =>
    obtain ⟨p, ht, rfl⟩ := step_execute hs
    exact { h with
      polling := fun hp => absurd hp (by simp)
      older := fun hr _ => h.older hr (by rw [ht]; exact Option.some_ne_none p) }
  | setup => exact registered_setup hc h hs
  | finish =>
    obtain ⟨p, ht, rfl⟩ := step_finish hs
    exact { h with
      polling := fun hp => absurd hp (by simp)
      older := fun _ hn => absurd rfl hn }
  | receive q =>
    obtain rfl := step_receive hs
    exact { h with
      bounds := fun hr => by
        obtain ⟨hb, hsig, hsince⟩ := h.bounds hr
        refine ⟨hb, by rw [Sphero.handlePacket_nextSignal]; exact hsig, ?_⟩
        rw [List.length_append]
        omega
      key := fun hr hk => h.key hr (by rw [Sphero.handlePacket_waiting] at hk; exact hk) }
  | wait r =>
    obtain ⟨ht, hr, rfl⟩ := step_wait hs
    exact { h with
      polling := fun hp => Thread.polling.inj hp ▸ hr
      older := fun _ hn => absurd rfl hn }
  | wake =>
    obtain ⟨r, ht, rfl⟩ := step_wake hs
    exact { h with
      live := fun hr => h.live (List.mem_of_mem_erase hr)
      nodup := h.nodup.erase _
      polling := fun hp => absurd hp (by simp)
      bounds := fun hr => by rw [Sphero.waitForResponse_nextSignal]; exact h.bounds hr
      older := fun _ hn => absurd rfl hn
      key := fun hr hk => h.key hr (Sphero.lookup_of_waitForResponse hk) }

/-- **An entry stays in place until its wait ends or a later request takes the id over.** -/
def Placed (s : System) : Prop :=
  ∀ r ∈ s.requests, s.InPlace r ↔ ¬ s.Superseded r

/-- A new request supersedes those with its id and no others. -/
theorem superseded_setup {s s' : System} {p : Packet} (hr : s.Registered)
    (ht : s.thread = .executed p) (hs : s.step .setup = some s') {r : Request}
    (hmem : r ∈ s.setups) :
    s'.Superseded r ↔ s.Superseded r ∨ r.packet.id = p.id := by
  obtain ⟨p', ht', rfl⟩ := step_setup hs
  obtain rfl := Thread.executed.inj (ht.symm.trans ht')
  have hbusy : s.thread.current ≠ none := by rw [ht]; exact Option.some_ne_none p
  constructor
  · rintro ⟨r', hr', hb, hk⟩
    rcases List.mem_append.mp hr' with hr' | hr'
    · exact Or.inl ⟨r', hr', hb, hk⟩
    · rw [List.mem_singleton.mp hr'] at hk
      exact Or.inr hk.symm
  · rintro (⟨r', hr', hb, hk⟩ | hid)
    · exact ⟨r', List.mem_append_left _ hr', hb, hk⟩
    · exact ⟨s.newRequest p, List.mem_append_right _ (List.mem_singleton_self _),
        hr.older hmem hbusy, hid.symm⟩

/-- Setting up a request takes its id over, in the map as in the order of births. -/
theorem placed_setup {s s' : System} (hr : s.Registered) (h : s.Placed)
    (hs : s.step .setup = some s') : s'.Placed := by
  obtain ⟨p, ht, hs'⟩ := step_setup hs
  have hwaiting : s'.sphero.waiting = s.sphero.waiting.insert p.id s.sphero.nextSignal := by
    rw [hs']
    rfl
  have hrequests : s'.requests = s.requests ++ [s.newRequest p] := by rw [hs']
  have hregistered : s'.setups = s.setups ++ [s.newRequest p] := by rw [hs']
  have hbusy : s.thread.current ≠ none := by rw [ht]; exact Option.some_ne_none p
  intro r hmem
  rw [InPlace, hwaiting]
  rw [hrequests] at hmem
  rcases List.mem_append.mp hmem with hmem | hmem
  · -- an earlier request keeps its entry unless the new one has its id
    have hold := hr.live hmem
    rw [superseded_setup hr ht hs hold]
    by_cases hid : r.packet.id = p.id
    · rw [hid, Finmap.lookup_insert, Option.some.injEq]
      exact iff_of_false (Nat.ne_of_gt (hr.bounds hold).2.1) (fun hnot => hnot (Or.inr rfl))
    · rw [Finmap.lookup_insert_of_ne _ hid, or_iff_left hid]
      exact h r hmem
  · rw [List.mem_singleton.mp hmem]
    refine iff_of_true (Finmap.lookup_insert _) ?_
    rintro ⟨r', hr', hb, -⟩
    rw [hregistered] at hr'
    rcases List.mem_append.mp hr' with hr' | hr'
    · exact absurd hb (Nat.not_lt_of_lt (hr.older hr' hbusy))
    · rw [List.mem_singleton.mp hr'] at hb
      exact absurd hb (Nat.lt_irrefl _)

/-- A step keeps the entries so: `setup` may take one out of its place, and it supersedes that request. -/
theorem placed_step {s s' : System} {e : Step} (hc : s.sphero.Consistent) (hr : s.Registered)
    (h : s.Placed) (hs : s.step e = some s') : s'.Placed := by
  cases e with
  | create did cid tid data =>
    obtain ⟨-, rfl⟩ := step_create hs
    exact h
  | execute =>
    obtain ⟨p, -, rfl⟩ := step_execute hs
    exact h
  | setup => exact placed_setup hr h hs
  | finish =>
    obtain ⟨p, -, rfl⟩ := step_finish hs
    exact h
  | receive q =>
    obtain rfl := step_receive hs
    intro r hmem
    show (s.sphero.handlePacket q).waiting.lookup r.packet.id = some r.signal ↔ ¬ s.Superseded r
    rw [Sphero.handlePacket_waiting]
    exact h r hmem
  | wait r =>
    obtain ⟨-, -, rfl⟩ := step_wait hs
    exact h
  | wake =>
    obtain ⟨r₀, ht, rfl⟩ := step_wake hs
    intro r hmem
    obtain ⟨hne, hmem⟩ := hr.nodup.mem_erase_iff.mp hmem
    show (s.sphero.waitForResponse r₀.signal).1.waiting.lookup r.packet.id = some r.signal ↔
      ¬ s.Superseded r
    -- a wait that timed out takes nothing out of the maps
    rcases Sphero.waitForResponse_cases s.sphero r₀.signal with heq | ⟨res, hready, -, heq⟩
    · rw [heq]
      exact h r hmem
    rw [heq]
    by_cases hid : r.packet.id = res
    · -- the entry taken out was the one of the request that waited, so `r` had lost its own
      have hout : ¬ s.InPlace r := by
        intro hplace
        have hentry := (hc.entry_of_ready hready).1
        rw [InPlace, hid, hentry, Option.some.injEq] at hplace
        exact hne (hr.signal_inj (hr.live hmem) (hr.live (hr.polling ht)) hplace.symm)
      rw [← h r hmem, hid, Finmap.lookup_erase]
      exact iff_of_false (by simp) hout
    · rw [Finmap.lookup_erase_ne hid]
      exact h r hmem

/-! ## The mailbox -/

/-- The packets with the request's id received since it was set up. -/
def answers (s : System) (r : Request) : List Packet :=
  (s.received.drop r.since).filter fun q => q.id = r.packet.id

/-- The signal of a request, as its mailbox determines it. -/
def mailbox (s : System) (r : Request) : KPollSignal :=
  if s.answers r = [] then ⟨false, 0⟩ else ⟨true, r.packet.id⟩

/-- **While a request's entry is in place, it is the mailbox**: the signal is raised once there is
    an answer, and the recorded response is the last one. -/
def Mailbox (s : System) : Prop :=
  ∀ r ∈ s.requests, ∀ e, s.sphero.entry r.packet.id = some e → e.signal = r.signal →
    e.state = some (s.mailbox r) ∧ ∀ q, (s.answers r).getLast? = some q → e.response = some q

/-- A packet that arrives is an answer to the earlier requests of its id. -/
theorem answers_receive {s : System} {r : Request} (hsince : r.since ≤ s.received.length)
    (q : Packet) (sphero : Sphero) :
    answers { s with sphero := sphero, received := s.received ++ [q] } r =
      s.answers r ++ if q.id = r.packet.id then [q] else [] := by
  unfold answers
  rw [List.drop_append_of_le_length hsince, List.filter_append]
  by_cases hq : q.id = r.packet.id <;> simp [hq]

/-- A new request has no answer yet, and the others keep theirs. -/
theorem mailbox_setup {s s' : System} (hc : s.sphero.Consistent) (hr : s.Registered)
    (h : s.Mailbox) (hs : s.step .setup = some s') : s'.Mailbox := by
  obtain ⟨p, -, rfl⟩ := step_setup hs
  intro r hmem entry hentry hsignal
  rcases List.mem_append.mp hmem with hmem | hmem
  · by_cases hid : r.packet.id = p.id
    · -- the id has a new signal now
      rw [hid, Sphero.entry_setupResponse_self, Option.some.injEq] at hentry
      rw [← hentry] at hsignal
      exact absurd hsignal.symm (Nat.ne_of_lt (hr.bounds (hr.live hmem)).2.1)
    · rw [hc.entry_setupResponse_of_ne hid] at hentry
      exact h r hmem entry hentry hsignal
  · rw [List.mem_singleton.mp hmem] at hentry ⊢
    have hnone : answers s (s.newRequest p) = [] := by
      unfold answers newRequest
      rw [List.drop_length, List.filter_nil]
    rw [show (s.newRequest p).packet.id = p.id from rfl, Sphero.entry_setupResponse_self,
      Option.some.injEq] at hentry
    refine ⟨?_, fun q hq => ?_⟩
    · show entry.state = some (s.mailbox (s.newRequest p))
      rw [mailbox, if_pos hnone, ← hentry]
    · have hq : (s.answers (s.newRequest p)).getLast? = some q := hq
      rw [hnone] at hq
      cases hq

/-- A response answers the requests of its id. -/
theorem mailbox_receive {s s' : System} {q : Packet} (hc : s.sphero.Consistent)
    (hr : s.Registered) (h : s.Mailbox) (hs : s.step (.receive q) = some s') : s'.Mailbox := by
  obtain rfl := step_receive hs
  intro r hmem entry hentry hsignal
  have hanswers := answers_receive (hr.bounds (hr.live hmem)).2.2 q (s.sphero.handlePacket q)
  by_cases hid : q.id = r.packet.id
  · rw [if_pos hid] at hanswers
    rw [← hid, Sphero.entry_handlePacket_self] at hentry
    obtain ⟨old, -, rfl⟩ := Option.map_eq_some_iff.mp hentry
    refine ⟨?_, fun q' hq' => ?_⟩
    · rw [mailbox, hanswers, if_neg (by simp), hid]
    · rw [hanswers, List.getLast?_append, List.getLast?_singleton, Option.some_or] at hq'
      exact hq'
  · rw [if_neg hid, List.append_nil] at hanswers
    rw [hc.entry_handlePacket_of_ne (Ne.symm hid)] at hentry
    rw [mailbox, hanswers]
    exact h r hmem entry hentry hsignal

theorem mailbox_step {s s' : System} {e : Step} (hc : s.sphero.Consistent) (hr : s.Registered)
    (h : s.Mailbox) (hs : s.step e = some s') : s'.Mailbox := by
  cases e with
  | create did cid tid data =>
    obtain ⟨-, rfl⟩ := step_create hs
    exact h
  | execute =>
    obtain ⟨p, -, rfl⟩ := step_execute hs
    exact h
  | setup => exact mailbox_setup hc hr h hs
  | finish =>
    obtain ⟨p, -, rfl⟩ := step_finish hs
    exact h
  | receive q => exact mailbox_receive hc hr h hs
  | wait r =>
    obtain ⟨-, -, rfl⟩ := step_wait hs
    exact h
  | wake =>
    obtain ⟨r₀, ht, rfl⟩ := step_wake hs
    intro r hmem entry hentry hsignal
    obtain ⟨-, hmem⟩ := hr.nodup.mem_erase_iff.mp hmem
    by_cases hready : s.sphero.kPoll r₀.signal = .ready r.packet.id
    · rw [hc.entry_waitForResponse_self hready] at hentry
      cases hentry
    · rw [hc.entry_waitForResponse_of_ne hready] at hentry
      exact h r hmem entry hentry hsignal

/-! ## Ids -/

/-- The sequence numbers count the packets modulo 255. -/
structure Numbered (s : System) : Prop where
  manager : s.sphero.packetManager.seq.toNat = s.created % 255
  /-- The packet of the running command is the last one created. -/
  current : ∀ {p}, s.thread.current = some p → 0 < s.created ∧ p.seq.toNat = (s.created - 1) % 255
  request : ∀ {r}, r ∈ s.setups → 0 < r.birth ∧ r.packet.seq.toNat = (r.birth - 1) % 255

theorem numbered_step {s s' : System} {e : Step} (h : s.Numbered) (hs : s.step e = some s') :
    s'.Numbered := by
  cases e with
  | create did cid tid data =>
    obtain ⟨-, rfl⟩ := step_create hs
    -- the manager's number is that of the packets created so far
    have hm := h.manager
    constructor
    · exact Commands.encode_next hm did cid tid data
    · intro p hp
      refine ⟨Nat.succ_pos _, ?_⟩
      rw [← Option.some.inj hp, Commands.encode_seq, hm]
      rfl
    · exact h.request
  | execute =>
    obtain ⟨p, ht, rfl⟩ := step_execute hs
    exact { h with current := fun hp => h.current (by rw [ht]; exact hp) }
  | setup =>
    obtain ⟨p, ht, rfl⟩ := step_setup hs
    refine ⟨h.manager, fun hp => absurd hp (by simp [Thread.current]), fun hmem => ?_⟩
    rcases List.mem_append.mp hmem with hmem | hmem
    · exact h.request hmem
    · rw [List.mem_singleton.mp hmem]
      exact h.current (by rw [ht]; rfl)
  | finish =>
    obtain ⟨p, ht, rfl⟩ := step_finish hs
    exact { h with current := fun hp => absurd hp (by simp [Thread.current]) }
  | receive q =>
    obtain rfl := step_receive hs
    exact { h with manager := by rw [Sphero.handlePacket_packetManager]; exact h.manager }
  | wait r =>
    obtain ⟨ht, -, rfl⟩ := step_wait hs
    exact { h with current := fun hp => absurd hp (by simp [Thread.current]) }
  | wake =>
    obtain ⟨r, ht, rfl⟩ := step_wake hs
    refine ⟨?_, fun hp => absurd hp (by simp [Thread.current]), h.request⟩
    rw [Sphero.waitForResponse_packetManager]
    exact h.manager

/-- **Two packets with one id were created at least 255 packets apart.** -/
theorem birth_apart {s : System} (h : s.Numbered) {r r' : Request} (hr : r ∈ s.setups)
    (hr' : r' ∈ s.setups) (hid : r'.packet.id = r.packet.id) (hlt : r.birth < r'.birth) :
    r.birth + 255 ≤ r'.birth := by
  obtain ⟨hpos, hseq⟩ := h.request hr
  obtain ⟨hpos', hseq'⟩ := h.request hr'
  have hsame : r'.packet.seq = r.packet.seq := (Packet.id_eq_iff.mp hid).2.2
  rw [hsame, hseq] at hseq'
  omega

/-! ## Every run -/

/-- What holds in every state a run from the beginning reaches. -/
structure Sound (s : System) : Prop where
  consistent : s.sphero.Consistent
  registered : s.Registered
  placed : s.Placed
  mailbox : s.Mailbox
  numbered : s.Numbered

theorem sound_new (id : UInt8) : (new id).Sound where
  consistent := Sphero.consistent_create id
  registered := registered_new id
  placed _ h := absurd h List.not_mem_nil
  mailbox _ h := absurd h List.not_mem_nil
  numbered := ⟨rfl, fun h => absurd h (by simp [new, Thread.current]), fun h => absurd h List.not_mem_nil⟩

/-- **One step.** -/
theorem sound_step {s s' : System} {e : Step} (h : s.Sound) (hs : s.step e = some s') : s'.Sound where
  consistent := consistent_step h.consistent hs
  registered := registered_step h.consistent h.registered hs
  placed := placed_step h.consistent h.registered h.placed hs
  mailbox := mailbox_step h.consistent h.registered h.mailbox hs
  numbered := numbered_step h.numbered hs

theorem sound_run {s t : System} {es : List Step} (h : s.Sound)
    (hrun : Transition.run step s es = some t) : t.Sound :=
  Transition.invariant sound_step h hrun

/-- **Every run.** -/
theorem sound_reachable {id : UInt8} {es : List Step} {s : System}
    (hrun : Transition.run step (new id) es = some s) : s.Sound :=
  sound_run (sound_new id) hrun

namespace Sound

variable {s : System} {r : Request}

/-- The entry of a request in its place. -/
theorem entry_eq (hplace : s.InPlace r) :
    s.sphero.entry r.packet.id =
      some ⟨r.signal, s.sphero.signals.lookup r.signal, s.sphero.responses.lookup r.packet.id⟩ :=
  Sphero.entry_eq_some.mpr ⟨hplace, rfl, rfl⟩

/-- **What `k_poll` finds on a request's handle**: what the mailbox says, and a dangling pointer
    once a later request has taken the id over. -/
theorem kPoll_eq (h : s.Sound) (hr : r ∈ s.requests) :
    s.sphero.kPoll r.signal =
      if s.InPlace r then if s.answers r = [] then .timeout else .ready r.packet.id
      else .dangling := by
  by_cases hplace : s.InPlace r
  · rw [if_pos hplace]
    have hsignal : s.sphero.signals.lookup r.signal = some (s.mailbox r) :=
      (h.mailbox r hr _ (entry_eq hplace) rfl).1
    unfold Sphero.kPoll
    rw [hsignal, System.mailbox]
    by_cases hanswers : s.answers r = []
    · simp only [hanswers, if_true]
      rfl
    · simp only [hanswers, if_false]
      rfl
  · rw [if_neg hplace]
    have hgone : s.sphero.signals.lookup r.signal = none := by
      rw [Finmap.lookup_eq_none]
      intro hmem
      obtain ⟨k, hk⟩ := h.consistent.owner hmem
      rw [h.registered.key (h.registered.live hr) hk] at hk
      exact hplace hk
    unfold Sphero.kPoll
    rw [hgone]

/-- A poll is ready exactly if the request is in its place and has been answered. -/
theorem kPoll_eq_ready (h : s.Sound) (hr : r ∈ s.requests) {res : UInt32} :
    s.sphero.kPoll r.signal = .ready res ↔
      s.InPlace r ∧ s.answers r ≠ [] ∧ res = r.packet.id := by
  rw [h.kPoll_eq hr]
  by_cases hplace : s.InPlace r <;> by_cases hanswers : s.answers r = [] <;>
    simp [hplace, hanswers, eq_comm]

/-- The response `wait_for_response` finds is the last answer. -/
theorem response_eq (h : s.Sound) (hr : r ∈ s.requests) (hplace : s.InPlace r) {q : Packet}
    (hq : (s.answers r).getLast? = some q) :
    s.sphero.responses.lookup r.packet.id = some q :=
  (h.mailbox r hr _ (entry_eq hplace) rfl).2 q hq

/-- Before 255 more packets exist, no other request has the id. -/
theorem not_superseded (h : s.Sound) (hr : r ∈ s.setups) (hfew : s.created < r.birth + 255) :
    ¬ s.Superseded r := by
  rintro ⟨r', hr', hlt, hid⟩
  have hapart := birth_apart h.numbered hr hr' hid hlt
  have hbound := (h.registered.bounds hr').1
  omega

end Sound

end System

end NrfSpheros
