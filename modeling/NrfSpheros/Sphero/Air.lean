/-
  What the commands put on the air, over every run of the scanner.

  1. **The air.**  The scanner with its clients, and for each connection the bytes of the writes that
     the stack has accepted.  A command goes through `execute`; the scanner's callbacks come in
     between.
  2. **Clients that are ready** (`Ready`) — no run leaves the client of a taken slot with a free
     semaphore and a write pending.
  3. **Whole packets** (`serves_iff_admits`) — every chunk of a command of a ready client is accepted
     exactly when the client has a connection, the stack refuses no write, and each write but a free
     first one comes after the `on_sent` of the one before.
  4. **Delivery** (`air_delivers`) — if all commands are served so, who collects what came over a
     connection gets the packets that were sent to it, and no others.
-/
import NrfSpheros.Sphero.Execute
import NrfSpheros.Controls.Chunking
import NrfSpheros.Controls.Stream

namespace NrfSpheros

open Scanner (Event)

/-! ## The air -/

/-- The scanner, and what went over the air. -/
structure Air where
  scanner : Scanner
  /-- The bytes of the writes the stack has accepted. -/
  written : BtConn → List UInt8
  /-- The packets commanded, each with the connection its client had then. -/
  commanded : List (BtConn × Packet)

namespace Air

/-- A callback of the scanner, or a command. -/
inductive Act
  | event (e : Event)
  /-- A command of the Sphero object with the number of `slot`. -/
  | command (slot : Slot) (packet : Packet) (turns : Nat → Turn)

/-- Nothing is connected, and nothing written. -/
def new : Air := ⟨Scanner.new, fun _ => [], []⟩

/-- The bytes that calls of `bt_sphero_client_send` get to `conn`. -/
def delivered (calls : List SendCall) (conn : BtConn) : List UInt8 :=
  (calls.filter fun call => call.conn = some conn ∧ call.err = none).flatMap SendCall.data

/-- The connection the client of `slot` has. -/
def target (s : Air) (slot : Slot) : Option BtConn := (s.scanner.conns.data slot).conn

/-- `none` is a null pointer dereferenced. -/
def step (s : Air) : Act → Option Air
  | .event e => (s.scanner.step e).map fun scanner => { s with scanner }
  | .command slot packet turns =>
    match s.scanner.execute (UInt8.ofNat slot.val) packet false turns with
    | (.nullDereference, _) => none
    | (.notFound, scanner) => some { s with scanner }
    | (.sent calls, scanner) => some {
        scanner
        written := fun conn => s.written conn ++ delivered calls conn
        commanded := s.commanded ++ ((s.target slot).map fun conn => (conn, packet)).toList }

/-- The packets sent to `conn`. -/
def sentTo (s : Air) (conn : BtConn) : List Packet :=
  (s.commanded.filter fun p => p.1 = conn).map Prod.snd

end Air

/-! ## Clients that are ready -/

namespace SpheroClient

/-- The client was initialised, and has no write pending while its semaphore is free. -/
structure Ready (c : SpheroClient) : Prop where
  limit : c.sending.limit = 1
  free : 0 < c.sending.count → c.writePending = false

theorem ready_init (cb : SpheroClientCb) : (zeroed.init cb).2.Ready := ⟨rfl, fun _ => rfl⟩

theorem ready_onSent {c : SpheroClient} (h : c.Ready) (err : UInt8) : (c.onSent err).2.Ready :=
  ⟨h.limit, fun _ => rfl⟩

/-- A send leaves a write pending only with the semaphore taken. -/
theorem ready_send {c : SpheroClient} (h : c.Ready) (data : List UInt8) (len : UInt16)
    (write : Option Errno) : (c.send data len write).2.Ready := by
  rcases c.send_cases data len write with ⟨-, heq⟩ | ⟨sending, htake, hcases⟩
  · rw [heq]
    exact h
  obtain ⟨hcount, hlimit⟩ := KSem.take_eq_some.mp htake
  have hfree : c.writePending = false := h.free (by omega)
  have hone := c.sending.bounded
  have hlimit' := h.limit
  rcases hcases with ⟨-, heq⟩ | ⟨-, -, heq⟩ | ⟨-, -, err, -, heq⟩ | ⟨-, -, -, heq⟩ <;> rw [heq]
  · exact ⟨hlimit.trans hlimit', fun _ => hfree⟩
  · exact ⟨hlimit.trans hlimit', fun _ => hfree⟩
  · exact ⟨hlimit.trans hlimit', fun _ => hfree⟩
  · refine ⟨hlimit.trans hlimit', fun hpos => ?_⟩
    have hpos' : 0 < sending.count := hpos
    omega

/-- New handles change neither the semaphore nor the pending write. -/
theorem ready_handlesAssign {c : SpheroClient} (h : c.Ready) (dm : GattDm) :
    (handlesAssign dm c).2.Ready := by
  have hsame : (handlesAssign dm c).2.sending = c.sending ∧
      (handlesAssign dm c).2.writePending = c.writePending := by
    rcases dm with ⟨conn, service, chrc, value, ccc⟩
    cases service with
    | false => exact ⟨rfl, rfl⟩
    | true =>
      cases chrc with
      | false => exact ⟨rfl, rfl⟩
      | true => cases value <;> cases ccc <;> exact ⟨rfl, rfl⟩
  refine ⟨?_, ?_⟩
  · rw [hsame.1]
    exact h.limit
  · rw [hsame.1, hsame.2]
    exact h.free

end SpheroClient

/-- A report gives the semaphore back, and no write is pending then. -/
theorem Turn.ready_client {c : SpheroClient} (h : c.Ready) (turn : Turn) : (turn.client c).Ready := by
  unfold Turn.client
  cases turn.sent with
  | none => exact h
  | some err => exact SpheroClient.ready_onSent h err

theorem ready_sendChunk {turns : Nat → Turn} {c : SpheroClient} (h : c.Ready) (offset : Nat)
    (chunk : List UInt8) : (sendChunk turns c offset chunk).2.Ready :=
  SpheroClient.ready_send ((turns offset).ready_client h) ..

/-! ## Whole packets -/

/-- What the stack does while the loop hands on `payload` from `offset`: the client has a connection,
    no write is refused, and before each chunk the one before was reported sent.  A first chunk may
    find the semaphore free. -/
def Serves (turns : Nat → Turn) (payload : List UInt8) (offset : Nat) (c : SpheroClient) : Prop :=
  ∀ k, offset + chunkSize * k < payload.length →
    c.conn ≠ none ∧ (turns (offset + chunkSize * k)).write = none ∧
      ((turns (offset + chunkSize * k)).sent ≠ none ∨ (k = 0 ∧ 0 < c.sending.count))

/-- Of a ready client nothing else is asked. -/
theorem serves_iff_admits {turns : Nat → Turn} {payload : List UInt8} {offset : Nat}
    {c : SpheroClient} (hc : c.Ready) :
    Serves turns payload offset c ↔ Admits turns payload offset c := by
  have hlimit : 0 < c.sending.limit := by
    rw [hc.limit]
    exact Nat.one_pos
  refine forall₂_congr fun k _ => and_congr_right fun _ => and_congr_right fun _ => ?_
  constructor
  · rintro (hsent | ⟨hk, hcount⟩)
    · exact Or.inl ⟨hsent, hlimit⟩
    · exact Or.inr ⟨hk, hcount, hc.free hcount⟩
  · rintro (⟨hsent, -⟩ | ⟨hk, hcount, -⟩)
    · exact Or.inl hsent
    · exact Or.inr ⟨hk, hcount⟩

namespace Air

/-! ## Delivery -/

/-- Every chunk was accepted. -/
def Whole : Execution → Prop
  | .sent calls => ∀ call ∈ calls, call.err = none
  | _ => False

/-- Every chunk of the command was accepted. -/
def Accepted (s : Air) : Act → Prop
  | .event _ => True
  | .command slot packet turns =>
    Whole (s.scanner.execute (UInt8.ofNat slot.val) packet false turns).1

/-- The slot is taken, and the stack serves the command. -/
def Served (s : Air) : Act → Prop
  | .event _ => True
  | .command slot packet turns =>
    s.scanner.conns.owner slot ≠ none ∧
      Serves turns packet.build 0 (s.scanner.conns.data slot)

/-- The clients of the taken slots are ready. -/
def Ready (s : Scanner) : Prop := ∀ slot, s.conns.owner slot ≠ none → (s.conns.data slot).Ready

/-- A connection gets a client that has just been initialised. -/
theorem ready_connected {s s' : Scanner} {conn : BtConn} {slot : Slot} {dm scan : Option Errno}
    (h : Ready s) (hs : s.step (.connected conn slot dm scan) = some s') : Ready s' := by
  intro i hi
  obtain ⟨conns, halloc, rfl⟩ := Option.map_eq_some_iff.mp hs
  obtain ⟨-, -, howner, hdata⟩ := SlotTable.alloc?_eq_some halloc
  rw [Scanner.conns_btScanStop, Scanner.conns_gattDiscover] at hi ⊢
  by_cases heq : i = slot
  · subst heq
    rw [SlotTable.data_modify_self, SlotTable.data_modify_self]
    exact SpheroClient.ready_init ⟨none, none⟩
  · rw [SlotTable.owner_modify, SlotTable.owner_modify, howner, Function.update_of_ne heq] at hi
    rw [SlotTable.data_modify_of_ne _ heq, SlotTable.data_modify_of_ne _ heq, hdata]
    exact h i hi

/-- No callback spoils a client. -/
theorem ready_step {s s' : Scanner} {e : Event} (h : Ready s) (hs : s.step e = some s') :
    Ready s' := by
  intro i hi
  cases e with
  | connected conn slot dm scan => exact ready_connected h hs i hi
  | discoveryComplete dm context now scan =>
    obtain ⟨t, hend, rfl⟩ := Option.map_eq_some_iff.mp hs
    have hconns := Scanner.conns_endDiscovery hend
    rw [Scanner.conns_discoveryComplete, hconns] at hi ⊢
    rw [SlotTable.owner_modify] at hi
    by_cases heq : i = context
    · subst heq
      rw [SlotTable.data_modify_self]
      exact SpheroClient.ready_handlesAssign (h i hi) dm
    · rw [SlotTable.data_modify_of_ne _ heq]
      exact h i hi
  | disconnected conn =>
    obtain rfl := Option.some.inj hs
    apply h i
    -- a slot that has an owner after the disconnect had it before
    intro hfree
    apply hi
    show (if s.conns.owner i = some conn then none else s.conns.owner i) = none
    rw [hfree]
    split <;> rfl
  | _ =>
    have hconns := Scanner.conns_step hs rfl
    rw [hconns] at hi ⊢
    exact h i hi

/-- What the loop of a command does. -/
def sends (s : Scanner) (slot : Slot) (packet : Packet) (turns : Nat → Turn) :
    List SendCall × SpheroClient :=
  executeLoop (sendChunk turns) false packet.build 0 (s.conns.data slot)

/-- A command to a taken slot is its loop. -/
theorem execute_eq {s : Scanner} {slot : Slot} (h : s.conns.owner slot ≠ none) (packet : Packet)
    (turns : Nat → Turn) :
    s.execute (UInt8.ofNat slot.val) packet false turns =
      (.sent (sends s slot packet turns).1,
        { s with conns := s.conns.modify slot fun _ => (sends s slot packet turns).2 }) := by
  unfold Scanner.execute
  rw [Scanner.getSphero_ofNat h]
  rfl

/-- **What a command does.**  The slot is taken, or there is no next state. -/
theorem step_command {s s' : Air} {slot : Slot} {packet : Packet} {turns : Nat → Turn}
    (h : s.step (.command slot packet turns) = some s') :
    s.scanner.conns.owner slot ≠ none ∧
      s' = {
        scanner := { s.scanner with
          conns := s.scanner.conns.modify slot fun _ => (sends s.scanner slot packet turns).2 }
        written := fun conn =>
          s.written conn ++ delivered (sends s.scanner slot packet turns).1 conn
        commanded := s.commanded ++ ((s.target slot).map fun conn => (conn, packet)).toList } := by
  have howned : s.scanner.conns.owner slot ≠ none := by
    intro hfree
    simp only [step, Scanner.execute_of_free hfree] at h
    cases h
  refine ⟨howned, ?_⟩
  simp only [step, execute_eq howned] at h
  exact (Option.some.inj h).symm

/-- What the loop hands on, and to whom. -/
theorem sends_spec {s : Scanner} {slot : Slot} (h : (s.conns.data slot).Ready) (packet : Packet)
    (turns : Nat → Turn) :
    ((sends s slot packet turns).1.map SendCall.data).flatten = packet.build ∧
      (∀ call ∈ (sends s slot packet turns).1, call.conn = (s.conns.data slot).conn) ∧
      (sends s slot packet turns).2.Ready := by
  refine ⟨executeLoop_data _ (fun _ _ _ => rfl) packet.build 0 _, ?_⟩
  have hloop := executeLoop_invariant
    (I := fun c : SpheroClient => c.conn = (s.conns.data slot).conn ∧ c.Ready)
    (J := fun call : SendCall => call.conn = (s.conns.data slot).conn) (sendChunk turns)
    (fun c offset chunk hc => by
      obtain ⟨hcall, hnext⟩ := sendChunk_conn turns c offset chunk
      exact ⟨hcall.trans hc.1, hnext.trans hc.1, ready_sendChunk hc.2 offset chunk⟩)
    packet.build 0 ⟨rfl, h⟩
  exact ⟨hloop.1, hloop.2.2⟩

/-- Accepted chunks all go to the one connection. -/
theorem delivered_eq {calls : List SendCall} {conn : BtConn} {target : Option BtConn}
    (hconn : ∀ call ∈ calls, call.conn = target) (herr : ∀ call ∈ calls, call.err = none) :
    delivered calls conn =
      if target = some conn then (calls.map SendCall.data).flatten else [] := by
  unfold delivered
  by_cases htarget : target = some conn
  · rw [if_pos htarget, List.filter_eq_self.mpr, List.flatMap]
    exact fun call hcall => decide_eq_true ⟨(hconn call hcall).trans htarget, herr call hcall⟩
  · rw [if_neg htarget, List.filter_eq_nil_iff.mpr]
    · rfl
    · intro call hcall
      simp only [hconn call hcall, htarget, false_and, decide_false, Bool.false_eq_true,
        not_false_eq_true]

/-- The clients are ready, and what was written on a connection are the packets sent to it. -/
structure Faithful (s : Air) : Prop where
  ready : Ready s.scanner
  written : ∀ conn, s.written conn = ((s.sentTo conn).map Packet.build).flatten

/-- **When a command is accepted.** -/
theorem accepted_iff_served {s : Air} (h : Ready s.scanner) (a : Act) :
    s.Accepted a ↔ s.Served a := by
  cases a with
  | event e => exact Iff.rfl
  | command slot packet turns =>
    show Whole _ ↔ s.scanner.conns.owner slot ≠ none ∧ _
    by_cases howner : s.scanner.conns.owner slot = none
    · rw [Scanner.execute_of_free howner]
      exact iff_of_false id fun hserved => hserved.1 howner
    · rw [execute_eq howner, and_iff_right howner]
      exact accepted_iff.trans (serves_iff_admits (h slot howner)).symm

/-- No step spoils a client. -/
theorem ready_next {s s' : Air} {a : Act} (h : Ready s.scanner) (hs : s.step a = some s') :
    Ready s'.scanner := by
  cases a with
  | event e =>
    obtain ⟨scanner, hscanner, rfl⟩ := Option.map_eq_some_iff.mp hs
    exact ready_step h hscanner
  | command slot packet turns =>
    obtain ⟨howned, hs'⟩ := step_command hs
    have hconns : s'.scanner.conns = s.scanner.conns.modify slot fun _ =>
        (sends s.scanner slot packet turns).2 := by rw [hs']
    intro i hi
    rw [hconns] at hi ⊢
    by_cases heq : i = slot
    · rw [heq, SlotTable.data_modify_self]
      exact (sends_spec (h slot howned) packet turns).2.2
    · rw [SlotTable.data_modify_of_ne _ heq]
      exact h i hi

/-- One step whose command is accepted. -/
theorem faithful_step {s s' : Air} {a : Act} (h : s.Faithful) (ha : s.Accepted a)
    (hs : s.step a = some s') : s'.Faithful := by
  refine ⟨ready_next h.ready hs, ?_⟩
  cases a with
  | event e =>
    obtain ⟨scanner, -, rfl⟩ := Option.map_eq_some_iff.mp hs
    exact h.written
  | command slot packet turns =>
    obtain ⟨howned, rfl⟩ := step_command hs
    obtain ⟨hdata, hconn, -⟩ := sends_spec (h.ready slot howned) packet turns
    have ha : Whole (s.scanner.execute (UInt8.ofNat slot.val) packet false turns).1 := ha
    rw [execute_eq howned] at ha
    intro conn
    show s.written conn ++ delivered _ conn = _
    rw [delivered_eq hconn ha, hdata, h.written conn]
    unfold sentTo
    rw [List.filter_append, List.map_append, List.map_append, List.flatten_append]
    congr 1
    show (if (s.scanner.conns.data slot).conn = some conn then packet.build else []) = _
    cases htarget : s.target slot with
    | none =>
      rw [show (s.scanner.conns.data slot).conn = none from htarget]
      rfl
    | some target =>
      rw [show (s.scanner.conns.data slot).conn = some target from htarget]
      -- the bytes went out on one connection
      by_cases heq : target = conn
      · simp [heq]
      · simp [heq]

/-- **Delivery.**  Over every run of callbacks and commands: every chunk is accepted exactly when
    every command finds its slot taken and is served; and then whoever collects what was written on a
    connection, cut into notifications anyhow, gets the packets that were sent to it, whole and in
    order, and no packet of another. -/
theorem air_delivers (acts : List Act) :
    (Transition.Along step Accepted new acts ↔ Transition.Along step Served new acts) ∧
    ∀ s, Transition.Along step Accepted new acts → Transition.run step new acts = some s →
      ∀ (conn : BtConn) (chunks : List Chunk), stream chunks = s.written conn →
        callbacks (PacketCollector.session PacketCollector.new chunks).out =
          (s.sentTo conn).map Packet.norm := by
  have hready : Ready new.scanner := fun slot hslot => absurd rfl hslot
  constructor
  · exact Transition.along_congr (I := fun s : Air => Ready s.scanner)
      (fun h => accepted_iff_served h _) (fun h _ hs => ready_next h hs) hready acts
  · intro s haccepted hrun conn chunks hchunks
    have hnew : new.Faithful := ⟨hready, fun conn => rfl⟩
    have hfaithful : s.Faithful :=
      Transition.invariant_along (fun h ha hs => faithful_step h ha hs) hnew haccepted hrun
    rw [hfaithful.written conn] at hchunks
    exact PacketCollector.callbacks_stream hchunks

theorem maxConn_pos : 0 < maxConn := by decide

/-- A robot is found, and woken with the first packet. -/
def wakeFound : List Act :=
  Bound.found.map .event ++ [.command ⟨0, maxConn_pos⟩ PacketCollector.wakePacket fun _ => ⟨none, none⟩]

theorem air_delivers_found :
    ∃ s, Transition.run step new wakeFound = some s ∧
      callbacks (PacketCollector.session PacketCollector.new
        ((s.written 7).map PacketCollector.single)).out = [PacketCollector.wakePacket] := by
  have hserved : Transition.Along step Served new wakeFound := by
    refine ⟨trivial, ?_⟩
    rintro _ ⟨⟩
    refine ⟨trivial, ?_⟩
    rintro _ ⟨⟩
    refine ⟨trivial, ?_⟩
    rintro _ ⟨⟩
    refine ⟨trivial, ?_⟩
    rintro _ ⟨⟩
    refine ⟨⟨Option.some_ne_none 7, fun k hk => ⟨Option.some_ne_none 7, rfl, Or.inr ⟨?_, ?_⟩⟩⟩,
      fun _ _ => trivial⟩
    · have hone : PacketCollector.wakePacket.build.length ≤ 20 := by decide
      have hsize : 0 + 20 * k < PacketCollector.wakePacket.build.length := hk
      omega
    · exact Nat.one_pos
  exact ⟨_, rfl, (air_delivers wakeFound).2 _ ((air_delivers wakeFound).1.mpr hserved) rfl 7 _
    (PacketCollector.stream_singles _)⟩

end Air

end NrfSpheros
