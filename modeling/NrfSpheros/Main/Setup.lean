/-
  From the search to the main loop: the Sphero objects are made.

  1. **The constructor** (`construct_waits`) wakes its robot, waits for the answer and turns the LEDs
     off.  Packets may come before the request is set up, during the wait and after it; what is sent
     does not depend on them, and the request is gone exactly if the robot answered in time.
  2. **The setup.**  `get_spheros` makes the objects one after the other, in the order of their slots.
  3. **The robots from the start** (`robots_obey`) — what a robot is told from its discovery on: to wake
     and to turn dark, and then what the console says.
-/
import NrfSpheros.Main.Relay
import NrfSpheros.Sphero.Delivery
import NrfSpheros.Sphero.Methods

namespace NrfSpheros

open NrfSpheros.System (firstWake)

/-! ## The constructor -/

/-- The packets `handle_packet` gets while an object is made. -/
structure Arrivals where
  /-- Before `setup_response`. -/
  early : List Packet
  waiting : List Packet
  late : List Packet

namespace Sphero

/-- `Sphero::Sphero`, after the subscription.  The packets that arrive are whole: the collector they come
    from is left as it is.  The constructor does not look at what `wait_for_response` returns, through an
    erased iterator if the robot has answered, and the result of that undefined read is left out. -/
def construct (id : UInt8) (arrivals : Arrivals) : Sphero × List Packet :=
  let r := (create id).wake
  let s := arrivals.early.foldl handlePacket r.1
  let t := s.setupResponse r.2
  let s := arrivals.waiting.foldl handlePacket t.1
  let s := (s.waitForResponse t.2).1
  let s := arrivals.late.foldl handlePacket s
  let d := s.turnOffAllLeds
  (d.1, r.2 :: d.2)

end Sphero

/-- The robot answers the wake during the wait. -/
def Arrivals.Answered (arrivals : Arrivals) : Prop := ∃ p ∈ arrivals.waiting, p.id = firstWake.id

/-- The commands of a constructor, each with its processor. -/
def setupCommands : List (Command × UInt8) := (.wake, 0) :: Numbers.dark

namespace Sphero

/-- A new object whose commands are numbered from 3 on. -/
def built (id : UInt8) : Sphero :=
  { create id with
    packetManager := ⟨3⟩
    nextSignal := 1 }

section packets

theorem foldl_packetManager (packets : List Packet) (s : Sphero) :
    (packets.foldl handlePacket s).packetManager = s.packetManager := by
  induction packets generalizing s with
  | nil => rfl
  | cons p packets ih => rw [List.foldl_cons, ih, handlePacket_packetManager]

theorem foldl_waiting (packets : List Packet) (s : Sphero) :
    (packets.foldl handlePacket s).waiting = s.waiting := by
  induction packets generalizing s with
  | nil => rfl
  | cons p packets ih => rw [List.foldl_cons, ih, handlePacket_waiting]

end packets

section maps

theorem erase_insert_empty {κ : Type} [DecidableEq κ] {α : Type} (k : κ) (a : α) :
    (Finmap.insert k a (∅ : Finmap fun _ : κ => α)).erase k = ∅ := by
  refine Finmap.ext_lookup fun i => ?_
  by_cases hi : i = k
  · rw [hi, Finmap.lookup_erase, Finmap.lookup_empty]
  · rw [Finmap.lookup_erase_ne hi, Finmap.lookup_insert_of_ne _ hi]

theorem foldl_handlePacket_of_empty (packets : List Packet) {s : Sphero} (h : s.waiting = ∅) :
    packets.foldl handlePacket s = s := by
  induction packets with
  | nil => rfl
  | cons p packets ih =>
    have hp : s.waiting.lookup p.id = none := by rw [h, Finmap.lookup_empty]
    rw [List.foldl_cons, handlePacket_of_lookup_none hp, ih]

/-- While one signal is waited for, packets of other ids change nothing, and of its own packets the
    last is stored. -/
theorem foldl_handlePacket_of_single (packets : List Packet) {s : Sphero} {k : UInt32}
    {σ : SignalPtr} (h : s.waiting = Finmap.insert k σ ∅) :
    ((∀ p ∈ packets, p.id ≠ k) ∧ packets.foldl handlePacket s = s) ∨
      ((∃ p ∈ packets, p.id = k) ∧ ∃ q, packets.foldl handlePacket s =
        { s with
          responses := s.responses.insert k q
          signals := s.signals.insert σ ⟨true, k⟩ }) := by
  induction packets generalizing s with
  | nil => exact Or.inl ⟨fun p hp => absurd hp List.not_mem_nil, rfl⟩
  | cons p packets ih =>
    rw [List.foldl_cons]
    by_cases hp : p.id = k
    · refine Or.inr ⟨⟨p, List.mem_cons_self, hp⟩, ?_⟩
      have hlookup : s.waiting.lookup p.id = some σ := by rw [h, hp, Finmap.lookup_insert]
      rw [handlePacket_of_lookup hlookup, hp]
      rcases ih (s := { s with
          responses := s.responses.insert k p
          signals := s.signals.insert σ ⟨true, k⟩ }) h with ⟨-, heq⟩ | ⟨-, q, heq⟩
      · exact ⟨p, heq⟩
      · refine ⟨q, heq.trans ?_⟩
        simp only [Finmap.insert_insert]
    · have hlookup : s.waiting.lookup p.id = none := by
        rw [h, Finmap.lookup_insert_of_ne _ hp, Finmap.lookup_empty]
      rw [handlePacket_of_lookup_none hlookup]
      rcases ih h with ⟨hnone, heq⟩ | ⟨⟨q, hq, hid⟩, hfold⟩
      · exact Or.inl ⟨List.forall_mem_cons.mpr ⟨hp, hnone⟩, heq⟩
      · exact Or.inr ⟨⟨q, List.mem_cons_of_mem p hq, hid⟩, hfold⟩

/-- The object between `setup_response` and the wait. -/
def registered (id : UInt8) : Sphero :=
  { create id with
    packetManager := ⟨1⟩
    waiting := Finmap.insert firstWake.id 0 ∅
    signals := Finmap.insert 0 ⟨false, 0⟩ ∅
    nextSignal := 1 }

theorem setupResponse_wake (id : UInt8) (early : List Packet) :
    (early.foldl handlePacket (create id).wake.1).setupResponse (create id).wake.2 =
      (registered id, 0) := by
  rw [foldl_handlePacket_of_empty early rfl]
  rfl

/-- The wait for the wake: it takes the answer out, or changes nothing. -/
theorem waitForResponse_registered (id : UInt8) (packets : List Packet) :
    ((∀ p ∈ packets, p.id ≠ firstWake.id) ∧
        ((packets.foldl handlePacket (registered id)).waitForResponse 0).1 = registered id) ∨
      ((∃ p ∈ packets, p.id = firstWake.id) ∧
        ((packets.foldl handlePacket (registered id)).waitForResponse 0).1 =
          { create id with
            packetManager := ⟨1⟩
            nextSignal := 1 }) := by
  rcases foldl_handlePacket_of_single packets (s := registered id) rfl with
    ⟨hnone, hfold⟩ | ⟨hsome, q, hfold⟩
  · refine Or.inl ⟨hnone, ?_⟩
    have hpoll : (registered id).kPoll 0 = .timeout := rfl
    rw [hfold, waitForResponse, hpoll]
  · refine Or.inr ⟨hsome, ?_⟩
    have hpoll : (packets.foldl handlePacket (registered id)).kPoll 0 = .ready firstWake.id := by
      rw [hfold, kPoll_eq_ready]
      exact Finmap.lookup_insert _
    have hmem : firstWake.id ∈ (packets.foldl handlePacket (registered id)).responses := by
      rw [hfold]
      exact Finmap.mem_insert.mpr (Or.inl rfl)
    -- the map had this one entry, so its signal is the one released
    have hrelease : (packets.foldl handlePacket (registered id)).release firstWake.id = ∅ := by
      have hlookup : (packets.foldl handlePacket (registered id)).waiting.lookup firstWake.id =
          some 0 := by
        rw [foldl_waiting]
        exact Finmap.lookup_insert _
      rw [release, hlookup, hfold]
      show (Finmap.insert 0 _ (Finmap.insert 0 _ ∅)).erase 0 = _
      rw [Finmap.insert_insert, erase_insert_empty]
    rw [waitForResponse_of_ready hpoll hmem, hrelease, hfold]
    simp only [registered, erase_insert_empty]
    rfl

end maps

/-- The packets, and the object the wait left with the commands counted. -/
theorem construct_eq (id : UInt8) (arrivals : Arrivals) :
    construct id arrivals =
      ({ arrivals.late.foldl handlePacket
          ((arrivals.waiting.foldl handlePacket (registered id)).waitForResponse 0).1 with
        packetManager := ⟨3⟩ },
        Command.encodeAll PacketManager.new setupCommands) := by
  have hmanager : (arrivals.late.foldl handlePacket
      ((arrivals.waiting.foldl handlePacket (registered id)).waitForResponse 0).1).packetManager =
        ⟨1⟩ := by
    rw [foldl_packetManager, waitForResponse_packetManager, foldl_packetManager]
    rfl
  simp only [construct, setupResponse_wake]
  rw [turnOffAllLeds_eq, hmanager]
  rfl

/-- An answered constructor leaves the object as new, with its next command the fourth. -/
theorem construct_answered {arrivals : Arrivals} (h : arrivals.Answered) (id : UInt8) :
    (construct id arrivals).1 = built id := by
  obtain ⟨p, hp, hid⟩ := h
  rw [construct_eq]
  rcases waitForResponse_registered id arrivals.waiting with ⟨hnone, -⟩ | ⟨-, hwait⟩
  · exact absurd hid (hnone p hp)
  · rw [hwait, foldl_handlePacket_of_empty arrivals.late rfl]
    rfl

/-- One that is not answered leaves the request for its wake. -/
theorem construct_unanswered {arrivals : Arrivals} (h : ¬ arrivals.Answered) (id : UInt8) :
    (construct id arrivals).1.waiting = Finmap.insert firstWake.id 0 ∅ := by
  rw [construct_eq]
  show (arrivals.late.foldl handlePacket _).waiting = _
  rcases waitForResponse_registered id arrivals.waiting with ⟨-, hwait⟩ | ⟨hsome, -⟩
  · rw [hwait, foldl_waiting]
    rfl
  · exact absurd hsome h

/-- **The constructor.**  Whatever arrives before the request is set up, during the wait and after it,
    the robot is sent the same three packets.  The object waits for nothing any more exactly if the
    robot answered during the wait; it is then as new, with its next command the fourth, and
    otherwise it keeps the request for its wake. -/
theorem construct_waits (id : UInt8) (arrivals : Arrivals) :
    (construct id arrivals).2 = Command.encodeAll PacketManager.new setupCommands ∧
      ((construct id arrivals).1.waiting = ∅ ↔ arrivals.Answered) ∧
      (arrivals.Answered → (construct id arrivals).1 = built id) ∧
      (¬ arrivals.Answered → (construct id arrivals).1.waiting = Finmap.insert firstWake.id 0 ∅) := by
  refine ⟨by rw [construct_eq], ?_, fun h => construct_answered h id,
    fun h => construct_unanswered h id⟩
  constructor
  · intro hempty
    by_contra h
    have hlookup : (Finmap.insert firstWake.id 0 ∅ : Finmap fun _ : UInt32 => SignalPtr).lookup
        firstWake.id = some 0 := Finmap.lookup_insert _
    rw [← construct_unanswered h id, hempty, Finmap.lookup_empty] at hlookup
    cases hlookup
  · intro h
    rw [construct_answered h id]
    rfl

end Sphero

/-! ## The setup -/

namespace Scanner

/-- `SpheroScanner::get_spheros`: the objects, each with the packets its constructor sends. -/
def makeSpheros (s : Scanner) (arrivals : UInt8 → Arrivals) : List (Sphero × List Packet) :=
  s.getSpheros.map fun id => Sphero.construct id (arrivals id)

/-- The packets in the order they are sent, each with the slot of its robot. -/
def makeCommands (s : Scanner) (arrivals : UInt8 → Arrivals) : List (Slot × Packet) :=
  s.getSpheros.flatMap fun id =>
    (Sphero.construct id (arrivals id)).2.map fun packet => (Relay.slotOf id.toNat, packet)

end Scanner

namespace Relay

/-- The robots are found, and the objects are made: the main loop starts. -/
def ready (s : Scanner) (arrivals : UInt8 → Arrivals) (air : Air) : Relay :=
  ⟨Main.start ((s.makeSpheros arrivals).map Prod.fst), air⟩

theorem makeCommands_eq (s : Scanner) (arrivals : UInt8 → Arrivals) :
    s.makeCommands arrivals = (List.range s.getSpheroCount).flatMap fun i =>
      (Command.encodeAll PacketManager.new setupCommands).map fun packet => (slotOf i, packet) := by
  unfold Scanner.makeCommands Scanner.getSpheros
  rw [List.flatMap_map, List.flatMap_def, List.flatMap_def]
  refine congrArg List.flatten (List.map_congr_left fun i hi => ?_)
  have hlt : i < maxConn := Nat.lt_of_lt_of_le (List.mem_range.mp hi) s.conns.count_le
  have hsize : maxConn = 15 := rfl
  have hnat : (UInt8.ofNat i).toNat = i := by
    rw [UInt8.toNat_ofNat']
    omega
  rw [Sphero.construct_eq, hnat]

/-- What the setup says to each robot. -/
theorem read_makeCommands {s : Scanner} {arrivals : UInt8 → Arrivals} {home : Slot → BtConn}
    (hhome : ∀ i j : Slot, i.val < s.getSpheroCount → j.val < s.getSpheroCount →
      home i = home j → i = j) {i : Nat} (hi : i < s.getSpheroCount) :
    ((((s.makeCommands arrivals).map fun c => (home c.1, c.2)).filter
        fun p => p.1 = home (slotOf i)).map fun p => Order.read p.2) =
      setupCommands.map fun call => some call.1.order := by
  have hn : s.getSpheroCount ≤ maxConn := s.conns.count_le
  have hsame : ∀ j < s.getSpheroCount, home (slotOf j) = home (slotOf i) → j = i := by
    intro j hj heq
    rw [slotOf_val (Nat.lt_of_lt_of_le hj hn), slotOf_val (Nat.lt_of_lt_of_le hi hn)] at heq
    exact congrArg Fin.val (hhome _ _ hj hi heq)
  have hfits : ∀ call ∈ setupCommands, call.1.Fits :=
    List.forall_mem_cons.mpr ⟨trivial, List.forall_mem_cons.mpr ⟨trivial,
      List.forall_mem_singleton.mpr trivial⟩⟩
  rw [makeCommands_eq, List.map_flatMap, Pieces.filter_flatMap_range _ hi]
  · rw [List.map_map, List.map_map, ← Command.read_encodeAll PacketManager.new hfits]
    rfl
  · intro j hj hne p hp
    rw [List.map_map] at hp
    obtain ⟨packet, -, rfl⟩ := List.mem_map.mp hp
    exact decide_eq_false fun heq => hne (hsame j hj heq)
  · intro p hp
    rw [List.map_map] at hp
    obtain ⟨packet, -, rfl⟩ := List.mem_map.mp hp
    exact decide_eq_true rfl

/-- **The robots from the start.**  The robots are found in any run of the scanner; their objects are
    made, whatever packets arrive meanwhile; then frames are handled; and callbacks come all along.  If
    every command finds its robot on its own connection and is served, then the main loop goes the way
    the console does, with its state, its orders and one answer for each valid frame, and what was
    written for a robot, cut into notifications anyhow, reads as: wake, all LEDs off, the matrix black,
    and then the orders the console gave that robot, and no others. -/
theorem robots_obey {before : List Air.Act} {found : Air}
    (hfound : Transition.run Air.step Air.new before = some found) {arrivals : UInt8 → Arrivals}
    {home : Slot → BtConn}
    (hhome : ∀ i j : Slot, i.val < found.scanner.getSpheroCount →
      j.val < found.scanner.getSpheroCount → home i = home j → i = j)
    {making : List Air.Act} (hmaking : Air.commands making = found.scanner.makeCommands arrivals)
    (hserved : Transition.Along Air.step (Air.AtHome home) ⟨found.scanner, fun _ => [], []⟩ making)
    {made : Air} (hmade : Transition.run Air.step ⟨found.scanner, fun _ => [], []⟩ making = some made)
    {acts : List Act} {s : Relay}
    (hathome : Transition.Along step (AtHome home) (ready found.scanner arrivals made) acts)
    (hrun : Transition.run step (ready found.scanner arrivals made) acts = some s) :
    ∃ l, Transition.run (consoleStep found.scanner.getSpheroCount) Console.Log.start acts = some l ∧
      s.main.Shows found.scanner.getSpheroCount l ∧
      ∀ (i : Nat) (chunks : List Chunk), i < found.scanner.getSpheroCount →
        stream chunks = s.air.written (home (slotOf i)) →
          (callbacks (PacketCollector.session PacketCollector.new chunks).out).map Order.read =
            [some .wake, some (.leds 63 [0, 0, 0, 0, 0, 0]), some (.matrixColor ⟨0, 0, 0⟩)] ++
              (l.ordersFor i).map some := by
  have hlength : ((found.scanner.makeSpheros arrivals).map Prod.fst).length =
      found.scanner.getSpheroCount := by
    rw [List.length_map, Scanner.makeSpheros, List.length_map, Scanner.getSpheros, List.length_map,
      List.length_range]
  -- the objects are made first: what they send is theirs already
  obtain ⟨hfaithful, hcommanded⟩ := Air.faithful_run (Air.faithful_found hfound) hserved hmade
  have hshows := Main.shows_start ((found.scanner.makeSpheros arrivals).map Prod.fst)
  rw [hlength] at hshows
  have hstart : Follows found.scanner.getSpheroCount home made.commanded
      (ready found.scanner arrivals made) Console.Log.start :=
    ⟨hshows, hfaithful, (List.append_nil _).symm, fun _ h => absurd h List.not_mem_nil⟩
  obtain ⟨l, hl, hfollows⟩ := follows_run hstart hathome hrun
  refine ⟨l, hl, hfollows.shows, fun i chunks hi hchunks => ?_⟩
  have hread := read_sentTo hfollows found.scanner.conns.count_le hhome hi
  rw [hcommanded, hmaking, List.nil_append, read_makeCommands hhome hi] at hread
  rw [hfollows.faithful.written] at hchunks
  rw [PacketCollector.callbacks_stream hchunks, List.map_map]
  exact hread

/-- The one robot answers. -/
def answers : UInt8 → Arrivals := fun _ => ⟨[], [System.firstAnswer], []⟩

/-- The commands of the one object: the first finds the client free. -/
def making : List Air.Act :=
  .command ⟨0, Air.maxConn_pos⟩ firstWake (fun _ => ⟨none, none⟩) ::
    (Command.encodeAll ⟨1⟩ Numbers.dark).map fun packet =>
      .command ⟨0, Air.maxConn_pos⟩ packet fun _ => ⟨some 0, none⟩

/-- The fourth packet of the object. -/
def fourth : Packet := (Io.setLedMatrixColor ⟨3⟩ ⟨255, 255, 255⟩ 2).1

def sendFourth : Air.Act := .command ⟨0, Air.maxConn_pos⟩ fourth fun _ => ⟨some 0, none⟩

theorem robots_obey_white :
    ∃ found made s, Transition.run Air.step Air.new (Bound.found.map .event) = some found ∧
      Transition.run Air.step ⟨found.scanner, fun _ => [], []⟩ making = some made ∧
      Transition.run step (ready found.scanner answers made)
        [.frame ⟨startSwarm, []⟩ [sendFourth]] = some s ∧
      s.main.responses = [[0xFF]] ∧
      (callbacks (PacketCollector.session PacketCollector.new
        ((s.air.written 7).map PacketCollector.single)).out).map Order.read =
          [some .wake, some (.leds 63 [0, 0, 0, 0, 0, 0]), some (.matrixColor ⟨0, 0, 0⟩),
            some (.matrixColor ⟨255, 255, 255⟩)] := by
  obtain ⟨found, hfound, howner, htarget, hfree, hcount⟩ : ∃ found,
      Transition.run Air.step Air.new (Bound.found.map .event) = some found ∧
        found.scanner.conns.owner 0 = some 7 ∧ (found.scanner.conns.data 0).conn = some 7 ∧
        0 < (found.scanner.conns.data 0).sending.count ∧ found.scanner.getSpheroCount = 1 :=
    ⟨_, rfl, rfl, rfl, Nat.one_pos, rfl⟩
  have howned : found.scanner.conns.owner ⟨0, Air.maxConn_pos⟩ ≠ none := by
    rw [show found.scanner.conns.owner ⟨0, Air.maxConn_pos⟩ = some 7 from howner]
    exact Option.some_ne_none 7
  -- the objects are made
  obtain ⟨hwake, m, hm, howned, htarget⟩ := @Air.command_short (fun _ => 7)
    ⟨found.scanner, fun _ => [], []⟩ _ firstWake (fun _ => ⟨none, none⟩) howned htarget (by decide) rfl
    (Or.inr hfree)
  obtain ⟨hrest, made, hmade, howned, htarget⟩ := @Air.commands_short (fun _ => 7) _
    (Command.encodeAll ⟨1⟩ Numbers.dark) m howned htarget (by decide)
  have hserved : Transition.Along Air.step (Air.AtHome fun _ => 7) ⟨found.scanner, fun _ => [], []⟩
      making := by
    refine ⟨hwake, fun t ht => ?_⟩
    obtain rfl := Option.some.inj (hm.symm.trans ht)
    exact hrest
  have hmade : Transition.run Air.step ⟨found.scanner, fun _ => [], []⟩ making = some made := by
    rw [making, Transition.run_cons, hm]
    exact hmade
  have hmaking : Air.commands making = found.scanner.makeCommands answers := by
    rw [makeCommands_eq, hcount]
    rfl
  -- a frame is handled
  have hspheros : (found.scanner.makeSpheros answers).map Prod.fst = [Sphero.built 0] := by
    have hanswered : (answers 0).Answered := ⟨System.firstAnswer, List.mem_singleton_self _, rfl⟩
    rw [Scanner.makeSpheros, Scanner.getSpheros, hcount, ← Sphero.construct_answered hanswered 0]
    rfl
  obtain ⟨main, hmain, hsent⟩ : ∃ main, (Main.start [Sphero.built 0]).next ⟨startSwarm, []⟩ =
      some main ∧ main.sent = [(0, fourth)] := ⟨_, rfl, rfl⟩
  obtain ⟨hframe, air, hair, -⟩ := @Air.commands_short (fun _ => 7) _ [fourth] made howned htarget
    (by decide)
  have hathome : Transition.Along step (AtHome fun _ => 7) (ready found.scanner answers made)
      [.frame ⟨startSwarm, []⟩ [sendFourth]] :=
    ⟨hframe, fun _ _ => trivial⟩
  have hrun : Transition.run step (ready found.scanner answers made)
      [.frame ⟨startSwarm, []⟩ [sendFourth]] = some ⟨main, air⟩ := by
    have hair : Transition.run Air.step made [sendFourth] = some air := hair
    simp only [Transition.run_cons, step, ready, hspheros, hmain, Option.bind_some, hsent, hair]
    rfl
  have hone : ∀ i j : Slot, i.val < found.scanner.getSpheroCount →
      j.val < found.scanner.getSpheroCount → (7 : BtConn) = 7 → i = j := by
    intro i j hi hj _
    rw [hcount] at hi hj
    exact Fin.ext ((Nat.lt_one_iff.mp hi).trans (Nat.lt_one_iff.mp hj).symm)
  obtain ⟨l, hl, hshows, hread⟩ := robots_obey hfound hone hmaking hserved hmade hathome hrun
  have hlog : l.ordersFor 0 = [.matrixColor ⟨255, 255, 255⟩] ∧ l.answers = 1 := by
    rw [hcount] at hl
    obtain rfl := Option.some.inj hl
    exact ⟨rfl, rfl⟩
  have hanswer : main.responses = [[0xFF]] := by
    rw [show main.responses = List.replicate l.answers [0xFF] from hshows.answers, hlog.2]
    rfl
  refine ⟨found, made, ⟨main, air⟩, hfound, hmade, hrun, hanswer, ?_⟩
  rw [hread 0 _ (hcount ▸ Nat.one_pos) (PacketCollector.stream_singles _), hlog.1]
  rfl

end Relay

end NrfSpheros
