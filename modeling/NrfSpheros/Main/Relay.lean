/-
  From the host to the robots: the main loop and the air together.

  1. **The relay.**  Frames come from the host and are handled; while one is, the packets that its
     handler sends go through `execute`, and callbacks of the Bluetooth stack come in between.
  2. **One frame** (`follows_step`) — the main loop shows what the console logs, and the packets it
     sends to robot `i` are those written on the connection of robot `i`.
  3. **The robots understand the console** (`robots_understand`) — over every run in which the robots
     keep their connections and the commands are served.
-/
import NrfSpheros.Main.Console
import NrfSpheros.Sphero.Air

namespace NrfSpheros

open Scanner (Event)

namespace Console

/-! ## The robots the orders are for -/

theorem lt_of_mem_toAll {n : Nat} {orders : Nat → List Order} {p : Nat × Order}
    (h : p ∈ toAll n orders) : p.1 < n := by
  obtain ⟨i, hi, hp⟩ := List.mem_flatMap.mp h
  obtain ⟨order, -, rfl⟩ := List.mem_map.mp hp
  exact List.mem_range.mp hi

theorem eq_of_mem_matchCommand {c : Console} {f : RxFrame} {p : Nat × Order}
    (h : p ∈ (c.matchCommand f).2) : p.1 = c.matchingIndex.toNat := by
  unfold matchCommand at h
  simp only at h
  split at h
  · rw [List.mem_singleton.mp h]
  split at h
  · rcases List.mem_cons.mp h with rfl | h
    · rfl
    · rw [List.mem_singleton.mp h]
  split at h
  · rw [List.mem_singleton.mp h]
  split at h
  · rcases List.mem_cons.mp h with rfl | h
    · rfl
    · rw [List.mem_singleton.mp h]
  · cases h

/-- Orders go to robots that are there. -/
theorem lt_of_mem_react {n : Nat} {c : Console} {f : RxFrame} {r : Console × List (Nat × Order)}
    (hr : c.react n f = some r) {p : Nat × Order} (h : p ∈ r.2) : p.1 < n := by
  unfold react at hr
  split at hr
  · obtain rfl := Option.some.inj hr
    exact lt_of_mem_toAll h
  unfold dispatch at hr
  split at hr
  · split at hr
    · obtain rfl := Option.some.inj hr
      simp only at h
      split at h
      · exact lt_of_mem_toAll h
      · cases h
    · obtain rfl := Option.some.inj hr
      cases h
  · split at hr
    · obtain rfl := Option.some.inj hr
      cases h
    split at hr
    · obtain rfl := Option.some.inj hr
      rw [eq_of_mem_matchCommand h]
      assumption
    · cases hr
  · split at hr
    · obtain rfl := Option.some.inj hr
      rcases List.mem_append.mp h with h | h <;> exact lt_of_mem_toAll h
    · obtain rfl := Option.some.inj hr
      cases h

/-- The orders for robot `i`. -/
def Log.ordersFor (l : Log) (i : Nat) : List Order :=
  (l.orders.filter fun p => p.1 = i).map Prod.snd

theorem lt_of_mem_step {n : Nat} {l l' : Log} {f : RxFrame} (h : ∀ p ∈ l.orders, p.1 < n)
    (hl : l.step n f = some l') : ∀ p ∈ l'.orders, p.1 < n := by
  unfold Log.step at hl
  split at hl
  · obtain ⟨r, hr, rfl⟩ := Option.map_eq_some_iff.mp hl
    intro p hp
    rcases List.mem_append.mp hp with hp | hp
    · exact h p hp
    · exact lt_of_mem_react hr hp
  · exact Option.some.inj hl ▸ h

end Console

namespace Air

/-! ## Robots that keep their connections -/

/-- The commands among the acts. -/
def commands : List Act → List (Slot × Packet)
  | [] => []
  | .event _ :: acts => commands acts
  | .command slot packet _ :: acts => (slot, packet) :: commands acts

/-- A command is served, on the connection of its robot. -/
def AtHome (home : Slot → BtConn) (s : Air) (a : Act) : Prop :=
  s.Served a ∧ ∀ slot packet turns, a = .command slot packet turns →
    s.target slot = some (home slot)

/-- What the commands are is what is sent to the homes. -/
theorem faithful_run {home : Slot → BtConn} {acts : List Act} {s t : Air} (h : s.Faithful)
    (hhome : Transition.Along step (AtHome home) s acts) (hrun : Transition.run step s acts = some t) :
    t.Faithful ∧ t.commanded = s.commanded ++ (commands acts).map fun c => (home c.1, c.2) := by
  induction acts generalizing s with
  | nil =>
    obtain rfl := Option.some.inj hrun
    exact ⟨h, (List.append_nil _).symm⟩
  | cons a acts ih =>
    obtain ⟨m, hm, hrest⟩ := Transition.run_cons_eq_some hrun
    obtain ⟨⟨hserved, htarget⟩, hnext⟩ := hhome
    have hm' := faithful_step h ((accepted_iff_served h.ready a).mpr hserved) hm
    obtain ⟨ht, hcommanded⟩ := ih hm' (hnext m hm) hrest
    refine ⟨ht, ?_⟩
    rw [hcommanded]
    cases a with
    | event e =>
      obtain ⟨scanner, -, rfl⟩ := Option.map_eq_some_iff.mp hm
      rfl
    | command slot packet turns =>
      obtain ⟨-, hm⟩ := step_command hm
      rw [hm, htarget slot packet turns rfl, List.append_assoc]
      rfl

/-- A packet of one chunk, on a taken slot whose client has a connection: it is served if the write
    before it was reported sent, or there is none. -/
theorem command_short {home : Slot → BtConn} {s : Air} {slot : Slot} {packet : Packet}
    {turns : Nat → Turn} (howner : s.scanner.conns.owner slot ≠ none)
    (htarget : s.target slot = some (home slot)) (hshort : packet.build.length ≤ 20)
    (hwrite : (turns 0).write = none)
    (hsent : (turns 0).sent ≠ none ∨ 0 < (s.scanner.conns.data slot).sending.count) :
    AtHome home s (.command slot packet turns) ∧
      ∃ t, step s (.command slot packet turns) = some t ∧
        t.scanner.conns.owner slot ≠ none ∧ t.target slot = some (home slot) := by
  refine ⟨⟨⟨howner, fun k hk => ?_⟩, ?_⟩, ?_⟩
  · have hlt : 0 + 20 * k < packet.build.length := hk
    have hzero : k = 0 := by omega
    subst hzero
    refine ⟨?_, hwrite, hsent.imp_right fun h => ⟨rfl, h⟩⟩
    rw [show (s.scanner.conns.data slot).conn = some (home slot) from htarget]
    exact Option.some_ne_none _
  · rintro slot packet turns ⟨⟩
    exact htarget
  · obtain ⟨calls, client, hexecute, -, -, -, hconn⟩ :=
      Scanner.execute_of_owned howner packet turns
    simp only [step, hexecute]
    refine ⟨_, rfl, ?_, ?_⟩
    · rw [SlotTable.owner_modify]
      exact howner
    · rw [target, SlotTable.data_modify_self, hconn]
      exact htarget

/-- Short packets, each sent when the write before it was reported. -/
theorem commands_short {home : Slot → BtConn} {slot : Slot} {packets : List Packet} {s : Air}
    (howner : s.scanner.conns.owner slot ≠ none) (htarget : s.target slot = some (home slot))
    (hshort : ∀ packet ∈ packets, packet.build.length ≤ 20) :
    Transition.Along step (AtHome home) s
        (packets.map fun packet => .command slot packet fun _ => ⟨some 0, none⟩) ∧
      ∃ t, Transition.run step s
          (packets.map fun packet => .command slot packet fun _ => ⟨some 0, none⟩) = some t ∧
        t.scanner.conns.owner slot ≠ none ∧ t.target slot = some (home slot) := by
  induction packets generalizing s with
  | nil => exact ⟨trivial, s, rfl, howner, htarget⟩
  | cons packet packets ih =>
    obtain ⟨hpacket, hpackets⟩ := List.forall_mem_cons.mp hshort
    obtain ⟨hat, t, ht, howner, htarget⟩ := @command_short home s slot packet
      (fun _ => ⟨some 0, none⟩) howner htarget hpacket rfl (Or.inl (Option.some_ne_none 0))
    obtain ⟨halong, t', hrun, hend⟩ := ih howner htarget hpackets
    refine ⟨⟨hat, fun m hm => ?_⟩, t', ?_, hend⟩
    · obtain rfl := Option.some.inj (ht.symm.trans hm)
      exact halong
    · rw [List.map_cons, Transition.run_cons, ht]
      exact hrun

/-- Whatever the scanner has been through, it starts with nothing written. -/
theorem faithful_found {before : List Act} {found : Air}
    (hfound : Transition.run step new before = some found) :
    Faithful ⟨found.scanner, fun _ => [], []⟩ := by
  have hready : Ready found.scanner :=
    Transition.invariant (I := fun s : Air => Ready s.scanner) (fun h hs => ready_next h hs)
      (fun slot hslot => absurd rfl hslot) hfound
  exact ⟨hready, fun _ => rfl⟩

end Air

/-! ## The relay -/

structure Relay where
  main : Main
  air : Air

namespace Relay

/-- `Sphero(i)`. -/
def slotOf (i : Nat) : Slot := ⟨i % maxConn, Nat.mod_lt i Air.maxConn_pos⟩

inductive Act
  /-- A callback of the Bluetooth stack. -/
  | event (e : Event)
  /-- A frame is handled, and meanwhile `acts` happen. -/
  | frame (e : Input) (acts : List Air.Act)

/-- The commands on the air are the packets the handler sends. -/
def step (s : Relay) : Act → Option Relay
  | .event e => (s.air.step (.event e)).map fun air => { s with air }
  | .frame e acts =>
    (s.main.next e).bind fun main =>
      if main.sent.map (fun p => (slotOf p.1, p.2)) =
          s.main.sent.map (fun p => (slotOf p.1, p.2)) ++ Air.commands acts then
        (Transition.run Air.step s.air acts).map fun air => ⟨main, air⟩
      else none

/-- The main loop starts, with nothing written yet. -/
def start (spheros : List Sphero) (scanner : Scanner) : Relay :=
  ⟨Main.start spheros, ⟨scanner, fun _ => [], []⟩⟩

/-- Every command of the frame is served at home. -/
def AtHome (home : Slot → BtConn) (s : Relay) : Act → Prop
  | .event _ => True
  | .frame _ acts => Transition.Along Air.step (Air.AtHome home) s.air acts

/-- The console sees only the frames. -/
def consoleStep (n : Nat) (l : Console.Log) : Act → Option Console.Log
  | .event _ => some l
  | .frame e _ => l.step n e.frame

/-- The main loop with `n` robots shows the log, and the robots were sent what it has sent, after what
    they had been sent before. -/
structure Follows (n : Nat) (home : Slot → BtConn) (before : List (BtConn × Packet)) (s : Relay)
    (l : Console.Log) : Prop where
  shows : s.main.Shows n l
  faithful : s.air.Faithful
  commanded : s.air.commanded = before ++ s.main.sent.map fun p => (home (slotOf p.1), p.2)
  bounded : ∀ p ∈ l.orders, p.1 < n

/-- **One frame.** -/
theorem follows_step {n : Nat} {home : Slot → BtConn} {before : List (BtConn × Packet)}
    {s s' : Relay} {l : Console.Log} {a : Act} (h : Follows n home before s l)
    (ha : s.AtHome home a) (hs : s.step a = some s') :
    ∃ l', consoleStep n l a = some l' ∧ Follows n home before s' l' := by
  cases a with
  | event e =>
    obtain ⟨air, hair, rfl⟩ := Option.map_eq_some_iff.mp hs
    have hair' := Air.faithful_step (a := .event e) h.faithful trivial hair
    obtain ⟨scanner, -, rfl⟩ := Option.map_eq_some_iff.mp hair
    exact ⟨l, rfl, h.shows, hair', h.commanded, h.bounded⟩
  | frame e acts =>
    obtain ⟨main, hmain, hs⟩ := Option.bind_eq_some_iff.mp hs
    have hrel := Main.next_shows (e := e) h.shows
    rw [hmain] at hrel
    obtain ⟨l', hl', hshows⟩ := Transition.rel_some hrel
    split at hs
    · rename_i hsent
      obtain ⟨air, hair, rfl⟩ := Option.map_eq_some_iff.mp hs
      obtain ⟨hfaithful, hcommanded⟩ := Air.faithful_run h.faithful ha hair
      refine ⟨l', hl', hshows, hfaithful, ?_, Console.lt_of_mem_step h.bounded hl'⟩
      have hmap := congrArg (List.map fun c : Slot × Packet => (home c.1, c.2)) hsent
      rw [List.map_map, List.map_append, List.map_map] at hmap
      rw [hcommanded, h.commanded, List.append_assoc]
      exact congrArg (before ++ ·) hmap.symm
    · cases hs

theorem slotOf_val {i : Nat} (h : i < maxConn) : slotOf i = ⟨i, h⟩ :=
  Fin.ext (Nat.mod_eq_of_lt h)

/-- **Any frames and callbacks.** -/
theorem follows_run {n : Nat} {home : Slot → BtConn} {before : List (BtConn × Packet)}
    {s s' : Relay} {l : Console.Log} {acts : List Act} (h : Follows n home before s l)
    (hathome : Transition.Along step (AtHome home) s acts) (hrun : Transition.run step s acts = some s') :
    ∃ l', Transition.run (consoleStep n) l acts = some l' ∧ Follows n home before s' l' := by
  refine Transition.run_simulation_along ?_ h hathome hrun
  intro s l a s' h ha hs
  exact follows_step h ha hs

/-- What robot `i` was sent says what it was ordered, after what it had been sent before. -/
theorem read_sentTo {n : Nat} {home : Slot → BtConn} {before : List (BtConn × Packet)} {s : Relay}
    {l : Console.Log} (h : Follows n home before s l) (hn : n ≤ maxConn)
    (hhome : ∀ i j : Slot, i.val < n → j.val < n → home i = home j → i = j) {i : Nat} (hi : i < n) :
    (s.air.sentTo (home (slotOf i))).map Order.read =
      ((before.filter fun p => p.1 = home (slotOf i)).map fun p => Order.read p.2) ++
        (l.ordersFor i).map some := by
  have hsame : ∀ p ∈ l.orders, home (slotOf p.1) = home (slotOf i) ↔ p.1 = i := by
    intro p hp
    have hp := h.bounded p hp
    constructor
    · intro heq
      rw [slotOf_val (Nat.lt_of_lt_of_le hp hn), slotOf_val (Nat.lt_of_lt_of_le hi hn)] at heq
      exact congrArg Fin.val (hhome _ _ hp hi heq)
    · exact congrArg fun j => home (slotOf j)
  have hsent : (s.air.sentTo (home (slotOf i))).map Order.read =
      ((before.filter fun p => p.1 = home (slotOf i)).map fun p => Order.read p.2) ++
        ((s.main.told.filter fun p => home (slotOf p.1) = home (slotOf i)).map Prod.snd) := by
    rw [Air.sentTo, h.commanded, Main.told, List.filter_append, List.filter_map, List.filter_map,
      List.map_append, List.map_append, List.map_map, List.map_map, List.map_map, List.map_map]
    rfl
  rw [hsent, h.shows.orders, Console.Log.ordersFor, List.filter_map, List.map_map, List.map_map]
  have hfilter : l.orders.filter ((fun p : Nat × Option Order => decide (home (slotOf p.1) =
      home (slotOf i))) ∘ fun p => (p.1, some p.2)) = l.orders.filter fun p => p.1 = i :=
    List.filter_congr fun p hp => decide_eq_decide.mpr (hsame p hp)
  rw [hfilter]
  rfl

/-- **The robots understand the console.**  Frames are handled and callbacks come, in any order, from
    any state the scanner can be in; while a frame is handled every command finds its robot on its own
    connection and is served.  Then the main loop ends where the console does, with one answer for each
    valid frame, and what was written for a robot, cut into notifications anyhow, reads as the orders
    that the console gave that robot: all of them, in their order, and no others. -/
theorem robots_understand {before : List Air.Act} {found : Air}
    (hfound : Transition.run Air.step Air.new before = some found) {spheros : List Sphero}
    (hn : spheros.length ≤ maxConn) {home : Slot → BtConn}
    (hhome : ∀ i j : Slot, i.val < spheros.length → j.val < spheros.length → home i = home j → i = j)
    {acts : List Act} {s : Relay}
    (hathome : Transition.Along step (AtHome home) (start spheros found.scanner) acts)
    (hrun : Transition.run step (start spheros found.scanner) acts = some s) :
    ∃ l, Transition.run (consoleStep spheros.length) Console.Log.start acts = some l ∧
      s.main.responses = List.replicate l.answers [0xFF] ∧
      ∀ (i : Nat) (chunks : List Chunk), i < spheros.length →
        stream chunks = s.air.written (home (slotOf i)) →
          (callbacks (PacketCollector.session PacketCollector.new chunks).out).map Order.read =
            (l.ordersFor i).map some := by
  have hstart : Follows spheros.length home [] (start spheros found.scanner) Console.Log.start :=
    ⟨Main.shows_start spheros, Air.faithful_found hfound, rfl, fun _ h => absurd h List.not_mem_nil⟩
  obtain ⟨l, hl, hfollows⟩ := follows_run hstart hathome hrun
  refine ⟨l, hl, hfollows.shows.answers, fun i chunks hi hchunks => ?_⟩
  rw [hfollows.faithful.written] at hchunks
  rw [PacketCollector.callbacks_stream hchunks, List.map_map]
  exact read_sentTo hfollows hn hhome hi

/-- The frame that starts the swarm. -/
def startSwarm : RxFrame where
  rx := ⟨Vector.ofFn fun i => [0x8d, 0x01, 0x02, 0x0a].getD i 0, 4⟩
  pos := by decide
  le := by decide

/-- The packet its handler sends to the one robot. -/
def white : Packet := (Io.setLedMatrixColor PacketManager.new ⟨255, 255, 255⟩ 2).1

def sendWhite : Air.Act := .command ⟨0, Air.maxConn_pos⟩ white fun _ => ⟨none, none⟩

theorem robots_understand_white :
    ∃ found s, Transition.run Air.step Air.new (Bound.found.map .event) = some found ∧
      Transition.run step (start [Sphero.create 0] found.scanner)
        [.frame ⟨startSwarm, []⟩ [sendWhite]] = some s ∧
      (callbacks (PacketCollector.session PacketCollector.new
        ((s.air.written 7).map PacketCollector.single)).out).map Order.read =
          [some (.matrixColor ⟨255, 255, 255⟩)] := by
  obtain ⟨found, hfound, howner, htarget, hfree⟩ : ∃ found,
      Transition.run Air.step Air.new (Bound.found.map .event) = some found ∧
        found.scanner.conns.owner 0 = some 7 ∧ (found.scanner.conns.data 0).conn = some 7 ∧
        0 < (found.scanner.conns.data 0).sending.count := ⟨_, rfl, rfl, rfl, Nat.one_pos⟩
  have howned : found.scanner.conns.owner ⟨0, Air.maxConn_pos⟩ ≠ none := by
    rw [show found.scanner.conns.owner ⟨0, Air.maxConn_pos⟩ = some 7 from howner]
    exact Option.some_ne_none 7
  obtain ⟨main, hmain, hsent⟩ : ∃ main, (Main.start [Sphero.create 0]).next ⟨startSwarm, []⟩ =
      some main ∧ main.sent = [(0, white)] := ⟨_, rfl, rfl⟩
  obtain ⟨hserved, air, hair, -⟩ := @Air.command_short (fun _ => 7) ⟨found.scanner, fun _ => [], []⟩ _
    white (fun _ => ⟨none, none⟩) howned htarget (by decide) rfl (Or.inr hfree)
  have hrun : Transition.run step (start [Sphero.create 0] found.scanner)
      [.frame ⟨startSwarm, []⟩ [sendWhite]] = some ⟨main, air⟩ := by
    have hair : Transition.run Air.step ⟨found.scanner, fun _ => [], []⟩ [sendWhite] = some air := by
      rw [Transition.run_cons, sendWhite, hair]
      rfl
    simp only [Transition.run_cons, step, start, hmain, Option.bind_some, hsent, hair]
    rfl
  have hathome : Transition.Along step (AtHome fun _ => 7) (start [Sphero.create 0] found.scanner)
      [.frame ⟨startSwarm, []⟩ [sendWhite]] :=
    ⟨⟨hserved, fun _ _ => trivial⟩, fun _ _ => trivial⟩
  obtain ⟨l, hl, -, hread⟩ := robots_understand hfound (by decide)
    (fun i j hi hj _ => Fin.ext ((Nat.lt_one_iff.mp hi).trans (Nat.lt_one_iff.mp hj).symm))
    hathome hrun
  have hlog : l.ordersFor 0 = [.matrixColor ⟨255, 255, 255⟩] := by
    obtain rfl := Option.some.inj hl
    rfl
  refine ⟨found, ⟨main, air⟩, hfound, hrun, ?_⟩
  rw [hread 0 _ Nat.one_pos (PacketCollector.stream_singles _), hlog]
  rfl

end Relay

end NrfSpheros
