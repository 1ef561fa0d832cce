/-
  The main loop as the host sees it: frames in, orders and answers out.

  1. **The console.**  What the main loop is for, without its Sphero objects, its packets and their
     numbers: where it stands, and for a frame which robot is ordered what.  `none` is an access to a
     Sphero that is not there.
  2. **Spec lemmas** (`Told`) — since a state Spheros have been given orders, and these; one lemma for
     each method that a handler calls, and from them one for each handler.
  3. **Refinement** (`main_refines_console`) — over every sequence of frames, whatever packets arrive
     meanwhile, the main loop gives the console's orders and its answers, and faults where it does.
  4. **A reset erases the past** (`reset_erases`) — after a reset frame what was received before makes
     no difference to the orders that follow.
-/
import NrfSpheros.Main.Swarm
import NrfSpheros.Sphero.LedMap
import NrfSpheros.Sphero.Orders

namespace NrfSpheros

/-! ## The console -/

/-- `data[i]`. -/
def RxFrame.at (f : RxFrame) (i : Nat) : UInt8 :=
  if h : i < recieveBuffSize then f.rx.data[i] else 0

structure Console where
  state : States
  matchingIndex : UInt8
deriving DecidableEq, Repr

namespace Console

def start : Console := ⟨.IDLE, 0⟩

/-- Orders for each of `n` robots, robot by robot. -/
def toAll (n : Nat) (orders : Nat → List Order) : List (Nat × Order) :=
  (List.range n).flatMap fun i => (orders i).map fun order => (i, order)

/-- The blue LEDs, front and back. -/
def blue (front back : UInt8) : Order := .leds 0x24 [front, back]

/-- The colour of robot `i` in a swarm frame. -/
def colorAt (f : RxFrame) (i : Nat) : Order :=
  .matrixColor ⟨f.at (i * 3 + 2), f.at (i * 3 + 1 + 2), f.at (i * 3 + 2 + 2)⟩

/-- The velocity of robot `i` in a swarm frame for `n`. -/
def velocityAt (f : RxFrame) (n i : Nat) : Order :=
  let offset := 2 + 3 * n
  .drive (f.at (offset + i * 3))
    (Wire.joinBytes (f.at (offset + i * 3 + 1)) (f.at (offset + i * 3 + 2))) Drive.forward

/-- A match command to the robot that is being matched. -/
def matchCommand (c : Console) (f : RxFrame) : Console × List (Nat × Order) :=
  let i := c.matchingIndex.toNat
  if f.command = 0x01 then ({ c with matchingIndex := c.matchingIndex + 1 }, [(i, blue 0 0)])
  else if f.command = 0x02 then (c, [(i, .resetAim), (i, .leds 0x04 [255])])
  else if f.command = 0x03 then (c, [(i, blue 0 255)])
  else if f.command = 0x04 then
    (c, [(i, .drive 0 (Wire.joinBytes (f.at 2) (f.at 3)) Drive.forward), (i, .resetAim)])
  else (c, [])

/-- A valid frame that is no reset. -/
def dispatch (n : Nat) (c : Console) (f : RxFrame) : Option (Console × List (Nat × Order)) :=
  match c.state with
  | .IDLE =>
    if f.rx.len = 4 ∧ f.command = 0x01 then
      let state := Main.uint8ToState (f.at 2)
      some ({ c with state },
        if state = .SET_COLORS then toAll n fun _ => [.matrixColor ⟨255, 255, 255⟩] else [])
    else some (c, [])
  | .MATCH =>
    if n = 0 ∨ f.rx.len < 3 then some (c, [])
    else if c.matchingIndex.toNat < n then some (c.matchCommand f)
    else none
  | .SET_COLORS =>
    if f.rx.len.toNat = 3 + 6 * n ∧ f.command = 0x01 then
      some (c, toAll n (fun i => [colorAt f i]) ++ toAll n fun i => [velocityAt f n i])
    else some (c, [])

/-- A valid frame. -/
def react (n : Nat) (c : Console) (f : RxFrame) : Option (Console × List (Nat × Order)) :=
  if f.command = 0x00 then
    some (start, toAll n fun _ => [.clearMatrix, .matrixColor ⟨0, 0, 0⟩, blue 0 0])
  else c.dispatch n f

/-- The console with all the orders and the number of answers so far. -/
structure Log where
  console : Console
  orders : List (Nat × Order)
  answers : Nat
deriving DecidableEq, Repr

def Log.start : Log := ⟨Console.start, [], 0⟩

def Log.step (n : Nat) (l : Log) (f : RxFrame) : Option Log :=
  if f.valid then
    (l.console.react n f).map fun r => ⟨r.1, l.orders ++ r.2, l.answers + 1⟩
  else some l

theorem toAll_succ (n : Nat) (orders : Nat → List Order) :
    toAll (n + 1) orders = toAll n orders ++ (orders n).map fun order => (n, order) := by
  rw [toAll, List.range_succ, List.flatMap_append, List.flatMap_singleton]
  rfl

end Console

/-! ## What the methods order -/

namespace Main

/-- Since `s₀` Spheros have been commanded, and this is what they were told. -/
structure Told (s₀ : Main) (orders : List (Nat × Order)) (s : Main) : Prop where
  steady : Steady s₀ s
  responses : s.responses = s₀.responses
  sent : ∃ sent, s.sent = s₀.sent ++ sent ∧
    sent.map (fun p => (p.1, Order.read p.2)) = orders.map fun p => (p.1, some p.2)

theorem told_refl (s : Main) : Told s [] s :=
  ⟨steady_refl s, rfl, [], (List.append_nil _).symm, rfl⟩

theorem told_read {s₀ s : Main} {orders : List (Nat × Order)} (h : Told s₀ orders s)
    (reads : List Nat) : Told s₀ orders { s with reads } :=
  ⟨⟨h.steady.length, h.steady.state, h.steady.matching, h.steady.matchingIndex⟩, h.responses, h.sent⟩

/-- Only the globals, the responses and what was sent matter of the state before. -/
theorem told_base {s₀ s : Main} {reads : List Nat} {orders : List (Nat × Order)}
    (h : Told { s₀ with reads } orders s) : Told s₀ orders s :=
  ⟨⟨h.steady.length, h.steady.state, h.steady.matching, h.steady.matchingIndex⟩, h.responses, h.sent⟩

/-- A method that orders the same whatever the state of the Sphero. -/
theorem told_call {s₀ s : Main} {orders : List (Nat × Order)} (h : Told s₀ orders s) {i : Nat}
    (hi : i < s₀.spheros.length) {method : Sphero → Sphero × List Packet} {os : List Order}
    (hmethod : ∀ sphero, (method sphero).2.map Order.read = os.map some) :
    Ends (call i method) s fun _ => Told s₀ (orders ++ os.map fun order => (i, order)) := by
  have hi' : i < s.spheros.length := h.steady.length ▸ hi
  obtain ⟨sent, hsent, horders⟩ := h.sent
  rw [call_iff hi']
  refine ⟨⟨(List.length_set ..).trans h.steady.length, h.steady.state, h.steady.matching,
    h.steady.matchingIndex⟩, h.responses,
    sent ++ (method s.spheros[i]).2.map fun packet => (i, packet), ?_, ?_⟩
  · rw [hsent, List.append_assoc]
  · have hread := congrArg (List.map fun order => (i, order)) (hmethod s.spheros[i])
    rw [List.map_map, List.map_map] at hread
    rw [List.map_append, List.map_append, horders, List.map_map, List.map_map]
    exact congrArg (_ ++ ·) hread

/-- A method that sends one packet. -/
theorem read_one {method : Sphero → Sphero × Packet} {order : Order}
    (h : ∀ sphero, Order.read (method sphero).2 = some order) (sphero : Sphero) :
    (one (method sphero)).2.map Order.read = [order].map some := by
  rw [one, List.map_singleton, List.map_singleton, h]

theorem read_clearMatrix (sphero : Sphero) : Order.read sphero.clearMatrix.2 = some .clearMatrix :=
  rfl

theorem read_resetAim (sphero : Sphero) : Order.read sphero.resetAim.2 = some .resetAim := rfl

theorem read_setMatrixColor (color : RGBColor) (sphero : Sphero) :
    Order.read (sphero.setMatrixColor color).2 = some (.matrixColor color) := rfl

theorem read_drive (speed : UInt8) (heading : UInt16) (sphero : Sphero) :
    Order.read (sphero.drive speed heading).2 = some (.drive speed heading Drive.forward) :=
  Command.read_encode (c := .drive speed heading Drive.forward) trivial sphero.packetManager _

theorem read_turn (heading : UInt16) (arrivals : List Packet) (sphero : Sphero) :
    (turn heading arrivals sphero).2.map Order.read =
      [Order.drive 0 heading Drive.forward].map some :=
  congrArg (fun order => [order]) (read_drive 0 heading sphero)

/-- A map of LEDs that sets a bit of the mask. -/
theorem read_setAllLedsWithMap {mapping : Finmap fun _ : LEDs => UInt8} {mask : UInt8}
    {values : List UInt8} (hpacked : Sphero.packed mapping = (mask, values)) (hmask : mask ≠ 0)
    (sphero : Sphero) :
    (sphero.setAllLedsWithMap mapping).2.map Order.read = [Order.leds mask values].map some := by
  have hsent : (sphero.setAllLedsWithMap mapping).2 =
      [(sphero.setAllLedsWith8BitMask mask values).2] := by
    have hloop : LEDs.all.foldl (Sphero.mapLed mapping) (0, []) = (mask, values) := hpacked
    simp only [Sphero.setAllLedsWithMap, hloop, if_pos hmask]
  rw [hsent]
  exact congrArg (fun order => [order])
    (Command.read_encode (c := .setAllLedsWith8BitMask mask values) trivial sphero.packetManager _)

/-- The blue LEDs of a robot. -/
theorem read_blue (front back : UInt8) (sphero : Sphero) :
    (sphero.setAllLedsWithMap (ledMap [(.frontBlue, front), (.backBlue, back)])).2.map Order.read =
      [Console.blue front back].map some := by
  have hmask : (0x24 : UInt8) = (0 : UInt8) ||| ((1 : UInt8) <<< LEDs.frontBlue.toByte) |||
      ((1 : UInt8) <<< LEDs.backBlue.toByte) := by decide
  have hpacked : Sphero.packed (ledMap [(.frontBlue, front), (.backBlue, back)]) =
      (0x24, [front, back]) := by
    rw [hmask]
    rfl
  exact read_setAllLedsWithMap hpacked (by decide) sphero

theorem read_frontBlue (front : UInt8) (sphero : Sphero) :
    (sphero.setAllLedsWithMap (ledMap [(.frontBlue, front)])).2.map Order.read =
      [Order.leds 0x04 [front]].map some := by
  have hmask : (0x04 : UInt8) = (0 : UInt8) ||| ((1 : UInt8) <<< LEDs.frontBlue.toByte) := by decide
  have hpacked : Sphero.packed (ledMap [(.frontBlue, front)]) = (0x04, [front]) := by
    rw [hmask]
    rfl
  exact read_setAllLedsWithMap hpacked (by decide) sphero

/-- A loop over the Spheros whose `i`-th round orders `g i`. -/
theorem told_loop {n : Nat} {f : Nat → Exec Unit} {g : Nat → List Order} {s₀ s : Main}
    {orders : List (Nat × Order)}
    (hround : ∀ i, i < n → ∀ s orders, Told s₀ orders s →
      Ends (f i) s fun _ => Told s₀ (orders ++ (g i).map fun order => (i, order)))
    (h : Told s₀ orders s) :
    Ends ((List.range n).forM f) s fun _ => Told s₀ (orders ++ Console.toAll n g) := by
  refine Ends.forM_range (I := fun i => Told s₀ (orders ++ Console.toAll i g)) ?_ ?_
  · intro i hi t ht
    rw [Console.toAll_succ, ← List.append_assoc]
    exact hround i hi t _ ht
  · rw [show Console.toAll 0 g = [] from rfl, List.append_nil]
    exact h

/-! ## What the handlers order -/

/-- The state with the globals of the console. -/
def place (s : Main) (c : Console) : Main :=
  { s with state := c.state, matchingIndex := c.matchingIndex }

/-- A byte of the frame, as the console reads it. -/
theorem at_eq {f : RxFrame} {i : Nat} (hi : i < recieveBuffSize) : f.at i = f.rx.data[i] := by
  rw [RxFrame.at, dif_pos hi]

/-- The reset, up to its own two assignments. -/
theorem told_reset (s : Main) :
    Ends reset s fun _ => Told (s.place Console.start)
      (Console.toAll s.spheros.length fun _ => [.clearMatrix, .matrixColor ⟨0, 0, 0⟩,
        Console.blue 0 0]) := by
  unfold reset
  simp only [Ends.bind_iff, Ends.get_iff]
  refine (told_loop (g := fun _ => [.clearMatrix, .matrixColor ⟨0, 0, 0⟩, Console.blue 0 0])
    (fun i hi t orders ht => ?_) (told_refl s)).mono fun _ t ht => ?_
  · rw [Ends.bind_iff]
    refine (told_call ht hi (read_one read_clearMatrix)).mono fun _ u hu => ?_
    rw [Ends.bind_iff]
    refine (told_call hu hi (read_one (read_setMatrixColor ⟨0, 0, 0⟩))).mono fun _ v hv => ?_
    refine (told_call hv hi (read_blue 0 0)).mono fun _ w hw => ?_
    rwa [List.append_assoc, List.append_assoc] at hw
  · rw [Ends.modify_iff]
    exact ⟨⟨ht.steady.length, rfl, ht.steady.matching, rfl⟩, ht.responses, ht.sent⟩

/-- Nothing has been ordered yet. -/
theorem told_start {s₀ s : Main} (h : Steady s₀ s) (hresponses : s.responses = s₀.responses)
    (hsent : s.sent = s₀.sent) : Told s₀ [] s :=
  ⟨h, hresponses, [], by rw [hsent, List.append_nil], rfl⟩

theorem told_place {c : Console} {s : Main} (hstate : s.state = c.state)
    (hindex : s.matchingIndex = c.matchingIndex) : Told (s.place c) [] s :=
  told_start ⟨rfl, hstate, rfl, hindex⟩ rfl rfl

section handlers

variable (f : RxFrame) (arrivals : List Packet) {c : Console} {s : Main}
  (hstate : s.state = c.state) (hindex : s.matchingIndex = c.matchingIndex)

include hstate hindex

/-- A match command to a robot that is there. -/
theorem told_matchCommand (hi : c.matchingIndex.toNat < s.spheros.length) :
    Ends (matchCommand f.rx arrivals c.matchingIndex.toNat f.command) s fun _ =>
      Told (s.place (c.matchCommand f).1) (c.matchCommand f).2 := by
  have hsame := told_place hstate hindex
  unfold matchCommand Console.matchCommand
  by_cases h1 : f.command = 0x01
  · simp only [if_pos h1, Ends.bind_iff, Ends.modify_iff]
    -- the index moves on before the robot is called
    have hnext : Told (s.place { c with matchingIndex := c.matchingIndex + 1 }) []
        { s with matchingIndex := s.matchingIndex + 1 } :=
      told_start ⟨rfl, hstate, rfl, congrArg (· + 1) hindex⟩ rfl rfl
    exact told_call hnext hi (read_blue 0 0)
  simp only [if_neg h1]
  by_cases h2 : f.command = 0x02
  · simp only [if_pos h2, Ends.bind_iff]
    refine (told_call hsame hi (read_one read_resetAim)).mono fun _ t ht => ?_
    exact told_call ht hi (read_frontBlue 255)
  simp only [if_neg h2]
  by_cases h3 : f.command = 0x03
  · simp only [if_pos h3]
    exact told_call hsame hi (read_blue 0 255)
  simp only [if_neg h3]
  by_cases h4 : f.command = 0x04
  · simp only [if_pos h4, Ends.bind_iff, byte_iff (show 2 < recieveBuffSize by decide),
      byte_iff (show 3 < recieveBuffSize by decide), at_eq (show 2 < recieveBuffSize by decide),
      at_eq (show 3 < recieveBuffSize by decide)]
    refine (told_call (told_read hsame _) hi (read_turn _ arrivals)).mono fun _ t ht => ?_
    exact told_call ht hi (read_one read_resetAim)
  · simp only [if_neg h4, Ends.pure_iff]
    exact hsame

/-- In the idle state; the robots go white if the frame starts the swarm. -/
theorem told_idle (hc : c.state = .IDLE) :
    ∃ r, c.dispatch s.spheros.length f = some r ∧
      Ends (dispatch f.rx arrivals) s fun _ => Told (s.place r.1) r.2 := by
  have hidle : s.state = .IDLE := hstate.trans hc
  have hrefused : s.state ≠ .SET_COLORS := by
    rw [hidle]
    decide
  have hsame := told_place hstate hindex
  unfold dispatch Console.dispatch
  simp only [hc, hidle, Ends.bind_iff, Ends.get_iff]
  by_cases hset : f.rx.len = 4 ∧ f.command = 0x01
  · have hbyte : f.rx.data[1] = 0x01 := hset.2
    refine ⟨_, if_pos hset, ?_⟩
    unfold handleIdleState
    simp only [hset.1, ne_eq, not_true, if_false, Ends.bind_iff, Ends.modify_iff, hbyte,
      byte_iff (show 1 < recieveBuffSize by decide), byte_iff (show 2 < recieveBuffSize by decide),
      at_eq (show 2 < recieveBuffSize by decide)]
    have hnext : Told (s.place { c with state := uint8ToState f.rx.data[2] }) []
        { s with state := uint8ToState f.rx.data[2], reads := s.reads ++ [1] ++ [2] } :=
      told_start ⟨rfl, rfl, rfl, hindex⟩ rfl rfl
    -- the main loop looks at the state again after the handler
    by_cases hcolors : uint8ToState f.rx.data[2] = .SET_COLORS
    · simp only [if_pos hcolors]
      exact told_loop (fun i hi t orders ht =>
        told_call ht hi (read_one (read_setMatrixColor ⟨255, 255, 255⟩))) hnext
    · simp only [if_neg hcolors, Ends.pure_iff]
      exact hnext
  · -- the frame is refused, and the state is idle still
    refine ⟨(c, []), if_neg hset, ?_⟩
    unfold handleIdleState
    by_cases hlen : f.rx.len = 4
    · have hbyte : ¬ f.rx.data[1] = 0x01 := fun hcommand => hset ⟨hlen, hcommand⟩
      rw [if_neg (not_not.mpr hlen), Ends.bind_iff, byte_iff (by decide), if_pos hbyte,
        Ends.pure_iff, if_neg hrefused, Ends.pure_iff]
      exact told_read hsame _
    · rw [if_pos hlen, Ends.pure_iff, if_neg hrefused, Ends.pure_iff]
      exact hsame

/-- In the match state, where the guard compares with 0. -/
theorem told_match (hc : c.state = .MATCH) (hguard : s.matching = 0) :
    match c.dispatch s.spheros.length f with
    | some r => Ends (dispatch f.rx arrivals) s fun _ => Told (s.place r.1) r.2
    | none => ¬ Ends (dispatch f.rx arrivals) s fun _ _ => True := by
  have hsame := told_place hstate hindex
  have hdispatch : ∀ {Q : Unit → Main → Prop},
      Ends (dispatch f.rx arrivals) s Q ↔ Ends (handleMatchState f.rx arrivals) s Q :=
    dispatch_match (hstate.trans hc)
  unfold Console.dispatch
  simp only [hc, hdispatch]
  by_cases hshort : s.spheros.length = 0 ∨ f.rx.len < 3
  · rw [if_pos hshort]
    have hnone : s.spheros.length ≤ s.matching.toNat ∨ f.rx.len < 3 :=
      hshort.imp_left fun hzero => Nat.le_trans (Nat.le_of_eq hzero) (Nat.zero_le _)
    exact (handleMatchState_short hnone).mpr hsame
  -- `matching` is 0, so the guard passes as soon as there is a robot
  obtain ⟨hsome, hlen⟩ := not_or.mp hshort
  have hpass : ¬ s.spheros.length ≤ s.matching.toNat := by
    rw [hguard]
    exact Nat.not_le.mpr (Nat.pos_of_ne_zero hsome)
  rw [if_neg hshort]
  by_cases hi : c.matchingIndex.toNat < s.spheros.length
  · rw [if_pos hi]
    show Ends (handleMatchState f.rx arrivals) s _
    rw [handleMatchState_iff hpass hlen, hindex, sphero_iff hi]
    exact (told_matchCommand f arrivals (s := { s with reads := s.reads ++ [1] }) hstate hindex
      hi).mono fun _ t ht => told_base ht
  · rw [if_neg hi]
    show ¬ Ends (handleMatchState f.rx arrivals) s _
    rw [handleMatchState_iff hpass hlen, hindex]
    exact sphero_out (Nat.not_lt.mp hi)

/-- In the state `SET_COLORS`. -/
theorem told_colors (hc : c.state = .SET_COLORS) :
    ∃ r, c.dispatch s.spheros.length f = some r ∧
      Ends (dispatch f.rx arrivals) s fun _ => Told (s.place r.1) r.2 := by
  have hsame := told_place hstate hindex
  have hdispatch : ∀ {Q : Unit → Main → Prop},
      Ends (dispatch f.rx arrivals) s Q ↔ Ends (handleColorState f.rx) s Q :=
    dispatch_colors (hstate.trans hc)
  unfold Console.dispatch
  simp only [hc, hdispatch]
  by_cases hswarm : f.rx.len.toNat = 3 + 6 * s.spheros.length ∧ f.command = 0x01
  · refine ⟨_, if_pos hswarm, ?_⟩
    have hbyte : f.rx.data[1] = 0x01 := hswarm.2
    have hlen := hswarm.1
    have hle : f.rx.len.toNat ≤ 93 := f.le
    unfold handleColorState
    simp only [Ends.bind_iff, Ends.get_iff, if_neg (not_not.mpr hlen),
      byte_iff (show 1 < recieveBuffSize by decide), if_neg (not_not.mpr hbyte)]
    -- two loops over the robots: the colours, then the velocities
    refine (told_loop (g := fun i => [Console.colorAt f i]) (fun i hi t orders ht => ?_)
      (told_read hsame _)).mono fun _ t ht =>
        told_loop (g := fun i => [Console.velocityAt f s.spheros.length i])
          (fun i hi t orders ht => ?_) ht
    · have h0 : i * 3 + 2 < recieveBuffSize := by show _ < 93; omega
      have h1 : i * 3 + 1 + 2 < recieveBuffSize := by show _ < 93; omega
      have h2 : i * 3 + 2 + 2 < recieveBuffSize := by show _ < 93; omega
      simp only [Ends.bind_iff, byte_iff h0, byte_iff h1, byte_iff h2, Console.colorAt, at_eq h0,
        at_eq h1, at_eq h2]
      exact told_call (told_read (told_read (told_read ht _) _) _) hi
        (read_one (read_setMatrixColor _))
    · have h0 : 2 + 3 * s.spheros.length + i * 3 < recieveBuffSize := by show _ < 93; omega
      have h1 : 2 + 3 * s.spheros.length + i * 3 + 1 < recieveBuffSize := by show _ < 93; omega
      have h2 : 2 + 3 * s.spheros.length + i * 3 + 2 < recieveBuffSize := by show _ < 93; omega
      simp only [Ends.bind_iff, byte_iff h0, byte_iff h1, byte_iff h2, Console.velocityAt, at_eq h0,
        at_eq h1, at_eq h2]
      exact told_call (told_read (told_read (told_read ht _) _) _) hi (read_one (read_drive _ _))
  · refine ⟨(c, []), if_neg hswarm, ?_⟩
    refine (handleColorState_rejects (not_and_or.mp hswarm)).mono fun _ t ht => ?_
    obtain ⟨reads, rfl⟩ := ht
    exact told_read hsame _

/-- A frame that is no reset, in any state. -/
theorem told_dispatch (hguard : s.matching = 0) :
    match c.dispatch s.spheros.length f with
    | some r => Ends (dispatch f.rx arrivals) s fun _ => Told (s.place r.1) r.2
    | none => ¬ Ends (dispatch f.rx arrivals) s fun _ _ => True := by
  cases hc : c.state with
  | IDLE =>
    obtain ⟨r, hr, hends⟩ := told_idle f arrivals hstate hindex hc
    rw [hr]
    exact hends
  | MATCH => exact told_match f arrivals hstate hindex hc hguard
  | SET_COLORS =>
    obtain ⟨r, hr, hends⟩ := told_colors f arrivals hstate hindex hc
    rw [hr]
    exact hends

/-- A valid frame. -/
theorem told_react (hguard : s.matching = 0) :
    match c.react s.spheros.length f with
    | some r => Ends (if f.command = 0x00 then reset else dispatch f.rx arrivals) s fun _ =>
        Told (s.place r.1) r.2
    | none =>
      ¬ Ends (if f.command = 0x00 then reset else dispatch f.rx arrivals) s fun _ _ => True := by
  unfold Console.react
  by_cases hcommand : f.command = 0x00
  · simp only [if_pos hcommand]
    exact told_reset s
  · simp only [if_neg hcommand]
    exact told_dispatch f arrivals hstate hindex hguard

end handlers

/-! ## The main loop refines the console -/

/-- One turn of the main loop; `none` is an access out of bounds. -/
def next (s : Main) (e : Input) : Option Main :=
  match handleFrame e.frame.rx e.arrivals s with
  | .ok (_, t) => some t
  | .error _ => none

theorem next_of_ends {s : Main} {e : Input} {Q : Unit → Main → Prop}
    (h : Ends (handleFrame e.frame.rx e.arrivals) s Q) : ∃ t, next s e = some t ∧ Q () t := by
  obtain ⟨_, t, hrun, hq⟩ := h
  exact ⟨t, by unfold next; rw [hrun], hq⟩

theorem next_eq_none {s : Main} {e : Input}
    (h : ¬ Ends (handleFrame e.frame.rx e.arrivals) s fun _ _ => True) : next s e = none := by
  unfold next
  cases hrun : handleFrame e.frame.rx e.arrivals s with
  | ok r => exact absurd ⟨r.1, r.2, hrun, trivial⟩ h
  | error _ => rfl

/-- What the packets sent so far say, and to whom. -/
def told (s : Main) : List (Nat × Option Order) := s.sent.map fun p => (p.1, Order.read p.2)

/-- The main loop with `n` Spheros is where the console is, and has given its orders and answers. -/
structure Shows (n : Nat) (s : Main) (l : Console.Log) : Prop where
  length : s.spheros.length = n
  guard : s.matching = 0
  state : s.state = l.console.state
  matchingIndex : s.matchingIndex = l.console.matchingIndex
  orders : s.told = l.orders.map fun p => (p.1, some p.2)
  answers : s.responses = List.replicate l.answers [0xFF]

theorem shows_start (spheros : List Sphero) :
    Shows spheros.length (start spheros) Console.Log.start :=
  ⟨rfl, rfl, rfl, rfl, rfl, rfl⟩

/-- What a frame has led to, with its answer. -/
theorem shows_of_told {n : Nat} {s t : Main} {l : Console.Log} (h : Shows n s l) {c : Console}
    {orders : List (Nat × Order)} (ht : Told (s.commandRead.place c) orders t) :
    Shows n t.answered ⟨c, l.orders ++ orders, l.answers + 1⟩ := by
  obtain ⟨sent, hsent, horders⟩ := ht.sent
  refine ⟨ht.steady.length.trans h.length, ht.steady.matching.trans h.guard, ht.steady.state,
    ht.steady.matchingIndex, ?_, ?_⟩
  · have htold : t.answered.told = s.told ++ sent.map fun p => (p.1, Order.read p.2) := by
      show t.sent.map _ = _
      rw [hsent, List.map_append]
      rfl
    rw [htold, h.orders, horders, List.map_append]
  · have hresponses : t.answered.responses = s.responses ++ [[0xFF]] :=
      congrArg (· ++ [[0xFF]]) ht.responses
    rw [hresponses, h.answers, ← List.replicate_succ']

/-- **One frame.**  Both handle it and stay together, or both fault. -/
theorem next_shows {n : Nat} {s : Main} {l : Console.Log} {e : Input} (h : Shows n s l) :
    Option.Rel (Shows n) (next s e) (l.step n e.frame) := by
  unfold Console.Log.step
  cases hvalid : e.frame.valid with
  | false =>
    have hends : Ends (handleFrame e.frame.rx e.arrivals) s fun _ t => t = { s with reads := [] } :=
      (handleFrame_invalid hvalid).mpr rfl
    obtain ⟨t, ht, heq⟩ := next_of_ends hends
    rw [ht, heq]
    exact Option.Rel.some ⟨h.length, h.guard, h.state, h.matchingIndex, h.orders, h.answers⟩
  | true =>
    rw [if_pos rfl]
    have hreact := told_react e.frame e.arrivals (s := s.commandRead) h.state h.matchingIndex h.guard
    rw [show s.commandRead.spheros.length = n from h.length] at hreact
    cases hr : l.console.react n e.frame with
    | none =>
      rw [hr] at hreact
      rw [next_eq_none fun hends => hreact ((handleFrame_iff hvalid).mp hends)]
      exact Option.Rel.none
    | some r =>
      rw [hr] at hreact
      have hends : Ends (handleFrame e.frame.rx e.arrivals) s fun _ t =>
          Shows n t ⟨r.1, l.orders ++ r.2, l.answers + 1⟩ :=
        (handleFrame_iff hvalid).mpr (hreact.mono fun _ t ht => shows_of_told h ht)
      obtain ⟨t, ht, hshows⟩ := next_of_ends hends
      rw [ht]
      exact Option.Rel.some hshows

/-- A frame with whatever arrives meanwhile is to the console just the frame. -/
def consoleStep (n : Nat) (l : Console.Log) (e : Input) : Option Console.Log := l.step n e.frame

theorem run_shows {n : Nat} {s : Main} {l : Console.Log} (h : Shows n s l) (es : List Input) :
    Option.Rel (Shows n) (Transition.run next s es) (Transition.run (consoleStep n) l es) := by
  refine Transition.run_rel (R := Shows n) ?_ h
  intro s l e hs
  exact next_shows hs

/-- **The main loop is the console.**  Over every sequence of frames, whatever packets arrive while
    they are handled, the main loop ends where the console does, with its orders to the robots and one
    answer for each valid frame; and it accesses a Sphero out of bounds exactly when the console
    does. -/
theorem main_refines_console (spheros : List Sphero) (es : List Input) :
    Option.Rel (Shows spheros.length) (Transition.run next (start spheros) es)
      (Transition.run (consoleStep spheros.length) Console.Log.start es) :=
  run_shows (shows_start spheros) es

/-! ## A reset erases the past -/

end Main

namespace Console

/-- A console that has given no orders yet goes the same way as one that has. -/
theorem run_log {n : Nat} (orders : List (Nat × Order)) (answers : Nat) (l : Log)
    (es : List Input) :
    Transition.run (Main.consoleStep n) ⟨l.console, orders ++ l.orders, answers + l.answers⟩ es =
      (Transition.run (Main.consoleStep n) l es).map fun l =>
        ⟨l.console, orders ++ l.orders, answers + l.answers⟩ := by
  induction es generalizing l with
  | nil => rfl
  | cons e es ih =>
    rw [Transition.run_cons, Transition.run_cons]
    unfold Main.consoleStep Log.step
    by_cases hvalid : e.frame.valid
    · rw [if_pos hvalid, if_pos hvalid]
      cases l.console.react n e.frame with
      | none => rfl
      | some r =>
        simp only [Option.map_some, Option.bind_some, List.append_assoc, Nat.add_assoc]
        exact ih ⟨r.1, l.orders ++ r.2, l.answers + 1⟩
    · rw [if_neg hvalid, if_neg hvalid]
      exact ih l

end Console

namespace Main

/-- What came of the frames after `s`: the orders and the answers since. -/
def since (s t : Main) : List (Nat × Option Order) × List (List UInt8) :=
  (t.told.drop s.told.length, t.responses.drop s.responses.length)

/-- The console after a reset frame. -/
theorem run_reset {n : Nat} {f : RxFrame} {l : Console.Log} (hvalid : f.valid = true)
    (hreset : f.command = 0x00) (arrivals : List Packet) (es : List Input) :
    Transition.run (consoleStep n) l (⟨f, arrivals⟩ :: es) =
      (Transition.run (consoleStep n) Console.Log.start (⟨f, []⟩ :: es)).map fun m =>
        ⟨m.console, l.orders ++ m.orders, l.answers + m.answers⟩ := by
  have hreact : ∀ c : Console, c.react n f = some (Console.start,
      Console.toAll n fun _ => [.clearMatrix, .matrixColor ⟨0, 0, 0⟩, Console.blue 0 0]) :=
    fun c => if_pos hreset
  have hstep : ∀ (l : Console.Log) (arrivals : List Packet),
      consoleStep n l ⟨f, arrivals⟩ = some ⟨Console.start, l.orders ++ Console.toAll n fun _ =>
        [.clearMatrix, .matrixColor ⟨0, 0, 0⟩, Console.blue 0 0], l.answers + 1⟩ := by
    intro l arrivals
    unfold consoleStep Console.Log.step
    rw [if_pos hvalid, hreact]
    rfl
  rw [Transition.run_cons, Transition.run_cons, hstep, hstep]
  exact Console.run_log l.orders l.answers ⟨Console.start, _, 1⟩ es

/-- After a reset what comes of the frames is what comes of them at the start. -/
theorem since_reset {n : Nat} {s : Main} {l : Console.Log} (h : Shows n s l) {f : RxFrame}
    (hvalid : f.valid = true) (hreset : f.command = 0x00) (arrivals : List Packet)
    (es : List Input) :
    (Transition.run next s (⟨f, arrivals⟩ :: es)).map s.since =
      (Transition.run (consoleStep n) Console.Log.start (⟨f, []⟩ :: es)).map fun m =>
        (m.orders.map fun p => (p.1, some p.2), List.replicate m.answers [0xFF]) := by
  have hsince : (Transition.run next s (⟨f, arrivals⟩ :: es)).map s.since =
      (Transition.run (consoleStep n) l (⟨f, arrivals⟩ :: es)).map fun m =>
        ((m.orders.drop l.orders.length).map fun p => (p.1, some p.2),
          (List.replicate m.answers [0xFF]).drop l.answers) := by
    refine Transition.rel_map_eq (run_shows h _) fun t m ht => ?_
    rw [since, ht.orders, ht.answers, h.orders, h.answers, List.length_map, List.map_drop,
      List.length_replicate]
  rw [hsince, run_reset hvalid hreset, Option.map_map]
  refine congrArg (Option.map · _) (funext fun m => ?_)
  rw [Function.comp_apply, List.drop_left' rfl, List.replicate_add,
    List.drop_left' List.length_replicate]

/-- The frames of two runs are the same, whatever arrives while they are handled. -/
theorem run_frames {n : Nat} {l : Console.Log} {es es' : List Input}
    (h : es.map Input.frame = es'.map Input.frame) :
    Transition.run (consoleStep n) l es = Transition.run (consoleStep n) l es' := by
  induction es generalizing es' l with
  | nil =>
    rw [List.map_nil, eq_comm, List.map_eq_nil_iff] at h
    rw [h]
  | cons e es ih =>
    cases es' with
    | nil => cases h
    | cons e' es' =>
      obtain ⟨hframe, hrest⟩ := List.cons.inj h
      have hstep : consoleStep n l e = consoleStep n l e' := congrArg (l.step n) hframe
      rw [Transition.run_cons, Transition.run_cons, hstep]
      exact congrArg (Option.bind _) (funext fun _ => ih hrest)

/-- **A reset erases the past.**  Two main loops with as many Spheros, in whatever states their frames
    have left them, get a reset and then the same frames, while different packets arrive.  From the
    reset on they give the same orders and the same answers, and both access a Sphero out of bounds
    or neither does. -/
theorem reset_erases {spheros spheros' : List Sphero} {es es' fs fs' : List Input} {s s' : Main}
    {f : RxFrame} (hn : spheros.length = spheros'.length)
    (hs : Transition.run next (start spheros) es = some s)
    (hs' : Transition.run next (start spheros') es' = some s') (hvalid : f.valid = true)
    (hreset : f.command = 0x00) (arrivals arrivals' : List Packet)
    (hframes : fs.map Input.frame = fs'.map Input.frame) :
    (Transition.run next s (⟨f, arrivals⟩ :: fs)).map s.since =
      (Transition.run next s' (⟨f, arrivals'⟩ :: fs')).map s'.since := by
  obtain ⟨l, -, hl⟩ := Transition.rel_some (hs ▸ run_shows (shows_start spheros) es)
  obtain ⟨l', -, hl'⟩ := Transition.rel_some (hs' ▸ run_shows (shows_start spheros') es')
  rw [← hn] at hl'
  rw [since_reset hl hvalid hreset, since_reset hl' hvalid hreset]
  have hsame : (⟨f, []⟩ :: fs : List Input).map Input.frame = (⟨f, []⟩ :: fs').map Input.frame := by
    rw [List.map_cons, List.map_cons, hframes]
  rw [run_frames hsame]

/-- The frame that resets. -/
def resetFrame : RxFrame where
  rx := ⟨Vector.ofFn fun i => [0x8d, 0x00, 0x0a].getD i 0, 3⟩
  pos := by decide
  le := by decide

/-- One main loop is matching its robot, the other has seen no frame. -/
theorem reset_erases_matching :
    ∃ s, Transition.run next (start [Sphero.create 0]) [⟨startMatching, []⟩] = some s ∧
      (Transition.run next s [⟨resetFrame, []⟩, ⟨nextRobot, []⟩]).map s.since =
        (Transition.run next (start [Sphero.create 0]) [⟨resetFrame, []⟩, ⟨nextRobot, []⟩]).map
          (start [Sphero.create 0]).since := by
  obtain ⟨s, hs⟩ : ∃ s, Transition.run next (start [Sphero.create 0]) [⟨startMatching, []⟩] = some s :=
    ⟨_, rfl⟩
  have hnone : Transition.run next (start [Sphero.create 0]) [] = some (start [Sphero.create 0]) := rfl
  exact ⟨s, hs, reset_erases rfl hs hnone (by decide) (by decide) [] [] rfl⟩

end Main

end NrfSpheros
