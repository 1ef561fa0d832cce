/-
  The match state of the main loop, over every sequence of frames.

  1. **The pairing session.**  What the frames alone say: whether the robots are being matched, and how
     many have been since the last reset.  The count has no bound; `matching_index` is its remainder
     modulo 256 (`Tracks`).

  2. **Handlers that are in bounds.**  Outside the match state no handler accesses a Sphero that is not
     there.

  3. **The match state** (`matching_safe_iff`).  The guard of `handle_match_state` compares `matching`,
     which is always 0, with the number of Spheros, and the access goes to `matching_index`.  So a
     command that comes after the last robot was matched is not rejected: with fewer than 256 robots
     it reads past the vector, with more the index has wrapped and it goes to a robot matched before.
-/
import NrfSpheros.Main.Loop
import NrfSpheros.Theory.Run
import Mathlib.Tactic.Tauto
import Mathlib.Tactic.Push

namespace NrfSpheros

namespace RxFrame

/-- The start and end bytes are right. -/
def valid (f : RxFrame) : Bool :=
  have : f.rx.len.toNat - 1 < recieveBuffSize := by
    have := f.pos
    have := f.le
    omega
  f.rx.data[0] = 0x8d && f.rx.data[f.rx.len.toNat - 1] = 0x0a

/-- The command byte. -/
def command (f : RxFrame) : UInt8 := f.rx.data[1]

end RxFrame

/-! ## The pairing session -/

/-- What the frames have led to since the last reset. -/
inductive Pairing
  | idle
  /-- The robots are being matched, and `matched` were. -/
  | matching (matched : Nat)
  | colors
deriving DecidableEq, Repr

/-- A frame, and the packets that come while it is handled. -/
structure Input where
  frame : RxFrame
  arrivals : List Packet

namespace Pairing

/-- The state of the main loop. -/
def state : Pairing → States
  | .idle => .IDLE
  | .matching _ => .MATCH
  | .colors => .SET_COLORS

/-- The robots matched since the last reset. -/
def matched : Pairing → Nat
  | .matching matched => matched
  | _ => 0

/-- A match command long enough to be looked at. -/
def isMatchCommand (f : RxFrame) : Bool := f.valid && f.command ≠ 0x00 && ¬ f.rx.len < 3

/-- The effect of a frame that is valid and no reset. -/
def dispatch (p : Pairing) (f : RxFrame) : Pairing :=
  match p with
  | .idle =>
    if f.rx.len = 4 ∧ f.command = 0x01 then
      match Main.uint8ToState f.rx.data[2] with
      | .IDLE => .idle
      | .MATCH => .matching 0
      | .SET_COLORS => .colors
    else .idle
  | .matching matched =>
    if ¬ f.rx.len < 3 ∧ f.command = 0x01 then .matching (matched + 1) else .matching matched
  | .colors => .colors

/-- Where a frame leads. -/
def next (p : Pairing) (f : RxFrame) : Pairing :=
  if f.valid = false then p else if f.command = 0x00 then .idle else p.dispatch f

/-- The commands that the match state knows. -/
def known (command : UInt8) : Bool := command ∈ [0x01, 0x02, 0x03, 0x04]

/-- The frame is no match command, or there are no robots at all, or one is left to match; or the
    robots are so many that the index has wrapped, and the command is none the match state knows. -/
def InBounds (n : Nat) (p : Pairing) (e : Input) : Prop :=
  ∀ matched, p = .matching matched → isMatchCommand e.frame = true →
    n = 0 ∨ matched < n ∨ (256 ≤ n ∧ known e.frame.command = false)

end Pairing

namespace Main

/-! ## Handlers that are in bounds -/

/-- The handlers have only commanded Spheros. -/
structure Steady (s₀ s : Main) : Prop where
  length : s.spheros.length = s₀.spheros.length
  state : s.state = s₀.state
  matching : s.matching = s₀.matching
  matchingIndex : s.matchingIndex = s₀.matchingIndex

theorem steady_refl (s : Main) : Steady s s := ⟨rfl, rfl, rfl, rfl⟩

theorem byte_iff {rx : UartData} {i : Nat} (hi : i < recieveBuffSize) {s : Main}
    {Q : UInt8 → Main → Prop} :
    Ends (byte rx i) s Q ↔ Q rx.data[i] { s with reads := s.reads ++ [i] } := by
  unfold byte
  simp only [Ends.bind_iff, Ends.modify_iff, hi, dif_pos, Ends.pure_iff]

/-- A Sphero that is there. -/
theorem sphero_iff {i : Nat} {s : Main} (hi : i < s.spheros.length) {Q : Sphero → Main → Prop} :
    Ends (sphero i) s Q ↔ Q s.spheros[i] s := by
  unfold sphero
  simp only [Ends.bind_iff, Ends.get_iff, List.getElem?_eq_getElem hi, Ends.pure_iff]

/-- One that is not. -/
theorem sphero_out {i : Nat} {s : Main} (hi : s.spheros.length ≤ i) {Q : Sphero → Main → Prop} :
    ¬ Ends (sphero i) s Q := by
  unfold sphero
  simp only [Ends.bind_iff, Ends.get_iff, List.getElem?_eq_none hi]
  exact Ends.throw_iff _

/-- A method of one that is there. -/
theorem call_iff {i : Nat} {s : Main} (hi : i < s.spheros.length)
    (method : Sphero → Sphero × List Packet) {Q : Unit → Main → Prop} :
    Ends (call i method) s Q ↔
      Q () { s with
        spheros := s.spheros.set i (method s.spheros[i]).1
        sent := s.sent ++ (method s.spheros[i]).2.map fun packet => (i, packet) } := by
  unfold call
  simp only [Ends.bind_iff, sphero_iff hi, Ends.modify_iff]

theorem byte_steady {rx : UartData} {i : Nat} (hi : i < recieveBuffSize) {s₀ s : Main}
    (h : Steady s₀ s) : Ends (byte rx i) s fun _ => Steady s₀ :=
  (byte_iff hi).mpr ⟨h.length, h.state, h.matching, h.matchingIndex⟩

theorem call_steady {i : Nat} {s₀ s : Main} (hi : i < s₀.spheros.length) (h : Steady s₀ s)
    (method : Sphero → Sphero × List Packet) : Ends (call i method) s fun _ => Steady s₀ := by
  rw [call_iff (h.length ▸ hi)]
  exact ⟨(List.length_set ..).trans h.length, h.state, h.matching, h.matchingIndex⟩

/-- What commanding a Sphero keeps, `reset` keeps up to its own two assignments. -/
theorem reset_keeps {I : Main → Prop} {s : Main}
    (hcall : ∀ i, i < s.spheros.length → ∀ t, I t → ∀ method, Ends (call i method) t fun _ => I)
    (hs : I s) :
    Ends reset s fun _ t => ∃ u, I u ∧ t = { u with matchingIndex := 0, state := .IDLE } := by
  unfold reset
  simp only [Ends.bind_iff, Ends.get_iff]
  refine (Ends.forM (I := I) (fun i hi t ht => ?_) hs).mono fun _ t ht => ?_
  · have hi := List.mem_range.mp hi
    rw [Ends.bind_iff]
    refine (hcall i hi t ht _).mono fun _ t ht => ?_
    rw [Ends.bind_iff]
    exact (hcall i hi t ht _).mono fun _ t ht => hcall i hi t ht _
  · rw [Ends.modify_iff]
    exact ⟨t, ht, rfl⟩

/-- The state after a reset. -/
theorem reset_ends (s : Main) :
    Ends reset s fun _ => Steady { s with state := .IDLE, matchingIndex := 0 } := by
  refine (reset_keeps (fun i hi t ht method => call_steady hi ht method) (steady_refl s)).mono ?_
  rintro _ t ⟨u, hu, rfl⟩
  exact ⟨hu.length, rfl, hu.matching, rfl⟩

/-- What commanding a Sphero keeps, and reading a byte between the first and the last, the handler
    keeps. -/
theorem handleColorState_keeps {I : Main → Prop} {rx : UartData} {s : Main}
    (hbyte : ∀ i, 1 ≤ i → i + 2 ≤ rx.len.toNat → ∀ t, I t → Ends (byte rx i) t fun _ => I)
    (hcall : ∀ i, i < s.spheros.length → ∀ t, I t → ∀ method, Ends (call i method) t fun _ => I)
    (hs : I s) : Ends (handleColorState rx) s fun _ => I := by
  unfold handleColorState
  simp only [Ends.bind_iff, Ends.get_iff]
  by_cases hlen : rx.len.toNat ≠ 3 + 6 * s.spheros.length
  · rw [if_pos hlen, Ends.pure_iff]
    exact hs
  rw [if_neg hlen, Ends.bind_iff]
  have hlen : rx.len.toNat = 3 + 6 * s.spheros.length := Decidable.not_not.mp hlen
  refine (hbyte 1 (by omega) (by omega) s hs).mono fun command t ht => ?_
  by_cases hcommand : command ≠ 0x01
  · rw [if_pos hcommand, Ends.pure_iff]
    exact ht
  rw [if_neg hcommand, Ends.bind_iff]
  -- the first loop reads three bytes a robot from 2 on, the second from the offset on
  refine (Ends.forM (I := I) (fun i hi t ht => ?_) ht).mono fun _ t ht =>
    Ends.forM (I := I) (fun i hi t ht => ?_) ht
  · have hi := List.mem_range.mp hi
    simp only [Ends.bind_iff]
    refine (hbyte _ (by omega) (by omega) t ht).mono fun _ t ht => ?_
    refine (hbyte _ (by omega) (by omega) t ht).mono fun _ t ht => ?_
    exact (hbyte _ (by omega) (by omega) t ht).mono fun _ t ht => hcall i hi t ht _
  · have hi := List.mem_range.mp hi
    simp only [Ends.bind_iff]
    refine (hbyte _ (by omega) (by omega) t ht).mono fun _ t ht => ?_
    refine (hbyte _ (by omega) (by omega) t ht).mono fun _ t ht => ?_
    exact (hbyte _ (by omega) (by omega) t ht).mono fun _ t ht => hcall i hi t ht _

/-- The colours leave the state as it is. -/
theorem handleColorState_ends {rx : UartData} (hrx : rx.len.toNat ≤ recieveBuffSize) (s : Main) :
    Ends (handleColorState rx) s fun _ => Steady s := by
  refine handleColorState_keeps (fun i _ hi t ht => byte_steady ?_ ht)
    (fun i hi t ht method => call_steady hi ht method) (steady_refl s)
  show i < 93
  have hle : rx.len.toNat ≤ 93 := hrx
  omega

/-- A frame in the idle state may set the state. -/
theorem handleIdleState_ends (rx : UartData) (s : Main) :
    Ends (handleIdleState rx) s fun _ => Steady { s with
      state := if rx.len = 4 ∧ rx.data[1] = 0x01 then uint8ToState rx.data[2] else s.state } := by
  unfold handleIdleState
  by_cases hlen : rx.len = 4
  · rw [if_neg (not_not.mpr hlen), Ends.bind_iff, byte_iff (by decide)]
    by_cases hcommand : rx.data[1] = 0x01
    · rw [if_neg (not_not.mpr hcommand), Ends.bind_iff, byte_iff (by decide), Ends.modify_iff,
        if_pos ⟨hlen, hcommand⟩]
      exact ⟨rfl, rfl, rfl, rfl⟩
    · rw [if_pos hcommand, Ends.pure_iff, if_neg fun h => hcommand h.2]
      exact ⟨rfl, rfl, rfl, rfl⟩
  · rw [if_pos hlen, Ends.pure_iff, if_neg fun h => hlen h.1]
    exact steady_refl s

/-! ## The match state -/

/-- A method that sends something adds to what was sent. -/
theorem call_sends {i : Nat} {s₀ s : Main} (hi : i < s₀.spheros.length) (h : Steady s₀ s)
    {method : Sphero → Sphero × List Packet} (hmethod : ∀ sphero, (method sphero).2 ≠ []) :
    Ends (call i method) s fun _ t => Steady s₀ t ∧ s.sent.length < t.sent.length := by
  have hi' : i < s.spheros.length := h.length ▸ hi
  rw [call_iff hi']
  refine ⟨⟨(List.length_set ..).trans h.length, h.state, h.matching, h.matchingIndex⟩, ?_⟩
  have hpos := List.length_pos_iff.mpr (hmethod s.spheros[i])
  show s.sent.length < (s.sent ++ (method s.spheros[i]).2.map fun packet => (i, packet)).length
  rw [List.length_append, List.length_map]
  omega

/-- Two methods in a row. -/
theorem call_call_sends {i : Nat} {s₀ s : Main} (hi : i < s₀.spheros.length) (h : Steady s₀ s)
    {method method' : Sphero → Sphero × List Packet} (hmethod : ∀ sphero, (method sphero).2 ≠ [])
    (hmethod' : ∀ sphero, (method' sphero).2 ≠ []) :
    Ends (do call i method; call i method') s fun _ t =>
      Steady s₀ t ∧ s.sent.length < t.sent.length := by
  rw [Ends.bind_iff]
  refine (call_sends hi h hmethod).mono fun _ t ht => ?_
  exact (call_sends hi ht.1 hmethod').mono fun _ u hu => ⟨hu.1, Nat.lt_trans ht.2 hu.2⟩

theorem one_ne_nil (r : Sphero × Packet) : (one r).2 ≠ [] := List.cons_ne_nil _ _

theorem turn_ne_nil (heading : UInt16) (arrivals : List Packet) (sphero : Sphero) :
    (turn heading arrivals sphero).2 ≠ [] := List.cons_ne_nil _ _

/-- A match command to a robot that is there: a known one sends something, another does nothing. -/
theorem matchCommand_ends {rx : UartData} {arrivals : List Packet} {i : Nat} {command : UInt8}
    {s : Main} (hi : i < s.spheros.length) :
    Ends (matchCommand rx arrivals i command) s fun _ t =>
      Steady { s with
        matchingIndex := if command = 0x01 then s.matchingIndex + 1 else s.matchingIndex } t ∧
      (Pairing.known command = true → s.sent.length < t.sent.length) ∧
      (Pairing.known command = false → t = s) := by
  have hmap : ∀ entries : List (LEDs × UInt8),
      (LEDs.all.foldl (Sphero.mapLed (ledMap entries)) (0, [])).1 ≠ 0 → ∀ sphero : Sphero,
        (sphero.setAllLedsWithMap (ledMap entries)).2 ≠ [] :=
    fun _ h sphero => Sphero.setAllLedsWithMap_ne_nil h sphero
  unfold matchCommand
  by_cases h1 : command = 0x01
  · subst h1
    rw [if_pos rfl, if_pos rfl, Ends.bind_iff, Ends.modify_iff]
    -- the index is incremented before the command goes out
    have hnext : Steady { s with matchingIndex := s.matchingIndex + 1 }
        { s with matchingIndex := s.matchingIndex + 1 } := steady_refl _
    refine (call_sends ?_ hnext
      (hmap [(.frontBlue, 0), (.backBlue, 0)] (by decide))).mono fun _ t ht => ?_
    · exact hi
    · exact ⟨ht.1, fun _ => ht.2, fun h => absurd h (by decide)⟩
  rw [if_neg h1, if_neg h1]
  by_cases h2 : command = 0x02
  · subst h2
    rw [if_pos rfl]
    refine (call_call_sends hi (steady_refl s) (fun sphero => one_ne_nil _)
      (hmap [(.frontBlue, 255)] (by decide))).mono fun _ t ht => ?_
    exact ⟨ht.1, fun _ => ht.2, fun h => absurd h (by decide)⟩
  rw [if_neg h2]
  by_cases h3 : command = 0x03
  · subst h3
    rw [if_pos rfl]
    refine (call_sends hi (steady_refl s)
      (hmap [(.frontBlue, 0), (.backBlue, 255)] (by decide))).mono fun _ t ht => ?_
    exact ⟨ht.1, fun _ => ht.2, fun h => absurd h (by decide)⟩
  rw [if_neg h3]
  by_cases h4 : command = 0x04
  · subst h4
    rw [if_pos rfl, Ends.bind_iff, byte_iff (by decide), Ends.bind_iff, byte_iff (by decide)]
    -- the two heading bytes are read first
    have hread : Steady s { s with reads := s.reads ++ [2] ++ [3] } := ⟨rfl, rfl, rfl, rfl⟩
    refine (call_call_sends hi hread (turn_ne_nil (heading rx.data[2] rx.data[3]) arrivals)
      fun sphero => one_ne_nil sphero.resetAim).mono fun _ t ht => ?_
    exact ⟨ht.1, fun _ => ht.2, fun h => absurd h (by decide)⟩
  · have hunknown : Pairing.known command = false := by
      simp only [Pairing.known, List.mem_cons, List.not_mem_nil, or_false, decide_eq_false_iff_not]
      tauto
    rw [if_neg h4, Ends.pure_iff]
    exact ⟨steady_refl s, fun h => absurd h (by rw [hunknown]; decide), fun _ => rfl⟩

/-- A frame that is turned away. -/
theorem handleMatchState_short {rx : UartData} {arrivals : List Packet} {s : Main}
    (h : s.spheros.length ≤ s.matching.toNat ∨ rx.len < 3) {Q : Unit → Main → Prop} :
    Ends (handleMatchState rx arrivals) s Q ↔ Q () s := by
  unfold handleMatchState
  rw [Ends.bind_iff, Ends.get_iff]
  by_cases hguard : s.spheros.length ≤ s.matching.toNat
  · rw [if_pos hguard, Ends.pure_iff]
  · rw [if_neg hguard, if_pos (h.resolve_left hguard), Ends.pure_iff]

/-- Past the guard the Sphero is fetched with `matching_index`, whatever it is. -/
theorem handleMatchState_iff {rx : UartData} {arrivals : List Packet} {s : Main}
    (hguard : ¬ s.spheros.length ≤ s.matching.toNat) (hlen : ¬ rx.len < 3)
    {Q : Unit → Main → Prop} :
    Ends (handleMatchState rx arrivals) s Q ↔
      Ends (sphero s.matchingIndex.toNat) s fun _ t =>
        Ends (matchCommand rx arrivals s.matchingIndex.toNat rx.data[1])
          { t with reads := t.reads ++ [1] } Q := by
  unfold handleMatchState
  rw [Ends.bind_iff, Ends.get_iff, if_neg hguard, if_neg hlen, Ends.bind_iff]
  constructor
  · exact fun h => h.mono fun _ t ht => (byte_iff (by decide)).mp (Ends.bind_iff .. |>.mp ht)
  · exact fun h => h.mono fun _ t ht => Ends.bind_iff .. |>.mpr ((byte_iff (by decide)).mpr ht)

/-! ## One turn of the main loop -/

/-- Whether a frame is accepted. -/
theorem validateUartPacket_eq (f : RxFrame) : validateUartPacket f.rx = .ok f.valid := by
  have hlast : f.rx.len.toNat - 1 < recieveBuffSize := by
    have := f.pos
    have := f.le
    omega
  obtain ⟨last, hlen⟩ : ∃ last, f.rx.len.toNat = last + 1 := ⟨_, (Nat.sub_add_cancel f.pos).symm⟩
  have hbound : last < recieveBuffSize := by omega
  unfold validateUartPacket RxFrame.valid
  by_cases hstart : f.rx.data[0] = 0x8d
  · rw [if_neg (not_not.mpr hstart)]
    simp only [hlen, hbound, dif_pos, hstart, decide_true, Bool.true_and, Nat.add_sub_cancel]
  · rw [if_pos hstart]
    simp only [hstart, decide_false, Bool.false_and]

/-- A frame that is not accepted is dropped. -/
theorem handleFrame_invalid {f : RxFrame} (hvalid : f.valid = false) {arrivals : List Packet}
    {s : Main} {Q : Unit → Main → Prop} :
    Ends (handleFrame f.rx arrivals) s Q ↔ Q () { s with reads := [] } := by
  unfold handleFrame
  simp only [Ends.bind_iff, Ends.modify_iff, Ends.lift_iff (validateUartPacket_eq f), hvalid,
    Bool.false_eq_true, if_false, Ends.pure_iff]

/-- The state in which a valid frame is handled: its command byte has been read. -/
def commandRead (s : Main) : Main := { s with reads := [1] }

/-- The state after the response to a frame. -/
def answered (s : Main) : Main := { s with responses := s.responses ++ [[0xFF]] }

/-- One that is accepted resets the main loop or goes to the handler of the state. -/
theorem handleFrame_iff {f : RxFrame} (hvalid : f.valid = true) {arrivals : List Packet}
    {s : Main} {Q : Unit → Main → Prop} :
    Ends (handleFrame f.rx arrivals) s Q ↔
      Ends (if f.command = 0x00 then reset else dispatch f.rx arrivals) s.commandRead
        fun _ t => Q () t.answered := by
  unfold handleFrame sendResponse
  simp only [Ends.bind_iff, Ends.modify_iff, Ends.lift_iff (validateUartPacket_eq f), hvalid,
    if_true, byte_iff (show 1 < recieveBuffSize by decide)]
  by_cases hcommand : f.command = 0x00
  · have hbyte : f.rx.data[1] = 0x00 := hcommand
    rw [if_pos hcommand, if_pos hbyte, Ends.bind_iff]
    simp only [Ends.modify_iff, List.nil_append]
    rfl
  · have hbyte : ¬ f.rx.data[1] = 0x00 := hcommand
    rw [if_neg hcommand, if_neg hbyte, Ends.bind_iff]
    simp only [Ends.modify_iff, List.nil_append]
    rfl

/-- The handler of the match state. -/
theorem dispatch_match {rx : UartData} {arrivals : List Packet} {s : Main} (hs : s.state = .MATCH)
    {Q : Unit → Main → Prop} :
    Ends (dispatch rx arrivals) s Q ↔ Ends (handleMatchState rx arrivals) s Q := by
  unfold dispatch
  rw [Ends.bind_iff, Ends.get_iff, hs]

/-- The handler of the colour state. -/
theorem dispatch_colors {rx : UartData} {arrivals : List Packet} {s : Main}
    (hs : s.state = .SET_COLORS) {Q : Unit → Main → Prop} :
    Ends (dispatch rx arrivals) s Q ↔ Ends (handleColorState rx) s Q := by
  unfold dispatch
  rw [Ends.bind_iff, Ends.get_iff, hs]

theorem dispatch_idle {rx : UartData} {arrivals : List Packet} {s : Main} (hs : s.state = .IDLE) :
    Ends (dispatch rx arrivals) s fun _ => Steady { s with
      state := if rx.len = 4 ∧ rx.data[1] = 0x01 then uint8ToState rx.data[2] else .IDLE } := by
  unfold dispatch
  rw [Ends.bind_iff, Ends.get_iff, hs, Ends.bind_iff]
  refine (handleIdleState_ends rx s).mono fun _ t ht => ?_
  rw [hs] at ht
  rw [Ends.bind_iff, Ends.get_iff]
  by_cases hcolors : t.state = .SET_COLORS
  · rw [if_pos hcolors]
    refine Ends.forM (fun i hi u hu => ?_) ht
    exact call_steady (ht.length ▸ List.mem_range.mp hi) hu _
  · rw [if_neg hcolors, Ends.pure_iff]
    exact ht

/-! ## The main loop refines the pairing session -/

/-- The main loop with `n` Spheros is where the pairing session says. -/
structure Tracks (n : Nat) (s : Main) (p : Pairing) : Prop where
  length : s.spheros.length = n
  guard : s.matching = 0
  state : s.state = p.state
  index : 0 < n → s.matchingIndex.toNat = p.matched % 256
  bounded : 0 < n → n < 256 → p.matched ≤ n

/-- The main loop starts idle. -/
theorem tracks_start (spheros : List Sphero) : Tracks spheros.length (start spheros) .idle :=
  ⟨rfl, rfl, rfl, fun _ => rfl, fun _ _ => Nat.zero_le _⟩

/-- The frame is handled without an access out of bounds, and a match command that comes when no
    robot is left to match touches no Sphero. -/
def Rejects (s : Main) (p : Pairing) (e : Input) : Prop :=
  Ends (handleFrame e.frame.rx e.arrivals) s fun _ t =>
    ∀ matched, p = .matching matched → e.frame.valid = true → e.frame.command ≠ 0x00 →
      s.spheros.length ≤ matched → t.spheros = s.spheros ∧ t.sent = s.sent

theorem tracks_of_steady {n : Nat} {s₀ t : Main} {p : Pairing} (h : Tracks n s₀ p)
    (ht : Steady s₀ t) : Tracks n t p :=
  ⟨ht.length.trans h.length, ht.matching.trans h.guard, ht.state.trans h.state,
    fun hn => by rw [ht.matchingIndex]; exact h.index hn, h.bounded⟩

theorem length_pos_of_guard {n : Nat} {s : Main} {p : Pairing} (h : Tracks n s p) :
    ¬ s.spheros.length ≤ s.matching.toNat ↔ 0 < n := by
  rw [h.length, h.guard]
  exact Nat.not_le

/-- A match command that is in bounds goes to a robot that is there. -/
theorem match_inBounds {n k : Nat} {s : Main} {f : RxFrame} {arrivals : List Packet}
    (h : Tracks n s (.matching k)) (hn : 0 < n)
    (hin : k < n ∨ (256 ≤ n ∧ Pairing.known f.command = false)) (hlen : ¬ f.rx.len < 3) :
    Ends (handleMatchState f.rx arrivals) s fun _ t =>
      Tracks n t (if f.command = 0x01 then .matching (k + 1) else .matching k) ∧
      (n ≤ k → t.spheros = s.spheros ∧ t.sent = s.sent) := by
  have hindex : s.matchingIndex.toNat = k % 256 := h.index hn
  have hthere : s.matchingIndex.toNat < s.spheros.length := by
    rw [h.length]
    omega
  rw [handleMatchState_iff ((length_pos_of_guard h).mpr hn) hlen, sphero_iff hthere]
  refine (matchCommand_ends (s := { s with reads := s.reads ++ [1] }) hthere).mono fun _ t ht => ?_
  obtain ⟨hsteady, hknown, hunknown⟩ := ht
  constructor
  · by_cases hone : f.command = 0x01
    · -- the index is incremented, with a robot left
      have hleft : k < n := by
        rcases hin with hlt | ⟨-, hfalse⟩
        · exact hlt
        · rw [hone] at hfalse
          exact absurd hfalse (by decide)
      have hbyte : f.rx.data[1] = 0x01 := hone
      rw [if_pos hbyte] at hsteady
      rw [if_pos hone]
      refine ⟨hsteady.length.trans h.length, hsteady.matching.trans h.guard,
        hsteady.state.trans h.state, fun _ => ?_, fun _ _ => hleft⟩
      rw [hsteady.matchingIndex]
      show (s.matchingIndex + 1).toNat = (k + 1) % 256
      rw [UInt8.toNat_add, hindex]
      show (k % 256 + 1) % 256 = (k + 1) % 256
      omega
    · have hbyte : ¬ f.rx.data[1] = 0x01 := hone
      rw [if_neg hbyte] at hsteady
      rw [if_neg hone]
      exact ⟨hsteady.length.trans h.length, hsteady.matching.trans h.guard,
        hsteady.state.trans h.state, fun hn => by rw [hsteady.matchingIndex]; exact h.index hn,
        h.bounded⟩
  · intro hnone
    have hfalse : Pairing.known f.rx.data[1] = false := (hin.resolve_left (Nat.not_lt.mpr hnone)).2
    rw [hunknown hfalse]
    exact ⟨rfl, rfl⟩

/-- A frame in the idle state is handled as the pairing session says. -/
theorem dispatch_idle_tracks {n : Nat} {s : Main} {e : Input} (h : Tracks n s .idle) :
    Ends (dispatch e.frame.rx e.arrivals) s fun _ t =>
      Tracks n t (Pairing.idle.dispatch e.frame) := by
  refine (dispatch_idle h.state).mono fun _ t ht => ?_
  have hzero : t.matchingIndex = s.matchingIndex := ht.matchingIndex
  have hstate : t.state = if e.frame.rx.len = 4 ∧ e.frame.command = 0x01 then
    uint8ToState e.frame.rx.data[2] else .IDLE := ht.state
  have htracks : ∀ p' : Pairing, p'.matched = 0 → t.state = p'.state → Tracks n t p' :=
    fun p' hmatched hp' => ⟨ht.length.trans h.length, ht.matching.trans h.guard, hp',
      fun hn => by rw [hzero, hmatched]; exact h.index hn, fun _ _ => hmatched ▸ Nat.zero_le n⟩
  simp only [Pairing.dispatch]
  by_cases hset : e.frame.rx.len = 4 ∧ e.frame.command = 0x01
  · rw [if_pos hset] at hstate
    simp only [if_pos hset]
    -- every state the byte can name
    cases hto : uint8ToState e.frame.rx.data[2] with
    | IDLE => exact htracks _ rfl (hstate.trans hto)
    | MATCH => exact htracks _ rfl (hstate.trans hto)
    | SET_COLORS => exact htracks _ rfl (hstate.trans hto)
  · rw [if_neg hset] at hstate
    simp only [if_neg hset]
    exact htracks _ rfl hstate

/-- So is a frame in bounds in the matching state, and it is refused when every robot is matched. -/
theorem dispatch_match_tracks {n k : Nat} {s : Main} {e : Input} (h : Tracks n s (.matching k))
    (hvalid : e.frame.valid = true) (hcommand : e.frame.command ≠ 0x00)
    (hin : Pairing.InBounds n (.matching k) e) :
    Ends (dispatch e.frame.rx e.arrivals) s fun _ t =>
      Tracks n t ((Pairing.matching k).dispatch e.frame) ∧
      (n ≤ k → t.spheros = s.spheros ∧ t.sent = s.sent) := by
  rw [dispatch_match h.state]
  simp only [Pairing.dispatch]
  by_cases hlen : e.frame.rx.len < 3
  · rw [handleMatchState_short (Or.inr hlen), if_neg fun hc => hc.1 hlen]
    exact ⟨h, fun _ => ⟨rfl, rfl⟩⟩
  have hmatch : Pairing.isMatchCommand e.frame = true := by
    simp only [Pairing.isMatchCommand, hvalid, hcommand, hlen, ne_eq, not_false_eq_true,
      decide_true, Bool.and_self]
  rcases Nat.eq_zero_or_pos n with hzero | hn
  · -- no robots at all: the guard rejects
    have hguard : s.spheros.length ≤ s.matching.toNat := by
      rw [h.length, hzero]
      exact Nat.zero_le _
    rw [handleMatchState_short (Or.inl hguard)]
    refine ⟨?_, fun _ => ⟨rfl, rfl⟩⟩
    split <;> exact ⟨h.length, h.guard, h.state, fun hn => absurd hn (by omega),
      fun hn => absurd hn (by omega)⟩
  · refine (match_inBounds h hn ((hin k rfl hmatch).resolve_left (by omega)) hlen).mono
      fun _ t ht => ⟨?_, ht.2⟩
    by_cases hone : e.frame.command = 0x01
    · rw [if_pos ⟨hlen, hone⟩]
      rw [if_pos hone] at ht
      exact ht.1
    · rw [if_neg fun hc => hone hc.2]
      rw [if_neg hone] at ht
      exact ht.1

/-- Each state handles a valid frame as the pairing session says. -/
theorem dispatch_inBounds {n : Nat} {s : Main} {p : Pairing} {e : Input} (h : Tracks n s p)
    (hvalid : e.frame.valid = true) (hcommand : e.frame.command ≠ 0x00)
    (hin : Pairing.InBounds n p e) :
    Ends (dispatch e.frame.rx e.arrivals) s fun _ t =>
      Tracks n t (p.dispatch e.frame) ∧
      ∀ matched, p = .matching matched → n ≤ matched → t.spheros = s.spheros ∧ t.sent = s.sent := by
  cases p with
  | idle =>
    exact (dispatch_idle_tracks h).mono fun _ t ht => ⟨ht, fun _ hp => absurd hp (by simp)⟩
  | matching k =>
    refine (dispatch_match_tracks h hvalid hcommand hin).mono fun _ t ht => ⟨ht.1, fun m hp => ?_⟩
    rw [← Pairing.matching.inj hp]
    exact ht.2
  | colors =>
    rw [dispatch_colors h.state]
    refine (handleColorState_ends e.frame.le s).mono fun _ t ht => ?_
    exact ⟨tracks_of_steady h ht, fun _ hp => absurd hp (by simp)⟩

/-- **A frame that is in bounds** is handled as the pairing session says. -/
theorem frame_inBounds {n : Nat} {s : Main} {p : Pairing} {e : Input} (h : Tracks n s p)
    (hin : Pairing.InBounds n p e) :
    Ends (handleFrame e.frame.rx e.arrivals) s fun _ t =>
      Tracks n t (p.next e.frame) ∧
      ∀ matched, p = .matching matched → e.frame.valid = true → e.frame.command ≠ 0x00 →
        s.spheros.length ≤ matched → t.spheros = s.spheros ∧ t.sent = s.sent := by
  unfold Pairing.next
  cases hvalid : e.frame.valid with
  | false =>
    rw [handleFrame_invalid hvalid, if_pos rfl]
    exact ⟨⟨h.length, h.guard, h.state, h.index, h.bounded⟩, fun _ _ hv => absurd hv (by simp)⟩
  | true =>
    have hread : Tracks n s.commandRead p := ⟨h.length, h.guard, h.state, h.index, h.bounded⟩
    rw [handleFrame_iff hvalid]
    simp only [Bool.true_eq_false, if_false]
    by_cases hcommand : e.frame.command = 0x00
    · simp only [if_pos hcommand]
      refine (reset_ends _).mono fun _ t ht => ⟨?_, fun _ _ _ hne => absurd hcommand hne⟩
      exact ⟨ht.length.trans h.length, ht.matching.trans h.guard, ht.state,
        fun _ => congrArg UInt8.toNat ht.matchingIndex, fun _ _ => Nat.zero_le _⟩
    · simp only [if_neg hcommand]
      refine (dispatch_inBounds hread hvalid hcommand hin).mono fun _ t ht => ⟨?_, ?_⟩
      · exact ⟨ht.1.length, ht.1.guard, ht.1.state, ht.1.index, ht.1.bounded⟩
      · exact fun matched hp _ _ hnone => ht.2 matched hp (h.length ▸ hnone)

/-- A frame that is not in bounds reads past the Spheros, or commands one that was matched. -/
theorem not_rejects {n : Nat} {s : Main} {p : Pairing} {e : Input} (h : Tracks n s p)
    (hout : ¬ Pairing.InBounds n p e) : ¬ Rejects s p e := by
  unfold Pairing.InBounds at hout
  push Not at hout
  obtain ⟨k, rfl, hmatch, hn, hnone, hknown⟩ := hout
  simp only [Pairing.isMatchCommand, Bool.and_eq_true, decide_eq_true_eq] at hmatch
  obtain ⟨⟨hvalid, hcommand⟩, hlen⟩ := hmatch
  have hpos : 0 < n := Nat.pos_of_ne_zero hn
  have hguard : ¬ s.spheros.length ≤ s.matching.toNat := (length_pos_of_guard h).mpr hpos
  have hindex : s.matchingIndex.toNat = k % 256 := h.index hpos
  unfold Rejects
  rw [handleFrame_iff hvalid, if_neg hcommand, dispatch_match (s := s.commandRead) h.state,
    handleMatchState_iff (s := s.commandRead) hguard hlen]
  intro hends
  rcases Nat.lt_or_ge n 256 with hsmall | hlarge
  · -- fewer than 256 robots: all of them are matched, and the index is their number
    have hall : k ≤ n := h.bounded hpos hsmall
    have hpast : s.commandRead.spheros.length ≤ s.commandRead.matchingIndex.toNat := by
      show s.spheros.length ≤ s.matchingIndex.toNat
      rw [h.length, hindex]
      omega
    exact sphero_out hpast hends
  · -- the index has wrapped: the command goes to a robot matched before
    have hthere : s.commandRead.matchingIndex.toNat < s.commandRead.spheros.length := by
      show s.matchingIndex.toNat < s.spheros.length
      rw [h.length, hindex]
      omega
    rw [sphero_iff hthere] at hends
    obtain ⟨-, t, hkept, -, hsends, -⟩ := hends.both (matchCommand_ends hthere)
    have hsent : t.sent = s.sent := (hkept k rfl hvalid hcommand (h.length ▸ hnone)).2
    have hmore := hsends (Bool.not_eq_false _ ▸ hknown hlarge)
    rw [hsent] at hmore
    exact Nat.lt_irrefl _ hmore

/-! ## Runs -/

/-- One turn of the main loop, with the pairing session beside it. -/
def step (s : Main × Pairing) (e : Input) : Option (Main × Pairing) :=
  match handleFrame e.frame.rx e.arrivals s.1 with
  | .ok (_, t) => some (t, s.2.next e.frame)
  | .error _ => none

/-- A frame whose handling ends is a step. -/
theorem step_of_ends {s : Main × Pairing} {e : Input} {Q : Unit → Main → Prop}
    (h : Ends (handleFrame e.frame.rx e.arrivals) s.1 Q) :
    ∃ t, step s e = some (t, s.2.next e.frame) ∧ Q () t := by
  obtain ⟨a, t, hrun, hq⟩ := h
  exact ⟨t, by unfold step; rw [hrun], hq⟩

/-- **When the match state is safe.**  For every number of Spheros and every sequence of frames, each
    frame is handled without an access out of bounds, and a match command with no robot left touches
    none, if and only if each frame is in bounds for the pairing session the frames before it make. -/
theorem matching_safe_iff (spheros : List Sphero) (es : List Input) :
    Transition.Along step (fun s e => Rejects s.1 s.2 e) (start spheros, .idle) es ↔
      Transition.Along (fun p (e : Input) => some (p.next e.frame))
        (Pairing.InBounds spheros.length) .idle es := by
  refine Transition.along_simulation
    (R := fun s p => s.2 = p ∧ Tracks spheros.length s.1 p) ?_ ?_ ⟨rfl, tracks_start spheros⟩ es
  · rintro ⟨s, _⟩ p e ⟨rfl, h⟩
    constructor
    · exact fun hrejects => by_contra fun hout => not_rejects h hout hrejects
    · exact fun hin => (frame_inBounds h hin).mono fun _ t ht => ht.2
  · rintro ⟨s, _⟩ p e ⟨rfl, h⟩ hin
    obtain ⟨t, hstep, htracks, -⟩ := step_of_ends (s := (s, _)) (frame_inBounds h hin)
    rw [hstep]
    exact Option.Rel.some ⟨rfl, htracks⟩

/-- The frame that starts matching. -/
def startMatching : RxFrame where
  rx := ⟨Vector.ofFn fun i => [0x8d, 0x01, 0x01, 0x0a].getD i 0, 4⟩
  pos := by decide
  le := by decide

/-- The frame that moves on to the next robot. -/
def nextRobot : RxFrame where
  rx := ⟨Vector.ofFn fun i => [0x8d, 0x01, 0x0a].getD i 0, 3⟩
  pos := by decide
  le := by decide

/-- With one robot, the second command to move on reads past the vector. -/
theorem match_reads_past :
    ¬ (∀ (spheros : List Sphero) (es : List Input),
      Transition.Along step (fun s e => Rejects s.1 s.2 e) (start spheros, .idle) es) := by
  intro h
  have hrun := h [Sphero.create 0] [⟨startMatching, []⟩, ⟨nextRobot, []⟩, ⟨nextRobot, []⟩]
  have hfirst : Pairing.InBounds 1 .idle ⟨startMatching, []⟩ := fun _ hp => absurd hp (by simp)
  obtain ⟨s₁, hs₁, htracks₁, -⟩ := step_of_ends (s := (start [Sphero.create 0], .idle))
    (frame_inBounds (tracks_start [Sphero.create 0]) hfirst)
  have hsecond : Pairing.InBounds 1 (.matching 0) ⟨nextRobot, []⟩ :=
    fun _ hp _ => Or.inr (Or.inl (Pairing.matching.inj hp ▸ Nat.one_pos))
  obtain ⟨s₂, hs₂, htracks₂, -⟩ := step_of_ends (s := (s₁, .matching 0))
    (frame_inBounds htracks₁ hsecond)
  have hthird : ¬ Pairing.InBounds 1 (.matching 1) ⟨nextRobot, []⟩ :=
    fun hin => absurd (hin 1 rfl (by decide)) (by decide)
  exact not_rejects htracks₂ hthird ((hrun.2 _ hs₁).2 _ hs₂).1

end Main

end NrfSpheros
