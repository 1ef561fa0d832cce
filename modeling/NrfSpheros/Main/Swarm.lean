/-
  The frame that commands the whole swarm.

  `handle_color_state` reads the colours from index 2 on and the velocities from `2 + 3 n` on, three
  bytes a robot.

  1. **The frame** — `swarmFrame` is the layout the comment at the handler describes; which byte of it
     stands at an index the handler computes is `color_at` and `velocity_at`.
  2. **The loops** send one command to each robot, in the order of the robots.  `Sent s l t`: since `s`
     only Spheros have been commanded, and the commands are `l`.
  3. **Decoding** (`swarm_decoded`).
-/
import NrfSpheros.Main.Pairing
import NrfSpheros.Theory.Wire

namespace NrfSpheros

/-- What a robot is told to do with its motors. -/
structure Velocity where
  speed : UInt8
  heading : UInt16
deriving DecidableEq, Repr

/-- The bytes of a colour. -/
def RGBColor.bytes (color : RGBColor) : List UInt8 := [color.red, color.green, color.blue]

/-- The bytes of a velocity: the heading goes high byte first. -/
def Velocity.bytes (velocity : Velocity) : List UInt8 :=
  velocity.speed :: Wire.highFirst velocity.heading

/-- A colour and a velocity for each robot. -/
def swarmFrame (colors : List RGBColor) (velocities : List Velocity) : List UInt8 :=
  [0x8d, 0x01] ++ (colors.flatMap RGBColor.bytes ++ (velocities.flatMap Velocity.bytes ++ [0x0a]))

/-! ## Where the fields are -/

theorem length_flatMap_bytes {α : Type} {f : α → List UInt8} (hf : ∀ x, (f x).length = 3)
    (l : List α) : (l.flatMap f).length = 3 * l.length := by
  rw [List.length_flatMap]
  simp [hf, Nat.mul_comm]

theorem length_swarmFrame (colors : List RGBColor) (velocities : List Velocity) :
    (swarmFrame colors velocities).length = 3 + 3 * colors.length + 3 * velocities.length := by
  simp only [swarmFrame, List.length_append, List.length_cons, List.length_nil,
    length_flatMap_bytes (f := RGBColor.bytes) fun _ => rfl,
    length_flatMap_bytes (f := Velocity.bytes) fun _ => rfl]
  omega

theorem color_at {colors : List RGBColor} (velocities : List Velocity) {i j : Nat}
    (hi : i < colors.length) (hj : j < 3) :
    (swarmFrame colors velocities)[i * 3 + j + 2]? = colors[i].bytes[j]? := by
  have hlength := length_flatMap_bytes (f := RGBColor.bytes) (fun _ => rfl) colors
  show (colors.flatMap RGBColor.bytes ++ _)[i * 3 + j]? = _
  rw [List.getElem?_append_left (by omega), Nat.mul_comm]
  exact Wire.getElem?_flatMap (f := RGBColor.bytes) (fun _ => rfl) hi hj

theorem velocity_at {colors : List RGBColor} {velocities : List Velocity}
    (hlen : colors.length = velocities.length) {i j : Nat} (hi : i < velocities.length)
    (hj : j < 3) :
    (swarmFrame colors velocities)[2 + 3 * velocities.length + i * 3 + j]? =
      velocities[i].bytes[j]? := by
  have hcolors := length_flatMap_bytes (f := RGBColor.bytes) (fun _ => rfl) colors
  have hlength := length_flatMap_bytes (f := Velocity.bytes) (fun _ => rfl) velocities
  have hindex : 2 + 3 * velocities.length + i * 3 + j = 3 * velocities.length + (3 * i + j) + 2 := by
    omega
  rw [hindex]
  show (colors.flatMap RGBColor.bytes ++ _)[3 * velocities.length + (3 * i + j)]? = _
  rw [← hlen, ← hcolors, List.getElem?_append_right (Nat.le_add_right _ _), Nat.add_sub_cancel_left,
    List.getElem?_append_left (by omega)]
  exact Wire.getElem?_flatMap (f := Velocity.bytes) (fun _ => rfl) hi hj

/-- A byte of the contents stands in the array. -/
theorem data_of_contents {b : UartData} {i : Nat} {c : UInt8} (h : b.contents[i]? = some c) :
    ∃ hi : i < recieveBuffSize, b.data[i] = c := by
  unfold UartData.contents at h
  obtain ⟨hi, hget⟩ := List.getElem?_eq_some_iff.mp h
  have hsize : i < recieveBuffSize := by
    rw [List.length_take, Vector.length_toList] at hi
    omega
  refine ⟨hsize, ?_⟩
  rw [List.getElem_take, Vector.getElem_toList] at hget
  exact hget

theorem len_of_contents {f : RxFrame} {colors : List RGBColor} {velocities : List Velocity}
    (hf : f.rx.contents = swarmFrame colors velocities) :
    f.rx.len.toNat = 3 + 3 * colors.length + 3 * velocities.length := by
  have hcontents := congrArg List.length hf
  have hle := f.le
  rwa [length_swarmFrame, UartData.contents, List.length_take, Vector.length_toList,
    Nat.min_eq_left hle] at hcontents

namespace Main

/-! ## Commands -/

/-- What a packet tells a robot: which robot, which command of which device, and its data. -/
def order (sent : Nat × Packet) : Nat × UInt8 × UInt8 × List UInt8 :=
  (sent.1, sent.2.did, sent.2.cid, sent.2.data)

/-- The `set_led_matrix_color` of robot `i`. -/
def colorOrder (i : Nat) (color : RGBColor) : Nat × UInt8 × UInt8 × List UInt8 :=
  (i, Io.ioDid, 47, [color.red, color.green, color.blue])

/-- The `drive` of robot `i`. -/
def driveOrder (i : Nat) (velocity : Velocity) : Nat × UInt8 × UInt8 × List UInt8 :=
  (i, Drive.driveDid, 7,
    [velocity.speed, (velocity.heading >>> 8).toUInt8, (velocity.heading &&& 0xFF).toUInt8, 0])

/-- Since `s₀` Spheros have been commanded, and with `orders`. -/
structure Sent (s₀ : Main) (orders : List (Nat × UInt8 × UInt8 × List UInt8)) (s : Main) : Prop where
  steady : Steady s₀ s
  sent : ∃ sent, s.sent = s₀.sent ++ sent ∧ sent.map order = orders

theorem sent_refl (s : Main) : Sent s [] s := ⟨steady_refl s, [], (List.append_nil _).symm, rfl⟩

/-- Reading a byte commands nobody. -/
theorem sent_byte {s₀ s : Main} {orders : List (Nat × UInt8 × UInt8 × List UInt8)}
    (h : Sent s₀ orders s) (i : Nat) : Sent s₀ orders { s with reads := s.reads ++ [i] } :=
  ⟨⟨h.steady.length, h.steady.state, h.steady.matching, h.steady.matchingIndex⟩, h.sent⟩

/-- A method that sends one packet, whatever the state of the Sphero. -/
theorem sent_call {s₀ s : Main} {orders : List (Nat × UInt8 × UInt8 × List UInt8)} {i : Nat}
    (h : Sent s₀ orders s) (hi : i < s₀.spheros.length) {method : Sphero → Sphero × Packet}
    {did cid : UInt8} {data : List UInt8}
    (hmethod : ∀ sphero, (method sphero).2.did = did ∧ (method sphero).2.cid = cid ∧
      (method sphero).2.data = data) :
    Ends (call i fun s => one (method s)) s fun _ => Sent s₀ (orders ++ [(i, did, cid, data)]) := by
  have hi' : i < s.spheros.length := h.steady.length ▸ hi
  obtain ⟨sent, hsent, horders⟩ := h.sent
  obtain ⟨hdid, hcid, hdata⟩ := hmethod s.spheros[i]
  rw [call_iff hi']
  refine ⟨⟨(List.length_set ..).trans h.steady.length, h.steady.state, h.steady.matching,
    h.steady.matchingIndex⟩, sent ++ [(i, (method s.spheros[i]).2)], ?_, ?_⟩
  · show s.sent ++ _ = _
    rw [hsent, List.append_assoc]
    rfl
  · rw [List.map_append, horders, List.map_singleton, order, hdid, hcid, hdata]

theorem setMatrixColor_order (color : RGBColor) (sphero : Sphero) :
    (sphero.setMatrixColor color).2.did = Io.ioDid ∧ (sphero.setMatrixColor color).2.cid = 47 ∧
      (sphero.setMatrixColor color).2.data = [color.red, color.green, color.blue] :=
  ⟨rfl, rfl, rfl⟩

theorem drive_order (speed : UInt8) (heading : UInt16) (sphero : Sphero) :
    (sphero.drive speed heading).2.did = Drive.driveDid ∧ (sphero.drive speed heading).2.cid = 7 ∧
      (sphero.drive speed heading).2.data =
        [speed, (heading >>> 8).toUInt8, (heading &&& 0xFF).toUInt8, 0] := by
  refine ⟨rfl, rfl, ?_⟩
  show [speed] ++ intToBytes heading.toNat 2 ++ [0] = _
  rw [intToBytes_two]
  rfl

/-! ## The loops -/

/-- A loop whose `i`-th round sends the order for the `i`-th robot. -/
theorem sent_loop {α : Type} {l : List α} {f : Nat → Exec Unit}
    {g : Nat → α → Nat × UInt8 × UInt8 × List UInt8} {s₀ s : Main}
    {orders : List (Nat × UInt8 × UInt8 × List UInt8)}
    (hround : ∀ i (hi : i < l.length) s orders, Sent s₀ orders s →
      Ends (f i) s fun _ => Sent s₀ (orders ++ [g i l[i]]))
    (h : Sent s₀ orders s) :
    Ends ((List.range l.length).forM f) s fun _ => Sent s₀ (orders ++ l.mapIdx g) := by
  -- after `i` rounds the first `i` orders are out
  refine (Ends.forM_range (I := fun i => Sent s₀ (orders ++ (l.mapIdx g).take i)) ?_ ?_).mono ?_
  · intro i hi s hs
    have hi' : i < (l.mapIdx g).length := by
      rw [List.length_mapIdx]
      exact hi
    rw [List.take_succ_eq_append_getElem hi', List.getElem_mapIdx, ← List.append_assoc]
    exact hround i hi s _ hs
  · rw [List.take_zero, List.append_nil]
    exact h
  · intro _ t ht
    rwa [List.take_of_length_le (Nat.le_of_eq List.length_mapIdx)] at ht

/-- One round of the loop over the colours. -/
theorem colorRound {f : RxFrame} {colors : List RGBColor} {velocities : List Velocity}
    (hf : f.rx.contents = swarmFrame colors velocities) {s₀ s : Main}
    {orders : List (Nat × UInt8 × UInt8 × List UInt8)} (h : Sent s₀ orders s) {i : Nat}
    (hi : i < colors.length) (hn : i < s₀.spheros.length) :
    Ends (do
      let red ← byte f.rx (i * 3 + 2)
      let green ← byte f.rx (i * 3 + 1 + 2)
      let blue ← byte f.rx (i * 3 + 2 + 2)
      call i fun s => one (s.setMatrixColor ⟨red, green, blue⟩)) s
      fun _ => Sent s₀ (orders ++ [colorOrder i colors[i]]) := by
  have hbytes : ∀ j c, colors[i].bytes[j]? = some c → j < 3 →
      ∃ hj : i * 3 + j + 2 < recieveBuffSize, f.rx.data[i * 3 + j + 2] = c := by
    intro j c hc hj
    apply data_of_contents
    rw [hf, color_at velocities hi hj, hc]
  obtain ⟨h0, hred⟩ := hbytes 0 colors[i].red rfl (by decide)
  obtain ⟨h1, hgreen⟩ := hbytes 1 colors[i].green rfl (by decide)
  obtain ⟨h2, hblue⟩ := hbytes 2 colors[i].blue rfl (by decide)
  simp only [Ends.bind_iff, byte_iff h0, byte_iff h1, byte_iff h2, hred, hgreen, hblue]
  exact sent_call (sent_byte (sent_byte (sent_byte h _) _) _) hn (setMatrixColor_order colors[i])

theorem heading_highFirst (x : UInt16) :
    heading (x >>> 8).toUInt8 (x &&& 0xFF).toUInt8 = x :=
  Wire.joinBytes_highFirst x

/-- One round of the loop over the velocities. -/
theorem velocityRound {f : RxFrame} {colors : List RGBColor} {velocities : List Velocity}
    (hf : f.rx.contents = swarmFrame colors velocities)
    (hlen : colors.length = velocities.length) {s₀ s : Main}
    {orders : List (Nat × UInt8 × UInt8 × List UInt8)} (h : Sent s₀ orders s) {i : Nat}
    (hi : i < velocities.length) (hn : i < s₀.spheros.length) :
    Ends (do
      let speed ← byte f.rx (2 + 3 * velocities.length + i * 3)
      let high ← byte f.rx (2 + 3 * velocities.length + i * 3 + 1)
      let low ← byte f.rx (2 + 3 * velocities.length + i * 3 + 2)
      call i fun s => one (s.drive speed (heading high low))) s
      fun _ => Sent s₀ (orders ++ [driveOrder i velocities[i]]) := by
  have hbytes : ∀ j c, velocities[i].bytes[j]? = some c → j < 3 →
      ∃ hj : 2 + 3 * velocities.length + i * 3 + j < recieveBuffSize,
        f.rx.data[2 + 3 * velocities.length + i * 3 + j] = c := by
    intro j c hc hj
    apply data_of_contents
    rw [hf, velocity_at hlen hi hj, hc]
  obtain ⟨h0, hspeed⟩ : ∃ h : 2 + 3 * velocities.length + i * 3 < recieveBuffSize,
      f.rx.data[2 + 3 * velocities.length + i * 3] = velocities[i].speed :=
    hbytes 0 velocities[i].speed rfl (by decide)
  obtain ⟨h1, hhigh⟩ := hbytes 1 (velocities[i].heading >>> 8).toUInt8 rfl (by decide)
  obtain ⟨h2, hlow⟩ := hbytes 2 (velocities[i].heading &&& 0xFF).toUInt8 rfl (by decide)
  simp only [Ends.bind_iff, byte_iff h0, byte_iff h1, byte_iff h2, hspeed, hhigh, hlow,
    heading_highFirst]
  exact sent_call (sent_byte (sent_byte (sent_byte h _) _) _) hn
    (drive_order velocities[i].speed velocities[i].heading)

/-- The handler decodes a swarm frame for all its robots. -/
theorem handleColorState_decodes {f : RxFrame} {colors : List RGBColor}
    {velocities : List Velocity} (hf : f.rx.contents = swarmFrame colors velocities) {s : Main}
    (hc : colors.length = s.spheros.length) (hv : velocities.length = s.spheros.length) :
    Ends (handleColorState f.rx) s fun _ =>
      Sent s (colors.mapIdx colorOrder ++ velocities.mapIdx driveOrder) := by
  have hlen : f.rx.len.toNat = 3 + 6 * s.spheros.length := by
    rw [len_of_contents hf, hc, hv]
    omega
  obtain ⟨h1, hcommand⟩ : ∃ h : 1 < recieveBuffSize, f.rx.data[1] = 0x01 :=
    data_of_contents (by rw [hf]; rfl)
  unfold handleColorState
  rw [Ends.bind_iff, Ends.get_iff]
  simp only [if_neg (not_not.mpr hlen), Ends.bind_iff, byte_iff h1, hcommand]
  rw [if_neg (not_not.mpr rfl), Ends.bind_iff]
  have hstart := sent_byte (sent_refl s) 1
  rw [← hc]
  refine (sent_loop (g := colorOrder) (l := colors) (fun i hi s' orders hs =>
    colorRound hf hs hi (hc ▸ hi)) hstart).mono fun _ t ht => ?_
  rw [List.nil_append] at ht
  rw [hc, ← hv]
  exact sent_loop (g := driveOrder) (l := velocities) (fun i hi s' orders hs =>
    velocityRound hf (hc.trans hv.symm) hs hi (hv ▸ hi)) ht

/-! ## The frame -/

/-- A swarm frame is valid. -/
theorem valid_of_contents {f : RxFrame} {colors : List RGBColor} {velocities : List Velocity}
    (hf : f.rx.contents = swarmFrame colors velocities) : f.valid = true := by
  obtain ⟨_, hstart⟩ := data_of_contents (b := f.rx) (i := 0) (c := 0x8d) (by rw [hf]; rfl)
  obtain ⟨_, hend⟩ := data_of_contents (b := f.rx) (i := f.rx.len.toNat - 1) (c := 0x0a) (by
    have hlast : (swarmFrame colors velocities).getLast? = some 0x0a := by
      simp only [swarmFrame, ← List.append_assoc]
      exact List.getLast?_concat
    rw [hf, len_of_contents hf, ← length_swarmFrame, ← List.getLast?_eq_getElem?, hlast])
  unfold RxFrame.valid
  simp only [hstart, hend, decide_true, Bool.and_self]

/-- A frame that is no swarm frame for `n` robots commands nobody. -/
theorem handleColorState_rejects {f : RxFrame} {s : Main}
    (h : f.rx.len.toNat ≠ 3 + 6 * s.spheros.length ∨ f.command ≠ 0x01) :
    Ends (handleColorState f.rx) s fun _ t => ∃ reads, t = { s with reads } := by
  unfold handleColorState
  rw [Ends.bind_iff, Ends.get_iff]
  by_cases hlen : f.rx.len.toNat ≠ 3 + 6 * s.spheros.length
  · simp only [if_pos hlen, Ends.pure_iff]
    exact ⟨s.reads, rfl⟩
  · have hcommand : f.rx.data[1] ≠ 0x01 := h.resolve_left hlen
    simp only [if_neg hlen, Ends.bind_iff, byte_iff (show 1 < recieveBuffSize by decide)]
    rw [if_pos hcommand, Ends.pure_iff]
    exact ⟨s.reads ++ [1], rfl⟩

/-- **Swarm commands.**  In the state `SET_COLORS`, a frame with a colour and a velocity for each robot
    sends each its colour and then each its velocity, and nothing else; any other valid frame that is
    no reset sends nothing and changes nothing. -/
theorem swarm_decoded {s : Main} (hs : s.state = .SET_COLORS) :
    (∀ (f : RxFrame) (arrivals : List Packet) (colors : List RGBColor) (velocities : List Velocity),
      colors.length = s.spheros.length → velocities.length = s.spheros.length →
        f.rx.contents = swarmFrame colors velocities →
          Ends (handleFrame f.rx arrivals) s fun _ t => ∃ sent, t.sent = s.sent ++ sent ∧
            sent.map order = colors.mapIdx colorOrder ++ velocities.mapIdx driveOrder) ∧
    ∀ (f : RxFrame) (arrivals : List Packet), f.valid = true → f.command ≠ 0x00 →
      f.rx.len.toNat ≠ 3 + 6 * s.spheros.length ∨ f.command ≠ 0x01 →
        Ends (handleFrame f.rx arrivals) s fun _ t =>
          ∃ reads, t = { s with reads, responses := s.responses ++ [[0xFF]] } := by
  have hread : s.commandRead.state = .SET_COLORS := hs
  constructor
  · intro f arrivals colors velocities hc hv hf
    have hcommand : f.command = 0x01 := by
      obtain ⟨_, hget⟩ := data_of_contents (b := f.rx) (i := 1) (c := 0x01) (by rw [hf]; rfl)
      exact hget
    have hne : f.command ≠ 0x00 := by
      rw [hcommand]
      decide
    rw [handleFrame_iff (valid_of_contents hf), if_neg hne, dispatch_colors hread]
    exact (handleColorState_decodes (s := s.commandRead) hf hc hv).mono fun _ t ht => ht.sent
  · intro f arrivals hvalid hne hother
    rw [handleFrame_iff hvalid, if_neg hne, dispatch_colors hread]
    refine (handleColorState_rejects (s := s.commandRead) hother).mono fun _ t ht => ?_
    obtain ⟨reads, rfl⟩ := ht
    exact ⟨reads, rfl⟩

/-- Red for the one robot, and half speed along 360. -/
def oneRobot : RxFrame where
  rx := ⟨Vector.ofFn fun i => [0x8d, 0x01, 255, 0, 0, 128, 0x01, 0x68, 0x0a].getD i 0, 9⟩
  pos := by decide
  le := by decide

theorem swarm_decoded_one :
    Ends (handleFrame oneRobot.rx []) { start [Sphero.create 0] with state := .SET_COLORS }
      fun _ t => ∃ sent, t.sent = [] ++ sent ∧
        sent.map order = [(0, 26, 47, [255, 0, 0]), (0, 22, 7, [128, 0x01, 0x68, 0])] :=
  (swarm_decoded rfl).1 oneRobot [] [⟨255, 0, 0⟩] [⟨128, 360⟩] rfl rfl (by decide)

end Main

end NrfSpheros
