/-
  What the packets of the command functions say.

  1. **Orders.**  `Order.read` reads a packet the way the command functions lay it out: the device and
     the command id say which order it is, and the data has its arguments and nothing else.
  2. **Commands.**  A `Command` is a call of one of the functions of `Drive`, `IO`, `Power` and
     `Sensor`; `order` is what the call asks for.
  3. **Every command is understood** (`commands_understood`) — the packets of any calls, sent as one
     stream and cut anyhow, are read as the orders the calls ask for.
-/
import NrfSpheros.Controls.Stream
import NrfSpheros.Sphero.AnimationData

namespace NrfSpheros

/-! ## Orders -/

/-- What a robot is told to do. -/
inductive Order
  | wake
  | locatorFlags (flags : Bool)
  | fill (x1 y1 x2 y2 : UInt8) (color : RGBColor)
  | matrixColor (color : RGBColor)
  | pixel (x y : UInt8) (color : RGBColor)
  | character (str : UInt8) (color : RGBColor)
  | saveFrame (index : UInt16) (frame : List UInt8)
  | saveAnimation (animation : AnimationData)
  | playAnimation (animationId : UInt8) (loop : Bool)
  | clearMatrix
  /-- The LEDs in the mask get the values, the lowest first. -/
  | leds (mask : UInt8) (values : List UInt8)
  | drive (speed : UInt8) (heading : UInt16) (flags : UInt8)
  | resetAim
deriving DecidableEq, Repr

namespace Order

/-- The order of a device id, a command id and data. -/
def ofFields (did cid : UInt8) (data : List UInt8) : Option Order :=
  match did.toNat, cid.toNat, data with
  | 19, 13, [] => some .wake
  | 24, 23, [flags] => some (.locatorFlags (flags != 0))
  | 26, 62, [x1, y1, x2, y2, red, green, blue] => some (.fill x1 y1 x2 y2 ⟨red, green, blue⟩)
  | 26, 47, [red, green, blue] => some (.matrixColor ⟨red, green, blue⟩)
  | 26, 45, [x, y, red, green, blue] => some (.pixel x y ⟨red, green, blue⟩)
  | 26, 66, [red, green, blue, str] => some (.character str ⟨red, green, blue⟩)
  | 26, 48, high :: low :: frame => some (.saveFrame (Wire.joinBytes high low) frame)
  | 26, 49, data => (Wire.whole AnimationData.read data).map .saveAnimation
  | 26, 67, [animationId, loop] => some (.playAnimation animationId (loop != 0))
  | 26, 56, [] => some .clearMatrix
  | 26, 28, mask :: values => some (.leds mask values)
  | 22, 7, [speed, high, low, flags] => some (.drive speed (Wire.joinBytes high low) flags)
  | 22, 6, [] => some .resetAim
  | _, _, _ => none

def read (p : Packet) : Option Order := ofFields p.did p.cid p.data

end Order

/-! ## Commands -/

/-- A call of a command function. -/
inductive Command
  | wake
  | setLocatorFlags (locatorFlags : Bool)
  | fillLedMatrix (x1 y1 x2 y2 : UInt8) (color : RGBColor)
  | setLedMatrixColor (color : RGBColor)
  | setLedMatrixPixelColor (x y : UInt8) (color : RGBColor)
  | setLedMatrixCharacter (str : UInt8) (color : RGBColor)
  | saveCompressedFrame (index : UInt8) (frame : List UInt8)
  | saveCompressedFrameAnimation (animationId fps : UInt8) (fadeAnimation : Bool)
      (palette : List RGBColor) (frameIndexes : List UInt16)
  | playAnimation (animationId : UInt8) (loop : Bool)
  | clearMatrix
  | setAllLedsWith8BitMask (mask : UInt8) (ledValues : List UInt8)
  | drive (speed : UInt8) (heading : UInt16) (flags : UInt8)
  | resetAim
deriving DecidableEq, Repr

namespace Command

/-- The call with a packet manager and a processor. -/
def encode (m : PacketManager) (tid : UInt8) : Command → Packet × PacketManager
  | wake => Power.wake m tid
  | setLocatorFlags locatorFlags => Sensor.setLocatorFlags m locatorFlags tid
  | fillLedMatrix x1 y1 x2 y2 color => Io.fillLedMatrix m x1 y1 x2 y2 color tid
  | setLedMatrixColor color => Io.setLedMatrixColor m color tid
  | setLedMatrixPixelColor x y color => Io.setLedMatrixPixelColor m x y color tid
  | setLedMatrixCharacter str color => Io.setLedMatrixCharacter m str color tid
  | saveCompressedFrame index frame => Io.saveCompressedFrame m index frame tid
  | saveCompressedFrameAnimation animationId fps fadeAnimation palette frameIndexes =>
    Io.saveCompressedFrameAnimation m animationId fps fadeAnimation palette frameIndexes tid
  | playAnimation animationId loop => Io.playAnimation m animationId loop tid
  | clearMatrix => Io.clearMatrix m tid
  | setAllLedsWith8BitMask mask ledValues => Io.setAllLedsWith8BitMask m mask ledValues tid
  | drive speed heading flags => Drive.drive m speed heading flags tid
  | resetAim => Drive.resetAim m tid

/-- What the call asks for. -/
def order : Command → Order
  | wake => .wake
  | setLocatorFlags locatorFlags => .locatorFlags locatorFlags
  | fillLedMatrix x1 y1 x2 y2 color => .fill x1 y1 x2 y2 color
  | setLedMatrixColor color => .matrixColor color
  | setLedMatrixPixelColor x y color => .pixel x y color
  | setLedMatrixCharacter str color => .character str color
  | saveCompressedFrame index frame => .saveFrame index.toUInt16 frame
  | saveCompressedFrameAnimation animationId fps fadeAnimation palette frameIndexes =>
    .saveAnimation ⟨animationId, fps % 31, fadeAnimation, palette, frameIndexes⟩
  | playAnimation animationId loop => .playAnimation animationId loop
  | clearMatrix => .clearMatrix
  | setAllLedsWith8BitMask mask ledValues => .leds mask ledValues
  | drive speed heading flags => .drive speed heading flags
  | resetAim => .resetAim

/-- The lists of an animation are not longer than the fields for their lengths allow. -/
def Fits : Command → Prop
  | saveCompressedFrameAnimation _ _ _ palette frameIndexes =>
    palette.length ≤ 255 ∧ frameIndexes.length ≤ 65535
  | _ => True

end Command

namespace Order

theorem bool_byte (b : Bool) : (b.toUInt8 != 0) = b := by cases b <;> rfl

theorem joinBytes_zero (b : UInt8) : Wire.joinBytes 0 b = b.toUInt16 := by
  rw [← UInt16.toNat_inj, Wire.toNat_joinBytes, UInt8.toNat_toUInt16]
  exact Nat.zero_add _

end Order

namespace Command

/-- Every command function lays its data out as it is read. -/
theorem read_encode {c : Command} (h : c.Fits) (m : PacketManager) (tid : UInt8) :
    Order.read (c.encode m tid).1 = some c.order := by
  cases c with
  | setLocatorFlags locatorFlags =>
    show some (Order.locatorFlags (locatorFlags.toUInt8 != 0)) = _
    rw [Order.bool_byte]
    rfl
  | saveCompressedFrame index frame =>
    have hread : Order.read (Io.saveCompressedFrame m index frame tid).1 =
        Order.ofFields 26 48 (Io.saveCompressedFrame m index frame tid).1.data := rfl
    show Order.read (Io.saveCompressedFrame m index frame tid).1 = _
    rw [hread, Io.saveCompressedFrame_data]
    show some (Order.saveFrame (Wire.joinBytes 0 index) frame) = some (.saveFrame index.toUInt16 frame)
    rw [Order.joinBytes_zero]
  | saveCompressedFrameAnimation animationId fps fadeAnimation palette frameIndexes =>
    -- the two lists behind their lengths: here `h` is needed
    have hdata := AnimationData.reads_data m animationId fps fadeAnimation tid h.1 h.2
    show (Wire.whole AnimationData.read (Io.saveCompressedFrameAnimation m animationId fps
      fadeAnimation palette frameIndexes tid).1.data).map Order.saveAnimation = _
    rw [hdata.whole]
    rfl
  | playAnimation animationId loop =>
    show some (Order.playAnimation animationId (loop.toUInt8 != 0)) = _
    rw [Order.bool_byte]
    rfl
  | setAllLedsWith8BitMask mask ledValues =>
    have hread : Order.read (Io.setAllLedsWith8BitMask m mask ledValues tid).1 =
        Order.ofFields 26 28 (Io.setAllLedsWith8BitMask m mask ledValues tid).1.data := rfl
    show Order.read (Io.setAllLedsWith8BitMask m mask ledValues tid).1 = _
    rw [hread, Io.setAllLedsWith8BitMask_data]
    rfl
  | drive speed heading flags =>
    show Order.ofFields 22 7 (speed :: (intToBytes heading.toNat 2 ++ [flags])) = _
    rw [intToBytes_two]
    show some (Order.drive speed (Wire.joinBytes _ _) flags) = _
    rw [Wire.joinBytes_highFirst]
    rfl
  | _ => rfl

/-- The packet of a command loses nothing on the way: no field is set that its flags do not select. -/
theorem encode_norm (c : Command) (m : PacketManager) (tid : UInt8) :
    (c.encode m tid).1.norm = (c.encode m tid).1 := by
  cases c <;> exact Commands.encode_norm _ _ _ _ _

/-- The packets of calls one after the other, each with its processor. -/
def encodeAll (m : PacketManager) : List (Command × UInt8) → List Packet
  | [] => []
  | (c, tid) :: calls =>
    let r := c.encode m tid
    r.1 :: encodeAll r.2 calls

theorem norm_encodeAll (m : PacketManager) (calls : List (Command × UInt8)) :
    (encodeAll m calls).map Packet.norm = encodeAll m calls := by
  induction calls generalizing m with
  | nil => rfl
  | cons call calls ih =>
    rw [encodeAll, List.map_cons, encode_norm, ih]

theorem read_encodeAll (m : PacketManager) {calls : List (Command × UInt8)}
    (h : ∀ call ∈ calls, call.1.Fits) :
    (encodeAll m calls).map Order.read = calls.map fun call => some call.1.order := by
  induction calls generalizing m with
  | nil => rfl
  | cons call calls ih =>
    obtain ⟨hcall, hcalls⟩ := List.forall_mem_cons.mp h
    rw [encodeAll, List.map_cons, List.map_cons, read_encode hcall, ih _ hcalls]

/-- **Every command is understood.**  The packets of any calls, with any processors, are built and
    sent as one stream, and the stream is cut into notifications anyhow: who collects and reads them
    is told what the calls ask for, in their order, and nothing else. -/
theorem commands_understood (m : PacketManager) {calls : List (Command × UInt8)}
    (h : ∀ call ∈ calls, call.1.Fits) {chunks : List Chunk}
    (hs : stream chunks = ((encodeAll m calls).map Packet.build).flatten) :
    (callbacks (PacketCollector.session PacketCollector.new chunks).out).map
        Order.read =
      calls.map fun call => some call.1.order := by
  rw [PacketCollector.callbacks_stream hs, norm_encodeAll]
  exact read_encodeAll m h

/-- A robot is woken and goes off at half speed, cut inside the second packet. -/
theorem commands_understood_two :
    let sent := (encodeAll PacketManager.new [(wake, 0), (drive 128 360 0, 2)]).map Packet.build
    (callbacks (PacketCollector.session PacketCollector.new
        [⟨sent.flatten.take 11, by decide⟩, ⟨sent.flatten.drop 11, by decide⟩]).out).map Order.read =
      [some Order.wake, some (Order.drive 128 360 0)] :=
  @commands_understood PacketManager.new [(wake, 0), (drive 128 360 0, 2)]
    (List.forall_mem_cons.mpr ⟨trivial, List.forall_mem_singleton.mpr trivial⟩) _ (by decide)

end Command

end NrfSpheros
