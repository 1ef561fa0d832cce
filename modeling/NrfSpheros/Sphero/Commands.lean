/-
  `sphero.cpp`, the command side of a Sphero object.

  Every method builds one packet with the object's packet manager and hands it to `execute`; here it
  returns the packet.  A method that may hand over none, or several, returns the list, in order.
-/
import NrfSpheros.Sphero.Responses

namespace NrfSpheros

/-- The LEDs of a BOLT that can be set by mask. -/
inductive LEDs
  | frontRed
  | frontGreen
  | frontBlue
  | backRed
  | backGreen
  | backBlue
deriving DecidableEq, Repr

namespace LEDs

/-- `static_cast<uint8_t>(led)`. -/
def toByte : LEDs → UInt8
  | frontRed => 0
  | frontGreen => 1
  | frontBlue => 2
  | backRed => 3
  | backGreen => 4
  | backBlue => 5

/-- The LEDs before `LEDs::LAST`, as the loops over `int i` meet them. -/
def all : List LEDs := [frontRed, frontGreen, frontBlue, backRed, backGreen, backBlue]

end LEDs

namespace Sphero

/-- A command function called with the object's packet manager. -/
def command (s : Sphero) (encode : PacketManager → Packet × PacketManager) : Sphero × Packet :=
  let r := encode s.packetManager
  ({ s with packetManager := r.2 }, r.1)

/-- `Sphero::wake`: the one command without a processor, and so without a target id. -/
def wake (s : Sphero) : Sphero × Packet :=
  s.command fun m => Power.wake m 0

/-- The packet goes to `execute` before the response is set up. -/
def wakeWithResponse (s : Sphero) : Sphero × Packet × SignalPtr :=
  let r := s.wake
  let t := r.1.setupResponse r.2
  (t.1, r.2, t.2)

/-- `Sphero::set_locator_flags`. -/
def setLocatorFlags (s : Sphero) (locatorFlags : Bool) : Sphero × Packet :=
  s.command fun m => Sensor.setLocatorFlags m locatorFlags Processors.secondary.toByte

/-- `Sphero::set_matrix_fill`. -/
def setMatrixFill (s : Sphero) (x1 y1 x2 y2 : UInt8) (color : RGBColor) : Sphero × Packet :=
  s.command fun m => Io.fillLedMatrix m x1 y1 x2 y2 color Processors.secondary.toByte

/-- `Sphero::set_matrix_color`. -/
def setMatrixColor (s : Sphero) (color : RGBColor) : Sphero × Packet :=
  s.command fun m => Io.setLedMatrixColor m color Processors.secondary.toByte

/-- `Sphero::set_matrix_pixel_color`. -/
def setMatrixPixelColor (s : Sphero) (x y : UInt8) (color : RGBColor) : Sphero × Packet :=
  s.command fun m => Io.setLedMatrixPixelColor m x y color Processors.secondary.toByte

/-- `Sphero::set_matrix_character`. -/
def setMatrixCharacter (s : Sphero) (str : UInt8) (color : RGBColor) : Sphero × Packet :=
  s.command fun m => Io.setLedMatrixCharacter m str color Processors.secondary.toByte

/-- `Sphero::play_animation`. -/
def playAnimation (s : Sphero) (animationId : UInt8) (loop : Bool) : Sphero × Packet :=
  s.command fun m => Io.playAnimation m animationId loop Processors.secondary.toByte

/-- `Sphero::clear_matrix`. -/
def clearMatrix (s : Sphero) : Sphero × Packet :=
  s.command fun m => Io.clearMatrix m Processors.secondary.toByte

/-- `Sphero::set_all_leds_with_8_bit_mask`: the one command for the primary processor. -/
def setAllLedsWith8BitMask (s : Sphero) (mask : UInt8) (ledValues : List UInt8) :
    Sphero × Packet :=
  s.command fun m => Io.setAllLedsWith8BitMask m mask ledValues Processors.primary.toByte

/-- One turn of the loop over the LEDs: the mask and the values so far. -/
def mapLed (mapping : Finmap fun _ : LEDs => UInt8) (r : UInt8 × List UInt8) (led : LEDs) :
    UInt8 × List UInt8 :=
  match mapping.lookup led with
  | none => r
  | some value => (r.1 ||| 1 <<< led.toByte, r.2 ++ [value])

/-- `Sphero::set_all_leds_with_map`: nothing is sent if no LED is mapped. -/
def setAllLedsWithMap (s : Sphero) (mapping : Finmap fun _ : LEDs => UInt8) :
    Sphero × List Packet :=
  let r := LEDs.all.foldl (mapLed mapping) (0, [])
  if r.1 ≠ 0 then
    let r := s.setAllLedsWith8BitMask r.1 r.2
    (r.1, [r.2])
  else (s, [])

/-- A mapping that sets a bit of the mask sends a packet. -/
theorem setAllLedsWithMap_ne_nil {mapping : Finmap fun _ : LEDs => UInt8}
    (h : (LEDs.all.foldl (mapLed mapping) (0, [])).1 ≠ 0) (s : Sphero) :
    (s.setAllLedsWithMap mapping).2 ≠ [] := by
  unfold setAllLedsWithMap
  rw [if_pos h]
  exact List.cons_ne_nil _ _

/-- The mapping of `turn_off_all_leds`: every LED to 0. -/
def darkMapping : Finmap fun _ : LEDs => UInt8 :=
  LEDs.all.foldl (fun mapping led => mapping.insert led 0) ∅

/-- `Sphero::turn_off_all_leds`: all LEDs to 0, and the matrix black. -/
def turnOffAllLeds (s : Sphero) : Sphero × List Packet :=
  let r := s.setAllLedsWithMap darkMapping
  let t := r.1.setMatrixColor ⟨0, 0, 0⟩
  (t.1, r.2 ++ [t.2])

/-- `get_drive_packet`: a `uint8_t` speed is never above 255. -/
def getDrivePacket (s : Sphero) (speed : UInt8) (heading : UInt16) : Sphero × Packet :=
  s.command fun m => Drive.drive m speed heading Drive.forward Processors.secondary.toByte

/-- `Sphero::drive`. -/
def drive (s : Sphero) (speed : UInt8) (heading : UInt16) : Sphero × Packet :=
  s.getDrivePacket speed heading

/-- The packet goes to `execute` before the response is set up. -/
def driveWithResponse (s : Sphero) (speed : UInt8) (heading : UInt16) :
    Sphero × Packet × SignalPtr :=
  let r := s.getDrivePacket speed heading
  let t := r.1.setupResponse r.2
  (t.1, r.2, t.2)

/-- `Sphero::set_heading`: the robot turns and does not move. -/
def setHeading (s : Sphero) (heading : UInt16) : Sphero × Packet := s.drive 0 heading

/-- `Sphero::reset_aim`. -/
def resetAim (s : Sphero) : Sphero × Packet :=
  s.command fun m => Drive.resetAim m Processors.secondary.toByte

/-- `Sphero::save_compressed_frame`: the index is a byte. -/
def saveCompressedFrame (s : Sphero) (index : UInt8) (frame : List UInt8) : Sphero × Packet :=
  s.command fun m => Io.saveCompressedFrame m index frame Processors.secondary.toByte

/-- The packet goes to `execute` before the response is set up. -/
def saveCompressedFrameWithResponse (s : Sphero) (index : UInt8) (frame : List UInt8) :
    Sphero × Packet × SignalPtr :=
  let r := s.saveCompressedFrame index frame
  let t := r.1.setupResponse r.2
  (t.1, r.2, t.2)

/-- `Sphero::save_compressed_frame_animation`: the animation gets the next number. -/
def saveCompressedFrameAnimation (s : Sphero) (fps : UInt8) (fadeAnimation : Bool)
    (palette : List RGBColor) (frameIndexes : List UInt16) : Sphero × Packet :=
  let r := s.command fun m => Io.saveCompressedFrameAnimation m s.animationIndex fps fadeAnimation
    palette frameIndexes Processors.secondary.toByte
  ({ r.1 with animationIndex := r.1.animationIndex + 1 }, r.2)

end Sphero

end NrfSpheros
