/-
  `controls/packet_manager.cpp` and `commands/*.cpp`: the packets a Sphero object sends.

  `PacketManager::new_packet` stamps the sequence number; `Commands::encode` turns a processor
  number into a target id; the functions of `Drive`, `IO`, `Power` and `Sensor` fix the device id,
  the command id and the layout of the data.  In the source each of them takes the Sphero and uses
  its `packet_manager`; here the manager goes in and comes out.
-/
import NrfSpheros.Controls.Codec
import NrfSpheros.Theory.Wire

namespace NrfSpheros

open PacketFlags (requestsResponse isActivity hasTargetId hasSourceId isResponse)

/-! ## `PacketManager` -/

/-- The sequence number of the next packet. -/
structure PacketManager where
  seq : UInt8
deriving DecidableEq, Repr

namespace PacketManager

/-- `PacketManager::PacketManager`. -/
def new : PacketManager := ⟨0⟩

/-- `PacketManager::new_packet`: a packet with a target id has a source id as well. -/
def newPacket (m : PacketManager) (did cid tid : UInt8) (data : List UInt8) :
    Packet × PacketManager :=
  let flags := requestsResponse ||| isActivity
  let flags := if tid ≠ 0 then flags ||| (hasSourceId ||| hasTargetId) else flags
  let sid := if tid ≠ 0 then 0x1 else 0
  let packet : Packet :=
    { flags, did, cid, seq := m.seq, tid, sid, err := PacketError.success, data }
  -- the sum and the remainder are taken in `int`
  (packet, ⟨UInt8.ofNat ((m.seq.toNat + 1) % 0xff)⟩)

/-- A new packet selects every optional field it sets, so nothing of it is lost on the way. -/
theorem newPacket_norm (m : PacketManager) (did cid tid : UInt8) (data : List UInt8) :
    (m.newPacket did cid tid data).1.norm = (m.newPacket did cid tid data).1 := by
  have hplain : ∀ flag ∈ [hasTargetId, hasSourceId, isResponse],
      PacketFlags.has (requestsResponse ||| isActivity) flag = false := by decide
  have htarget : ∀ flag ∈ [hasTargetId, hasSourceId],
      PacketFlags.has (requestsResponse ||| isActivity ||| (hasSourceId ||| hasTargetId)) flag
        = true := by decide
  by_cases ht : tid = 0
  · simp [newPacket, Packet.norm, ht, hplain]
  · simp [newPacket, Packet.norm, ht, htarget]

/-- The arguments of a call of `new_packet`. -/
structure Args where
  did : UInt8
  cid : UInt8
  tid : UInt8
  data : List UInt8
deriving DecidableEq, Repr

/-- The packets that calls one after the other return. -/
def newPackets (m : PacketManager) : List Args → List Packet
  | [] => []
  | a :: calls =>
    let r := m.newPacket a.did a.cid a.tid a.data
    r.1 :: r.2.newPackets calls

/-- A packet has the number the manager had before. -/
@[simp] theorem newPacket_seq (m : PacketManager) (did cid tid : UInt8) (data : List UInt8) :
    (m.newPacket did cid tid data).1.seq = m.seq := rfl

/-- The manager counts its calls modulo 255, so it never gets to `0xFF`. -/
theorem newPacket_next {m : PacketManager} {n : Nat} (h : m.seq.toNat = n % 255)
    (did cid tid : UInt8) (data : List UInt8) :
    (m.newPacket did cid tid data).2.seq.toNat = (n + 1) % 255 := by
  show (UInt8.ofNat ((m.seq.toNat + 1) % 0xff)).toNat = (n + 1) % 255
  rw [UInt8.toNat_ofNat', h]
  omega

/-- Every call returns a packet. -/
theorem length_newPackets (m : PacketManager) (calls : List Args) :
    (m.newPackets calls).length = calls.length := by
  induction calls generalizing m with
  | nil => rfl
  | cons a calls ih => exact congrArg Nat.succ (ih _)

/-- **The packet of call `k`**, on a manager that has seen `n` calls. -/
theorem newPackets_seq {calls : List Args} {m : PacketManager} {n : Nat}
    (h : m.seq.toNat = n % 255) {k : Nat} {p : Packet} (hp : (m.newPackets calls)[k]? = some p) :
    p.seq.toNat = (n + k) % 255 := by
  induction calls generalizing m n k with
  | nil => cases hp
  | cons a calls ih =>
    cases k with
    | zero =>
      rw [← Option.some.inj hp]
      exact h
    | succ k =>
      rw [ih (newPacket_next h a.did a.cid a.tid a.data) hp, Nat.add_assoc, Nat.add_comm 1 k]

end PacketManager

/-! ## Ids -/

namespace Packet

/-- The id is the three bytes `did`, `cid`, `seq` as one number. -/
theorem id_toNat (p : Packet) :
    p.id.toNat = p.did.toNat * 65536 + (p.cid.toNat * 256 + p.seq.toNat) := by
  have hd := p.did.toNat_lt
  have hc := p.cid.toNat_lt
  have hs := p.seq.toNat_lt
  have h16 : (16 : UInt32).toNat % 32 = 16 := rfl
  have h8 : (8 : UInt32).toNat % 32 = 8 := rfl
  have hlow : p.cid.toNat * 256 + p.seq.toNat = p.cid.toNat <<< 8 ||| p.seq.toNat := by
    rw [← Nat.shiftLeft_add_eq_or_of_lt hs, Nat.shiftLeft_eq]
  have hhigh : p.did.toNat * 65536 + (p.cid.toNat * 256 + p.seq.toNat)
      = p.did.toNat <<< 16 ||| (p.cid.toNat * 256 + p.seq.toNat) := by
    rw [← Nat.shiftLeft_add_eq_or_of_lt (by omega), Nat.shiftLeft_eq]
  simp only [id, UInt32.toNat_or, UInt32.toNat_shiftLeft, UInt8.toNat_toUInt32, h16, h8]
  rw [Nat.mod_eq_of_lt (by rw [Nat.shiftLeft_eq]; omega),
    Nat.mod_eq_of_lt (by rw [Nat.shiftLeft_eq]; omega), Nat.or_assoc, ← hlow, ← hhigh]

/-- **An id determines its three bytes.** -/
theorem id_eq_iff {p q : Packet} :
    p.id = q.id ↔ p.did = q.did ∧ p.cid = q.cid ∧ p.seq = q.seq := by
  constructor
  · intro h
    have hnat := congrArg UInt32.toNat h
    rw [id_toNat, id_toNat] at hnat
    have hc := p.cid.toNat_lt
    have hs := p.seq.toNat_lt
    have hc' := q.cid.toNat_lt
    have hs' := q.seq.toNat_lt
    refine ⟨UInt8.toNat_inj.mp ?_, UInt8.toNat_inj.mp ?_, UInt8.toNat_inj.mp ?_⟩ <;> omega
  · rintro ⟨hd, hc, hs⟩
    simp only [id, hd, hc, hs]

end Packet

/-! ## `Commands` -/

/-- The processors of a BOLT, used as target ids. -/
inductive Processors
  | unknown
  | primary
  | secondary
deriving DecidableEq, Repr

/-- `static_cast<uint8_t>(processor)`. -/
def Processors.toByte : Processors → UInt8
  | .unknown => 0
  | .primary => 1
  | .secondary => 2

/-- A colour of a pixel. -/
structure RGBColor where
  red : UInt8
  green : UInt8
  blue : UInt8
deriving DecidableEq, Repr

/-- `int_to_bytes(i, size)` with its default byte order: entry `size - index - 1` is
    `i >> (index * 8)`. -/
def intToBytes (i size : Nat) : List UInt8 :=
  (List.range size).map fun k => UInt8.ofNat (i >>> ((size - k - 1) * 8))

/-- A byte as one byte. -/
@[simp] theorem intToBytes_one (b : UInt8) : intToBytes b.toNat 1 = [b] := by
  show [UInt8.ofNat (b.toNat >>> 0)] = [b]
  rw [Nat.shiftRight_zero, UInt8.ofNat_toNat]

/-- A byte as two: the first is zero. -/
@[simp] theorem intToBytes_byte (b : UInt8) : intToBytes b.toNat 2 = [0, b] := by
  have hhigh : b.toNat >>> 8 = 0 := by
    rw [Nat.shiftRight_eq_div_pow, Nat.div_eq_of_lt b.toNat_lt]
  show [UInt8.ofNat (b.toNat >>> 8), UInt8.ofNat (b.toNat >>> 0)] = [0, b]
  rw [hhigh, Nat.shiftRight_zero, UInt8.ofNat_toNat]
  rfl

/-- Two bytes, the high one first. -/
theorem intToBytes_two (x : UInt16) : intToBytes x.toNat 2 = Wire.highFirst x := by
  have hlt := x.toNat_lt
  have hhigh : UInt8.ofNat (x.toNat >>> 8) = (x >>> 8).toUInt8 := by
    rw [← UInt8.toNat_inj, Wire.toNat_high, UInt8.toNat_ofNat', Nat.shiftRight_eq_div_pow]
    omega
  have hlow : UInt8.ofNat (x.toNat >>> 0) = (x &&& 0xFF).toUInt8 := by
    rw [← UInt8.toNat_inj, Wire.toNat_low, UInt8.toNat_ofNat', Nat.shiftRight_zero]
  show [UInt8.ofNat (x.toNat >>> 8), UInt8.ofNat (x.toNat >>> 0)] = _
  rw [hhigh, hlow]
  rfl

namespace Commands

/-- `nibble_to_byte`: the port id in the upper nibble, the node id in the lower one. -/
def nibbleToByte (high low : UInt8) : UInt8 := (high <<< 4) ||| low

/-- `Commands::encode`: a processor becomes a node id of port 1, and no processor no target. -/
def encode (manager : PacketManager) (did cid tid : UInt8) (data : List UInt8) :
    Packet × PacketManager :=
  let tid := if tid ≠ 0 then nibbleToByte 0x1 tid else tid
  manager.newPacket did cid tid data

/-- Nothing of an encoded packet is lost on the way. -/
theorem encode_norm (m : PacketManager) (did cid tid : UInt8) (data : List UInt8) :
    (encode m did cid tid data).1.norm = (encode m did cid tid data).1 :=
  PacketManager.newPacket_norm m did cid _ data

@[simp] theorem encode_seq (m : PacketManager) (did cid tid : UInt8) (data : List UInt8) :
    (encode m did cid tid data).1.seq = m.seq := rfl

/-- Encoding is one call of the manager. -/
theorem encode_next {m : PacketManager} {n : Nat} (h : m.seq.toNat = n % 255) (did cid tid : UInt8)
    (data : List UInt8) : (encode m did cid tid data).2.seq.toNat = (n + 1) % 255 :=
  PacketManager.newPacket_next h did cid _ data

/-- The data is the caller's. -/
@[simp] theorem encode_data (m : PacketManager) (did cid tid : UInt8) (data : List UInt8) :
    (encode m did cid tid data).1.data = data := rfl

end Commands

namespace Power

/-- `POWER_DID`. -/
def powerDid : UInt8 := 19

/-- `Power::wake`: wakes the robot from soft sleep. -/
def wake (m : PacketManager) (tid : UInt8) : Packet × PacketManager :=
  Commands.encode m powerDid 13 tid []

end Power

namespace Drive

/-- `DRIVE_DID`. -/
def driveDid : UInt8 := 22

/-- `DriveFlags::FORWARD`. -/
def forward : UInt8 := 0x0

/-- `Drive::drive`: speed, heading and flags. -/
def drive (m : PacketManager) (speed : UInt8) (heading : UInt16) (flags tid : UInt8) :
    Packet × PacketManager :=
  let data := [speed]
  let bytes := intToBytes heading.toNat 2
  let data := data ++ bytes
  let data := data ++ [flags]
  Commands.encode m driveDid 7 tid data

/-- `Drive::reset_aim`: the current direction of the robot becomes 0°. -/
def resetAim (m : PacketManager) (tid : UInt8) : Packet × PacketManager :=
  Commands.encode m driveDid 6 tid []

end Drive

namespace Sensor

/-- `SENSOR_DID`. -/
def sensorDid : UInt8 := 24

/-- `Sensor::set_locator_flags`. -/
def setLocatorFlags (m : PacketManager) (locatorFlags : Bool) (tid : UInt8) :
    Packet × PacketManager :=
  Commands.encode m sensorDid 23 tid [locatorFlags.toUInt8]

end Sensor

-- the class `IO`
namespace Io

/-- `IO_DID`. -/
def ioDid : UInt8 := 26

/-- `IO::fill_led_matrix`: two corners of a region, and its colour. -/
def fillLedMatrix (m : PacketManager) (x1 y1 x2 y2 : UInt8) (color : RGBColor) (tid : UInt8) :
    Packet × PacketManager :=
  Commands.encode m ioDid 62 tid [x1, y1, x2, y2, color.red, color.green, color.blue]

/-- `IO::set_led_matrix_color`: one colour for the whole matrix. -/
def setLedMatrixColor (m : PacketManager) (color : RGBColor) (tid : UInt8) :
    Packet × PacketManager :=
  Commands.encode m ioDid 47 tid [color.red, color.green, color.blue]

/-- `IO::set_led_matrix_pixel_color`: one pixel. -/
def setLedMatrixPixelColor (m : PacketManager) (x y : UInt8) (color : RGBColor) (tid : UInt8) :
    Packet × PacketManager :=
  Commands.encode m ioDid 45 tid [x, y, color.red, color.green, color.blue]

/-- `IO::set_all_leds_with_8_bit_mask`: the mask, and a value for each LED in it. -/
def setAllLedsWith8BitMask (m : PacketManager) (mask : UInt8) (ledValues : List UInt8)
    (tid : UInt8) : Packet × PacketManager :=
  let data := intToBytes mask.toNat 1
  let data := ledValues.foldl (fun data value => data ++ [value]) data
  Commands.encode m ioDid 28 tid data

/-- The loop over the values copies them. -/
theorem setAllLedsWith8BitMask_data (m : PacketManager) (mask : UInt8) (ledValues : List UInt8)
    (tid : UInt8) : (setAllLedsWith8BitMask m mask ledValues tid).1.data = mask :: ledValues := by
  unfold setAllLedsWith8BitMask
  rw [Commands.encode_data, Packet.foldl_push, intToBytes_one]
  rfl

/-- `IO::set_led_matrix_character`: the colour, and behind it the character. -/
def setLedMatrixCharacter (m : PacketManager) (str : UInt8) (color : RGBColor) (tid : UInt8) :
    Packet × PacketManager :=
  Commands.encode m ioDid 66 tid [color.red, color.green, color.blue, str]

/-- `IO::save_compressed_frame`: the index in two bytes, though it has one, and the frame. -/
def saveCompressedFrame (m : PacketManager) (index : UInt8) (frame : List UInt8) (tid : UInt8) :
    Packet × PacketManager :=
  let data := intToBytes index.toNat 2
  let data := frame.foldl (fun data value => data ++ [value]) data
  Commands.encode m ioDid 48 tid data

/-- The loop over the frame copies it. -/
theorem saveCompressedFrame_data (m : PacketManager) (index : UInt8) (frame : List UInt8)
    (tid : UInt8) : (saveCompressedFrame m index frame tid).1.data = 0 :: index :: frame := by
  unfold saveCompressedFrame
  rw [Commands.encode_data, Packet.foldl_push, intToBytes_byte]
  rfl

/-- `push_back(size())` keeps the low byte of the palette's size and `static_cast<uint16_t>` the
    low two of the number of frames. -/
def saveCompressedFrameAnimation (m : PacketManager) (animationId fps : UInt8)
    (fadeAnimation : Bool) (palette : List RGBColor) (frameIndexes : List UInt16) (tid : UInt8) :
    Packet × PacketManager :=
  let data := [animationId]
  let data := data ++ [fps % 31]
  let data := data ++ [fadeAnimation.toUInt8]
  let data := data ++ [UInt8.ofNat palette.length]
  let data := palette.foldl (fun data color =>
    data ++ [color.red] ++ [color.green] ++ [color.blue]) data
  let frameCount := UInt16.ofNat frameIndexes.length
  let data := data ++ [(frameCount >>> 8).toUInt8]
  let data := data ++ [(frameCount &&& 0xFF).toUInt8]
  let data := frameIndexes.foldl (fun data (index : UInt16) =>
    data ++ [(index >>> 8).toUInt8] ++ [(index &&& 0xFF).toUInt8]) data
  Commands.encode m ioDid 49 tid data

/-- `IO::play_animation`. -/
def playAnimation (m : PacketManager) (animationId : UInt8) (loop : Bool) (tid : UInt8) :
    Packet × PacketManager :=
  Commands.encode m ioDid 67 tid [animationId, loop.toUInt8]

/-- `IO::clear_matrix`: clears the matrix of animations. -/
def clearMatrix (m : PacketManager) (tid : UInt8) : Packet × PacketManager :=
  Commands.encode m ioDid 56 tid []

end Io

end NrfSpheros
