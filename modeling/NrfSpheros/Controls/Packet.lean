/-
  `controls/packet.cpp`: the Sphero BLE packet, its encoder `build` and its parser
  `parse_response`, statement by statement.

  Packet protocol v2 on the wire:

      [SOP, FLAGS, TID (optional), SID (optional), DID, CID, SEQ, ERR (at response), DATA..., CHK, EOP]

  with every byte between SOP and EOP stuffed.

  * A `std::vector<unsigned char>` is a `List UInt8`.  Its operations that have a precondition
    (`v[i]`, `pop_back`, `erase`) are the fallible `vecAt`, `vecPopBack`, `vecErase`: C++ leaves
    their failure undefined, and so does the model — they end in `Fault.outOfBounds`, which is
    no exception and cannot be caught.
  * `PacketFlags` and `PacketError` are enumerations with a fixed underlying type: a
    `static_cast` may give them any byte, so they are wrapped bytes with named constants.
  * Logging is left out.
-/
import Mathlib.Control.Monad.Basic
import Mathlib.Data.List.Basic

namespace NrfSpheros

/-! ## Faults and vectors -/

/-- How a call can fail to return. -/
inductive Fault
  /-- `throw std::runtime_error(msg)`. -/
  | runtimeError (msg : String)
  /-- A read, `pop_back` or `erase` outside the vector: undefined behaviour. -/
  | outOfBounds
deriving DecidableEq, Repr

/-- `v[i]`. -/
def vecAt (v : List UInt8) (i : Nat) : Except Fault UInt8 :=
  match v[i]? with
  | some b => .ok b
  | none => .error .outOfBounds

/-- `v.pop_back()`. -/
def vecPopBack (v : List UInt8) : Except Fault (List UInt8) :=
  if v = [] then .error .outOfBounds else .ok v.dropLast

/-- `v.erase(v.begin(), v.begin() + n)`. -/
def vecErase (v : List UInt8) (n : Nat) : Except Fault (List UInt8) :=
  if v.length < n then .error .outOfBounds else .ok (v.drop n)

/-! ## Flags, errors, encoding -/

/-- Bit-flags that modify the behaviour of the packet. -/
structure PacketFlags where
  bits : UInt8
deriving DecidableEq, Repr

namespace PacketFlags

/-- No flag. -/
def none : PacketFlags := ⟨0b0⟩
/-- The packet answers another one, and has an error byte. -/
def isResponse : PacketFlags := ⟨0b1⟩
/-- The packet asks for an answer. -/
def requestsResponse : PacketFlags := ⟨0b10⟩
/-- The packet counts as activity. -/
def isActivity : PacketFlags := ⟨0b1000⟩
/-- The packet has a target id. -/
def hasTargetId : PacketFlags := ⟨0b10000⟩
/-- The packet has a source id. -/
def hasSourceId : PacketFlags := ⟨0b100000⟩

/-- `operator&`. -/
instance : AndOp PacketFlags := ⟨fun lhs rhs => ⟨lhs.bits &&& rhs.bits⟩⟩

/-- `operator|`. -/
instance : OrOp PacketFlags := ⟨fun lhs rhs => ⟨lhs.bits ||| rhs.bits⟩⟩

/-- `(flags & flag) != PacketFlags::none`. -/
def has (flags flag : PacketFlags) : Bool := (flags &&& flag) != none

end PacketFlags

/-- The error byte of a response. -/
structure PacketError where
  code : UInt8
deriving DecidableEq, Repr

namespace PacketError

/-- The command was executed. -/
def success : PacketError := ⟨0x00⟩

end PacketError

namespace PacketEncoding

/-- Stands before the code of a special byte. -/
def escape : UInt8 := 0xAB
/-- SOP. -/
def start : UInt8 := 0x8D
/-- EOP. -/
def end_ : UInt8 := 0xD8
/-- The code of `escape`. -/
def escapedEscape : UInt8 := 0x23
/-- The code of `start`. -/
def escapedStart : UInt8 := 0x05
/-- The code of `end_`. -/
def escapedEnd : UInt8 := 0x50

end PacketEncoding

/-! ## The packet -/

/-- A Sphero BLE packet. -/
structure Packet where
  flags : PacketFlags
  /-- Device ID: command group of the command being sent. -/
  did : UInt8
  /-- Command ID: the command to execute. -/
  cid : UInt8
  /-- Sequence number: the token used to link commands with responses. -/
  seq : UInt8
  /-- Target ID. -/
  tid : UInt8
  /-- Source ID. -/
  sid : UInt8
  err : PacketError
  data : List UInt8
deriving DecidableEq, Repr

/-- `std::accumulate(payload.begin(), payload.end(), 0)`.  The source sums in an `int`; only the
    low byte of the sum is used. -/
def accumulate (payload : List UInt8) : Nat := payload.foldl (fun acc b => acc + b.toNat) 0

/-- `packet_chk`: what is missing to `0xFF` in the low byte of the sum. -/
def packetChk (payload : List UInt8) : UInt8 := UInt8.ofNat (0xff - (accumulate payload &&& 0xff))

namespace Packet

open PacketFlags PacketEncoding

/-- The local `packet` of `build` before the checksum is pushed. -/
def content (p : Packet) : List UInt8 :=
  let packet := [p.flags.bits]
  let packet := if p.flags.has hasTargetId then packet ++ [p.tid] else packet
  let packet := if p.flags.has hasSourceId then packet ++ [p.sid] else packet
  let packet := packet ++ [p.did]
  let packet := packet ++ [p.cid]
  let packet := packet ++ [p.seq]
  let packet := if p.flags.has isResponse then packet ++ [p.err.code] else packet
  if p.data.length > 0 then packet ++ p.data else packet

/-- One round of the escaping loop of `build`. -/
def escapeByte (byte : UInt8) : List UInt8 :=
  if byte = start then [escape, escapedStart]
  else if byte = end_ then [escape, escapedEnd]
  else if byte = escape then [escape, escapedEscape]
  else [byte]

/-- `Packet::build`: the content and its checksum, escaped between the delimiters. -/
def build (p : Packet) : List UInt8 :=
  let packet := p.content
  let packet := packet ++ [packetChk packet]
  let escapedPacket := packet.foldl (fun escaped byte => escaped ++ escapeByte byte) [start]
  escapedPacket ++ [end_]

/-- The loop of `unescape_data`, from the accumulated `unescaped_data` and the bytes still to
    read.  A bad escape returns the empty vector, whatever has been accumulated. -/
def unescapeLoop (unescaped : List UInt8) : List UInt8 → Except Fault (List UInt8)
  | [] => .ok unescaped
  | [b] =>
    -- `data[i + 1]` is one past the end
    if b = escape then .error .outOfBounds else .ok (unescaped ++ [b])
  | b :: c :: rest =>
    if b = escape then
      if c = escapedStart then unescapeLoop (unescaped ++ [start]) rest
      else if c = escapedEnd then unescapeLoop (unescaped ++ [end_]) rest
      else if c = escapedEscape then unescapeLoop (unescaped ++ [escape]) rest
      else .ok []
    else unescapeLoop (unescaped ++ [b]) (c :: rest)

/-- `unescape_data`. -/
def unescapeData (data : List UInt8) : Except Fault (List UInt8) := unescapeLoop [] data

/-- `parse_response` after the checksum test: the header fields are read and erased one after the
    other, and what is left is the data. -/
def readFields (unescaped : List UInt8) : Except Fault Packet := do
  let flags : PacketFlags := ⟨← vecAt unescaped 0⟩
  let unescaped ← vecErase unescaped 1
  let (tid, unescaped) ←
    if flags.has hasTargetId then do pure (← vecAt unescaped 0, ← vecErase unescaped 1)
    else pure (0, unescaped)
  let (sid, unescaped) ←
    if flags.has hasSourceId then do pure (← vecAt unescaped 0, ← vecErase unescaped 1)
    else pure (0, unescaped)
  let did ← vecAt unescaped 0
  let cid ← vecAt unescaped 1
  let seq ← vecAt unescaped 2
  let (err, unescaped) ←
    if flags.has isResponse then do
      pure ((⟨← vecAt unescaped 3⟩ : PacketError), ← vecErase unescaped 1)
    else pure (PacketError.success, unescaped)
  let unescaped ← vecErase unescaped 3
  return { flags, did, cid, seq, tid, sid, err, data := unescaped }

/-- `Packet::parse_response`: the delimiters go, the bytes are unescaped, the checksum is compared, and
    the fields are read. -/
def parseResponse (data : List UInt8) : Except Fault Packet := do
  if data = [] then throw (.runtimeError "Empty data")
  let sop ← vecAt data 0
  let eop ← vecAt data (data.length - 1)
  let data ← vecErase data 1
  let data ← vecPopBack data
  if sop ≠ start then throw (.runtimeError "Invalid start of packet")
  if eop ≠ end_ then throw (.runtimeError "Invalid end of packet")
  let unescaped ← unescapeData data
  let checksum ← vecAt unescaped (unescaped.length - 1)
  let unescaped ← vecPopBack unescaped
  if checksum ≠ packetChk unescaped then throw (.runtimeError "Invalid checksum")
  readFields unescaped

/-- Computes an id for the packet. -/
def id (p : Packet) : UInt32 :=
  (p.did.toUInt32 <<< 16) ||| (p.cid.toUInt32 <<< 8) ||| p.seq.toUInt32

end Packet

end NrfSpheros
