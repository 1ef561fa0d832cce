/-
  All the methods of a Sphero object, one after the other.

  1. **A script.**  What a method stands for: the commands, each with its processor.  Only the frames
     and the animations are numbered from one method to the next; a packet that arrives and a wait that
     ends are no commands.  A command that saves a frame has only the low byte of its number.
  2. **The orders** (`orders`) the methods stand for, each frame under its whole number.  The script asks
     for them as long as no more than 256 frames are registered (`order_script`).
  3. **One method** (`use_sends`) sends its part of the script, numbered on from where the object is.
  4. **The robot reads the script** (`methods_understood`) — over any run of the methods.
-/
import NrfSpheros.Sphero.LedMap
import NrfSpheros.Sphero.Matrix
import NrfSpheros.Sphero.Orders

namespace NrfSpheros

/-- A method of a Sphero object, with its arguments. -/
inductive Use
  | wake
  | wakeWithResponse
  | setLocatorFlags (locatorFlags : Bool)
  | setMatrixFill (x1 y1 x2 y2 : UInt8) (color : RGBColor)
  | setMatrixColor (color : RGBColor)
  | setMatrixPixelColor (x y : UInt8) (color : RGBColor)
  | setMatrixCharacter (str : UInt8) (color : RGBColor)
  | saveCompressedFrame (index : UInt8) (frame : List UInt8)
  | saveCompressedFrameWithResponse (index : UInt8) (frame : List UInt8)
  | saveCompressedFrameAnimation (fps : UInt8) (fadeAnimation : Bool) (palette : List RGBColor)
      (frameIndexes : List UInt16)
  | registerMatrixAnimation (a : Animation)
  | playAnimation (animationId : UInt8) (loop : Bool)
  | clearMatrix
  | setAllLedsWith8BitMask (mask : UInt8) (ledValues : List UInt8)
  | setAllLedsWithMap (mapping : Finmap fun _ : LEDs => UInt8)
  | turnOffAllLeds
  | drive (speed : UInt8) (heading : UInt16)
  | driveWithResponse (speed : UInt8) (heading : UInt16)
  | setHeading (heading : UInt16)
  | resetAim
  /-- A packet arrives. -/
  | handlePacket (packet : Packet)
  /-- A wait ends. -/
  | waitForResponse (response : SignalPtr)

/-- The lists of an animation are not longer than the fields for their lengths allow. -/
def Use.Fits : Use → Prop
  | .saveCompressedFrameAnimation _ _ palette frameIndexes =>
    palette.length ≤ 255 ∧ frameIndexes.length ≤ 65535
  | .registerMatrixAnimation a => a.palette.length ≤ 255 ∧ a.frames.length ≤ 65535
  | _ => True

namespace Sphero

/-- The object after a method, and the packets it sent. -/
def use (s : Sphero) : Use → Sphero × List Packet
  | .wake => (s.wake.1, [s.wake.2])
  | .wakeWithResponse => (s.wakeWithResponse.1, [s.wakeWithResponse.2.1])
  | .setLocatorFlags locatorFlags =>
    let r := s.setLocatorFlags locatorFlags
    (r.1, [r.2])
  | .setMatrixFill x1 y1 x2 y2 color =>
    let r := s.setMatrixFill x1 y1 x2 y2 color
    (r.1, [r.2])
  | .setMatrixColor color =>
    let r := s.setMatrixColor color
    (r.1, [r.2])
  | .setMatrixPixelColor x y color =>
    let r := s.setMatrixPixelColor x y color
    (r.1, [r.2])
  | .setMatrixCharacter str color =>
    let r := s.setMatrixCharacter str color
    (r.1, [r.2])
  | .saveCompressedFrame index frame =>
    let r := s.saveCompressedFrame index frame
    (r.1, [r.2])
  | .saveCompressedFrameWithResponse index frame =>
    let r := s.saveCompressedFrameWithResponse index frame
    (r.1, [r.2.1])
  | .saveCompressedFrameAnimation fps fadeAnimation palette frameIndexes =>
    let r := s.saveCompressedFrameAnimation fps fadeAnimation palette frameIndexes
    (r.1, [r.2])
  | .registerMatrixAnimation a => s.registerMatrixAnimation a
  | .playAnimation animationId loop =>
    let r := s.playAnimation animationId loop
    (r.1, [r.2])
  | .clearMatrix => (s.clearMatrix.1, [s.clearMatrix.2])
  | .setAllLedsWith8BitMask mask ledValues =>
    let r := s.setAllLedsWith8BitMask mask ledValues
    (r.1, [r.2])
  | .setAllLedsWithMap mapping => s.setAllLedsWithMap mapping
  | .turnOffAllLeds => s.turnOffAllLeds
  | .drive speed heading =>
    let r := s.drive speed heading
    (r.1, [r.2])
  | .driveWithResponse speed heading =>
    let r := s.driveWithResponse speed heading
    (r.1, [r.2.1])
  | .setHeading heading =>
    let r := s.setHeading heading
    (r.1, [r.2])
  | .resetAim => (s.resetAim.1, [s.resetAim.2])
  | .handlePacket packet => (s.handlePacket packet, [])
  | .waitForResponse response => ((s.waitForResponse response).1, [])

/-- The packets of methods one after the other. -/
def useAll (s : Sphero) : List Use → List Packet
  | [] => []
  | u :: us => (s.use u).2 ++ useAll (s.use u).1 us

end Sphero

/-! ## The script -/

/-- The numbers of the next frame and the next animation. -/
structure Numbers where
  frame : UInt16
  animation : UInt8
deriving DecidableEq, Repr

namespace Numbers

def start : Numbers := ⟨0, 0⟩

/-- Frames saved from a number on, each under the low byte of its number: `save_compressed_frame` takes a
    `uint8_t`. -/
def frameCommands (index : UInt16) : List Frame → List (Command × UInt8)
  | [] => []
  | frame :: frames =>
    (.saveCompressedFrame index.toUInt8 frame.compress, Processors.secondary.toByte) ::
      frameCommands (index + 1) frames

/-- Their numbers. -/
def frameIndexes (index : UInt16) : List Frame → List UInt16
  | [] => []
  | _ :: frames => index :: frameIndexes (index + 1) frames

/-- All LEDs off, and the matrix black. -/
def dark : List (Command × UInt8) :=
  [(.setAllLedsWith8BitMask 63 [0, 0, 0, 0, 0, 0], Processors.primary.toByte),
    (.setLedMatrixColor ⟨0, 0, 0⟩, Processors.secondary.toByte)]

/-- What a method stands for. -/
def commands (n : Numbers) : Use → List (Command × UInt8)
  | .wake | .wakeWithResponse => [(.wake, 0)]
  | .setLocatorFlags locatorFlags =>
    [(.setLocatorFlags locatorFlags, Processors.secondary.toByte)]
  | .setMatrixFill x1 y1 x2 y2 color =>
    [(.fillLedMatrix x1 y1 x2 y2 color, Processors.secondary.toByte)]
  | .setMatrixColor color => [(.setLedMatrixColor color, Processors.secondary.toByte)]
  | .setMatrixPixelColor x y color =>
    [(.setLedMatrixPixelColor x y color, Processors.secondary.toByte)]
  | .setMatrixCharacter str color =>
    [(.setLedMatrixCharacter str color, Processors.secondary.toByte)]
  | .saveCompressedFrame index frame | .saveCompressedFrameWithResponse index frame =>
    [(.saveCompressedFrame index frame, Processors.secondary.toByte)]
  | .saveCompressedFrameAnimation fps fadeAnimation palette frameIndexes =>
    [(.saveCompressedFrameAnimation n.animation fps fadeAnimation palette frameIndexes,
      Processors.secondary.toByte)]
  | .registerMatrixAnimation a =>
    frameCommands n.frame a.frames ++
      [(.saveCompressedFrameAnimation n.animation a.fps a.transition a.palette
        (frameIndexes n.frame a.frames), Processors.secondary.toByte)]
  | .playAnimation animationId loop =>
    [(.playAnimation animationId loop, Processors.secondary.toByte)]
  | .clearMatrix => [(.clearMatrix, Processors.secondary.toByte)]
  | .setAllLedsWith8BitMask mask ledValues =>
    [(.setAllLedsWith8BitMask mask ledValues, Processors.primary.toByte)]
  | .setAllLedsWithMap mapping =>
    if (Sphero.packed mapping).1 = 0 then []
    else [(.setAllLedsWith8BitMask (Sphero.packed mapping).1 (Sphero.packed mapping).2,
      Processors.primary.toByte)]
  | .turnOffAllLeds => dark
  | .drive speed heading | .driveWithResponse speed heading =>
    [(.drive speed heading Drive.forward, Processors.secondary.toByte)]
  | .setHeading heading => [(.drive 0 heading Drive.forward, Processors.secondary.toByte)]
  | .resetAim => [(.resetAim, Processors.secondary.toByte)]
  | .handlePacket _ | .waitForResponse _ => []

def next (n : Numbers) : Use → Numbers
  | .saveCompressedFrameAnimation _ _ _ _ => { n with animation := n.animation + 1 }
  | .registerMatrixAnimation a =>
    ⟨n.frame + UInt16.ofNat a.frames.length, n.animation + 1⟩
  | _ => n

/-- What methods stand for, one after the other. -/
def script (n : Numbers) : List Use → List (Command × UInt8)
  | [] => []
  | u :: us => n.commands u ++ (n.next u).script us

/-! ## The orders -/

/-- Frames to be saved from a number on, each under its number. -/
def frameOrders (index : UInt16) : List Frame → List Order
  | [] => []
  | frame :: frames => .saveFrame index frame.compress :: frameOrders (index + 1) frames

/-- The orders a method stands for. -/
def orders (n : Numbers) : Use → List Order
  | .registerMatrixAnimation a =>
    frameOrders n.frame a.frames ++
      [.saveAnimation ⟨n.animation, a.fps % 31, a.transition, a.palette,
        frameIndexes n.frame a.frames⟩]
  | u => (n.commands u).map fun call => call.1.order

/-- The orders of methods one after the other. -/
def ordersAll (n : Numbers) : List Use → List Order
  | [] => []
  | u :: us => n.orders u ++ (n.next u).ordersAll us

end Numbers

/-- The number of frames a method registers. -/
def Use.frameCount : Use → Nat
  | .registerMatrixAnimation a => a.frames.length
  | _ => 0

namespace Numbers

/-- A number below 256 is its low byte. -/
theorem order_frameCommands {index : UInt16} {frames : List Frame}
    (h : index.toNat + frames.length ≤ 256) :
    (frameCommands index frames).map (fun call => call.1.order) = frameOrders index frames := by
  induction frames generalizing index with
  | nil => rfl
  | cons frame frames ih =>
    rw [List.length_cons] at h
    have hbyte : index.toUInt8.toUInt16 = index := by
      rw [← UInt16.toNat_inj, UInt8.toNat_toUInt16, UInt16.toNat_toUInt8]
      omega
    have hnext : (index + 1).toNat = index.toNat + 1 := by
      rw [UInt16.toNat_add]
      show (index.toNat + 1) % 65536 = index.toNat + 1
      omega
    rw [frameCommands, List.map_cons, ih (by omega), frameOrders]
    show Order.saveFrame index.toUInt8.toUInt16 frame.compress :: _ = _
    rw [hbyte]

/-- The commands of a method ask for its orders, while the numbers last. -/
theorem order_commands {n : Numbers} {u : Use} (h : n.frame.toNat + u.frameCount ≤ 256) :
    (n.commands u).map (fun call => call.1.order) = n.orders u := by
  cases u with
  | registerMatrixAnimation a =>
    rw [commands, List.map_append, order_frameCommands h]
    rfl
  | _ => rfl

theorem toNat_frame_next {n : Numbers} {u : Use} (h : n.frame.toNat + u.frameCount ≤ 256) :
    (n.next u).frame.toNat = n.frame.toNat + u.frameCount := by
  cases u with
  | registerMatrixAnimation a =>
    have hfew : n.frame.toNat + a.frames.length ≤ 256 := h
    show (n.frame + UInt16.ofNat a.frames.length).toNat = n.frame.toNat + a.frames.length
    rw [UInt16.toNat_add, UInt16.toNat_ofNat']
    omega
  | _ => rfl

/-- **The script asks for the orders**, while the numbers last. -/
theorem order_script {n : Numbers} {uses : List Use}
    (h : n.frame.toNat + (uses.map Use.frameCount).sum ≤ 256) :
    (n.script uses).map (fun call => call.1.order) = n.ordersAll uses := by
  induction uses generalizing n with
  | nil => rfl
  | cons u us ih =>
    rw [List.map_cons, List.sum_cons] at h
    have hu : n.frame.toNat + u.frameCount ≤ 256 := by omega
    have hus : (n.next u).frame.toNat + (us.map Use.frameCount).sum ≤ 256 := by
      rw [toNat_frame_next hu]
      omega
    rw [script, List.map_append, order_commands hu, ih hus, ordersAll]

end Numbers

namespace Command

/-- The packet manager after calls. -/
def managerAfter (m : PacketManager) (calls : List (Command × UInt8)) : PacketManager :=
  calls.foldl (fun m call => (call.1.encode m call.2).2) m

theorem encodeAll_append (m : PacketManager) (xs ys : List (Command × UInt8)) :
    encodeAll m (xs ++ ys) = encodeAll m xs ++ encodeAll (managerAfter m xs) ys := by
  induction xs generalizing m with
  | nil => rfl
  | cons call xs ih =>
    rw [List.cons_append, encodeAll, encodeAll, ih]
    rfl

theorem managerAfter_append (m : PacketManager) (xs ys : List (Command × UInt8)) :
    managerAfter m (xs ++ ys) = managerAfter (managerAfter m xs) ys := List.foldl_append

/-- The packets are numbered in their order, modulo 255. -/
theorem seq_encodeAll {m : PacketManager} {n : Nat} (h : m.seq.toNat = n % 255)
    (calls : List (Command × UInt8)) :
    (encodeAll m calls).map (fun p => p.seq.toNat) =
      (List.range' n calls.length).map fun k => k % 255 := by
  induction calls generalizing m n with
  | nil => rfl
  | cons call calls ih =>
    have hseq : (call.1.encode m call.2).1.seq = m.seq := by cases call.1 <;> rfl
    have hnext : (call.1.encode m call.2).2.seq.toNat = (n + 1) % 255 := by
      cases call.1 <;> exact Commands.encode_next h _ _ _ _
    rw [encodeAll, List.map_cons, List.length_cons, List.range'_succ, List.map_cons, hseq, h, ih hnext]

end Command

namespace Sphero

/-! ## One method -/

/-- The object's numbers. -/
structure Counts (s : Sphero) (n : Numbers) : Prop where
  frame : s.frameIndex = n.frame
  animation : s.animationIndex = n.animation

/-- What a method did: it sent its commands, and the object counts on. -/
structure Sends (s : Sphero) (n : Numbers) (calls : List (Command × UInt8))
    (r : Sphero × List Packet) : Prop where
  sent : r.2 = Command.encodeAll s.packetManager calls
  manager : r.1.packetManager = Command.managerAfter s.packetManager calls
  counts : r.1.Counts n

theorem counts_handlePacket {s : Sphero} {n : Numbers} (h : s.Counts n) (q : Packet) :
    (s.handlePacket q).Counts n := by
  cases hw : s.waiting.lookup q.id with
  | none =>
    rw [handlePacket_of_lookup_none hw]
    exact h
  | some σ =>
    rw [handlePacket_of_lookup hw]
    exact ⟨h.frame, h.animation⟩

theorem counts_waitForResponse {s : Sphero} {n : Numbers} (h : s.Counts n) (σ : SignalPtr) :
    (s.waitForResponse σ).1.Counts n := by
  rcases s.waitForResponse_cases σ with heq | ⟨res, -, -, heq⟩
  · rw [heq]
    exact h
  · rw [heq]
    exact ⟨h.frame, h.animation⟩

/-- The loop over the frames: it goes on from where it is. -/
theorem sends_foldl (frames : List Frame) {st : Saving} {n : Numbers} (h : st.sphero.Counts n) :
    let t := frames.foldl saveFrame st
    t.sent = st.sent ++ Command.encodeAll st.sphero.packetManager (Numbers.frameCommands n.frame frames) ∧
      t.sphero.packetManager =
        Command.managerAfter st.sphero.packetManager (Numbers.frameCommands n.frame frames) ∧
      t.frameIndexes = st.frameIndexes ++ Numbers.frameIndexes n.frame frames ∧
      t.sphero.Counts { n with frame := n.frame + UInt16.ofNat frames.length } := by
  induction frames generalizing st n with
  | nil =>
    refine ⟨(List.append_nil _).symm, rfl, (List.append_nil _).symm, ?_, h.animation⟩
    show st.sphero.frameIndex = n.frame + 0
    rw [UInt16.add_zero, h.frame]
  | cons frame frames ih =>
    have hnext : (saveFrame st frame).sphero.Counts { n with frame := n.frame + 1 } :=
      ⟨congrArg (· + 1) h.frame, h.animation⟩
    obtain ⟨hsent, hmanager, hindexes, hcounts⟩ := ih hnext
    -- one frame: what it sends, and what it leaves the loop with
    have hone : (saveFrame st frame).sent = st.sent ++ [((Command.saveCompressedFrame
        n.frame.toUInt8 frame.compress).encode st.sphero.packetManager
          Processors.secondary.toByte).1] := by
      rw [← h.frame]
      rfl
    have hpacket : (saveFrame st frame).sphero.packetManager = ((Command.saveCompressedFrame
        n.frame.toUInt8 frame.compress).encode st.sphero.packetManager
          Processors.secondary.toByte).2 := by
      rw [← h.frame]
      rfl
    have hindex : (saveFrame st frame).frameIndexes = st.frameIndexes ++ [n.frame] := by
      rw [← h.frame]
      rfl
    rw [hone, hpacket] at hsent
    rw [hpacket] at hmanager
    rw [hindex] at hindexes
    refine ⟨?_, hmanager, ?_, ?_, hcounts.animation⟩
    · rw [List.foldl_cons, hsent, List.append_assoc]
      rfl
    · rw [List.foldl_cons, hindexes, List.append_assoc]
      rfl
    · rw [List.foldl_cons, hcounts.frame, List.length_cons]
      show n.frame + 1 + UInt16.ofNat frames.length = _
      rw [UInt16.ofNat_add, UInt16.add_assoc, UInt16.add_comm 1]
      rfl

theorem turnOffAllLeds_eq (s : Sphero) : s.turnOffAllLeds =
    ({ s with packetManager := Command.managerAfter s.packetManager Numbers.dark },
      Command.encodeAll s.packetManager Numbers.dark) := by
  have hpacked : LEDs.all.foldl (mapLed darkMapping) (0, []) = (63, [0, 0, 0, 0, 0, 0]) := by decide
  have hmask : (63 : UInt8) ≠ 0 := by decide
  simp only [turnOffAllLeds, setAllLedsWithMap, hpacked, if_pos hmask]
  rfl

/-- **One method.** -/
theorem use_sends {s : Sphero} {n : Numbers} (h : s.Counts n) (u : Use) :
    Sends s (n.next u) (n.commands u) (s.use u) := by
  cases u with
  | saveCompressedFrameAnimation fps fadeAnimation palette frameIndexes =>
    have hcall : n.commands (.saveCompressedFrameAnimation fps fadeAnimation palette frameIndexes) =
        [(.saveCompressedFrameAnimation s.animationIndex fps fadeAnimation palette frameIndexes,
          Processors.secondary.toByte)] := by
      rw [h.animation]
      rfl
    rw [hcall]
    exact ⟨rfl, rfl, h.frame, congrArg (· + 1) h.animation⟩
  | registerMatrixAnimation a =>
    have hloop := @sends_foldl a.frames ⟨s, [], []⟩ n h
    rw [List.nil_append, List.nil_append] at hloop
    obtain ⟨hsent, hmanager, hindexes, hcounts⟩ := hloop
    -- the packet with the numbers of the frames
    have hlast : (s.saving a).sphero.saveCompressedFrameAnimation a.fps a.transition a.palette
        (s.saving a).frameIndexes = (s.saving a).sphero.saveCompressedFrameAnimation a.fps
          a.transition a.palette (Numbers.frameIndexes n.frame a.frames) :=
      congrArg ((s.saving a).sphero.saveCompressedFrameAnimation a.fps a.transition a.palette) hindexes
    have hcall : n.commands (.registerMatrixAnimation a) = Numbers.frameCommands n.frame a.frames ++
        [(.saveCompressedFrameAnimation (s.saving a).sphero.animationIndex a.fps a.transition
          a.palette (Numbers.frameIndexes n.frame a.frames), Processors.secondary.toByte)] := by
      rw [show (s.saving a).sphero.animationIndex = n.animation from hcounts.animation]
      rfl
    have hr : s.use (.registerMatrixAnimation a) =
        (((s.saving a).sphero.saveCompressedFrameAnimation a.fps a.transition a.palette
            (Numbers.frameIndexes n.frame a.frames)).1,
          (s.saving a).sent ++ [((s.saving a).sphero.saveCompressedFrameAnimation a.fps a.transition
            a.palette (Numbers.frameIndexes n.frame a.frames)).2]) := by
      rw [← hlast]
      rfl
    rw [hr, hcall]
    refine ⟨?_, ?_, hcounts.frame, congrArg (· + 1) hcounts.animation⟩
    · rw [Command.encodeAll_append, ← hmanager, ← hsent]
      rfl
    · rw [Command.managerAfter_append, ← hmanager]
      rfl
  | setAllLedsWithMap mapping =>
    show Sends s n (if (packed mapping).1 = 0 then [] else _) (s.setAllLedsWithMap mapping)
    by_cases hmask : (packed mapping).1 = 0
    · have hnone : s.setAllLedsWithMap mapping = (s, []) := if_neg (not_not_intro hmask)
      rw [if_pos hmask, hnone]
      exact ⟨rfl, rfl, h⟩
    · have hone : s.setAllLedsWithMap mapping =
          ((s.setAllLedsWith8BitMask (packed mapping).1 (packed mapping).2).1,
            [(s.setAllLedsWith8BitMask (packed mapping).1 (packed mapping).2).2]) := if_pos hmask
      rw [if_neg hmask, hone]
      exact ⟨rfl, rfl, h.frame, h.animation⟩
  | turnOffAllLeds =>
    show Sends s n Numbers.dark s.turnOffAllLeds
    rw [turnOffAllLeds_eq]
    exact ⟨rfl, rfl, h.frame, h.animation⟩
  | handlePacket packet => exact ⟨rfl, handlePacket_packetManager s packet, counts_handlePacket h packet⟩
  | waitForResponse response =>
    exact ⟨rfl, waitForResponse_packetManager s response, counts_waitForResponse h response⟩
  | _ => exact ⟨rfl, rfl, h.frame, h.animation⟩

/-! ## A run of methods -/

theorem useAll_eq {s : Sphero} {n : Numbers} (h : s.Counts n) (uses : List Use) :
    s.useAll uses = Command.encodeAll s.packetManager (n.script uses) := by
  induction uses generalizing s n with
  | nil => rfl
  | cons u us ih =>
    obtain ⟨hsent, hmanager, hcounts⟩ := use_sends h u
    rw [useAll, Numbers.script, Command.encodeAll_append, hsent, ih hcounts, hmanager]

end Sphero

namespace Numbers

theorem length_frameIndexes (index : UInt16) (frames : List Frame) :
    (frameIndexes index frames).length = frames.length := by
  induction frames generalizing index with
  | nil => rfl
  | cons frame frames ih => rw [frameIndexes, List.length_cons, ih, List.length_cons]

theorem fits_frameCommands {index : UInt16} {frames : List Frame} {call : Command × UInt8}
    (h : call ∈ frameCommands index frames) : call.1.Fits := by
  induction frames generalizing index with
  | nil => exact absurd h List.not_mem_nil
  | cons frame frames ih =>
    rcases List.mem_cons.mp h with rfl | h
    · trivial
    · exact ih h

/-- A method that fits stands for commands that fit. -/
theorem fits_commands {u : Use} (h : u.Fits) (n : Numbers) {call : Command × UInt8}
    (hcall : call ∈ n.commands u) : call.1.Fits := by
  cases u with
  | saveCompressedFrameAnimation fps fadeAnimation palette frameIndexes =>
    rw [List.mem_singleton.mp hcall]
    exact h
  | registerMatrixAnimation a =>
    rcases List.mem_append.mp hcall with hcall | hcall
    · exact fits_frameCommands hcall
    · rw [List.mem_singleton.mp hcall]
      refine ⟨h.1, ?_⟩
      rw [length_frameIndexes]
      exact h.2
  | setAllLedsWithMap mapping =>
    simp only [commands] at hcall
    split at hcall
    · exact absurd hcall List.not_mem_nil
    · rw [List.mem_singleton.mp hcall]
      trivial
  | turnOffAllLeds =>
    rcases List.mem_cons.mp hcall with rfl | hcall
    · trivial
    · rw [List.mem_singleton.mp hcall]
      trivial
  | handlePacket | waitForResponse => exact absurd hcall List.not_mem_nil
  | _ =>
    rw [List.mem_singleton.mp hcall]
    trivial

theorem fits_script {uses : List Use} (h : ∀ u ∈ uses, u.Fits) (n : Numbers) :
    ∀ call ∈ n.script uses, call.1.Fits := by
  induction uses generalizing n with
  | nil => exact fun call hcall => absurd hcall List.not_mem_nil
  | cons u us ih =>
    obtain ⟨hu, hus⟩ := List.forall_mem_cons.mp h
    intro call hcall
    rcases List.mem_append.mp hcall with hcall | hcall
    · exact fits_commands hu n hcall
    · exact ih hus _ call hcall

end Numbers

namespace Sphero

/-- **The robot reads the script.**  The methods of one object are called in any order, with packets
    arriving and waits ending in between, and what they send goes as one stream, cut anyhow.  Who
    collects it reads what the commands of the methods ask for, in their order and nothing else, and
    finds the packets numbered one by one, modulo 255.  If no more than 256 frames are registered, these
    are the orders the methods stand for, each frame under its number. -/
theorem methods_understood (id : UInt8) {uses : List Use} (hfits : ∀ u ∈ uses, u.Fits)
    {chunks : List Chunk}
    (hs : stream chunks = (((create id).useAll uses).map Packet.build).flatten) :
    (callbacks (PacketCollector.session PacketCollector.new chunks).out).map Order.read =
        (Numbers.start.script uses).map (fun call => some call.1.order) ∧
      (callbacks (PacketCollector.session PacketCollector.new chunks).out).map (fun p => p.seq.toNat) =
        (List.range (Numbers.start.script uses).length).map (fun k => k % 255) ∧
      ((uses.map Use.frameCount).sum ≤ 256 →
        (callbacks (PacketCollector.session PacketCollector.new chunks).out).map Order.read =
          (Numbers.start.ordersAll uses).map some) := by
  have hcounts : (create id).Counts Numbers.start := ⟨rfl, rfl⟩
  rw [PacketCollector.callbacks_stream hs, useAll_eq hcounts, Command.norm_encodeAll]
  have hread := Command.read_encodeAll (create id).packetManager
    (Numbers.fits_script hfits Numbers.start)
  refine ⟨hread, ?_, fun hfew => ?_⟩
  · rw [List.range_eq_range']
    exact Command.seq_encodeAll rfl _
  · have hstart : Numbers.start.frame.toNat + (uses.map Use.frameCount).sum ≤ 256 := by
      show 0 + (uses.map Use.frameCount).sum ≤ 256
      omega
    rw [hread, ← Numbers.order_script hstart, List.map_map]
    rfl

/-- A robot is woken, its answer arrives, it turns and shows a frame. -/
def morning : List Use :=
  [.wakeWithResponse, .handlePacket PacketCollector.wakePacket, .waitForResponse 0, .setHeading 90,
    .registerMatrixAnimation ⟨[Frame.diagonals], [⟨255, 0, 0⟩], 40, true⟩, .playAnimation 0 true]

theorem fits_morning : ∀ u ∈ morning, u.Fits := by
  refine List.forall_mem_cons.mpr ⟨trivial, List.forall_mem_cons.mpr ⟨trivial,
    List.forall_mem_cons.mpr ⟨trivial, List.forall_mem_cons.mpr ⟨trivial, List.forall_mem_cons.mpr ⟨?_,
      List.forall_mem_singleton.mpr trivial⟩⟩⟩⟩⟩
  exact ⟨by decide, by decide⟩

theorem methods_understood_morning :
    let sent := (((create 0).useAll morning).map Packet.build).flatten
    let packets := callbacks (PacketCollector.session PacketCollector.new
      [⟨sent.take 30, by decide⟩, ⟨sent.drop 30, by decide⟩]).out
    packets.map Order.read = [some .wake, some (.drive 0 90 0),
        some (.saveFrame 0 Frame.diagonals.compress),
        some (.saveAnimation ⟨0, 9, true, [⟨255, 0, 0⟩], [0]⟩), some (.playAnimation 0 true)] ∧
      packets.map (fun p => p.seq.toNat) = [0, 1, 2, 3, 4] := by
  intro sent packets
  have hmorning := @methods_understood 0 morning fits_morning
    [⟨sent.take 30, by decide⟩, ⟨sent.drop 30, by decide⟩] (by decide)
  exact ⟨hmorning.2.2 (by decide), hmorning.2.1⟩

end Sphero

end NrfSpheros
