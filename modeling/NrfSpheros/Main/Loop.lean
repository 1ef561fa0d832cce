/-
  `main.cpp`, the main loop: UART frames in, commands to the Spheros out.

  A frame is handled in a state, with exceptions for accesses out of bounds.  The state keeps the
  globals of `main.cpp` and, as ghosts, what the handlers do: the packets they send, with the index of
  the Sphero, the indexes of the frame they read, and the responses they give.

  While `wait_for_response` blocks, the Sphero's packets arrive; they are an argument of the frame.
-/
import NrfSpheros.Main.Uart
import NrfSpheros.Sphero.Commands
import NrfSpheros.Theory.Ends

namespace NrfSpheros

/-- A buffer from `fifo_uart_rx_data`: it is not empty and not longer than its array. -/
structure RxFrame where
  rx : UartData
  pos : 0 < rx.len.toNat
  le : rx.len.toNat ≤ recieveBuffSize

/-- `enum class States`. -/
inductive States
  | IDLE
  | MATCH
  | SET_COLORS
deriving DecidableEq, Repr

/-- The globals, and as ghosts what the handlers do. -/
structure Main where
  state : States
  matching : UInt8
  matchingIndex : UInt8
  spheros : List Sphero
  /-- The packets handed to `execute`, with the index of the Sphero. -/
  sent : List (Nat × Packet)
  /-- The indexes of the current frame that the handlers have read. -/
  reads : List Nat
  /-- The data of the `send_response` calls. -/
  responses : List (List UInt8)

namespace Main

/-- The globals when the main loop starts. -/
def start (spheros : List Sphero) : Main where
  state := .IDLE
  matching := 0
  matchingIndex := 0
  spheros := spheros
  sent := []
  reads := []
  responses := []

/-- A handler. -/
abbrev Exec := StateT Main (Except Fault)

/-- `rx->data[i]`. -/
def byte (rx : UartData) (i : Nat) : Exec UInt8 := do
  modify fun s => { s with reads := s.reads ++ [i] }
  if h : i < recieveBuffSize then pure rx.data[i] else throw .outOfBounds

/-- `(*spheros)[i]`. -/
def sphero (i : Nat) : Exec Sphero := do
  let s ← get
  match s.spheros[i]? with
  | some sphero => pure sphero
  | none => throw .outOfBounds

/-- A method of Sphero `i`, with the packets it hands to `execute`. -/
def call (i : Nat) (method : Sphero → Sphero × List Packet) : Exec Unit := do
  let r := method (← sphero i)
  modify fun s => { s with
    spheros := s.spheros.set i r.1
    sent := s.sent ++ r.2.map fun packet => (i, packet) }

/-- A method that sends one packet. -/
def one (r : Sphero × Packet) : Sphero × List Packet := (r.1, [r.2])

/-- `send_response`. -/
def sendResponse (data : List UInt8) : Exec Unit :=
  modify fun s => { s with responses := s.responses ++ [data] }

/-- `validate_uart_packet`. -/
def validateUartPacket (rx : UartData) : Except Fault Bool :=
  if rx.data[0] ≠ 0x8d then .ok false
  else
    match rx.len.toNat with
    | 0 => .error .outOfBounds
    | last + 1 => if h : last < recieveBuffSize then .ok (rx.data[last] = 0x0a) else .error .outOfBounds

/-- `uint8ToState`: any other value is idle. -/
def uint8ToState (value : UInt8) : States :=
  if value = 0 then .IDLE else if value = 1 then .MATCH else if value = 2 then .SET_COLORS else .IDLE

/-- `handle_idle_state`. -/
def handleIdleState (rx : UartData) : Exec Unit := do
  if rx.len ≠ 4 then pure ()
  else if (← byte rx 1) ≠ 0x01 then pure ()
  else
    let value ← byte rx 2
    modify fun s => { s with state := uint8ToState value }

/-- An initializer list of `set_all_leds_with_map`. -/
def ledMap (entries : List (LEDs × UInt8)) : Finmap fun _ : LEDs => UInt8 :=
  (entries.map fun e => (⟨e.1, e.2⟩ : Sigma fun _ : LEDs => UInt8)).toFinmap

/-- `drive_with_response(0, heading)` and the wait, during which `arrivals` come.  `wait_for_response`
    returns what an erased iterator points to, an undefined read; the handler does not look at the result,
    and it is left out. -/
def turn (heading : UInt16) (arrivals : List Packet) (sphero : Sphero) : Sphero × List Packet :=
  let r := sphero.driveWithResponse 0 heading
  let sphero := arrivals.foldl Sphero.handlePacket r.1
  ((sphero.waitForResponse r.2.2).1, [r.2.1])

/-- The big-endian `(rx->data[i] << 8) | rx->data[i + 1]`. -/
def heading (high low : UInt8) : UInt16 := (high.toUInt16 <<< 8) ||| low.toUInt16

/-- The `switch` over the match command; `sphero` was fetched with the index `i`. -/
def matchCommand (rx : UartData) (arrivals : List Packet) (i : Nat) (command : UInt8) :
    Exec Unit := do
  if command = 0x01 then
    modify fun s => { s with matchingIndex := s.matchingIndex + 1 }
    call i fun s => s.setAllLedsWithMap (ledMap [(.frontBlue, 0), (.backBlue, 0)])
  else if command = 0x02 then
    call i fun s => one s.resetAim
    call i fun s => s.setAllLedsWithMap (ledMap [(.frontBlue, 255)])
  else if command = 0x03 then
    call i fun s => s.setAllLedsWithMap (ledMap [(.frontBlue, 0), (.backBlue, 255)])
  else if command = 0x04 then
    let high ← byte rx 2
    let low ← byte rx 3
    call i (turn (heading high low) arrivals)
    call i fun s => one s.resetAim

/-- `handle_match_state`. -/
def handleMatchState (rx : UartData) (arrivals : List Packet) : Exec Unit := do
  let s ← get
  -- the guard reads `matching`, the access `matching_index`
  if s.spheros.length ≤ s.matching.toNat then pure ()
  else if rx.len < 3 then pure ()
  else
    let i := s.matchingIndex.toNat
    let _ ← sphero i
    matchCommand rx arrivals i (← byte rx 1)

/-- `handle_color_state`: the colours first, and then the speeds and headings. -/
def handleColorState (rx : UartData) : Exec Unit := do
  let n := (← get).spheros.length
  if rx.len.toNat ≠ 3 + 6 * n then pure ()
  else if (← byte rx 1) ≠ 0x01 then pure ()
  else
    (List.range n).forM fun i => do
      let red ← byte rx (i * 3 + 2)
      let green ← byte rx (i * 3 + 1 + 2)
      let blue ← byte rx (i * 3 + 2 + 2)
      call i fun s => one (s.setMatrixColor ⟨red, green, blue⟩)
    let offset := 2 + 3 * n
    (List.range n).forM fun i => do
      let speed ← byte rx (offset + i * 3)
      let high ← byte rx (offset + i * 3 + 1)
      let low ← byte rx (offset + i * 3 + 2)
      call i fun s => one (s.drive speed (heading high low))

/-- `reset`: all Spheros dark, and the state idle; `matching` is left as it is. -/
def reset : Exec Unit := do
  (List.range (← get).spheros.length).forM fun i => do
    call i fun s => one s.clearMatrix
    call i fun s => one (s.setMatrixColor ⟨0, 0, 0⟩)
    call i fun s => s.setAllLedsWithMap (ledMap [(.frontBlue, 0), (.backBlue, 0)])
  modify fun s => { s with matchingIndex := 0, state := .IDLE }

/-- The `switch` over the state. -/
def dispatch (rx : UartData) (arrivals : List Packet) : Exec Unit := do
  match (← get).state with
  | .IDLE =>
    handleIdleState rx
    let s ← get
    if s.state = .SET_COLORS then
      (List.range s.spheros.length).forM fun i => call i fun s => one (s.setMatrixColor ⟨255, 255, 255⟩)
  | .MATCH => handleMatchState rx arrivals
  | .SET_COLORS => handleColorState rx

/-- One turn of the main loop. -/
def handleFrame (rx : UartData) (arrivals : List Packet) : Exec Unit := do
  modify fun s => { s with reads := [] }
  if (← validateUartPacket rx) then
    if (← byte rx 1) = 0x00 then reset else dispatch rx arrivals
    sendResponse [0xFF]

end Main

end NrfSpheros
