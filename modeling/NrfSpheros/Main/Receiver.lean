/-
  Receiving over the UART: the driver's events, `uart_cb`, the retry work and the main thread.

  1. `Receiver` — the code's state, with what the main thread has taken from the fifo; `step` is one
     event.  The host never sends more than the current buffer has room for (`Uart.rxBytes`).
  2. `Inbox` — what reception is for: the frames put on the fifo, the bytes of the one being
     received, and whether it has been asked to end.
  3. **Refinement** (`refines_step`, `refines_run`) — every run of the receiver is one of the inbox:
     no fault, and no byte lost, repeated or moved.  `step_bytes` and `step_disabled` are the
     converse for the driver's events: what it may do the receiver lets it do.
-/
import NrfSpheros.Main.Uart
import NrfSpheros.Theory.Run

namespace NrfSpheros

/-! ## The receiver -/

/-- One event of a reception. -/
inductive RxStep
  /-- The driver stores `run` in the receive buffer and reports it. -/
  | bytes (run : List UInt8)
  /-- The driver asks for the next buffer. -/
  | bufRequest (malloc : Malloc)
  /-- The driver has stopped: it releases its buffers and reports that it is disabled. -/
  | disabled (malloc : Malloc)
  /-- `uart_work` runs. -/
  | work (malloc : Malloc)
  /-- The main thread takes a frame from the fifo. -/
  | get
deriving DecidableEq

namespace Uart

/-- The driver fills its buffer consecutively and reports each run by `UART_RX_RDY`.  The host is assumed
    to send no frame that is longer than the buffer, and to wait for the next buffer after each: a run
    always fits in what is left.  With more bytes than that the driver would release the full buffer and
    go on in the next one by itself; there is no such step. -/
def rxBytes (u : Uart) (run : List UInt8) : Option (Except Fault Uart) :=
  match u.rxBuf with
  | none => none
  | some buf =>
    if h : run ≠ [] ∧ u.rxPos + run.length ≤ recieveBuffSize then
      some do
        let b ← u.deref buf
        let heap := u.heap.insert buf (b.write u.rxPos run h.2)
        { u with heap := heap, rxPos := u.rxPos + run.length }.uartCb none (.rxRdy buf run.length)
    else none

/-- The driver has one buffer and wants another. -/
def rxBufRequest (u : Uart) (malloc : Malloc) : Option (Except Fault Uart) :=
  match u.rxBuf, u.rxNext with
  | some _, none => some (u.uartCb malloc .rxBufRequest)
  | _, _ => none

/-- The driver gives its next buffer back, if it has one. -/
def rxReleaseNext (u : Uart) : Except Fault Uart :=
  match u.rxNext with
  | none => .ok u
  | some next => u.uartCb none (.rxBufReleased next)

/-- After `uart_rx_disable` the driver gives its buffers back and reports that it is off. -/
def rxDisabled (u : Uart) (malloc : Malloc) : Option (Except Fault Uart) :=
  match u.rxBuf, u.rxDisabling with
  | some buf, true => some do
    let u ← u.uartCb none (.rxBufReleased buf)
    let u ← u.rxReleaseNext
    { u with rxBuf := none, rxNext := none, rxDisabling := false }.uartCb malloc .rxDisabled
  | _, _ => none

end Uart

/-- The UART side, with the buffers the main thread has taken from the fifo. -/
structure Receiver where
  uart : Uart
  handled : List UartData

namespace Receiver

/-- The buffers put on the fifo so far. -/
def put (s : Receiver) : List UartData := s.handled ++ s.uart.rxFifo

/-- One event; a fault ends the program. -/
def step : Except Fault Receiver → RxStep → Option (Except Fault Receiver)
  | .error f, _ => some (.error f)
  | .ok s, .bytes run => (s.uart.rxBytes run).map fun r => r.map fun u => { s with uart := u }
  | .ok s, .bufRequest malloc =>
    (s.uart.rxBufRequest malloc).map fun r => r.map fun u => { s with uart := u }
  | .ok s, .disabled malloc =>
    (s.uart.rxDisabled malloc).map fun r => r.map fun u => { s with uart := u }
  | .ok s, .work malloc =>
    if s.uart.work then some (.ok { s with uart := s.uart.uartWorkHandler malloc }) else none
  | .ok s, .get =>
    match s.uart.rxFifo with
    | [] => none
    | b :: rest =>
      some (.ok { uart := { s.uart with rxFifo := rest }, handled := s.handled ++ [b] })

/-- After `uart_init`. -/
def init (data : Vector UInt8 recieveBuffSize) : Receiver := ⟨Uart.init data, []⟩

/-- The driver is on, has not been asked to stop, and its buffer is empty. -/
def Listening (s : Receiver) : Prop :=
  s.uart.rxDisabling = false ∧
    ∃ p b, s.uart.rxBuf = some p ∧ s.uart.heap.lookup p = some b ∧ b.len = 0

end Receiver

/-! ## The inbox -/

/-- Frames received, the bytes of the next one (`none` while there is no buffer), and whether it has
    been asked to end. -/
structure Inbox where
  frames : List (List UInt8)
  current : Option (List UInt8)
  ending : Bool
deriving DecidableEq

namespace Inbox

def step (r : Inbox) : RxStep → Option Inbox
  | .bytes run =>
    match r.current with
    | some got =>
      some { r with current := some (got ++ run), ending := r.ending || run.getLast? = some 0x0a }
    | none => none
  | .disabled malloc =>
    match r.current, r.ending with
    | some got, true => some ⟨r.frames ++ [got], malloc.map fun _ => [], false⟩
    | _, _ => none
  | .work malloc =>
    match r.current with
    | none => some { r with current := malloc.map fun _ => [] }
    | some _ => none
  | .bufRequest _ | .get => some r

end Inbox

/-! ## The receiver refines the inbox -/

namespace Uart

/-- The driver fills buffer `p`, which holds `b` so far. -/
structure Receiving (u : Uart) (p : BufPtr) (b : UartData) : Prop where
  buf : u.rxBuf = some p
  held : u.heap.lookup p = some b
  pos : u.rxPos = b.len.toNat
  fits : b.len.toNat ≤ recieveBuffSize
  idle : u.work = false
  next : ∀ {q}, u.rxNext = some q → q ≠ p ∧ ∃ b', u.heap.lookup q = some b' ∧ b'.len = 0
  started : u.rxDisabling = true → 0 < b.len

/-- There was no memory for a buffer: the driver is off until the work item finds some. -/
structure Starved (u : Uart) : Prop where
  buf : u.rxBuf = none
  next : u.rxNext = none
  disabling : u.rxDisabling = false
  work : u.work = true

/-- The driver's side of `current`. -/
def Holds (u : Uart) : Option (List UInt8) → Prop
  | none => u.Starved
  | some got => ∃ p b, u.Receiving p b ∧ b.contents = got

/-- Every block is older than the next one, and the callback's flag is the driver's. -/
structure Sound (u : Uart) : Prop where
  fresh : ∀ {p}, p ∈ u.heap → p < u.nextPtr
  flag : u.disableReq = u.rxDisabling

theorem Sound.lookup_nextPtr {u : Uart} (h : u.Sound) {p : BufPtr} {b : UartData}
    (hp : u.heap.lookup p = some b) : p ≠ u.nextPtr :=
  Nat.ne_of_lt (h.fresh (Finmap.mem_of_lookup_eq_some hp))

/-- The block `k_malloc` returns is new. -/
theorem Sound.insert_nextPtr {u : Uart} (h : u.Sound) (b : UartData) {p : BufPtr}
    (hp : p ∈ u.heap.insert u.nextPtr b) : p < u.nextPtr + 1 := by
  rcases Finmap.mem_insert.mp hp with rfl | hp
  · exact Nat.lt_succ_self _
  · exact Nat.lt_succ_of_lt (h.fresh hp)

theorem Sound.of_subset {u v : Uart} (h : u.Sound) (hheap : ∀ {p}, p ∈ v.heap → p ∈ u.heap)
    (hptr : v.nextPtr = u.nextPtr) (hflag : v.disableReq = v.rxDisabling) : v.Sound :=
  ⟨fun hp => by rw [hptr]; exact h.fresh (hheap hp), hflag⟩

@[simp] theorem rxFifo_uartWorkHandler (u : Uart) (malloc : Malloc) :
    (u.uartWorkHandler malloc).rxFifo = u.rxFifo := by
  cases malloc with
  | none => rfl
  | some data => cases hbuf : u.rxBuf <;> simp [uartWorkHandler, newBuffer, uartRxEnable, hbuf]

@[simp] theorem rxDisabling_uartWorkHandler (u : Uart) (malloc : Malloc) :
    (u.uartWorkHandler malloc).rxDisabling = u.rxDisabling := by
  cases malloc with
  | none => rfl
  | some data => cases hbuf : u.rxBuf <;> simp [uartWorkHandler, newBuffer, uartRxEnable, hbuf]

/-- The work item, run on a driver that is off. -/
theorem holds_workHandler {u : Uart} (hu : u.Sound) (hbuf : u.rxBuf = none)
    (hnext : u.rxNext = none) (hdis : u.rxDisabling = false) (malloc : Malloc) :
    (u.uartWorkHandler malloc).Sound ∧
      (u.uartWorkHandler malloc).Holds (malloc.map fun _ => []) := by
  obtain ⟨heap, nextPtr, abortedLen, abortedBuf, disableReq, rxFifo, txFifo, work, rxBuf, rxNext,
    rxPos, rxDisabling, tx⟩ := u
  obtain rfl : rxBuf = none := hbuf
  obtain rfl : rxNext = none := hnext
  obtain rfl : rxDisabling = false := hdis
  cases malloc with
  | none => exact ⟨⟨hu.fresh, hu.flag⟩, rfl, rfl, rfl, rfl⟩
  | some data =>
    refine ⟨⟨hu.insert_nextPtr ⟨data, 0⟩, hu.flag⟩, nextPtr, ⟨data, 0⟩, ?_,
      UartData.contents_of_len_zero rfl⟩
    exact {
      buf := rfl
      held := Finmap.lookup_insert _
      pos := rfl
      fits := Nat.zero_le _
      idle := rfl
      next := fun {q} h => absurd (show none = some q from h) (by simp)
      started := fun h => Bool.noConfusion (show false = true from h) }

/-- A run of bytes goes behind the contents; it asks the driver to stop if it ends on `\n`. -/
theorem rxBytes_of_receiving {u : Uart} {p : BufPtr} {b : UartData} {run : List UInt8}
    (hu : u.Sound) (hr : u.Receiving p b) (hrun : run ≠ [])
    (hfits : b.len.toNat + run.length ≤ recieveBuffSize) :
    u.rxBytes run =
      let ending := u.rxDisabling || run.getLast? = some 0x0a
      some (.ok { u with
        heap := u.heap.insert p (b.extend run hfits)
        rxPos := b.len.toNat + run.length
        disableReq := ending
        rxDisabling := ending }) := by
  have hroom : run ≠ [] ∧ b.len.toNat + run.length ≤ recieveBuffSize := ⟨hrun, hfits⟩
  simp only [rxBytes, hr.buf, hr.pos, dif_pos hroom, deref_of_lookup hr.held, bind, Except.bind]
  rw [uartCb_rxRdy none hrun hfits (Finmap.lookup_insert _)]
  simp only [Finmap.insert_insert, hu.flag, uartRxDisable]
  cases u.rxDisabling with
  | true => simp
  | false =>
    by_cases hend : run.getLast? = some 0x0a
    · simp [hend]
    · simp [hend]

theorem receiving_rxBytes {u : Uart} {p : BufPtr} {b : UartData} {run : List UInt8}
    {t : Except Fault Uart} (hu : u.Sound) (hr : u.Receiving p b) (ht : u.rxBytes run = some t) :
    ∃ v b', t = .ok v ∧ v.Sound ∧ v.Receiving p b' ∧ b'.contents = b.contents ++ run ∧
      v.rxFifo = u.rxFifo ∧ v.rxDisabling = (u.rxDisabling || run.getLast? = some 0x0a) := by
  -- the driver delivers a run only if there is room for it
  have hroom : run ≠ [] ∧ b.len.toNat + run.length ≤ recieveBuffSize := by
    by_contra hno
    simp only [rxBytes, hr.buf, hr.pos, dif_neg hno, reduceCtorEq] at ht
  obtain ⟨hrun, hfits⟩ := hroom
  rw [rxBytes_of_receiving hu hr hrun hfits] at ht
  obtain rfl := Option.some.inj ht
  refine ⟨_, b.extend run hfits, rfl, ⟨fun {q} hq => ?_, rfl⟩, ?_, UartData.contents_extend hfits,
    rfl, rfl⟩
  · rcases Finmap.mem_insert.mp hq with rfl | hq
    · exact hu.fresh (Finmap.mem_of_lookup_eq_some hr.held)
    · exact hu.fresh hq
  · exact {
      buf := hr.buf
      held := Finmap.lookup_insert _
      pos := (UartData.toNat_len_extend hfits).symm
      fits := by
        rw [UartData.toNat_len_extend]
        exact hfits
      idle := hr.idle
      next := fun {q} hq => by
        obtain ⟨hne, b', hb', hlen⟩ := hr.next hq
        exact ⟨hne, b', (Finmap.lookup_insert_of_ne _ hne).trans hb', hlen⟩
      started := fun _ => by
        rw [UInt16.lt_iff_toNat_lt, UartData.toNat_len_extend]
        have hpos := List.length_pos_iff.mpr hrun
        show 0 < b.len.toNat + run.length
        omega }

/-- The driver asks for a second buffer. -/
theorem receiving_rxBufRequest {u : Uart} {p : BufPtr} {b : UartData} {malloc : Malloc}
    {t : Except Fault Uart} (hu : u.Sound) (hr : u.Receiving p b)
    (ht : u.rxBufRequest malloc = some t) :
    ∃ v, t = .ok v ∧ v.Sound ∧ v.Receiving p b ∧ v.rxFifo = u.rxFifo ∧
      v.rxDisabling = u.rxDisabling := by
  obtain ⟨heap, nextPtr, abortedLen, abortedBuf, disableReq, rxFifo, txFifo, work, rxBuf, rxNext,
    rxPos, rxDisabling, tx⟩ := u
  obtain rfl : rxBuf = some p := hr.buf
  cases rxNext with
  | some _ => exact absurd ht (by simp [rxBufRequest])
  | none =>
    obtain rfl := Option.some.inj ht
    cases malloc with
    | none => exact ⟨_, rfl, hu, hr, rfl, rfl⟩
    | some data =>
      -- the new block is not the one that is being filled
      have hne := hu.lookup_nextPtr hr.held
      refine ⟨_, rfl, ⟨hu.insert_nextPtr ⟨data, 0⟩, hu.flag⟩, ?_, rfl, rfl⟩
      refine { hr with held := ?_, next := fun {q} hq => ?_ }
      · exact (Finmap.lookup_insert_of_ne _ hne).trans hr.held
      · obtain rfl : nextPtr = q := Option.some.inj hq
        exact ⟨hne.symm, ⟨data, 0⟩, Finmap.lookup_insert _, rfl⟩

/-- Releasing the next buffer only takes it from the heap: nothing was received in it. -/
theorem rxReleaseNext_eq {u : Uart}
    (h : ∀ {q}, u.rxNext = some q → ∃ b, u.heap.lookup q = some b ∧ b.len = 0) :
    ∃ heap : Finmap fun _ : BufPtr => UartData, (∀ {q}, q ∈ heap → q ∈ u.heap) ∧
      u.rxReleaseNext = .ok { u with heap := heap } := by
  rcases Option.eq_none_or_eq_some u.rxNext with hnext | ⟨q, hnext⟩
  · have hsame : u.rxReleaseNext = .ok u := by rw [rxReleaseNext, hnext]
    exact ⟨u.heap, fun hq => hq, hsame⟩
  · obtain ⟨b, hq, hlen⟩ := h hnext
    refine ⟨u.heap.erase q, fun hq => (Finmap.mem_erase.mp hq).2, ?_⟩
    simp only [rxReleaseNext, hnext, uartCb_rxBufReleased_empty none hq hlen]

/-- The driver stops: what was received goes on the fifo and reception starts again. -/
theorem receiving_rxDisabled {u : Uart} {p : BufPtr} {b : UartData} (malloc : Malloc)
    (hu : u.Sound) (hr : u.Receiving p b) (hdis : u.rxDisabling = true) :
    ∃ v, u.rxDisabled malloc = some (.ok v) ∧ v.Sound ∧ v.Holds (malloc.map fun _ => []) ∧
      v.rxFifo = u.rxFifo ++ [b] ∧ v.rxDisabling = false := by
  -- `u₁`: the buffer in use is released, and goes on the fifo with what it has
  obtain ⟨u₁, hu₁⟩ : ∃ u₁, u₁ = { u with heap := u.heap.erase p, rxFifo := u.rxFifo ++ [b] } :=
    ⟨_, rfl⟩
  have hreleased : u.uartCb none (.rxBufReleased p) = .ok u₁ := by
    rw [hu₁, uartCb_rxBufReleased none hr.held (hr.started hdis)]
  have hempty : ∀ {q}, u₁.rxNext = some q → ∃ b', u₁.heap.lookup q = some b' ∧ b'.len = 0 := by
    intro q hq
    rw [hu₁] at hq ⊢
    obtain ⟨hne, b', hq', hlen⟩ := hr.next hq
    exact ⟨b', (Finmap.lookup_erase_ne hne).trans hq', hlen⟩
  obtain ⟨heap, hsub, hnext⟩ := rxReleaseNext_eq hempty
  -- `v`: the second buffer is released too, and reception is off
  obtain ⟨v, hv⟩ : ∃ v : Uart, v = { u₁ with
      heap := heap, rxBuf := none, rxNext := none, disableReq := false, rxDisabling := false } :=
    ⟨_, rfl⟩
  have hsound : v.Sound := by
    rw [hv]
    refine hu.of_subset (fun hq => ?_) ?_ rfl
    · have hq := hsub hq
      rw [hu₁] at hq
      exact (Finmap.mem_erase.mp hq).2
    · rw [hu₁]
  obtain ⟨hs, hholds⟩ :=
    holds_workHandler hsound (by rw [hv]) (by rw [hv]) (by rw [hv]) malloc
  refine ⟨v.uartWorkHandler malloc, ?_, hs, hholds, ?_, ?_⟩
  · have hidle : u₁.work = false := by
      rw [hu₁]
      exact hr.idle
    simp only [rxDisabled, hr.buf, hdis, hreleased, hnext, bind, Except.bind, hv]
    rw [uartCb_rxDisabled]
    exact hidle
  · rw [rxFifo_uartWorkHandler, hv, hu₁]
  · rw [rxDisabling_uartWorkHandler, hv]

end Uart

namespace Receiver

open Uart

/-- The receiver, seen as an inbox. -/
structure Refines (s : Receiver) (r : Inbox) : Prop where
  frames : s.put.map UartData.contents = r.frames
  ending : s.uart.rxDisabling = r.ending
  sound : s.uart.Sound
  holds : s.uart.Holds r.current

/-- `uart_init` starts reception as the work item does on a driver that is off. -/
theorem refines_init (data : Vector UInt8 recieveBuffSize) :
    (init data).Refines ⟨[], some [], false⟩ := by
  obtain ⟨off, hoff⟩ : ∃ off : Uart,
      off = { Uart.init data with heap := ∅, nextPtr := 0, rxBuf := none } := ⟨_, rfl⟩
  have hsound : off.Sound := by
    rw [hoff]
    exact ⟨fun hp => absurd hp Finmap.notMem_empty, rfl⟩
  have hinit : Uart.init data = off.uartWorkHandler (some data) := by
    rw [hoff]
    rfl
  obtain ⟨hs, hholds⟩ :=
    holds_workHandler hsound (by rw [hoff]) (by rw [hoff]; rfl) (by rw [hoff]; rfl) (some data)
  rw [← hinit] at hs hholds
  exact ⟨rfl, rfl, hs, hholds⟩

/-- An event of the driver or the work item puts `added` on the fifo. -/
theorem refines_uart {s : Receiver} {r r' : Inbox} {v : Uart} {added : List UartData}
    (h : s.Refines r) (hfifo : v.rxFifo = s.uart.rxFifo ++ added)
    (hframes : r'.frames = r.frames ++ added.map UartData.contents)
    (hending : v.rxDisabling = r'.ending) (hsound : v.Sound) (hholds : v.Holds r'.current) :
    Refines ⟨v, s.handled⟩ r' ∧ s.put <+: put ⟨v, s.handled⟩ := by
  have hput : put ⟨v, s.handled⟩ = s.put ++ added := by
    rw [put, put, hfifo, List.append_assoc]
  refine ⟨⟨?_, hending, hsound, hholds⟩, ?_⟩
  · rw [hput, List.map_append, h.frames, hframes]
  · rw [hput]
    exact List.prefix_append _ _

/-- An event that puts nothing on the fifo. -/
theorem refines_uart_same {s : Receiver} {r r' : Inbox} {v : Uart} (h : s.Refines r)
    (hfifo : v.rxFifo = s.uart.rxFifo) (hframes : r'.frames = r.frames)
    (hending : v.rxDisabling = r'.ending) (hsound : v.Sound) (hholds : v.Holds r'.current) :
    Refines ⟨v, s.handled⟩ r' ∧ s.put <+: put ⟨v, s.handled⟩ := by
  refine refines_uart h (hfifo.trans (List.append_nil _).symm) ?_ hending hsound hholds
  rw [hframes, List.map_nil, List.append_nil]

/-- The main thread takes a frame from the fifo. -/
theorem refines_get {s : Receiver} {r : Inbox} {b : UartData} {rest : List UartData}
    (h : s.Refines r) (hfifo : s.uart.rxFifo = b :: rest) :
    Refines ⟨{ s.uart with rxFifo := rest }, s.handled ++ [b]⟩ r ∧
      s.put <+: put ⟨{ s.uart with rxFifo := rest }, s.handled ++ [b]⟩ := by
  have hput : s.put = (s.handled ++ [b]) ++ rest := by
    rw [put, hfifo, List.append_assoc]
    rfl
  have hholds : { s.uart with rxFifo := rest : Uart}.Holds r.current := by
    have hholds := h.holds
    cases hcurrent : r.current with
    | none =>
      rw [hcurrent] at hholds
      exact ⟨hholds.buf, hholds.next, hholds.disabling, hholds.work⟩
    | some got =>
      rw [hcurrent] at hholds
      obtain ⟨p, b', hr, hcontents⟩ := hholds
      exact ⟨p, b', { hr with }, hcontents⟩
  refine ⟨⟨?_, h.ending, ⟨h.sound.fresh, h.sound.flag⟩, hholds⟩, ?_⟩
  · rw [← h.frames, hput]
    rfl
  · rw [hput]
    exact List.prefix_rfl

/-- **One event.**  What the receiver does the inbox does, and the receiver does not fault. -/
theorem refines_step {s : Receiver} {r : Inbox} {e : RxStep} {t : Except Fault Receiver}
    (h : s.Refines r) (ht : step (.ok s) e = some t) :
    ∃ r', r.step e = some r' ∧ ∃ s', t = .ok s' ∧ s'.Refines r' ∧ s.put <+: s'.put := by
  obtain ⟨frames, current, ending⟩ := r
  have hsound := h.sound
  have hholds := h.holds
  have hending : s.uart.rxDisabling = ending := h.ending
  cases e with
  | bytes run =>
    obtain ⟨x, hx, rfl⟩ := Option.map_eq_some_iff.mp ht
    cases current with
    | none => exact absurd hx (by simp [rxBytes, Starved.buf hholds])
    | some got =>
      obtain ⟨p, b, hr, rfl⟩ := hholds
      obtain ⟨v, b', rfl, hv, hr', hcontents, hfifo, hdis⟩ := receiving_rxBytes hsound hr hx
      rw [hending] at hdis
      exact ⟨_, rfl, ⟨v, s.handled⟩, rfl,
        refines_uart_same h hfifo rfl hdis hv ⟨p, b', hr', hcontents⟩⟩
  | bufRequest malloc =>
    obtain ⟨x, hx, rfl⟩ := Option.map_eq_some_iff.mp ht
    cases current with
    | none => exact absurd hx (by simp [rxBufRequest, Starved.buf hholds])
    | some got =>
      obtain ⟨p, b, hr, rfl⟩ := hholds
      obtain ⟨v, rfl, hv, hr', hfifo, hdis⟩ := receiving_rxBufRequest hsound hr hx
      exact ⟨_, rfl, ⟨v, s.handled⟩, rfl,
        refines_uart_same h hfifo rfl (hdis.trans hending) hv ⟨p, b, hr', rfl⟩⟩
  | disabled malloc =>
    obtain ⟨x, hx, rfl⟩ := Option.map_eq_some_iff.mp ht
    cases current with
    | none => exact absurd hx (by simp [rxDisabled, Starved.buf hholds])
    | some got =>
      obtain ⟨p, b, hr, rfl⟩ := hholds
      -- the driver stops only when it was asked to
      have hdis : s.uart.rxDisabling = true := by
        by_contra hno
        rw [Bool.not_eq_true] at hno
        simp only [rxDisabled, hr.buf, hno, reduceCtorEq] at hx
      obtain ⟨v, hv, hsound', hholds', hfifo, hoff⟩ := receiving_rxDisabled malloc hsound hr hdis
      obtain rfl := Option.some.inj (hv.symm.trans hx)
      obtain rfl : ending = true := hending.symm.trans hdis
      exact ⟨_, rfl, ⟨v, s.handled⟩, rfl, refines_uart h hfifo rfl hoff hsound' hholds'⟩
  | work malloc =>
    have hwork : s.uart.work = true := by
      by_contra hno
      simp only [step, if_neg hno, reduceCtorEq] at ht
    rw [step, if_pos hwork] at ht
    obtain rfl := Option.some.inj ht
    cases current with
    | none =>
      obtain ⟨hbuf, hnext, hdis, -⟩ := hholds
      obtain ⟨hsound', hholds'⟩ := holds_workHandler hsound hbuf hnext hdis malloc
      have hfifo := rxFifo_uartWorkHandler s.uart malloc
      have hdis' := rxDisabling_uartWorkHandler s.uart malloc
      exact ⟨_, rfl, _, rfl,
        refines_uart_same h hfifo rfl (hdis'.trans hending) hsound' hholds'⟩
    | some got =>
      obtain ⟨p, b, hr, -⟩ := hholds
      -- the work item is pending only while reception is off
      exact absurd hr.idle (by simp [hwork])
  | get =>
    cases hfifo : s.uart.rxFifo with
    | nil => exact absurd ht (by simp [step, hfifo])
    | cons b rest =>
      simp only [step, hfifo, Option.some.injEq] at ht
      subst ht
      exact ⟨_, rfl, _, rfl, refines_get h hfifo⟩

/-- **Every run.**  It never faults, and the inbox makes the same run. -/
theorem refines_run {s : Receiver} {r : Inbox} {es : List RxStep} {t : Except Fault Receiver}
    (h : s.Refines r) (ht : Transition.run step (.ok s) es = some t) :
    ∃ r', Transition.run Inbox.step r es = some r' ∧
      ∃ s', t = .ok s' ∧ s'.Refines r' ∧ s.put <+: s'.put := by
  refine Transition.run_simulation
    (R := fun x r => ∃ s', x = .ok s' ∧ s'.Refines r ∧ s.put <+: s'.put) ?_
    ⟨s, rfl, h, List.prefix_rfl⟩ ht
  rintro x r e y ⟨x, rfl, hx, hput⟩ hy
  obtain ⟨r', hr', x', rfl, hx', hput'⟩ := refines_step hx hy
  exact ⟨r', hr', x', rfl, hx', hput.trans hput'⟩

/-- A reachable receiver is an inbox. -/
theorem refines_reachable {data : Vector UInt8 recieveBuffSize} {es : List RxStep} {s : Receiver}
    (h : Transition.run step (.ok (init data)) es = some (.ok s)) : ∃ r, s.Refines r := by
  obtain ⟨r, -, s', hs', hr, -⟩ := refines_run (refines_init data) h
  obtain rfl := Except.ok.inj hs'
  exact ⟨r, hr⟩

/-- While it listens the inbox is empty and has not been asked to end. -/
theorem refines_listening {s : Receiver} {r : Inbox} (h : s.Refines r) (hs : s.Listening) :
    r.current = some [] ∧ r.ending = false := by
  obtain ⟨hdis, p, b, hbuf, hheld, hlen⟩ := hs
  refine ⟨?_, h.ending.symm.trans hdis⟩
  have hholds := h.holds
  cases hcur : r.current with
  | none =>
    rw [hcur] at hholds
    exact absurd hbuf (by simp [Starved.buf hholds])
  | some got =>
    rw [hcur] at hholds
    obtain ⟨p', b', hr, rfl⟩ := hholds
    obtain rfl := Option.some.inj (hbuf.symm.trans hr.buf)
    obtain rfl := Option.some.inj (hheld.symm.trans hr.held)
    rw [UartData.contents_of_len_zero hlen]

/-- The driver can report a run that fits in the buffer. -/
theorem step_bytes {s : Receiver} {r : Inbox} {got run : List UInt8} (h : s.Refines r)
    (hgot : r.current = some got) (hrun : run ≠ [])
    (hfits : (got ++ run).length ≤ recieveBuffSize) :
    ∃ s', step (.ok s) (.bytes run) = some (.ok s') := by
  have hholds := h.holds
  rw [hgot] at hholds
  obtain ⟨p, b, hr, rfl⟩ := hholds
  rw [List.length_append, UartData.length_contents hr.fits] at hfits
  exact ⟨_, by rw [step, rxBytes_of_receiving h.sound hr hrun hfits]; rfl⟩

/-- The driver can stop when it was asked to. -/
theorem step_disabled {s : Receiver} {r : Inbox} {got : List UInt8} (h : s.Refines r)
    (hgot : r.current = some got) (hend : r.ending = true) (malloc : Malloc) :
    ∃ s', step (.ok s) (.disabled malloc) = some (.ok s') := by
  have hholds := h.holds
  rw [hgot] at hholds
  obtain ⟨p, b, hr, -⟩ := hholds
  obtain ⟨v, hv, -⟩ := receiving_rxDisabled malloc h.sound hr (h.ending.trans hend)
  exact ⟨_, by rw [step, hv]; rfl⟩

end Receiver

end NrfSpheros
