/-
  `main.cpp`, the UART side: the buffers, `uart_cb`, and the driver it talks to.

  The callback and the driver share the buffers by pointer, so the buffers are a heap.  `k_malloc`
  answers with a block and what was in it, or with null.  A buffer put on `fifo_uart_rx_data` belongs to
  the main thread from then on: it leaves the heap, and the fifo holds it as it is.

  The driver's own state is what its functions and its events refer to: the receive buffer and how far
  it is filled, the next one, whether it was asked to stop, and the transmission in progress.
-/
import Mathlib.Data.Finmap
import NrfSpheros.Controls.Packet

namespace NrfSpheros

/-- `RECIEVE_BUFF_SIZE`. -/
abbrev recieveBuffSize : Nat := 93

/-- `struct uart_data_t`. -/
structure UartData where
  data : Vector UInt8 recieveBuffSize
  len : UInt16
deriving DecidableEq

namespace UartData

/-- The first `len` bytes. -/
def contents (b : UartData) : List UInt8 := b.data.toList.take b.len.toNat

/-- The driver writes `run` from `pos` on. -/
def write (b : UartData) (pos : Nat) (run : List UInt8) (h : pos + run.length ≤ recieveBuffSize) :
    UartData :=
  { b with
    data := ⟨(b.data.toList.take pos ++ run ++ b.data.toList.drop (pos + run.length)).toArray, by
      rw [List.size_toArray, List.length_append, List.length_append, List.length_take,
        List.length_drop, Vector.length_toList]
      omega⟩ }

/-- `data[len - 1]`. -/
def lastByte (b : UartData) : Except Fault UInt8 :=
  match b.len.toNat with
  | 0 => .error .outOfBounds
  | last + 1 => if h : last < recieveBuffSize then .ok b.data[last] else .error .outOfBounds

theorem length_contents {b : UartData} (h : b.len.toNat ≤ recieveBuffSize) :
    b.contents.length = b.len.toNat := by
  rw [contents, List.length_take, Vector.length_toList]
  omega

theorem contents_of_len_zero {b : UartData} (h : b.len = 0) : b.contents = [] := by
  rw [contents, h]
  exact List.take_zero

/-- `data[len - 1]` is the last byte of the contents. -/
theorem lastByte_of_contents {b : UartData} {bytes : List UInt8} {c : UInt8}
    (h : b.len.toNat ≤ recieveBuffSize) (hb : b.contents = bytes ++ [c]) : b.lastByte = .ok c := by
  have hlen : b.len.toNat = bytes.length + 1 := by
    rw [← length_contents h, hb, List.length_append, List.length_singleton]
  have hbound : bytes.length < recieveBuffSize := by omega
  have hget : b.data[bytes.length] = c := by
    have hsome : b.contents[bytes.length]? = some c := by
      rw [hb, List.getElem?_concat_length]
    rw [contents, hlen, List.getElem?_take_of_lt (Nat.lt_succ_self _),
      List.getElem?_eq_getElem (by rw [Vector.length_toList]; exact hbound), Option.some.injEq,
      Vector.getElem_toList] at hsome
    exact hsome
  simp only [lastByte, hlen, dif_pos hbound, hget]

/-- The driver has written `run` behind the contents, and the length counts it. -/
def extend (b : UartData) (run : List UInt8) (h : b.len.toNat + run.length ≤ recieveBuffSize) :
    UartData :=
  { b.write b.len.toNat run h with len := b.len + UInt16.ofNat run.length }

section extend

variable {b : UartData} {run : List UInt8} (h : b.len.toNat + run.length ≤ recieveBuffSize)

theorem toNat_len_extend : (b.extend run h).len.toNat = b.len.toNat + run.length := by
  show (b.len + UInt16.ofNat run.length).toNat = b.len.toNat + run.length
  rw [UInt16.toNat_add, UInt16.toNat_ofNat']
  simp only [recieveBuffSize] at h
  omega

theorem contents_extend : (b.extend run h).contents = b.contents ++ run := by
  have hlen : (b.contents ++ run).length = b.len.toNat + run.length := by
    rw [List.length_append, length_contents (by omega)]
  rw [contents, toNat_len_extend]
  show (b.contents ++ run ++ b.data.toList.drop (b.len.toNat + run.length)).take
    (b.len.toNat + run.length) = b.contents ++ run
  rw [← hlen, List.take_left]

theorem lastByte_extend {c : UInt8} (hc : run.getLast? = some c) :
    (b.extend run h).lastByte = .ok c := by
  obtain ⟨before, rfl⟩ := List.getLast?_eq_some_iff.mp hc
  have hlast : (b.extend (before ++ [c]) h).contents = b.contents ++ before ++ [c] := by
    rw [contents_extend, List.append_assoc]
  refine lastByte_of_contents ?_ hlast
  rw [toNat_len_extend]
  exact h

end extend

end UartData

/-- The address of a buffer. -/
abbrev BufPtr := Nat

/-- A pointer into a buffer's `data`. -/
structure DataPtr where
  buf : BufPtr
  offset : Nat
deriving DecidableEq, Repr

/-- A transmission the driver is making. -/
structure Transmission where
  start : DataPtr
  len : Nat
deriving DecidableEq, Repr

/-- The answer of `k_malloc`: what was in the block. -/
abbrev Malloc := Option (Vector UInt8 recieveBuffSize)

structure Uart where
  heap : Finmap fun _ : BufPtr => UartData
  /-- The next block `k_malloc` returns. -/
  nextPtr : BufPtr
  abortedLen : Nat
  abortedBuf : Option DataPtr
  disableReq : Bool
  /-- `fifo_uart_rx_data`. -/
  rxFifo : List UartData
  /-- `fifo_uart_tx_data`. -/
  txFifo : List BufPtr
  /-- `uart_work` is scheduled. -/
  work : Bool
  rxBuf : Option BufPtr
  rxNext : Option BufPtr
  rxPos : Nat
  rxDisabling : Bool
  tx : Option Transmission

inductive UartEvent
  | txDone (buf : Option DataPtr) (len : Nat)
  | rxRdy (buf : BufPtr) (len : Nat)
  | rxDisabled
  | rxBufRequest
  | rxBufReleased (buf : BufPtr)
  | txAborted (buf : DataPtr) (len : Nat)

namespace Uart

/-! ## The driver's functions -/

/-- `uart_rx_enable`: busy if reception is on. -/
def uartRxEnable (u : Uart) (buf : BufPtr) : Uart :=
  match u.rxBuf with
  | some _ => u
  | none => { u with rxBuf := some buf, rxPos := 0 }

/-- `uart_rx_disable`: the request; the driver reports its completion by events. -/
def uartRxDisable (u : Uart) : Uart :=
  match u.rxBuf with
  | some _ => { u with rxDisabling := true }
  | none => u

/-- `uart_rx_buf_rsp`. -/
def uartRxBufRsp (u : Uart) (buf : BufPtr) : Uart :=
  match u.rxNext with
  | some _ => u
  | none => { u with rxNext := some buf }

/-- `uart_tx`, and whether it succeeded: busy while a transmission is in progress. -/
def uartTx (u : Uart) (start : DataPtr) (len : Nat) : Bool × Uart :=
  match u.tx with
  | some _ => (false, u)
  | none => (true, { u with tx := some ⟨start, len⟩ })

/-! ## The callback -/

/-- `k_malloc` and, if it succeeds, `buf->len = 0`. -/
def newBuffer (u : Uart) (malloc : Malloc) : Option (BufPtr × Uart) :=
  malloc.map fun data =>
    (u.nextPtr, { u with heap := u.heap.insert u.nextPtr ⟨data, 0⟩, nextPtr := u.nextPtr + 1 })

/-- `CONTAINER_OF(ptr, struct uart_data_t, data)`, meaningful for a pointer to the start of `data`. -/
def containerOf (ptr : DataPtr) : Except Fault BufPtr :=
  if ptr.offset = 0 then .ok ptr.buf else .error .outOfBounds

/-- A buffer the callback dereferences. -/
def deref (u : Uart) (buf : BufPtr) : Except Fault UartData :=
  match u.heap.lookup buf with
  | some b => .ok b
  | none => .error .outOfBounds

def uartCb (u : Uart) (malloc : Malloc) : UartEvent → Except Fault Uart
  | .txDone none _ => .ok u
  | .txDone (some ptr) len =>
    if len = 0 then .ok u
    else do
      let buf ← containerOf (u.abortedBuf.getD ptr)
      let u := if u.abortedBuf.isSome then { u with abortedBuf := none, abortedLen := 0 } else u
      let _ ← u.deref buf
      let u := { u with heap := u.heap.erase buf }
      match u.txFifo with
      | [] => .ok u
      | buf :: rest =>
        let u := { u with txFifo := rest }
        let b ← u.deref buf
        .ok (u.uartTx ⟨buf, 0⟩ b.len.toNat).2
  | .rxRdy buf len => do
    let b ← u.deref buf
    let b := { b with len := b.len + UInt16.ofNat len }
    let u := { u with heap := u.heap.insert buf b }
    if u.disableReq then .ok u
    else do
      if (← b.lastByte) = 0x0a then .ok { u with disableReq := true }.uartRxDisable else .ok u
  | .rxDisabled =>
    let u := { u with disableReq := false }
    match u.newBuffer malloc with
    | some (buf, u) => .ok (u.uartRxEnable buf)
    | none => .ok { u with work := true }
  | .rxBufRequest =>
    match u.newBuffer malloc with
    | some (buf, u) => .ok (u.uartRxBufRsp buf)
    | none => .ok u
  | .rxBufReleased buf => do
    let b ← u.deref buf
    let u := { u with heap := u.heap.erase buf }
    if 0 < b.len then .ok { u with rxFifo := u.rxFifo ++ [b] } else .ok u
  | .txAborted ptr len => do
    let aborted := u.abortedBuf.getD ptr
    let u := { u with abortedBuf := some aborted, abortedLen := u.abortedLen + len }
    let buf ← containerOf aborted
    let b ← u.deref buf
    -- the difference is taken in `size_t`
    let rest := (b.len.toNat + 2 ^ 32 - u.abortedLen) % 2 ^ 32
    .ok (u.uartTx ⟨buf, u.abortedLen⟩ rest).2

def uartWorkHandler (u : Uart) (malloc : Malloc) : Uart :=
  let u := { u with work := false }
  match u.newBuffer malloc with
  | some (buf, u) => u.uartRxEnable buf
  | none => { u with work := true }

/-- After `uart_init`: one empty buffer, enabled; `data` is what was in the block. -/
def init (data : Vector UInt8 recieveBuffSize) : Uart where
  heap := Finmap.singleton 0 ⟨data, 0⟩
  nextPtr := 1
  abortedLen := 0
  abortedBuf := none
  disableReq := false
  rxFifo := []
  txFifo := []
  work := false
  rxBuf := some 0
  rxNext := none
  rxPos := 0
  rxDisabling := false
  tx := none

/-! ## What the reception events do -/

@[simp] theorem deref_of_lookup {u : Uart} {p : BufPtr} {b : UartData}
    (h : u.heap.lookup p = some b) : u.deref p = .ok b := by
  rw [deref, h]

/-- `UART_RX_RDY`: the length grows, and the first run to end on `\n` asks the driver to stop. -/
theorem uartCb_rxRdy {u : Uart} {p : BufPtr} {b : UartData} {run : List UInt8} (malloc : Malloc)
    (hrun : run ≠ []) (h : b.len.toNat + run.length ≤ recieveBuffSize)
    (hp : u.heap.lookup p = some (b.write b.len.toNat run h)) :
    u.uartCb malloc (.rxRdy p run.length) =
      let u := { u with heap := u.heap.insert p (b.extend run h) }
      .ok (if u.disableReq = false ∧ run.getLast? = some 0x0a
        then { u with disableReq := true }.uartRxDisable else u) := by
  obtain ⟨c, hc⟩ := Option.isSome_iff_exists.mp (List.getLast?_isSome.mpr hrun)
  have hlast := UartData.lastByte_extend h hc
  have hextend : (⟨(b.write b.len.toNat run h).data, (b.write b.len.toNat run h).len +
      UInt16.ofNat run.length⟩ : UartData) = b.extend run h := rfl
  simp only [uartCb, deref_of_lookup hp, bind, Except.bind, hextend, hc, Option.some.injEq]
  cases u.disableReq with
  | true => simp
  | false =>
    by_cases hend : c = 0x0a
    · simp [hlast, hend]
    · simp [hlast, hend]

/-- `UART_RX_BUF_RELEASED` for a buffer that received something. -/
theorem uartCb_rxBufReleased {u : Uart} {p : BufPtr} {b : UartData} (malloc : Malloc)
    (hp : u.heap.lookup p = some b) (hlen : 0 < b.len) :
    u.uartCb malloc (.rxBufReleased p) =
      .ok { u with heap := u.heap.erase p, rxFifo := u.rxFifo ++ [b] } := by
  simp only [uartCb, deref_of_lookup hp, bind, Except.bind, if_pos hlen]

/-- `UART_RX_BUF_RELEASED` for an empty buffer. -/
theorem uartCb_rxBufReleased_empty {u : Uart} {p : BufPtr} {b : UartData} (malloc : Malloc)
    (hp : u.heap.lookup p = some b) (hlen : b.len = 0) :
    u.uartCb malloc (.rxBufReleased p) = .ok { u with heap := u.heap.erase p } := by
  have hnot : ¬ 0 < b.len := by
    rw [hlen]
    decide
  simp only [uartCb, deref_of_lookup hp, bind, Except.bind, if_neg hnot]

/-- `UART_RX_DISABLED` does what the work item does. -/
theorem uartCb_rxDisabled {u : Uart} (malloc : Malloc) (hwork : u.work = false) :
    u.uartCb malloc .rxDisabled = .ok ({ u with disableReq := false }.uartWorkHandler malloc) := by
  obtain ⟨heap, nextPtr, abortedLen, abortedBuf, disableReq, rxFifo, txFifo, work⟩ := u
  obtain rfl : work = false := hwork
  cases malloc with
  | none => rfl
  | some data => rfl

/-! ## What the transmission events do -/

section transmission

variable {u : Uart} {ptr : DataPtr} {p : BufPtr} {b : UartData} (malloc : Malloc)
  (hfirst : u.abortedBuf.getD ptr = ⟨p, 0⟩) (hp : u.heap.lookup p = some b)

include hfirst hp

/-- `UART_TX_ABORTED` goes on where the driver left off; the pointer of the first abort is kept. -/
theorem uartCb_txAborted (htx : u.tx = none) {k : Nat} (hk : u.abortedLen + k ≤ b.len.toNat) :
    u.uartCb malloc (.txAborted ptr k) = .ok { u with
      abortedBuf := some ⟨p, 0⟩
      abortedLen := u.abortedLen + k
      tx := some ⟨⟨p, u.abortedLen + k⟩, b.len.toNat - (u.abortedLen + k)⟩ } := by
  have hrest : (b.len.toNat + 2 ^ 32 - (u.abortedLen + k)) % 2 ^ 32 =
      b.len.toNat - (u.abortedLen + k) := by
    have hlen := b.len.toNat_lt
    omega
  simp only [uartCb, hfirst, containerOf, if_true, bind, Except.bind, deref, hp, uartTx, htx, hrest]

variable (hclear : u.abortedBuf = none → u.abortedLen = 0) {n : Nat} (hn : n ≠ 0)

include hclear hn

/-- `UART_TX_DONE` up to the fifo: the buffer is freed, and no abort is remembered. -/
theorem uartCb_txDone : u.uartCb malloc (.txDone (some ptr) n) =
    let u := { u with abortedBuf := none, abortedLen := 0, heap := u.heap.erase p }
    match u.txFifo with
    | [] => .ok u
    | buf :: rest =>
      let u := { u with txFifo := rest }
      (u.deref buf).bind fun b => .ok (u.uartTx ⟨buf, 0⟩ b.len.toNat).2 := by
  have hforget : (if u.abortedBuf.isSome then { u with abortedBuf := none, abortedLen := 0 } else u) =
      { u with abortedBuf := none, abortedLen := 0 } := by
    cases hb : u.abortedBuf with
    | none =>
      obtain ⟨heap, nextPtr, abortedLen, abortedBuf⟩ := u
      obtain rfl : abortedBuf = none := hb
      obtain rfl : abortedLen = 0 := hclear rfl
      rfl
    | some aborted => rfl
  simp only [uartCb, if_neg hn, hfirst, containerOf, if_true, bind, Except.bind, hforget, deref, hp]

/-- `UART_TX_DONE` with nothing on the fifo. -/
theorem uartCb_txDone_nil (hfifo : u.txFifo = []) :
    u.uartCb malloc (.txDone (some ptr) n) = .ok { u with
      abortedBuf := none
      abortedLen := 0
      heap := u.heap.erase p } := by
  rw [uartCb_txDone malloc hfirst hp hclear hn]
  simp only [hfifo]

/-- `UART_TX_DONE` goes on with the first buffer of the fifo. -/
theorem uartCb_txDone_cons {q : BufPtr} {rest : List BufPtr} {c : UartData} (htx : u.tx = none)
    (hfifo : u.txFifo = q :: rest) (hne : q ≠ p) (hq : u.heap.lookup q = some c) :
    u.uartCb malloc (.txDone (some ptr) n) = .ok { u with
      abortedBuf := none
      abortedLen := 0
      heap := u.heap.erase p
      txFifo := rest
      tx := some ⟨⟨q, 0⟩, c.len.toNat⟩ } := by
  have hlookup : (u.heap.erase p).lookup q = some c := (Finmap.lookup_erase_ne hne).trans hq
  rw [uartCb_txDone malloc hfirst hp hclear hn]
  simp only [hfifo, deref, hlookup, Except.bind, uartTx, htx]

end transmission

end Uart

end NrfSpheros
