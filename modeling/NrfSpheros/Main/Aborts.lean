/-
  Transmissions that the driver aborts, and `UART_TX_ABORTED` takes up again.

  1. `Transmitter` — the code's state, with where the main thread stands in `send_response` and, as
     ghosts, what the buffers were filled with, what the driver has sent from each, and whose
     transmission is done.  A transmission of `r` bytes may be aborted after any `k < r` of them, any
     number of times, before it is done, and both threads move in any order.
  2. **Who has a buffer** (`Owned`) — each is done, or being transmitted, or on the fifo, or in the hand
     of the main thread; it is freed when it is done, and not touched before.
  3. **Where a transmission stands** (`Resumes`) — `aborted_len` is the number of bytes already sent of
     the buffer, `aborted_buf` its address once there was an abort, and the driver has the rest.
  4. **Every run** (`resumes_exactly`) — of each buffer a part was sent, from the first byte on, or all
     of it and the buffer is freed.

  The responder of `Main.Transmit` is a transmitter whose driver aborts nothing (`exists_transmitter`).
  A response here may have any bytes and any length, not only those that `send_response` gives it.
-/
import Mathlib.Algebra.GroupWithZero.Nat
import NrfSpheros.Main.Transmit

namespace NrfSpheros

namespace UartData

/-- The `n` bytes from `offset` on. -/
def slice (b : UartData) (offset n : Nat) : List UInt8 := (b.data.toList.drop offset).take n

/-- The contents in two parts. -/
theorem take_contents {b : UartData} {offset n : Nat} (h : offset + n ≤ b.len.toNat) :
    b.contents.take offset ++ b.slice offset n = b.contents.take (offset + n) := by
  rw [contents, List.take_take, List.take_take, Nat.min_eq_left (Nat.le_of_add_right_le h),
    Nat.min_eq_left h, slice, List.take_add]

theorem take_len (b : UartData) : b.contents.take b.len.toNat = b.contents := by
  rw [contents, List.take_take, Nat.min_self]

end UartData

/-! ## The transmitter -/

/-- The UART, with where the main thread stands in `send_response` and what was sent. -/
structure Transmitter where
  uart : Uart
  sending : Sending
  /-- What `send_response` filled the buffers with. -/
  responses : Finmap fun _ : BufPtr => UartData
  /-- What the driver has sent from a buffer. -/
  sent : BufPtr → List UInt8
  /-- The buffers whose transmission is done. -/
  done : List BufPtr

/-- A step of the main thread, or the interrupt. -/
inductive TransmitterStep
  /-- `send_response` is called and fills its buffer. -/
  | fill (b : UartData)
  /-- It calls `uart_tx`. -/
  | tx
  /-- It calls `k_fifo_put`. -/
  | put
  | txAborted (len : Nat)
  | txDone

namespace Transmitter

/-- The driver sends the first `n` bytes of its transmission. -/
def transmit (s : Transmitter) (t : Transmission) (n : Nat) : Except Fault Transmitter :=
  (s.uart.deref t.start.buf).map fun b =>
    { s with
      sent := Function.update s.sent t.start.buf
        (s.sent t.start.buf ++ b.slice t.start.offset n) }

/-- The driver, idle again, calls back. -/
def report (s : Transmitter) (e : UartEvent) : Except Fault Transmitter :=
  ({ s.uart with tx := none }.uartCb none e).map fun u => { s with uart := u }

/-- One step; a fault ends the program. -/
def step : Except Fault Transmitter → TransmitterStep → Option (Except Fault Transmitter)
  | .error f, _ => some (.error f)
  | .ok s, .fill b =>
    match s.sending with
    | .idle =>
      if b.Sendable then
        some (.ok { s with
          uart := s.uart.withResponse b
          sending := .filled s.uart.nextPtr
          responses := s.responses.insert s.uart.nextPtr b })
      else none
    | _ => none
  | .ok s, .tx =>
    match s.sending with
    | .filled tx => some ((s.uart.deref tx).map fun b =>
        match s.uart.uartTx ⟨tx, 0⟩ b.len.toNat with
        | (true, u) => { s with uart := u, sending := .idle }
        | (false, u) => { s with uart := u, sending := .refused tx })
    | _ => none
  | .ok s, .put =>
    match s.sending with
    | .refused tx =>
      some (.ok { s with
        uart := { s.uart with txFifo := s.uart.txFifo ++ [tx] }
        sending := .idle })
    | _ => none
  | .ok s, .txAborted len =>
    match s.uart.tx with
    | some t =>
      if len < t.len then
        some ((s.transmit t len).bind fun s => s.report (.txAborted t.start len))
      else none
    | none => none
  | .ok s, .txDone =>
    match s.uart.tx with
    | some t =>
      some ((s.transmit t t.len).bind fun s =>
        (s.report (.txDone (some t.start) t.len)).map fun s =>
          { s with done := s.done ++ [t.start.buf] })
    | none => none

/-- After `uart_init`. -/
def init (data : Vector UInt8 recieveBuffSize) : Transmitter :=
  ⟨Uart.init data, .idle, ∅, fun _ => [], []⟩

/-! ## The states that the steps lead to -/

/-- A buffer was filled. -/
def afterFill (s : Transmitter) (b : UartData) : Transmitter :=
  { s with
    uart := s.uart.withResponse b
    sending := .filled s.uart.nextPtr
    responses := s.responses.insert s.uart.nextPtr b }

/-- `uart_tx` took it. -/
def afterTx (s : Transmitter) (p : BufPtr) (b : UartData) : Transmitter :=
  { s with uart := { s.uart with tx := some ⟨⟨p, 0⟩, b.len.toNat⟩ }, sending := .idle }

/-- The main thread holds on to its buffer, or puts it on the fifo. -/
def afterPut (s : Transmitter) (txFifo : List BufPtr) (sending : Sending) : Transmitter :=
  { s with uart := { s.uart with txFifo := txFifo }, sending := sending }

/-- The driver was stopped after `k` bytes, and sends the rest. -/
def afterAborted (s : Transmitter) (t : Transmission) (b : UartData) (k : Nat) : Transmitter :=
  { s with
    uart := { s.uart with
      abortedBuf := some ⟨t.start.buf, 0⟩
      abortedLen := s.uart.abortedLen + k
      tx := some ⟨⟨t.start.buf, s.uart.abortedLen + k⟩, t.len - k⟩ }
    sent := Function.update s.sent t.start.buf (b.contents.take (s.uart.abortedLen + k)) }

/-- The driver goes on with `tx`, if anything. -/
def afterDone (s : Transmitter) (t : Transmission) (b : UartData) (tx : Option Transmission)
    (txFifo : List BufPtr) : Transmitter :=
  { s with
    uart := { s.uart with
      abortedBuf := none
      abortedLen := 0
      heap := s.uart.heap.erase t.start.buf
      txFifo := txFifo
      tx := tx }
    sent := Function.update s.sent t.start.buf b.contents
    done := s.done ++ [t.start.buf] }

section step

variable {s : Transmitter} {t : Transmission} {b : UartData} {p q : BufPtr}

/-- What filling does. -/
theorem step_fill (hidle : s.sending = .idle) (hb : b.Sendable) :
    step (.ok s) (.fill b) = some (.ok (s.afterFill b)) := by
  simp only [step, hidle, if_pos hb, afterFill]

/-- `uart_tx` on an idle driver. -/
theorem step_tx (hfilled : s.sending = .filled p) (hb : s.uart.heap.lookup p = some b)
    (htx : s.uart.tx = none) : step (.ok s) .tx = some (.ok (s.afterTx p b)) := by
  simp only [step, hfilled, Uart.deref_of_lookup hb, Except.map, Uart.uartTx, htx, afterTx]

/-- `uart_tx` on a busy one. -/
theorem step_tx_busy (hfilled : s.sending = .filled p) (hb : s.uart.heap.lookup p = some b)
    (htx : s.uart.tx = some t) :
    step (.ok s) .tx = some (.ok (s.afterPut s.uart.txFifo (.refused p))) := by
  simp only [step, hfilled, Uart.deref_of_lookup hb, Except.map, Uart.uartTx, htx]
  rfl

/-- The buffer is put on the fifo. -/
theorem step_put (hrefused : s.sending = .refused p) :
    step (.ok s) .put = some (.ok (s.afterPut (s.uart.txFifo ++ [p]) .idle)) := by
  simp only [step, hrefused, afterPut]

/-! ## Who has a buffer -/

/-- An entry of a map after an insertion is the new one or one of the old ones. -/
theorem eq_or_lookup_of_insert {m : Finmap fun _ : BufPtr => UartData} {c : UartData}
    (h : (m.insert q c).lookup p = some b) : p = q ∧ b = c ∨ p ≠ q ∧ m.lookup p = some b := by
  by_cases hpq : p = q
  · subst hpq
    rw [Finmap.lookup_insert, Option.some.injEq] at h
    exact Or.inl ⟨rfl, h.symm⟩
  · rw [Finmap.lookup_insert_of_ne _ hpq] at h
    exact Or.inr ⟨hpq, h⟩

/-- The buffer that is being transmitted. -/
def current (s : Transmitter) : List BufPtr := s.uart.tx.toList.map fun t => t.start.buf

/-- The buffers that were filled, by how far they have come. -/
def queue (s : Transmitter) : List BufPtr :=
  s.done ++ (s.current ++ (s.uart.txFifo ++ s.sending.buffer))

theorem current_of_tx (ht : s.uart.tx = some t) : s.current = [t.start.buf] := by
  rw [current, ht]
  rfl

theorem current_of_idle (ht : s.uart.tx = none) : s.current = [] := by
  rw [current, ht]
  rfl

/-- Every buffer is in one place. -/
structure Owned (s : Transmitter) : Prop where
  once : s.queue.Nodup
  filled : ∀ {p}, p ∈ s.queue ↔ p ∈ s.responses
  fresh : ∀ {p}, p ∈ s.responses → p < s.uart.nextPtr
  sendable : ∀ {p b}, s.responses.lookup p = some b → b.Sendable
  block : ∀ {p b}, p ∉ s.done → s.responses.lookup p = some b → s.uart.heap.lookup p = some b
  freed : ∀ {p}, p ∈ s.done → p ∉ s.uart.heap

namespace Owned

variable (h : s.Owned)

include h

theorem not_done (ht : s.uart.tx = some t) : t.start.buf ∉ s.done := by
  have honce := h.once
  rw [queue, current_of_tx ht] at honce
  exact fun hmem => (List.nodup_append.mp honce).2.2 _ hmem _ List.mem_cons_self rfl

/-- A buffer that waits is not being transmitted, and it is there. -/
theorem waiting (hp : p ∈ s.uart.txFifo ++ s.sending.buffer) : p ∉ s.done ∧ p ∉ s.current ∧
    ∃ b, s.responses.lookup p = some b ∧ s.uart.heap.lookup p = some b := by
  obtain ⟨-, hrest, hdone⟩ := List.nodup_append.mp h.once
  have hcurrent := (List.nodup_append.mp hrest).2.2
  have hnot : p ∉ s.done := fun hmem => hdone _ hmem _ (List.mem_append_right _ hp) rfl
  have hmem : p ∈ s.queue := List.mem_append_right _ (List.mem_append_right _ hp)
  obtain ⟨b, hb⟩ := Finmap.mem_iff.mp (h.filled.mp hmem)
  exact ⟨hnot, fun hmem => hcurrent _ hmem _ hp rfl, b, hb, h.block hnot hb⟩

/-- The buffer in the hand of the main thread. -/
theorem in_hand (hfilled : s.sending = .filled p) : p ∉ s.done ∧ p ∉ s.current ∧
    ∃ b, s.responses.lookup p = some b ∧ s.uart.heap.lookup p = some b := by
  apply h.waiting
  rw [hfilled]
  exact List.mem_append_right _ (List.mem_singleton_self p)

/-- The buffers change hands. -/
theorem of_perm {s' : Transmitter} (hqueue : s'.queue.Perm s.queue) (hdone : s'.done = s.done)
    (hresponses : s'.responses = s.responses) (hheap : s'.uart.heap = s.uart.heap)
    (hnext : s'.uart.nextPtr = s.uart.nextPtr) : s'.Owned := by
  constructor
  · exact hqueue.nodup_iff.mpr h.once
  · rw [hresponses]
    exact hqueue.mem_iff.trans h.filled
  · rw [hresponses, hnext]
    exact h.fresh
  · rw [hresponses]
    exact h.sendable
  · rw [hdone, hresponses, hheap]
    exact h.block
  · rw [hdone, hheap]
    exact h.freed

theorem not_filled : s.uart.nextPtr ∉ s.responses :=
  fun hmem => Nat.lt_irrefl _ (h.fresh hmem)

theorem fill (hidle : s.sending = .idle) (hb : b.Sendable) : (s.afterFill b).Owned := by
  -- the block is new, so it is in no queue
  have hnone : s.uart.nextPtr ∉ s.queue := fun hmem => h.not_filled (h.filled.mp hmem)
  have hqueue : (s.afterFill b).queue = s.queue ++ [s.uart.nextPtr] := by
    show s.done ++ (s.current ++ (s.uart.txFifo ++ [s.uart.nextPtr])) = _
    rw [queue, hidle]
    simp [Sending.buffer]
  constructor
  · rw [hqueue, List.nodup_append]
    refine ⟨h.once, List.nodup_singleton _, ?_⟩
    rintro p hp q hq rfl
    exact hnone (List.mem_singleton.mp hq ▸ hp)
  · intro p
    show p ∈ (s.afterFill b).queue ↔ p ∈ s.responses.insert s.uart.nextPtr b
    rw [hqueue, List.mem_append, List.mem_singleton, Finmap.mem_insert, h.filled, or_comm]
  · intro p hp
    rcases Finmap.mem_insert.mp hp with rfl | hp
    · exact Nat.lt_succ_self _
    · exact Nat.lt_succ_of_lt (h.fresh hp)
  · intro p c hp
    rcases eq_or_lookup_of_insert hp with ⟨-, rfl⟩ | ⟨-, hp⟩
    · exact hb
    · exact h.sendable hp
  · intro p c hnot hp
    rcases eq_or_lookup_of_insert hp with ⟨rfl, rfl⟩ | ⟨hne, hp⟩
    · exact Finmap.lookup_insert _
    · exact (Finmap.lookup_insert_of_ne _ hne).trans (h.block hnot hp)
  · intro p hp hmem
    rcases Finmap.mem_insert.mp hmem with rfl | hmem
    · exact hnone (List.mem_append_left _ hp)
    · exact h.freed hp hmem

end Owned

/-! ## Where a transmission stands -/

/-- The driver's transmission `t` is the rest of `b`, from where the aborts left it. -/
structure At (u : Uart) (t : Transmission) (b : UartData) : Prop where
  /-- The address that is freed in the end: the first abort's, or the event's if there was none. -/
  first : u.abortedBuf.getD t.start = ⟨t.start.buf, 0⟩
  offset : t.start.offset = u.abortedLen
  rest : u.abortedLen + t.len = b.len.toNat
  pos : 0 < t.len

/-- What holds in every state. -/
structure Resumes (s : Transmitter) : Prop where
  owned : s.Owned
  whole : ∀ {p b}, p ∈ s.done → s.responses.lookup p = some b → s.sent p = b.contents
  silent : ∀ {p}, p ∉ s.done → p ∉ s.current → s.sent p = []
  clear : s.uart.abortedBuf = none → s.uart.abortedLen = 0
  idle : s.uart.tx = none → s.uart.abortedBuf = none
  busy : ∀ {t}, s.uart.tx = some t → ∃ b, s.responses.lookup t.start.buf = some b ∧ At s.uart t b ∧
    s.sent t.start.buf = b.contents.take s.uart.abortedLen

/-- The transmission `t` is in progress, and `b` is its buffer. -/
structure Carries (s : Transmitter) (t : Transmission) (b : UartData) : Prop where
  tx : s.uart.tx = some t
  response : s.responses.lookup t.start.buf = some b
  stands : At s.uart t b
  block : s.uart.heap.lookup t.start.buf = some b
  sent : s.sent t.start.buf = b.contents.take s.uart.abortedLen

theorem Resumes.carries (h : s.Resumes) (ht : s.uart.tx = some t) : ∃ b, s.Carries t b := by
  obtain ⟨b, hb, hat, hsent⟩ := h.busy ht
  exact ⟨b, ht, hb, hat, h.owned.block (h.owned.not_done ht) hb, hsent⟩

namespace Carries

variable (hc : s.Carries t b)

include hc

theorem sum_le {n : Nat} (hn : n ≤ t.len) : s.uart.abortedLen + n ≤ b.len.toNat := by
  have hrest := hc.stands.rest
  omega

/-- What the driver sends next of a buffer follows what it has sent of it. -/
theorem transmit_eq {n : Nat} (hn : n ≤ t.len) : s.transmit t n = .ok { s with
    sent := Function.update s.sent t.start.buf (b.contents.take (s.uart.abortedLen + n)) } := by
  rw [← UartData.take_contents (hc.sum_le hn), ← hc.sent, ← hc.stands.offset, transmit,
    Uart.deref_of_lookup hc.block]
  rfl

/-- `UART_TX_ABORTED`: the driver gets the rest of the buffer. -/
theorem step_txAborted {k : Nat} (hk : k < t.len) :
    step (.ok s) (.txAborted k) = some (.ok (s.afterAborted t b k)) := by
  have hlen : b.len.toNat - (s.uart.abortedLen + k) = t.len - k := by
    have hrest := hc.stands.rest
    omega
  have hcb := Uart.uartCb_txAborted (u := { s.uart with tx := none }) none hc.stands.first hc.block
    rfl (hc.sum_le (Nat.le_of_lt hk))
  simp only [hlen] at hcb
  simp only [step, hc.tx, if_pos hk, hc.transmit_eq (Nat.le_of_lt hk), Except.bind, report, hcb]
  rfl

end Carries

/-- Whom the driver sends after `UART_TX_DONE`: the first buffer of the fifo, from its beginning. -/
structure Next (s : Transmitter) (tx : Option Transmission) (txFifo : List BufPtr) : Prop where
  fifo : (tx.toList.map fun t => t.start.buf) ++ txFifo = s.uart.txFifo
  start : ∀ {t}, tx = some t → ∃ c, s.responses.lookup t.start.buf = some c ∧
    t = ⟨⟨t.start.buf, 0⟩, c.len.toNat⟩

/-- `UART_TX_DONE`: the buffer is freed, and no abort is remembered. -/
theorem Resumes.uartCb_txDone (h : s.Resumes) (hc : s.Carries t b) :
    ∃ tx txFifo, s.Next tx txFifo ∧
      { s.uart with tx := none }.uartCb none (.txDone (some t.start) t.len) =
        .ok (s.afterDone t b tx txFifo).uart := by
  have hn : t.len ≠ 0 := Nat.ne_of_gt hc.stands.pos
  cases hfifo : s.uart.txFifo with
  | nil =>
    refine ⟨none, s.uart.txFifo, ⟨rfl, fun ht => by cases ht⟩, ?_⟩
    exact Uart.uartCb_txDone_nil (u := { s.uart with tx := none }) none hc.stands.first hc.block
      h.clear hn hfifo
  | cons q rest =>
    have hq : q ∈ s.uart.txFifo ++ s.sending.buffer := by
      rw [hfifo]
      exact List.mem_cons_self
    obtain ⟨-, hcurrent, c, hresponse, hblock⟩ := h.owned.waiting hq
    rw [current_of_tx hc.tx, List.mem_singleton] at hcurrent
    refine ⟨some ⟨⟨q, 0⟩, c.len.toNat⟩, rest, ⟨hfifo.symm, fun ht => ?_⟩, ?_⟩
    · obtain rfl := Option.some.inj ht
      exact ⟨c, hresponse, rfl⟩
    · exact Uart.uartCb_txDone_cons (u := { s.uart with tx := none }) none hc.stands.first hc.block
        h.clear hn rfl hfifo hcurrent hblock

/-- The driver sends the rest of the buffer and reports it. -/
theorem Carries.step_txDone (hc : s.Carries t b) {tx : Option Transmission} {txFifo : List BufPtr}
    (hcb : { s.uart with tx := none }.uartCb none (.txDone (some t.start) t.len) =
      .ok (s.afterDone t b tx txFifo).uart) :
    step (.ok s) .txDone = some (.ok (s.afterDone t b tx txFifo)) := by
  have htransmit := hc.transmit_eq (Nat.le_refl t.len)
  rw [hc.stands.rest, UartData.take_len] at htransmit
  simp only [step, hc.tx, htransmit, Except.bind, report, hcb]
  rfl

/-! ## One step -/

theorem sent_of_ne (hne : q ≠ p) (bytes : List UInt8) :
    Function.update s.sent p bytes q = s.sent q := Function.update_of_ne hne _ _

/-- The buffers that are done are those that were, and this one. -/
theorem mem_done {tx : Option Transmission} {txFifo : List BufPtr} :
    q ∈ (s.afterDone t b tx txFifo).done ↔ q ∈ s.done ∨ q = t.start.buf := by
  show q ∈ s.done ++ [t.start.buf] ↔ _
  rw [List.mem_append, List.mem_singleton]

namespace Resumes

variable (h : s.Resumes)

include h

theorem fill (hidle : s.sending = .idle) (hb : b.Sendable) : (s.afterFill b).Resumes where
  owned := h.owned.fill hidle hb
  whole := by
    intro p c hdone hp
    rcases eq_or_lookup_of_insert hp with ⟨rfl, -⟩ | ⟨-, hp⟩
    · exact absurd (h.owned.filled.mp (List.mem_append_left _ hdone)) h.owned.not_filled
    · exact h.whole hdone hp
  silent := h.silent
  clear := h.clear
  idle := h.idle
  busy := by
    intro t ht
    obtain ⟨c, hc, hat, hsent⟩ := h.busy ht
    have hne : t.start.buf ≠ s.uart.nextPtr := by
      intro heq
      exact h.owned.not_filled (heq ▸ Finmap.mem_of_lookup_eq_some hc)
    exact ⟨c, (Finmap.lookup_insert_of_ne _ hne).trans hc,
      ⟨hat.first, hat.offset, hat.rest, hat.pos⟩, hsent⟩

/-- `uart_tx` while the driver is idle. -/
theorem tx (hfilled : s.sending = .filled p) (htx : s.uart.tx = none)
    (hb : s.responses.lookup p = some b) : (s.afterTx p b).Resumes where
  owned := by
    refine h.owned.of_perm ?_ rfl rfl rfl rfl
    show (s.done ++ ([p] ++ (s.uart.txFifo ++ []))).Perm s.queue
    rw [queue, current_of_idle htx, hfilled, List.append_nil]
    exact List.Perm.append_left _ List.perm_append_comm
  whole := h.whole
  silent hdone _ := h.silent hdone (by rw [current_of_idle htx]; exact List.not_mem_nil)
  clear := h.clear
  idle ht := by cases ht
  busy := by
    intro t ht
    obtain rfl := Option.some.inj ht
    have hzero : s.uart.abortedLen = 0 := h.clear (h.idle htx)
    obtain ⟨hdone, hcurrent, -⟩ := h.owned.in_hand hfilled
    refine ⟨b, hb, ⟨?_, hzero.symm, ?_, (h.owned.sendable hb).1⟩, ?_⟩
    · show s.uart.abortedBuf.getD ⟨p, 0⟩ = ⟨p, 0⟩
      rw [h.idle htx]
      rfl
    · show s.uart.abortedLen + b.len.toNat = b.len.toNat
      rw [hzero, Nat.zero_add]
    · show s.sent p = b.contents.take s.uart.abortedLen
      rw [hzero]
      exact h.silent hdone hcurrent

/-- A buffer goes from the main thread's hand to the end of the fifo, or stays. -/
theorem put {txFifo : List BufPtr} {sending : Sending}
    (hsame : txFifo ++ sending.buffer = s.uart.txFifo ++ s.sending.buffer) :
    (s.afterPut txFifo sending).Resumes where
  owned := by
    refine h.owned.of_perm ?_ rfl rfl rfl rfl
    show (s.done ++ (s.current ++ (txFifo ++ sending.buffer))).Perm s.queue
    rw [hsame, queue]
  whole := h.whole
  silent := h.silent
  clear := h.clear
  idle := h.idle
  busy := by
    intro t ht
    obtain ⟨c, hc, hat, hsent⟩ := h.busy ht
    exact ⟨c, hc, ⟨hat.first, hat.offset, hat.rest, hat.pos⟩, hsent⟩

/-- `UART_TX_ABORTED`: what was sent stays sent, and the rest is still to be sent. -/
theorem txAborted (hc : s.Carries t b) {k : Nat} (hk : k < t.len) :
    (s.afterAborted t b k).Resumes where
  owned := by
    refine h.owned.of_perm ?_ rfl rfl rfl rfl
    show (s.done ++ ([t.start.buf] ++ (s.uart.txFifo ++ s.sending.buffer))).Perm s.queue
    rw [queue, current_of_tx hc.tx]
  whole := by
    intro q c hdone hq
    have hne : q ≠ t.start.buf := fun heq => h.owned.not_done hc.tx (heq ▸ hdone)
    exact (sent_of_ne hne _).trans (h.whole hdone hq)
  silent := by
    intro q hdone hcurrent
    have hne : q ≠ t.start.buf := fun heq => hcurrent (heq ▸ List.mem_cons_self)
    refine (sent_of_ne hne _).trans (h.silent hdone ?_)
    rw [current_of_tx hc.tx]
    exact hcurrent
  clear ht := by cases ht
  idle ht := by cases ht
  busy := by
    intro t' ht
    obtain rfl := Option.some.inj ht
    refine ⟨b, hc.response, ⟨rfl, rfl, ?_, Nat.sub_pos_of_lt hk⟩, Function.update_self _ _ _⟩
    have hrest := hc.stands.rest
    show s.uart.abortedLen + k + (t.len - k) = b.len.toNat
    omega

/-- The buffer that is done is freed, and no other. -/
theorem owned_txDone (hc : s.Carries t b) {tx : Option Transmission} {txFifo : List BufPtr}
    (hnext : s.Next tx txFifo) : (s.afterDone t b tx txFifo).Owned := by
  have hqueue : (s.afterDone t b tx txFifo).queue = s.queue := by
    show s.done ++ [t.start.buf] ++
      ((tx.toList.map fun t => t.start.buf) ++ (txFifo ++ s.sending.buffer)) = s.queue
    rw [queue, current_of_tx hc.tx, ← hnext.fifo, List.append_assoc, List.append_assoc]
  constructor
  · rw [hqueue]
    exact h.owned.once
  · rw [hqueue]
    exact h.owned.filled
  · exact h.owned.fresh
  · exact h.owned.sendable
  · intro q c hnot hq
    rw [mem_done, not_or] at hnot
    exact (Finmap.lookup_erase_ne hnot.2).trans (h.owned.block hnot.1 hq)
  · intro q hq hmem
    obtain ⟨hne, hmem⟩ := Finmap.mem_erase.mp hmem
    exact h.owned.freed ((mem_done.mp hq).resolve_right hne) hmem

/-- `UART_TX_DONE`: the next transmission begins where a first one does. -/
theorem txDone (hc : s.Carries t b) {tx : Option Transmission} {txFifo : List BufPtr}
    (hnext : s.Next tx txFifo) : (s.afterDone t b tx txFifo).Resumes where
  owned := h.owned_txDone hc hnext
  whole := by
    intro q c hq hresponse
    by_cases hne : q = t.start.buf
    · subst hne
      obtain rfl : b = c := Option.some.inj (hc.response.symm.trans hresponse)
      exact Function.update_self _ _ _
    · exact (sent_of_ne hne _).trans (h.whole ((mem_done.mp hq).resolve_right hne) hresponse)
  silent := by
    intro q hnot _
    rw [mem_done, not_or] at hnot
    refine (sent_of_ne hnot.2 _).trans (h.silent hnot.1 ?_)
    rw [current_of_tx hc.tx, List.mem_singleton]
    exact hnot.2
  clear _ := rfl
  idle _ := rfl
  busy := by
    intro t' ht
    obtain ⟨c, hresponse, hstart⟩ := hnext.start ht
    have hfifo : t'.start.buf ∈ s.uart.txFifo ++ s.sending.buffer := by
      obtain rfl : tx = some t' := ht
      rw [← hnext.fifo]
      exact List.mem_cons_self
    obtain ⟨hnot, hcurrent, -⟩ := h.owned.waiting hfifo
    have hne : t'.start.buf ≠ t.start.buf := by
      rw [current_of_tx hc.tx, List.mem_singleton] at hcurrent
      exact hcurrent
    have hzero : t'.start.offset = 0 := by rw [hstart]
    have hlen : t'.len = c.len.toNat := by rw [hstart]
    refine ⟨c, hresponse, ⟨?_, hzero, ?_, ?_⟩, (sent_of_ne hne _).trans (h.silent hnot hcurrent)⟩
    · show t'.start = ⟨t'.start.buf, 0⟩
      rw [← hzero]
    · rw [hlen]
      exact Nat.zero_add _
    · rw [hlen]
      exact (h.owned.sendable hresponse).1

end Resumes

/-- No step ends in a fault. -/
theorem resumes_step {r r' : Except Fault Transmitter} {e : TransmitterStep}
    (h : ∃ s, r = .ok s ∧ s.Resumes) (hs : step r e = some r') :
    ∃ s', r' = .ok s' ∧ s'.Resumes := by
  obtain ⟨s, rfl, h⟩ := h
  cases e with
  | fill b =>
    cases hsending : s.sending with
    | idle =>
      by_cases hb : b.Sendable
      · rw [step_fill hsending hb, Option.some.injEq] at hs
        exact ⟨_, hs.symm, h.fill hsending hb⟩
      · exact absurd hs (by simp [step, hsending, hb])
    | _ => exact absurd hs (by simp [step, hsending])
  | tx =>
    cases hsending : s.sending with
    | filled p =>
      -- `uart_tx` starts if the driver is idle, and is refused if not
      obtain ⟨-, -, b, hb, hblock⟩ := h.owned.in_hand hsending
      cases htx : s.uart.tx with
      | none =>
        rw [step_tx hsending hblock htx, Option.some.injEq] at hs
        exact ⟨_, hs.symm, h.tx hsending htx hb⟩
      | some t =>
        rw [step_tx_busy hsending hblock htx, Option.some.injEq] at hs
        exact ⟨_, hs.symm, h.put (by rw [hsending]; rfl)⟩
    | _ => exact absurd hs (by simp [step, hsending])
  | put =>
    cases hsending : s.sending with
    | refused p =>
      rw [step_put hsending, Option.some.injEq] at hs
      refine ⟨_, hs.symm, h.put ?_⟩
      rw [hsending]
      exact List.append_nil _
    | _ => exact absurd hs (by simp [step, hsending])
  | txAborted k =>
    cases htx : s.uart.tx with
    | none => exact absurd hs (by simp [step, htx])
    | some t =>
      -- an abort leaves something to send
      by_cases hk : k < t.len
      · obtain ⟨b, hc⟩ := h.carries htx
        rw [hc.step_txAborted hk, Option.some.injEq] at hs
        exact ⟨_, hs.symm, h.txAborted hc hk⟩
      · exact absurd hs (by simp [step, htx, hk])
  | txDone =>
    cases htx : s.uart.tx with
    | none => exact absurd hs (by simp [step, htx])
    | some t =>
      obtain ⟨b, hc⟩ := h.carries htx
      obtain ⟨tx, txFifo, hnext, hcb⟩ := h.uartCb_txDone hc
      rw [hc.step_txDone hcb, Option.some.injEq] at hs
      exact ⟨_, hs.symm, h.txDone hc hnext⟩

theorem resumes_init (data : Vector UInt8 recieveBuffSize) : (init data).Resumes where
  owned := {
    once := List.nodup_nil
    filled := iff_of_false List.not_mem_nil Finmap.notMem_empty
    fresh := fun h => absurd h Finmap.notMem_empty
    sendable := fun h => absurd (Finmap.mem_of_lookup_eq_some h) Finmap.notMem_empty
    block := fun _ h => absurd (Finmap.mem_of_lookup_eq_some h) Finmap.notMem_empty
    freed := fun h => absurd h List.not_mem_nil }
  whole h := absurd h List.not_mem_nil
  silent _ _ := rfl
  clear _ := rfl
  idle _ := rfl
  busy h := absurd (show none = some _ from h) (by simp)

/-- **Every run.** -/
theorem resumes_reachable {data : Vector UInt8 recieveBuffSize} {es : List TransmitterStep}
    {r : Except Fault Transmitter} (hrun : Transition.run step (.ok (init data)) es = some r) :
    ∃ s, r = .ok s ∧ s.Resumes :=
  Transition.invariant (I := fun r => ∃ s, r = .ok s ∧ s.Resumes) resumes_step
    ⟨_, rfl, resumes_init data⟩ hrun

/-! ## The responder -/

/-- The responder and the transmitter that has made the same steps. -/
structure Follows (r : Responder) (s : Transmitter) : Prop where
  uart : s.uart = r.uart
  sending : s.sending = r.sending
  resumes : s.Resumes

/-- What the responder does, the transmitter can do. -/
theorem follows_step {r r' : Responder} {e : TxStep} (h : Follows r s)
    (hr : Responder.step (.ok r) e = some (.ok r')) :
    ∃ e' s', step (.ok s) e' = some (.ok s') ∧ Follows r' s' := by
  obtain ⟨uart, sending, calls, handed⟩ := r
  obtain ⟨rfl, rfl, h⟩ := h
  cases e with
  | fill malloc data dataSize =>
    cases hsending : s.sending with
    | idle =>
      simp only [Responder.step, hsending, Option.some.injEq] at hr
      cases hnew : s.uart.newResponse malloc data dataSize with
      | error f =>
        rw [hnew] at hr
        cases hr
      | ok n =>
        -- the transmitter fills its block with what the `memcpy` yields
        obtain ⟨b, hb, rfl⟩ := Uart.newResponse_eq_ok hnew
        rw [hnew] at hr
        obtain rfl := Except.ok.inj hr
        exact ⟨.fill b, _, step_fill hsending hb, rfl, rfl, h.fill hsending hb⟩
    | _ => exact absurd hr (by simp [Responder.step, hsending])
  | tx =>
    cases hsending : s.sending with
    | filled p =>
      obtain ⟨-, -, b, hb, hblock⟩ := h.owned.in_hand hsending
      simp only [Responder.step, hsending, Uart.deref_of_lookup hblock, Option.some.injEq] at hr
      cases htx : s.uart.tx with
      | none =>
        simp only [Except.map, Uart.uartTx, htx] at hr
        obtain rfl := Except.ok.inj hr
        exact ⟨.tx, _, step_tx hsending hblock htx, rfl, rfl, h.tx hsending htx hb⟩
      | some t =>
        simp only [Except.map, Uart.uartTx, htx] at hr
        obtain rfl := Except.ok.inj hr
        exact ⟨.tx, _, step_tx_busy hsending hblock htx, rfl, rfl, h.put (by rw [hsending]; rfl)⟩
    | _ => exact absurd hr (by simp [Responder.step, hsending])
  | put =>
    cases hsending : s.sending with
    | refused p =>
      simp only [Responder.step, hsending, Option.some.injEq] at hr
      obtain rfl := Except.ok.inj hr
      refine ⟨.put, _, step_put hsending, rfl, rfl, h.put ?_⟩
      rw [hsending]
      exact List.append_nil _
    | _ => exact absurd hr (by simp [Responder.step, hsending])
  | txDone =>
    cases htx : s.uart.tx with
    | none => exact absurd hr (by simp [Responder.step, Uart.txDone, htx])
    | some t =>
      obtain ⟨b, hc⟩ := h.carries htx
      obtain ⟨tx, txFifo, hnext, hcb⟩ := h.uartCb_txDone hc
      simp only [Responder.step, Uart.txDone, htx, Option.map_some, hcb, Option.some.injEq] at hr
      obtain rfl := Except.ok.inj hr
      exact ⟨.txDone, _, hc.step_txDone hcb, rfl, rfl, h.txDone hc hnext⟩

/-- **The responder is a transmitter without aborts**, with the buffers that `send_response` fills. -/
theorem exists_transmitter {data : Vector UInt8 recieveBuffSize} {es : List TxStep} {r : Responder}
    (hrun : Transition.run Responder.step (.ok (Responder.init data)) es = some (.ok r)) :
    ∃ es' s, Transition.run step (.ok (init data)) es' = some (.ok s) ∧ Follows r s := by
  let R (x : Except Fault Responder) (y : Except Fault Transmitter) : Prop :=
    ∀ r, x = .ok r → ∃ s, y = .ok s ∧ Follows r s
  have hstep : ∀ {x y e x'}, R x y → Responder.step x e = some x' →
      ∃ es y', Transition.run step y es = some y' ∧ R x' y' := by
    intro x y e x' hR hx
    cases x' with
    | error f => exact ⟨[], y, rfl, fun r hr => by cases hr⟩
    | ok r' =>
      cases x with
      | error f => cases hx
      | ok r =>
        obtain ⟨s, rfl, h⟩ := hR r rfl
        obtain ⟨e', s', hs, h'⟩ := follows_step h hx
        refine ⟨[e'], .ok s', (Option.bind_fun_some _).trans hs, fun r hr => ?_⟩
        obtain rfl := Except.ok.inj hr
        exact ⟨s', rfl, h'⟩
  have hinit : R (.ok (Responder.init data)) (.ok (init data)) := by
    intro r hr
    obtain rfl := Except.ok.inj hr
    exact ⟨_, rfl, rfl, rfl, resumes_init data⟩
  obtain ⟨es', y, hy, hR⟩ := Transition.run_refines hstep hinit hrun
  obtain ⟨s, rfl, h⟩ := hR r rfl
  exact ⟨es', s, hy, h⟩

/-! ## Every run -/

/-- The transmission `t` of `b`, aborted after as many bytes as `lens` say and then done: the buffer
    is sent to its end and freed, it and no other, and no abort is remembered. -/
def Finishes (s : Transmitter) (t : Transmission) (b : UartData) (lens : List Nat) : Prop :=
  ∃ s', Transition.run step (.ok s) (lens.map .txAborted ++ [.txDone]) = some (.ok s') ∧
    s'.sent t.start.buf = b.contents ∧ s'.done = s.done ++ [t.start.buf] ∧
    s'.uart.heap = s.uart.heap.erase t.start.buf ∧
    s'.uart.abortedBuf = none ∧ s'.uart.abortedLen = 0

theorem Resumes.finishes (h : s.Resumes) (hc : s.Carries t b) {lens : List Nat}
    (hlens : lens.sum < t.len) : s.Finishes t b lens := by
  induction lens generalizing s t with
  | nil =>
    obtain ⟨tx, txFifo, -, hcb⟩ := h.uartCb_txDone hc
    have hrun := (Option.bind_fun_some _).trans (hc.step_txDone hcb)
    refine ⟨s.afterDone t b tx txFifo, hrun, ?_, rfl, rfl, rfl, rfl⟩
    exact Function.update_self _ _ _
  | cons k lens ih =>
    rw [List.sum_cons] at hlens
    have hk : k < t.len := by omega
    have hresumes := h.txAborted hc hk
    obtain ⟨c, hc'⟩ := hresumes.carries rfl
    obtain rfl : b = c := Option.some.inj (hc.response.symm.trans hc'.response)
    obtain ⟨s', hrun, hfinished⟩ := ih hresumes hc' (by omega : lens.sum < t.len - k)
    refine ⟨s', ?_, hfinished⟩
    rw [List.map_cons, List.cons_append, Transition.run_cons, hc.step_txAborted hk]
    exact hrun

/-- What holds of the buffers. -/
structure Delivers (s : Transmitter) : Prop where
  once : s.done.Nodup
  /-- A buffer that is done was sent byte for byte, and its block is freed. -/
  whole : ∀ p b, s.responses.lookup p = some b → p ∈ s.done →
    s.sent p = b.contents ∧ p ∉ s.uart.heap
  /-- Of any other a part was sent, from the first byte on, and its block is as it was filled. -/
  part : ∀ p b, s.responses.lookup p = some b → p ∉ s.done →
    s.sent p <+: b.contents ∧ s.uart.heap.lookup p = some b
  /-- However often the driver aborts a transmission before it is done. -/
  finishes : ∀ t, s.uart.tx = some t → ∃ b, s.responses.lookup t.start.buf = some b ∧
    ∀ lens : List Nat, lens.sum < t.len → s.Finishes t b lens
  /-- With no transmission in progress no abort is remembered. -/
  idle : s.uart.tx = none → s.uart.abortedBuf = none ∧ s.uart.abortedLen = 0

theorem Resumes.delivers (h : s.Resumes) : s.Delivers where
  once := (List.nodup_append.mp h.owned.once).1
  whole _ _ hp hdone := ⟨h.whole hdone hp, h.owned.freed hdone⟩
  part p b hp hdone := by
    refine ⟨?_, h.owned.block hdone hp⟩
    by_cases hcurrent : p ∈ s.current
    · obtain ⟨t, ht, rfl⟩ := List.mem_map.mp hcurrent
      obtain ⟨c, hc⟩ := h.carries (Option.mem_toList.mp ht)
      obtain rfl : b = c := Option.some.inj (hp.symm.trans hc.response)
      rw [hc.sent]
      exact List.take_prefix _ _
    · rw [h.silent hdone hcurrent]
      exact List.nil_prefix
  finishes t ht := by
    obtain ⟨b, hc⟩ := h.carries ht
    exact ⟨b, hc.response, fun lens hlens => h.finishes hc hlens⟩
  idle ht := ⟨h.idle ht, h.clear (h.idle ht)⟩

end step

/-- **Aborted transmissions resume exactly**: in every run, with any buffers and any aborts, nothing
    ends in a fault, every buffer is sent byte for byte before it is freed, and it is freed once. -/
theorem resumes_exactly {data : Vector UInt8 recieveBuffSize} {es : List TransmitterStep}
    {r : Except Fault Transmitter} (hrun : Transition.run step (.ok (init data)) es = some r) :
    ∃ s, r = .ok s ∧ s.Delivers := by
  obtain ⟨s, rfl, h⟩ := resumes_reachable hrun
  exact ⟨s, rfl, h.delivers⟩

/-- A buffer of two bytes is aborted after none, after one and again after none of them, while a
    second one waits on the fifo. -/
theorem resumes_exactly_two :
    let block : Vector UInt8 recieveBuffSize := Vector.replicate recieveBuffSize 0x41
    let steps : List TransmitterStep := [.fill ⟨block, 2⟩, .tx, .txAborted 0, .fill ⟨block, 93⟩,
      .tx, .txAborted 1, .put, .txAborted 0, .txDone]
    ∃ s, Transition.run step (.ok (init block)) steps = some (.ok s) ∧ s.Delivers := by
  intro block steps
  have hsome : (Transition.run step (.ok (init block)) steps).isSome = true := by decide +kernel
  obtain ⟨r, hrun⟩ := Option.isSome_iff_exists.mp hsome
  obtain ⟨s, rfl, h⟩ := resumes_exactly hrun
  exact ⟨s, hrun, h⟩

end Transmitter

end NrfSpheros
