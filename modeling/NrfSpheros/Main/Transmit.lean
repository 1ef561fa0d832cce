/-
  Sending over the UART: `send_response` on the main thread and `UART_TX_DONE` in the driver's
  interrupt.

  1. `UartData.response` — the buffer that `send_response` fills.
  2. `Responder` — the code's state, with where the main thread stands in `send_response` and, as
     ghosts, the buffers of all calls and those for which `uart_tx` succeeded.  The interrupt may come
     between any two steps of the main thread.
  3. `Orderly` — the responses go out in the order of the calls, each once, and nothing is left behind
     when both sides are at rest.
  4. **The race** (`orderly_iff`).  `uart_tx` fails while a transmission is in progress, and the buffer
     goes on the fifo for `UART_TX_DONE` to take.  If that transmission ends first, the interrupt finds
     the fifo empty, and the buffer is put there with nobody left to take it.
-/
import NrfSpheros.Main.Uart
import NrfSpheros.Theory.Run

namespace NrfSpheros

/-- The size of a pointer on the target. -/
abbrev pointerSize : Nat := 4

namespace UartData

/-- `data[i] = c`. -/
def poke (b : UartData) (i : Nat) (c : UInt8) : Except Fault UartData :=
  if h : i < recieveBuffSize then .ok { b with data := b.data.set i c h } else .error .outOfBounds

/-- The buffer `send_response` fills, in a block that held `block`; `data i` is the byte at `data + i`.
    The `memcpy` takes `sizeof(data)` bytes, and `data` is a pointer. -/
def response (block : Vector UInt8 recieveBuffSize) (data : Nat → UInt8) (dataSize : Nat) :
    Except Fault UartData := do
  let b : UartData := ⟨block, UInt16.ofNat (dataSize + 2)⟩
  let b ← b.poke 0 0x8d
  let b ← (List.range pointerSize).foldlM (fun b i => b.poke (1 + i) (data i)) b
  match b.len.toNat with
  | 0 => .error .outOfBounds
  | last + 1 => b.poke last 0x0a

end UartData

/-! ## The responder -/

namespace Uart

/-- The block is filled. -/
def withResponse (u : Uart) (b : UartData) : Uart :=
  { u with heap := u.heap.insert u.nextPtr b, nextPtr := u.nextPtr + 1 }

/-- The buffer of `send_response`; the answer of `k_malloc` is not checked. -/
def newResponse (u : Uart) (malloc : Malloc) (data : Nat → UInt8) (dataSize : Nat) :
    Except Fault (BufPtr × Uart) :=
  match malloc with
  | none => .error .outOfBounds
  | some block => do
    let b ← UartData.response block data dataSize
    .ok (u.nextPtr, { u with heap := u.heap.insert u.nextPtr b, nextPtr := u.nextPtr + 1 })

/-- The driver has sent the last byte of its transmission and reports it. -/
def txDone (u : Uart) : Option (Except Fault Uart) :=
  u.tx.map fun t => { u with tx := none }.uartCb none (.txDone (some t.start) t.len)

end Uart

/-- Where the main thread stands in `send_response`. -/
inductive Sending
  | idle
  /-- `tx` is filled. -/
  | filled (tx : BufPtr)
  /-- `uart_tx` has failed for `tx`. -/
  | refused (tx : BufPtr)
deriving DecidableEq, Repr

/-- The buffer of the call in progress. -/
def Sending.buffer : Sending → List BufPtr
  | .idle => []
  | .filled tx => [tx]
  | .refused tx => [tx]

structure Responder where
  uart : Uart
  sending : Sending
  /-- The buffers of the `send_response` calls. -/
  calls : List BufPtr
  /-- The buffers for which `uart_tx` succeeded. -/
  handed : List BufPtr

/-- A step of the main thread, or the interrupt. -/
inductive TxStep
  /-- `send_response` is called and fills its buffer. -/
  | fill (malloc : Malloc) (data : Nat → UInt8) (dataSize : Nat)
  /-- It calls `uart_tx`. -/
  | tx
  /-- It calls `k_fifo_put`. -/
  | put
  | txDone

namespace Responder

/-- One step; a fault ends the program. -/
def step : Except Fault Responder → TxStep → Option (Except Fault Responder)
  | .error f, _ => some (.error f)
  | .ok s, .fill malloc data dataSize =>
    match s.sending with
    | .idle => some ((s.uart.newResponse malloc data dataSize).map fun r =>
        { s with uart := r.2, sending := .filled r.1, calls := s.calls ++ [r.1] })
    | _ => none
  | .ok s, .tx =>
    match s.sending with
    | .filled tx => some ((s.uart.deref tx).map fun b =>
        match s.uart.uartTx ⟨tx, 0⟩ b.len.toNat with
        | (true, u) => { s with uart := u, sending := .idle, handed := s.handed ++ [tx] }
        | (false, u) => { s with uart := u, sending := .refused tx })
    | _ => none
  | .ok s, .put =>
    match s.sending with
    | .refused tx =>
      some (.ok { s with
        uart := { s.uart with txFifo := s.uart.txFifo ++ [tx] }
        sending := .idle })
    | _ => none
  -- the driver was idle when it called back, so a transmission it has now began in the callback
  | .ok s, .txDone => s.uart.txDone.map fun r => r.map fun u =>
      { s with uart := u, handed := s.handed ++ u.tx.toList.map fun t => t.start.buf }

/-- After `uart_init`. -/
def init (data : Vector UInt8 recieveBuffSize) : Responder := ⟨Uart.init data, .idle, [], []⟩

/-- The buffers are handed over in the order of the calls and none twice, and with no call and no
    transmission in progress none is waiting. -/
structure Orderly (s : Responder) : Prop where
  order : s.handed <+: s.calls
  once : s.handed.Nodup
  rest : s.sending = .idle → s.uart.tx = none → s.uart.txFifo = [] ∧ s.handed = s.calls

/-- Every `k_fifo_put` comes while a transmission is still in progress. -/
def InTime (s : Except Fault Responder) (e : TxStep) : Prop :=
  ∀ r tx, s = .ok r → e = .put → r.sending = .refused tx → r.uart.tx ≠ none

end Responder

/-! ## What the steps do -/

namespace UartData

theorem len_poke {b b' : UartData} {i : Nat} {c : UInt8} (h : b.poke i c = .ok b') :
    b'.len = b.len := by
  unfold poke at h
  split at h
  · obtain rfl := Except.ok.inj h
    rfl
  · exact absurd h (by simp)

theorem lt_of_poke {b b' : UartData} {i : Nat} {c : UInt8} (h : b.poke i c = .ok b') :
    i < recieveBuffSize := by
  unfold poke at h
  split at h
  · assumption
  · exact absurd h (by simp)

/-- What `uart_tx` is given: something to send, and no more than there is room for. -/
def Sendable (b : UartData) : Prop := 0 < b.len.toNat ∧ b.len.toNat ≤ recieveBuffSize

instance (b : UartData) : Decidable b.Sendable := inferInstanceAs (Decidable (_ ∧ _))

/-- A response that could be filled is one, since its last byte was written. -/
theorem response_sendable {block : Vector UInt8 recieveBuffSize} {data : Nat → UInt8}
    {dataSize : Nat} {b : UartData} (h : response block data dataSize = .ok b) : b.Sendable := by
  simp only [response, bind, Except.bind] at h
  split at h
  · exact absurd h (by simp)
  split at h
  · exact absurd h (by simp)
  split at h
  · exact absurd h (by simp)
  · rename_i hlen
    rw [Sendable, len_poke h, hlen]
    exact ⟨Nat.succ_pos _, lt_of_poke h⟩

end UartData

namespace Uart

theorem newResponse_eq_ok {u : Uart} {malloc : Malloc} {data : Nat → UInt8} {dataSize : Nat}
    {r : BufPtr × Uart} (h : u.newResponse malloc data dataSize = .ok r) :
    ∃ b : UartData, b.Sendable ∧
      r = (u.nextPtr,
        { u with heap := u.heap.insert u.nextPtr b, nextPtr := u.nextPtr + 1 }) := by
  cases malloc with
  | none => exact absurd h (by simp [newResponse])
  | some block =>
    cases hb : UartData.response block data dataSize with
    | error f => exact absurd h (by simp [newResponse, hb, bind, Except.bind])
    | ok b =>
      refine ⟨b, UartData.response_sendable hb, ?_⟩
      simp only [newResponse, hb, bind, Except.bind] at h
      exact (Except.ok.inj h).symm

section txDone

variable {u : Uart} {t : Transmission} (ht : u.tx = some t) (haborted : u.abortedBuf = none)
  (hoffset : t.start.offset = 0) (hlen : 0 < t.len) (hmem : t.start.buf ∈ u.heap)

include ht haborted hoffset hlen hmem

/-- `UART_TX_DONE` with nothing on the fifo. -/
theorem txDone_nil (hfifo : u.txFifo = []) :
    u.txDone = some (.ok { u with heap := u.heap.erase t.start.buf, tx := none }) := by
  obtain ⟨b, hb⟩ := Finmap.mem_iff.mp hmem
  simp [txDone, ht, uartCb, hlen.ne', haborted, containerOf, hoffset, deref, hb, hfifo, bind,
    Except.bind]

/-- `UART_TX_DONE` goes on with the first buffer of the fifo. -/
theorem txDone_cons {p : BufPtr} {rest : List BufPtr} {b : UartData}
    (hfifo : u.txFifo = p :: rest) (hne : p ≠ t.start.buf) (hp : u.heap.lookup p = some b) :
    u.txDone = some (.ok { u with
      heap := u.heap.erase t.start.buf
      txFifo := rest
      tx := some ⟨⟨p, 0⟩, b.len.toNat⟩ }) := by
  obtain ⟨c, hc⟩ := Finmap.mem_iff.mp hmem
  simp [txDone, ht, uartCb, hlen.ne', haborted, containerOf, hoffset, deref, hc, hfifo, bind,
    Except.bind, Finmap.lookup_erase_ne hne, hp, uartTx]

end txDone

end Uart

/-! ## The race -/

namespace Responder

/-- While the buffers are put on the fifo in time. -/
structure Sound (s : Responder) : Prop where
  aborted : s.uart.abortedBuf = none
  queue : s.handed ++ (s.uart.txFifo ++ s.sending.buffer) = s.calls
  nodup : s.calls.Nodup
  fresh : ∀ {p}, p ∈ s.calls → p < s.uart.nextPtr
  waiting : ∀ {p}, p ∈ s.uart.txFifo ++ s.sending.buffer →
    ∃ b, s.uart.heap.lookup p = some b ∧ 0 < b.len.toNat
  busy : ∀ {t}, s.uart.tx = some t →
    t.start.offset = 0 ∧ 0 < t.len ∧ t.start.buf ∈ s.uart.heap ∧ t.start.buf ∈ s.handed
  rest : s.uart.tx = none → s.uart.txFifo = []

theorem sound_init (data : Vector UInt8 recieveBuffSize) : (init data).Sound where
  aborted := rfl
  queue := rfl
  nodup := List.nodup_nil
  fresh := fun h => absurd h List.not_mem_nil
  waiting := fun h => absurd h List.not_mem_nil
  busy := fun h => absurd (show none = some _ from h) (by simp)
  rest := fun _ => rfl

section step

variable {s : Responder}

theorem Sound.orderly (h : s.Sound) : s.Orderly where
  order := ⟨_, h.queue⟩
  once := (List.nodup_append.mp (h.queue ▸ h.nodup)).1
  rest := fun hidle htx => by
    have hqueue := h.queue
    rw [h.rest htx, hidle] at hqueue
    exact ⟨h.rest htx, (List.append_nil _).symm.trans hqueue⟩

/-- What waits was not handed over. -/
theorem Sound.waiting_ne (h : s.Sound) {t : Transmission} (ht : s.uart.tx = some t) {p : BufPtr}
    (hp : p ∈ s.uart.txFifo ++ s.sending.buffer) : p ≠ t.start.buf := by
  obtain ⟨-, -, -, hmem⟩ := h.busy ht
  have hdisjoint := (List.nodup_append.mp (h.queue ▸ h.nodup)).2.2
  exact (hdisjoint _ hmem _ hp).symm

theorem Sound.fill (h : s.Sound) (hidle : s.sending = .idle) {b : UartData}
    (hb : 0 < b.len.toNat) :
    Sound { s with
      uart := { s.uart with
        heap := s.uart.heap.insert s.uart.nextPtr b
        nextPtr := s.uart.nextPtr + 1 }
      sending := .filled s.uart.nextPtr
      calls := s.calls ++ [s.uart.nextPtr] } := by
  have hqueue : s.handed ++ s.uart.txFifo = s.calls := by
    have hqueue := h.queue
    rw [hidle] at hqueue
    exact (congrArg (s.handed ++ ·) (List.append_nil _).symm).trans hqueue
  -- the block is new, so no call has it
  have hnew : s.uart.nextPtr ∉ s.calls := fun hmem => Nat.lt_irrefl _ (h.fresh hmem)
  exact {
    aborted := h.aborted
    queue := by
      show s.handed ++ (s.uart.txFifo ++ [s.uart.nextPtr]) = _
      rw [← List.append_assoc, hqueue]
    nodup := List.nodup_append.mpr ⟨h.nodup, List.nodup_singleton _, by
      rintro p hp q hq rfl
      exact hnew (List.mem_singleton.mp hq ▸ hp)⟩
    fresh := fun {p} hp => by
      rcases List.mem_append.mp hp with hp | hp
      · exact Nat.lt_succ_of_lt (h.fresh hp)
      · exact List.mem_singleton.mp hp ▸ Nat.lt_succ_self _
    waiting := fun {p} hp => by
      rcases List.mem_append.mp hp with hp | hp
      · have hne : p ≠ s.uart.nextPtr := by
          rintro rfl
          exact hnew (hqueue ▸ List.mem_append_right _ hp)
        obtain ⟨c, hc, hlen⟩ := h.waiting (List.mem_append_left _ hp)
        exact ⟨c, (Finmap.lookup_insert_of_ne _ hne).trans hc, hlen⟩
      · obtain rfl := List.mem_singleton.mp hp
        exact ⟨b, Finmap.lookup_insert _, hb⟩
    busy := fun {t} ht => by
      obtain ⟨hoffset, hlen, hmem, hhanded⟩ := h.busy ht
      exact ⟨hoffset, hlen, Finmap.mem_insert.mpr (.inr hmem), hhanded⟩
    rest := h.rest }

/-- The buffer that is filled is there. -/
theorem Sound.lookup_filled (h : s.Sound) {p : BufPtr} (hfilled : s.sending = .filled p) :
    ∃ b, s.uart.heap.lookup p = some b ∧ 0 < b.len.toNat := by
  apply h.waiting
  rw [hfilled]
  exact List.mem_append_right _ (List.mem_singleton_self p)

/-- `uart_tx` while the driver is idle. -/
theorem Sound.tx (h : s.Sound) {p : BufPtr} (hfilled : s.sending = .filled p)
    (htx : s.uart.tx = none) {b : UartData} (hb : s.uart.heap.lookup p = some b) :
    Sound { s with
      uart := { s.uart with tx := some ⟨⟨p, 0⟩, b.len.toNat⟩ }
      sending := .idle
      handed := s.handed ++ [p] } := by
  have hfifo := h.rest htx
  exact {
    aborted := h.aborted
    queue := by
      show s.handed ++ [p] ++ (s.uart.txFifo ++ []) = s.calls
      rw [← h.queue, hfifo, hfilled, List.append_assoc]
      rfl
    nodup := h.nodup
    fresh := h.fresh
    waiting := fun {q} hq => by
      have hq : q ∈ s.uart.txFifo ++ [] := hq
      rw [hfifo] at hq
      exact absurd hq List.not_mem_nil
    busy := fun {t} ht => by
      obtain rfl := Option.some.inj ht
      obtain ⟨c, hc, hlen⟩ := h.lookup_filled hfilled
      obtain rfl : c = b := Option.some.inj (hc.symm.trans hb)
      exact ⟨rfl, hlen, Finmap.mem_of_lookup_eq_some hb,
        List.mem_append_right _ (List.mem_singleton_self p)⟩
    rest := fun ht => absurd (show some _ = none from ht) (by simp) }

/-- `uart_tx` while a transmission is in progress. -/
theorem Sound.refused (h : s.Sound) {p : BufPtr} (hfilled : s.sending = .filled p) :
    Sound { s with sending := .refused p } := by
  have hsame : (Sending.refused p).buffer = s.sending.buffer := by rw [hfilled]; rfl
  exact {
    aborted := h.aborted
    queue := (congrArg (fun l => s.handed ++ (s.uart.txFifo ++ l)) hsame).trans h.queue
    nodup := h.nodup
    fresh := h.fresh
    waiting := fun {q} hq => h.waiting (hsame ▸ hq)
    busy := h.busy
    rest := h.rest }

/-- `k_fifo_put` while a transmission is in progress. -/
theorem Sound.put (h : s.Sound) {p : BufPtr} (hrefused : s.sending = .refused p)
    (htx : s.uart.tx ≠ none) :
    Sound { s with
      uart := { s.uart with txFifo := s.uart.txFifo ++ [p] }
      sending := .idle } := by
  have hsame : s.uart.txFifo ++ [p] ++ [] = s.uart.txFifo ++ s.sending.buffer := by
    rw [hrefused, List.append_nil]
    rfl
  exact {
    aborted := h.aborted
    queue := (congrArg (s.handed ++ ·) hsame).trans h.queue
    nodup := h.nodup
    fresh := h.fresh
    waiting := fun {q} hq => h.waiting (hsame ▸ hq)
    busy := h.busy
    rest := fun ht => absurd ht htx }

/-- The buffer that is freed is none of those that wait. -/
theorem Sound.waiting_erase (h : s.Sound) {t : Transmission} (ht : s.uart.tx = some t) {p : BufPtr}
    (hp : p ∈ s.uart.txFifo ++ s.sending.buffer) :
    ∃ b, (s.uart.heap.erase t.start.buf).lookup p = some b ∧ 0 < b.len.toNat := by
  obtain ⟨b, hb, hpos⟩ := h.waiting hp
  exact ⟨b, (Finmap.lookup_erase_ne (h.waiting_ne ht hp)).trans hb, hpos⟩

/-- `UART_TX_DONE`. -/
theorem Sound.txDone (h : s.Sound) {t : Except Fault Uart} (ht : s.uart.txDone = some t) :
    ∃ u, t = .ok u ∧
      Sound { s with uart := u, handed := s.handed ++ u.tx.toList.map fun t => t.start.buf } := by
  obtain ⟨sent, hsent⟩ : ∃ sent, s.uart.tx = some sent := by
    obtain ⟨sent, hsent, -⟩ := Option.map_eq_some_iff.mp ht
    exact ⟨sent, hsent⟩
  obtain ⟨hoffset, hlen, hmem, -⟩ := h.busy hsent
  -- the callback hands on the next buffer of the fifo, if there is one
  cases hfifo : s.uart.txFifo with
  | nil =>
    rw [Uart.txDone_nil hsent h.aborted hoffset hlen hmem hfifo, Option.some.injEq] at ht
    subst ht
    refine ⟨_, rfl, ?_⟩
    exact {
      aborted := h.aborted
      queue := (congrArg (· ++ _) (List.append_nil s.handed)).trans h.queue
      nodup := h.nodup
      fresh := h.fresh
      waiting := fun hq => h.waiting_erase hsent hq
      busy := fun {t} ht => absurd (show none = some t from ht) (by simp)
      rest := fun _ => hfifo }
  | cons p rest =>
    have hp : p ∈ s.uart.txFifo ++ s.sending.buffer := by
      rw [hfifo]
      exact List.mem_cons_self
    obtain ⟨b, hb, hpos⟩ := h.waiting hp
    rw [Uart.txDone_cons hsent h.aborted hoffset hlen hmem hfifo (h.waiting_ne hsent hp) hb,
      Option.some.injEq] at ht
    subst ht
    refine ⟨_, rfl, ?_⟩
    exact {
      aborted := h.aborted
      queue := by
        show s.handed ++ [p] ++ (rest ++ s.sending.buffer) = s.calls
        rw [← h.queue, hfifo, List.append_assoc]
        rfl
      nodup := h.nodup
      fresh := h.fresh
      waiting := fun {q} hq => h.waiting_erase hsent (by
        rw [hfifo]
        exact List.mem_cons_of_mem p hq)
      busy := fun {t} ht => by
        obtain rfl := Option.some.inj ht
        obtain ⟨c, hc, -⟩ := h.waiting_erase hsent hp
        exact ⟨rfl, hpos, Finmap.mem_of_lookup_eq_some hc,
          List.mem_append_right _ (List.mem_singleton_self p)⟩
      rest := fun ht => absurd (show some _ = none from ht) (by simp) }

end step

/-- `P` holds if no fault has ended the program. -/
def Running (P : Responder → Prop) (s : Except Fault Responder) : Prop := ∀ r, s = .ok r → P r

theorem running_ok {P : Responder → Prop} {s : Responder} (h : P s) : Running P (.ok s) :=
  fun _ hr => Except.ok.inj hr ▸ h

theorem running_error {P : Responder → Prop} (f : Fault) : Running P (.error f) :=
  fun _ hr => absurd hr (by simp)

/-- One step that is in time. -/
theorem sound_step {s s' : Except Fault Responder} {e : TxStep} (h : Running Sound s)
    (hgood : InTime s e) (hs : step s e = some s') : Running Sound s' := by
  cases s with
  | error f =>
    obtain rfl := Option.some.inj hs
    exact running_error f
  | ok s =>
    have hsound := h s rfl
    cases e with
    | fill malloc data dataSize =>
      cases hsending : s.sending with
      | idle =>
        simp only [step, hsending, Option.some.injEq] at hs
        cases hnew : s.uart.newResponse malloc data dataSize with
        | error f =>
          rw [hnew] at hs
          exact hs ▸ running_error f
        | ok r =>
          -- whatever is filled has at least its two framing bytes
          obtain ⟨b, hb, rfl⟩ := Uart.newResponse_eq_ok hnew
          rw [hnew] at hs
          exact hs ▸ running_ok (hsound.fill hsending hb.1)
      | _ => exact absurd hs (by simp [step, hsending])
    | tx =>
      cases hsending : s.sending with
      | filled p =>
        simp only [step, hsending, Option.some.injEq] at hs
        obtain ⟨b, hb, -⟩ := hsound.lookup_filled hsending
        rw [Uart.deref_of_lookup hb] at hs
        cases htx : s.uart.tx with
        | none =>
          simp only [Except.map, Uart.uartTx, htx] at hs
          exact hs ▸ running_ok (hsound.tx hsending htx hb)
        | some t =>
          simp only [Except.map, Uart.uartTx, htx] at hs
          exact hs ▸ running_ok (hsound.refused hsending)
      | _ => exact absurd hs (by simp [step, hsending])
    | put =>
      cases hsending : s.sending with
      | refused p =>
        simp only [step, hsending, Option.some.injEq] at hs
        exact hs ▸ running_ok (hsound.put hsending (hgood s p rfl rfl hsending))
      | _ => exact absurd hs (by simp [step, hsending])
    | txDone =>
      obtain ⟨t, ht, rfl⟩ := Option.map_eq_some_iff.mp hs
      obtain ⟨u, rfl, hu⟩ := hsound.txDone ht
      exact running_ok hu

/-- A buffer put on the fifo too late stays there. -/
theorem stranded {s s' : Except Fault Responder} {e : TxStep} (hbad : ¬ InTime s e)
    (hs : step s e = some s') : ¬ Running Orderly s' := by
  unfold InTime at hbad
  push Not at hbad
  obtain ⟨s, p, rfl, rfl, hsending, htx⟩ := hbad
  simp only [step, hsending, Option.some.injEq] at hs
  subst hs
  intro horderly
  have hfifo : s.uart.txFifo ++ [p] = [] := ((horderly _ rfl).rest rfl htx).1
  exact absurd hfifo (by simp)

/-- **When the responses go out in order and none is stranded**, over every interleaving of
    `send_response` calls with `UART_TX_DONE`. -/
theorem orderly_iff (data : Vector UInt8 recieveBuffSize) (es : List TxStep) :
    Transition.Always step (Running Orderly) (.ok (init data)) es ↔
      Transition.Along step InTime (.ok (init data)) es := by
  apply Transition.always_iff_along_good (I := Running Sound)
  · exact sound_step
  · exact fun hs r hr => (hs r hr).orderly
  · exact fun _ => stranded
  · rintro s e hnone r p rfl rfl hsending
    exact absurd hnone (by simp [step, hsending])
  · exact running_ok (sound_init data)

/-- What the main loop relies on. -/
def RespondsInOrder : Prop :=
  ∀ (data : Vector UInt8 recieveBuffSize) (es : List TxStep),
    Transition.Always step (Running Orderly) (.ok (init data)) es

/-- The first transmission ends between the `uart_tx` and the `k_fifo_put` of the second response. -/
theorem response_stranded : ¬ RespondsInOrder := by
  intro h
  let block : Vector UInt8 recieveBuffSize := Vector.replicate recieveBuffSize 0
  let fill : TxStep := .fill (some block) (fun _ => 0xFF) 1
  have hlast := Transition.always_run (h block [fill, .tx, fill, .tx, .txDone, .put]) rfl
  have hfifo := ((hlast _ rfl).rest rfl rfl).1
  exact absurd hfifo (by decide)

end Responder

end NrfSpheros
