/-
  The whole of the UART: both halves of `uart_cb` on the one heap, over every interleaving.

  1. `Board` — the receiver and the transmitter share a `Uart`; a step is one of either.
  2. **Frames of the receiving half** (`Quiet`).  Its events leave the transmission alone, and of the
     heap they touch the driver's receive buffers and new blocks only.
  3. **Frames of the transmitting half** (`Deaf`).  Its steps leave reception alone, and touch
     responses and new blocks only.
  4. **Every run** (`board_shares`) in which the host sends no more than the current receive buffer has
     room for — each half goes on as if it were alone: no fault, the frames are those of the inbox that
     sees the receive events, every response is sent byte for byte and freed once; and the heap is the
     receive buffers and the responses not done yet, nothing else: no block is lost, and none has two
     owners.
-/
import NrfSpheros.Main.Receiver
import NrfSpheros.Main.Aborts
import Mathlib.Tactic.Tauto

namespace NrfSpheros

namespace Uart

/-- The blocks the driver receives into. -/
def rxOwned (u : Uart) : List BufPtr := u.rxBuf.toList ++ u.rxNext.toList

theorem mem_rxOwned {u : Uart} {p : BufPtr} :
    p ∈ u.rxOwned ↔ u.rxBuf = some p ∨ u.rxNext = some p := by
  rw [rxOwned, List.mem_append, Option.mem_toList, Option.mem_toList]

/-- What the driver receives into is there. -/
theorem mem_heap_of_rxOwned {u : Uart} {current : Option (List UInt8)} (h : u.Holds current)
    {p : BufPtr} (hp : p ∈ u.rxOwned) : p ∈ u.heap := by
  rw [mem_rxOwned] at hp
  cases current with
  | none =>
    obtain ⟨hbuf, hnext, -, -⟩ := h
    rw [hbuf, hnext] at hp
    simp at hp
  | some got =>
    obtain ⟨q, b, hr, -⟩ := h
    rcases hp with hp | hp
    · obtain rfl := Option.some.inj (hr.buf.symm.trans hp)
      exact Finmap.mem_of_lookup_eq_some hr.held
    · obtain ⟨-, c, hc, -⟩ := hr.next hp
      exact Finmap.mem_of_lookup_eq_some hc

/-! ## The receiving half -/

/-- From `u` to `v` only reception went on. -/
structure Quiet (u v : Uart) : Prop where
  abortedLen : v.abortedLen = u.abortedLen
  abortedBuf : v.abortedBuf = u.abortedBuf
  txFifo : v.txFifo = u.txFifo
  tx : v.tx = u.tx
  next : u.nextPtr ≤ v.nextPtr
  /-- Blocks of others are as they were. -/
  others : ∀ {p}, p < u.nextPtr → p ∉ u.rxOwned → v.heap.lookup p = u.heap.lookup p
  /-- The driver gets new blocks only. -/
  owned : ∀ {p}, p ∈ v.rxOwned → p ∈ u.rxOwned ∨ u.nextPtr ≤ p
  /-- What is there is the driver's, or was there before and is of others. -/
  cover : ∀ {p}, p ∈ v.heap → p ∈ v.rxOwned ∨ (p ∈ u.heap ∧ p ∉ u.rxOwned)

/-- A block of the driver is written to. -/
theorem quiet_insert {u : Uart} {p : BufPtr} (hp : p ∈ u.rxOwned) (b : UartData) (rxPos : Nat)
    (disableReq rxDisabling : Bool) :
    u.Quiet { u with heap := u.heap.insert p b, rxPos, disableReq, rxDisabling } where
  abortedLen := rfl
  abortedBuf := rfl
  txFifo := rfl
  tx := rfl
  next := Nat.le_refl _
  others := fun _ hnot => Finmap.lookup_insert_of_ne _ fun heq => hnot (heq ▸ hp)
  owned := Or.inl
  cover := by
    intro q hq
    by_cases hown : q ∈ u.rxOwned
    · exact Or.inl hown
    · rcases Finmap.mem_insert.mp hq with rfl | hq
      · exact absurd hp hown
      · exact Or.inr ⟨hq, hown⟩

/-- The work item finds the driver off. -/
theorem quiet_workHandler {u : Uart} (hbuf : u.rxBuf = none) (hnext : u.rxNext = none)
    (malloc : Malloc) : u.Quiet (u.uartWorkHandler malloc) := by
  have hnone : u.rxOwned = [] := by
    rw [rxOwned, hbuf, hnext]
    rfl
  have hcover : ∀ {p}, p ∈ u.heap → p ∈ u.heap ∧ p ∉ u.rxOwned :=
    fun hp => ⟨hp, by rw [hnone]; exact List.not_mem_nil⟩
  cases malloc with
  | none => exact ⟨rfl, rfl, rfl, rfl, Nat.le_refl _, fun _ _ => rfl, Or.inl, fun hp => Or.inr (hcover hp)⟩
  | some data =>
    have hwork : u.uartWorkHandler (some data) = { u with
        work := false
        heap := u.heap.insert u.nextPtr ⟨data, 0⟩
        nextPtr := u.nextPtr + 1
        rxBuf := some u.nextPtr
        rxPos := 0 } := by
      simp only [uartWorkHandler, newBuffer, Option.map_some, uartRxEnable, hbuf]
    rw [hwork]
    refine ⟨rfl, rfl, rfl, rfl, Nat.le_succ _, fun hp _ => ?_, fun {p} hp => ?_, fun {p} hp => ?_⟩
    · exact Finmap.lookup_insert_of_ne _ (Nat.ne_of_lt hp)
    · rcases mem_rxOwned.mp hp with hp | hp
      · exact Or.inr (Nat.le_of_eq (Option.some.inj hp))
      · rw [show u.rxNext = some p from hp] at hnext
        cases hnext
    · rcases Finmap.mem_insert.mp hp with rfl | hp
      · exact Or.inl (mem_rxOwned.mpr (Or.inl rfl))
      · exact Or.inr (hcover hp)

theorem Quiet.trans {u v w : Uart} (h : u.Quiet v) (h' : v.Quiet w) : u.Quiet w where
  abortedLen := h'.abortedLen.trans h.abortedLen
  abortedBuf := h'.abortedBuf.trans h.abortedBuf
  txFifo := h'.txFifo.trans h.txFifo
  tx := h'.tx.trans h.tx
  next := Nat.le_trans h.next h'.next
  others := by
    intro p hp hnot
    have hnot' : p ∉ v.rxOwned := fun hmem => by
      rcases h.owned hmem with hmem | hle
      · exact hnot hmem
      · exact absurd hp (Nat.not_lt.mpr hle)
    exact (h'.others (Nat.lt_of_lt_of_le hp h.next) hnot').trans (h.others hp hnot)
  owned := by
    intro p hp
    rcases h'.owned hp with hp | hle
    · exact h.owned hp
    · exact Or.inr (Nat.le_trans h.next hle)
  cover := by
    intro p hp
    rcases h'.cover hp with hp | ⟨hp, hnot⟩
    · exact Or.inl hp
    · exact (h.cover hp).imp_left fun hmem => absurd hmem hnot

/-- The driver asks for a second buffer. -/
theorem quiet_rxBufRequest {u v : Uart} {malloc : Malloc}
    (hv : u.rxBufRequest malloc = some (.ok v)) : u.Quiet v := by
  obtain ⟨heap, nextPtr, abortedLen, abortedBuf, disableReq, rxFifo, txFifo, work, rxBuf, rxNext,
    rxPos, rxDisabling, tx⟩ := u
  cases rxBuf with
  | none => exact absurd hv (by simp [rxBufRequest])
  | some p =>
    cases rxNext with
    | some _ => exact absurd hv (by simp [rxBufRequest])
    | none =>
      cases malloc with
      | none =>
        obtain rfl := Except.ok.inj (Option.some.inj hv)
        refine ⟨rfl, rfl, rfl, rfl, Nat.le_refl _, fun _ _ => rfl, Or.inl, fun {q} hq => ?_⟩
        exact (Classical.em _).imp_right fun hnot => ⟨hq, hnot⟩
      | some data =>
        obtain rfl := Except.ok.inj (Option.some.inj hv)
        refine ⟨rfl, rfl, rfl, rfl, Nat.le_succ _, fun hq _ => ?_, fun {q} hq => ?_, fun {q} hq => ?_⟩
        · exact Finmap.lookup_insert_of_ne _ (Nat.ne_of_lt hq)
        · rcases mem_rxOwned.mp hq with hq | hq
          · exact Or.inl (mem_rxOwned.mpr (Or.inl hq))
          · exact Or.inr (Nat.le_of_eq (Option.some.inj hq))
        · rcases Finmap.mem_insert.mp hq with rfl | hq
          · exact Or.inl (mem_rxOwned.mpr (Or.inr rfl))
          · by_cases hp : p = q
            · exact Or.inl (mem_rxOwned.mpr (Or.inl (congrArg some hp)))
            · refine Or.inr ⟨hq, fun hmem => ?_⟩
              rcases mem_rxOwned.mp hmem with h | h
              · exact hp (Option.some.inj h)
              · cases h

/-- The driver has given its buffers back; `b` goes on the fifo. -/
def released (u : Uart) (b : UartData) : Uart :=
  { u with
    heap := u.rxOwned.foldl (fun heap p => heap.erase p) u.heap
    rxFifo := u.rxFifo ++ [b]
    disableReq := false
    rxBuf := none
    rxNext := none
    rxDisabling := false }

theorem rxDisabled_eq {u : Uart} {p : BufPtr} {b : UartData} (hr : u.Receiving p b)
    (hdis : u.rxDisabling = true) (malloc : Malloc) :
    u.rxDisabled malloc = some (.ok ((u.released b).uartWorkHandler malloc)) := by
  have hidle := hr.idle
  cases hnext : u.rxNext with
  | none =>
    simp only [rxDisabled, hr.buf, hdis, uartCb_rxBufReleased none hr.held (hr.started hdis), bind,
      Except.bind, rxReleaseNext, hnext]
    rw [uartCb_rxDisabled]
    · simp [released, rxOwned, hr.buf, hnext]
    · exact hidle
  | some q =>
    obtain ⟨hne, c, hq, hlen⟩ := hr.next hnext
    have hq' : (u.heap.erase p).lookup q = some c := (Finmap.lookup_erase_ne hne).trans hq
    simp only [rxDisabled, hr.buf, hdis, uartCb_rxBufReleased none hr.held (hr.started hdis), bind,
      Except.bind, rxReleaseNext, hnext]
    rw [uartCb_rxBufReleased_empty none hq' hlen]
    simp only
    rw [uartCb_rxDisabled]
    · simp [released, rxOwned, hr.buf, hnext]
    · exact hidle

theorem mem_foldl_erase {ps : List BufPtr} {heap : Finmap fun _ : BufPtr => UartData} {q : BufPtr} :
    q ∈ ps.foldl (fun heap p => heap.erase p) heap ↔ q ∈ heap ∧ q ∉ ps := by
  induction ps generalizing heap with
  | nil => simp
  | cons p ps ih =>
    rw [List.foldl_cons, ih, Finmap.mem_erase, List.mem_cons, not_or]
    tauto

theorem lookup_foldl_erase {ps : List BufPtr} {heap : Finmap fun _ : BufPtr => UartData}
    {q : BufPtr} (hq : q ∉ ps) :
    (ps.foldl (fun heap p => heap.erase p) heap).lookup q = heap.lookup q := by
  induction ps generalizing heap with
  | nil => rfl
  | cons p ps ih =>
    rw [List.mem_cons, not_or] at hq
    rw [List.foldl_cons, ih hq.2, Finmap.lookup_erase_ne hq.1]

theorem quiet_released (u : Uart) (b : UartData) : u.Quiet (u.released b) where
  abortedLen := rfl
  abortedBuf := rfl
  txFifo := rfl
  tx := rfl
  next := Nat.le_refl _
  others := fun _ hnot => lookup_foldl_erase hnot
  owned := fun hp => absurd hp List.not_mem_nil
  cover := fun hp => Or.inr (mem_foldl_erase.mp hp)

/-- The driver stops. -/
theorem quiet_rxDisabled {u v : Uart} {p : BufPtr} {b : UartData} {malloc : Malloc}
    (hr : u.Receiving p b) (hv : u.rxDisabled malloc = some (.ok v)) :
    u.Quiet v ∧ v.rxFifo = u.rxFifo ++ [b] ∧ 0 < b.len := by
  have hdis : u.rxDisabling = true := by
    by_contra hno
    rw [Bool.not_eq_true] at hno
    simp only [rxDisabled, hr.buf, hno, reduceCtorEq] at hv
  rw [rxDisabled_eq hr hdis] at hv
  obtain rfl := Except.ok.inj (Option.some.inj hv)
  exact ⟨(quiet_released u b).trans (quiet_workHandler rfl rfl malloc),
    rxFifo_uartWorkHandler _ malloc, hr.started hdis⟩

end Uart

namespace Receiver

/-- What the main thread has taken after an event. -/
def handledAfter (s : Receiver) : RxStep → List UartData
  | .get => s.handled ++ s.uart.rxFifo.take 1
  | _ => s.handled

theorem handled_step {s s' : Receiver} {e : RxStep} (hs : step (.ok s) e = some (.ok s')) :
    s'.handled = s.handledAfter e := by
  cases e with
  | bytes | bufRequest | disabled =>
    obtain ⟨x, -, hx⟩ := Option.map_eq_some_iff.mp hs
    cases x with
    | error f => cases hx
    | ok v =>
      obtain rfl := Except.ok.inj hx
      rfl
  | work malloc =>
    simp only [step] at hs
    split at hs
    · obtain rfl := Except.ok.inj (Option.some.inj hs)
      rfl
    · cases hs
  | get =>
    cases hfifo : s.uart.rxFifo with
    | nil => exact absurd hs (by simp [step, hfifo])
    | cons b rest =>
      simp only [step, hfifo, Option.some.injEq, Except.ok.injEq] at hs
      rw [← hs, handledAfter, hfifo]
      rfl

/-- A buffer on the fifo is not empty and not longer than its array. -/
def Filled (b : UartData) : Prop := 0 < b.len.toNat ∧ b.len.toNat ≤ recieveBuffSize

/-- **One event of the receiving half.** -/
theorem quiet_step {s s' : Receiver} {r : Inbox} {e : RxStep} (h : s.Refines r)
    (hs : step (.ok s) e = some (.ok s')) :
    s.uart.Quiet s'.uart ∧ ((∀ b ∈ s.put, Filled b) → ∀ b ∈ s'.put, Filled b) := by
  obtain ⟨frames, current, ending⟩ := r
  have hholds := h.holds
  cases e with
  | bytes run =>
    obtain ⟨x, hx, hs⟩ := Option.map_eq_some_iff.mp hs
    cases current with
    | none => exact absurd hx (by simp [Uart.rxBytes, Uart.Starved.buf hholds])
    | some got =>
      -- the driver writes into the buffer it has, and only there
      obtain ⟨p, b, hr, -⟩ := hholds
      have hroom : run ≠ [] ∧ b.len.toNat + run.length ≤ recieveBuffSize := by
        by_contra hno
        simp only [Uart.rxBytes, hr.buf, hr.pos, dif_neg hno, reduceCtorEq] at hx
      rw [Uart.rxBytes_of_receiving h.sound hr hroom.1 hroom.2] at hx
      obtain rfl := Option.some.inj hx
      obtain rfl := Except.ok.inj hs
      exact ⟨Uart.quiet_insert (Uart.mem_rxOwned.mpr (Or.inl hr.buf)) _ _ _ _, id⟩
  | bufRequest malloc =>
    obtain ⟨x, hx, hs⟩ := Option.map_eq_some_iff.mp hs
    cases x with
    | error f => cases hs
    | ok v =>
      obtain rfl := Except.ok.inj hs
      refine ⟨Uart.quiet_rxBufRequest hx, fun hput => ?_⟩
      cases current with
      | none => exact absurd hx (by simp [Uart.rxBufRequest, Uart.Starved.buf hholds])
      | some got =>
        obtain ⟨p, b, hr, -⟩ := hholds
        obtain ⟨w, hw, -, -, hfifo, -⟩ := Uart.receiving_rxBufRequest h.sound hr hx
        obtain rfl := Except.ok.inj hw
        show ∀ b ∈ s.handled ++ v.rxFifo, Filled b
        rw [hfifo]
        exact hput
  | disabled malloc =>
    obtain ⟨x, hx, hs⟩ := Option.map_eq_some_iff.mp hs
    cases x with
    | error f => cases hs
    | ok v =>
      obtain rfl := Except.ok.inj hs
      cases current with
      | none => exact absurd hx (by simp [Uart.rxDisabled, Uart.Starved.buf hholds])
      | some got =>
        obtain ⟨p, b, hr, -⟩ := hholds
        obtain ⟨hquiet, hfifo, hpos⟩ := Uart.quiet_rxDisabled hr hx
        refine ⟨hquiet, fun hput c hc => ?_⟩
        -- the fifo gains the buffer that was filled, and that one is not empty
        have hc : c ∈ s.put ++ [b] := by
          rw [put, List.append_assoc, ← hfifo]
          exact hc
        rcases List.mem_append.mp hc with hc | hc
        · exact hput c hc
        · rw [List.mem_singleton.mp hc]
          exact ⟨hpos, hr.fits⟩
  | work malloc =>
    have hwork : s.uart.work = true := by
      by_contra hno
      simp only [step, if_neg hno, reduceCtorEq] at hs
    rw [step, if_pos hwork] at hs
    obtain rfl := Except.ok.inj (Option.some.inj hs)
    cases current with
    | none =>
      obtain ⟨hbuf, hnext, -, -⟩ := hholds
      refine ⟨Uart.quiet_workHandler hbuf hnext malloc, fun hput => ?_⟩
      show ∀ b ∈ s.handled ++ (s.uart.uartWorkHandler malloc).rxFifo, Filled b
      rw [Uart.rxFifo_uartWorkHandler]
      exact hput
    | some got =>
      obtain ⟨p, b, hr, -⟩ := hholds
      exact absurd hr.idle (by simp [hwork])
  | get =>
    cases hfifo : s.uart.rxFifo with
    | nil => exact absurd hs (by simp [step, hfifo])
    | cons b rest =>
      simp only [step, hfifo, Option.some.injEq, Except.ok.injEq] at hs
      subst hs
      refine ⟨⟨rfl, rfl, rfl, rfl, Nat.le_refl _, fun _ _ => rfl, Or.inl, fun {p} hp => ?_⟩, ?_⟩
      · exact (Classical.em _).imp_right fun hnot => ⟨hp, hnot⟩
      · rw [put, put, hfifo, List.append_assoc]
        exact id

end Receiver

/-! ## The transmitting half -/

namespace Transmitter

/-- From `s` to `s'` only the transmission went on. -/
structure Deaf (s s' : Transmitter) : Prop where
  rxFifo : s'.uart.rxFifo = s.uart.rxFifo
  work : s'.uart.work = s.uart.work
  rxBuf : s'.uart.rxBuf = s.uart.rxBuf
  rxNext : s'.uart.rxNext = s.uart.rxNext
  rxPos : s'.uart.rxPos = s.uart.rxPos
  rxDisabling : s'.uart.rxDisabling = s.uart.rxDisabling
  disableReq : s'.uart.disableReq = s.uart.disableReq
  next : s.uart.nextPtr ≤ s'.uart.nextPtr
  /-- Blocks of others are as they were. -/
  others : ∀ {p}, p < s.uart.nextPtr → p ∉ s.responses →
    s'.uart.heap.lookup p = s.uart.heap.lookup p
  kept : ∀ {p}, p ∈ s.responses → p ∈ s'.responses
  /-- A response is filled in a new block. -/
  filled : ∀ {p}, p ∈ s'.responses → p ∈ s.responses ∨ s.uart.nextPtr ≤ p
  cover : ∀ {p}, p ∈ s'.uart.heap → p ∈ s.uart.heap ∨ (p ∈ s'.responses ∧ p < s'.uart.nextPtr)

section deaf

variable {s : Transmitter} {t : Transmission} {b : UartData} {p : BufPtr}

theorem deaf_fill : s.Deaf (s.afterFill b) where
  rxFifo := rfl
  work := rfl
  rxBuf := rfl
  rxNext := rfl
  rxPos := rfl
  rxDisabling := rfl
  disableReq := rfl
  next := Nat.le_succ _
  others := fun hp _ => Finmap.lookup_insert_of_ne _ (Nat.ne_of_lt hp)
  kept := fun hp => Finmap.mem_insert.mpr (Or.inr hp)
  filled := fun hp => (Finmap.mem_insert.mp hp).symm.imp_right fun heq => Nat.le_of_eq heq.symm
  cover := by
    intro p hp
    rcases Finmap.mem_insert.mp hp with rfl | hp
    · exact Or.inr ⟨Finmap.mem_insert.mpr (Or.inl rfl), Nat.lt_succ_self _⟩
    · exact Or.inl hp

/-- Steps that touch no block. -/
theorem deaf_same {s' : Transmitter} {tx : Option Transmission} {txFifo : List BufPtr}
    {abortedBuf : Option DataPtr} {abortedLen : Nat}
    (huart : s'.uart = { s.uart with tx, txFifo, abortedBuf, abortedLen })
    (hresponses : s'.responses = s.responses) : s.Deaf s' := by
  obtain ⟨uart, sending, responses, sent, done⟩ := s'
  obtain rfl : uart = _ := huart
  obtain rfl : responses = s.responses := hresponses
  exact ⟨rfl, rfl, rfl, rfl, rfl, rfl, rfl, Nat.le_refl _, fun _ _ => rfl, id, Or.inl, Or.inl⟩

theorem deaf_done (hc : s.Carries t b) (tx : Option Transmission) (txFifo : List BufPtr) :
    s.Deaf (s.afterDone t b tx txFifo) where
  rxFifo := rfl
  work := rfl
  rxBuf := rfl
  rxNext := rfl
  rxPos := rfl
  rxDisabling := rfl
  disableReq := rfl
  next := Nat.le_refl _
  others := fun _ hnot => Finmap.lookup_erase_ne fun heq =>
    hnot (heq ▸ Finmap.mem_of_lookup_eq_some hc.response)
  kept := id
  filled := Or.inl
  cover := fun hp => Or.inl (Finmap.mem_erase.mp hp).2

end deaf

/-- The responses after a step. -/
def responsesAfter (s : Transmitter) : TransmitterStep → Finmap fun _ : BufPtr => UartData
  | .fill b => s.responses.insert s.uart.nextPtr b
  | _ => s.responses

/-- **One step of the transmitting half.** -/
theorem deaf_step {s : Transmitter} {r : Except Fault Transmitter} {e : TransmitterStep}
    (h : s.Resumes) (hs : step (.ok s) e = some r) :
    ∃ s', r = .ok s' ∧ s'.Resumes ∧ s.Deaf s' ∧ s'.responses = s.responsesAfter e := by
  obtain ⟨s', rfl, hresumes⟩ := resumes_step ⟨s, rfl, h⟩ hs
  refine ⟨s', rfl, hresumes, ?_⟩
  cases e with
  | fill b =>
    cases hsending : s.sending with
    | idle =>
      by_cases hb : b.Sendable
      · rw [step_fill hsending hb, Option.some.injEq, Except.ok.injEq] at hs
        exact hs ▸ ⟨deaf_fill, rfl⟩
      · exact absurd hs (by simp [step, hsending, hb])
    | _ => exact absurd hs (by simp [step, hsending])
  | tx =>
    cases hsending : s.sending with
    | filled p =>
      -- the driver takes the buffer, or is busy and does not
      obtain ⟨-, -, b, hb, hblock⟩ := h.owned.in_hand hsending
      cases htx : s.uart.tx with
      | none =>
        rw [step_tx hsending hblock htx, Option.some.injEq, Except.ok.injEq] at hs
        exact hs ▸ ⟨deaf_same rfl rfl, rfl⟩
      | some t =>
        rw [step_tx_busy hsending hblock htx, Option.some.injEq, Except.ok.injEq] at hs
        exact hs ▸ ⟨deaf_same rfl rfl, rfl⟩
    | _ => exact absurd hs (by simp [step, hsending])
  | put =>
    cases hsending : s.sending with
    | refused p =>
      rw [step_put hsending, Option.some.injEq, Except.ok.injEq] at hs
      exact hs ▸ ⟨deaf_same rfl rfl, rfl⟩
    | _ => exact absurd hs (by simp [step, hsending])
  | txAborted k =>
    cases htx : s.uart.tx with
    | none => exact absurd hs (by simp [step, htx])
    | some t =>
      by_cases hk : k < t.len
      · obtain ⟨b, hc⟩ := h.carries htx
        rw [hc.step_txAborted hk, Option.some.injEq, Except.ok.injEq] at hs
        exact hs ▸ ⟨deaf_same rfl rfl, rfl⟩
      · exact absurd hs (by simp [step, htx, hk])
  | txDone =>
    cases htx : s.uart.tx with
    | none => exact absurd hs (by simp [step, htx])
    | some t =>
      obtain ⟨b, hc⟩ := h.carries htx
      obtain ⟨tx, txFifo, -, hcb⟩ := h.uartCb_txDone hc
      rw [hc.step_txDone hcb, Option.some.injEq, Except.ok.injEq] at hs
      exact hs ▸ ⟨deaf_done hc tx txFifo, rfl⟩

end Transmitter

/-! ## Each half survives the other -/

/-- The transmission goes on as it was while bytes are received. -/
theorem Transmitter.Resumes.of_quiet {s : Transmitter} {v : Uart} (h : s.Resumes)
    (hquiet : s.uart.Quiet v) (hapart : ∀ p ∈ s.uart.rxOwned, p ∉ s.responses) :
    Resumes { s with uart := v } := by
  have hothers : ∀ {p}, p ∈ s.responses → v.heap.lookup p = s.uart.heap.lookup p :=
    fun {p} hp => hquiet.others (h.owned.fresh hp) fun hmem => hapart p hmem hp
  -- what is sent and what waits depends on the fields that stay as they are
  have hcurrent : ({ s with uart := v } : Transmitter).current = s.current := by
    rw [current, current, hquiet.tx]
  have hqueue : ({ s with uart := v } : Transmitter).queue = s.queue := by
    rw [queue, queue, hcurrent, hquiet.txFifo]
  refine ⟨⟨?_, ?_, ?_, h.owned.sendable, ?_, ?_⟩, h.whole, ?_, ?_, ?_, ?_⟩
  · rw [hqueue]
    exact h.owned.once
  · rw [hqueue]
    exact h.owned.filled
  · exact fun hp => Nat.lt_of_lt_of_le (h.owned.fresh hp) hquiet.next
  · intro p b hnot hb
    exact (hothers (Finmap.mem_of_lookup_eq_some hb)).trans (h.owned.block hnot hb)
  · intro p hdone hmem
    have hp : p ∈ s.responses := h.owned.filled.mp (List.mem_append_left _ hdone)
    obtain ⟨b, hb⟩ := Finmap.mem_iff.mp hmem
    exact h.owned.freed hdone (Finmap.mem_of_lookup_eq_some ((hothers hp).symm.trans hb))
  · rw [hcurrent]
    exact h.silent
  · rw [hquiet.abortedBuf, hquiet.abortedLen]
    exact h.clear
  · rw [hquiet.tx, hquiet.abortedBuf]
    exact h.idle
  · intro t ht
    rw [hquiet.tx] at ht
    obtain ⟨b, hb, hat, hsent⟩ := h.busy ht
    refine ⟨b, hb, ⟨?_, ?_, ?_, hat.pos⟩, ?_⟩
    · rw [hquiet.abortedBuf]
      exact hat.first
    · rw [hquiet.abortedLen]
      exact hat.offset
    · rw [hquiet.abortedLen]
      exact hat.rest
    · rw [hquiet.abortedLen]
      exact hsent

/-- Reception goes on as it was while responses are sent. -/
theorem Receiver.Refines.of_deaf {s s' : Transmitter} {handled : List UartData} {r : Inbox}
    (h : Receiver.Refines ⟨s.uart, handled⟩ r) (hdeaf : s.Deaf s')
    (hapart : ∀ p ∈ s.uart.rxOwned, p ∉ s.responses) :
    Receiver.Refines ⟨s'.uart, handled⟩ r := by
  have hothers : ∀ {p}, p ∈ s.uart.rxOwned → s'.uart.heap.lookup p = s.uart.heap.lookup p :=
    fun {p} hp => hdeaf.others (h.sound.fresh (Uart.mem_heap_of_rxOwned h.holds hp)) (hapart p hp)
  refine ⟨?_, hdeaf.rxDisabling.trans h.ending, ⟨?_, ?_⟩, ?_⟩
  · rw [Receiver.put, hdeaf.rxFifo]
    exact h.frames
  · intro p hp
    -- a block is an old one, or the response that was just allocated
    rcases hdeaf.cover hp with hp | ⟨-, hlt⟩
    · exact Nat.lt_of_lt_of_le (h.sound.fresh hp) hdeaf.next
    · exact hlt
  · exact hdeaf.disableReq.trans (h.sound.flag.trans hdeaf.rxDisabling.symm)
  · have hholds := h.holds
    cases hcurrent : r.current with
    | none =>
      rw [hcurrent] at hholds
      exact ⟨hdeaf.rxBuf.trans hholds.buf, hdeaf.rxNext.trans hholds.next,
        hdeaf.rxDisabling.trans hholds.disabling, hdeaf.work.trans hholds.work⟩
    | some got =>
      rw [hcurrent] at hholds
      obtain ⟨p, b, hr, hcontents⟩ := hholds
      refine ⟨p, b, ?_, hcontents⟩
      exact {
        buf := hdeaf.rxBuf.trans hr.buf
        held := (hothers (Uart.mem_rxOwned.mpr (Or.inl hr.buf))).trans hr.held
        pos := hdeaf.rxPos.trans hr.pos
        fits := hr.fits
        idle := hdeaf.work.trans hr.idle
        next := fun {q} hq => by
          rw [hdeaf.rxNext] at hq
          obtain ⟨hne, c, hc, hlen⟩ := hr.next hq
          exact ⟨hne, c, (hothers (Uart.mem_rxOwned.mpr (Or.inr hq))).trans hc, hlen⟩
        started := fun hdis => hr.started (hdeaf.rxDisabling.symm.trans hdis) }

/-! ## The board -/

/-- The UART, with what the receiver and the transmitter keep beside it. -/
structure Board where
  uart : Uart
  handled : List UartData
  sending : Sending
  responses : Finmap fun _ : BufPtr => UartData
  sent : BufPtr → List UInt8
  done : List BufPtr

inductive BoardStep
  | rx (e : RxStep)
  | tx (e : TransmitterStep)

namespace Board

def receiver (s : Board) : Receiver := ⟨s.uart, s.handled⟩

def transmitter (s : Board) : Transmitter := ⟨s.uart, s.sending, s.responses, s.sent, s.done⟩

/-- One step; a fault ends the program. -/
def step : Except Fault Board → BoardStep → Option (Except Fault Board)
  | .error f, _ => some (.error f)
  | .ok s, .rx e => (Receiver.step (.ok s.receiver) e).map fun r => r.map fun t =>
      { s with uart := t.uart, handled := t.handled }
  | .ok s, .tx e => (Transmitter.step (.ok s.transmitter) e).map fun r => r.map fun t =>
      { s with
        uart := t.uart
        sending := t.sending
        responses := t.responses
        sent := t.sent
        done := t.done }

/-- After `uart_init`. -/
def init (data : Vector UInt8 recieveBuffSize) : Board :=
  ⟨Uart.init data, [], .idle, ∅, fun _ => [], []⟩

/-- Each half is as it is alone, and every block of the heap has one owner. -/
structure Shared (s : Board) (r : Inbox) : Prop where
  receives : s.receiver.Refines r
  resumes : s.transmitter.Resumes
  filled : ∀ b ∈ s.receiver.put, Receiver.Filled b
  apart : ∀ p ∈ s.uart.rxOwned, p ∉ s.responses
  cover : ∀ {p}, p ∈ s.uart.heap → p ∈ s.uart.rxOwned ∨ p ∈ s.responses

/-- What the inbox sees of a step. -/
def inboxStep (r : Inbox) : BoardStep → Option Inbox
  | .rx e => r.step e
  | .tx _ => some r

theorem shared_init (data : Vector UInt8 recieveBuffSize) :
    (init data).Shared ⟨[], some [], false⟩ where
  receives := Receiver.refines_init data
  resumes := Transmitter.resumes_init data
  filled := fun _ h => absurd h List.not_mem_nil
  apart := fun _ _ => Finmap.notMem_empty
  cover := by
    intro p hp
    rw [show (init data).uart.heap = Finmap.singleton 0 ⟨data, 0⟩ from rfl,
      Finmap.mem_singleton] at hp
    exact Or.inl (Uart.mem_rxOwned.mpr (Or.inl (congrArg some hp.symm)))

/-- What is kept beside the UART, after a step. -/
structure Kept (s : Board) (e : BoardStep) (s' : Board) : Prop where
  handled : s'.handled = match e with
    | .rx e => s.receiver.handledAfter e
    | .tx _ => s.handled
  responses : s'.responses = match e with
    | .rx _ => s.responses
    | .tx e => s.transmitter.responsesAfter e

/-- **One step.** -/
theorem shared_step {s : Board} {r : Inbox} {e : BoardStep} {x : Except Fault Board}
    (h : s.Shared r) (hs : step (.ok s) e = some x) :
    ∃ r' s', inboxStep r e = some r' ∧ x = .ok s' ∧ s'.Shared r' ∧ s.Kept e s' := by
  cases e with
  | rx e =>
    obtain ⟨y, hy, rfl⟩ := Option.map_eq_some_iff.mp hs
    obtain ⟨r', hr', t, rfl, ht, -⟩ := Receiver.refines_step h.receives hy
    -- the receiving half moves, and leaves the responses alone
    obtain ⟨hquiet, hput⟩ := Receiver.quiet_step h.receives hy
    refine ⟨r', _, hr', rfl, ⟨ht, h.resumes.of_quiet hquiet h.apart, hput h.filled, ?_, ?_⟩,
      Receiver.handled_step hy, rfl⟩
    · intro p hp hmem
      rcases hquiet.owned hp with hp | hle
      · exact h.apart p hp hmem
      · exact absurd (h.resumes.owned.fresh hmem) (Nat.not_lt.mpr hle)
    · intro p hp
      rcases hquiet.cover hp with hp | ⟨hp, hnot⟩
      · exact Or.inl hp
      · exact Or.inr ((h.cover hp).resolve_left hnot)
  | tx e =>
    obtain ⟨y, hy, rfl⟩ := Option.map_eq_some_iff.mp hs
    -- the transmitting half moves, and leaves the receive buffers alone
    obtain ⟨t, rfl, ht, hdeaf, hresponses⟩ := Transmitter.deaf_step h.resumes hy
    have howned : t.uart.rxOwned = s.uart.rxOwned := by
      rw [Uart.rxOwned, Uart.rxOwned, hdeaf.rxBuf, hdeaf.rxNext]
      rfl
    refine ⟨r, _, rfl, rfl, ⟨Receiver.Refines.of_deaf (s := s.transmitter) h.receives hdeaf h.apart,
      ht, ?_, ?_, ?_⟩, rfl, hresponses⟩
    · show ∀ b ∈ s.handled ++ t.uart.rxFifo, Receiver.Filled b
      rw [hdeaf.rxFifo]
      exact h.filled
    · intro p hp hmem
      rw [show p ∈ t.uart.rxOwned ↔ p ∈ s.uart.rxOwned by rw [howned]] at hp
      rcases hdeaf.filled hmem with hmem | hle
      · exact h.apart p hp hmem
      · have hlt := h.receives.sound.fresh (Uart.mem_heap_of_rxOwned h.receives.holds hp)
        exact absurd hlt (Nat.not_lt.mpr hle)
    · intro p hp
      rw [show p ∈ ({ s with uart := t.uart } : Board).uart.rxOwned ↔ p ∈ s.uart.rxOwned by
        rw [howned]]
      rcases hdeaf.cover hp with hp | ⟨hp, -⟩
      · exact (h.cover hp).imp_right hdeaf.kept
      · exact Or.inr hp

/-! ## Every run -/

/-- What holds of the board when the inbox that sees the receive events is `r`. -/
structure Shares (s : Board) (r : Inbox) : Prop where
  frames : s.receiver.put.map UartData.contents = r.frames
  /-- No frame is empty or longer than its buffer. -/
  filled : ∀ b ∈ s.receiver.put, Receiver.Filled b
  delivers : s.transmitter.Delivers
  /-- Every block is the driver's receive buffer or a response not done yet, -/
  heap : ∀ p, p ∈ s.uart.heap ↔ p ∈ s.uart.rxOwned ∨ (p ∈ s.responses ∧ p ∉ s.done)
  /-- and not both. -/
  apart : ∀ p ∈ s.uart.rxOwned, p ∉ s.responses
  /-- Reception is on, or the work item that turns it on again is pending. -/
  alive : s.uart.rxBuf = none ↔ s.uart.work = true

theorem Shared.shares {s : Board} {r : Inbox} (h : s.Shared r) : s.Shares r where
  frames := h.receives.frames
  filled := h.filled
  delivers := h.resumes.delivers
  heap := by
    intro p
    constructor
    · intro hp
      refine (h.cover hp).imp_right fun hmem => ⟨hmem, fun hdone => ?_⟩
      exact h.resumes.owned.freed hdone hp
    · rintro (hp | ⟨hp, hnot⟩)
      · exact Uart.mem_heap_of_rxOwned h.receives.holds hp
      · obtain ⟨b, hb⟩ := Finmap.mem_iff.mp hp
        exact Finmap.mem_of_lookup_eq_some (h.resumes.owned.block hnot hb)
  apart := h.apart
  alive := by
    have hholds := h.receives.holds
    cases hcurrent : r.current with
    | none =>
      rw [hcurrent] at hholds
      exact iff_of_true hholds.buf hholds.work
    | some got =>
      rw [hcurrent] at hholds
      obtain ⟨p, b, hr, -⟩ := hholds
      have hbuf : s.uart.rxBuf = some p := hr.buf
      have hidle : s.uart.work = false := hr.idle
      rw [hbuf, hidle]
      exact iff_of_false (Option.some_ne_none p) Bool.false_ne_true

theorem shared_run {es : List BoardStep} {s : Board} {r : Inbox} {x : Except Fault Board}
    (h : s.Shared r) (hrun : Transition.run step (.ok s) es = some x) :
    ∃ s' r', x = .ok s' ∧ Transition.run inboxStep r es = some r' ∧ s'.Shared r' := by
  let R (x : Except Fault Board) (r : Inbox) : Prop := ∃ s, x = .ok s ∧ s.Shared r
  have hstep : ∀ {x r e x'}, R x r → step x e = some x' → ∃ r', inboxStep r e = some r' ∧ R x' r' := by
    rintro _ r e x' ⟨s, rfl, h⟩ hs
    obtain ⟨r', s', hr', hx', h', -⟩ := shared_step h hs
    exact ⟨r', hr', s', hx', h'⟩
  have hinit : R (.ok s) r := ⟨s, rfl, h⟩
  obtain ⟨r', hr', s', hx, h'⟩ := Transition.run_simulation hstep hinit hrun
  exact ⟨s', r', hx, hr', h'⟩

/-- **The two halves share the heap**: in every run in which no more bytes arrive than the current receive
    buffer has room for (`Uart.rxBytes`), however receiving and sending interleave and whatever
    allocations fail, nothing ends in a fault, the frames are those the inbox sees, every response is
    sent byte for byte before it is freed, and no block is lost or has two owners. -/
theorem board_shares {data : Vector UInt8 recieveBuffSize} {es : List BoardStep}
    {x : Except Fault Board} (hrun : Transition.run step (.ok (init data)) es = some x) :
    ∃ s r, x = .ok s ∧ Transition.run inboxStep ⟨[], some [], false⟩ es = some r ∧ s.Shares r := by
  obtain ⟨s, r, hx, hr, h⟩ := shared_run (shared_init data) hrun
  exact ⟨s, r, hx, hr, h.shares⟩

/-- A frame ends while a response is sent, and there is no memory for the next buffer; the response is
    aborted, the work item finds memory, and the response is done. -/
theorem board_shares_starved :
    let block : Vector UInt8 recieveBuffSize := Vector.replicate recieveBuffSize 0x41
    let steps : List BoardStep := [.tx (.fill ⟨block, 3⟩), .rx (.bytes [0x8d, 0x01, 0x0a]), .tx .tx,
      .rx (.bufRequest (some block)), .rx (.disabled none), .tx (.txAborted 1),
      .rx (.work (some block)), .rx .get, .tx .txDone]
    ∃ s r, Transition.run step (.ok (init block)) steps = some (.ok s) ∧
      Transition.run inboxStep ⟨[], some [], false⟩ steps = some r ∧ s.Shares r := by
  intro block steps
  have hsome : (Transition.run step (.ok (init block)) steps).isSome = true := by decide +kernel
  obtain ⟨x, hrun⟩ := Option.isSome_iff_exists.mp hsome
  obtain ⟨s, r, rfl, hr, h⟩ := board_shares hrun
  exact ⟨s, r, hrun, hr, h⟩

end Board

end NrfSpheros
