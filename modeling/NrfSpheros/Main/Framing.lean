/-
  What `send_response` sends for a payload.

  The payload is an object of its own here, of `data_size` bytes, and to read past its end is a fault.
  A response is framed if it goes out as 0x8d, the payload and 0x0a.

  1. **The buffer** (`copyFrom_eq`): the `memcpy` takes `sizeof(data)` bytes, the size of a pointer,
     whatever the length of the payload.
  2. **The call** (`sendResponse`): the filled buffer goes to `uart_tx` or, when that is busy, on the
     fifo.  It is what the steps of the `Responder` do with no interrupt between them.
  3. **When a response is framed** (`framed_iff`): a shorter payload is read past its end, and of a
     longer one the bytes behind the first four are those that were in the block before.
-/
import NrfSpheros.Main.Transmit

namespace NrfSpheros

namespace UartData

/-- `memcpy(&tx->data[1], data, count)`, byte by byte. -/
def copyFrom (b : UartData) (payload : List UInt8) (count : Nat) : Except Fault UartData :=
  (List.range count).foldlM (fun b i => do b.poke (1 + i) (← vecAt payload i)) b

/-- The buffer `send_response` fills, for a payload that ends where its length says. -/
def responseOf (block : Vector UInt8 recieveBuffSize) (payload : List UInt8) :
    Except Fault UartData := do
  let b : UartData := ⟨block, UInt16.ofNat (payload.length + 2)⟩
  let b ← b.poke 0 0x8d
  let b ← b.copyFrom payload pointerSize
  match b.len.toNat with
  | 0 => .error .outOfBounds
  | last + 1 => b.poke last 0x0a

/-! ## The buffer -/

theorem ext_toList {b b' : UartData} (hdata : b.data.toList = b'.data.toList)
    (hlen : b.len = b'.len) : b = b' := by
  obtain ⟨data, len⟩ := b
  obtain ⟨data', len'⟩ := b'
  obtain rfl : data = data' := Vector.toList_inj.mp hdata
  obtain rfl : len = len' := hlen
  rfl

theorem toList_write (b : UartData) {pos : Nat} {run : List UInt8}
    (h : pos + run.length ≤ recieveBuffSize) : (b.write pos run h).data.toList =
      b.data.toList.take pos ++ run ++ b.data.toList.drop (pos + run.length) := rfl

/-- One byte is a run of one. -/
theorem poke_eq (b : UartData) {i : Nat} (c : UInt8) (h : i + [c].length ≤ recieveBuffSize) :
    b.poke i c = .ok (b.write i [c] h) := by
  have hi : i < recieveBuffSize := h
  rw [poke, dif_pos hi, Except.ok.injEq]
  apply ext_toList
  · rw [toList_write, Vector.toList_set, List.set_eq_take_append_cons_drop, if_pos (by
      rw [Vector.length_toList]
      exact hi), List.append_assoc]
    rfl
  · rfl

/-- A byte behind a run makes the run longer. -/
theorem write_write (b : UartData) {pos : Nat} {run : List UInt8} {c : UInt8}
    (h : pos + run.length ≤ recieveBuffSize)
    (h' : pos + run.length + [c].length ≤ recieveBuffSize)
    (h'' : pos + (run ++ [c]).length ≤ recieveBuffSize) :
    (b.write pos run h).write (pos + run.length) [c] h' = b.write pos (run ++ [c]) h'' := by
  apply ext_toList
  · have hlen : (b.data.toList.take pos ++ run).length = pos + run.length := by
      rw [List.length_append, List.length_take, Vector.length_toList]
      omega
    have hdrop : (b.data.toList.take pos ++ run ++ b.data.toList.drop (pos + run.length)).drop
        (pos + run.length + 1) = b.data.toList.drop (pos + run.length + 1) := by
      rw [← List.drop_drop, ← hlen, List.drop_left, hlen, List.drop_drop]
    rw [toList_write, toList_write, toList_write, List.length_singleton, hdrop]
    nth_rewrite 1 [← hlen]
    rw [List.take_left, List.append_assoc (b.data.toList.take pos), List.length_append]
    rfl
  · rfl

theorem copyFrom_succ (b : UartData) (payload : List UInt8) (i : Nat) :
    b.copyFrom payload (i + 1) =
      b.copyFrom payload i >>= fun b => vecAt payload i >>= b.poke (1 + i) := by
  rw [copyFrom, List.range_succ, List.foldlM_append]
  apply congrArg
  funext b
  simp

/-- **The copy**, of bytes that are there. -/
theorem copyFrom_eq (b : UartData) {payload : List UInt8} {count : Nat}
    (hcount : count ≤ payload.length) (h : 1 + (payload.take count).length ≤ recieveBuffSize) :
    b.copyFrom payload count = .ok (b.write 1 (payload.take count) h) := by
  induction count with
  | zero =>
    refine congrArg Except.ok (ext_toList ?_ rfl)
    rw [toList_write, List.take_zero, List.append_nil, List.length_nil, List.take_append_drop]
  | succ i ih =>
    have hi : i < payload.length := hcount
    have htake : payload.take (i + 1) = payload.take i ++ [payload[i]] :=
      List.take_succ_eq_append_getElem hi
    have hplace : 1 + i = 1 + (payload.take i).length := by
      rw [List.length_take_of_le (Nat.le_of_succ_le hcount)]
    have hroom : 1 + (payload.take i).length + 1 ≤ recieveBuffSize := by
      rw [htake, List.length_append] at h
      exact h
    have hread : vecAt payload i = .ok payload[i] := by
      rw [vecAt, List.getElem?_eq_getElem hi]
    have hrest := ih (Nat.le_of_succ_le hcount) (Nat.le_of_succ_le hroom)
    have hpoke := poke_eq (b.write 1 (payload.take i) (Nat.le_of_succ_le hroom)) payload[i] hroom
    rw [write_write b _ hroom (by rwa [← htake])] at hpoke
    rw [copyFrom_succ, hrest, hread]
    simp only [bind, Except.bind, htake]
    rw [hplace]
    exact hpoke

/-- Nothing is there behind the payload. -/
theorem copyFrom_short (b : UartData) {payload : List UInt8} {count : Nat}
    (hcount : payload.length < count) (h : 1 + payload.length ≤ recieveBuffSize) :
    b.copyFrom payload count = .error .outOfBounds := by
  induction count with
  | zero => exact absurd hcount (Nat.not_lt_zero _)
  | succ i ih =>
    rw [copyFrom_succ]
    rcases Nat.lt_or_eq_of_le (Nat.le_of_lt_succ hcount) with hlt | heq
    · rw [ih hlt]
      rfl
    · have hread : vecAt payload i = .error .outOfBounds := by
        rw [vecAt, List.getElem?_eq_none (Nat.le_of_eq heq)]
      rw [copyFrom_eq b (Nat.le_of_eq heq.symm) (by
        rw [← heq, List.take_length]
        exact h), hread]
      rfl

/-- A byte written at the end of a buffer is the last of its contents. -/
theorem contents_write_last (b : UartData) {i : Nat} {c : UInt8}
    (h : i + [c].length ≤ recieveBuffSize) (hlen : b.len.toNat = i + 1) :
    (b.write i [c] h).contents = b.data.toList.take i ++ [c] := by
  have hi : i ≤ b.data.toList.length := by
    rw [Vector.length_toList]
    exact Nat.le_of_succ_le h
  have hfull : (b.data.toList.take i ++ [c]).length = i + 1 := by
    rw [List.length_append, List.length_take_of_le hi, List.length_singleton]
  have hlen' : (b.write i [c] h).len.toNat = (b.data.toList.take i ++ [c]).length := by
    rw [hfull]
    exact hlen
  rw [contents, hlen', toList_write, List.take_left]

section response

variable (block : Vector UInt8 recieveBuffSize) {payload : List UInt8}
  (hroom : payload.length ≤ recieveBuffSize - 2)

include hroom

theorem toNat_responseLen : (UInt16.ofNat (payload.length + 2)).toNat = payload.length + 2 := by
  rw [UInt16.toNat_ofNat']
  have : payload.length ≤ 91 := hroom
  omega

/-- A payload shorter than a pointer is read past its end. -/
theorem responseOf_short (hshort : payload.length < pointerSize) :
    responseOf block payload = .error .outOfBounds := by
  have hstart := poke_eq ⟨block, UInt16.ofNat (payload.length + 2)⟩ (i := 0) 0x8d (by decide)
  have hfits : 1 + payload.length ≤ recieveBuffSize := by
    have : payload.length ≤ 91 := hroom
    show 1 + payload.length ≤ 93
    omega
  have hcopy := copyFrom_short ((⟨block, UInt16.ofNat (payload.length + 2)⟩ : UartData).write 0
    [0x8d] (by decide)) hshort hfits
  simp only [responseOf, hstart, hcopy, bind, Except.bind]

/-- What is sent for any other payload. -/
theorem responseOf_eq (hlong : pointerSize ≤ payload.length) :
    ∃ b, responseOf block payload = .ok b ∧ b.len.toNat = payload.length + 2 ∧
      b.contents = 0x8d :: (payload.take pointerSize ++
        (block.toList.drop (1 + pointerSize)).take (payload.length - pointerSize)) ++ [0x0a] := by
  have hlen := toNat_responseLen hroom
  have htake : (payload.take pointerSize).length = pointerSize := List.length_take_of_le hlong
  let start : UartData := ⟨block, UInt16.ofNat (payload.length + 2)⟩
  let marked := start.write 0 [0x8d] (by decide)
  let copied := marked.write 1 (payload.take pointerSize) (by rw [htake]; decide)
  have hend : payload.length + 1 + [0x0a].length ≤ recieveBuffSize := by
    have : payload.length ≤ 91 := hroom
    show payload.length + 1 + 1 ≤ 93
    omega
  -- the `memcpy` fills four places; behind them the block is as it was
  have hcopied : copied.data.toList =
      0x8d :: (payload.take pointerSize ++ block.toList.drop (1 + pointerSize)) := by
    have hmarked : marked.data.toList = 0x8d :: block.toList.drop 1 := rfl
    rw [toList_write, htake, hmarked, Nat.add_comm, List.drop_succ_cons, List.drop_drop]
    rfl
  refine ⟨copied.write (payload.length + 1) [0x0a] hend, ?_, hlen, ?_⟩
  · have hstart : start.poke 0 0x8d = .ok marked := poke_eq start 0x8d (by decide)
    have hcopy : marked.copyFrom payload pointerSize = .ok copied := copyFrom_eq marked hlong _
    have hpoke := poke_eq copied 0x0a hend
    have hcount : copied.len.toNat = payload.length + 1 + 1 := hlen
    show (start.poke 0 0x8d >>= fun b => b.copyFrom payload pointerSize >>= fun b =>
      match b.len.toNat with
      | 0 => .error .outOfBounds
      | last + 1 => b.poke last 0x0a) = _
    rw [hstart]
    simp only [bind, Except.bind, hcopy, hcount]
    exact hpoke
  · have hsent : copied.data.toList.take (payload.length + 1) = 0x8d :: (payload.take pointerSize ++
        (block.toList.drop (1 + pointerSize)).take (payload.length - pointerSize)) := by
      rw [hcopied, List.take_succ_cons, List.take_append, htake, List.take_take,
        Nat.min_eq_right hlong]
    rw [contents_write_last copied hend hlen, hsent]

end response

/-- The bytes that the `memcpy` leaves out are in the block already, in their places. -/
def AlreadyThere (block : Vector UInt8 recieveBuffSize) (payload : List UInt8) : Prop :=
  pointerSize ≤ payload.length ∧
    payload.drop pointerSize <+: block.toList.drop (1 + pointerSize)

/-- A response that can be sent: the marker, the payload, and the end of the line. -/
def IsFrame (b : UartData) (payload : List UInt8) : Prop :=
  b.len.toNat = payload.length + 2 ∧ b.contents = 0x8d :: payload ++ [0x0a]

theorem isFrame_iff (block : Vector UInt8 recieveBuffSize) {payload : List UInt8}
    (hroom : payload.length ≤ recieveBuffSize - 2) :
    (∃ b, responseOf block payload = .ok b ∧ b.IsFrame payload) ↔ AlreadyThere block payload := by
  rcases Nat.lt_or_ge payload.length pointerSize with hshort | hlong
  · rw [responseOf_short block hroom hshort]
    constructor
    · rintro ⟨b, hb, -⟩
      exact absurd hb (by simp)
    · intro h
      exact absurd h.1 (Nat.not_le_of_lt hshort)
  · obtain ⟨b, hb, hlen, hcontents⟩ := responseOf_eq block hroom hlong
    -- the first four bytes agree, so the rest decides
    have hsame : b.contents = 0x8d :: payload ++ [0x0a] ↔ payload.drop pointerSize =
        (block.toList.drop (1 + pointerSize)).take (payload.drop pointerSize).length := by
      have hparts : payload = payload.take pointerSize ++ payload.drop pointerSize :=
        (List.take_append_drop pointerSize payload).symm
      rw [hcontents, List.length_drop, List.append_left_inj, List.cons.injEq, eq_self, true_and]
      constructor
      · intro h
        exact (List.append_cancel_left (h.trans hparts)).symm
      · intro h
        rw [← h, ← hparts]
    rw [AlreadyThere, List.prefix_iff_eq_take, ← hsame]
    constructor
    · rintro ⟨b', hb', hframe⟩
      obtain rfl : b' = b := Except.ok.inj (hb'.symm.trans hb)
      exact ⟨hlong, hframe.2⟩
    · rintro ⟨-, h⟩
      exact ⟨b, hb, hlen, h⟩

/-- A copy that stays within the payload takes the bytes from where it lies in memory. -/
theorem copyFrom_memory {payload : List UInt8} {data : Nat → UInt8}
    (hdata : ∀ i c, payload[i]? = some c → data i = c) {count : Nat} {b b' : UartData}
    (h : b.copyFrom payload count = .ok b') :
    (List.range count).foldlM (fun b i => b.poke (1 + i) (data i)) b = .ok b' := by
  induction count generalizing b' with
  | zero => exact h
  | succ i ih =>
    rw [copyFrom_succ] at h
    cases hcopied : b.copyFrom payload i with
    | error f =>
      rw [hcopied] at h
      exact absurd h (by simp [bind, Except.bind])
    | ok copied =>
      cases hread : payload[i]? with
      | none =>
        rw [hcopied, vecAt, hread] at h
        exact absurd h (by simp [bind, Except.bind])
      | some c =>
        rw [hcopied, vecAt, hread] at h
        rw [List.range_succ, List.foldlM_append, ih hcopied]
        simp only [List.foldlM_cons, List.foldlM_nil, hdata i c hread]
        exact (bind_pure _).trans h

/-- A response that is filled without a read past the end is the one of `send_response`. -/
theorem response_of_responseOf {block : Vector UInt8 recieveBuffSize} {payload : List UInt8}
    {data : Nat → UInt8} (hdata : ∀ i c, payload[i]? = some c → data i = c) {b : UartData}
    (h : responseOf block payload = .ok b) : response block data payload.length = .ok b := by
  have hstart := poke_eq ⟨block, UInt16.ofNat (payload.length + 2)⟩ (i := 0) 0x8d (by decide)
  simp only [responseOf, hstart, bind, Except.bind] at h
  simp only [response, hstart, bind, Except.bind]
  cases hcopied : copyFrom (write ⟨block, UInt16.ofNat (payload.length + 2)⟩ 0 [0x8d] (by decide))
      payload pointerSize with
  | error f =>
    rw [hcopied] at h
    exact absurd h (by simp)
  | ok copied =>
    rw [hcopied] at h
    rw [copyFrom_memory hdata hcopied]
    exact h

end UartData

/-! ## The call -/

namespace Uart

/-- `send_response`, with no interrupt in its course. -/
def sendResponse (u : Uart) (malloc : Malloc) (payload : List UInt8) : Except Fault Uart :=
  match malloc with
  | none => .error .outOfBounds
  | some block => do
    let b ← UartData.responseOf block payload
    let tx := u.nextPtr
    let u := { u with heap := u.heap.insert tx b, nextPtr := tx + 1 }
    match u.uartTx ⟨tx, 0⟩ b.len.toNat with
    | (true, u) => .ok u
    | (false, u) => .ok { u with txFifo := u.txFifo ++ [tx] }

/-- The buffer `b` goes to `uart_tx` from its first byte to its length or, if a transmission is in
    progress, on the fifo. -/
structure HandsOver (u u' : Uart) (b : UartData) : Prop where
  buffer : u'.heap.lookup u.nextPtr = some b
  handed : match u.tx with
    | none => u'.tx = some ⟨⟨u.nextPtr, 0⟩, b.len.toNat⟩ ∧ u'.txFifo = u.txFifo
    | some _ => u'.tx = u.tx ∧ u'.txFifo = u.txFifo ++ [u.nextPtr]

/-- **The payload goes out framed**, and no byte behind it is read. -/
def Framed (u : Uart) (malloc : Malloc) (payload : List UInt8) : Prop :=
  ∃ u' b, u.sendResponse malloc payload = .ok u' ∧ u.HandsOver u' b ∧ b.IsFrame payload

section filled

variable {u : Uart} {block : Vector UInt8 recieveBuffSize} {payload : List UInt8} {b : UartData}
  (hb : UartData.responseOf block payload = .ok b)

include hb

theorem sendResponse_idle (htx : u.tx = none) : u.sendResponse (some block) payload =
    .ok { u.withResponse b with tx := some ⟨⟨u.nextPtr, 0⟩, b.len.toNat⟩ } := by
  simp only [sendResponse, hb, bind, Except.bind, uartTx, htx]
  rfl

theorem sendResponse_busy {t : Transmission} (htx : u.tx = some t) :
    u.sendResponse (some block) payload =
      .ok { u.withResponse b with txFifo := u.txFifo ++ [u.nextPtr] } := by
  simp only [sendResponse, hb, bind, Except.bind, uartTx, htx]
  simp only [withResponse, htx]

theorem sendResponse_eq :
    ∃ u', u.sendResponse (some block) payload = .ok u' ∧ u.HandsOver u' b := by
  have hlookup : (u.withResponse b).heap.lookup u.nextPtr = some b := Finmap.lookup_insert _
  cases htx : u.tx with
  | none =>
    refine ⟨_, sendResponse_idle hb htx, hlookup, ?_⟩
    rw [htx]
    exact ⟨rfl, rfl⟩
  | some t =>
    refine ⟨_, sendResponse_busy hb htx, hlookup, ?_⟩
    rw [htx]
    exact ⟨htx, rfl⟩

end filled

/-- A call that comes to its end has filled a block. -/
theorem filled_of_sendResponse {u u' : Uart} {malloc : Malloc} {payload : List UInt8}
    (h : u.sendResponse malloc payload = .ok u') :
    ∃ block b, malloc = some block ∧ UartData.responseOf block payload = .ok b := by
  cases malloc with
  | none => exact absurd h (by simp [sendResponse])
  | some block =>
    cases hb : UartData.responseOf block payload with
    | error f =>
      simp only [sendResponse, hb, bind, Except.bind] at h
      exact absurd h (by simp)
    | ok b => exact ⟨block, b, rfl, hb⟩

/-- A call that hands over a frame has filled one. -/
theorem framed_some_iff (u : Uart) (block : Vector UInt8 recieveBuffSize) (payload : List UInt8) :
    u.Framed (some block) payload ↔
      ∃ b, UartData.responseOf block payload = .ok b ∧ b.IsFrame payload := by
  constructor
  · rintro ⟨u', b, hsend, hhands, hframe⟩
    obtain ⟨_, b', hblock, hb⟩ := filled_of_sendResponse hsend
    obtain rfl := Option.some.inj hblock
    obtain ⟨u'', hsend', hhands'⟩ := sendResponse_eq (u := u) hb
    obtain rfl : u' = u'' := Except.ok.inj (hsend.symm.trans hsend')
    obtain rfl : b = b' := Option.some.inj (hhands.buffer.symm.trans hhands'.buffer)
    exact ⟨b, hb, hframe⟩
  · rintro ⟨b, hb, hframe⟩
    obtain ⟨u', hsend, hhands⟩ := sendResponse_eq (u := u) hb
    exact ⟨u', b, hsend, hhands, hframe⟩

/-- **When a response is framed**: there is a block for it, its payload has four bytes or more, and
    those behind the first four are in the block already. -/
theorem framed_iff (u : Uart) (malloc : Malloc) (payload : List UInt8)
    (hroom : payload.length ≤ recieveBuffSize - 2) :
    u.Framed malloc payload ↔
      ∃ block, malloc = some block ∧ UartData.AlreadyThere block payload := by
  constructor
  · rintro ⟨u', b, hsend, hhands, hframe⟩
    obtain ⟨block, _, rfl, _⟩ := filled_of_sendResponse hsend
    have hframed : u.Framed (some block) payload := ⟨u', b, hsend, hhands, hframe⟩
    rw [framed_some_iff, UartData.isFrame_iff block hroom] at hframed
    exact ⟨block, rfl, hframed⟩
  · rintro ⟨block, rfl, hthere⟩
    rw [framed_some_iff, UartData.isFrame_iff block hroom]
    exact hthere

/-- A block that held zeros. -/
def zeros : Vector UInt8 recieveBuffSize := Vector.replicate recieveBuffSize 0

/-- Four bytes, the size of a pointer. -/
theorem framed_iff_four : (Uart.init zeros).Framed (some zeros) [1, 2, 3, 4] ↔
    ∃ block, some zeros = some block ∧ UartData.AlreadyThere block [1, 2, 3, 4] :=
  framed_iff (Uart.init zeros) (some zeros) [1, 2, 3, 4] (by decide)

/-- The fifth byte of a payload does not go out. -/
theorem fifth_byte_lost : ¬ ∀ (u : Uart) (block : Vector UInt8 recieveBuffSize)
    (payload : List UInt8), 1 ≤ payload.length → payload.length ≤ recieveBuffSize - 2 →
    u.Framed (some block) payload := by
  intro h
  have hframed := h (Uart.init zeros) zeros [1, 2, 3, 4, 5] (by decide) (by decide)
  rw [framed_some_iff, UartData.isFrame_iff zeros (by decide)] at hframed
  exact absurd hframed.2 (by decide)

/-- Only payloads of four bytes are framed whatever is in the block. -/
theorem framed_anyhow_iff (u : Uart) {payload : List UInt8}
    (hroom : payload.length ≤ recieveBuffSize - 2) :
    (∀ block, u.Framed (some block) payload) ↔ payload.length = pointerSize := by
  simp only [framed_some_iff, UartData.isFrame_iff _ hroom]
  constructor
  · intro h
    apply Nat.le_antisymm _ (h zeros).1
    apply Nat.le_of_not_lt
    intro hlong
    -- a block that holds another byte everywhere
    have hthere := (h (Vector.replicate recieveBuffSize (payload[pointerSize] + 1))).2
    have hmem : payload[pointerSize] ∈ payload.drop pointerSize := by
      rw [List.drop_eq_getElem_cons hlong]
      exact List.mem_cons_self
    have hblock := List.mem_of_mem_drop (hthere.subset hmem)
    rw [Vector.toList_replicate] at hblock
    have hnext : payload[pointerSize] + 1 = payload[pointerSize] :=
      (List.eq_of_mem_replicate hblock).symm
    exact absurd hnext (by simp)
  · intro h block
    refine ⟨Nat.le_of_eq h.symm, ?_⟩
    rw [← h, List.drop_length]
    exact List.nil_prefix

end Uart

/-! ## The call as steps -/

namespace Responder

/-- `send_response` has filled its buffer. -/
def called (s : Responder) (b : UartData) : Responder :=
  { s with
    uart := s.uart.withResponse b
    sending := .filled s.uart.nextPtr
    calls := s.calls ++ [s.uart.nextPtr] }

section steps

variable {s : Responder} {b : UartData}

theorem step_fill (hidle : s.sending = .idle) {block : Vector UInt8 recieveBuffSize}
    {payload : List UInt8} (hb : UartData.responseOf block payload = .ok b) {data : Nat → UInt8}
    (hdata : ∀ i c, payload[i]? = some c → data i = c) :
    step (.ok s) (.fill (some block) data payload.length) = some (.ok (s.called b)) := by
  have hresponse := UartData.response_of_responseOf hdata hb
  simp only [step, hidle, Uart.newResponse, hresponse, bind, Except.bind, Except.map]
  rfl

theorem deref_called : (s.called b).uart.deref s.uart.nextPtr = .ok b :=
  Uart.deref_of_lookup (Finmap.lookup_insert _)

theorem step_tx_idle (htx : s.uart.tx = none) :
    step (.ok (s.called b)) .tx = some (.ok { s.called b with
      uart := { s.uart.withResponse b with tx := some ⟨⟨s.uart.nextPtr, 0⟩, b.len.toNat⟩ }
      sending := .idle
      handed := s.handed ++ [s.uart.nextPtr] }) := by
  have hnone : (s.called b).uart.tx = none := htx
  have hfilled : (s.called b).sending = .filled s.uart.nextPtr := rfl
  simp only [step, hfilled, deref_called, Except.map, Uart.uartTx, hnone]
  rfl

theorem step_tx_busy {t : Transmission} (htx : s.uart.tx = some t) :
    step (.ok (s.called b)) .tx =
      some (.ok { s.called b with sending := .refused s.uart.nextPtr }) := by
  have hsome : (s.called b).uart.tx = some t := htx
  have hfilled : (s.called b).sending = .filled s.uart.nextPtr := rfl
  simp only [step, hfilled, deref_called, Except.map, Uart.uartTx, hsome]

end steps

/-- **The steps of the main thread**, with no interrupt between them, are the call. -/
theorem run_sendResponse {s : Responder} (hidle : s.sending = .idle) {malloc : Malloc}
    {payload : List UInt8} {data : Nat → UInt8} (hdata : ∀ i c, payload[i]? = some c → data i = c)
    {u : Uart} (h : s.uart.sendResponse malloc payload = .ok u) :
    ∃ s', Transition.run step (.ok s) ([.fill malloc data payload.length, .tx] ++
      if s.uart.tx = none then [] else [.put]) = some (.ok s') ∧ s'.uart = u ∧ s'.sending = .idle := by
  obtain ⟨block, b, rfl, hb⟩ := Uart.filled_of_sendResponse h
  rw [List.cons_append, Transition.run_cons, step_fill hidle hb hdata, Option.bind_some]
  cases htx : s.uart.tx with
  | none =>
    rw [Uart.sendResponse_idle hb htx, Except.ok.injEq] at h
    rw [if_pos rfl, List.append_nil, Transition.run_cons, step_tx_idle htx]
    exact ⟨_, rfl, h, rfl⟩
  | some t =>
    rw [Uart.sendResponse_busy hb htx, Except.ok.injEq] at h
    rw [if_neg (by simp), List.singleton_append, Transition.run_cons, step_tx_busy htx]
    exact ⟨_, rfl, h, rfl⟩

end Responder

end NrfSpheros
