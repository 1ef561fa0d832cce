/-
  `Sphero::execute`, and which robot its bytes reach.

  1. **The loop.**  `execute` cuts the built packet into chunks of 20 bytes and hands them to
     `bt_sphero_client_send` one after the other.  `executeLoop` is the loop over whatever a send does;
     the chunks are the pieces of the packet (`executeLoop_eq_sendAll`).

  2. **The client.**  A Sphero object keeps the number of a context, and `scanner_get_sphero` looks it
     up anew for each command: it reads `ctx->data` without asking whether there is a context, so the
     branch of `execute` for a missing Sphero is never taken.

  3. **Whole packets** (`accepted_iff`).  What a send returns is logged and nothing else.  Every chunk
     of a command is accepted exactly when the client has a connection, no write is refused, and before
     each but a free first one the write before was reported sent (`Admits`).

  4. **The line** of an object: what the events say of its slot.  Its commands reach the connection
     its constructor subscribed on exactly while the slot is taken, the last discovery there was of
     that connection, the connection has not been lost, and their chunks are accepted
     (`reaches_home_iff`).
-/
import NrfSpheros.Ble.Scanner
import NrfSpheros.Controls.Codec
import NrfSpheros.Theory.Pieces

namespace NrfSpheros

open Scanner (Event)
open Pieces (pieces sendAll pieces_nil pieces_of_ne_nil flatten_pieces map_sendAll sendAll_invariant)

/-! ## The loop of `execute` -/

def chunkSize : Nat := 20

/-- The length of the chunk at `offset`. -/
def bytesToSend (payload : List UInt8) (offset : Nat) : Nat :=
  let remainingBytes := payload.length - offset
  if chunkSize < remainingBytes then chunkSize else remainingBytes

theorem bytesToSend_pos {payload : List UInt8} {offset : Nat} (h : offset < payload.length) :
    0 < bytesToSend payload offset := by
  unfold bytesToSend
  show 0 < if chunkSize < payload.length - offset then chunkSize else payload.length - offset
  split
  · decide
  · omega

theorem bytesToSend_eq_min (payload : List UInt8) (offset : Nat) :
    bytesToSend payload offset = min chunkSize (payload.drop offset).length := by
  rw [List.length_drop]
  unfold bytesToSend
  show (if chunkSize < payload.length - offset then chunkSize else payload.length - offset) = _
  split <;> omega

/-- The offsets of the chunks, from the last back to the first. -/
theorem offset_induction (payload : List UInt8) {P : Nat → Prop}
    (hend : ∀ offset, payload.length ≤ offset → P offset)
    (hchunk : ∀ offset, offset < payload.length → P (offset + bytesToSend payload offset) →
      P offset) (offset : Nat) : P offset := by
  induction hk : payload.length - offset using Nat.strongRecOn generalizing offset with
  | ind k ih =>
    rcases Nat.lt_or_ge offset payload.length with hlt | hle
    · have hpos := bytesToSend_pos hlt
      exact hchunk offset hlt (ih _ (by omega) (offset + bytesToSend payload offset) rfl)
    · exact hend offset hle

section loop

variable {σ β : Type} (send : σ → Nat → List UInt8 → β × σ)

/-- The loop, from `offset`; `send` gets the offset and the bytes of the chunk there. -/
def executeLoop (test : Bool) (payload : List UInt8) (offset : Nat) (s : σ) : List β × σ :=
  if offset < payload.length then
    let n := bytesToSend payload offset
    if test then executeLoop test payload (offset + n) s
    else
      let r := send s offset ((payload.drop offset).take n)
      let rest := executeLoop test payload (offset + n) r.2
      (r.1 :: rest.1, rest.2)
  else ([], s)
termination_by payload.length - offset
decreasing_by
  all_goals
    have hpos := bytesToSend_pos ‹offset < payload.length›
    omega

/-- One round that sends. -/
theorem executeLoop_of_lt {payload : List UInt8} {offset : Nat} (h : offset < payload.length)
    (s : σ) :
    executeLoop send false payload offset s =
      let r := send s offset ((payload.drop offset).take (bytesToSend payload offset))
      let rest := executeLoop send false payload (offset + bytesToSend payload offset) r.2
      (r.1 :: rest.1, rest.2) := by
  rw [executeLoop, if_pos h]
  rfl

theorem executeLoop_of_le {payload : List UInt8} {offset : Nat} (h : payload.length ≤ offset)
    (s : σ) : executeLoop send false payload offset s = ([], s) := by
  rw [executeLoop, if_neg (Nat.not_lt.mpr h)]

/-- **The loop hands on the pieces of what is left.** -/
theorem executeLoop_eq_sendAll (payload : List UInt8) (offset : Nat) (s : σ) :
    executeLoop send false payload offset s =
      sendAll send s offset (pieces chunkSize (payload.drop offset)) := by
  induction offset using offset_induction payload generalizing s with
  | hend offset hle =>
    rw [executeLoop_of_le send hle, List.drop_eq_nil_iff.mpr hle, pieces_nil (by decide)]
    rfl
  | hchunk offset h ih =>
    have hne : payload.drop offset ≠ [] := by
      rw [ne_eq, List.drop_eq_nil_iff]
      omega
    -- the length of the chunk is a minimum, which neither its bytes nor what is left can tell
    have htake : (payload.drop offset).take (bytesToSend payload offset) =
        (payload.drop offset).take chunkSize := by
      rw [bytesToSend_eq_min, ← List.take_eq_take_min]
    have hdrop : payload.drop (offset + bytesToSend payload offset) =
        (payload.drop offset).drop chunkSize := by
      rw [← List.drop_drop, bytesToSend_eq_min, ← List.drop_eq_drop_min]
    have hlength : ((payload.drop offset).take chunkSize).length =
        bytesToSend payload offset := by
      rw [List.length_take, bytesToSend_eq_min]
    rw [executeLoop_of_lt send h, pieces_of_ne_nil (by decide) hne, sendAll, htake]
    simp only [ih, hdrop, hlength]

/-- With `test` set the loop runs to the end of the payload and sends nothing. -/
theorem executeLoop_test (payload : List UInt8) (offset : Nat) (s : σ) :
    executeLoop send true payload offset s = ([], s) := by
  induction offset using offset_induction payload with
  | hend offset hle => rw [executeLoop, if_neg (Nat.not_lt.mpr hle)]
  | hchunk offset h ih =>
    rw [executeLoop, if_pos h]
    exact ih

/-- **The chunks are the payload.** -/
theorem executeLoop_data {data : β → List UInt8} (hdata : ∀ s o chunk, data (send s o chunk).1 = chunk)
    (payload : List UInt8) (offset : Nat) (s : σ) :
    ((executeLoop send false payload offset s).1.map data).flatten = payload.drop offset := by
  rw [executeLoop_eq_sendAll, map_sendAll (g := fun chunk => chunk) hdata, List.map_id']
  exact flatten_pieces (by decide) (payload.drop offset)

/-- What every send keeps, the loop keeps; and its outputs are those of sends from such states. -/
theorem executeLoop_invariant {I : σ → Prop} {J : β → Prop}
    (hsend : ∀ s o chunk, I s → J (send s o chunk).1 ∧ I (send s o chunk).2)
    (payload : List UInt8) (offset : Nat) {s : σ} (hs : I s) :
    (∀ b ∈ (executeLoop send false payload offset s).1, J b) ∧
      I (executeLoop send false payload offset s).2 := by
  rw [executeLoop_eq_sendAll]
  exact sendAll_invariant hsend _ hs offset

end loop

/-! ## The client of a Sphero object -/

namespace SpheroClient

/-- `bt_sphero_subscribe`; `gatt` is what `bt_gatt_subscribe` on `conn` returns. -/
def subscribe (c : SpheroClient) (received : Callback) (gatt : Option Errno) :
    Option Errno × SpheroClient :=
  if c.notifEnabled then (some .ealready, c)
  else
    let c := { c with notifEnabled := true }
    let c := { c with cb := { c.cb with received := some received } }
    match gatt with
    | some err => (some err, { c with notifEnabled := false })
    | none => (none, c)

@[simp] theorem conn_subscribe (c : SpheroClient) (received : Callback) (gatt : Option Errno) :
    (c.subscribe received gatt).2.conn = c.conn := by
  unfold subscribe
  split
  · rfl
  · cases gatt <;> rfl

@[simp] theorem conn_send (c : SpheroClient) (data : List UInt8) (len : UInt16)
    (write : Option Errno) : (c.send data len write).2.conn = c.conn := by
  rcases c.send_cases data len write with
    ⟨-, h⟩ | ⟨sending, -, ⟨-, h⟩ | ⟨-, -, h⟩ | ⟨-, -, err, -, h⟩ | ⟨-, -, -, h⟩⟩ <;> rw [h]

/-- **When a send is accepted.** -/
theorem send_eq_none_iff (c : SpheroClient) (data : List UInt8) (len : UInt16)
    (write : Option Errno) : (c.send data len write).1 = none ↔
      c.conn ≠ none ∧ write = none ∧ 0 < c.sending.count ∧ c.writePending = false := by
  rcases c.send_cases data len write with ⟨hzero, heq⟩ | ⟨sending, htake, hcases⟩
  · rw [heq]
    exact iff_of_false (by simp) fun hc => by omega
  obtain ⟨hcount, -⟩ := KSem.take_eq_some.mp htake
  have hpos : 0 < c.sending.count := by omega
  rcases hcases with ⟨hconn, heq⟩ | ⟨-, hbit, heq⟩ | ⟨-, -, err, hwrite, heq⟩ |
    ⟨hconn, hbit, hwrite, heq⟩
  · rw [heq]
    exact iff_of_false (by simp) fun hc => hc.1 hconn
  · rw [heq, hbit]
    exact iff_of_false (by simp) fun hc => Bool.noConfusion hc.2.2.2
  · rw [heq, hwrite]
    exact iff_of_false (by simp) fun hc => absurd hc.2.1 (by simp)
  · rw [heq]
    exact iff_of_true rfl ⟨hconn, hwrite, hpos, hbit⟩

/-- It has a write pending then. -/
theorem writePending_of_accepted {c : SpheroClient} {data : List UInt8} {len : UInt16}
    {write : Option Errno} (h : (c.send data len write).1 = none) :
    (c.send data len write).2.writePending = true := by
  rcases c.send_cases data len write with
    ⟨-, heq⟩ | ⟨sending, -, ⟨-, heq⟩ | ⟨-, -, heq⟩ | ⟨-, -, err, -, heq⟩ | ⟨-, -, -, heq⟩⟩ <;>
    rw [heq] at h ⊢ <;> first | rfl | cases h

theorem limit_send (c : SpheroClient) (data : List UInt8) (len : UInt16) (write : Option Errno) :
    (c.send data len write).2.sending.limit = c.sending.limit := by
  rcases c.send_cases data len write with ⟨-, heq⟩ | ⟨sending, htake, hcases⟩
  · rw [heq]
  have hlimit := (KSem.take_eq_some.mp htake).2
  rcases hcases with ⟨-, heq⟩ | ⟨-, -, heq⟩ | ⟨-, -, err, -, heq⟩ | ⟨-, -, -, heq⟩ <;> rw [heq] <;>
    exact hlimit

end SpheroClient

/-- What the stack does around one `bt_sphero_client_send`: `on_sent` may come first, and
    `bt_gatt_write` returns something. -/
structure Turn where
  sent : Option UInt8
  write : Option Errno
deriving DecidableEq, Repr

/-- A call of `bt_sphero_client_send`: the connection of the client, the bytes and what it returned. -/
structure SendCall where
  conn : Option BtConn
  data : List UInt8
  err : Option Errno
deriving DecidableEq, Repr

/-- The client after the `on_sent` that came, if one did. -/
def Turn.client (turn : Turn) (c : SpheroClient) : SpheroClient :=
  match turn.sent with
  | some err => (c.onSent err).2
  | none => c

/-- One call of `bt_sphero_client_send` in the loop. -/
def sendChunk (turns : Nat → Turn) (c : SpheroClient) (offset : Nat) (chunk : List UInt8) :
    SendCall × SpheroClient :=
  let turn := turns offset
  let c := turn.client c
  let r := c.send chunk (UInt16.ofNat chunk.length) turn.write
  (⟨c.conn, chunk, r.1⟩, r.2)

@[simp] theorem conn_client (turn : Turn) (c : SpheroClient) : (turn.client c).conn = c.conn := by
  unfold Turn.client
  cases turn.sent <;> rfl

theorem sendChunk_conn (turns : Nat → Turn) (c : SpheroClient) (offset : Nat) (chunk : List UInt8) :
    (sendChunk turns c offset chunk).1.conn = c.conn ∧
      (sendChunk turns c offset chunk).2.conn = c.conn := by
  simp [sendChunk]

/-! ## Chunks that are accepted -/

/-- The semaphore is free and no write is pending when the send takes its turn. -/
theorem Turn.free_iff (turn : Turn) (c : SpheroClient) :
    0 < (turn.client c).sending.count ∧ (turn.client c).writePending = false ↔
      (turn.sent ≠ none ∧ 0 < c.sending.limit) ∨ (0 < c.sending.count ∧ c.writePending = false) := by
  have hbounded := c.sending.bounded
  unfold Turn.client
  cases turn.sent with
  | none => simp
  | some err =>
    show 0 < min (c.sending.count + 1) c.sending.limit ∧ false = false ↔ _
    constructor
    · exact fun h => Or.inl ⟨Option.some_ne_none err, by omega⟩
    · rintro (⟨-, hlimit⟩ | ⟨hcount, -⟩)
      · exact ⟨by omega, rfl⟩
      · exact ⟨by omega, rfl⟩

/-- What the client and the stack have to do while the loop hands on `payload` from `offset`: the client
    has a connection, `bt_gatt_write` refuses nothing, and before each chunk the write before is
    reported sent.  A first chunk may find the semaphore free. -/
def Admits (turns : Nat → Turn) (payload : List UInt8) (offset : Nat) (c : SpheroClient) : Prop :=
  ∀ k, offset + chunkSize * k < payload.length →
    c.conn ≠ none ∧ (turns (offset + chunkSize * k)).write = none ∧
      ((turns (offset + chunkSize * k)).sent ≠ none ∧ 0 < c.sending.limit ∨
        k = 0 ∧ 0 < c.sending.count ∧ c.writePending = false)

section accepted

variable (turns : Nat → Turn) (c : SpheroClient) (offset : Nat) (chunk : List UInt8)

theorem sendChunk_accepted_iff : (sendChunk turns c offset chunk).1.err = none ↔
    c.conn ≠ none ∧ (turns offset).write = none ∧
      ((turns offset).sent ≠ none ∧ 0 < c.sending.limit ∨
        0 < c.sending.count ∧ c.writePending = false) := by
  rw [← Turn.free_iff, ← conn_client (turns offset) c]
  exact SpheroClient.send_eq_none_iff _ _ _ _

theorem sendChunk_limit : (sendChunk turns c offset chunk).2.sending.limit = c.sending.limit := by
  refine (SpheroClient.limit_send _ _ _ _).trans ?_
  unfold Turn.client
  cases (turns offset).sent <;> rfl

end accepted

/-- The first chunk, and the rest from the next offset on. -/
theorem admits_iff {turns : Nat → Turn} {payload : List UInt8} {offset : Nat} (c : SpheroClient)
    (h : offset < payload.length) :
    Admits turns payload offset c ↔
      (sendChunk turns c offset ((payload.drop offset).take (bytesToSend payload offset))).1.err =
          none ∧
        Admits turns payload (offset + bytesToSend payload offset) (sendChunk turns c offset
          ((payload.drop offset).take (bytesToSend payload offset))).2 := by
  unfold Admits
  rw [← Nat.and_forall_add_one]
  refine (and_congr_left' ?_).trans (and_congr_right fun haccepted => forall_congr' fun k => ?_)
  · rw [sendChunk_accepted_iff, Nat.mul_zero, Nat.add_zero, imp_iff_right h]
    simp only [true_and]
  rw [(sendChunk_conn turns c offset _).2, sendChunk_limit]
  by_cases hfull : bytesToSend payload offset = chunkSize
  · -- no later chunk finds the semaphore free: the write of the one before is pending
    have hpending : (sendChunk turns c offset
        ((payload.drop offset).take (bytesToSend payload offset))).2.writePending = true :=
      SpheroClient.writePending_of_accepted haccepted
    have hnext : offset + chunkSize * (k + 1) = offset + chunkSize + chunkSize * k := by
      rw [Nat.mul_succ]
      omega
    rw [hpending, hfull, hnext]
    simp only [Nat.add_eq_zero_iff, Nat.one_ne_zero, and_false, false_and, Bool.true_eq_false]
  · -- the chunk was the last, and there is no offset left on either side
    have hlast : bytesToSend payload offset = payload.length - offset ∧
        payload.length - offset < chunkSize := by
      unfold bytesToSend at hfull ⊢
      simp only at hfull ⊢
      split at hfull <;> split <;> omega
    have hsize : chunkSize = 20 := rfl
    refine iff_of_true (fun hlt => ?_) (fun hlt => ?_)
    · rw [hsize] at hlt hlast
      omega
    · rw [hsize] at hlt
      omega

/-- **Whole packets.**  Every chunk is accepted exactly when the client and the stack admit them. -/
theorem accepted_iff {turns : Nat → Turn} {payload : List UInt8} {offset : Nat} {c : SpheroClient} :
    (∀ call ∈ (executeLoop (sendChunk turns) false payload offset c).1, call.err = none) ↔
      Admits turns payload offset c := by
  induction offset using offset_induction payload generalizing c with
  | hend offset hle =>
    rw [executeLoop_of_le _ hle]
    exact iff_of_true (fun _ h => absurd h List.not_mem_nil) fun k hlt => absurd hlt (by omega)
  | hchunk offset h ih =>
    rw [executeLoop_of_lt _ h, admits_iff c h]
    simp only [List.forall_mem_cons]
    exact and_congr_right fun _ => ih

/-! ## The execution -/

/-- How `execute` ends. -/
inductive Execution
  /-- The context pointer was null and was dereferenced. -/
  | nullDereference
  /-- "Sphero not found". -/
  | notFound
  | sent (calls : List SendCall)
deriving DecidableEq, Repr

/-- What `scanner_get_sphero` does. -/
inductive GetSphero
  | nullDereference
  /-- The pointer it returns: the block of a context, or null. -/
  | returns (client : Option Slot)
deriving DecidableEq, Repr

namespace Scanner

/-- `bt_conn_ctx_get_by_id`. -/
def getById (s : Scanner) (id : UInt8) : Option Slot :=
  if h : id.toNat < maxConn then
    if (s.conns.owner ⟨id.toNat, h⟩).isSome then some ⟨id.toNat, h⟩ else none
  else none

/-- `scanner_get_sphero`: `ctx->data` is the block of the context, never null. -/
def getSphero (s : Scanner) (id : UInt8) : GetSphero :=
  match s.getById id with
  | none => .nullDereference
  | some slot => .returns (some slot)

/-- `Sphero::execute` of the object with `sphero_id` `id`. -/
def execute (s : Scanner) (id : UInt8) (packet : Packet) (test : Bool) (turns : Nat → Turn) :
    Execution × Scanner :=
  let payload := packet.build
  match s.getSphero id with
  | .nullDereference => (.nullDereference, s)
  | .returns none => (.notFound, s)
  | .returns (some slot) =>
    let r := executeLoop (sendChunk turns) test payload 0 (s.conns.data slot)
    (.sent r.1, { s with conns := s.conns.modify slot fun _ => r.2 })

theorem getById_ofNat (s : Scanner) (slot : Slot) :
    s.getById (UInt8.ofNat slot.val) =
      if (s.conns.owner slot).isSome then some slot else none := by
  have hslot : slot.val < 15 := slot.isLt
  have hid : (UInt8.ofNat slot.val).toNat = slot.val := by
    rw [UInt8.toNat_ofNat']
    omega
  unfold getById
  simp only [hid]
  rw [dif_pos slot.isLt]

theorem getSphero_ofNat {s : Scanner} {slot : Slot} (h : s.conns.owner slot ≠ none) :
    s.getSphero (UInt8.ofNat slot.val) = .returns (some slot) := by
  unfold getSphero
  rw [getById_ofNat, if_pos (Option.isSome_iff_ne_none.mpr h)]

/-- The branch for a missing Sphero is never taken. -/
theorem execute_ne_notFound (s : Scanner) (id : UInt8) (packet : Packet) (test : Bool)
    (turns : Nat → Turn) : (s.execute id packet test turns).1 ≠ .notFound := by
  unfold execute getSphero
  cases s.getById id <;> exact Execution.noConfusion

theorem execute_of_free {s : Scanner} {slot : Slot} (h : s.conns.owner slot = none)
    (packet : Packet) (turns : Nat → Turn) :
    s.execute (UInt8.ofNat slot.val) packet false turns = (.nullDereference, s) := by
  unfold execute getSphero
  rw [getById_ofNat, h]
  rfl

/-- A command to an occupied slot goes to the client there, whoever that is by now: the whole packet is
    handed to `bt_sphero_client_send`, with the connection of that client. -/
theorem execute_of_owned {s : Scanner} {slot : Slot} (h : s.conns.owner slot ≠ none)
    (packet : Packet) (turns : Nat → Turn) :
    ∃ calls client, s.execute (UInt8.ofNat slot.val) packet false turns =
        (.sent calls, { s with conns := s.conns.modify slot fun _ => client }) ∧
      (calls.map SendCall.data).flatten = packet.build ∧
      (∀ call ∈ calls, call.conn = (s.conns.data slot).conn) ∧
      ((∀ call ∈ calls, call.err = none) ↔ Admits turns packet.build 0 (s.conns.data slot)) ∧
      client.conn = (s.conns.data slot).conn := by
  have hinvariant := executeLoop_invariant
    (I := fun c : SpheroClient => c.conn = (s.conns.data slot).conn)
    (J := fun call : SendCall => call.conn = (s.conns.data slot).conn) (sendChunk turns)
    (fun client offset chunk hclient => by
      obtain ⟨hcall, hnext⟩ := sendChunk_conn turns client offset chunk
      exact ⟨hcall.trans hclient, hnext.trans hclient⟩)
    packet.build 0 rfl
  refine ⟨_, _, by unfold execute; rw [getSphero_ofNat h], ?_, hinvariant.1, accepted_iff, hinvariant.2⟩
  exact executeLoop_data _ (fun _ _ _ => rfl) packet.build 0 _

end Scanner

/-! ## The line of an object -/

/-- What the events since the construction of an object say of its slot. -/
structure Line where
  occupant : Option BtConn
  /-- Whom the last usable discovery was of that completed here since the slot was taken. -/
  target : Option BtConn
  /-- The connection the constructor subscribed on has been disconnected. -/
  lost : Bool
deriving DecidableEq, Repr

/-- `slot` is the slot of the object, `home` the connection its constructor subscribed on. -/
def Line.next (l : Line) (slot : Slot) (home : Option BtConn) : Event → Line
  | .connected conn i _ _ =>
    if i = slot then { l with occupant := some conn, target := none } else l
  | .discoveryComplete dm context _ _ =>
    if context = slot ∧ dm.usable = true then { l with target := some dm.conn } else l
  | .disconnected conn =>
    { l with
      occupant := if l.occupant = some conn then none else l.occupant
      lost := l.lost || decide (home = some conn) }
  | _ => l

/-- A Sphero object and the scanner. -/
structure Bound where
  scanner : Scanner
  /-- The slot with the number `sphero_id`. -/
  slot : Slot
  /-- The connection the constructor subscribed on. -/
  home : Option BtConn
  line : Line

namespace Bound

inductive Act
  | event (e : Event)
  | command (packet : Packet) (turns : Nat → Turn)

/-- The constructor up to its subscription; the commands it sends are commands of the run. -/
def construct (s : Scanner) (slot : Slot) (received : Callback) (gatt : Option Errno) : Bound where
  scanner :=
    { s with conns := s.conns.modify slot fun client => (client.subscribe received gatt).2 }
  slot := slot
  home := (s.conns.data slot).conn
  line := ⟨s.conns.owner slot, (s.conns.data slot).conn, false⟩

def execute (s : Bound) (packet : Packet) (turns : Nat → Turn) : Execution × Scanner :=
  s.scanner.execute (UInt8.ofNat s.slot.val) packet false turns

def step (s : Bound) : Act → Option Bound
  | .event e =>
    (s.scanner.step e).map fun scanner => { s with scanner, line := s.line.next s.slot s.home e }
  | .command packet turns => some { s with scanner := (s.execute packet turns).2 }

/-- A command hands its bytes to the connection the constructor subscribed on, which is there still, or
    finds no Sphero and sends nothing.  Bytes are handed on by a `bt_sphero_client_send` on that
    connection which returns no error. -/
def Reaches (s : Bound) : Act → Prop
  | .event _ => True
  | .command packet turns =>
    match (s.execute packet turns).1 with
    | .nullDereference => False
    | .notFound => True
    | .sent calls =>
      s.line.lost = false ∧ (calls.map SendCall.data).flatten = packet.build ∧
        ∃ conn, s.home = some conn ∧ ∀ call ∈ calls, call.conn = some conn ∧ call.err = none

/-- The slot is taken, and the connection it leads to is the one the constructor subscribed on. -/
def OnLine (s : Bound) : Act → Prop
  | .event _ => True
  | .command _ _ =>
    s.line.occupant ≠ none ∧ s.line.lost = false ∧ ∃ conn, s.home = some conn ∧
      s.line.target = some conn

/-- The client of the slot and the stack admit every chunk of the command. -/
def Served (s : Bound) : Act → Prop
  | .event _ => True
  | .command packet turns => Admits turns packet.build 0 (s.scanner.conns.data s.slot)

/-- The connection the constructor subscribed on has not been disconnected. -/
def NotLost (s : Bound) : Act → Prop
  | .event _ => True
  | .command _ _ => s.line.lost = false

/-- No discovery of another connection completes on the slot before that. -/
def OwnDiscovery (s : Bound) : Act → Prop
  | .event (.discoveryComplete dm context _ _) =>
    s.line.lost = false → context = s.slot → s.home = some dm.conn
  | _ => True

/-- The line is what the scanner has. -/
structure Tracks (s : Bound) : Prop where
  occupant : s.line.occupant = s.scanner.conns.owner s.slot
  target : s.line.target = (s.scanner.conns.data s.slot).conn

theorem tracks_construct (s : Scanner) (slot : Slot) (received : Callback) (gatt : Option Errno) :
    (construct s slot received gatt).Tracks where
  occupant := rfl
  target := by
    show (s.conns.data slot).conn =
      ((s.conns.modify slot fun client => (client.subscribe received gatt).2).data slot).conn
    rw [SlotTable.data_modify_self, SpheroClient.conn_subscribe]

/-- A callback that leaves the contexts alone. -/
theorem tracks_of_conns {s : Bound} {scanner : Scanner} (h : s.Tracks)
    (hconns : scanner.conns = s.scanner.conns) : Tracks { s with scanner } where
  occupant := by rw [h.occupant, ← hconns]
  target := by rw [h.target, ← hconns]

theorem tracks_connected {s : Bound} {scanner : Scanner} {conn : BtConn} {slot : Slot}
    {dm scan : Option Errno} (h : s.Tracks)
    (hs : s.scanner.step (.connected conn slot dm scan) = some scanner) :
    Tracks { s with scanner, line := s.line.next s.slot s.home (.connected conn slot dm scan) } := by
  obtain ⟨conns, halloc, rfl⟩ := Option.map_eq_some_iff.mp hs
  obtain ⟨-, -, howner, hdata⟩ := SlotTable.alloc?_eq_some halloc
  simp only [Line.next]
  constructor
  · simp only [Scanner.conns_btScanStop, Scanner.conns_gattDiscover, SlotTable.owner_modify, howner]
    by_cases hi : slot = s.slot
    · rw [if_pos hi, hi, Function.update_self]
    · rw [if_neg hi, Function.update_of_ne (Ne.symm hi)]
      exact h.occupant
  · simp only [Scanner.conns_btScanStop, Scanner.conns_gattDiscover]
    by_cases hi : slot = s.slot
    · rw [if_pos hi, hi, SlotTable.data_modify_self, SlotTable.data_modify_self]
      rfl
    · rw [if_neg hi, SlotTable.data_modify_of_ne _ (Ne.symm hi),
        SlotTable.data_modify_of_ne _ (Ne.symm hi), hdata]
      exact h.target

theorem tracks_discoveryComplete {s : Bound} {scanner : Scanner} {dm : GattDm} {context : Slot}
    {now : UInt64} {scan : Option Errno} (h : s.Tracks)
    (hs : s.scanner.step (.discoveryComplete dm context now scan) = some scanner) :
    Tracks { s with
      scanner
      line := s.line.next s.slot s.home (.discoveryComplete dm context now scan) } := by
  obtain ⟨t, hend, rfl⟩ := Option.map_eq_some_iff.mp hs
  have hconns := Scanner.conns_endDiscovery hend
  simp only [Line.next]
  constructor
  · rw [Scanner.conns_discoveryComplete, hconns, SlotTable.owner_modify, ← h.occupant]
    split <;> rfl
  · simp only [Scanner.conns_discoveryComplete, hconns]
    by_cases hi : context = s.slot
    · rw [hi, SlotTable.data_modify_self, SpheroClient.conn_handlesAssign, ← h.target]
      cases dm.usable <;> simp
    · rw [SlotTable.data_modify_of_ne _ (Ne.symm hi), if_neg fun hc => hi hc.1]
      exact h.target

theorem tracks_disconnected {s : Bound} {scanner : Scanner} {conn : BtConn} (h : s.Tracks)
    (hs : s.scanner.step (.disconnected conn) = some scanner) :
    Tracks { s with scanner, line := s.line.next s.slot s.home (.disconnected conn) } := by
  obtain rfl := Option.some.inj hs
  constructor
  · show (if s.line.occupant = some conn then none else s.line.occupant) = _
    rw [h.occupant]
    rfl
  · exact h.target

theorem tracks_step {s s' : Bound} {a : Act} (h : s.Tracks) (hs : s.step a = some s') :
    s'.Tracks := by
  cases a with
  | command packet turns =>
    obtain rfl := Option.some.inj hs
    cases howner : s.scanner.conns.owner s.slot with
    | none =>
      refine tracks_of_conns h ?_
      rw [execute, Scanner.execute_of_free howner]
    | some conn =>
      have howned : s.scanner.conns.owner s.slot ≠ none := by simp [howner]
      obtain ⟨calls, client, hexecute, -, -, -, hclient⟩ :=
        Scanner.execute_of_owned howned packet turns
      have hscanner : (s.execute packet turns).2 =
          { s.scanner with conns := s.scanner.conns.modify s.slot fun _ => client } :=
        congrArg Prod.snd hexecute
      constructor
      · show s.line.occupant = ((s.execute packet turns).2.conns.owner s.slot)
        rw [hscanner]
        exact h.occupant
      · show s.line.target = ((s.execute packet turns).2.conns.data s.slot).conn
        rw [hscanner, SlotTable.data_modify_self, hclient]
        exact h.target
  | event e =>
    obtain ⟨scanner, hscanner, rfl⟩ := Option.map_eq_some_iff.mp hs
    cases e with
    | connected conn slot dm scan => exact tracks_connected h hscanner
    | discoveryComplete dm context now scan => exact tracks_discoveryComplete h hscanner
    | disconnected conn => exact tracks_disconnected h hscanner
    | _ => exact tracks_of_conns h (Scanner.conns_step hscanner rfl)

/-- A command reaches the right connection exactly on its line, if its chunks are accepted. -/
theorem reaches_iff {s : Bound} (h : s.Tracks) (a : Act) : s.Reaches a ↔ s.OnLine a ∧ s.Served a := by
  cases a with
  | event e => exact (and_self_iff (a := True)).symm
  | command packet turns =>
    show (match (s.execute packet turns).1 with
      | .nullDereference => False
      | .notFound => True
      | .sent calls => _) ↔ (s.line.occupant ≠ none ∧ _) ∧ Admits _ _ _ _
    cases howner : s.scanner.conns.owner s.slot with
    | none =>
      have hexecute : s.execute packet turns = (.nullDereference, s.scanner) :=
        Scanner.execute_of_free howner packet turns
      rw [hexecute, h.occupant, howner]
      exact iff_of_false id fun hon => hon.1.1 rfl
    | some conn =>
      have howned : s.scanner.conns.owner s.slot ≠ none := by simp [howner]
      obtain ⟨calls, client, hexecute, hdata, hcalls, haccepted, -⟩ :=
        Scanner.execute_of_owned howned packet turns
      rw [show s.execute packet turns = _ from hexecute, h.occupant, h.target]
      constructor
      · rintro ⟨hlost, -, home, hhome, hall⟩
        refine ⟨⟨howned, hlost, home, hhome, ?_⟩, haccepted.mp fun call hcall => (hall call hcall).2⟩
        -- a packet is not empty, so there is a first chunk
        cases calls with
        | nil =>
          have hlength := packet.build_length
          rw [← hdata] at hlength
          exact absurd hlength (by decide)
        | cons call calls =>
          rw [← hcalls call List.mem_cons_self]
          exact (hall call List.mem_cons_self).1
      · rintro ⟨⟨-, hlost, home, hhome, htarget⟩, hserved⟩
        refine ⟨hlost, hdata, home, hhome, fun call hcall => ⟨?_, haccepted.mpr hserved call hcall⟩⟩
        exact (hcalls call hcall).trans htarget

/-- The slot stays with the connection the constructor subscribed on until that is lost. -/
structure Kept (s : Bound) (conn : BtConn) : Prop where
  home : s.home = some conn
  line : s.line.lost = false → s.line.occupant = some conn ∧ s.line.target = some conn

theorem kept_step {s s' : Bound} {conn : BtConn} {a : Act} (ht : s.Tracks) (h : s.Kept conn)
    (hown : s.OwnDiscovery a) (hs : s.step a = some s') : s'.Kept conn := by
  cases a with
  | command packet turns =>
    obtain rfl := Option.some.inj hs
    exact ⟨h.home, h.line⟩
  | event e =>
    obtain ⟨scanner, hscanner, rfl⟩ := Option.map_eq_some_iff.mp hs
    refine ⟨h.home, ?_⟩
    cases e with
    | connected c slot dm scan =>
      intro hlost
      by_cases hi : slot = s.slot
      · -- the slot was not free
        obtain ⟨conns, halloc, -⟩ := Option.map_eq_some_iff.mp hscanner
        have hfree := (SlotTable.alloc?_eq_some halloc).1
        have hkept := (h.line (by simpa [Line.next, hi] using hlost)).1
        rw [ht.occupant, ← hi, hfree] at hkept
        cases hkept
      · simp only [Line.next, if_neg hi] at hlost ⊢
        exact h.line hlost
    | discoveryComplete dm context now scan =>
      intro hlost
      by_cases hi : context = s.slot ∧ dm.usable = true
      · simp only [Line.next, if_pos hi] at hlost ⊢
        exact ⟨(h.line hlost).1, (hown hlost hi.1).symm.trans h.home⟩
      · simp only [Line.next, if_neg hi] at hlost ⊢
        exact h.line hlost
    | disconnected c =>
      intro hlost
      simp only [Line.next, h.home, Bool.or_eq_false_iff, decide_eq_false_iff_not,
        Option.some.injEq] at hlost ⊢
      obtain ⟨hocc, htarget⟩ := h.line hlost.1
      refine ⟨?_, htarget⟩
      rw [hocc, if_neg (by rw [Option.some.injEq]; exact hlost.2)]
    | _ => exact h.line

/-- **Whom the commands of an object reach.**  On its line, the connection its constructor subscribed
    on, with all their bytes if their chunks are accepted; off it, nobody or somebody else.  If that
    connection had the slot, and no discovery of another completes there before it is lost, the line
    ends when it is lost. -/
theorem reaches_home_iff (s : Scanner) (slot : Slot) (received : Callback) (gatt : Option Errno)
    (acts : List Act) :
    (Transition.Along step Reaches (construct s slot received gatt) acts ↔
      Transition.Along step OnLine (construct s slot received gatt) acts ∧
        Transition.Along step Served (construct s slot received gatt) acts) ∧
    ∀ conn, s.conns.owner slot = some conn → (s.conns.data slot).conn = some conn →
      Transition.Along step OwnDiscovery (construct s slot received gatt) acts →
        (Transition.Along step Reaches (construct s slot received gatt) acts ↔
          Transition.Along step NotLost (construct s slot received gatt) acts ∧
            Transition.Along step Served (construct s slot received gatt) acts) := by
  have htracks := tracks_construct s slot received gatt
  have hline : Transition.Along step Reaches (construct s slot received gatt) acts ↔
      Transition.Along step OnLine (construct s slot received gatt) acts ∧
        Transition.Along step Served (construct s slot received gatt) acts := by
    rw [← Transition.along_and]
    exact Transition.along_congr (fun ht => reaches_iff ht _) (fun ht _ => tracks_step ht) htracks acts
  refine ⟨hline, fun conn howner hconn hown => hline.trans (and_congr_left' ?_)⟩
  refine Transition.along_congr_of (I := fun s : Bound => s.Tracks ∧ s.Kept conn) ?_ ?_
    ⟨htracks, hconn, fun _ => ⟨howner, hconn⟩⟩ hown
  · rintro s a ⟨-, hkept⟩ -
    cases a with
    | event e => exact Iff.rfl
    | command packet turns =>
      constructor
      · exact fun hon => hon.2.1
      · intro hlost
        obtain ⟨hocc, htarget⟩ := hkept.line hlost
        exact ⟨by rw [hocc]; exact Option.some_ne_none conn, hlost, conn, hkept.home, htarget⟩
  · rintro s a s' ⟨ht, hkept⟩ hown - hs
    exact ⟨tracks_step ht hs, kept_step ht hkept hown hs⟩

/-- One robot found, in slot 0. -/
def found : List Event :=
  [.start 0 none, .scanConnecting 7, .connected 7 0 none none,
    .discoveryComplete (Scanner.readyDm 7) 0 1 none]

/-- The first `wake`, whose one chunk is written. -/
def wake : Act :=
  .command ⟨⟨0x0A⟩, 19, 13, 0, 0, 0, PacketError.success, []⟩ fun _ => ⟨none, none⟩

theorem reaches_home_iff_found :
    ∃ s, Transition.run Scanner.step Scanner.new found = some s ∧
      (Transition.Along step Reaches (construct s 0 1 none) [wake, .event (.disconnected 7)] ↔
        Transition.Along step NotLost (construct s 0 1 none) [wake, .event (.disconnected 7)] ∧
          Transition.Along step Served (construct s 0 1 none) [wake, .event (.disconnected 7)]) :=
  ⟨_, rfl, (reaches_home_iff _ 0 1 none [wake, .event (.disconnected 7)]).2 7 rfl rfl
    ⟨trivial, fun _ _ => ⟨trivial, fun _ _ => trivial⟩⟩⟩

/-- The robot goes, and the next command dereferences the context it had. -/
theorem dereferences_lost :
    ¬ ∀ (s : Scanner) (slot : Slot) (received : Callback) (gatt : Option Errno) (acts : List Act),
      (s.conns.owner slot).isSome →
        Transition.Along step Reaches (construct s slot received gatt) acts := by
  intro h
  obtain ⟨s, hs⟩ : ∃ s, Transition.run Scanner.step Scanner.new found = some s := ⟨_, rfl⟩
  have hsome : (s.conns.owner 0).isSome := by
    rw [← Option.some.inj hs]
    rfl
  have hreaches := ((h s 0 1 none [.event (.disconnected 7), wake] hsome).2 _ rfl).1
  rw [← Option.some.inj hs] at hreaches
  exact hreaches

end Bound

end NrfSpheros
