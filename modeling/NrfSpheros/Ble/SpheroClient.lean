/-
  `ble/sphero_client.c`: the client of one Sphero, and its semaphore over runs of sends.

  1. **The client.**  `struct bt_sphero_client` with its functions.  `atomic_t state` is its three
     bits.  A write is asynchronous: `bt_gatt_write` returning 0 means that `on_sent` follows, so a
     `Channel` is a client with the number of writes still `inFlight`.

  2. **Conservation** (`Conserved`).  The semaphore, the write-pending bit and the writes in flight
     are three counts of one thing, in every reachable state: a semaphore that is available, a write
     in flight, or neither, and then it has been leaked.

  3. **A leak** (`failed_send_iff`).  Two of the error paths of `bt_sphero_client_send` return
     without `k_sem_give`: the missing connection and the failed write.  The third, the timeout, has
     not taken the semaphore.  So failed sends are harmless, and the semaphore is available exactly
     when no write is in flight, in just those runs in which no send reaches the two.
-/
import NrfSpheros.Theory.Run

namespace NrfSpheros

/-! ## Kernel objects -/

/-- `struct k_sem`. -/
structure KSem where
  count : Nat
  limit : Nat
  bounded : count ≤ limit
deriving DecidableEq

namespace KSem

/-- `k_sem_take`, at the moment it succeeds or gives up. -/
def take (s : KSem) : Option KSem :=
  if 0 < s.count then some ⟨s.count - 1, s.limit, Nat.le_trans (Nat.sub_le _ _) s.bounded⟩ else none

/-- `k_sem_give`: the count does not pass the limit. -/
def give (s : KSem) : KSem :=
  ⟨min (s.count + 1) s.limit, s.limit, Nat.min_le_right _ _⟩

theorem take_eq_some {s s' : KSem} :
    s.take = some s' ↔ s.count = s'.count + 1 ∧ s'.limit = s.limit := by
  rcases s' with ⟨count, limit, bounded⟩
  unfold take
  by_cases h : 0 < s.count
  · rw [if_pos h, Option.some.injEq, KSem.mk.injEq]
    show s.count - 1 = count ∧ s.limit = limit ↔ s.count = count + 1 ∧ limit = s.limit
    omega
  · rw [if_neg h]
    show none = some _ ↔ s.count = count + 1 ∧ limit = s.limit
    exact iff_of_false (by simp) (by omega)

theorem take_eq_none {s : KSem} : s.take = none ↔ s.count = 0 := by
  unfold take
  by_cases h : 0 < s.count
  · rw [if_pos h]
    exact iff_of_false (by simp) (by omega)
  · rw [if_neg h]
    exact iff_of_true rfl (by omega)

end KSem

/-- The error codes the client returns, without their sign. -/
inductive Errno
  | eagain
  | enotconn
  | ealready
  | einval
  | enotsup
  /-- A code of the Bluetooth stack. -/
  | other (code : Nat)
deriving DecidableEq, Repr

/-- The address of a `struct bt_conn`. -/
abbrev BtConn := Nat

/-! ## The client -/

/-- `struct bt_sphero_client_handles`. -/
structure SpheroClientHandles where
  packets : UInt16
  packetsCcc : UInt16
deriving DecidableEq, Repr

/-- `struct bt_gatt_write_params`, with the bytes `data` points to. -/
structure GattWriteParams where
  handle : UInt16
  offset : UInt16
  data : List UInt8
  length : UInt16
deriving DecidableEq, Repr

/-- The address of a callback. -/
abbrev Callback := Nat

/-- `struct bt_sphero_client_cb`: the callbacks that are set. -/
structure SpheroClientCb where
  received : Option Callback
  sent : Option Callback
deriving DecidableEq, Repr

/-- `struct bt_sphero_client`. -/
structure SpheroClient where
  conn : Option BtConn
  initalized : Bool
  notifEnabled : Bool
  writePending : Bool
  sending : KSem
  handles : SpheroClientHandles
  writeParams : GattWriteParams
  cb : SpheroClientCb
deriving DecidableEq

/-- A call of `cb.sent`. -/
structure SentCall where
  callback : Callback
  err : UInt8
  data : List UInt8
  length : UInt16
deriving DecidableEq, Repr

/-- What a discovery object holds, as `bt_gatt_dm` reads it. -/
structure GattDm where
  conn : BtConn
  /-- The UUID of its service is the Sphero service's. -/
  spheroService : Bool
  /-- It has the Sphero packets characteristic. -/
  packetsChrc : Bool
  /-- The handle of the value descriptor of that characteristic. -/
  packetsValue : Option UInt16
  /-- The handle of its CCC descriptor. -/
  packetsCcc : Option UInt16
deriving DecidableEq, Repr

namespace SpheroClient

/-- A block of memory set to zero. -/
def zeroed : SpheroClient where
  conn := none
  initalized := false
  notifEnabled := false
  writePending := false
  sending := ⟨0, 0, Nat.le_refl 0⟩
  handles := ⟨0, 0⟩
  writeParams := ⟨0, 0, [], 0⟩
  cb := ⟨none, none⟩

/-- `bt_sphero_client_init` with non-null arguments. -/
def init (c : SpheroClient) (cb : SpheroClientCb) : Option Errno × SpheroClient :=
  if c.initalized then (some .ealready, c)
  else
    let c := { c with initalized := true }
    let c := { c with cb := cb }
    (none, { c with sending := ⟨1, 1, Nat.le_refl 1⟩ })

/-- `bt_sphero_client_send`; `write` is what `bt_gatt_write` returns. -/
def send (c : SpheroClient) (data : List UInt8) (len : UInt16) (write : Option Errno) :
    Option Errno × SpheroClient :=
  match c.sending.take with
  | none => (some .eagain, c)
  | some sending =>
    let c := { c with sending := sending }
    match c.conn with
    | none => (some .enotconn, c)
    | some _ =>
      if c.writePending then (some .ealready, c)
      else
        let c := { c with writePending := true }
        let c := { c with
          writeParams := { handle := c.handles.packets, offset := 0, data, length := len } }
        match write with
        | some err => (some err, { c with writePending := false })
        | none => (none, c)

def onSent (c : SpheroClient) (err : UInt8) : Option SentCall × SpheroClient :=
  let data := c.writeParams.data
  let length := c.writeParams.length
  let c := { c with writePending := false }
  let c := { c with sending := c.sending.give }
  (c.cb.sent.map fun callback => ⟨callback, err, data, length⟩, c)

/-- `bt_sphero_handles_assign`: `conn` is set last, once both handles are known. -/
def handlesAssign (dm : GattDm) (c : SpheroClient) : Option Errno × SpheroClient :=
  if !dm.spheroService then (some .enotsup, c)
  else
    let c := { c with handles := ⟨0xFFFF, 0xFFFF⟩ }
    if !dm.packetsChrc then (some .einval, c)
    else
      match dm.packetsValue with
      | none => (some .einval, c)
      | some handle =>
        let c := { c with handles := { c.handles with packets := handle } }
        match dm.packetsCcc with
        | none => (some .einval, c)
        | some handle =>
          let c := { c with handles := { c.handles with packetsCcc := handle } }
          (none, { c with conn := some dm.conn })

/-! ## What a send can do -/

/-- **Every way a send ends.** -/
theorem send_cases (c : SpheroClient) (data : List UInt8) (len : UInt16) (write : Option Errno) :
    (c.sending.count = 0 ∧ c.send data len write = (some .eagain, c)) ∨
    ∃ sending, c.sending.take = some sending ∧
      ((c.conn = none ∧ c.send data len write = (some .enotconn, { c with sending := sending })) ∨
      (c.conn ≠ none ∧ c.writePending = true ∧
        c.send data len write = (some .ealready, { c with sending := sending })) ∨
      (c.conn ≠ none ∧ c.writePending = false ∧ ∃ err, write = some err ∧
        c.send data len write = (some err, { c with
          sending := sending
          writeParams := ⟨c.handles.packets, 0, data, len⟩ })) ∨
      (c.conn ≠ none ∧ c.writePending = false ∧ write = none ∧
        c.send data len write = (none, { c with
          sending := sending
          writePending := true
          writeParams := ⟨c.handles.packets, 0, data, len⟩ }))) := by
  cases htake : c.sending.take with
  | none => exact Or.inl ⟨KSem.take_eq_none.mp htake, by simp only [send, htake]⟩
  | some sending =>
    refine Or.inr ⟨sending, rfl, ?_⟩
    cases hconn : c.conn with
    | none => exact Or.inl ⟨rfl, by simp only [send, htake, hconn]⟩
    | some conn =>
      have hsome : some conn ≠ none := Option.some_ne_none conn
      cases hpending : c.writePending with
      | true =>
        exact Or.inr (Or.inl ⟨hsome, rfl, by simp only [send, htake, hconn, hpending, if_true]⟩)
      | false =>
        cases write with
        | some err =>
          refine Or.inr (Or.inr (Or.inl ⟨hsome, rfl, err, rfl, ?_⟩))
          simp only [send, htake, hconn, hpending, Bool.false_eq_true, if_false]
        | none =>
          refine Or.inr (Or.inr (Or.inr ⟨hsome, rfl, rfl, ?_⟩))
          simp only [send, htake, hconn, hpending, Bool.false_eq_true, if_false]

end SpheroClient

/-! ## Runs of sends -/

/-- A client with the writes the stack has accepted and not yet reported sent. -/
structure Channel where
  client : SpheroClient
  inFlight : Nat

namespace Channel

inductive Event
  | send (data : List UInt8) (len : UInt16) (write : Option Errno)
  | sent (err : UInt8)
  /-- `conn` changes outside the sends. -/
  | conn (conn : Option BtConn)

/-- A client just initialised, on cleared memory. -/
def opened (cb : SpheroClientCb) : Channel := ⟨(SpheroClient.zeroed.init cb).2, 0⟩

def step (s : Channel) : Event → Option Channel
  | .send data len write =>
    let r := s.client.send data len write
    some ⟨r.2, if r.1 = none then s.inFlight + 1 else s.inFlight⟩
  | .sent err =>
    if 0 < s.inFlight then some ⟨(s.client.onSent err).2, s.inFlight - 1⟩ else none
  | .conn conn => some { s with client := { s.client with conn := conn } }

/-- The semaphore and the writes in flight never make more than one, and the bit says whether a
    write is in flight. -/
structure Conserved (s : Channel) : Prop where
  limit : s.client.sending.limit = 1
  one : s.client.sending.count + s.inFlight ≤ 1
  pending : s.client.writePending = true ↔ 0 < s.inFlight

/-- The semaphore is available exactly when no write is in flight. -/
def Available (s : Channel) : Prop := 0 < s.client.sending.count ↔ s.inFlight = 0

/-- A send that returns an error leaves the semaphore and the write-pending bit as they were. -/
def Restores (s : Channel) : Event → Prop
  | .send data len write =>
    (s.client.send data len write).1 ≠ none →
      (s.client.send data len write).2.sending.count = s.client.sending.count ∧
        (s.client.send data len write).2.writePending = s.client.writePending
  | _ => True

/-- A send made while no write is in flight finds a connection, and its write is accepted. -/
def Clean (s : Channel) : Event → Prop
  | .send _ _ write => s.inFlight = 0 → s.client.conn ≠ none ∧ write = none
  | _ => True

theorem conserved_opened (cb : SpheroClientCb) : (opened cb).Conserved :=
  ⟨rfl, Nat.le_refl 1, iff_of_false Bool.false_ne_true (Nat.lt_irrefl 0)⟩

theorem conserved_step {s s' : Channel} {e : Event} (h : s.Conserved) (hs : s.step e = some s') :
    s'.Conserved := by
  obtain ⟨hlimit, hone, hpending⟩ := h
  cases e with
  | send data len write =>
    obtain rfl := Option.some.inj hs
    rcases s.client.send_cases data len write with ⟨-, heq⟩ | ⟨sending, htake, hcases⟩
    · rw [heq]
      exact ⟨hlimit, hone, hpending⟩
    obtain ⟨hcount, hlimit'⟩ := KSem.take_eq_some.mp htake
    -- the unit is taken in all four; a write that is accepted is in flight instead
    rcases hcases with ⟨-, heq⟩ | ⟨-, -, heq⟩ | ⟨-, -, err, -, heq⟩ | ⟨-, -, -, heq⟩ <;> rw [heq]
    · exact ⟨hlimit'.trans hlimit, by show sending.count + s.inFlight ≤ 1; omega, hpending⟩
    · exact ⟨hlimit'.trans hlimit, by show sending.count + s.inFlight ≤ 1; omega, hpending⟩
    · exact ⟨hlimit'.trans hlimit, by show sending.count + s.inFlight ≤ 1; omega, hpending⟩
    · refine ⟨hlimit'.trans hlimit, ?_, iff_of_true rfl (Nat.succ_pos _)⟩
      show sending.count + (s.inFlight + 1) ≤ 1
      omega
  | sent err =>
    simp only [step] at hs
    split at hs
    · obtain rfl := Option.some.inj hs
      refine ⟨hlimit, ?_, iff_of_false Bool.false_ne_true ?_⟩
      · show min (s.client.sending.count + 1) s.client.sending.limit + (s.inFlight - 1) ≤ 1
        omega
      · show ¬ 0 < s.inFlight - 1
        omega
    · cases hs
  | conn conn =>
    obtain rfl := Option.some.inj hs
    exact ⟨hlimit, hone, hpending⟩

/-- While the semaphore is as it should be, the send that harms it is the one that finds no write
    in flight and then fails. -/
theorem restores_iff {s : Channel} {e : Event} (h : s.Conserved) (ha : s.Available) :
    s.Restores e ↔ s.Clean e := by
  cases e with
  | send data len write =>
    obtain ⟨-, hone, hpending⟩ := h
    show ((s.client.send data len write).1 ≠ none →
        (s.client.send data len write).2.sending.count = s.client.sending.count ∧
          (s.client.send data len write).2.writePending = s.client.writePending) ↔
      (s.inFlight = 0 → s.client.conn ≠ none ∧ write = none)
    rcases s.client.send_cases data len write with ⟨hzero, heq⟩ | ⟨sending, htake, hcases⟩
    · -- the timeout: a write is in flight, and nothing is touched
      rw [heq]
      refine iff_of_true (fun _ => ⟨rfl, rfl⟩) fun hfree => ?_
      have := ha.mpr hfree
      omega
    obtain ⟨hcount, -⟩ := KSem.take_eq_some.mp htake
    -- the semaphore could be taken, so no write is in flight, and the bit is clear
    have hfree : s.inFlight = 0 := by omega
    have hleak : ¬ sending.count = s.client.sending.count := by omega
    rcases hcases with ⟨hconn, heq⟩ | ⟨-, hbit, heq⟩ | ⟨-, -, err, hwrite, heq⟩ |
      ⟨hconn, -, hwrite, heq⟩ <;> rw [heq]
    · exact iff_of_false (fun hr => hleak (hr (by simp)).1) fun hc => (hc hfree).1 hconn
    · exact absurd (hpending.mp hbit) (by omega)
    · refine iff_of_false (fun hr => hleak (hr (by simp)).1) fun hc => ?_
      rw [hwrite] at hc
      exact absurd (hc hfree).2 (by simp)
    · exact iff_of_true (fun hr => absurd rfl hr) fun _ => ⟨hconn, hwrite⟩
  | sent err => exact Iff.rfl
  | conn conn => exact Iff.rfl

/-- The semaphore stays as it should be exactly through such sends. -/
theorem available_step {s s' : Channel} {e : Event} (h : s.Conserved) (ha : s.Available)
    (hs : s.step e = some s') : s'.Available ↔ s.Clean e := by
  obtain ⟨hlimit, hone, hpending⟩ := h
  unfold Available at ha
  cases e with
  | send data len write =>
    obtain rfl := Option.some.inj hs
    unfold Available Clean
    rcases s.client.send_cases data len write with ⟨hzero, heq⟩ | ⟨sending, htake, hcases⟩
    · rw [heq]
      refine iff_of_true ha fun hfree => ?_
      have := ha.mpr hfree
      omega
    obtain ⟨hcount, -⟩ := KSem.take_eq_some.mp htake
    -- as above: the send that takes the unit finds no write in flight
    have hfree : s.inFlight = 0 := by omega
    have hleak : ¬ (0 < sending.count ↔ s.inFlight = 0) := by omega
    rcases hcases with ⟨hconn, heq⟩ | ⟨-, hbit, heq⟩ | ⟨-, -, err, hwrite, heq⟩ |
      ⟨hconn, -, hwrite, heq⟩ <;> rw [heq]
    · exact iff_of_false hleak fun hc => (hc hfree).1 hconn
    · exact absurd (hpending.mp hbit) (by omega)
    · refine iff_of_false hleak fun hc => ?_
      rw [hwrite] at hc
      exact absurd (hc hfree).2 (by simp)
    · refine iff_of_true ?_ fun _ => ⟨hconn, hwrite⟩
      show 0 < sending.count ↔ s.inFlight + 1 = 0
      omega
  | sent err =>
    simp only [step] at hs
    split at hs
    · obtain rfl := Option.some.inj hs
      refine iff_of_true ?_ trivial
      show 0 < min (s.client.sending.count + 1) s.client.sending.limit ↔ s.inFlight - 1 = 0
      omega
    · cases hs
  | conn conn =>
    obtain rfl := Option.some.inj hs
    exact iff_of_true ha trivial

/-- **When failed sends are harmless.**  On every run: every failing send restores what it took,
    and the semaphore is available exactly when no write is in flight, if and only if every send
    made while no write is in flight finds a connection and has its write accepted. -/
theorem failed_send_iff (cb : SpheroClientCb) (es : List Event) :
    (Transition.Along step Restores (opened cb) es ↔ Transition.Along step Clean (opened cb) es) ∧
    (Transition.Always step Available (opened cb) es ↔
      Transition.Along step Clean (opened cb) es) := by
  have hopened : (opened cb).Available := iff_of_true Nat.one_pos rfl
  constructor
  · refine Transition.along_congr (I := fun s => s.Conserved ∧ s.Available)
      (fun h => restores_iff h.1 h.2) ?_ ⟨conserved_opened cb, hopened⟩ es
    exact fun h hclean hs => ⟨conserved_step h.1 hs, (available_step h.1 h.2 hs).mpr hclean⟩
  · refine Transition.always_iff_along available_step ?_ conserved_step (conserved_opened cb)
      hopened es
    intro s e he
    cases e with
    | send data len write => cases he
    | sent err => trivial
    | conn conn => trivial

/-- The first write is refused by the stack. -/
theorem failed_send_leaks :
    ¬ (∀ (cb : SpheroClientCb) (es : List Event),
      Transition.Along step Restores (opened cb) es ∧
        Transition.Always step Available (opened cb) es) := by
  intro h
  have hrestores := (h ⟨none, none⟩ [.conn (some 0), .send [0x8d] 1 (some (.other 5))]).1
  have hcount := (hrestores.2 _ rfl).1 (by decide)
  exact absurd hcount.1 (by decide)

end Channel

end NrfSpheros
