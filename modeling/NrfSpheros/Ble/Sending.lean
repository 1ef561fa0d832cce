/-
  `bt_sphero_client_send` and `on_sent` step by step, in any number of threads.

  1. `Exchange` — one client, the writes the stack has accepted and not yet reported sent, and where
     every thread stands in the two functions; `step` is one semaphore, bit, parameter or write step
     of one of them.  The stack may report a write before `bt_gatt_write` returns, and in a thread of
     its own.
  2. `Channel` is what the exchange does when no thread is interrupted (`run_of_channel_step`).
  3. **One permit** (`Holds`).  The semaphore's one unit is in the semaphore, with a thread, with the
     write in flight, or lost, and the write-pending bit is a function of who holds it.
  4. `one_write_in_flight` — so at most one write is in flight, its parameters stay as they are, and
     the test of the bit never finds it set.
-/
import NrfSpheros.Ble.SpheroClient
import Mathlib.Logic.Function.Basic

namespace NrfSpheros

/-! ## The threads -/

/-- The parameters `bt_sphero_client_send` stores, in the order it stores them; `func` is `on_sent`. -/
inductive ParamField
  | handle
  | offset
  | data
  | length
deriving DecidableEq, Repr

/-- How `bt_sphero_client_send` ends. -/
inductive SendExit
  | timeout
  | notConnected
  /-- The bit was set already. -/
  | already
  /-- With what `bt_gatt_write` returned. -/
  | written (err : Option Errno)
deriving DecidableEq, Repr

/-- Where a thread stands. -/
inductive Stage
  | idle
  /-- `bt_sphero_client_send`, before `k_sem_take`. -/
  | take (data : List UInt8) (len : UInt16)
  /-- Before the test of `conn`. -/
  | check (data : List UInt8) (len : UInt16)
  /-- Before `atomic_test_and_set_bit`. -/
  | test (data : List UInt8) (len : UInt16)
  /-- Before a parameter is stored. -/
  | store (field : ParamField) (data : List UInt8) (len : UInt16)
  /-- Before `bt_gatt_write`. -/
  | write
  /-- The stack has accepted the write; `bt_gatt_write` has not returned. -/
  | wrote
  /-- `bt_gatt_write` has failed; before `atomic_clear_bit`. -/
  | clear (err : Errno)
  | returned (exit : SendExit)
  /-- `on_sent`, before it copies the parameters. -/
  | copy (err : UInt8)
  /-- Before `atomic_clear_bit`. -/
  | clearPending (err : UInt8) (data : List UInt8) (length : UInt16)
  /-- Before `k_sem_give`. -/
  | give (err : UInt8) (data : List UInt8) (length : UInt16)
  /-- Before the callback. -/
  | callback (err : UInt8) (data : List UInt8) (length : UInt16)
deriving DecidableEq, Repr

/-- What the caller gets. -/
def SendExit.code : SendExit → Option Errno
  | .timeout => some .eagain
  | .notConnected => some .enotconn
  | .already => some .ealready
  | .written err => err

namespace SpheroClient

/-- The store of one parameter, and the thread's next stage. -/
def storeParam (c : SpheroClient) (data : List UInt8) (len : UInt16) :
    ParamField → Stage × SpheroClient
  | .handle =>
    (.store .offset data len,
      { c with writeParams := { c.writeParams with handle := c.handles.packets } })
  | .offset =>
    (.store .data data len, { c with writeParams := { c.writeParams with offset := 0 } })
  | .data =>
    (.store .length data len, { c with writeParams := { c.writeParams with data := data } })
  | .length => (.write, { c with writeParams := { c.writeParams with length := len } })

/-- The next step of a thread, unless it is the stack's turn.  A thread waits for the semaphore by
    taking no step; a step without a unit is the timeout. -/
def advance (c : SpheroClient) : Stage → Option (Stage × SpheroClient)
  | .take data len =>
    match c.sending.take with
    | none => some (.returned .timeout, c)
    | some sending => some (.check data len, { c with sending := sending })
  | .check data len =>
    match c.conn with
    | none => some (.returned .notConnected, c)
    | some _ => some (.test data len, c)
  | .test data len =>
    if c.writePending then some (.returned .already, c)
    else some (.store .handle data len, { c with writePending := true })
  | .store field data len => some (c.storeParam data len field)
  | .wrote => some (.returned (.written none), c)
  | .clear err => some (.returned (.written (some err)), { c with writePending := false })
  | .returned _ => some (.idle, c)
  | .copy err => some (.clearPending err c.writeParams.data c.writeParams.length, c)
  | .clearPending err data length => some (.give err data length, { c with writePending := false })
  | .give err data length =>
    some (.callback err data length, { c with sending := c.sending.give })
  | .callback _ _ _ => some (.idle, c)
  | .idle | .write => none

end SpheroClient

structure Exchange where
  client : SpheroClient
  inFlight : Nat
  threads : Nat → Stage

namespace Exchange

inductive Event
  /-- Thread `i` calls `bt_sphero_client_send`. -/
  | call (i : Nat) (data : List UInt8) (len : UInt16)
  /-- Thread `i` takes its next step. -/
  | next (i : Nat)
  /-- The stack answers the `bt_gatt_write` of thread `i`. -/
  | write (i : Nat) (result : Option Errno)
  /-- The stack calls `on_sent` in thread `i`. -/
  | sent (i : Nat) (err : UInt8)
  /-- `conn` changes outside the sends. -/
  | conn (conn : Option BtConn)
  /-- The handles do. -/
  | handles (handles : SpheroClientHandles)

/-- Thread `i` goes on to `stage`. -/
def goto (s : Exchange) (i : Nat) (stage : Stage) : Exchange :=
  { s with threads := Function.update s.threads i stage }

def step (s : Exchange) : Event → Option Exchange
  | .call i data len =>
    match s.threads i with
    | .idle => some (s.goto i (.take data len))
    | _ => none
  | .next i =>
    (s.client.advance (s.threads i)).map fun r => { s with client := r.2 }.goto i r.1
  | .write i result =>
    match s.threads i, result with
    | .write, none => some ({ s with inFlight := s.inFlight + 1 }.goto i .wrote)
    | .write, some err => some (s.goto i (.clear err))
    | _, _ => none
  | .sent i err =>
    match s.threads i with
    | .idle =>
      if 0 < s.inFlight then some ({ s with inFlight := s.inFlight - 1 }.goto i (.copy err))
      else none
    | _ => none
  | .conn conn => some { s with client := { s.client with conn := conn } }
  | .handles handles => some { s with client := { s.client with handles := handles } }

/-- A client no thread uses yet. -/
def opened (c : SpheroClient) : Exchange := ⟨c, 0, fun _ => .idle⟩

end Exchange

/-! ## Threads that are not interrupted -/

namespace Exchange

/-- A thread that has gone on to `stage` takes its next step. -/
@[simp] theorem step_next_goto (s : Exchange) (i : Nat) (stage : Stage) :
    (s.goto i stage).step (.next i) =
      (s.client.advance stage).map fun r => { s with client := r.2 }.goto i r.1 := by
  simp [step, goto]

@[simp] theorem step_write_goto (s : Exchange) (i : Nat) (result : Option Errno) :
    (s.goto i .write).step (.write i result) = some (match result with
      | none => { s with inFlight := s.inFlight + 1 }.goto i .wrote
      | some err => s.goto i (.clear err)) := by
  cases result <;> simp [step, goto]

/-- Threads that are back where they were. -/
theorem goto_idle {s : Exchange} {i : Nat} (hi : s.threads i = .idle) : s.goto i .idle = s := by
  unfold goto
  rw [← hi, Function.update_eq_self]

section alone

variable {s : Exchange} {i : Nat} (hi : s.threads i = .idle)

include hi

theorem step_call (data : List UInt8) (len : UInt16) :
    s.step (.call i data len) = some (s.goto i (.take data len)) := by
  simp only [step, hi]

/-- A call of `bt_sphero_client_send` with no other step in between. -/
theorem run_send (data : List UInt8) (len : UInt16) (write : Option Errno) :
    ∃ es exit, exit.code = (s.client.send data len write).1 ∧
      Transition.run step s es = some (Exchange.goto
        ⟨(s.client.send data len write).2,
          if (s.client.send data len write).1 = none then s.inFlight + 1 else s.inFlight,
          s.threads⟩ i (.returned exit)) := by
  rcases s.client.send_cases data len write with ⟨hzero, heq⟩ | ⟨sending, htake, hcases⟩
  · have hnone := KSem.take_eq_none.mpr hzero
    refine ⟨[.call i data len, .next i], .timeout, by rw [heq]; rfl, ?_⟩
    simp [heq, step_call hi, SpheroClient.advance, hnone]
  rcases hcases with ⟨hconn, heq⟩ | ⟨hconn, hbit, heq⟩ | ⟨hconn, hbit, err, rfl, heq⟩ |
    ⟨hconn, hbit, rfl, heq⟩
  · refine ⟨.call i data len :: List.replicate 2 (.next i), .notConnected, by rw [heq]; rfl, ?_⟩
    simp [heq, step_call hi, SpheroClient.advance, htake, hconn]
  · obtain ⟨conn, hconn⟩ := Option.ne_none_iff_exists'.mp hconn
    refine ⟨.call i data len :: List.replicate 3 (.next i), .already, by rw [heq]; rfl, ?_⟩
    simp [heq, step_call hi, SpheroClient.advance, htake, hconn, hbit]
  · obtain ⟨conn, hconn⟩ := Option.ne_none_iff_exists'.mp hconn
    refine ⟨.call i data len :: (List.replicate 7 (.next i) ++ [.write i (some err), .next i]),
      .written (some err), by rw [heq]; rfl, ?_⟩
    simp [heq, step_call hi, SpheroClient.advance, SpheroClient.storeParam, htake, hconn, hbit]
  · obtain ⟨conn, hconn⟩ := Option.ne_none_iff_exists'.mp hconn
    refine ⟨.call i data len :: (List.replicate 7 (.next i) ++ [.write i none, .next i]),
      .written none, by rw [heq]; rfl, ?_⟩
    simp [heq, step_call hi, SpheroClient.advance, SpheroClient.storeParam, htake, hconn, hbit]

/-- A call of `on_sent`. -/
theorem run_onSent (err : UInt8) (hflight : 0 < s.inFlight) :
    Transition.run step s (.sent i err :: List.replicate 4 (.next i)) =
      some ⟨(s.client.onSent err).2, s.inFlight - 1, s.threads⟩ := by
  have hsent : s.step (.sent i err) =
      some ({ s with inFlight := s.inFlight - 1 }.goto i (.copy err)) := by
    simp only [step, hi, if_pos hflight]
  simp only [List.replicate, Transition.run_cons, Transition.run_nil, hsent, step_next_goto,
    SpheroClient.advance, Option.map_some, Option.bind_some]
  exact congrArg some (goto_idle hi)

end alone

/-- A channel whose threads are all idle. -/
def ofChannel (s : Channel) : Exchange := ⟨s.client, s.inFlight, fun _ => .idle⟩

theorem run_of_channel_step {s s' : Channel} {e : Channel.Event} (hs : s.step e = some s') :
    ∃ es, Transition.run step (ofChannel s) es = some (ofChannel s') := by
  cases e with
  | send data len write =>
    obtain rfl := Option.some.inj hs
    obtain ⟨es, exit, -, hrun⟩ :=
      run_send (s := ofChannel s) (i := 0) rfl data len write
    refine ⟨es ++ [.next 0], ?_⟩
    rw [Transition.run_append, hrun, Option.bind_some, Transition.run_cons, step_next_goto]
    exact congrArg some (goto_idle rfl)
  | sent err =>
    simp only [Channel.step] at hs
    split at hs
    · rename_i hflight
      obtain rfl := Option.some.inj hs
      exact ⟨_, run_onSent (s := ofChannel s) (i := 0) rfl err hflight⟩
    · exact absurd hs (by simp)
  | conn conn =>
    obtain rfl := Option.some.inj hs
    exact ⟨[.conn conn], rfl⟩

/-- **The channel is the exchange without interruptions.** -/
theorem run_of_channel_run {s t : Channel} {es : List Channel.Event}
    (hrun : Transition.run Channel.step s es = some t) :
    ∃ fs, Transition.run step (ofChannel s) fs = some (ofChannel t) := by
  induction es generalizing s with
  | nil =>
    obtain rfl := Option.some.inj hrun
    exact ⟨[], rfl⟩
  | cons e es ih =>
    obtain ⟨m, hm, hrest⟩ := Transition.run_cons_eq_some hrun
    obtain ⟨fs, hfs⟩ := run_of_channel_step hm
    obtain ⟨gs, hgs⟩ := ih hrest
    refine ⟨fs ++ gs, ?_⟩
    rw [Transition.run_append, hfs]
    exact hgs

end Exchange

/-! ## One permit -/

/-- Where the semaphore's one unit is. -/
inductive Holder
  | free
  | thread (i : Nat)
  /-- With the write in flight. -/
  | link
  /-- A send has returned without giving it back. -/
  | lost
deriving DecidableEq, Repr

/-- A thread at this stage has taken the unit and can still give it, or lose it. -/
def Stage.holds : Stage → Bool
  | .check _ _ | .test _ _ | .store _ _ _ | .write | .clear _ => true
  | .copy _ | .clearPending _ _ _ | .give _ _ _ => true
  | _ => false

/-- While a thread at this stage has the unit, the write-pending bit is set. -/
def Stage.pending : Stage → Bool
  | .store _ _ _ | .write | .clear _ | .copy _ | .clearPending _ _ _ => true
  | _ => false

namespace Holder

def units : Holder → Nat
  | .free => 1
  | _ => 0

def writes : Holder → Nat
  | .link => 1
  | _ => 0

/-- The write-pending bit. -/
def bit (threads : Nat → Stage) : Holder → Bool
  | .thread i => (threads i).pending
  | .link => true
  | .free | .lost => false

end Holder

namespace Exchange

/-- `h` has the unit. -/
structure Holds (s : Exchange) (h : Holder) : Prop where
  limit : s.client.sending.limit = 1
  count : s.client.sending.count = h.units
  inFlight : s.inFlight = h.writes
  thread : ∀ i, (s.threads i).holds = true ↔ h = .thread i
  pending : s.client.writePending = h.bit s.threads
  ended : ∀ i, s.threads i ≠ .returned .already

section step

variable {s : Exchange} {h : Holder} (hs : s.Holds h) {i : Nat} {stage : Stage}

include hs

/-- Thread `i` goes on, and the unit is with `h'`. -/
theorem Holds.goto {c : SpheroClient} {n : Nat} {h' : Holder}
    (hlimit : c.sending.limit = 1) (hcount : c.sending.count = h'.units) (hflight : n = h'.writes)
    (hother : ∀ j, j ≠ i → (h' = .thread j ↔ h = .thread j))
    (hself : stage.holds = true ↔ h' = .thread i)
    (hpending : c.writePending = h'.bit (Function.update s.threads i stage))
    (hended : stage ≠ .returned .already) :
    Holds (Exchange.goto ⟨c, n, s.threads⟩ i stage) h' where
  limit := hlimit
  count := hcount
  inFlight := hflight
  thread := fun j => by
    show (Function.update s.threads i stage j).holds = true ↔ h' = .thread j
    by_cases hj : j = i
    · rw [hj, Function.update_self]
      exact hself
    · rw [Function.update_of_ne hj, hother j hj]
      exact hs.thread j
  pending := hpending
  ended := fun j => by
    show Function.update s.threads i stage j ≠ .returned .already
    by_cases hj : j = i
    · rw [hj, Function.update_self]
      exact hended
    · rw [Function.update_of_ne hj]
      exact hs.ended j

variable {a : Stage} (hi : s.threads i = a)

include hi

/-- A step that neither takes nor gives the unit, nor touches the bit. -/
theorem Holds.stay {c : SpheroClient} (hsending : c.sending = s.client.sending)
    (hbit : c.writePending = s.client.writePending) (hholds : stage.holds = a.holds)
    (hstage : stage.pending = a.pending) (hended : stage ≠ .returned .already) :
    Holds (Exchange.goto ⟨c, s.inFlight, s.threads⟩ i stage) h := by
  apply hs.goto
  · exact (congrArg KSem.limit hsending).trans hs.limit
  · exact (congrArg KSem.count hsending).trans hs.count
  · exact hs.inFlight
  · exact fun j _ => Iff.rfl
  · rw [hholds, ← hi]
    exact hs.thread i
  · rw [hbit, hs.pending]
    cases h with
    | thread j =>
      show (s.threads j).pending = (Function.update s.threads i stage j).pending
      by_cases hj : j = i
      · rw [hj, Function.update_self, hstage, hi]
      · rw [Function.update_of_ne hj]
    | _ => rfl
  · exact hended

variable (ha : a.holds = true)

include ha

theorem Holds.holder : h = .thread i := (hs.thread i).mp (hi ▸ ha)

theorem Holds.count_eq_zero : s.client.sending.count = 0 := by
  obtain rfl := hs.holder hi ha
  exact hs.count

theorem Holds.inFlight_eq_zero : s.inFlight = 0 := by
  obtain rfl := hs.holder hi ha
  exact hs.inFlight

/-- The bit is what the stage of the thread that has the unit says. -/
theorem Holds.pending_eq : s.client.writePending = a.pending := by
  obtain rfl := hs.holder hi ha
  exact hs.pending.trans (congrArg Stage.pending hi)

/-- A thread that has the unit keeps it, and the bit becomes what its new stage says. -/
theorem Holds.keep {c : SpheroClient} (hsending : c.sending = s.client.sending)
    (hbit : c.writePending = stage.pending) (hholds : stage.holds = true) :
    Holds (Exchange.goto ⟨c, s.inFlight, s.threads⟩ i stage) h := by
  obtain rfl := hs.holder hi ha
  apply hs.goto
  · exact (congrArg KSem.limit hsending).trans hs.limit
  · exact (congrArg KSem.count hsending).trans hs.count
  · exact hs.inFlight
  · exact fun j _ => Iff.rfl
  · exact iff_of_true hholds rfl
  · show c.writePending = (Function.update s.threads i stage i).pending
    rw [Function.update_self, hbit]
  · rintro rfl
    exact absurd hholds Bool.false_ne_true

/-- A thread that has the unit passes it on, or loses it. -/
theorem Holds.pass {c : SpheroClient} {n : Nat} {h' : Holder} (hnot : ∀ j, h' ≠ .thread j)
    (hlimit : c.sending.limit = 1) (hcount : c.sending.count = h'.units) (hflight : n = h'.writes)
    (hpending : c.writePending = h'.bit s.threads) (hholds : stage.holds = false)
    (hended : stage ≠ .returned .already) :
    Holds (Exchange.goto ⟨c, n, s.threads⟩ i stage) h' := by
  obtain rfl := hs.holder hi ha
  apply hs.goto
  · exact hlimit
  · exact hcount
  · exact hflight
  · exact fun j hj => iff_of_false (hnot j) fun h => hj (Holder.thread.inj h).symm
  · exact iff_of_false (by rw [hholds]; exact Bool.false_ne_true) (hnot i)
  · rw [hpending]
    cases h' with
    | thread j => exact absurd rfl (hnot j)
    | _ => rfl
  · exact hended

end step

/-- `k_sem_take`: only a free unit can be taken. -/
theorem Holds.take {s : Exchange} {h : Holder} (hs : s.Holds h) {i : Nat} {data : List UInt8}
    {len : UInt16} (hi : s.threads i = .take data len) {r : Stage × SpheroClient}
    (hr : s.client.advance (.take data len) = some r) :
    ∃ h', Holds (Exchange.goto ⟨r.2, s.inFlight, s.threads⟩ i r.1) h' := by
  simp only [SpheroClient.advance] at hr
  cases htake : s.client.sending.take with
  | none =>
    rw [htake] at hr
    obtain rfl := Option.some.inj hr
    exact ⟨h, hs.stay hi rfl rfl rfl rfl (by simp)⟩
  | some sending =>
    rw [htake] at hr
    obtain rfl := Option.some.inj hr
    obtain ⟨hcount, hlimit⟩ := KSem.take_eq_some.mp htake
    have hunits := hs.count
    -- a unit was there to take, so nobody else has it
    have hfree : h = .free := by
      cases h with
      | free => rfl
      | _ =>
        have hzero : s.client.sending.count = 0 := hunits
        omega
    subst hfree
    have hone : s.client.sending.count = 1 := hunits
    refine ⟨.thread i, hs.goto ?_ ?_ ?_ ?_ ?_ ?_ ?_⟩
    · exact hlimit.trans hs.limit
    · show sending.count = 0
      omega
    · exact hs.inFlight
    · exact fun j hj => iff_of_false (fun h => hj (Holder.thread.inj h).symm) (by simp)
    · exact iff_of_true rfl rfl
    · show s.client.writePending = (Function.update s.threads i (.check data len) i).pending
      rw [Function.update_self, hs.pending]
      rfl
    · simp

/-- The stack calls `on_sent`: the unit was with the write in flight. -/
theorem Holds.sent {s : Exchange} {h : Holder} (hs : s.Holds h) (i : Nat) (err : UInt8)
    (hflight : 0 < s.inFlight) :
    Holds (Exchange.goto ⟨s.client, s.inFlight - 1, s.threads⟩ i (.copy err)) (.thread i) := by
  have hwrites := hs.inFlight
  have hlink : h = .link := by
    cases h with
    | link => rfl
    | _ =>
      have hzero : s.inFlight = 0 := hwrites
      omega
  subst hlink
  have hone : s.inFlight = 1 := hwrites
  apply hs.goto
  · exact hs.limit
  · exact hs.count
  · show s.inFlight - 1 = 0
    omega
  · exact fun j hj => iff_of_false (fun h => hj (Holder.thread.inj h).symm) (by simp)
  · exact iff_of_true rfl rfl
  · show s.client.writePending = (Function.update s.threads i (.copy err) i).pending
    rw [Function.update_self, hs.pending]
    rfl
  · simp

/-- The step of a thread. -/
theorem Holds.next {s : Exchange} {h : Holder} (hs : s.Holds h) {i : Nat}
    {r : Stage × SpheroClient} (hr : s.client.advance (s.threads i) = some r) :
    ∃ h', Holds (Exchange.goto ⟨r.2, s.inFlight, s.threads⟩ i r.1) h' := by
  cases hi : s.threads i with
  | take data len => exact hs.take hi (hi ▸ hr)
  | check data len =>
    have hbit : s.client.writePending = false := hs.pending_eq hi rfl
    rw [hi] at hr
    simp only [SpheroClient.advance] at hr
    cases hconn : s.client.conn with
    | none =>
      rw [hconn] at hr
      obtain rfl := Option.some.inj hr
      refine ⟨.lost, hs.pass hi rfl (by simp) hs.limit ?_ ?_ hbit rfl (by simp)⟩
      · exact hs.count_eq_zero hi rfl
      · exact hs.inFlight_eq_zero hi rfl
    | some conn =>
      rw [hconn] at hr
      obtain rfl := Option.some.inj hr
      exact ⟨h, hs.keep hi rfl rfl hbit rfl⟩
  | test data len =>
    -- the unit is with this thread, which has not set the bit
    have hbit : s.client.writePending = false := hs.pending_eq hi rfl
    rw [hi] at hr
    simp only [SpheroClient.advance, hbit, Bool.false_eq_true, if_false, Option.some.injEq] at hr
    subst hr
    exact ⟨h, hs.keep hi rfl rfl rfl rfl⟩
  | store field data len =>
    rw [hi] at hr
    obtain rfl := Option.some.inj hr
    have hbit : s.client.writePending = true := hs.pending_eq hi rfl
    cases field <;> exact ⟨h, hs.keep hi rfl rfl hbit rfl⟩
  | clear err =>
    rw [hi] at hr
    obtain rfl := Option.some.inj hr
    refine ⟨.lost, hs.pass hi rfl (by simp) hs.limit ?_ ?_ rfl rfl (by simp)⟩
    · exact hs.count_eq_zero hi rfl
    · exact hs.inFlight_eq_zero hi rfl
  | copy err =>
    have hbit : s.client.writePending = true := hs.pending_eq hi rfl
    rw [hi] at hr
    obtain rfl := Option.some.inj hr
    exact ⟨h, hs.keep hi rfl rfl hbit rfl⟩
  | clearPending err data length =>
    rw [hi] at hr
    obtain rfl := Option.some.inj hr
    exact ⟨h, hs.keep hi rfl rfl rfl rfl⟩
  | give err data length =>
    rw [hi] at hr
    obtain rfl := Option.some.inj hr
    refine ⟨.free, hs.pass hi rfl (by simp) hs.limit ?_ ?_ ?_ rfl (by simp)⟩
    · show min (s.client.sending.count + 1) s.client.sending.limit = 1
      rw [hs.count_eq_zero hi rfl, hs.limit]
      rfl
    · exact hs.inFlight_eq_zero hi rfl
    · exact hs.pending_eq hi rfl
  | wrote | returned _ | callback _ _ _ =>
    rw [hi] at hr
    obtain rfl := Option.some.inj hr
    exact ⟨h, hs.stay hi rfl rfl rfl rfl (by simp)⟩
  | idle | write => exact absurd hr (by simp [hi, SpheroClient.advance])

/-- **One step.** -/
theorem holds_step {s s' : Exchange} {h : Holder} {e : Event} (hs : s.Holds h)
    (he : s.step e = some s') : ∃ h', s'.Holds h' := by
  cases e with
  | call i data len =>
    cases hi : s.threads i with
    | idle =>
      simp only [step, hi, Option.some.injEq] at he
      exact ⟨h, he ▸ hs.stay hi rfl rfl rfl rfl (by simp)⟩
    | _ => exact absurd he (by simp [step, hi])
  | next i =>
    obtain ⟨r, hr, rfl⟩ := Option.map_eq_some_iff.mp he
    exact hs.next hr
  | write i result =>
    cases hi : s.threads i with
    | write =>
      cases result with
      | none =>
        simp only [step, hi, Option.some.injEq] at he
        -- the write is accepted: the unit waits with it for `on_sent`
        refine ⟨.link, he ▸ hs.pass hi rfl (by simp) hs.limit ?_ ?_ ?_ rfl (by simp)⟩
        · exact hs.count_eq_zero hi rfl
        · show s.inFlight + 1 = 1
          rw [hs.inFlight_eq_zero hi rfl]
        · exact hs.pending_eq hi rfl
      | some err =>
        simp only [step, hi, Option.some.injEq] at he
        exact ⟨h, he ▸ hs.stay hi rfl rfl rfl rfl (by simp)⟩
    | _ => exact absurd he (by simp [step, hi])
  | sent i err =>
    cases hi : s.threads i with
    | idle =>
      simp only [step, hi] at he
      by_cases hflight : 0 < s.inFlight
      · rw [if_pos hflight, Option.some.injEq] at he
        exact ⟨.thread i, he ▸ hs.sent i err hflight⟩
      · exact absurd he (by simp [if_neg hflight])
    | _ => exact absurd he (by simp [step, hi])
  | conn conn =>
    obtain rfl := Option.some.inj he
    exact ⟨h, ⟨hs.limit, hs.count, hs.inFlight, hs.thread, hs.pending, hs.ended⟩⟩
  | handles handles =>
    obtain rfl := Option.some.inj he
    exact ⟨h, ⟨hs.limit, hs.count, hs.inFlight, hs.thread, hs.pending, hs.ended⟩⟩

/-! ## At most one write -/

/-- `bt_sphero_client_init` has returned 0, on a block whose write-pending bit was clear. -/
def Initialised (c : SpheroClient) : Prop :=
  ∃ block cb, block.writePending = false ∧ SpheroClient.init block cb = (none, c)

theorem holds_opened {c : SpheroClient} (hc : Initialised c) : (opened c).Holds .free := by
  obtain ⟨block, cb, hbit, hinit⟩ := hc
  unfold SpheroClient.init at hinit
  split at hinit
  · exact absurd hinit (by simp)
  · obtain rfl := (Prod.mk.inj hinit).2
    exact {
      limit := rfl
      count := rfl
      inFlight := rfl
      thread := fun i => iff_of_false Bool.false_ne_true (by simp)
      pending := hbit
      ended := fun i => by simp [opened] }

theorem holds_run {c : SpheroClient} (hc : Initialised c) {es : List Event} {s : Exchange}
    (hrun : Transition.run step (opened c) es = some s) : ∃ h, s.Holds h :=
  Transition.invariant (I := fun s => ∃ h, s.Holds h) (fun ⟨_, hs⟩ he => holds_step hs he)
    ⟨.free, holds_opened hc⟩ hrun

/-- A write is in flight, or about to be; or `on_sent` has still to copy its parameters. -/
def InUse (s : Exchange) : Prop :=
  0 < s.inFlight ∨ ∃ i, s.threads i = .write ∨ ∃ err, s.threads i = .copy err

/-- No thread is then about to store a parameter: it would have the unit too. -/
theorem Holds.not_store {s : Exchange} {h : Holder} (hs : s.Holds h) (huse : s.InUse) (i : Nat)
    (field : ParamField) (data : List UInt8) (len : UInt16) :
    s.threads i ≠ .store field data len := by
  intro hi
  rcases huse with hflight | ⟨j, hj⟩
  · have hzero := hs.inFlight_eq_zero hi rfl
    omega
  · have hholds : (s.threads j).holds = true := by
      rcases hj with hj | ⟨err, hj⟩
      · rw [hj]
        rfl
      · rw [hj]
        rfl
    have hsame : i = j :=
      Holder.thread.inj ((hs.holder hi rfl).symm.trans ((hs.thread j).mp hholds))
    subst hsame
    rw [hi] at hj
    simp at hj

/-- Only the store of a parameter changes the parameters. -/
theorem writeParams_advance {c : SpheroClient} {stage : Stage} {r : Stage × SpheroClient}
    (hr : c.advance stage = some r) (hstage : ∀ field data len, stage ≠ .store field data len) :
    r.2.writeParams = c.writeParams := by
  cases stage with
  | store field data len => exact absurd rfl (hstage field data len)
  | take data len =>
    simp only [SpheroClient.advance] at hr
    split at hr
    · obtain rfl := Option.some.inj hr
      rfl
    · obtain rfl := Option.some.inj hr
      rfl
  | check data len =>
    simp only [SpheroClient.advance] at hr
    split at hr
    · obtain rfl := Option.some.inj hr
      rfl
    · obtain rfl := Option.some.inj hr
      rfl
  | test data len =>
    simp only [SpheroClient.advance] at hr
    split at hr
    · obtain rfl := Option.some.inj hr
      rfl
    · obtain rfl := Option.some.inj hr
      rfl
  | idle | write => exact absurd hr (by simp [SpheroClient.advance])
  | _ =>
    obtain rfl := Option.some.inj hr
    rfl

theorem writeParams_step {s s' : Exchange}
    (hstore : ∀ i field data len, s.threads i ≠ .store field data len) {e : Event}
    (he : s.step e = some s') : s'.client.writeParams = s.client.writeParams := by
  cases e with
  | call i data len =>
    cases hi : s.threads i with
    | idle =>
      simp only [step, hi, Option.some.injEq] at he
      subst he
      rfl
    | _ => exact absurd he (by simp [step, hi])
  | next i =>
    obtain ⟨r, hr, rfl⟩ := Option.map_eq_some_iff.mp he
    exact writeParams_advance hr (hstore i)
  | write i result =>
    cases hi : s.threads i with
    | write =>
      cases result <;>
      · simp only [step, hi, Option.some.injEq] at he
        subst he
        rfl
    | _ => exact absurd he (by simp [step, hi])
  | sent i err =>
    cases hi : s.threads i with
    | idle =>
      simp only [step, hi] at he
      by_cases hflight : 0 < s.inFlight
      · rw [if_pos hflight, Option.some.injEq] at he
        subst he
        rfl
      · exact absurd he (by simp [if_neg hflight])
    | _ => exact absurd he (by simp [step, hi])
  | conn conn =>
    obtain rfl := Option.some.inj he
    rfl
  | handles handles =>
    obtain rfl := Option.some.inj he
    rfl

/-- **At most one write in flight**, in every state that any number of threads can reach; no step
    changes its parameters, and no send finds the bit set. -/
theorem one_write_in_flight {c : SpheroClient} (hc : Initialised c) {es : List Event}
    {s : Exchange} (hrun : Transition.run step (opened c) es = some s) :
    s.inFlight ≤ 1 ∧
    (s.InUse → ∀ e s', s.step e = some s' → s'.client.writeParams = s.client.writeParams) ∧
    ∀ i, s.threads i ≠ .returned .already := by
  obtain ⟨h, hs⟩ := holds_run hc hrun
  refine ⟨?_, fun huse e s' he => writeParams_step (hs.not_store huse) he, hs.ended⟩
  rw [hs.inFlight]
  cases h with
  | link => exact Nat.le_refl 1
  | _ => exact Nat.zero_le 1

/-- A first thread's write is in flight, and a second one waits for the semaphore. -/
def waiting : List Event :=
  [.conn (some 0), .call 0 [0x8d] 1] ++ List.replicate 7 (.next 0) ++
    [.write 0 none, .call 1 [0xd8] 1]

theorem one_write_in_flight_waiting :
    ∃ s, Transition.run step (opened (SpheroClient.zeroed.init ⟨none, none⟩).2) waiting = some s ∧
      s.inFlight ≤ 1 ∧
      (s.InUse → ∀ e s', s.step e = some s' → s'.client.writeParams = s.client.writeParams) ∧
      ∀ i, s.threads i ≠ .returned .already := by
  have hc : Initialised (SpheroClient.zeroed.init ⟨none, none⟩).2 :=
    ⟨SpheroClient.zeroed, ⟨none, none⟩, rfl, rfl⟩
  have hrun : Transition.run step (opened (SpheroClient.zeroed.init ⟨none, none⟩).2) waiting =
      some _ := rfl
  exact ⟨_, hrun, one_write_in_flight hc hrun⟩

end Exchange

end NrfSpheros
