/-
  What the robots answer, from the notifications to the Sphero objects.

  1. **The objects** with the scanner.  Each is made for a slot and subscribes to the connection of the
     slot's client; `on_received` finds the client by the subscription's parameters, and in it the
     wrapper with its context, the object.
  2. **A listener.**  One object alone: it hears one connection until that is lost, and its methods are
     called.
  3. **Each object is a listener** (`hears_run`) — whatever the scanner, the other robots and the other
     objects do.
  4. **A robot's own packets** (`hears_own_robot`) — the packets that an object handles are those of the
     notifications of its robot, in order.
-/
import NrfSpheros.Sphero.Chunks
import NrfSpheros.Sphero.Responses
import NrfSpheros.Controls.Chunking
import NrfSpheros.Controls.Stream
import NrfSpheros.Theory.Run

namespace NrfSpheros

open Scanner (Event)
open Pieces

/-! ## The objects -/

/-- A method that receives nothing, or a step of one that other threads can see. -/
inductive Method
  | newPacket (did cid tid : UInt8) (data : List UInt8)
  | setupResponse (packet : Packet)
  | waitForResponse (response : SignalPtr)
  /-- The methods that number frames and animations. -/
  | count (frameIndex : UInt16) (animationIndex : UInt8)

/-- The object after it. -/
def Method.call (s : Sphero) : Method → Sphero
  | .newPacket did cid tid data =>
    { s with packetManager := (s.packetManager.newPacket did cid tid data).2 }
  | .setupResponse packet => (s.setupResponse packet).1
  | .waitForResponse response => (s.waitForResponse response).1
  | .count frameIndex animationIndex => { s with frameIndex, animationIndex }

/-- `received_cb_wrapper` on a notification; `none` is undefined behaviour.  Nobody catches what
    `parse_response` throws: it is assumed here that the program goes on, with the object as the collector
    left it.  If it ends there instead, its run is the beginning of one here. -/
def Sphero.hear (s : Sphero) (chunk : Chunk) : Option Sphero :=
  let r := s.receivedCb chunk
  if r.2.any Exit.fatal then none else some r.1

/-- The scanner with the objects made for its slots. -/
structure Hearing where
  scanner : Scanner
  /-- The stack's subscriptions, each with the context its parameters lie in. -/
  subscriptions : List (BtConn × Slot)
  /-- The object made for a slot; its address is the slot's number. -/
  objects : Slot → Option Sphero

namespace Hearing

/-- A callback, a notification, or a call of a method. -/
inductive Act
  | event (e : Event)
  /-- A command of the object of `slot`. -/
  | command (slot : Slot) (packet : Packet) (turns : Nat → Turn)
  /-- The constructor, up to its subscription; `gatt` is what `bt_gatt_subscribe` returns. -/
  | construct (slot : Slot) (gatt : Option Errno)
  | method (slot : Slot) (method : Method)
  /-- The robot of a connection sends a notification. -/
  | notify (conn : BtConn) (chunk : Chunk)

/-- There is no object yet. -/
def new : Hearing := ⟨Scanner.new, [], fun _ => none⟩

/-- The object at an address. -/
def objectAt (s : Hearing) (context : Callback) : Option (Slot × Sphero) :=
  if h : context < maxConn then (s.objects ⟨context, h⟩).map fun o => (⟨context, h⟩, o) else none

/-- `Sphero::received_cb_wrapper`; `none` is undefined behaviour. -/
def receivedCbWrapper (s : Hearing) (context : Callback) (chunk : Chunk) : Option Hearing :=
  (s.objectAt context).bind fun (slot, o) => (o.hear chunk).map fun o =>
    { s with objects := Function.update s.objects slot (some o) }

/-- `on_received`, for the parameters in the context `slot`. -/
def onReceived (s : Hearing) (slot : Slot) (chunk : Chunk) : Option Hearing :=
  match (s.scanner.conns.data slot).cb.received with
  | none => some s
  | some context => s.receivedCbWrapper context chunk

/-- The stack hands a notification to every subscription of its connection. -/
def notify (s : Hearing) (conn : BtConn) (chunk : Chunk) : Option Hearing :=
  (s.subscriptions.filter fun p => p.1 = conn).foldlM (fun s p => s.onReceived p.2 chunk) s

/-- `Sphero::subscribe` in the constructor. -/
def construct (s : Hearing) (slot : Slot) (gatt : Option Errno) : Option Hearing :=
  let objects := Function.update s.objects slot (some (Sphero.create (UInt8.ofNat slot.val)))
  match s.scanner.getSphero (UInt8.ofNat slot.val) with
  | .nullDereference => none
  -- "Sphero not found"
  | .returns none => some { s with objects }
  | .returns (some i) =>
    let client := s.scanner.conns.data i
    let r := client.subscribe slot.val gatt
    some {
      scanner := { s.scanner with conns := s.scanner.conns.modify i fun _ => r.2 }
      subscriptions := s.subscriptions ++
        if r.1 = none then client.conn.toList.map fun conn => (conn, i) else []
      objects }

/-- One step; `none` is one that cannot come, or undefined behaviour. -/
def step (s : Hearing) : Act → Option Hearing
  -- the subscriptions are volatile
  | .event (.disconnected conn) => (s.scanner.step (.disconnected conn)).map fun scanner =>
      { s with scanner, subscriptions := s.subscriptions.filter fun p => p.1 ≠ conn }
  | .event e => (s.scanner.step e).map fun scanner => { s with scanner }
  | .command slot packet turns =>
    match s.scanner.execute (UInt8.ofNat slot.val) packet false turns with
    | (.nullDereference, _) => none
    | (_, scanner) => some { s with scanner }
  -- `get_spheros` makes one object for a number
  | .construct slot gatt => if s.objects slot = none then s.construct slot gatt else none
  | .method slot method => (s.objects slot).map fun o =>
      { s with objects := Function.update s.objects slot (some (method.call o)) }
  | .notify conn chunk => s.notify conn chunk

end Hearing

/-! ## The listener -/

/-- An object that hears one connection. -/
structure Listener where
  object : Sphero
  /-- The connection is still there. -/
  linked : Bool

/-- One step, as the object of `slot` hears it, which listens to `conn`. -/
def Listener.step (slot : Slot) (conn : BtConn) (l : Listener) : Hearing.Act → Option Listener
  | .notify c chunk =>
    if l.linked = true ∧ c = conn then (l.object.hear chunk).map fun object => { l with object }
    else some l
  | .method i method => some (if i = slot then { l with object := method.call l.object } else l)
  | .event (.disconnected c) => some (if c = conn then { l with linked := false } else l)
  | _ => some l

/-! ## What the clients hear -/

namespace SpheroClient

/-- Whom notifications go to, and whether the client has subscribed. -/
def hears (c : SpheroClient) : Option Callback × Bool := (c.cb.received, c.notifEnabled)

theorem hears_handlesAssign (dm : GattDm) (c : SpheroClient) :
    (handlesAssign dm c).2.hears = c.hears := by
  rcases dm with ⟨conn, service, chrc, value, ccc⟩
  cases service with
  | false => rfl
  | true =>
    cases chrc with
    | false => rfl
    | true => cases value <;> cases ccc <;> rfl

/-- A subscription sets the callback. -/
theorem hears_subscribe {c : SpheroClient} (h : c.hears.2 = false) (received : Callback)
    (gatt : Option Errno) : (c.subscribe received gatt).1 = gatt ∧
      (c.subscribe received gatt).2.hears = (some received, gatt.isNone) ∧
      (c.subscribe received gatt).2.conn = c.conn := by
  have hoff : ¬ c.notifEnabled = true := by
    rw [show c.notifEnabled = false from h]
    exact Bool.false_ne_true
  unfold subscribe
  rw [if_neg hoff]
  cases gatt <;> exact ⟨rfl, rfl, rfl⟩

theorem hears_send (c : SpheroClient) (data : List UInt8) (len : UInt16) (write : Option Errno) :
    (c.send data len write).2.hears = c.hears := by
  rcases c.send_cases data len write with
    ⟨-, h⟩ | ⟨sending, -, ⟨-, h⟩ | ⟨-, -, h⟩ | ⟨-, -, err, -, h⟩ | ⟨-, -, -, h⟩⟩ <;> rw [h] <;> rfl

end SpheroClient

theorem hears_sendChunk (turns : Nat → Turn) (c : SpheroClient) (offset : Nat)
    (chunk : List UInt8) : (sendChunk turns c offset chunk).2.hears = c.hears := by
  have hclient : ((turns offset).client c).hears = c.hears := by
    unfold Turn.client
    cases (turns offset).sent <;> rfl
  exact (SpheroClient.hears_send _ _ _ _).trans hclient

namespace Scanner

/-- Commands change nobody's subscription, and no owner. -/
theorem hears_execute (s : Scanner) (slot : Slot) (packet : Packet) (turns : Nat → Turn) :
    (s.execute (UInt8.ofNat slot.val) packet false turns).2.conns.owner = s.conns.owner ∧
      ∀ i, ((s.execute (UInt8.ofNat slot.val) packet false turns).2.conns.data i).hears =
        (s.conns.data i).hears := by
  by_cases howner : s.conns.owner slot = none
  · rw [execute_of_free howner]
    exact ⟨rfl, fun _ => rfl⟩
  · rw [execute_eq_sendAll howner]
    refine ⟨rfl, fun i => ?_⟩
    by_cases hi : i = slot
    · subst hi
      rw [SlotTable.data_modify_self]
      exact (sendAll_invariant (I := fun c : SpheroClient => c.hears = (s.conns.data i).hears)
        (J := fun _ => True)
        (fun c offset chunk hc => ⟨trivial, (hears_sendChunk turns c offset chunk).trans hc⟩)
        (pieces chunkSize packet.build) rfl 0).2
    · rw [SlotTable.data_modify_of_ne _ hi]

/-- **What a callback does to subscriptions**: none but `connected`, which clears the context it
    gives away, and that was nobody's. -/
theorem hears_step {s s' : Scanner} {e : Event} (h : s.step e = some s') (i : Slot) :
    (s'.conns.data i).hears = (s.conns.data i).hears ∨
      (s.conns.owner i = none ∧ (s'.conns.data i).hears = (none, false)) := by
  cases e with
  | connected conn slot dm scan =>
    obtain ⟨conns, halloc, rfl⟩ := Option.map_eq_some_iff.mp h
    obtain ⟨hfree, -, -, hdata⟩ := SlotTable.alloc?_eq_some halloc
    simp only [conns_btScanStop, conns_gattDiscover]
    -- the context is cleared when it is given away; no other is touched
    by_cases hi : i = slot
    · subst hi
      rw [SlotTable.data_modify_self, SlotTable.data_modify_self]
      exact Or.inr ⟨hfree, rfl⟩
    · rw [SlotTable.data_modify_of_ne _ hi, SlotTable.data_modify_of_ne _ hi, hdata]
      exact Or.inl rfl
  | discoveryComplete dm context now scan =>
    obtain ⟨t, hend, rfl⟩ := Option.map_eq_some_iff.mp h
    rw [conns_discoveryComplete, conns_endDiscovery hend]
    by_cases hi : i = context
    · subst hi
      rw [SlotTable.data_modify_self]
      exact Or.inl (SpheroClient.hears_handlesAssign dm _)
    · rw [SlotTable.data_modify_of_ne _ hi]
      exact Or.inl rfl
  | disconnected conn =>
    rw [← Option.some.inj h]
    exact Or.inl rfl
  | _ =>
    rw [conns_step h rfl]
    exact Or.inl rfl

/-- A slot keeps its owner until that is disconnected. -/
theorem owner_step {s s' : Scanner} {e : Event} (h : s.step e = some s') {i : Slot} {conn : BtConn}
    (hi : s.conns.owner i = some conn) (he : e ≠ .disconnected conn) :
    s'.conns.owner i = some conn := by
  cases e with
  | connected c slot dm scan =>
    obtain ⟨conns, halloc, rfl⟩ := Option.map_eq_some_iff.mp h
    obtain ⟨hfree, -, howner, -⟩ := SlotTable.alloc?_eq_some halloc
    have hne : i ≠ slot := by
      rintro rfl
      rw [hfree] at hi
      cases hi
    simp only [conns_btScanStop, conns_gattDiscover, SlotTable.owner_modify, howner]
    rw [Function.update_of_ne hne]
    exact hi
  | discoveryComplete dm context now scan =>
    obtain ⟨t, hend, rfl⟩ := Option.map_eq_some_iff.mp h
    rw [conns_discoveryComplete, conns_endDiscovery hend]
    exact hi
  | disconnected c =>
    rw [← Option.some.inj h]
    show (if s.conns.owner i = some c then none else s.conns.owner i) = some conn
    have hne : ¬ s.conns.owner i = some c := by
      rw [hi, Option.some.injEq]
      exact fun heq => he (heq ▸ rfl)
    rw [if_neg hne]
    exact hi
  | _ =>
    rw [conns_step h rfl]
    exact hi

end Scanner

/-! ## Each object is a listener -/

namespace Hearing

/-- A client's context is the object of its slot, and before there is one nobody has subscribed. -/
structure Wired (s : Hearing) : Prop where
  own : ∀ i context, (s.scanner.conns.data i).hears.1 = some context → context = i.val
  fresh : ∀ i, s.objects i = none →
    (s.scanner.conns.data i).hears.2 = false ∧ ∀ p ∈ s.subscriptions, p.2 ≠ i

theorem wired_new : new.Wired where
  own := fun _ _ h => by cases h
  fresh := fun _ _ => ⟨rfl, fun _ hp => by cases hp⟩

/-- The object of `slot` is where the listener of `conn` is. -/
structure Linked (slot : Slot) (conn : BtConn) (s : Hearing) (l : Listener) : Prop where
  object : s.objects slot = some l.object
  subscribed : (s.subscriptions.filter fun p => p.2 = slot) =
    if l.linked = true then [(conn, slot)] else []
  linked : l.linked = true → s.scanner.conns.owner slot = some conn ∧
    (s.scanner.conns.data slot).hears.1 = some slot.val

section wired

variable {s s' : Hearing}

/-- The scanner goes on, and nobody's subscription changes. -/
theorem Wired.of_scanner (h : s.Wired) {scanner : Scanner}
    (hhears : ∀ i, (scanner.conns.data i).hears = (s.scanner.conns.data i).hears ∨
      (scanner.conns.data i).hears = (none, false)) : Wired { s with scanner } where
  own := by
    intro i context hi
    rcases hhears i with heq | heq
    · exact h.own i context (heq ▸ hi)
    · rw [show (scanner.conns.data i).hears = (none, false) from heq] at hi
      cases hi
  fresh := by
    intro i hi
    refine ⟨?_, (h.fresh i hi).2⟩
    rcases hhears i with heq | heq
    · exact (congrArg Prod.snd heq).trans (h.fresh i hi).1
    · exact congrArg Prod.snd heq

/-- What `on_received` does for one subscription. -/
theorem onReceived_eq_some (h : s.Wired) {i : Slot} {chunk : Chunk}
    (hs : s.onReceived i chunk = some s') : ∃ objects, s' = { s with objects } ∧
      (∀ j, j ≠ i → objects j = s.objects j) ∧ (objects i = none → s.objects i = none) ∧
      ((s.scanner.conns.data i).hears.1 = some i.val →
        ∃ o o', s.objects i = some o ∧ o.hear chunk = some o' ∧ objects i = some o') := by
  unfold onReceived at hs
  cases hcb : (s.scanner.conns.data i).cb.received with
  | none =>
    rw [hcb] at hs
    obtain rfl := Option.some.inj hs
    refine ⟨s.objects, rfl, fun _ _ => rfl, id, fun hhears => ?_⟩
    rw [show (s.scanner.conns.data i).hears.1 = none from hcb] at hhears
    cases hhears
  | some context =>
    obtain rfl : context = i.val := h.own i context hcb
    rw [hcb] at hs
    simp only [receivedCbWrapper, objectAt, dif_pos i.isLt] at hs
    obtain ⟨⟨j, o⟩, hobject, hheard⟩ := Option.bind_eq_some_iff.mp hs
    obtain ⟨_, ho, hpair⟩ := Option.map_eq_some_iff.mp hobject
    obtain ⟨rfl, rfl⟩ := Prod.mk.inj hpair
    obtain ⟨o', ho', rfl⟩ := Option.map_eq_some_iff.mp hheard
    refine ⟨_, rfl, fun j hj => Function.update_of_ne hj _ _, fun hnone => ?_, fun _ =>
      ⟨_, o', ho, ho', Function.update_self _ _ _⟩⟩
    rw [Function.update_self] at hnone
    cases hnone

theorem wired_onReceived (h : s.Wired) {i : Slot} {chunk : Chunk}
    (hs : s.onReceived i chunk = some s') : s'.Wired := by
  obtain ⟨objects, rfl, hothers, hnone, -⟩ := onReceived_eq_some h hs
  refine ⟨h.own, fun j hj => h.fresh j ?_⟩
  by_cases hi : j = i
  · subst hi
    exact hnone hj
  · exact (hothers j hi).symm.trans hj

/-- What the constructor leads to. -/
def constructed (s : Hearing) (i : Slot) (gatt : Option Errno) : Hearing where
  scanner := { s.scanner with
    conns := s.scanner.conns.modify i fun client => (client.subscribe i.val gatt).2 }
  subscriptions := s.subscriptions ++
    if ((s.scanner.conns.data i).subscribe i.val gatt).1 = none then
      (s.scanner.conns.data i).conn.toList.map fun conn => (conn, i)
    else []
  objects := Function.update s.objects i (some (Sphero.create (UInt8.ofNat i.val)))

theorem data_constructed_self (s : Hearing) (i : Slot) (gatt : Option Errno) :
    (s.constructed i gatt).scanner.conns.data i =
      ((s.scanner.conns.data i).subscribe i.val gatt).2 :=
  SlotTable.data_modify_self s.scanner.conns i fun client => (client.subscribe i.val gatt).2

theorem data_constructed_of_ne {i j : Slot} (h : j ≠ i) (gatt : Option Errno) :
    (s.constructed i gatt).scanner.conns.data j = s.scanner.conns.data j :=
  SlotTable.data_modify_of_ne s.scanner.conns h fun client => (client.subscribe i.val gatt).2

theorem objects_constructed (s : Hearing) (i : Slot) (gatt : Option Errno) :
    (s.constructed i gatt).objects =
      Function.update s.objects i (some (Sphero.create (UInt8.ofNat i.val))) := rfl

/-- What a constructor does. -/
theorem construct_eq_some {i : Slot} {gatt : Option Errno}
    (hs : s.step (.construct i gatt) = some s') :
    s.objects i = none ∧ s.scanner.conns.owner i ≠ none ∧ s' = s.constructed i gatt := by
  simp only [step] at hs
  split at hs
  swap
  · cases hs
  refine ⟨‹_›, ?_⟩
  by_cases howner : s.scanner.conns.owner i = none
  · have hnull : s.scanner.getSphero (UInt8.ofNat i.val) = .nullDereference := by
      unfold Scanner.getSphero
      rw [Scanner.getById_ofNat, howner]
      rfl
    rw [construct, hnull] at hs
    cases hs
  · rw [construct, Scanner.getSphero_ofNat howner] at hs
    exact ⟨howner, (Option.some.inj hs).symm⟩

theorem wired_construct (h : s.Wired) {i : Slot} {gatt : Option Errno}
    (hs : s.step (.construct i gatt) = some s') : s'.Wired := by
  obtain ⟨hnone, -, rfl⟩ := construct_eq_some hs
  obtain ⟨-, hhears, -⟩ := SpheroClient.hears_subscribe (h.fresh i hnone).1 i.val gatt
  constructor
  · intro j context hj
    -- the new object subscribes with the address of its own context
    by_cases hi : j = i
    · subst hi
      rw [data_constructed_self, hhears, Option.some.injEq] at hj
      exact hj.symm
    · rw [data_constructed_of_ne hi] at hj
      exact h.own j context hj
  · intro j hj
    have hi : j ≠ i := by
      rintro rfl
      rw [objects_constructed, Function.update_self] at hj
      cases hj
    rw [objects_constructed, Function.update_of_ne hi] at hj
    refine ⟨?_, ?_⟩
    · rw [data_constructed_of_ne hi]
      exact (h.fresh j hj).1
    · intro p hp
      rcases List.mem_append.mp hp with hp | hp
      · exact (h.fresh j hj).2 p hp
      · split at hp
        · obtain ⟨c, -, rfl⟩ := List.mem_map.mp hp
          exact Ne.symm hi
        · cases hp

theorem wired_method (h : s.Wired) {i : Slot} {method : Method}
    (hs : s.step (.method i method) = some s') : s'.Wired := by
  simp only [step] at hs
  obtain ⟨o, -, rfl⟩ := Option.map_eq_some_iff.mp hs
  refine ⟨h.own, fun j hj => h.fresh j ?_⟩
  change Function.update s.objects i (some (method.call o)) j = none at hj
  by_cases hi : j = i
  · subst hi
    rw [Function.update_self] at hj
    cases hj
  · rw [Function.update_of_ne hi] at hj
    exact hj

/-- What a command does. -/
theorem command_eq_some {i : Slot} {packet : Packet} {turns : Nat → Turn}
    (hs : s.step (.command i packet turns) = some s') : s' = { s with
      scanner := (s.scanner.execute (UInt8.ofNat i.val) packet false turns).2 } := by
  simp only [step] at hs
  split at hs
  · cases hs
  · rename_i heq
    rw [heq]
    exact (Option.some.inj hs).symm

/-- **One step.** -/
theorem wired_step (h : s.Wired) {a : Act} (hs : s.step a = some s') : s'.Wired := by
  cases a with
  | event e =>
    cases e with
    | disconnected c =>
      simp only [step] at hs
      obtain ⟨scanner, hscanner, rfl⟩ := Option.map_eq_some_iff.mp hs
      have hscanner' := h.of_scanner fun i => (Scanner.hears_step hscanner i).imp_right And.right
      exact ⟨hscanner'.own, fun i hi => ⟨(hscanner'.fresh i hi).1, fun p hp =>
        (hscanner'.fresh i hi).2 p (List.mem_of_mem_filter hp)⟩⟩
    | _ =>
      simp only [step] at hs
      obtain ⟨scanner, hscanner, rfl⟩ := Option.map_eq_some_iff.mp hs
      exact h.of_scanner fun i => (Scanner.hears_step hscanner i).imp_right And.right
  | command i packet turns =>
    rw [command_eq_some hs]
    exact h.of_scanner fun j => Or.inl ((s.scanner.hears_execute i packet turns).2 j)
  | construct i gatt => exact wired_construct h hs
  | method i method => exact wired_method h hs
  | notify c chunk =>
    have hrun : Transition.run (fun (s : Hearing) (p : BtConn × Slot) => s.onReceived p.2 chunk) s
        (s.subscriptions.filter fun p => p.1 = c) = some s' := hs
    exact Transition.invariant (fun hs hstep => wired_onReceived hs hstep) h hrun

end wired

section linked

variable {s s' : Hearing} {slot : Slot} {conn : BtConn} {l : Listener}

/-- An event of the scanner, but the loss of the connection. -/
theorem Linked.of_scanner (h : Linked slot conn s l) {scanner : Scanner} {e : Event}
    (hs : s.scanner.step e = some scanner) (he : e ≠ .disconnected conn) :
    Linked slot conn { s with scanner } l where
  object := h.object
  subscribed := h.subscribed
  linked := by
    intro hlinked
    obtain ⟨howner, hhears⟩ := h.linked hlinked
    refine ⟨Scanner.owner_step hs howner he, ?_⟩
    rcases Scanner.hears_step hs slot with heq | ⟨hfree, -⟩
    · exact (congrArg Prod.fst heq).trans hhears
    · rw [hfree] at howner
      cases howner

/-- What the subscriptions of one connection do to an object: the induction is on the subscriptions,
    and the object is called once for each that lies in its slot. -/
theorem foldlM_onReceived {chunk : Chunk} {ps : List (BtConn × Slot)} {o : Sphero} (h : s.Wired)
    (hs : ps.foldlM (fun s p => s.onReceived p.2 chunk) s = some s') (ho : s.objects slot = some o)
    (hslot : (∃ p ∈ ps, p.2 = slot) → (s.scanner.conns.data slot).hears.1 = some slot.val) :
    ∃ objects o', s' = { s with objects } ∧
      (ps.filter fun p => p.2 = slot).foldlM (fun o _ => o.hear chunk) o = some o' ∧
      objects slot = some o' := by
  induction ps generalizing s o with
  | nil =>
    obtain rfl := Option.some.inj hs
    exact ⟨s.objects, o, rfl, rfl, ho⟩
  | cons p ps ih =>
    rw [List.foldlM_cons] at hs
    obtain ⟨m, hm, hrest⟩ := Option.bind_eq_some_iff.mp hs
    have hwired := wired_onReceived h hm
    obtain ⟨objects, rfl, hothers, -, hself⟩ := onReceived_eq_some h hm
    have hslot' : (∃ q ∈ ps, q.2 = slot) → (s.scanner.conns.data slot).hears.1 = some slot.val :=
      fun ⟨q, hq, hqs⟩ => hslot ⟨q, List.mem_cons_of_mem p hq, hqs⟩
    -- a callback in another slot calls another object
    by_cases hp : p.2 = slot
    · obtain ⟨o₁, m, ho₁, hheard, hm⟩ := hself (hp ▸ hslot ⟨p, List.mem_cons_self, hp⟩)
      rw [hp] at ho₁ hm
      obtain rfl := Option.some.inj (ho₁.symm.trans ho)
      obtain ⟨objects', o', rfl, hfold, ho'⟩ := ih hwired hrest hm hslot'
      refine ⟨objects', o', rfl, ?_, ho'⟩
      rw [List.filter_cons_of_pos (by simpa using hp), List.foldlM_cons, hheard]
      exact hfold
    · obtain ⟨objects', o', rfl, hfold, ho'⟩ :=
        ih hwired hrest ((hothers slot (Ne.symm hp)).trans ho) hslot'
      refine ⟨objects', o', rfl, ?_, ho'⟩
      rw [List.filter_cons_of_neg (by simpa using hp)]
      exact hfold

/-- **A notification.** -/
theorem linked_notify (h : s.Wired) (hl : Linked slot conn s l) {c : BtConn} {chunk : Chunk}
    (hs : s.step (.notify c chunk) = some s') :
    ∃ l', l.step slot conn (.notify c chunk) = some l' ∧ Linked slot conn s' l' := by
  -- the object's own subscription is on `conn`, and there is one of it
  have hcalled : ((s.subscriptions.filter fun p => p.1 = c).filter fun p => p.2 = slot) =
      if l.linked = true ∧ c = conn then [(conn, slot)] else [] := by
    rw [List.filter_comm, hl.subscribed]
    cases l.linked with
    | false => rfl
    | true =>
      by_cases hc : c = conn
      · simp [hc]
      · simp [hc, Ne.symm hc]
  obtain ⟨objects, o', rfl, hfold, ho'⟩ := foldlM_onReceived h hs hl.object (by
    rintro ⟨p, hp, hps⟩
    by_contra hno
    have hmem : p ∈ (s.subscriptions.filter fun p => p.1 = c).filter fun p => p.2 = slot :=
      List.mem_filter.mpr ⟨hp, by simpa using hps⟩
    rw [hcalled, if_neg fun hc => hno (hl.linked hc.1).2] at hmem
    cases hmem)
  rw [hcalled] at hfold
  by_cases hc : l.linked = true ∧ c = conn
  · rw [if_pos hc, List.foldlM_cons] at hfold
    obtain ⟨_, hheard, hlast⟩ := Option.bind_eq_some_iff.mp hfold
    obtain rfl := Option.some.inj hlast
    refine ⟨{ l with object := _ }, ?_, ho', hl.subscribed, hl.linked⟩
    rw [Listener.step, if_pos hc, hheard]
    rfl
  · rw [if_neg hc] at hfold
    obtain rfl := Option.some.inj hfold
    exact ⟨l, if_neg hc, ho', hl.subscribed, hl.linked⟩

/-- The constructor of the object itself. -/
theorem linked_constructed (h : s.Wired) {gatt : Option Errno}
    (hs : s.step (.construct slot gatt) = some s') (howner : s.scanner.conns.owner slot = some conn)
    (hconn : (s.scanner.conns.data slot).conn = some conn) :
    Linked slot conn s' ⟨Sphero.create (UInt8.ofNat slot.val), gatt.isNone⟩ := by
  obtain ⟨hnone, -, rfl⟩ := construct_eq_some hs
  obtain ⟨hfree, hothers⟩ := h.fresh slot hnone
  obtain ⟨hgatt, hhears, -⟩ := SpheroClient.hears_subscribe hfree slot.val gatt
  have hold : (s.subscriptions.filter fun p => p.2 = slot) = [] := by
    rw [List.filter_eq_nil_iff]
    intro p hp
    simpa using hothers p hp
  refine ⟨Function.update_self _ _ _, ?_, fun _ => ⟨howner, ?_⟩⟩
  · show (s.subscriptions ++ _).filter _ = _
    rw [List.filter_append, hold, hgatt, hconn]
    cases gatt <;> simp
  · rw [data_constructed_self, hhears]

/-- The constructor of another one. -/
theorem linked_construct (hl : Linked slot conn s l) {i : Slot}
    {gatt : Option Errno} (hs : s.step (.construct i gatt) = some s') : Linked slot conn s' l := by
  obtain ⟨hnone, -, rfl⟩ := construct_eq_some hs
  have hi : i ≠ slot := by
    rintro rfl
    rw [hl.object] at hnone
    cases hnone
  refine ⟨(Function.update_of_ne (Ne.symm hi) _ _).trans hl.object, ?_, fun hlinked => ?_⟩
  · have hnew : ∀ conns : List BtConn,
        ((conns.map fun conn => (conn, i)).filter fun p => p.2 = slot) = [] := by
      intro conns
      rw [List.filter_eq_nil_iff]
      intro p hp
      obtain ⟨c, -, rfl⟩ := List.mem_map.mp hp
      simpa using hi
    rw [← hl.subscribed]
    show (s.subscriptions ++ _).filter _ = _
    rw [List.filter_append]
    split
    · rw [hnew, List.append_nil]
    · exact List.append_nil _
  · rw [data_constructed_of_ne (Ne.symm hi)]
    exact hl.linked hlinked

/-- A connection is lost. -/
theorem linked_disconnected (hl : Linked slot conn s l) {c : BtConn}
    (hs : s.step (.event (.disconnected c)) = some s') :
    ∃ l', l.step slot conn (.event (.disconnected c)) = some l' ∧ Linked slot conn s' l' := by
  simp only [step] at hs
  obtain ⟨scanner, hscanner, rfl⟩ := Option.map_eq_some_iff.mp hs
  refine ⟨_, rfl, ?_⟩
  by_cases hc : c = conn
  · subst hc
    rw [if_pos rfl]
    refine ⟨hl.object, ?_, fun hlinked => by cases hlinked⟩
    show ((s.subscriptions.filter fun p => p.1 ≠ c).filter fun p => p.2 = slot) = []
    rw [List.filter_comm, hl.subscribed]
    split <;> simp
  · rw [if_neg hc]
    have hkept := hl.of_scanner hscanner (by
      intro heq
      exact hc (Event.disconnected.inj heq))
    refine ⟨hkept.object, ?_, hkept.linked⟩
    show ((s.subscriptions.filter fun p => p.1 ≠ c).filter fun p => p.2 = slot) = _
    rw [List.filter_comm, hl.subscribed]
    split
    · simp [Ne.symm hc]
    · rfl

/-- A method of an object. -/
theorem linked_method (hl : Linked slot conn s l) {i : Slot} {method : Method}
    (hs : s.step (.method i method) = some s') :
    ∃ l', l.step slot conn (.method i method) = some l' ∧ Linked slot conn s' l' := by
  simp only [step] at hs
  obtain ⟨o, ho, rfl⟩ := Option.map_eq_some_iff.mp hs
  refine ⟨_, rfl, ?_⟩
  by_cases hi : i = slot
  · subst hi
    obtain rfl := Option.some.inj (ho.symm.trans hl.object)
    rw [if_pos rfl]
    exact ⟨Function.update_self _ _ _, hl.subscribed, hl.linked⟩
  · rw [if_neg hi]
    exact ⟨(Function.update_of_ne (Ne.symm hi) _ _).trans hl.object, hl.subscribed, hl.linked⟩

/-- A command of any object. -/
theorem linked_command (hl : Linked slot conn s l) {i : Slot} {packet : Packet}
    {turns : Nat → Turn} (hs : s.step (.command i packet turns) = some s') :
    Linked slot conn s' l := by
  obtain ⟨howner, hhears⟩ := s.scanner.hears_execute i packet turns
  rw [command_eq_some hs]
  refine ⟨hl.object, hl.subscribed, fun hlinked => ?_⟩
  obtain ⟨hconn, hself⟩ := hl.linked hlinked
  exact ⟨(congrFun howner slot).trans hconn, (congrArg Prod.fst (hhears slot)).trans hself⟩

/-- **One step**: the object goes on as the listener. -/
theorem linked_step (h : s.Wired) (hl : Linked slot conn s l) {a : Act}
    (hs : s.step a = some s') :
    ∃ l', l.step slot conn a = some l' ∧ Linked slot conn s' l' := by
  cases a with
  | event e =>
    cases e with
    | disconnected c => exact linked_disconnected hl hs
    | _ =>
      simp only [step] at hs
      obtain ⟨scanner, hscanner, rfl⟩ := Option.map_eq_some_iff.mp hs
      exact ⟨l, rfl, hl.of_scanner hscanner (by simp)⟩
  | command i packet turns => exact ⟨l, rfl, linked_command hl hs⟩
  | construct i gatt => exact ⟨l, rfl, linked_construct hl hs⟩
  | method i method => exact linked_method hl hs
  | notify c chunk => exact linked_notify h hl hs

/-- **Each object is a listener.** -/
theorem hears_run (h : s.Wired) (hl : Linked slot conn s l) {acts : List Act}
    (hs : Transition.run step s acts = some s') :
    ∃ l', Transition.run (Listener.step slot conn) l acts = some l' ∧ Linked slot conn s' l' := by
  obtain ⟨l', hrun, -, hl'⟩ := Transition.run_simulation
    (R := fun s l => s.Wired ∧ Linked slot conn s l) (fun ⟨hw, hl⟩ hs => by
      obtain ⟨l', hstep, hl'⟩ := linked_step hw hl hs
      exact ⟨l', hstep, wired_step hw hs, hl'⟩) ⟨h, hl⟩ hs
  exact ⟨l', hrun, hl'⟩

end linked

end Hearing

/-! ## A robot's own packets -/

namespace Sphero

/-- What is done with an object but for its collector. -/
inductive Call
  | handle (packet : Packet)
  | call (method : Method)

namespace Call

/-- The object after it. -/
def run (s : Sphero) : Call → Sphero
  | .handle packet => s.handlePacket packet
  | .call method => method.call s

/-- The packet that was handled. -/
def handled : Call → Option Packet
  | .handle packet => some packet
  | .call _ => none

/-- The method that was called. -/
def called : Call → Option Method
  | .handle _ => none
  | .call method => some method

/-- Only `add_packet` uses the collector. -/
theorem run_withCollector (s : Sphero) (packetCollector : PacketCollector) (call : Call) :
    run { s with packetCollector } call = { run s call with packetCollector } := by
  cases call with
  | handle packet =>
    simp only [run]
    cases h : s.waiting.lookup packet.id with
    | none =>
      have h' : ({ s with packetCollector } : Sphero).waiting.lookup packet.id = none := h
      rw [handlePacket_of_lookup_none h, handlePacket_of_lookup_none h']
    | some signal =>
      have h' : ({ s with packetCollector } : Sphero).waiting.lookup packet.id = some signal := h
      rw [handlePacket_of_lookup h, handlePacket_of_lookup h']
  | call method =>
    cases method with
    | newPacket | setupResponse | count => rfl
    | waitForResponse response =>
      simp only [run, Method.call, waitForResponse, kPoll]
      cases s.signals.lookup response with
      | none => rfl
      | some signal =>
        cases hsignaled : signal.signaled with
        | false => simp [hsignaled]
        | true =>
          simp only [hsignaled, if_true]
          split <;> rfl

theorem foldl_withCollector (calls : List Call) (s : Sphero) (packetCollector : PacketCollector) :
    calls.foldl run { s with packetCollector } = { calls.foldl run s with packetCollector } := by
  induction calls generalizing s with
  | nil => rfl
  | cons call calls ih =>
    rw [List.foldl_cons, run_withCollector, ih]
    rfl

end Call

/-- A notification that is heard: its packets are handled one after the other. -/
theorem hear_eq_some {s s' : Sphero} {chunk : Chunk} (h : s.hear chunk = some s') :
    ¬ (s.packetCollector.addPacket chunk).exit.any Exit.fatal = true ∧
      s' = { (((callbacks (s.packetCollector.addPacket chunk).out).map Call.handle).foldl
        Call.run s) with packetCollector := (s.packetCollector.addPacket chunk).state } := by
  simp only [hear] at h
  split at h
  · cases h
  · refine ⟨‹_›, ?_⟩
    rw [← Option.some.inj h, ← Call.foldl_withCollector, List.foldl_map]
    rfl

end Sphero

open Sphero (Call)

namespace Hearing

/-- The notifications of a connection, until it is lost. -/
def heard (conn : BtConn) : List Act → List Chunk
  | [] => []
  | .notify c chunk :: acts => if c = conn then chunk :: heard conn acts else heard conn acts
  | .event (.disconnected c) :: acts => if c = conn then [] else heard conn acts
  | _ :: acts => heard conn acts

/-- The methods of an object. -/
def called (slot : Slot) : List Act → List Method
  | [] => []
  | .method i method :: acts => if i = slot then method :: called slot acts else called slot acts
  | _ :: acts => called slot acts

end Hearing

open Hearing (Act heard called)

namespace PacketCollector

/-- A session goes on with the next notification. -/
theorem session_cons {c : PacketCollector} {chunk : Chunk}
    (h : ¬ (c.addPacket chunk).exit.any Exit.fatal = true) (chunks : List Chunk) :
    session c (chunk :: chunks) =
      (session (c.addPacket chunk).state chunks).after (c.addPacket chunk).out := by
  show Chunked.calls addByte Exit.fatal c (chunk.data :: chunks.map Chunk.data) = _
  rw [Chunked.calls]
  exact if_neg h

end PacketCollector

/-- The calls an object gets from notifications and methods, and where they leave it. -/
structure Calls (s : Sphero) (chunks : List Chunk) (methods : List Method) (calls : List Call)
    (s' : Sphero) : Prop where
  object : s' = { calls.foldl Call.run s with
    packetCollector := (s.packetCollector.session chunks).state }
  handled : calls.filterMap Call.handled = callbacks (s.packetCollector.session chunks).out
  called : calls.filterMap Call.called = methods

namespace Calls

variable {s m s' : Sphero} {chunks : List Chunk} {methods : List Method} {calls : List Call}

theorem nil (s : Sphero) : Calls s [] [] [] s := ⟨rfl, rfl, rfl⟩

/-- A notification first. -/
theorem hear {chunk : Chunk} (hm : s.hear chunk = some m) (h : Calls m chunks methods calls s') :
    Calls s (chunk :: chunks) methods
      ((callbacks (s.packetCollector.addPacket chunk).out).map Call.handle ++ calls) s' := by
  obtain ⟨hfatal, rfl⟩ := Sphero.hear_eq_some hm
  have hsession := PacketCollector.session_cons hfatal chunks
  constructor
  · rw [hsession, List.foldl_append, h.object, Call.foldl_withCollector]
    rfl
  · rw [hsession, Chunked.Outcome.after_out, PacketCollector.callbacks_append, List.filterMap_append, h.handled,
      List.filterMap_map]
    exact congrArg (· ++ _) List.filterMap_some
  · rw [List.filterMap_append, h.called, List.filterMap_map]
    exact congrArg (· ++ methods) (List.filterMap_eq_nil_iff.mpr fun _ _ => rfl)

/-- A method first. -/
theorem call (method : Method) (h : Calls (method.call s) chunks methods calls s') :
    Calls s chunks (method :: methods) (.call method :: calls) s' := by
  have hcollector : (method.call s).packetCollector = s.packetCollector := by
    have hsame := congrArg Sphero.packetCollector
      (Call.run_withCollector s s.packetCollector (.call method))
    exact hsame
  refine ⟨?_, ?_, ?_⟩
  · rw [h.object, hcollector]
    rfl
  · rw [← hcollector, ← h.handled]
    rfl
  · rw [← h.called]
    rfl

end Calls

/-- **A listener alone**: the induction is on the acts. -/
theorem Listener.calls_run {slot : Slot} {conn : BtConn} {acts : List Act} {l l' : Listener}
    (h : Transition.run (step slot conn) l acts = some l') : ∃ calls, Calls l.object
      (if l.linked = true then heard conn acts else []) (called slot acts) calls l'.object := by
  induction acts generalizing l with
  | nil =>
    obtain rfl := Option.some.inj h
    refine ⟨[], ?_⟩
    rw [heard, ite_self]
    exact Calls.nil l.object
  | cons a acts ih =>
    obtain ⟨m, hm, hrest⟩ := Transition.run_cons_eq_some h
    obtain ⟨calls, hcalls⟩ := ih hrest
    cases a with
    | notify c chunk =>
      simp only [step] at hm
      -- a chunk is heard only from the own robot, while it is connected
      by_cases hc : l.linked = true ∧ c = conn
      · rw [if_pos hc] at hm
        obtain ⟨object, hheard, rfl⟩ := Option.map_eq_some_iff.mp hm
        rw [if_pos hc.1] at hcalls
        rw [if_pos hc.1, heard, if_pos hc.2]
        exact ⟨_, hcalls.hear hheard⟩
      · rw [if_neg hc] at hm
        obtain rfl := Option.some.inj hm
        refine ⟨calls, ?_⟩
        cases hlinked : l.linked with
        | false =>
          rw [hlinked] at hcalls
          exact hcalls
        | true =>
          rw [hlinked, if_pos rfl] at hcalls
          rw [if_pos rfl, heard, if_neg fun heq => hc ⟨hlinked, heq⟩]
          exact hcalls
    | method i method =>
      simp only [step] at hm
      obtain rfl := Option.some.inj hm
      by_cases hi : i = slot
      · rw [if_pos hi] at hcalls
        rw [called, if_pos hi]
        exact ⟨_, hcalls.call method⟩
      · rw [if_neg hi] at hcalls
        rw [called, if_neg hi]
        exact ⟨calls, hcalls⟩
    | event e =>
      cases e with
      | disconnected c =>
        simp only [step] at hm
        obtain rfl := Option.some.inj hm
        refine ⟨calls, ?_⟩
        by_cases hc : c = conn
        · rw [if_pos hc] at hcalls
          rw [heard, if_pos hc, ite_self]
          exact hcalls
        · rw [if_neg hc] at hcalls
          rw [heard, if_neg hc]
          exact hcalls
      | _ =>
        obtain rfl := Option.some.inj hm
        exact ⟨calls, hcalls⟩
    | command | construct =>
      obtain rfl := Option.some.inj hm
      exact ⟨calls, hcalls⟩

namespace Hearing

/-- **Each object hears its own robot and nobody else.**  In any run, from the constructor of an
    object on: whatever is connected, lost, discovered and sent, and whatever the other robots notify,
    the packets it handles are those of the notifications of its own connection until that is lost,
    as its own collector takes them; and where these are the frames of packets, cut anyhow, they are
    those packets.  An object that could not subscribe handles none. -/
theorem hears_own_robot {before after : List Act} {s t : Hearing} {slot : Slot} {conn : BtConn}
    {gatt : Option Errno} (hbefore : Transition.run step new before = some s)
    (howner : s.scanner.conns.owner slot = some conn)
    (hconn : (s.scanner.conns.data slot).conn = some conn)
    (hafter : Transition.run step s (.construct slot gatt :: after) = some t) :
    let chunks := if gatt = none then heard conn after else []
    ∃ o calls, t.objects slot = some o ∧
      Calls (Sphero.create (UInt8.ofNat slot.val)) chunks (called slot after) calls o ∧
      ∀ ps : List Packet, stream chunks = (ps.map Packet.build).flatten →
        calls.filterMap Call.handled = ps.map Packet.norm := by
  obtain ⟨m, hm, hrest⟩ := Transition.run_cons_eq_some hafter
  have hwired : s.Wired := Transition.invariant (fun hs hstep => wired_step hs hstep) wired_new hbefore
  obtain ⟨l', hrun, hl'⟩ := hears_run (wired_step hwired hm)
    (linked_constructed hwired hm howner hconn) hrest
  obtain ⟨calls, hcalls⟩ := Listener.calls_run hrun
  simp only [Option.isNone_iff_eq_none] at hcalls
  refine ⟨l'.object, calls, hl'.object, hcalls, fun ps hps => ?_⟩
  rw [hcalls.handled]
  exact PacketCollector.callbacks_stream hps

/-- The slot of a second robot. -/
def secondSlot : Slot := ⟨1, by decide⟩

/-- Two robots, each found in a slot of its own. -/
def twoFound : List Act :=
  (Bound.found.map .event) ++ ([.connected 8 secondSlot none none,
    .discoveryComplete (Scanner.readyDm 8) secondSlot 2 none].map .event)

/-- The first robot answers in two notifications; the other one talks and leaves in between. -/
def answered : List Act :=
  [.construct secondSlot none, .notify 7 ⟨PacketCollector.wakePacket.build.take 4, by decide⟩,
    .notify 8 ⟨PacketCollector.wakePacket.build, by decide⟩, .event (.disconnected 8),
    .notify 7 ⟨PacketCollector.wakePacket.build.drop 4, by decide⟩, .event (.disconnected 7)]

theorem hears_own_robot_answered : ∃ s t o calls,
    Transition.run step new twoFound = some s ∧
    Transition.run step s (.construct 0 none :: answered) = some t ∧ t.objects 0 = some o ∧
    Calls (Sphero.create 0) (heard 7 answered) [] calls o ∧
    calls.filterMap Call.handled = [PacketCollector.wakePacket] := by
  obtain ⟨s, hs⟩ : ∃ s, Transition.run step new twoFound = some s := ⟨_, rfl⟩
  obtain ⟨t, ht⟩ : ∃ t, Transition.run step new (twoFound ++ .construct 0 none :: answered) = some t :=
    ⟨_, rfl⟩
  rw [Transition.run_append, hs] at ht
  have howner : s.scanner.conns.owner 0 = some 7 ∧ (s.scanner.conns.data 0).conn = some 7 := by
    rw [← Option.some.inj hs]
    exact ⟨rfl, rfl⟩
  obtain ⟨o, calls, ho, hcalls, hframes⟩ := hears_own_robot hs howner.1 howner.2 ht
  exact ⟨s, t, o, calls, hs, ht, ho, hcalls, hframes [PacketCollector.wakePacket] (by decide)⟩

end Hearing

end NrfSpheros
