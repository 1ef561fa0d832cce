/-
  `ble/scanner.c` and `SpheroScanner::get_spheros`: from connections to Sphero objects.

  1. **The scanner.**  The connection contexts are a `SlotTable` of clients owned by connections.  The
     callbacks of the Bluetooth stack are the steps; an error code that the stack returns to a
     callback is part of its label.  A discovery in progress keeps the connection and the context it
     was started with, as `bt_gatt_dm` does.  `refs` counts what the module itself holds with
     `bt_conn_ref`.

  2. **The roster.**  What the events alone say: which connection is in which slot, and whether it is
     ready, that is whether the last word on its context was a discovery with everything a client
     needs.  The scanner refines it (`roster_of_run`).

  3. **`get_spheros`** makes an object for each number below the number of occupied slots.  These are
     the ready ones if and only if everyone on the roster is ready and no slot below an occupied one
     is free (`get_spheros_iff`).
-/
import NrfSpheros.Ble.SpheroClient
import NrfSpheros.Theory.SlotTable

namespace NrfSpheros

/-- `CONFIG_BT_MAX_CONN`. -/
abbrev maxConn : Nat := 15

/-- The index of a context. -/
abbrev Slot := Fin maxConn

/-! ## What discovery assigns -/

/-- The discovery object has all that a client needs. -/
def GattDm.usable (dm : GattDm) : Bool :=
  dm.spheroService && dm.packetsChrc && dm.packetsValue.isSome && dm.packetsCcc.isSome

namespace SpheroClient

/-- `bt_sphero_handles_assign` came to its end: it sets `conn` last, after both handles, and nothing else
    sets it.  The handles say less: a later discovery that fails half-way leaves them at `0xFFFF`, with
    `conn` as it was, and a handle that was found may be any number. -/
def assigned (c : SpheroClient) : Bool := c.conn.isSome

/-- The connection is set if the discovery was usable, and kept if not. -/
theorem conn_handlesAssign (dm : GattDm) (c : SpheroClient) :
    (handlesAssign dm c).2.conn = if dm.usable then some dm.conn else c.conn := by
  rcases dm with ⟨conn, service, chrc, value, ccc⟩
  cases service with
  | false => rfl
  | true =>
    cases chrc with
    | false => rfl
    | true => cases value <;> cases ccc <;> rfl

theorem assigned_handlesAssign (dm : GattDm) (c : SpheroClient) :
    (handlesAssign dm c).2.assigned = (dm.usable || c.assigned) := by
  rw [assigned, conn_handlesAssign]
  cases dm.usable <;> rfl

end SpheroClient

/-! ## The scanner -/

/-- The globals of `scanner.c`, with the stack and the contexts. -/
structure Scanner where
  /-- `conns_ctx_lib`. -/
  conns : SlotTable BtConn SpheroClient maxConn
  defaultConn : Option BtConn
  /-- `bt_conn_ref` less `bt_conn_unref`, by connection. -/
  refs : BtConn → Int
  /-- The scan module is scanning. -/
  scanning : Bool
  lastSpheroFound : UInt64
  /-- The discoveries in progress, each with its context. -/
  discoveries : List (BtConn × Slot)

namespace Scanner

/-- A call of `scanner.c`, or a callback. -/
inductive Event
  /-- `scanner_start`, with the uptime and what `bt_scan_start` returns. -/
  | start (now : UInt64) (scan : Option Errno)
  | stop (scan : Option Errno)
  | scanConnecting (conn : BtConn)
  /-- `connected` with an error. -/
  | connectFailed (conn : BtConn) (scan : Option Errno)
  /-- `connected` without one; `slot` is the free context it gets, `dm` what `bt_gatt_dm_start`
      returns. -/
  | connected (conn : BtConn) (slot : Slot) (dm scan : Option Errno)
  | discoveryComplete (dm : GattDm) (context : Slot) (now : UInt64) (scan : Option Errno)
  | discoveryServiceNotFound (conn : BtConn) (context : Slot) (scan : Option Errno)
  | discoveryError (conn : BtConn) (context : Slot)
  | disconnected (conn : BtConn)
  | securityChanged (conn : BtConn) (dm : Option Errno)

/-- After `scanner_init`. -/
def new : Scanner where
  conns := SlotTable.empty SpheroClient.zeroed
  defaultConn := none
  refs _ := 0
  scanning := false
  lastSpheroFound := 0
  discoveries := []

/-- `bt_conn_ref`. -/
def btConnRef (s : Scanner) (conn : BtConn) : Scanner :=
  { s with refs := Function.update s.refs conn (s.refs conn + 1) }

/-- `bt_conn_unref`. -/
def btConnUnref (s : Scanner) (conn : BtConn) : Scanner :=
  { s with refs := Function.update s.refs conn (s.refs conn - 1) }

/-- `bt_scan_start`: scanning goes on as it was if it fails. -/
def btScanStart (s : Scanner) (scan : Option Errno) : Scanner :=
  { s with scanning := s.scanning || scan.isNone }

/-- `bt_scan_stop`; `scan` is what it returns. -/
def btScanStop (s : Scanner) (scan : Option Errno) : Scanner :=
  { s with scanning := s.scanning && scan.isSome }

/-- `gatt_discover`; `dm` is what `bt_gatt_dm_start` returns. -/
def gattDiscover (s : Scanner) (conn : BtConn) (dm : Option Errno) : Scanner :=
  match s.conns.find? conn with
  | none => s
  | some slot =>
    match dm with
    | none => { s with discoveries := s.discoveries ++ [(conn, slot)] }
    | some _ => s

/-- The scan module stops scanning when it begins to connect. -/
def scanConnecting (s : Scanner) (conn : BtConn) : Scanner :=
  let s := { s with scanning := false }
  let s := s.btConnRef conn
  { s with defaultConn := some conn }

/-- `connected` with an error: the attempt is over, and scanning goes on. -/
def connectFailed (s : Scanner) (conn : BtConn) (scan : Option Errno) : Scanner :=
  if s.defaultConn = some conn then
    let s := s.btConnUnref conn
    let s := { s with defaultConn := none }
    s.btScanStart scan
  else s

/-- The context is cleared and initialised before discovery starts. -/
def connected (s : Scanner) (conn : BtConn) (slot : Slot) (dm scan : Option Errno) :
    Option Scanner :=
  (s.conns.alloc? conn slot).map fun conns =>
    let conns := conns.modify slot fun _ => SpheroClient.zeroed
    let conns := conns.modify slot fun client => (client.init ⟨none, none⟩).2
    let s := { s with conns := conns }
    let s := s.gattDiscover conn dm
    s.btScanStop scan

/-- `discovery_complete`. -/
def discoveryComplete (s : Scanner) (dm : GattDm) (context : Slot) (now : UInt64)
    (scan : Option Errno) : Scanner :=
  let s := { s with conns := s.conns.modify context fun c => (SpheroClient.handlesAssign dm c).2 }
  let s := s.btScanStart scan
  match scan with
  | none => { s with lastSpheroFound := now }
  | some _ => s

/-- `disconnected`: the context is freed first. -/
def disconnected (s : Scanner) (conn : BtConn) : Scanner :=
  let s := { s with conns := s.conns.free conn }
  let s := s.btConnUnref conn
  { s with defaultConn := none }

/-- The discovery that ends is over, whatever the callback does. -/
def endDiscovery (s : Scanner) (conn : BtConn) (context : Slot) : Option Scanner :=
  if (conn, context) ∈ s.discoveries then
    some { s with discoveries := s.discoveries.erase (conn, context) }
  else none

/-- One event; `none` is one that cannot come. -/
def step (s : Scanner) : Event → Option Scanner
  | .start now scan => some ({ s with lastSpheroFound := now }.btScanStart scan)
  | .stop scan => some (s.btScanStop scan)
  | .scanConnecting conn => some (s.scanConnecting conn)
  | .connectFailed conn scan => some (s.connectFailed conn scan)
  | .connected conn slot dm scan => s.connected conn slot dm scan
  | .discoveryComplete dm context now scan =>
    (s.endDiscovery dm.conn context).map fun s => s.discoveryComplete dm context now scan
  | .discoveryServiceNotFound conn context scan =>
    (s.endDiscovery conn context).map fun s => s.btScanStart scan
  | .discoveryError conn context => s.endDiscovery conn context
  | .disconnected conn => some (s.disconnected conn)
  | .securityChanged conn dm => some (s.gattDiscover conn dm)

/-- `scanner_get_sphero_count`. -/
def getSpheroCount (s : Scanner) : Nat := s.conns.count

/-- `SpheroScanner::get_spheros`: the ids it makes Sphero objects for. -/
def getSpheros (s : Scanner) : List UInt8 := (List.range s.getSpheroCount).map UInt8.ofNat

/-- The ids are those of the occupied slots whose client was assigned. -/
def EnumeratesUsable (s : Scanner) : Prop :=
  ∀ id, id ∈ s.getSpheros ↔
    ∃ slot : Slot, id = UInt8.ofNat slot.val ∧ (s.conns.owner slot).isSome ∧
      (s.conns.data slot).assigned = true

end Scanner

/-! ## The roster -/

/-- Who is in each slot, and whether they are ready. -/
abbrev Roster := Slot → Option (BtConn × Bool)

namespace Roster

open Scanner (Event)

/-- What an event changes in it. -/
def next (r : Roster) : Event → Roster
  | .connected conn slot _ _ => fun i => if i = slot then some (conn, false) else r i
  | .discoveryComplete dm context _ _ =>
    fun i => if i = context then (r i).map fun e => (e.1, dm.usable || e.2) else r i
  | .disconnected conn => fun i => if (r i).map Prod.fst = some conn then none else r i
  | _ => r

/-- The roster the events lead to. -/
def after (es : List Event) : Roster := es.foldl next fun _ => none

/-- Everyone is ready, and no slot below an occupied one is free. -/
def Complete (r : Roster) : Prop :=
  ∀ i conn ready, r i = some (conn, ready) → ready = true ∧ ∀ j, j < i → r j ≠ none

end Roster

namespace Scanner

/-- The roster of a scanner. -/
def roster (s : Scanner) : Roster :=
  fun i => (s.conns.owner i).map fun conn => (conn, (s.conns.data i).assigned)

/-! ## The scanner refines the roster -/

@[simp] theorem conns_btScanStart (s : Scanner) (scan : Option Errno) :
    (s.btScanStart scan).conns = s.conns := rfl

@[simp] theorem conns_btScanStop (s : Scanner) (scan : Option Errno) :
    (s.btScanStop scan).conns = s.conns := rfl

/-- A discovery may be started. -/
theorem gattDiscover_eq (s : Scanner) (conn : BtConn) (dm : Option Errno) :
    ∃ started, s.gattDiscover conn dm = { s with discoveries := s.discoveries ++ started } := by
  have hnone : s = { s with discoveries := s.discoveries ++ [] } := by rw [List.append_nil]
  unfold gattDiscover
  cases s.conns.find? conn with
  | none => exact ⟨[], hnone⟩
  | some slot =>
    cases dm with
    | none => exact ⟨[(conn, slot)], rfl⟩
    | some err => exact ⟨[], hnone⟩

@[simp] theorem conns_gattDiscover (s : Scanner) (conn : BtConn) (dm : Option Errno) :
    (s.gattDiscover conn dm).conns = s.conns := by
  obtain ⟨started, heq⟩ := s.gattDiscover_eq conn dm
  rw [heq]

@[simp] theorem conns_connectFailed (s : Scanner) (conn : BtConn) (scan : Option Errno) :
    (s.connectFailed conn scan).conns = s.conns := by
  unfold connectFailed
  split <;> rfl

/-- A discovery that ends is one that was running. -/
theorem endDiscovery_eq {s s' : Scanner} {conn : BtConn} {context : Slot}
    (h : s.endDiscovery conn context = some s') :
    s' = { s with discoveries := s.discoveries.erase (conn, context) } := by
  unfold endDiscovery at h
  split at h
  · exact (Option.some.inj h).symm
  · cases h

theorem conns_endDiscovery {s s' : Scanner} {conn : BtConn} {context : Slot}
    (h : s.endDiscovery conn context = some s') : s'.conns = s.conns := by
  rw [endDiscovery_eq h]

/-- A discovery that completes changes the client of its context. -/
theorem conns_discoveryComplete (s : Scanner) (dm : GattDm) (context : Slot) (now : UInt64)
    (scan : Option Errno) :
    (s.discoveryComplete dm context now scan).conns =
      s.conns.modify context fun c => (SpheroClient.handlesAssign dm c).2 := by
  unfold discoveryComplete
  cases scan <;> rfl

/-- The event is none of the three whose callbacks change the contexts. -/
def Event.keepsConns : Event → Bool
  | .connected _ _ _ _ | .discoveryComplete _ _ _ _ | .disconnected _ => false
  | _ => true

/-- The other callbacks leave the contexts alone. -/
theorem conns_step {s s' : Scanner} {e : Event} (h : s.step e = some s')
    (he : e.keepsConns = true) : s'.conns = s.conns := by
  cases e with
  | connected | discoveryComplete | disconnected => cases he
  | start | stop | scanConnecting => rw [← Option.some.inj h]; rfl
  | connectFailed conn scan => rw [← Option.some.inj h, conns_connectFailed]
  | discoveryServiceNotFound conn context scan =>
    obtain ⟨t, hend, rfl⟩ := Option.map_eq_some_iff.mp h
    exact (conns_btScanStart t scan).trans (conns_endDiscovery hend)
  | discoveryError conn context => exact conns_endDiscovery h
  | securityChanged conn dm => rw [← Option.some.inj h, conns_gattDiscover]

theorem roster_eq_of_conns {s s' : Scanner} (h : s'.conns = s.conns) : s'.roster = s.roster := by
  unfold roster
  rw [h]

/-- A connection takes its slot, not assigned yet. -/
theorem roster_connected {s s' : Scanner} {conn : BtConn} {slot : Slot} {dm scan : Option Errno}
    (h : s.step (.connected conn slot dm scan) = some s') :
    s'.roster = s.roster.next (.connected conn slot dm scan) := by
  obtain ⟨conns, halloc, rfl⟩ := Option.map_eq_some_iff.mp h
  obtain ⟨-, -, howner, hdata⟩ := SlotTable.alloc?_eq_some halloc
  funext i
  unfold roster
  rw [conns_btScanStop, conns_gattDiscover, SlotTable.owner_modify, SlotTable.owner_modify, howner]
  by_cases hi : i = slot
  · subst hi
    rw [SlotTable.data_modify_self, SlotTable.data_modify_self, Function.update_self]
    show _ = if i = i then _ else _
    rw [if_pos rfl]
    rfl
  · rw [SlotTable.data_modify_of_ne _ hi, SlotTable.data_modify_of_ne _ hi, hdata,
      Function.update_of_ne hi]
    show _ = if i = slot then _ else _
    rw [if_neg hi]

/-- A discovery assigns the client of its context, whoever owns it. -/
theorem roster_discoveryComplete {s s' : Scanner} {dm : GattDm} {context : Slot} {now : UInt64}
    {scan : Option Errno} (h : s.step (.discoveryComplete dm context now scan) = some s') :
    s'.roster = s.roster.next (.discoveryComplete dm context now scan) := by
  obtain ⟨t, hend, rfl⟩ := Option.map_eq_some_iff.mp h
  have hconns := conns_endDiscovery hend
  funext i
  unfold roster
  rw [conns_discoveryComplete, hconns, SlotTable.owner_modify]
  by_cases hi : i = context
  · subst hi
    rw [SlotTable.data_modify_self, SpheroClient.assigned_handlesAssign]
    show _ = if i = i then _ else _
    rw [if_pos rfl, Option.map_map]
    rfl
  · rw [SlotTable.data_modify_of_ne _ hi]
    show _ = if i = context then _ else _
    rw [if_neg hi]

/-- A disconnection frees the slot of its connection. -/
theorem roster_disconnected {s s' : Scanner} {conn : BtConn}
    (h : s.step (.disconnected conn) = some s') :
    s'.roster = s.roster.next (.disconnected conn) := by
  obtain rfl := Option.some.inj h
  funext i
  show ((if s.conns.owner i = some conn then none else s.conns.owner i).map _) =
    if (s.roster i).map Prod.fst = some conn then none else s.roster i
  have hfst : (s.roster i).map Prod.fst = s.conns.owner i := by
    unfold roster
    rw [Option.map_map]
    exact Option.map_id'
  by_cases hi : s.conns.owner i = some conn
  · rw [if_pos hi, if_pos (hfst.trans hi), Option.map_none]
  · rw [if_neg hi, if_neg (hfst ▸ hi)]
    rfl

/-- **Every callback does to the scanner what its event does to the roster.** -/
theorem roster_step {s s' : Scanner} {e : Event} (h : s.step e = some s') :
    s'.roster = s.roster.next e := by
  cases e with
  | connected conn slot dm scan => exact roster_connected h
  | discoveryComplete dm context now scan => exact roster_discoveryComplete h
  | disconnected conn => exact roster_disconnected h
  | _ => exact roster_eq_of_conns (conns_step h rfl)

/-- The roster of a run is read off its events. -/
theorem roster_run {s t : Scanner} {es : List Event} (h : Transition.run step s es = some t) :
    t.roster = es.foldl Roster.next s.roster := by
  induction es generalizing s with
  | nil =>
    rw [Transition.run_nil, Option.some.injEq] at h
    rw [h, List.foldl_nil]
  | cons e es ih =>
    obtain ⟨s', hs', hrest⟩ := Transition.run_cons_eq_some h
    rw [ih hrest, roster_step hs', List.foldl_cons]

/-- **The scanner's roster is that of its events.** -/
theorem roster_of_run {s : Scanner} {es : List Event} (h : Transition.run step new es = some s) :
    s.roster = Roster.after es := roster_run h

/-! ## `get_spheros` -/

/-- The ids are the numbers below the count. -/
theorem mem_getSpheros {s : Scanner} {id : UInt8} :
    id ∈ s.getSpheros ↔ ∃ slot : Slot, id = UInt8.ofNat slot.val ∧ slot.val < s.conns.count := by
  unfold getSpheros getSpheroCount
  rw [List.mem_map]
  constructor
  · rintro ⟨k, hk, rfl⟩
    have hlt := List.mem_range.mp hk
    exact ⟨⟨k, Nat.lt_of_lt_of_le hlt s.conns.count_le⟩, rfl, hlt⟩
  · rintro ⟨slot, rfl, hlt⟩
    exact ⟨slot.val, List.mem_range.mpr hlt, rfl⟩

/-- Two slots do not share an id: there are fewer than 256. -/
theorem slot_eq_of_id_eq {i j : Slot} (h : UInt8.ofNat i.val = UInt8.ofNat j.val) : i = j := by
  have hi : i.val < 15 := i.isLt
  have hj : j.val < 15 := j.isLt
  have hnat := congrArg UInt8.toNat h
  rw [UInt8.toNat_ofNat', UInt8.toNat_ofNat'] at hnat
  exact Fin.ext (by omega)

theorem enumeratesUsable_iff {s : Scanner} :
    s.EnumeratesUsable ↔ ∀ slot : Slot, slot.val < s.conns.count ↔
      (s.conns.owner slot).isSome ∧ (s.conns.data slot).assigned = true := by
  unfold EnumeratesUsable
  simp only [mem_getSpheros]
  constructor
  · intro h slot
    have hid := h (UInt8.ofNat slot.val)
    constructor
    · intro hlt
      obtain ⟨slot', heq, hslot⟩ := hid.mp ⟨slot, rfl, hlt⟩
      exact slot_eq_of_id_eq heq ▸ hslot
    · intro hslot
      obtain ⟨slot', heq, hlt⟩ := hid.mpr ⟨slot, rfl, hslot⟩
      exact slot_eq_of_id_eq heq ▸ hlt
  · intro h id
    exact exists_congr fun slot => and_congr_right fun _ => h slot

theorem complete_roster_iff {s : Scanner} :
    s.roster.Complete ↔
      (∀ i, (s.conns.owner i).isSome → (s.conns.data i).assigned = true) ∧
        ∀ i j, j < i → (s.conns.owner i).isSome → (s.conns.owner j).isSome := by
  unfold Roster.Complete roster
  constructor
  · intro h
    constructor
    · intro i hi
      obtain ⟨conn, hconn⟩ := Option.isSome_iff_exists.mp hi
      exact (h i conn _ (by rw [hconn]; rfl)).1
    · intro i j hji hi
      obtain ⟨conn, hconn⟩ := Option.isSome_iff_exists.mp hi
      have hj := (h i conn _ (by rw [hconn]; rfl)).2 j hji
      rw [Ne, Option.map_eq_none_iff] at hj
      exact Option.isSome_iff_ne_none.mpr hj
  · rintro ⟨hassigned, hgap⟩ i conn ready hi
    obtain ⟨c, howner, heq⟩ := Option.map_eq_some_iff.mp hi
    have hi : (s.conns.owner i).isSome := by rw [howner]; rfl
    rw [Prod.mk.injEq] at heq
    refine ⟨heq.2 ▸ hassigned i hi, fun j hji hj => ?_⟩
    rw [Option.map_eq_none_iff] at hj
    have hj' := hgap i j hji hi
    rw [hj] at hj'
    cases hj'

/-- **When `get_spheros` enumerates the usable robots.** -/
theorem get_spheros_iff {es : List Event} {s : Scanner}
    (hrun : Transition.run step new es = some s) :
    s.EnumeratesUsable ↔ (Roster.after es).Complete := by
  rw [← roster_of_run hrun, enumeratesUsable_iff, complete_roster_iff]
  constructor
  · intro h
    -- the enumerated slots are occupied, and as many as the occupied ones
    have hcount := SlotTable.lt_count_iff_of_owned fun i hi => ((h i).mp hi).1
    exact ⟨fun i hi => ((h i).mp ((hcount i).mpr hi)).2, SlotTable.lt_count_iff.mp hcount⟩
  · rintro ⟨hassigned, hgap⟩ slot
    rw [SlotTable.lt_count_iff.mpr hgap slot]
    exact ⟨fun h => ⟨h, hassigned slot h⟩, fun h => h.1⟩

/-- A robot with everything a client needs. -/
def readyDm (conn : BtConn) : GattDm := ⟨conn, true, true, some 1, some 2⟩

/-- One robot, connected and discovered. -/
theorem get_spheros_iff_one :
    ∃ s, Transition.run step new [.start 0 none, .scanConnecting 7, .connected 7 0 none none,
        .discoveryComplete (readyDm 7) 0 1 none] = some s ∧
      (s.EnumeratesUsable ↔ (Roster.after [.start 0 none, .scanConnecting 7,
        .connected 7 0 none none, .discoveryComplete (readyDm 7) 0 1 none]).Complete) :=
  ⟨_, rfl, get_spheros_iff rfl⟩

/-- Two robots are found and the first one goes: the robot in slot 1 is not enumerated, and the free
    slot 0 is. -/
theorem get_spheros_gap :
    ¬ (∀ (es : List Event) (s : Scanner), Transition.run step new es = some s →
      s.EnumeratesUsable) := by
  intro h
  have hids := (enumeratesUsable_iff.mp (h [.start 0 none, .scanConnecting 7,
    .connected 7 0 none none, .discoveryComplete (readyDm 7) 0 1 none, .scanConnecting 8,
    .connected 8 1 none none, .discoveryComplete (readyDm 8) 1 2 none, .disconnected 7] _ rfl)) 0
  exact absurd (hids.mp (by decide)).1 (by decide)

end Scanner

end NrfSpheros
