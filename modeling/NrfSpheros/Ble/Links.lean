/-
  `ble/scanner.c` over the lives of its connections: the references it holds, and whether it goes on
  looking for robots.

  1. **Links.**  A connection is attempted (`scan_connecting`), the attempt fails or it is connected,
     and later it is disconnected; the events of different connections come in any order.  `latest` is
     what the one variable `default_conn` can know: the connection of the last attempt, unless some
     connection was lost since (`Tracked`).

  2. **References** (`refs_balanced_iff`) — the reference taken in `scan_connecting` is given back in
     `disconnected`, or when the attempt fails, but then only if `default_conn` still is the
     connection that failed.

  3. **The search** (`search_goes_on_iff`) — three callbacks can leave the scanner neither scanning nor
     connecting nor discovering: a failed attempt that is not the latest, a connection whose discovery
     does not start, and a discovery that ends in an error.
-/
import Mathlib.Data.Finset.Basic
import NrfSpheros.Ble.Scanner

namespace NrfSpheros

open Scanner (Event)

/-- The scanner with the connections there are. -/
structure Links where
  scanner : Scanner
  /-- The attempts in progress. -/
  attempting : Finset BtConn
  connected : Finset BtConn
  /-- The connection of the last attempt, if none was lost since it began. -/
  latest : Option BtConn

namespace Links

/-- Nothing is attempted or connected. -/
def new : Links := ⟨Scanner.new, ∅, ∅, none⟩

/-- What the life of a connection allows. -/
def Admits (s : Links) : Event → Prop
  | .scanConnecting conn => conn ∉ s.attempting ∧ conn ∉ s.connected
  | .connectFailed conn _ => conn ∈ s.attempting
  | .connected conn _ _ _ => conn ∈ s.attempting
  | .disconnected conn => conn ∈ s.connected
  | _ => True

instance (s : Links) : DecidablePred s.Admits
  | .scanConnecting conn => inferInstanceAs (Decidable (conn ∉ s.attempting ∧ conn ∉ s.connected))
  | .connectFailed conn _ => inferInstanceAs (Decidable (conn ∈ s.attempting))
  | .connected conn _ _ _ => inferInstanceAs (Decidable (conn ∈ s.attempting))
  | .disconnected conn => inferInstanceAs (Decidable (conn ∈ s.connected))
  | .start _ _ => inferInstanceAs (Decidable True)
  | .stop _ => inferInstanceAs (Decidable True)
  | .discoveryComplete _ _ _ _ => inferInstanceAs (Decidable True)
  | .discoveryServiceNotFound _ _ _ => inferInstanceAs (Decidable True)
  | .discoveryError _ _ => inferInstanceAs (Decidable True)
  | .securityChanged _ _ => inferInstanceAs (Decidable True)

/-- The connections after an event that led the scanner to `scanner`. -/
def track (s : Links) (scanner : Scanner) : Event → Links
  | .scanConnecting conn =>
    { s with scanner, attempting := insert conn s.attempting, latest := some conn }
  | .connectFailed conn _ => { s with scanner, attempting := s.attempting.erase conn }
  | .connected conn _ _ _ =>
    { s with
      scanner
      attempting := s.attempting.erase conn
      connected := insert conn s.connected }
  | .disconnected conn => { s with scanner, connected := s.connected.erase conn, latest := none }
  | _ => { s with scanner }

/-- One event, if the stack can send it. -/
def step (s : Links) (e : Event) : Option Links :=
  if s.Admits e then (s.scanner.step e).map fun scanner => s.track scanner e else none

/-- What a step says of its event. -/
theorem step_eq_some {s s' : Links} {e : Event} (h : s.step e = some s') :
    s.Admits e ∧ ∃ scanner, s.scanner.step e = some scanner ∧ s' = s.track scanner e := by
  unfold step at h
  split at h
  · obtain ⟨scanner, hscanner, rfl⟩ := Option.map_eq_some_iff.mp h
    exact ⟨‹_›, scanner, hscanner, rfl⟩
  · cases h

end Links

/-! ## What the scanner holds -/

/-- The references of the module and the connection it takes to be attempted. -/
structure Held where
  refs : BtConn → Int
  defaultConn : Option BtConn

namespace Held

/-- `n` references more. -/
def add (h : Held) (conn : BtConn) (n : Int) : BtConn → Int :=
  Function.update h.refs conn (h.refs conn + n)

/-- The references that an event takes and gives. -/
def next (h : Held) : Event → Held
  | .scanConnecting conn => ⟨h.add conn 1, some conn⟩
  | .connectFailed conn _ => if h.defaultConn = some conn then ⟨h.add conn (-1), none⟩ else h
  | .disconnected conn => ⟨h.add conn (-1), none⟩
  | _ => h

end Held

namespace Scanner

/-- The references the scanner has. -/
def held (s : Scanner) : Held := ⟨s.refs, s.defaultConn⟩

theorem held_gattDiscover (s : Scanner) (conn : BtConn) (dm : Option Errno) :
    (s.gattDiscover conn dm).held = s.held := by
  obtain ⟨started, heq⟩ := s.gattDiscover_eq conn dm
  rw [heq]
  rfl

theorem held_endDiscovery {s s' : Scanner} {conn : BtConn} {context : Slot}
    (h : s.endDiscovery conn context = some s') : s'.held = s.held := by
  rw [endDiscovery_eq h]
  rfl

/-- **What each callback does to what is held.** -/
theorem held_step {s s' : Scanner} {e : Event} (h : s.step e = some s') :
    s'.held = s.held.next e := by
  cases e with
  | start now scan => rw [← Option.some.inj h]; rfl
  | stop scan => rw [← Option.some.inj h]; rfl
  | scanConnecting conn => rw [← Option.some.inj h]; rfl
  | connectFailed conn scan =>
    rw [← Option.some.inj h]
    show (s.connectFailed conn scan).held = if s.defaultConn = some conn then _ else _
    unfold connectFailed
    split <;> rfl
  | connected conn slot dm scan =>
    obtain ⟨conns, -, rfl⟩ := Option.map_eq_some_iff.mp h
    exact held_gattDiscover _ conn dm
  | discoveryComplete dm context now scan =>
    obtain ⟨t, hend, rfl⟩ := Option.map_eq_some_iff.mp h
    rw [show s.held.next _ = s.held from rfl, ← held_endDiscovery hend]
    cases scan <;> rfl
  | discoveryServiceNotFound conn context scan =>
    obtain ⟨t, hend, rfl⟩ := Option.map_eq_some_iff.mp h
    show t.held = s.held
    exact held_endDiscovery hend
  | discoveryError conn context => exact held_endDiscovery h
  | disconnected conn => rw [← Option.some.inj h]; rfl
  | securityChanged conn dm => rw [← Option.some.inj h]; exact held_gattDiscover s conn dm

end Scanner

namespace Links

/-! ## What `default_conn` knows -/

/-- A connection is not attempted while it is connected, and `default_conn` is an attempt in progress
    exactly when it is the latest one. -/
structure Tracked (s : Links) : Prop where
  disjoint : ∀ conn ∈ s.attempting, conn ∉ s.connected
  latest : ∀ conn ∈ s.attempting, s.scanner.defaultConn = some conn ↔ s.latest = some conn

theorem tracked_new : new.Tracked where
  disjoint conn h := absurd h (Finset.notMem_empty conn)
  latest conn h := absurd h (Finset.notMem_empty conn)

/-- Between attempts, failures and losses nothing changes hands. -/
theorem tracked_other {s : Links} {scanner : Scanner} (h : s.Tracked)
    (hheld : scanner.held = s.scanner.held) : Tracked { s with scanner } where
  disjoint := h.disjoint
  latest conn hconn := by
    have hsame : scanner.defaultConn = s.scanner.defaultConn := congrArg Held.defaultConn hheld
    rw [← h.latest conn hconn]
    exact hsame ▸ Iff.rfl

/-- What one step keeps of it. -/
theorem tracked_step {s s' : Links} {e : Event} (h : s.Tracked) (hs : s.step e = some s') :
    s'.Tracked := by
  obtain ⟨hadmits, scanner, hscanner, rfl⟩ := step_eq_some hs
  have hheld := Scanner.held_step hscanner
  have hdefault : scanner.defaultConn = (s.scanner.held.next e).defaultConn :=
    congrArg Held.defaultConn hheld
  cases e with
  | scanConnecting conn =>
    constructor
    · intro c hc
      rcases Finset.mem_insert.mp hc with rfl | hc
      · exact hadmits.2
      · exact h.disjoint c hc
    · intro c _
      exact iff_of_eq (congrArg (· = some c) hdefault)
  | connectFailed conn scan =>
    constructor
    · exact fun c hc => h.disjoint c (Finset.mem_of_mem_erase hc)
    · intro c hc
      obtain ⟨hne, hc⟩ := Finset.mem_erase.mp hc
      show scanner.defaultConn = some c ↔ s.latest = some c
      rw [hdefault, ← h.latest c hc]
      show (if s.scanner.defaultConn = some conn then _ else _ : Held).defaultConn = some c ↔ _
      -- `default_conn` is cleared only for the attempt that failed
      split
      · rename_i hconn
        rw [hconn, Option.some.injEq]
        exact iff_of_false (by simp) (Ne.symm hne)
      · exact Iff.rfl
  | connected conn slot dm scan =>
    constructor
    · intro c hc
      obtain ⟨hne, hc⟩ := Finset.mem_erase.mp hc
      exact fun hmem => (Finset.mem_insert.mp hmem).elim hne (h.disjoint c hc)
    · intro c hc
      show scanner.defaultConn = some c ↔ s.latest = some c
      rw [hdefault, ← h.latest c (Finset.mem_of_mem_erase hc)]
      rfl
  | disconnected conn =>
    constructor
    · exact fun c hc hmem => h.disjoint c hc (Finset.mem_of_mem_erase hmem)
    · intro c _
      show scanner.defaultConn = some c ↔ none = some c
      rw [hdefault]
      rfl
  | _ => exact tracked_other h hheld

/-! ## References -/

/-- One reference for every connection attempted or connected, and none else. -/
def Balanced (s : Links) : Prop :=
  ∀ conn, s.scanner.refs conn = if conn ∈ s.attempting ∨ conn ∈ s.connected then 1 else 0

/-- An attempt that fails is the latest one, and no connection was lost since it began. -/
def KeepsReference (s : Links) : Event → Prop
  | .connectFailed conn _ => conn ∈ s.attempting → s.latest = some conn
  | _ => True

theorem balanced_new : new.Balanced := by
  intro conn
  simp [new, Scanner.new]

/-- After a step, the references of all connections but one are what they were. -/
theorem balanced_update {s : Links} {refs : BtConn → Int} {attempting connected : Finset BtConn}
    {conn : BtConn} {n : Int} (h : s.Balanced) (hrefs : refs = s.scanner.held.add conn n)
    (hother : ∀ c, c ≠ conn →
      (c ∈ attempting ∨ c ∈ connected ↔ c ∈ s.attempting ∨ c ∈ s.connected)) :
    (∀ c, refs c = if c ∈ attempting ∨ c ∈ connected then 1 else 0) ↔
      s.scanner.refs conn + n = if conn ∈ attempting ∨ conn ∈ connected then 1 else 0 := by
  subst hrefs
  constructor
  · intro hall
    have hconn := hall conn
    rw [Held.add, Function.update_self] at hconn
    exact hconn
  · intro hconn c
    by_cases hc : c = conn
    · subst hc
      rw [Held.add, Function.update_self]
      exact hconn
    · rw [Held.add, Function.update_of_ne hc]
      simp only [hother c hc]
      exact h c

/-- A failing attempt gives its reference back if `default_conn` is still its own. -/
theorem balanced_connectFailed {s : Links} {scanner : Scanner} {conn : BtConn}
    {scan : Option Errno} (ht : s.Tracked) (h : s.Balanced) (hconn : conn ∈ s.attempting)
    (hrefs : scanner.refs = (s.scanner.held.next (.connectFailed conn scan)).refs) :
    (s.track scanner (.connectFailed conn scan)).Balanced ↔
      s.KeepsReference (.connectFailed conn scan) := by
  have hone := h conn
  rw [if_pos (Or.inl hconn)] at hone
  have hgone : ¬ (conn ∈ s.attempting.erase conn ∨ conn ∈ s.connected) := by
    rintro (hmem | hmem)
    · exact (Finset.mem_erase.mp hmem).1 rfl
    · exact ht.disjoint conn hconn hmem
  have hkeeps : s.KeepsReference (.connectFailed conn scan) ↔ s.scanner.defaultConn = some conn :=
    (forall_prop_of_true hconn).trans (ht.latest conn hconn).symm
  rw [hkeeps]
  -- otherwise the callback returns before `bt_conn_unref`
  by_cases hdefault : s.scanner.defaultConn = some conn
  · have hrefs : scanner.refs = s.scanner.held.add conn (-1) := by
      rw [hrefs]
      exact congrArg Held.refs (if_pos hdefault)
    refine iff_of_true ((balanced_update h hrefs fun c hc => ?_).mpr ?_) hdefault
    · simp only [track, Finset.mem_erase, ne_eq, hc, not_false_iff, true_and]
    · rw [hone]
      exact (if_neg hgone).symm
  · have hrefs : scanner.refs = s.scanner.refs := by
      rw [hrefs]
      exact congrArg Held.refs (if_neg hdefault)
    refine iff_of_false (fun hall => ?_) hdefault
    have hleft : scanner.refs conn =
        if conn ∈ s.attempting.erase conn ∨ conn ∈ s.connected then 1 else 0 := hall conn
    rw [hrefs, hone, if_neg hgone] at hleft
    exact absurd hleft (by decide)

/-- A step keeps the balance exactly if it loses no reference. -/
theorem balanced_step {s s' : Links} {e : Event} (ht : s.Tracked) (h : s.Balanced)
    (hs : s.step e = some s') : s'.Balanced ↔ s.KeepsReference e := by
  obtain ⟨hadmits, scanner, hscanner, rfl⟩ := step_eq_some hs
  have hrefs : scanner.refs = (s.scanner.held.next e).refs :=
    congrArg Held.refs (Scanner.held_step hscanner)
  cases e with
  | scanConnecting conn =>
    have hzero := h conn
    rw [if_neg (not_or.mpr hadmits)] at hzero
    refine iff_of_true ((balanced_update h hrefs fun c hc => ?_).mpr ?_) trivial
    · simp only [track, Finset.mem_insert, hc, false_or]
    · rw [hzero]
      exact (if_pos (Or.inl (Finset.mem_insert_self conn s.attempting))).symm
  | connectFailed conn scan => exact balanced_connectFailed ht h hadmits hrefs
  | connected conn slot dm scan =>
    -- the reference of the attempt becomes that of the connection
    have hsame : ∀ c, (c ∈ s.attempting.erase conn ∨ c ∈ insert conn s.connected) ↔
        c ∈ s.attempting ∨ c ∈ s.connected := by
      intro c
      by_cases hc : c = conn
      · subst hc
        exact iff_of_true (Or.inr (Finset.mem_insert_self c _)) (Or.inl hadmits)
      · simp only [Finset.mem_erase, Finset.mem_insert, ne_eq, hc, not_false_iff, true_and, false_or]
    refine iff_of_true (fun c => ?_) trivial
    show scanner.refs c = if c ∈ s.attempting.erase conn ∨ c ∈ insert conn s.connected then 1 else 0
    simp only [hrefs, hsame]
    exact h c
  | disconnected conn =>
    have hconn : conn ∈ s.connected := hadmits
    have hone := h conn
    rw [if_pos (Or.inr hconn)] at hone
    have hgone : ¬ (conn ∈ s.attempting ∨ conn ∈ s.connected.erase conn) := by
      rintro (hmem | hmem)
      · exact ht.disjoint conn hmem hconn
      · exact (Finset.mem_erase.mp hmem).1 rfl
    refine iff_of_true ((balanced_update h hrefs fun c hc => ?_).mpr ?_) trivial
    · simp only [track, Finset.mem_erase, ne_eq, hc, not_false_iff, true_and]
    · rw [hone]
      exact (if_neg hgone).symm
  | _ =>
    refine iff_of_true (fun c => ?_) trivial
    show scanner.refs c = _
    rw [hrefs]
    exact h c

theorem keepsReference_of_none {s : Links} {e : Event} (h : s.step e = none) :
    s.KeepsReference e := by
  cases e with
  | connectFailed conn scan =>
    intro hconn
    unfold step at h
    rw [if_pos (show s.Admits (.connectFailed conn scan) from hconn)] at h
    cases h
  | _ => trivial

/-- **When the references balance.** -/
theorem refs_balanced_iff (es : List Event) :
    Transition.Always step Balanced new es ↔ Transition.Along step KeepsReference new es :=
  Transition.always_iff_along balanced_step keepsReference_of_none tracked_step tracked_new
    balanced_new es

/-- One robot goes while the attempt to connect to another fails: the reference to that one stays. -/
theorem refs_leak :
    ¬ ∀ es : List Event, Transition.Always step Balanced new es := by
  intro h
  obtain ⟨s, hs, hrefs, hfree⟩ : ∃ s, Transition.run step new
      [.start 0 none, .scanConnecting 7, .connected 7 0 none none,
        .discoveryComplete (Scanner.readyDm 7) 0 1 none, .scanConnecting 8, .disconnected 7,
        .connectFailed 8 none] = some s ∧
      s.scanner.refs 8 = 1 ∧ ¬ (8 ∈ s.attempting ∨ 8 ∈ s.connected) :=
    ⟨_, rfl, by decide, by decide⟩
  have hbalanced := Transition.always_run (h _) hs 8
  rw [hrefs, if_neg hfree] at hbalanced
  exact absurd hbalanced (by decide)

/-! ## The search -/

/-- The scanner is scanning, connecting or discovering. -/
def Searching (s : Links) : Prop :=
  s.scanner.scanning = true ∨ s.attempting.Nonempty ∨ s.scanner.discoveries ≠ []

/-- `bt_scan_start` succeeds where the event calls it, and the search is not stopped. -/
def Unhindered : Event → Prop
  | .start _ scan => scan = none
  | .stop _ => False
  | .connectFailed _ scan => scan = none
  | .discoveryComplete _ _ _ scan => scan = none
  | .discoveryServiceNotFound _ _ scan => scan = none
  | _ => True

instance : DecidablePred Unhindered
  | .start _ scan => inferInstanceAs (Decidable (scan = none))
  | .stop _ => inferInstanceAs (Decidable False)
  | .connectFailed _ scan => inferInstanceAs (Decidable (scan = none))
  | .discoveryComplete _ _ _ scan => inferInstanceAs (Decidable (scan = none))
  | .discoveryServiceNotFound _ _ scan => inferInstanceAs (Decidable (scan = none))
  | .scanConnecting _ => inferInstanceAs (Decidable True)
  | .connected _ _ _ _ => inferInstanceAs (Decidable True)
  | .discoveryError _ _ => inferInstanceAs (Decidable True)
  | .disconnected _ => inferInstanceAs (Decidable True)
  | .securityChanged _ _ => inferInstanceAs (Decidable True)

/-- The steps of a search. -/
def searchStep (s : Links) (e : Event) : Option Links := if Unhindered e then s.step e else none

/-- After a successful `scanner_start`. -/
def started (now : UInt64) : Links :=
  { new with scanner := { Scanner.new with lastSpheroFound := now }.btScanStart none }

/-- The three callbacks that start nothing come while something else goes on, or find it started. -/
def KeepsSearching (s : Links) : Event → Prop
  | .connectFailed conn _ =>
    s.latest = some conn ∨ s.scanner.scanning = true ∨ (s.attempting.erase conn).Nonempty ∨
      s.scanner.discoveries ≠ []
  | .connected conn _ dm scan =>
    dm = none ∨ (s.scanner.scanning = true ∧ scan ≠ none) ∨ (s.attempting.erase conn).Nonempty ∨
      s.scanner.discoveries ≠ []
  | .discoveryError conn context =>
    s.scanner.scanning = true ∨ s.attempting.Nonempty ∨
      s.scanner.discoveries.erase (conn, context) ≠ []
  | _ => True

theorem searchStep_eq_some {s s' : Links} {e : Event} (h : s.searchStep e = some s') :
    Unhindered e ∧ s.step e = some s' := by
  unfold searchStep at h
  split at h
  · exact ⟨‹_›, h⟩
  · cases h

/-- The context a connection just got is the one its discovery is started with. -/
theorem connected_eq {s s' : Scanner} {conn : BtConn} {slot : Slot} {dm scan : Option Errno}
    (h : s.connected conn slot dm scan = some s') :
    s'.scanning = (s.scanning && scan.isSome) ∧
      s'.discoveries = s.discoveries ++ if dm = none then [(conn, slot)] else [] := by
  obtain ⟨conns, halloc, rfl⟩ := Option.map_eq_some_iff.mp h
  obtain ⟨-, -, howner, -⟩ := SlotTable.alloc?_eq_some halloc
  have hfind : ((conns.modify slot fun _ => SpheroClient.zeroed).modify slot
      fun client => (client.init ⟨none, none⟩).2).find? conn = some slot := by
    apply SlotTable.find?_of_owner
    rw [SlotTable.owner_modify, SlotTable.owner_modify, howner]
    exact Function.update_self ..
  cases dm <;> simp [Scanner.btScanStop, Scanner.gattDiscover, hfind]

/-- A failing attempt starts the scan if `default_conn` is still its own. -/
theorem searching_connectFailed {s : Links} {conn : BtConn} (ht : s.Tracked)
    (hconn : conn ∈ s.attempting) :
    (s.track (s.scanner.connectFailed conn none) (.connectFailed conn none)).Searching ↔
      s.KeepsSearching (.connectFailed conn none) := by
  have hlatest := ht.latest conn hconn
  by_cases hdefault : s.scanner.defaultConn = some conn
  · refine iff_of_true (Or.inl ?_) (Or.inl (hlatest.mp hdefault))
    show (s.scanner.connectFailed conn none).scanning = true
    unfold Scanner.connectFailed
    rw [if_pos hdefault]
    exact Bool.or_true _
  · have hsame : s.scanner.connectFailed conn none = s.scanner := if_neg hdefault
    show (s.scanner.connectFailed conn none).scanning = true ∨ _ ∨
      (s.scanner.connectFailed conn none).discoveries ≠ [] ↔ _
    rw [hsame]
    exact (or_iff_right fun hl => hdefault (hlatest.mpr hl)).symm

/-- A step keeps the search going exactly if it is none of those that end it. -/
theorem searching_step {s s' : Links} {e : Event} (ht : s.Tracked) (h : s.Searching)
    (hs : s.searchStep e = some s') : s'.Searching ↔ s.KeepsSearching e := by
  obtain ⟨hscan, hs⟩ := searchStep_eq_some hs
  obtain ⟨hadmits, scanner, hscanner, rfl⟩ := step_eq_some hs
  cases e with
  | start now scan =>
    obtain rfl : scan = none := hscan
    rw [← Option.some.inj hscanner]
    exact iff_of_true (Or.inl (Bool.or_true _)) trivial
  | stop scan => exact hscan.elim
  | scanConnecting conn =>
    exact iff_of_true (Or.inr (Or.inl ⟨conn, Finset.mem_insert_self conn _⟩)) trivial
  | connectFailed conn scan =>
    obtain rfl : scan = none := hscan
    obtain rfl := Option.some.inj hscanner
    exact searching_connectFailed ht hadmits
  | connected conn slot dm scan =>
    obtain ⟨hscanning, hdiscoveries⟩ := connected_eq hscanner
    show scanner.scanning = true ∨ (s.attempting.erase conn).Nonempty ∨ scanner.discoveries ≠ [] ↔ _
    -- the search goes on with a discovery, or by scanning that could not be stopped
    rw [hscanning, hdiscoveries]
    cases dm with
    | none => exact iff_of_true (Or.inr (Or.inr (by simp))) (Or.inl rfl)
    | some err =>
      show _ ↔ some err = none ∨ _
      rw [Bool.and_eq_true, Option.isSome_iff_ne_none]
      simp
  | discoveryComplete dm context now scan =>
    obtain rfl : scan = none := hscan
    obtain ⟨t, -, rfl⟩ := Option.map_eq_some_iff.mp hscanner
    exact iff_of_true (Or.inl (Bool.or_true _)) trivial
  | discoveryServiceNotFound conn context scan =>
    obtain rfl : scan = none := hscan
    obtain ⟨t, -, rfl⟩ := Option.map_eq_some_iff.mp hscanner
    exact iff_of_true (Or.inl (Bool.or_true _)) trivial
  | discoveryError conn context =>
    rw [Scanner.endDiscovery_eq hscanner]
    exact Iff.rfl
  | disconnected conn =>
    obtain rfl := Option.some.inj hscanner
    exact iff_of_true h trivial
  | securityChanged conn dm =>
    obtain rfl := Option.some.inj hscanner
    obtain ⟨started, heq⟩ := s.scanner.gattDiscover_eq conn dm
    refine iff_of_true ?_ trivial
    show (s.scanner.gattDiscover conn dm).scanning = true ∨ s.attempting.Nonempty ∨
      (s.scanner.gattDiscover conn dm).discoveries ≠ []
    rw [heq]
    exact h.imp_right (Or.imp_right fun hne hnil => hne (List.append_eq_nil_iff.mp hnil).1)

/-- **When the search goes on.** -/
theorem search_goes_on_iff (now : UInt64) {es : List Event} {t : Links}
    (hrun : Transition.run searchStep (started now) es = some t) :
    Transition.Always searchStep Searching (started now) es ↔
      Transition.Along searchStep KeepsSearching (started now) es := by
  have htracked : (started now).Tracked := ⟨tracked_new.disjoint, tracked_new.latest⟩
  exact Transition.always_iff_along_of_run searching_step
    (fun ht hs => tracked_step ht (searchStep_eq_some hs).2) htracked (Or.inl rfl) hrun

/-- One robot is found and discovered. -/
theorem search_goes_on_iff_one :
    ∃ t, Transition.run searchStep (started 0) [.scanConnecting 7, .connected 7 0 none none,
        .discoveryComplete (Scanner.readyDm 7) 0 1 none] = some t ∧
      (Transition.Always searchStep Searching (started 0) [.scanConnecting 7,
          .connected 7 0 none none, .discoveryComplete (Scanner.readyDm 7) 0 1 none] ↔
        Transition.Along searchStep KeepsSearching (started 0) [.scanConnecting 7,
          .connected 7 0 none none, .discoveryComplete (Scanner.readyDm 7) 0 1 none]) :=
  ⟨_, rfl, search_goes_on_iff 0 rfl⟩

/-- The discovery of the first robot ends in an error, and nothing starts again. -/
theorem search_stalls :
    ¬ ∀ (now : UInt64) (es : List Event) (t : Links),
      Transition.run searchStep (started now) es = some t →
        Transition.Always searchStep Searching (started now) es := by
  intro h
  obtain ⟨t, ht, hscanning, hattempting, hdiscoveries⟩ : ∃ t,
      Transition.run searchStep (started 0)
        [.scanConnecting 7, .connected 7 0 none none, .discoveryError 7 0] = some t ∧
      t.scanner.scanning = false ∧ t.attempting = ∅ ∧ t.scanner.discoveries = [] :=
    ⟨_, rfl, by decide, by decide, by decide⟩
  rcases Transition.always_run (h 0 _ t ht) ht with hgo | hgo | hgo
  · rw [hscanning] at hgo
    cases hgo
  · rw [hattempting] at hgo
    exact absurd hgo (by simp)
  · exact hgo hdiscoveries

end Links

end NrfSpheros
