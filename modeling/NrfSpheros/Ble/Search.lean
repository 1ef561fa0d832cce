/-
  `SpheroScanner::found_all_spheros`: when the search is over.

  The search ends when no Sphero has been found for a while.  `found_all_spheros` reads the clock and
  then `last_sphero_found`, which the scanner's callbacks set from the clock on another thread.

  1. **The search.**  A `Search` is a scanner with the clock and the call of `found_all_spheros` that
     stands between its two reads, if there is one.  `written` is when `last_sphero_found` was written.
  2. **Order of the reads** (`notEarly_iff`).  The difference of the two readings is what has passed if
     `last_sphero_found` was written first.  A write at a later time that falls between the two reads
     makes it wrap, so that the search ends at the very moment a Sphero is found.
-/
import NrfSpheros.Ble.Scanner

namespace NrfSpheros

open Scanner (Event)

namespace Scanner

/-- The clock reading that the callback stores in `last_sphero_found`, if it comes to that. -/
def Event.stores : Event → Option UInt64
  | .start now _ => some now
  | .discoveryComplete _ _ now none => some now
  | _ => none

theorem lastSpheroFound_gattDiscover (s : Scanner) (conn : BtConn) (dm : Option Errno) :
    (s.gattDiscover conn dm).lastSpheroFound = s.lastSpheroFound := by
  obtain ⟨started, heq⟩ := s.gattDiscover_eq conn dm
  rw [heq]

theorem lastSpheroFound_connectFailed (s : Scanner) (conn : BtConn) (scan : Option Errno) :
    (s.connectFailed conn scan).lastSpheroFound = s.lastSpheroFound := by
  unfold connectFailed
  split <;> rfl

theorem lastSpheroFound_endDiscovery {s s' : Scanner} {conn : BtConn} {context : Slot}
    (h : s.endDiscovery conn context = some s') : s'.lastSpheroFound = s.lastSpheroFound := by
  rw [endDiscovery_eq h]

/-- **Who writes `last_sphero_found`.** -/
theorem lastSpheroFound_step {s s' : Scanner} {e : Event} (h : s.step e = some s') :
    s'.lastSpheroFound = e.stores.getD s.lastSpheroFound := by
  cases e with
  | start | stop | scanConnecting | disconnected =>
    rw [← Option.some.inj h]
    rfl
  | connectFailed conn scan => rw [← Option.some.inj h, lastSpheroFound_connectFailed]; rfl
  | connected conn slot dm scan =>
    obtain ⟨conns, -, rfl⟩ := Option.map_eq_some_iff.mp h
    exact lastSpheroFound_gattDiscover _ conn dm
  | discoveryComplete dm context now scan =>
    obtain ⟨t, hend, rfl⟩ := Option.map_eq_some_iff.mp h
    cases scan with
    | none => rfl
    | some err =>
      show t.lastSpheroFound = s.lastSpheroFound
      exact lastSpheroFound_endDiscovery hend
  | discoveryServiceNotFound conn context scan =>
    obtain ⟨t, hend, rfl⟩ := Option.map_eq_some_iff.mp h
    show t.lastSpheroFound = s.lastSpheroFound
    exact lastSpheroFound_endDiscovery hend
  | discoveryError conn context => exact lastSpheroFound_endDiscovery h
  | securityChanged conn dm =>
    rw [← Option.some.inj h, lastSpheroFound_gattDiscover]
    rfl

end Scanner

/-- What `found_all_spheros` makes of its two readings. -/
def foundAllSpheros (currentTime lastSpheroFound timeout : UInt64) : Bool :=
  currentTime - lastSpheroFound > timeout

/-- A call of `found_all_spheros` between its two reads. -/
structure FoundCall where
  currentTime : UInt64
  /-- Since its first read, `last_sphero_found` was written at a later time. -/
  overtaken : Bool
deriving DecidableEq, Repr

/-- The call in progress after a write at the time `clock`. -/
def FoundCall.write (clock : UInt64) (call : FoundCall) : FoundCall :=
  { call with overtaken := call.overtaken || decide (call.currentTime < clock) }

/-- The scanner, the clock, and the main thread in `found_all_spheros`. -/
structure Search where
  scanner : Scanner
  /-- The milliseconds since boot. -/
  clock : UInt64
  /-- When `last_sphero_found` was last written. -/
  written : Option UInt64
  call : Option FoundCall

namespace Search

/-- Time passes, a callback comes, or the main thread goes on. -/
inductive Act
  /-- The clock goes on to `now`. -/
  | tick (now : UInt64)
  /-- A callback, on another thread; if it reads the clock, it reads what the clock shows. -/
  | event (e : Event)
  | readClock
  | readLast (timeout : UInt64)

/-- When the search is set up. -/
def init (clock : UInt64) : Search := ⟨Scanner.new, clock, none, none⟩

/-- One step. -/
def step (s : Search) : Act → Option Search
  | .tick now => if s.clock ≤ now then some { s with clock := now } else none
  | .event e =>
    match e.stores with
    | none => (s.scanner.step e).map fun scanner => { s with scanner }
    | some now =>
      if now = s.clock then
        (s.scanner.step e).map fun scanner =>
          { s with scanner, written := some now, call := s.call.map (FoundCall.write now) }
      else none
  | .readClock =>
    match s.call with
    | none => some { s with call := some ⟨s.clock, false⟩ }
    | some _ => none
  | .readLast _ => s.call.map fun _ => { s with call := none }

/-- The answer of the call that ends here is `true` only if more than the timeout has passed since
    the last write, and it was no wrapped difference. -/
def NotEarly (s : Search) : Act → Prop
  | .readLast timeout => ∀ call, s.call = some call →
    (foundAllSpheros call.currentTime s.scanner.lastSpheroFound timeout = true →
      ∀ written, s.written = some written → written.toNat + timeout.toNat < s.clock.toNat) ∧
    s.scanner.lastSpheroFound ≤ call.currentTime
  | _ => True

/-- Between the reads of the call that ends here, nothing was written at a later time. -/
def NotOvertaken (s : Search) : Act → Prop
  | .readLast _ => ∀ call, s.call = some call → call.overtaken = false
  | _ => True

/-- What the clock, `last_sphero_found` and a call in progress have to do with each other. -/
structure Timed (s : Search) : Prop where
  last : s.scanner.lastSpheroFound = s.written.getD 0
  written : s.written.getD 0 ≤ s.clock
  current : ∀ call, s.call = some call → call.currentTime ≤ s.clock
  overtaken : ∀ call, s.call = some call →
    (call.overtaken = true ↔ call.currentTime < s.written.getD 0)

/-- The clock has not been read. -/
theorem timed_init (clock : UInt64) : Timed (init clock) where
  last := rfl
  written := UInt64.zero_le
  current := fun _ h => by cases h
  overtaken := fun _ h => by cases h

/-! ## The order of the reads -/

theorem timed_tick {s : Search} {now : UInt64} (h : Timed s) (hnow : s.clock ≤ now) :
    Timed { s with clock := now } where
  last := h.last
  written := UInt64.le_trans h.written hnow
  current := fun call hcall => UInt64.le_trans (h.current call hcall) hnow
  overtaken := h.overtaken

/-- A callback that does not come to the write. -/
theorem timed_quiet {s : Search} {scanner : Scanner} (h : Timed s)
    (hlast : scanner.lastSpheroFound = s.scanner.lastSpheroFound) :
    Timed { s with scanner } where
  last := hlast.trans h.last
  written := h.written
  current := h.current
  overtaken := h.overtaken

/-- A callback that writes what the clock shows. -/
theorem timed_write {s : Search} {scanner : Scanner} (h : Timed s)
    (hlast : scanner.lastSpheroFound = s.clock) :
    Timed { s with scanner, written := some s.clock, call := s.call.map (FoundCall.write s.clock) }
    where
  last := hlast
  written := UInt64.le_refl _
  current := by
    intro call hcall
    obtain ⟨before, hbefore, rfl⟩ := Option.map_eq_some_iff.mp hcall
    exact h.current before hbefore
  overtaken := by
    intro call hcall
    obtain ⟨before, hbefore, rfl⟩ := Option.map_eq_some_iff.mp hcall
    have hiff := h.overtaken before hbefore
    show (before.overtaken || decide (before.currentTime < s.clock)) = true ↔
      before.currentTime < s.clock
    rw [Bool.or_eq_true, decide_eq_true_eq, hiff]
    -- what was written at a later time before is still written at a later time
    constructor
    · rintro (hlt | hlt)
      · exact UInt64.lt_of_lt_of_le hlt h.written
      · exact hlt
    · exact Or.inr

theorem timed_readClock {s : Search} (h : Timed s) :
    Timed { s with call := some ⟨s.clock, false⟩ } where
  last := h.last
  written := h.written
  current := by
    intro call hcall
    rw [← Option.some.inj hcall]
    exact UInt64.le_refl _
  overtaken := by
    intro call hcall
    rw [← Option.some.inj hcall]
    exact iff_of_false Bool.false_ne_true (UInt64.not_lt.mpr h.written)

/-- **One step.** -/
theorem timed_step {s s' : Search} {a : Act} (h : Timed s) (hs : s.step a = some s') : Timed s' := by
  cases a with
  | tick now =>
    simp only [step] at hs
    split at hs
    · rename_i hnow
      exact Option.some.inj hs ▸ timed_tick h hnow
    · cases hs
  | event e =>
    simp only [step] at hs
    -- only `start` and `discovery_complete` write the variable
    cases he : e.stores with
    | none =>
      rw [he] at hs
      obtain ⟨scanner, hscanner, rfl⟩ := Option.map_eq_some_iff.mp hs
      have hlast := Scanner.lastSpheroFound_step hscanner
      rw [he] at hlast
      exact timed_quiet h hlast
    | some now =>
      simp only [he] at hs
      split at hs
      · rename_i hnow
        subst hnow
        obtain ⟨scanner, hscanner, rfl⟩ := Option.map_eq_some_iff.mp hs
        have hlast := Scanner.lastSpheroFound_step hscanner
        rw [he] at hlast
        exact timed_write h hlast
      · cases hs
  | readClock =>
    simp only [step] at hs
    split at hs
    · exact Option.some.inj hs ▸ timed_readClock h
    · cases hs
  | readLast timeout =>
    obtain ⟨call, -, rfl⟩ := Option.map_eq_some_iff.mp hs
    exact ⟨h.last, h.written, fun _ hnone => absurd hnone (by simp),
      fun _ hnone => absurd hnone (by simp)⟩

/-- **The difference of the readings.**  It is what has passed since the write if that came first, and
    wraps if it came later. -/
theorem notEarly_iff {s : Search} (h : Timed s) (a : Act) : NotEarly s a ↔ NotOvertaken s a := by
  cases a with
  | readLast timeout =>
    refine forall_congr' fun call => forall_congr' fun hcall => ?_
    have hovertaken := h.overtaken call hcall
    have hcurrent := UInt64.le_iff_toNat_le.mp (h.current call hcall)
    rw [h.last]
    cases hflag : call.overtaken with
    | true =>
      have hlt := hovertaken.mp hflag
      exact iff_of_false (fun hearly => UInt64.not_le.mpr hlt hearly.2) (by decide)
    | false =>
      have hle : s.written.getD 0 ≤ call.currentTime := by
        rw [← UInt64.not_lt, ← hovertaken, hflag]
        exact Bool.false_ne_true
      refine iff_of_true ⟨fun htrue written hwritten => ?_, hle⟩ rfl
      rw [hwritten] at htrue hle
      have hfirst : written ≤ call.currentTime := hle
      have hpassed : timeout < call.currentTime - written := of_decide_eq_true htrue
      have hnat := UInt64.lt_iff_toNat_lt.mp hpassed
      rw [UInt64.toNat_sub_of_le _ _ hfirst] at hnat
      omega
  | _ => exact Iff.rfl

/-- **When the search does not end early.**  In every run, from any time on, each call of
    `found_all_spheros` answers `true` only if more than its timeout has passed since the last write of
    `last_sphero_found`, and takes no wrapped difference, if and only if in each call nothing is written
    at a later time between its two reads. -/
theorem not_early_iff (clock : UInt64) (acts : List Act) :
    Transition.Along step NotEarly (init clock) acts ↔
      Transition.Along step NotOvertaken (init clock) acts :=
  Transition.along_congr (fun h => notEarly_iff h _) (fun h _ => timed_step h) (timed_init clock) acts

/-- A robot is found, in the slot given, a millisecond after `found_all_spheros` has read the clock
    and before it reads `last_sphero_found`. -/
def foundBetweenReads (slot : Slot) : List Act :=
  [.event (.start 0 none), .event (.scanConnecting 7), .event (.connected 7 slot none none),
    .tick 3000, .readClock, .tick 3001,
    .event (.discoveryComplete (Scanner.readyDm 7) slot 3001 none), .readLast 5000]

/-- The search ends at that moment, and not five seconds later. -/
theorem ends_early : ¬ ∀ clock acts, Transition.Along step NotEarly (init clock) acts := by
  intro h
  have hlast := (((((((h 0 (foundBetweenReads 0)).2 _ rfl).2 _ rfl).2 _ rfl).2 _ rfl).2 _ rfl).2 _
    rfl).2 _ rfl
  have hearly := (hlast.1 ⟨3000, true⟩ rfl).1 (by decide) 3001 rfl
  exact absurd hearly (by decide)

end Search

end NrfSpheros
