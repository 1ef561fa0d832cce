/-
  The chunks of one `Sphero::execute`.

  1. **The chunks** are the pieces of 20 bytes of the built packet, whatever the sends return
     (`execute_calls`); with `test` set none is sent.  The whole frame goes to
     `bt_sphero_client_send`, in order (`execute_sends_frame`).

  2. **Failed chunks.**  What `bt_sphero_client_send` returns is logged and nothing else, so the loop
     goes on with the next chunk.  `calls` is the loop under any pattern of results.  The robot gets a
     prefix of the frame exactly if no send succeeds after one has failed (`noHole_iff`); a single
     timeout is enough for a hole (`timeout_leaves_hole`).
-/
import NrfSpheros.Sphero.Execute

namespace NrfSpheros

open Pieces

/-! ## The chunks -/

theorem build_ne_nil (packet : Packet) : packet.build ≠ [] := by
  intro h
  have hlength := packet.build_length
  rw [h] at hlength
  exact absurd hlength (by decide)

namespace Scanner

/-- The calls of `bt_sphero_client_send` in one `execute`. -/
theorem execute_eq_sendAll {s : Scanner} {slot : Slot} (h : s.conns.owner slot ≠ none)
    (packet : Packet) (turns : Nat → Turn) :
    s.execute (UInt8.ofNat slot.val) packet false turns =
      let r := sendAll (sendChunk turns) (s.conns.data slot) 0 (pieces chunkSize packet.build)
      (.sent r.1, { s with conns := s.conns.modify slot fun _ => r.2 }) := by
  unfold execute
  rw [getSphero_ofNat h]
  simp only [executeLoop_eq_sendAll, List.drop_zero]

/-- The chunks are the pieces of the built packet, all handed to the connection of the client. -/
theorem execute_calls {s : Scanner} {slot : Slot} (h : s.conns.owner slot ≠ none) (packet : Packet)
    (turns : Nat → Turn) :
    ∃ calls s', s.execute (UInt8.ofNat slot.val) packet false turns = (.sent calls, s') ∧
      calls.map SendCall.data = pieces chunkSize packet.build ∧
      ∀ call ∈ calls, call.conn = (s.conns.data slot).conn := by
  obtain ⟨calls, client, hexecute, -, hconn, -⟩ := execute_of_owned h packet turns
  refine ⟨calls, _, hexecute, ?_, hconn⟩
  rw [execute_eq_sendAll h packet turns] at hexecute
  have hcalls := Execution.sent.inj (congrArg Prod.fst hexecute)
  rw [← hcalls, map_sendAll (g := fun chunk => chunk) fun _ _ _ => rfl, List.map_id']

/-- **The whole frame in order.**  When the client is found, whatever the sends return, `execute`
    comes to its end, and what it handed to `bt_sphero_client_send` is the built packet, cut into
    chunks of 20 bytes and a last one of 1 to 20.  With `test` set it hands over nothing. -/
theorem execute_sends_frame {s : Scanner} {slot : Slot} (h : s.conns.owner slot ≠ none)
    (packet : Packet) (turns : Nat → Turn) :
    (∃ calls s', s.execute (UInt8.ofNat slot.val) packet false turns = (.sent calls, s') ∧
      (calls.map SendCall.data).flatten = packet.build ∧
      ∃ full last, calls.map SendCall.data = full ++ [last] ∧ (∀ chunk ∈ full, chunk.length = 20) ∧
        1 ≤ last.length ∧ last.length ≤ 20) ∧
    (s.execute (UInt8.ofNat slot.val) packet true turns).1 = .sent [] := by
  constructor
  · obtain ⟨calls, s', hexecute, hdata, -⟩ := execute_calls h packet turns
    refine ⟨calls, s', hexecute, ?_⟩
    rw [hdata]
    exact ⟨flatten_pieces (by decide) packet.build, pieces_eq_concat (by decide) (build_ne_nil packet)⟩
  · unfold execute
    rw [getSphero_ofNat h]
    simp only [executeLoop_test]

end Scanner

/-- A packet of three chunks. -/
def threeChunks : Packet :=
  ⟨⟨0x00⟩, 26, 49, 0, 0, 0, PacketError.success, (List.range 45).map UInt8.ofNat⟩

/-- Each write succeeds, but the first is only reported when the wait of the second chunk is over. -/
def lateReport (offset : Nat) : Turn := ⟨if offset = 40 then some 0 else none, none⟩

theorem execute_sends_frame_found : ∃ s,
    Transition.run Scanner.step Scanner.new Bound.found = some s ∧
    (∃ calls s', s.execute (UInt8.ofNat (0 : Slot).val) threeChunks false lateReport =
        (.sent calls, s') ∧
      (calls.map SendCall.data).flatten = threeChunks.build ∧
      ∃ full last, calls.map SendCall.data = full ++ [last] ∧ (∀ chunk ∈ full, chunk.length = 20) ∧
        1 ≤ last.length ∧ last.length ≤ 20) ∧
    (s.execute (UInt8.ofNat (0 : Slot).val) threeChunks true lateReport).1 = .sent [] :=
  ⟨_, rfl, Scanner.execute_sends_frame (by decide) threeChunks lateReport⟩
/-! ## Failed chunks -/

/-- The number of chunks of a packet. -/
def chunkCount (packet : Packet) : Nat := (packet.build.length + 19) / 20

/-- The calls of the loop if the `k`-th send returns `results k`. -/
def sendCalls (conn : Option BtConn) (packet : Packet) (results : Nat → Option Errno) :
    List SendCall :=
  (executeLoop (fun k _ chunk => ((⟨conn, chunk, results k⟩ : SendCall), k + 1)) false packet.build
    0 0).1

/-- What reached the robot: the chunks whose send succeeded. -/
def delivered (calls : List SendCall) : List UInt8 :=
  ((calls.filter fun call => call.err.isNone).map SendCall.data).flatten

/-- What reached the robot is a prefix of the frame, and after a failed chunk none was sent. -/
structure NoHole (packet : Packet) (calls : List SendCall) : Prop where
  delivered : delivered calls <+: packet.build
  failed : calls.Pairwise fun call later => call.err ≠ none → later.err ≠ none

/-- After a failed chunk no send is even tried. -/
def StopsAtFailure (calls : List SendCall) : Prop :=
  calls.Pairwise fun call _ => call.err = none

/-- The pieces with what their sends returned. -/
def withResults (conn : Option BtConn) (ps : List (List UInt8)) (results : Nat → Option Errno) :
    List SendCall :=
  ps.mapIdx fun k chunk => ⟨conn, chunk, results k⟩

theorem sendAll_withResults (conn : Option BtConn) (results : Nat → Option Errno)
    (ps : List (List UInt8)) (k offset : Nat) :
    (sendAll (fun k _ chunk => ((⟨conn, chunk, results k⟩ : SendCall), k + 1)) k offset ps).1 =
      withResults conn ps fun i => results (k + i) := by
  induction ps generalizing k offset with
  | nil => rfl
  | cons chunk ps ih =>
    show (⟨conn, chunk, results k⟩ : SendCall) :: _ = _
    rw [ih, withResults, withResults, List.mapIdx_cons]
    simp only [Nat.add_zero, Nat.add_assoc, Nat.add_comm 1]

theorem sendCalls_eq (conn : Option BtConn) (packet : Packet) (results : Nat → Option Errno) :
    sendCalls conn packet results = withResults conn (pieces chunkSize packet.build) results := by
  rw [sendCalls, executeLoop_eq_sendAll, sendAll_withResults, List.drop_zero]
  simp only [Nat.zero_add]

/-- A condition on any two calls is one on their numbers. -/
theorem pairwise_sendCalls (conn : Option BtConn) (packet : Packet)
    (results : Nat → Option Errno) {R : SendCall → SendCall → Prop}
    {P : Option Errno → Option Errno → Prop}
    (hP : ∀ call later : SendCall, R call later ↔ P call.err later.err) :
    (sendCalls conn packet results).Pairwise R ↔
      ∀ j k, j < k → k < chunkCount packet → P (results j) (results k) := by
  have hlength : (sendCalls conn packet results).length = chunkCount packet := by
    rw [sendCalls_eq, withResults, List.length_mapIdx, length_pieces]
    rfl
  have herr : ∀ k (hk : k < (sendCalls conn packet results).length),
      (sendCalls conn packet results)[k].err = results k := by
    intro k hk
    simp only [sendCalls_eq, withResults, List.getElem_mapIdx]
  rw [List.pairwise_iff_getElem]
  constructor
  · intro h j k hjk hk
    have hk' : k < (sendCalls conn packet results).length := hlength ▸ hk
    have hj' : j < (sendCalls conn packet results).length := Nat.lt_trans hjk hk'
    have hR := (hP _ _).mp (h j k hj' hk' hjk)
    rwa [herr j hj', herr k hk'] at hR
  · intro h j k hj hk hjk
    rw [hP, herr j hj, herr k hk]
    exact h j k hjk (hlength ▸ hk)

@[simp] theorem data_withResults (conn : Option BtConn) (ps : List (List UInt8))
    (results : Nat → Option Errno) : (withResults conn ps results).map SendCall.data = ps := by
  refine List.ext_getElem (by simp [withResults]) fun k hk hk' => ?_
  simp [withResults]

/-- Calls on one connection are the pieces with some results. -/
theorem exists_withResults {conn : Option BtConn} {calls : List SendCall}
    (h : ∀ call ∈ calls, call.conn = conn) :
    ∃ results, calls = withResults conn (calls.map SendCall.data) results := by
  refine ⟨fun k => (calls[k]?).bind SendCall.err, List.ext_getElem (by simp [withResults]) ?_⟩
  intro k hk hk'
  have hconn := h calls[k] (List.getElem_mem hk)
  simp only [withResults, List.getElem_mapIdx, List.getElem_map, List.getElem?_eq_getElem hk,
    Option.bind_some, ← hconn]

/-- If nothing is sent after a failed chunk, what was sent is a prefix. -/
theorem delivered_initial {conn : Option BtConn} {packet : Packet} {results : Nat → Option Errno}
    (h : (sendCalls conn packet results).Pairwise fun call later =>
      call.err ≠ none → later.err ≠ none) :
    delivered (sendCalls conn packet results) <+: packet.build := by
  have hdata : (sendCalls conn packet results).map SendCall.data =
      pieces chunkSize packet.build := by
    rw [sendCalls_eq, data_withResults]
  have hfirst := filter_initial (p := fun call : SendCall => call.err.isNone) (h.imp fun hab => by
    simpa [Option.isSome_iff_ne_none] using hab)
  have hflat := (hfirst.map SendCall.data).flatten
  rw [hdata, flatten_pieces (by decide)] at hflat
  exact hflat

/-- The sends of `execute` are those of some pattern of results. -/
theorem Scanner.execute_eq_sendCalls {s : Scanner} {slot : Slot} (h : s.conns.owner slot ≠ none)
    (packet : Packet) (turns : Nat → Turn) :
    ∃ results s', s.execute (UInt8.ofNat slot.val) packet false turns =
      (.sent (sendCalls (s.conns.data slot).conn packet results), s') := by
  obtain ⟨calls, s', hexecute, hdata, hconn⟩ := execute_calls h packet turns
  obtain ⟨results, hcalls⟩ := exists_withResults hconn
  refine ⟨results, s', ?_⟩
  rw [hexecute, sendCalls_eq, ← hdata, ← hcalls]

/-- **When a failed chunk leaves no hole.** -/
theorem noHole_iff (packet : Packet) :
    (∀ conn results,
      (NoHole packet (sendCalls conn packet results) ↔
        ∃ sent, ∀ k, k < chunkCount packet → (results k = none ↔ k < sent)) ∧
      (StopsAtFailure (sendCalls conn packet results) ↔
        ∀ k, k + 1 < chunkCount packet → results k = none)) ∧
    ∀ (s : Scanner) (slot : Slot) (turns : Nat → Turn), s.conns.owner slot ≠ none →
      ∃ results s', s.execute (UInt8.ofNat slot.val) packet false turns =
        (.sent (sendCalls (s.conns.data slot).conn packet results), s') := by
  refine ⟨fun conn results => ⟨?_, ?_⟩, fun s slot turns h =>
    Scanner.execute_eq_sendCalls h packet turns⟩
  · have hpairs := pairwise_sendCalls conn packet results
      (R := fun call later => call.err ≠ none → later.err ≠ none)
      (P := fun a b => a ≠ none → b ≠ none) fun _ _ => Iff.rfl
    rw [← first_iff (p := fun k => results k = none), ← hpairs]
    exact ⟨fun h => h.failed, fun h => ⟨delivered_initial h, h⟩⟩
  · have hpairs := pairwise_sendCalls conn packet results
      (R := fun call _ => call.err = none) (P := fun a _ => a = none) fun _ _ => Iff.rfl
    rw [StopsAtFailure, hpairs]
    constructor
    · exact fun h k hk => h k (k + 1) (Nat.lt_succ_self k) hk
    · exact fun h j k hjk hk => h j (by omega)

/-- The calls of a command of three chunks are those of a pattern. -/
theorem noHole_iff_three : ∃ s, Transition.run Scanner.step Scanner.new Bound.found = some s ∧
    ∃ results s', s.execute (UInt8.ofNat (0 : Slot).val) threeChunks false lateReport =
      (.sent (sendCalls (s.conns.data 0).conn threeChunks results), s') :=
  ⟨_, rfl, (noHole_iff threeChunks).2 _ 0 lateReport (by decide)⟩

/-- The second chunk times out, the third is sent: the robot gets the first and the third. -/
theorem timeout_leaves_hole :
    ¬ ∀ (es : List Scanner.Event) (s : Scanner) (slot : Slot) (packet : Packet) (turns : Nat → Turn)
      (calls : List SendCall) (s' : Scanner), Transition.run Scanner.step Scanner.new es = some s →
        s.execute (UInt8.ofNat slot.val) packet false turns = (.sent calls, s') →
          NoHole packet calls := by
  intro h
  obtain ⟨s, hs⟩ : ∃ s, Transition.run Scanner.step Scanner.new Bound.found = some s := ⟨_, rfl⟩
  have howner : s.conns.owner 0 ≠ none := by
    rw [← Option.some.inj hs]
    decide
  have hole := (h Bound.found s 0 threeChunks lateReport _ _ hs
    (Scanner.execute_eq_sendAll howner threeChunks lateReport)).delivered
  rw [← Option.some.inj hs] at hole
  exact absurd hole (by decide)

end NrfSpheros
