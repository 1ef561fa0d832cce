/-
  `controls/packet_collector.cpp`: cutting the stream of notifications into frames.

  `add_packet` appends the bytes of a notification to `received_data` one by one; at each end byte
  it parses what has been gathered, hands the packet to the callback and clears the vector.  Two
  things end a call early and leave the vector as it is: the "Very small packet" return and
  whatever `parse_response` throws.  The loop is an instance of `Theory.Chunked`: `addByte` is its
  body, a call is `addPacket`, and a `session` is one call a notification.

  An exception ends its call and the next notification is delivered by a new one; undefined
  behaviour ends the session, since nothing is known about what comes after it.

  Results: `session_safe_iff` (which buffers keep every parse in bounds) and `recovery_iff` (when a
  frame that follows a bad one is still delivered).  Both rest on `call_until_end`: between two
  end bytes the loop only gathers.
-/
import NrfSpheros.Theory.Chunked
import NrfSpheros.Controls.Codec

namespace NrfSpheros

open PacketEncoding

/-- Why an `add_packet` call ended before its notification did. -/
inductive Exit
  /-- `return` after "Very small packet". -/
  | smallPacket
  /-- `parse_response` did not return. -/
  | fault (f : Fault)
deriving DecidableEq, Repr

/-- Only undefined behaviour ends more than the call. -/
def Exit.fatal : Exit → Bool
  | .fault .outOfBounds => true
  | _ => false

/-- One call of `parse_response`: its argument and how it ended. -/
structure ParseCall where
  arg : List UInt8
  result : Except Fault Packet
deriving DecidableEq, Repr

namespace ParseCall

/-- A parse call is made on six bytes or more that end with the end byte, and its outcome is that
    of `parse_response`. -/
def Valid (call : ParseCall) : Prop :=
  6 ≤ call.arg.length ∧ (∃ xs, call.arg = xs ++ [end_]) ∧
    call.result = Packet.parseResponse call.arg

/-- `parse_response` returned a packet or threw; it did not leave its vectors. -/
def InBounds (call : ParseCall) : Prop :=
  (∃ q, call.result = .ok q) ∨ ∃ msg, call.result = .error (.runtimeError msg)

/-- In bounds is no fault. -/
theorem inBounds_iff (call : ParseCall) :
    call.InBounds ↔ call.result ≠ .error .outOfBounds := by
  rcases call with ⟨arg, (_ | msg) | q⟩ <;> simp [InBounds]

theorem Valid.inBounds_iff {call : ParseCall} (h : call.Valid) :
    call.InBounds ↔ Packet.FrameSafe call.arg := by
  rw [ParseCall.inBounds_iff, h.2.2]
  exact Packet.parse_safe_iff (Nat.le_trans (by decide) h.1)

end ParseCall

/-- The packets handed to the callback: one for each call of `parse_response` that returned. -/
def callbacks (calls : List ParseCall) : List Packet :=
  calls.filterMap fun call => call.result.toOption

/-- The arguments of one `add_packet` call; its `len` is a `uint16_t`. -/
structure Chunk where
  data : List UInt8
  len_le : data.length ≤ 65535

/-- The stream that a list of notifications carries. -/
def stream (chunks : List Chunk) : List UInt8 := (chunks.map Chunk.data).flatten

/-- The bytes received since the last packet. -/
structure PacketCollector where
  receivedData : List UInt8
deriving DecidableEq, Repr

namespace PacketCollector

/-- `PacketCollector::PacketCollector`. -/
def new : PacketCollector := ⟨[]⟩

/-- One round of the loop of `add_packet`. -/
def addByte (c : PacketCollector) (b : UInt8) :
    Chunked.Outcome PacketCollector ParseCall Exit :=
  let receivedData := c.receivedData ++ [b]
  if b = end_ then
    if receivedData.length < 6 then ⟨⟨receivedData⟩, [], some .smallPacket⟩
    else
      match Packet.parseResponse receivedData with
      | .error f => ⟨⟨receivedData⟩, [⟨receivedData, .error f⟩], some (.fault f)⟩
      -- `callback(packet); received_data.clear();`
      | .ok packet => ⟨⟨[]⟩, [⟨receivedData, .ok packet⟩], none⟩
  else ⟨⟨receivedData⟩, [], none⟩

/-- `PacketCollector::add_packet`: byte by byte. -/
def addPacket (c : PacketCollector) (chunk : Chunk) :
    Chunked.Outcome PacketCollector ParseCall Exit :=
  Chunked.call addByte c chunk.data

/-- Notifications delivered one after the other. -/
def session (c : PacketCollector) (chunks : List Chunk) :
    Chunked.Outcome PacketCollector ParseCall Exit :=
  Chunked.calls addByte Exit.fatal c (chunks.map Chunk.data)

/-! ## What one round does -/

/-- A byte inside a frame. -/
theorem addByte_of_ne {b : UInt8} (hb : b ≠ end_) (c : PacketCollector) :
    addByte c b = ⟨⟨c.receivedData ++ [b]⟩, [], none⟩ := by
  simp only [addByte, if_neg hb]

/-- An end byte after too few: the bytes are kept. -/
theorem addByte_end_small {c : PacketCollector} (h : c.receivedData.length < 5) :
    addByte c end_ = ⟨⟨c.receivedData ++ [end_]⟩, [], some .smallPacket⟩ := by
  have hlen : (c.receivedData ++ [end_]).length < 6 := by
    rw [List.length_append, List.length_singleton]
    omega
  simp only [addByte, if_true, if_pos hlen]

/-- A frame that is not parsed: the bytes are kept. -/
theorem addByte_end_error {c : PacketCollector} {f : Fault} (h : 5 ≤ c.receivedData.length)
    (hp : Packet.parseResponse (c.receivedData ++ [end_]) = .error f) :
    addByte c end_ = ⟨⟨c.receivedData ++ [end_]⟩, [⟨c.receivedData ++ [end_], .error f⟩],
      some (.fault f)⟩ := by
  have hlen : ¬ (c.receivedData ++ [end_]).length < 6 := by simpa using h
  simp only [addByte, if_true, if_neg hlen, hp]

/-- A frame that is: the collector is empty again. -/
theorem addByte_end_ok {c : PacketCollector} {q : Packet} (h : 5 ≤ c.receivedData.length)
    (hp : Packet.parseResponse (c.receivedData ++ [end_]) = .ok q) :
    addByte c end_ = ⟨new, [⟨c.receivedData ++ [end_], .ok q⟩], none⟩ := by
  have hlen : ¬ (c.receivedData ++ [end_]).length < 6 := by simpa using h
  simp only [addByte, if_true, if_neg hlen, hp, new]

/-- **Between two end bytes the loop only gathers.** -/
theorem call_until_end {xs : List UInt8} (hxs : end_ ∉ xs) (c : PacketCollector) :
    Chunked.call addByte c xs = ⟨⟨c.receivedData ++ xs⟩, [], none⟩ := by
  induction xs generalizing c with
  | nil => simp
  | cons b xs ih =>
    rw [List.mem_cons, not_or] at hxs
    rw [Chunked.call_cons_of_stay (addByte_of_ne (Ne.symm hxs.1) c), ih hxs.2]
    simp

/-- A run of bytes up to an end byte is decided by the round at its end byte. -/
theorem call_frame {xs : List UInt8} (hxs : end_ ∉ xs) (c : PacketCollector) :
    Chunked.call addByte c (xs ++ [end_]) =
      Chunked.call addByte ⟨c.receivedData ++ xs⟩ [end_] := by
  have h := call_until_end hxs c
  rw [Chunked.call_append (by rw [h]), h]
  simp

/-- Cutting does not matter on a stream that never makes the loop leave. -/
theorem session_eq_call {chunks : List Chunk}
    (h : (Chunked.call addByte new (stream chunks)).exit = none) :
    session new chunks = Chunked.call addByte new (stream chunks) :=
  Chunked.calls_eq_call Exit.fatal h

/-! ## Every parse of a session -/

theorem addByte_calls (c : PacketCollector) (b : UInt8) :
    ∀ call ∈ (addByte c b).out, ParseCall.Valid call := by
  by_cases hb : b = end_
  · subst hb
    by_cases hlen : c.receivedData.length < 5
    · rw [addByte_end_small hlen]
      exact fun call h => absurd h List.not_mem_nil
    · have h5 : 5 ≤ c.receivedData.length := by omega
      have h6 : 6 ≤ (c.receivedData ++ [end_]).length := by simpa using h5
      cases hp : Packet.parseResponse (c.receivedData ++ [end_]) with
      | error f =>
        rw [addByte_end_error h5 hp]
        intro call h
        rw [List.mem_singleton.mp h]
        exact ⟨h6, ⟨_, rfl⟩, hp.symm⟩
      | ok q =>
        rw [addByte_end_ok h5 hp]
        intro call h
        rw [List.mem_singleton.mp h]
        exact ⟨h6, ⟨_, rfl⟩, hp.symm⟩
  · rw [addByte_of_ne hb]
    exact fun call h => absurd h List.not_mem_nil

/-- Every call of `parse_response` is a call on the bytes it was given. -/
theorem session_calls (c : PacketCollector) (chunks : List Chunk) :
    ∀ call ∈ (session c chunks).out, ParseCall.Valid call :=
  (Chunked.calls_invariant (I := fun _ => True) (J := ParseCall.Valid)
    (fun s a _ => ⟨trivial, addByte_calls s a⟩) trivial).2

/-- **Staying in bounds on hostile input.**  Every parse of a session returns or throws exactly
    when each buffer handed to `parse_response` is `FrameSafe`. -/
theorem session_safe_iff (chunks : List Chunk) :
    (∀ call ∈ (session new chunks).out, call.InBounds) ↔
      ∀ call ∈ (session new chunks).out, Packet.FrameSafe call.arg := by
  constructor
  · exact fun h call hc => (session_calls _ _ call hc).inBounds_iff.mp (h call hc)
  · exact fun h call hc => (session_calls _ _ call hc).inBounds_iff.mpr (h call hc)

/-- One notification whose escape byte is followed by no code: the unescaped vector is empty and
    its last byte is read. -/
theorem session_unsafe :
    ¬ ∀ call ∈ (session new [⟨[0x8D, 0xAB, 0x01, 0x01, 0x01, 0xD8], by decide⟩]).out,
      call.InBounds := by
  intro h
  have hcall := h ⟨[0x8D, 0xAB, 0x01, 0x01, 0x01, 0xD8], .error .outOfBounds⟩ (by decide)
  exact (ParseCall.inBounds_iff _).mp hcall rfl

/-! ## Delivery -/

/-- The end byte is the last byte of a frame and occurs nowhere else in it. -/
theorem not_mem_build (p : Packet) : end_ ∉ start :: spheroStuffing.stuff p.unescaped := by
  rw [List.mem_cons, not_or]
  exact ⟨by decide, Stuffing.not_mem_stuff (by decide) (by decide) _⟩

theorem call_build_eq (p : Packet) (c : PacketCollector) :
    Chunked.call addByte c p.build =
      Chunked.call addByte
        ⟨c.receivedData ++ start :: spheroStuffing.stuff p.unescaped⟩ [end_] := by
  rw [Packet.build_eq, ← List.cons_append]
  exact call_frame (not_mem_build p) c

theorem length_before_end (p : Packet) (rd : List UInt8) :
    5 ≤ (rd ++ start :: spheroStuffing.stuff p.unescaped).length := by
  have hlen := p.build_length
  rw [Packet.build_eq, List.length_cons, List.length_append, List.length_singleton] at hlen
  rw [List.length_append, List.length_cons]
  omega

/-- **A frame is delivered** when nothing is left over from before it. -/
theorem call_build (p : Packet) :
    Chunked.call addByte new p.build = ⟨new, [⟨p.build, .ok p.norm⟩], none⟩ := by
  have hparse : Packet.parseResponse
      (new.receivedData ++ start :: spheroStuffing.stuff p.unescaped ++ [end_]) = .ok p.norm := by
    rw [← Packet.parse_build p, Packet.build_eq]
    rfl
  rw [call_build_eq, Chunked.call_cons_of_stay (addByte_end_ok (length_before_end p _) hparse)]
  simp [Packet.build_eq, new, Chunked.Outcome.after]

/-- A frame is not delivered when something is left over from before it: what is parsed then
    is longer than the frame. -/
theorem call_build_of_leftover {c : PacketCollector} (hc : c.receivedData ≠ []) (p : Packet) :
    callbacks (Chunked.call addByte c p.build).out ≠ [p.norm] := by
  rw [call_build_eq]
  cases hp : Packet.parseResponse
      (c.receivedData ++ start :: spheroStuffing.stuff p.unescaped ++ [end_]) with
  | error f =>
    rw [Chunked.call_cons_of_leave (addByte_end_error (length_before_end p _) hp)]
    simp [callbacks, Except.toOption]
  | ok q =>
    rw [Chunked.call_cons_of_stay (addByte_end_ok (length_before_end p _) hp)]
    intro h
    have hq : q = p.norm := by simpa [callbacks, Except.toOption] using h
    obtain ⟨sop, rd, hrd⟩ := List.exists_cons_of_ne_nil hc
    rw [hrd, List.cons_append, List.cons_append] at hp
    have hsplit := (Packet.parse_eq_ok hp).2.2.2
    -- the start byte of the frame stands for itself, so the frame's own content is a proper
    -- suffix of what is parsed
    obtain ⟨u₁, u₂, hu, -, h₂⟩ := hsplit.around (by decide) (by decide)
    have hu₂ := h₂.unique (Stuffing.splits_stuff p.unescaped)
    have hlen := congrArg List.length hu
    rw [hq, Packet.unescaped_norm, hu₂, List.length_append, List.length_cons] at hlen
    omega

/-- What the next call does with the frame of `p`: the session is still running, the callback is
    called with `p` and nothing else, and nothing is left over. -/
def Recovers (chunks : List Chunk) (p : Packet) (h : p.build.length ≤ 65535) : Prop :=
  (session new chunks).exit = none ∧
    callbacks (addPacket (session new chunks).state ⟨p.build, h⟩).out = [p.norm] ∧
    (addPacket (session new chunks).state ⟨p.build, h⟩).state = new

/-- A packet is delivered exactly by a collector that is empty and has not left. -/
theorem recovers_iff_empty (chunks : List Chunk) (p : Packet) (h : p.build.length ≤ 65535) :
    Recovers chunks p h ↔
      (session new chunks).exit = none ∧ (session new chunks).state.receivedData = [] := by
  constructor
  · rintro ⟨hexit, hout, -⟩
    refine ⟨hexit, ?_⟩
    by_contra hne
    exact call_build_of_leftover hne p hout
  · rintro ⟨hexit, hstate⟩
    have hnew : (session new chunks).state = new := congrArg PacketCollector.mk hstate
    rw [Recovers, hnew, addPacket, call_build]
    exact ⟨hexit, rfl, rfl⟩

/-- A frame as the collector cuts it: bytes up to and including the next end byte. -/
def IsFrame (f : List UInt8) : Prop := ∃ xs, f = xs ++ [end_] ∧ end_ ∉ xs

/-- A frame the collector does not stumble over. -/
def Accepted (f : List UInt8) : Prop := 6 ≤ f.length ∧ ∃ q, Packet.parseResponse f = .ok q

/-- A frame that is parsed leaves the collector empty. -/
theorem call_accepted {f : List UInt8} (hf : IsFrame f) (ha : Accepted f) :
    ∃ calls, Chunked.call addByte new f = ⟨new, calls, none⟩ := by
  obtain ⟨xs, rfl, hxs⟩ := hf
  obtain ⟨hlen, q, hq⟩ := ha
  rw [List.length_append, List.length_singleton] at hlen
  have hround := addByte_end_ok (c := ⟨new.receivedData ++ xs⟩) (q := q)
    (Nat.le_of_succ_le_succ hlen) hq
  exact ⟨_, by rw [call_frame hxs, Chunked.call_cons_of_stay hround]; rfl⟩

/-- A frame that is not accepted stays in `received_data`. -/
theorem call_not_accepted {f : List UInt8} (hf : IsFrame f) (ha : ¬ Accepted f) :
    (Chunked.call addByte new f).state.receivedData = f := by
  obtain ⟨xs, rfl, hxs⟩ := hf
  rw [call_frame hxs]
  by_cases hlen : xs.length < 5
  · rw [Chunked.call_cons_of_leave (addByte_end_small (c := ⟨new.receivedData ++ xs⟩) hlen)]
    rfl
  · have h5 : 5 ≤ xs.length := by omega
    cases hp : Packet.parseResponse (xs ++ [end_]) with
    | ok q => exact absurd ⟨by simpa using h5, q, hp⟩ ha
    | error e =>
      rw [Chunked.call_cons_of_leave (addByte_end_error (c := ⟨new.receivedData ++ xs⟩) h5 hp)]
      rfl

theorem call_accepted_frames {fs : List (List UInt8)} (hfs : ∀ g ∈ fs, IsFrame g ∧ Accepted g) :
    ∃ calls, Chunked.call addByte new fs.flatten = ⟨new, calls, none⟩ := by
  induction fs with
  | nil => exact ⟨[], rfl⟩
  | cons f fs ih =>
    obtain ⟨hf, ha⟩ := hfs f (List.mem_cons_self ..)
    obtain ⟨calls, hcalls⟩ := call_accepted hf ha
    obtain ⟨calls', hcalls'⟩ := ih fun g hg => hfs g (List.mem_cons_of_mem f hg)
    refine ⟨calls ++ calls', ?_⟩
    rw [List.flatten_cons, Chunked.call_append (by rw [hcalls]), hcalls, hcalls']
    rfl

/-- After accepted frames the session is where it began; after one more frame, which is not
    accepted, that frame is left over. -/
theorem session_frames {chunks : List Chunk} {fs : List (List UInt8)} {f : List UInt8}
    (hs : stream chunks = fs.flatten ++ f) (hfs : ∀ g ∈ fs, IsFrame g ∧ Accepted g)
    (hf : IsFrame f) :
    (Accepted f → (session new chunks).exit = none ∧ (session new chunks).state = new) ∧
      (¬ Accepted f → (session new chunks).state.receivedData = f) := by
  obtain ⟨calls, hcalls⟩ := call_accepted_frames hfs
  have hcont : ∀ ys, Chunked.call addByte new (fs.flatten ++ ys) =
      (Chunked.call addByte new ys).after calls := by
    intro ys
    rw [Chunked.call_append (by rw [hcalls]), hcalls]
  constructor
  · intro ha
    obtain ⟨calls', hcalls'⟩ := call_accepted hf ha
    have hall : Chunked.call addByte new (stream chunks) = ⟨new, calls ++ calls', none⟩ := by
      rw [hs, hcont, hcalls']
      rfl
    rw [session_eq_call (by rw [hall]), hall]
    exact ⟨rfl, rfl⟩
  · intro ha
    obtain ⟨xs, hfx, hxs⟩ := hf
    have hstream : ((chunks.map Chunk.data)).flatten = (fs.flatten ++ xs) ++ [end_] := by
      rw [List.append_assoc, ← hfx]
      exact hs
    -- the loop stays up to the end byte of `f`
    have hstay : (Chunked.call addByte new (fs.flatten ++ xs)).exit = none := by
      rw [hcont, call_until_end hxs]
      rfl
    show (Chunked.calls addByte Exit.fatal new _).state.receivedData = f
    rw [(Chunked.calls_flatten_concat Exit.fatal hstream hstay).1, List.append_assoc, ← hfx, hcont]
    exact call_not_accepted ⟨xs, hfx, hxs⟩ ha

/-- **Recovery after a bad frame.**  A frame is delivered exactly when nothing is left over from
    the bytes before it; and when all frames before the last one were accepted, nothing is left
    over exactly when the last one was accepted too. -/
theorem recovery_iff (chunks : List Chunk) (p : Packet) (h : p.build.length ≤ 65535) :
    (Recovers chunks p h ↔
      (session new chunks).exit = none ∧ (session new chunks).state.receivedData = []) ∧
    ∀ (fs : List (List UInt8)) (f : List UInt8), stream chunks = fs.flatten ++ f →
      (∀ g ∈ fs, IsFrame g ∧ Accepted g) → IsFrame f → (Recovers chunks p h ↔ Accepted f) := by
  refine ⟨recovers_iff_empty chunks p h, fun fs f hs hfs hf => ?_⟩
  obtain ⟨hgood, hbad⟩ := session_frames hs hfs hf
  rw [recovers_iff_empty]
  constructor
  · rintro ⟨-, hempty⟩
    by_contra ha
    rw [hbad ha] at hempty
    obtain ⟨xs, hfx, -⟩ := hf
    rw [hfx] at hempty
    exact absurd hempty (by simp)
  · intro ha
    obtain ⟨hexit, hstate⟩ := hgood ha
    exact ⟨hexit, by rw [hstate]; rfl⟩

/-- A `wake` packet, as `Power::wake` makes it first. -/
def wakePacket : Packet :=
  { flags := ⟨0x0A⟩, did := 19, cid := 13, seq := 0, tid := 0, sid := 0,
    err := PacketError.success, data := [] }

theorem recovery_iff_wake :
    (Recovers [⟨wakePacket.build, by decide⟩] wakePacket (by decide) ↔
      (session new [⟨wakePacket.build, by decide⟩]).exit = none ∧
        (session new [⟨wakePacket.build, by decide⟩]).state.receivedData = []) ∧
    ∀ (fs : List (List UInt8)) (f : List UInt8),
      stream [⟨wakePacket.build, by decide⟩] = fs.flatten ++ f →
      (∀ g ∈ fs, IsFrame g ∧ Accepted g) → IsFrame f →
      (Recovers [⟨wakePacket.build, by decide⟩] wakePacket (by decide) ↔ Accepted f) :=
  recovery_iff [⟨wakePacket.build, by decide⟩] wakePacket (by decide)

/-- A stray end byte is never cleared, and the frame after it is refused. -/
theorem not_recovers_stray_end :
    stream [⟨[0xD8], by decide⟩] = [] ++ [end_] ∧
      ¬ Recovers [⟨[0xD8], by decide⟩] wakePacket (by decide) :=
  ⟨rfl, fun h => absurd h.2.1 (by decide)⟩

end PacketCollector

end NrfSpheros
