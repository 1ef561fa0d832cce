/-
  When the way a byte stream is cut into notifications does not matter.

  A call that ends early, on a small packet or on an exception, drops what follows in its
  notification, so cutting right after the end byte keeps bytes that cutting later loses.

  1. **The first bad frame** (`exists_first_bad`) — a stream is accepted frames and a rest without an
     end byte, or accepted frames, a frame that is not accepted, and anything.
  2. **Regular streams** (`session_of_regular`) — a bad frame is the last thing in the stream, and not
     one that is parsed out of bounds.  Nothing is dropped then, however the stream is cut.
  3. **Conservation** (`singles_conserve`) — a session of single bytes drops nothing either: the frames
     it parsed and what is left over are together all it was given.
  4. **Otherwise** (`chunkIndependent_iff`) — take the byte after a bad frame off by putting it into the
     notification of the end byte.  If the packets and what is left over were the same with it and
     without it, the frames parsed would stand for the same bytes, and a body and its tail do not
     (`Stuffing.Splits.not_tail`).
-/
import NrfSpheros.Controls.Acceptance
import NrfSpheros.Controls.PacketCollector

namespace NrfSpheros

open PacketEncoding

namespace PacketCollector

/-- However the stream is cut, the session runs to its end, and the packets and what is left over
    are the same. -/
def ChunkIndependent (s : List UInt8) : Prop :=
  ∀ cs cs' : List Chunk, stream cs = s → stream cs' = s →
    (session new cs).exit = none ∧
      callbacks (session new cs).out = callbacks (session new cs').out ∧
      (session new cs).state.receivedData = (session new cs').state.receivedData

/-- Each frame of the stream is accepted; one that ends the stream may instead be too small or make
    `parse_response` throw. -/
def Regular (s : List UInt8) : Prop :=
  ∀ (fs : List (List UInt8)) (f rest : List UInt8), s = fs.flatten ++ (f ++ rest) →
    (∀ g ∈ fs, IsFrame g) → IsFrame f →
      Accepted f ∨ (rest = [] ∧ (6 ≤ f.length → Packet.parseResponse f ≠ .error .outOfBounds))

/-! ## The first bad frame -/

/-- A stream is frames and a rest without an end byte. -/
theorem exists_frames (s : List UInt8) :
    ∃ fs rest, s = List.flatten fs ++ rest ∧ (∀ g ∈ fs, IsFrame g) ∧ end_ ∉ rest := by
  induction s with
  | nil => exact ⟨[], [], rfl, fun g hg => absurd hg List.not_mem_nil, List.not_mem_nil⟩
  | cons b s ih =>
    obtain ⟨fs, rest, rfl, hfs, hrest⟩ := ih
    by_cases hb : b = end_
    · subst hb
      refine ⟨[end_] :: fs, rest, rfl, ?_, hrest⟩
      rintro g (_ | ⟨_, hg⟩)
      · exact ⟨[], rfl, List.not_mem_nil⟩
      · exact hfs g hg
    · cases fs with
      | nil =>
        refine ⟨[], b :: rest, rfl, fun g hg => absurd hg List.not_mem_nil, ?_⟩
        rw [List.mem_cons, not_or]
        exact ⟨Ne.symm hb, hrest⟩
      | cons f fs =>
        obtain ⟨xs, hf, hxs⟩ := hfs f List.mem_cons_self
        refine ⟨(b :: f) :: fs, rest, rfl, ?_, hrest⟩
        rintro g (_ | ⟨_, hg⟩)
        · refine ⟨b :: xs, by rw [hf]; rfl, ?_⟩
          rw [List.mem_cons, not_or]
          exact ⟨Ne.symm hb, hxs⟩
        · exact hfs g (List.mem_cons_of_mem f hg)

/-- Frames are all accepted, or there is a first one that is not. -/
theorem accepted_or_first_bad (fs : List (List UInt8)) :
    (∀ g ∈ fs, Accepted g) ∨
      ∃ as f bs, fs = as ++ f :: bs ∧ (∀ g ∈ as, Accepted g) ∧ ¬ Accepted f := by
  induction fs with
  | nil => exact Or.inl fun g hg => absurd hg List.not_mem_nil
  | cons f fs ih =>
    by_cases hf : Accepted f
    · rcases ih with hall | ⟨as, g, bs, rfl, has, hg⟩
      · exact Or.inl (List.forall_mem_cons.mpr ⟨hf, hall⟩)
      · exact Or.inr ⟨f :: as, g, bs, rfl, List.forall_mem_cons.mpr ⟨hf, has⟩, hg⟩
    · exact Or.inr ⟨[], f, fs, rfl, fun g hg => absurd hg List.not_mem_nil, hf⟩

theorem exists_first_bad (s : List UInt8) :
    (∃ fs rest, s = List.flatten fs ++ rest ∧ (∀ g ∈ fs, IsFrame g ∧ Accepted g) ∧ end_ ∉ rest) ∨
      ∃ fs f rest, s = List.flatten fs ++ (f ++ rest) ∧ (∀ g ∈ fs, IsFrame g ∧ Accepted g) ∧
        IsFrame f ∧ ¬ Accepted f := by
  obtain ⟨fs, rest, rfl, hfs, hrest⟩ := exists_frames s
  rcases accepted_or_first_bad fs with hall | ⟨as, f, bs, rfl, has, hf⟩
  · exact Or.inl ⟨fs, rest, rfl, fun g hg => ⟨hfs g hg, hall g hg⟩, hrest⟩
  · refine Or.inr ⟨as, f, bs.flatten ++ rest, by simp, fun g hg => ⟨?_, has g hg⟩, ?_, hf⟩
    · exact hfs g (List.mem_append_left _ hg)
    · exact hfs f (List.mem_append_right _ List.mem_cons_self)

/-- A frame that is not accepted ends its call; it ends the session if it was parsed out of
    bounds. -/
theorem exit_of_not_accepted {f : List UInt8} (hf : IsFrame f) (ha : ¬ Accepted f) :
    ∃ e, (Chunked.call addByte new f).exit = some e ∧
      (e.fatal = true ↔ 6 ≤ f.length ∧ Packet.parseResponse f = .error .outOfBounds) := by
  obtain ⟨xs, rfl, hxs⟩ := hf
  rw [call_frame hxs, Chunked.call_singleton, List.length_append, List.length_singleton]
  by_cases hlen : xs.length < 5
  · rw [addByte_end_small (c := ⟨new.receivedData ++ xs⟩) hlen]
    refine ⟨.smallPacket, rfl, iff_of_false (by simp [Exit.fatal]) ?_⟩
    omega
  · have h5 : 5 ≤ xs.length := by omega
    cases hp : Packet.parseResponse (xs ++ [end_]) with
    | ok q => exact absurd ⟨by simpa using h5, q, hp⟩ ha
    | error e =>
      rw [addByte_end_error (c := ⟨new.receivedData ++ xs⟩) h5 hp]
      refine ⟨.fault e, rfl, ?_⟩
      cases e with
      | runtimeError msg => exact iff_of_false (by simp [Exit.fatal]) (by simp)
      | outOfBounds => exact iff_of_true rfl ⟨Nat.succ_le_succ h5, rfl⟩

/-! ## Regular streams -/

/-- **However a regular stream is cut, its session is the one call on the whole of it.** -/
theorem session_of_regular {s : List UInt8} (hs : Regular s) {cs : List Chunk}
    (hcs : stream cs = s) :
    (session new cs).exit = none ∧ (session new cs).out = (Chunked.call addByte new s).out ∧
      (session new cs).state = (Chunked.call addByte new s).state := by
  rcases exists_first_bad s with ⟨fs, rest, rfl, hfs, hrest⟩ | ⟨fs, f, rest, rfl, hfs, hf, ha⟩
  · obtain ⟨calls, hcalls⟩ := call_accepted_frames hfs
    have hstay : (Chunked.call addByte new (fs.flatten ++ rest)).exit = none := by
      rw [Chunked.call_append (by rw [hcalls]), hcalls, call_until_end hrest]
      rfl
    rw [← hcs] at hstay ⊢
    rw [session_eq_call hstay]
    exact ⟨hstay, rfl, rfl⟩
  · -- a frame that is not accepted is the end of the stream, and not fatal
    obtain ⟨hrest, hbounds⟩ := (hs fs f rest rfl (fun g hg => (hfs g hg).1) hf).resolve_left ha
    obtain ⟨e, hexit, hfatal⟩ := exit_of_not_accepted hf ha
    obtain ⟨xs, hfx, hxs⟩ := id hf
    obtain ⟨calls, hcalls⟩ := call_accepted_frames hfs
    have hstream : (cs.map Chunk.data).flatten = (fs.flatten ++ xs) ++ [end_] := by
      rw [List.append_assoc, ← hfx, ← List.append_nil f, ← hrest]
      exact hcs
    have hstay : (Chunked.call addByte new (fs.flatten ++ xs)).exit = none := by
      rw [Chunked.call_append (by rw [hcalls]), hcalls, call_until_end hxs]
      rfl
    have hwhole : Chunked.call addByte new ((fs.flatten ++ xs) ++ [end_]) =
        (Chunked.call addByte new f).after calls := by
      rw [List.append_assoc, ← hfx, Chunked.call_append (by rw [hcalls]), hcalls]
    obtain ⟨hstate, hout, hend⟩ := Chunked.calls_flatten_concat Exit.fatal hstream hstay
    have hsame : fs.flatten ++ (f ++ rest) = (fs.flatten ++ xs) ++ [end_] := by
      rw [hrest, List.append_nil, hfx, List.append_assoc]
    rw [hsame]
    refine ⟨?_, hout, hstate⟩
    have hnot : ¬ e.fatal = true := fun h => hbounds (hfatal.mp h).1 (hfatal.mp h).2
    show (Chunked.calls addByte Exit.fatal new _).exit = none
    rw [hend, hwhole, Chunked.Outcome.after_exit, hexit]
    exact if_neg hnot

/-! ## Conservation -/

/-- A notification of one byte. -/
def single (b : UInt8) : Chunk := ⟨[b], by simp⟩

theorem stream_singles (xs : List UInt8) : stream (xs.map single) = xs := by
  induction xs with
  | nil => rfl
  | cons b xs ih =>
    show b :: stream (xs.map single) = b :: xs
    rw [ih]

/-- The frames that were parsed into these packets. -/
def ParsedTo (fs : List (List UInt8)) (packets : List Packet) : Prop :=
  fs.map Packet.parseResponse = packets.map .ok

/-- Nothing of `before`, what was there, and `xs`, what came, is dropped: it was parsed or is left
    over.  What is left over after a frame came after its first byte. -/
def Conserves (before xs : List UInt8) (r : Chunked.Outcome PacketCollector ParseCall Exit) : Prop :=
  ∃ fs, ParsedTo fs (callbacks r.out) ∧ before ++ xs = fs.flatten ++ r.state.receivedData ∧
    (fs ≠ [] → r.state.receivedData.length < xs.length)

theorem callbacks_append (l l' : List ParseCall) :
    callbacks (l ++ l') = callbacks l ++ callbacks l' :=
  List.filterMap_append

/-- A byte that is gathered. -/
theorem conserves_gather {rd xs : List UInt8} {b : UInt8} {o : List ParseCall}
    {r : Chunked.Outcome PacketCollector ParseCall Exit} (h : Conserves (rd ++ [b]) xs r)
    (ho : callbacks o = []) : Conserves rd (b :: xs) (r.after o) := by
  obtain ⟨fs, hfs, hbytes, hless⟩ := h
  refine ⟨fs, ?_, ?_, fun hne => Nat.lt_succ_of_lt (hless hne)⟩
  · rw [Chunked.Outcome.after_out, callbacks_append, ho, List.nil_append]
    exact hfs
  · rw [List.append_assoc] at hbytes
    exact hbytes

/-- A byte that completes a frame. -/
theorem conserves_parse {rd xs : List UInt8} {b : UInt8} {q : Packet}
    {r : Chunked.Outcome PacketCollector ParseCall Exit} (h : Conserves [] xs r)
    (hq : Packet.parseResponse (rd ++ [b]) = .ok q) :
    Conserves rd (b :: xs) (r.after [⟨rd ++ [b], .ok q⟩]) := by
  obtain ⟨fs, hfs, hbytes, -⟩ := h
  refine ⟨(rd ++ [b]) :: fs, ?_, ?_, fun _ => ?_⟩
  · show Packet.parseResponse (rd ++ [b]) :: fs.map Packet.parseResponse = _
    rw [hq, show fs.map Packet.parseResponse = _ from hfs]
    rfl
  · rw [List.flatten_cons, List.append_assoc, Chunked.Outcome.after_state, ← hbytes]
    simp
  · have hlength := congrArg List.length hbytes
    rw [List.nil_append, List.length_append] at hlength
    rw [Chunked.Outcome.after_state, List.length_cons]
    omega

/-- **Nothing is dropped byte by byte.** -/
theorem singles_conserve {xs : List UInt8} {c : PacketCollector}
    (hexit : (session c (xs.map single)).exit = none) :
    Conserves c.receivedData xs (session c (xs.map single)) := by
  induction xs generalizing c with
  | nil => exact ⟨[], rfl, by simp [session, Chunked.calls], fun h => absurd rfl h⟩
  | cons b xs ih =>
    have hround : session c ((b :: xs).map single) =
        if (addByte c b).exit.any Exit.fatal then addByte c b
        else (session (addByte c b).state (xs.map single)).after (addByte c b).out := by
      simp only [session, List.map_cons, Chunked.calls, single, Chunked.call_singleton]
    have hstay : ¬ (addByte c b).exit.any Exit.fatal = true := by
      intro hfatal
      rw [hround, if_pos hfatal] at hexit
      rw [hexit] at hfatal
      cases hfatal
    rw [hround, if_neg hstay] at hexit ⊢
    have hrest := ih hexit
    -- only an end byte hands the collected bytes on
    by_cases hb : b = end_
    · subst hb
      by_cases hlen : c.receivedData.length < 5
      · rw [addByte_end_small hlen] at hrest ⊢
        exact conserves_gather hrest rfl
      · have h5 : 5 ≤ c.receivedData.length := by omega
        cases hp : Packet.parseResponse (c.receivedData ++ [end_]) with
        | error e =>
          rw [addByte_end_error h5 hp] at hrest ⊢
          exact conserves_gather hrest rfl
        | ok q =>
          rw [addByte_end_ok h5 hp] at hrest ⊢
          exact conserves_parse hrest hp
    · rw [addByte_of_ne hb] at hrest ⊢
      exact conserves_gather hrest rfl

/-! ## Streams that are not regular -/

/-- A parsed frame stands for the bytes of its packet between two delimiters. -/
theorem splits_of_parse {f : List UInt8} {q : Packet} (h : Packet.parseResponse f = .ok q) :
    spheroStuffing.Splits f (start :: (q.unescaped ++ [end_])) := by
  obtain ⟨sop, body, eop, rfl⟩ := Packet.exists_delimiters (Packet.length_of_parse_eq_ok h)
  obtain ⟨rfl, rfl, -, hsplit⟩ := Packet.parse_eq_ok h
  exact .plain (by decide) (hsplit.append (.plain (by decide) .nil))

theorem splits_of_parsedTo {packets : List Packet} : ∀ {fs : List (List UInt8)},
    ParsedTo fs packets → spheroStuffing.Splits fs.flatten
      (packets.flatMap fun q => start :: (q.unescaped ++ [end_])) := by
  induction packets with
  | nil =>
    intro fs h
    rw [List.map_eq_nil_iff.mp h]
    exact .nil
  | cons q packets ih =>
    intro fs h
    cases fs with
    | nil => cases h
    | cons f fs =>
      obtain ⟨hf, hfs⟩ := List.cons.inj h
      rw [List.flatten_cons, List.flatMap_cons]
      exact (splits_of_parse hf).append (ih hfs)

/-- **A byte after an end byte shows**: with it and without it, two sessions that drop nothing do not
    end alike. -/
theorem not_alike {g y : List UInt8} {b : UInt8}
    {r r' : Chunked.Outcome PacketCollector ParseCall Exit}
    (h : Conserves (g ++ [end_]) (b :: y) r) (h' : Conserves (g ++ [end_]) y r')
    (hout : callbacks r.out = callbacks r'.out)
    (hleft : r.state.receivedData = r'.state.receivedData) : False := by
  obtain ⟨fs, hfs, hbytes, hless⟩ := h
  obtain ⟨fs', hfs', hbytes', -⟩ := h'
  rw [← hout] at hfs'
  rw [← hleft] at hbytes'
  cases hcount : callbacks r.out with
  | nil =>
    -- nothing was parsed, so what is left over is all there was, with one byte more or less
    rw [hcount] at hfs hfs'
    rw [List.map_eq_nil_iff.mp hfs] at hbytes
    rw [List.map_eq_nil_iff.mp hfs', ← hbytes] at hbytes'
    have hlength := congrArg List.length hbytes'
    simp at hlength
  | cons q packets =>
    have hne : fs ≠ [] := by
      rintro rfl
      rw [hcount] at hfs
      cases hfs
    -- what is left over is the end of `y`
    have hsuffix : r.state.receivedData <:+ y :=
      List.suffix_of_suffix_length_le ⟨fs'.flatten, hbytes'.symm⟩ ⟨g ++ [end_], rfl⟩
        (Nat.le_of_lt_succ (hless hne))
    obtain ⟨y', hy⟩ := hsuffix
    rw [← hy] at hbytes hbytes'
    have hparsed : g ++ end_ :: (b :: y') = fs.flatten := by
      refine List.append_cancel_right (?_ : _ ++ r.state.receivedData = _)
      rw [← hbytes]
      simp
    have hparsed' : g ++ end_ :: y' = fs'.flatten := by
      refine List.append_cancel_right (?_ : _ ++ r.state.receivedData = _)
      rw [← hbytes']
      simp
    have hsplit := splits_of_parsedTo hfs
    have hsplit' := splits_of_parsedTo hfs'
    rw [← hparsed] at hsplit
    rw [← hparsed'] at hsplit'
    -- both fall apart at the end byte, into the same words
    obtain ⟨u₁, u₂, hw, hg, hrest⟩ := hsplit.around (by decide) (by decide)
    obtain ⟨v₁, v₂, hw', hg', hrest'⟩ := hsplit'.around (by decide) (by decide)
    rw [hg.unique hg'] at hw
    have hsame : u₂ = v₂ := (List.cons.inj (List.append_cancel_left (hw.symm.trans hw'))).2
    rw [hsame] at hrest
    exact hrest.not_tail hrest'

/-- What a session does with a chunk that makes the call leave where `r` left, after bytes that
    were gathered or parsed. -/
theorem session_after {pre xs : List UInt8} {calls : List ParseCall}
    (hpre : Chunked.call addByte new pre = ⟨⟨xs⟩, calls, none⟩) (chunk : Chunk)
    {r : Chunked.Outcome PacketCollector ParseCall Exit}
    (hr : Chunked.call addByte ⟨xs⟩ chunk.data = r) (ds : List Chunk) :
    session new (pre.map single ++ chunk :: ds) =
      (if r.exit.any Exit.fatal then r else (session r.state ds).after r.out).after calls := by
  have hwhole : session new (pre.map single) = ⟨⟨xs⟩, calls, none⟩ := by
    rw [← stream_singles pre] at hpre
    rw [session_eq_call (by rw [hpre]), hpre]
  show Chunked.calls addByte Exit.fatal new ((pre.map single ++ chunk :: ds).map Chunk.data) = _
  rw [List.map_append, Chunked.calls_append]
  show (if (session new (pre.map single)).exit = none then
    (session (session new (pre.map single)).state (chunk :: ds)).after
      (session new (pre.map single)).out else session new (pre.map single)) = _
  rw [hwhole, if_pos rfl, ← hr]
  rfl

theorem stream_append (cs ds : List Chunk) : stream (cs ++ ds) = stream cs ++ stream ds := by
  simp [stream]

/-- A notification with notifications of one byte around it. -/
theorem stream_around (pre : List UInt8) (chunk : Chunk) (ys : List UInt8) :
    stream (pre.map single ++ chunk :: ys.map single) = pre ++ (chunk.data ++ ys) := by
  rw [stream_append, stream_singles]
  show pre ++ (chunk.data ++ stream (ys.map single)) = _
  rw [stream_singles]

/-- In a stream that may be cut anywhere, the first bad frame is the last thing. -/
theorem first_bad_ends {fs : List (List UInt8)} {f rest : List UInt8}
    (h : ChunkIndependent (fs.flatten ++ (f ++ rest))) (hfs : ∀ g ∈ fs, IsFrame g ∧ Accepted g)
    (hf : IsFrame f) (ha : ¬ Accepted f) :
    rest = [] ∧ (6 ≤ f.length → Packet.parseResponse f ≠ .error .outOfBounds) := by
  obtain ⟨e, hexit, hfatal⟩ := exit_of_not_accepted hf ha
  have hleft := call_not_accepted hf ha
  obtain ⟨xs, rfl, hxs⟩ := hf
  obtain ⟨calls, hcalls⟩ := call_accepted_frames hfs
  have hpre : Chunked.call addByte new (fs.flatten ++ xs) = ⟨⟨xs⟩, calls, none⟩ := by
    rw [Chunked.call_append (by rw [hcalls]), hcalls, call_until_end hxs]
    simp [new, Chunked.Outcome.after]
  -- what the call does at the end byte of the bad frame
  obtain ⟨r, hr⟩ : ∃ r, Chunked.call addByte ⟨xs⟩ [end_] = r := ⟨_, rfl⟩
  have hframe : Chunked.call addByte new (xs ++ [end_]) = r := (call_frame hxs new).trans hr
  rw [hframe] at hexit hleft
  -- the end byte in a notification of its own
  have hstream : stream ((fs.flatten ++ xs).map single ++ single end_ :: rest.map single) =
      fs.flatten ++ (xs ++ [end_] ++ rest) := by
    rw [stream_around]
    simp [single]
  have hcut := session_after hpre (single end_) hr (rest.map single)
  obtain ⟨hend, -, -⟩ := h _ _ hstream hstream
  have hnot : ¬ r.exit.any Exit.fatal = true := by
    intro hfatal
    rw [hcut, if_pos hfatal, Chunked.Outcome.after_exit, hexit] at hend
    cases hend
  rw [if_neg hnot] at hcut
  refine ⟨?_, fun hlen hbounds => ?_⟩
  · cases rest with
    | nil => rfl
    | cons b y =>
      -- the end byte and the one after it in one notification
      have hr' : Chunked.call addByte ⟨xs⟩ [end_, b] = r :=
        (Chunked.call_append_of_leave (hr ▸ hexit) [b]).trans hr
      have hstream' : stream ((fs.flatten ++ xs).map single ++
          ⟨[end_, b], by simp⟩ :: y.map single) = fs.flatten ++ (xs ++ [end_] ++ b :: y) := by
        rw [stream_around]
        simp
      have hcut' := session_after hpre ⟨[end_, b], by simp⟩ hr' (y.map single)
      rw [if_neg hnot] at hcut'
      obtain ⟨hend', -, -⟩ := h _ _ hstream' hstream
      obtain ⟨-, hout, hsame⟩ := h _ _ hstream hstream'
      rw [hcut] at hend hout hsame
      rw [hcut'] at hend' hout hsame
      simp only [Chunked.Outcome.after_out, callbacks_append, List.append_cancel_left_eq] at hout
      have hconserves := singles_conserve hend
      have hconserves' := singles_conserve hend'
      rw [hleft] at hconserves hconserves'
      exact (not_alike hconserves hconserves' hout hsame).elim
  · rw [hexit] at hnot
    exact hnot (hfatal.mpr ⟨hlen, hbounds⟩)

/-- **When the cutting does not matter.** -/
theorem chunkIndependent_iff (s : List UInt8) : ChunkIndependent s ↔ Regular s := by
  constructor
  · intro h fs f rest hs hfs hf
    rcases accepted_or_first_bad (fs ++ [f]) with hall | ⟨as, g, bs, hsplit, has, hg⟩
    · exact Or.inl (hall f (List.mem_append_right _ (List.mem_singleton_self f)))
    · have hframes : ∀ x ∈ as ++ g :: bs, IsFrame x := by
        rw [← hsplit]
        exact List.forall_mem_append.mpr ⟨hfs, List.forall_mem_singleton.mpr hf⟩
      have hflat := congrArg List.flatten hsplit
      simp only [List.flatten_append, List.flatten_cons, List.flatten_nil, List.append_nil] at hflat
      rw [hs, ← List.append_assoc, hflat, List.append_assoc, List.append_assoc] at h
      obtain ⟨hend, hbounds⟩ := first_bad_ends h
        (fun x hx => ⟨hframes x (List.mem_append_left _ hx), has x hx⟩)
        (hframes g (List.mem_append_right _ List.mem_cons_self)) hg
      obtain ⟨hbs, hrest⟩ := List.append_eq_nil_iff.mp hend
      -- frames are not empty, so the bad one is the last
      have hnil : bs = [] := by
        cases bs with
        | nil => rfl
        | cons x bs =>
          obtain ⟨ys, hx, -⟩ := hframes x (by simp)
          rw [List.flatten_cons, hx] at hbs
          exact absurd hbs (by simp)
      rw [hnil] at hsplit
      obtain ⟨-, hfg⟩ := List.append_inj' hsplit rfl
      rw [List.singleton_inj.mp hfg]
      exact Or.inr ⟨hrest, hbounds⟩
  · intro hs cs cs' hcs hcs'
    obtain ⟨hexit, hout, hstate⟩ := session_of_regular hs hcs
    obtain ⟨-, hout', hstate'⟩ := session_of_regular hs hcs'
    refine ⟨hexit, ?_, ?_⟩
    · rw [hout, hout']
    · rw [hstate, hstate']

/-- A stray end byte before a frame: in one notification the frame is dropped, in two it is gathered
    after the end byte. -/
theorem chunks_matter_stray_end :
    ¬ ∀ (s : List UInt8) (cs cs' : List Chunk), stream cs = s → stream cs' = s →
      callbacks (session new cs).out = callbacks (session new cs').out ∧
        (session new cs).state.receivedData = (session new cs').state.receivedData := by
  intro h
  have hsame := h (end_ :: wakePacket.build) [⟨end_ :: wakePacket.build, by decide⟩]
    [⟨[end_], by decide⟩, ⟨wakePacket.build, by decide⟩] (by decide) (by decide)
  exact absurd hsame.2 (by decide)

end PacketCollector

end NrfSpheros
