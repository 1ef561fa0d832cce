/-
  Which bytes of a frame the handlers read.

  The payload of a frame stands between its start byte and its end byte.  `reads` records every index
  that a handler reads; a read is in order if it is `InPayload`.  The reads of a handler that leaves the
  vector of Spheros count as well: the access is unchecked, and the handler goes on (`LeadsTo`).

  1. **Handlers whose reads are in order**: those of the idle state and the colour state check the exact
     length, and the indexes they compute stay within it.
  2. **Two that read too much** (`reads_payload_iff`).  `validate_uart_packet` lets a frame of two bytes
     through, and the main loop takes its end byte for the command.  `handle_match_state` asks for three
     bytes whatever the command is, and the command `0x04` then reads a heading from the indexes 2 and
     3, which are payload from five bytes on, whether or not its Sphero is there.
-/
import NrfSpheros.Main.Pairing

namespace NrfSpheros

/-- The index is neither that of the start byte, nor that of the end byte, nor past it. -/
def RxFrame.InPayload (f : RxFrame) (i : Nat) : Prop := 1 ≤ i ∧ i + 2 ≤ f.rx.len.toNat

namespace Main

/-- Handling the frame leads from `s` to `t`.  `operator[]` is unchecked: a run that leaves the vector of
    Spheros goes on with what it finds behind its end, and `beyond` is whatever that may be. -/
def LeadsTo (s : Main) (f : RxFrame) (arrivals : List Packet) (t : Main) : Prop :=
  handleFrame f.rx arrivals s = .ok ((), t) ∨
    (∃ fault, handleFrame f.rx arrivals s = .error fault) ∧
      ∃ beyond, handleFrame f.rx arrivals { s with spheros := s.spheros ++ beyond } = .ok ((), t)

/-- Every byte that the main loop and its handlers read of the frame is payload. -/
def ReadsPayload (s : Main) (f : RxFrame) (arrivals : List Packet) : Prop :=
  ∀ t, LeadsTo s f arrivals t → ∀ i ∈ t.reads, f.InPayload i

/-- The frame carries a command byte, and two heading bytes if it is a command `0x04` that is not turned
    away: the guard compares `matching`. -/
structure CarriesFields (s : Main) (f : RxFrame) : Prop where
  command : 3 ≤ f.rx.len.toNat
  heading : s.state = .MATCH → s.matching.toNat < s.spheros.length → f.command = 0x04 →
    5 ≤ f.rx.len.toNat

/-! ## Handlers whose reads are in order -/

/-- There are `n` Spheros, and only bytes with `P` have been read. -/
structure Within (n : Nat) (P : Nat → Prop) (s : Main) : Prop where
  length : s.spheros.length = n
  reads : ∀ i ∈ s.reads, P i

theorem byte_within {rx : UartData} {i n : Nat} (hi : i < recieveBuffSize) {P : Nat → Prop}
    (hp : P i) {s : Main} (h : Within n P s) : Ends (byte rx i) s fun _ => Within n P := by
  rw [byte_iff hi]
  refine ⟨h.length, fun j hj => ?_⟩
  rcases List.mem_append.mp hj with hj | hj
  · exact h.reads j hj
  · rw [List.mem_singleton.mp hj]
    exact hp

theorem call_within {i n : Nat} (hi : i < n) {P : Nat → Prop} {s : Main} (h : Within n P s)
    (method : Sphero → Sphero × List Packet) : Ends (call i method) s fun _ => Within n P := by
  have hi' : i < s.spheros.length := by
    rw [h.length]
    exact hi
  rw [call_iff hi']
  exact ⟨(List.length_set ..).trans h.length, h.reads⟩

theorem lt_of_inPayload {f : RxFrame} {i : Nat} (h : f.InPayload i) : i < recieveBuffSize := by
  have hle := f.le
  have hi := h.2
  show i < 93
  have hle' : f.rx.len.toNat ≤ 93 := hle
  omega

theorem handleIdleState_within {f : RxFrame} {s : Main}
    (h : Within s.spheros.length f.InPayload s) :
    Ends (handleIdleState f.rx) s fun _ => Within s.spheros.length f.InPayload := by
  unfold handleIdleState
  by_cases hlen : f.rx.len ≠ 4
  · rw [if_pos hlen, Ends.pure_iff]
    exact h
  have hfour : f.rx.len.toNat = 4 := congrArg UInt16.toNat (not_not.mp hlen)
  have hread : ∀ i, 1 ≤ i → i ≤ 2 → f.InPayload i := by
    intro i hlow hhigh
    refine ⟨hlow, ?_⟩
    omega
  rw [if_neg hlen, Ends.bind_iff]
  refine (byte_within (by decide) (hread 1 (by omega) (by omega)) h).mono fun command t ht => ?_
  by_cases hcommand : command ≠ 0x01
  · rw [if_pos hcommand, Ends.pure_iff]
    exact ht
  · rw [if_neg hcommand, Ends.bind_iff]
    refine (byte_within (by decide) (hread 2 (by omega) (by omega)) ht).mono fun value u hu => ?_
    rw [Ends.modify_iff]
    exact ⟨hu.length, hu.reads⟩

theorem dispatch_idle_within {f : RxFrame} {arrivals : List Packet} {s : Main}
    (hs : s.state = .IDLE) (h : Within s.spheros.length f.InPayload s) :
    Ends (dispatch f.rx arrivals) s fun _ => Within s.spheros.length f.InPayload := by
  unfold dispatch
  rw [Ends.bind_iff, Ends.get_iff, hs, Ends.bind_iff]
  refine (handleIdleState_within h).mono fun _ t ht => ?_
  rw [Ends.bind_iff, Ends.get_iff]
  by_cases hcolors : t.state = .SET_COLORS
  · rw [if_pos hcolors]
    refine Ends.forM (fun i hi u hu => ?_) ht
    exact call_within (ht.length ▸ List.mem_range.mp hi) hu _
  · rw [if_neg hcolors, Ends.pure_iff]
    exact ht

/-! ## The match commands -/

/-- The match command reads the heading bytes, if it is `0x04`, and no others. -/
theorem matchCommand_within {f : RxFrame} {arrivals : List Packet} {i n : Nat} {command : UInt8}
    (hi : i < n) (hheading : command = 0x04 → 5 ≤ f.rx.len.toNat) {s : Main}
    (h : Within n f.InPayload s) :
    Ends (matchCommand f.rx arrivals i command) s fun _ => Within n f.InPayload := by
  unfold matchCommand
  by_cases h1 : command = 0x01
  · have hnext : Within n f.InPayload { s with matchingIndex := s.matchingIndex + 1 } :=
      ⟨h.length, h.reads⟩
    rw [if_pos h1, Ends.bind_iff, Ends.modify_iff]
    exact call_within hi hnext _
  rw [if_neg h1]
  by_cases h2 : command = 0x02
  · rw [if_pos h2, Ends.bind_iff]
    exact (call_within hi h _).mono fun _ t ht => call_within hi ht _
  rw [if_neg h2]
  by_cases h3 : command = 0x03
  · rw [if_pos h3]
    exact call_within hi h _
  rw [if_neg h3]
  by_cases h4 : command = 0x04
  · have hfive := hheading h4
    have hread : ∀ i, 1 ≤ i → i ≤ 3 → f.InPayload i := by
      intro i hlow hhigh
      refine ⟨hlow, ?_⟩
      omega
    rw [if_pos h4, Ends.bind_iff]
    refine (byte_within (by decide) (hread 2 (by omega) (by omega)) h).mono fun high t ht => ?_
    rw [Ends.bind_iff]
    refine (byte_within (by decide) (hread 3 (by omega) (by omega)) ht).mono fun low u hu => ?_
    rw [Ends.bind_iff]
    exact (call_within hi hu _).mono fun _ v hv => call_within hi hv _
  · rw [if_neg h4, Ends.pure_iff]
    exact h

/-- A command `0x04` to a robot that is there has read index 3. -/
theorem matchCommand_reads {rx : UartData} {arrivals : List Packet} {i : Nat} {s : Main}
    (hi : i < s.spheros.length) :
    Ends (matchCommand rx arrivals i 0x04) s fun _ t => 3 ∈ t.reads := by
  unfold matchCommand
  rw [if_neg (by decide), if_neg (by decide), if_neg (by decide), if_pos rfl]
  simp only [Ends.bind_iff, byte_iff (show 2 < recieveBuffSize by decide),
    byte_iff (show 3 < recieveBuffSize by decide)]
  have hread : 3 ∈ s.reads ++ [2] ++ [3] := List.mem_append_right _ (List.mem_singleton_self 3)
  rw [call_iff (by exact hi), call_iff (by exact (List.length_set ..).symm ▸ hi)]
  exact hread

/-- So has the handler of a frame that brings one. -/
theorem dispatch_match_reads {f : RxFrame} {arrivals : List Packet} {s : Main}
    (hs : s.state = .MATCH) (hguard : s.matching.toNat < s.spheros.length)
    (hindex : s.matchingIndex.toNat < s.spheros.length) (hlen : 3 ≤ f.rx.len.toNat)
    (hfour : f.command = 0x04) :
    Ends (dispatch f.rx arrivals) s fun _ t => 3 ∈ t.reads := by
  have hbyte : f.rx.data[1] = 0x04 := hfour
  rw [dispatch_match hs, handleMatchState_iff (Nat.not_le.mpr hguard) (Nat.not_lt.mpr hlen),
    sphero_iff hindex, hbyte]
  exact matchCommand_reads (s := { s with reads := s.reads ++ [1] }) hindex

/-! ## One turn of the main loop -/

/-- A frame with the fields the handlers take is read within its payload, if its handler does not leave
    the vector of Spheros. -/
theorem dispatch_within {f : RxFrame} {arrivals : List Packet} {s : Main}
    (hfields : CarriesFields s f) (h : Within s.spheros.length f.InPayload s) :
    (Ends (dispatch f.rx arrivals) s fun _ => Within s.spheros.length f.InPayload) ∨
      s.state = .MATCH ∧ s.matching.toNat < s.spheros.length ∧
        ∀ Q, ¬ Ends (dispatch f.rx arrivals) s Q := by
  cases hs : s.state with
  | IDLE => exact Or.inl (dispatch_idle_within hs h)
  | MATCH =>
    simp only [dispatch_match hs]
    by_cases hshort : s.spheros.length ≤ s.matching.toNat ∨ f.rx.len < 3
    · rw [handleMatchState_short hshort]
      exact Or.inl h
    obtain ⟨hguard, hlen⟩ := not_or.mp hshort
    by_cases hindex : s.matchingIndex.toNat < s.spheros.length
    · left
      rw [handleMatchState_iff hguard hlen, sphero_iff hindex]
      refine matchCommand_within hindex (fun hfour => ?_) ⟨h.length, fun i hi => ?_⟩
      · exact hfields.heading hs (Nat.lt_of_not_le hguard) hfour
      · rcases List.mem_append.mp hi with hi | hi
        · exact h.reads i hi
        · rw [List.mem_singleton.mp hi]
          exact ⟨Nat.le_refl 1, hfields.command⟩
    · refine Or.inr ⟨trivial, Nat.lt_of_not_le hguard, fun Q hends => ?_⟩
      rw [handleMatchState_iff hguard hlen] at hends
      exact sphero_out (Nat.le_of_not_lt hindex) hends
  | SET_COLORS =>
    left
    rw [dispatch_colors hs]
    refine handleColorState_keeps (fun i hlow hhigh t ht => ?_) (fun i hi t ht method => ?_) h
    · exact byte_within (lt_of_inPayload ⟨hlow, hhigh⟩) ⟨hlow, hhigh⟩ ht
    · exact call_within hi ht method

/-- The main loop with such a frame. -/
theorem handleFrame_within {s : Main} {f : RxFrame} {arrivals : List Packet}
    (hvalid : f.valid = true) (hfields : CarriesFields s f) :
    (Ends (handleFrame f.rx arrivals) s fun _ t => ∀ i ∈ t.reads, f.InPayload i) ∨
      s.state = .MATCH ∧ s.matching.toNat < s.spheros.length ∧
        ∀ Q, ¬ Ends (handleFrame f.rx arrivals) s Q := by
  simp only [handleFrame_iff hvalid]
  have hstart : Within s.spheros.length f.InPayload s.commandRead :=
    ⟨rfl, fun i hi => by
      rw [List.mem_singleton.mp hi]
      exact ⟨Nat.le_refl 1, hfields.command⟩⟩
  by_cases hcommand : f.command = 0x00
  · simp only [if_pos hcommand]
    left
    refine (reset_keeps (fun i hi t ht method => call_within hi ht method) hstart).mono ?_
    rintro _ t ⟨u, hu, rfl⟩
    exact hu.reads
  · simp only [if_neg hcommand]
    have hfields' : CarriesFields s.commandRead f := ⟨hfields.command, hfields.heading⟩
    rcases dispatch_within hfields' hstart with hwithin | ⟨hmatch, hguard, hnone⟩
    · exact Or.inl (hwithin.mono fun _ t ht => ht.reads)
    · exact Or.inr ⟨hmatch, hguard, fun Q => hnone _⟩

/-- A frame too short for a command byte is dropped by every handler. -/
theorem dispatch_short {f : RxFrame} {arrivals : List Packet} {s : Main}
    (hlen : f.rx.len.toNat < 3) {Q : Unit → Main → Prop} :
    Ends (dispatch f.rx arrivals) s Q ↔ Q () s := by
  cases hs : s.state with
  | IDLE =>
    have hfour : f.rx.len ≠ 4 := fun h => absurd (congrArg UInt16.toNat h) (by
      show f.rx.len.toNat ≠ 4
      omega)
    have hidle : States.IDLE ≠ .SET_COLORS := by decide
    unfold dispatch handleIdleState
    simp only [Ends.bind_iff, Ends.get_iff, hs, if_pos hfour, Ends.pure_iff, if_neg hidle]
  | MATCH => rw [dispatch_match hs, handleMatchState_short (Or.inr hlen)]
  | SET_COLORS =>
    have hlen' : f.rx.len.toNat ≠ 3 + 6 * s.spheros.length := by omega
    rw [dispatch_colors hs]
    unfold handleColorState
    simp only [Ends.bind_iff, Ends.get_iff, if_pos hlen', Ends.pure_iff]

/-- The command byte of a valid frame of fewer than three bytes is its end byte. -/
theorem command_of_short {f : RxFrame} (hvalid : f.valid = true) (hlen : f.rx.len.toNat < 3) :
    f.command ≠ 0x00 := by
  have hpos := f.pos
  simp only [RxFrame.valid, Bool.and_eq_true, decide_eq_true_eq] at hvalid
  obtain ⟨hstart, hend⟩ := hvalid
  rcases (show f.rx.len.toNat = 1 ∨ f.rx.len.toNat = 2 by omega) with hone | htwo
  · simp only [hone, Nat.sub_self] at hend
    rw [hstart] at hend
    exact absurd hend (by decide)
  · simp only [htwo] at hend
    show f.rx.data[1] ≠ 0x00
    rw [show f.rx.data[1] = 0x0a from hend]
    decide

/-- What a run that comes to its end has read. -/
theorem mem_inPayload {s : Main} {f : RxFrame} {arrivals : List Packet}
    (h : ∀ t, handleFrame f.rx arrivals s = .ok ((), t) → ∀ i ∈ t.reads, f.InPayload i)
    (hvalid : f.valid = true) (hcommand : f.command ≠ 0x00) {i : Nat}
    (hi : Ends (dispatch f.rx arrivals) s.commandRead fun _ t => i ∈ t.reads) : f.InPayload i := by
  have hframe : Ends (handleFrame f.rx arrivals) s fun _ t => i ∈ t.reads := by
    rw [handleFrame_iff hvalid, if_neg hcommand]
    exact hi
  obtain ⟨_, t, hrun, hmem⟩ := hframe
  exact h t hrun i hmem

/-- The access past the vector. -/
theorem handleFrame_out {s : Main} {f : RxFrame} {arrivals : List Packet} (hvalid : f.valid = true)
    (hcommand : f.command ≠ 0x00) (hs : s.state = .MATCH)
    (hguard : s.matching.toNat < s.spheros.length) (hlen : 3 ≤ f.rx.len.toNat)
    (hindex : s.spheros.length ≤ s.matchingIndex.toNat) :
    ∃ fault, handleFrame f.rx arrivals s = .error fault := by
  apply Ends.exists_error
  rw [handleFrame_iff hvalid, if_neg hcommand, dispatch_match (s := s.commandRead) hs,
    handleMatchState_iff (s := s.commandRead) (Nat.not_le.mpr hguard) (Nat.not_lt.mpr hlen)]
  exact sphero_out (s := s.commandRead) hindex

/-- A command `0x04` that is not turned away reads index 3, of whatever Sphero. -/
theorem heading_inPayload {s : Main} {f : RxFrame} {arrivals : List Packet}
    (h : ReadsPayload s f arrivals) (hvalid : f.valid = true) (hlen : 3 ≤ f.rx.len.toNat)
    (hs : s.state = .MATCH) (hguard : s.matching.toNat < s.spheros.length)
    (hfour : f.command = 0x04) : f.InPayload 3 := by
  have hcommand : f.command ≠ 0x00 := by
    rw [hfour]
    decide
  rcases Nat.lt_or_ge s.matchingIndex.toNat s.spheros.length with hindex | hindex
  · exact mem_inPayload (fun t ht => h t (Or.inl ht)) hvalid hcommand
      (dispatch_match_reads (s := s.commandRead) hs hguard hindex hlen hfour)
  · -- enough lies behind the vector
    obtain ⟨beyond, hbeyond⟩ : ∃ beyond : List Sphero, s.matchingIndex.toNat < beyond.length :=
      ⟨List.replicate (s.matchingIndex.toNat + 1) (Sphero.create 0), by
        rw [List.length_replicate]
        exact Nat.lt_succ_self _⟩
    have hlength : (s.spheros ++ beyond).length = s.spheros.length + beyond.length :=
      List.length_append
    have hout := @handleFrame_out s f arrivals hvalid hcommand hs hguard hlen hindex
    refine mem_inPayload (s := { s with spheros := s.spheros ++ beyond })
      (fun t ht => h t (Or.inr ⟨hout, beyond, ht⟩)) hvalid hcommand
      (dispatch_match_reads hs ?_ ?_ hlen hfour)
    · show s.matching.toNat < (s.spheros ++ beyond).length
      omega
    · show s.matchingIndex.toNat < (s.spheros ++ beyond).length
      omega

/-- **When only payload is read.**  For every frame that `validate_uart_packet` accepts, in every state
    and with any number of Spheros, the main loop and its handlers read payload only if and only if the
    frame carries the fields they take. -/
theorem reads_payload_iff (s : Main) {f : RxFrame} (arrivals : List Packet)
    (hvalid : f.valid = true) : ReadsPayload s f arrivals ↔ CarriesFields s f := by
  constructor
  · intro h
    have hthree : 3 ≤ f.rx.len.toNat := by
      by_contra hshort
      have hlen : f.rx.len.toNat < 3 := Nat.lt_of_not_le hshort
      have hone := mem_inPayload (fun t ht => h t (Or.inl ht)) hvalid
        (command_of_short hvalid hlen) ((dispatch_short hlen).mpr (List.mem_singleton_self 1))
      exact hshort hone.2
    exact ⟨hthree, fun hs hguard hfour => (heading_inPayload h hvalid hthree hs hguard hfour).2⟩
  · rintro hfields t (hrun | ⟨⟨fault, hfault⟩, beyond, hrun⟩)
    · rcases handleFrame_within hvalid hfields with hwithin | ⟨-, -, hnone⟩
      · exact (Ends.of_ok hrun).mp hwithin
      · exact absurd ((Ends.of_ok hrun).mpr trivial) (hnone fun _ _ => True)
    · rcases handleFrame_within hvalid hfields with hwithin | ⟨-, hguard, -⟩
      · exact absurd hwithin (Ends.of_error hfault)
      · -- the frame passed the guard, so the fields are asked for, however long the vector seems
        have hfields' : CarriesFields { s with spheros := s.spheros ++ beyond } f :=
          ⟨hfields.command, fun hs _ hfour => hfields.heading hs hguard hfour⟩
        rcases handleFrame_within hvalid hfields' with hwithin | ⟨-, -, hnone⟩
        · exact (Ends.of_ok hrun).mp hwithin
        · exact absurd ((Ends.of_ok hrun).mpr trivial) (hnone fun _ _ => True)

/-- The command `0x04` in the frame `8D 04 0A`. -/
def headless : RxFrame where
  rx := ⟨Vector.ofFn fun i => [0x8d, 0x04, 0x0a].getD i 0, 3⟩
  pos := by decide
  le := by decide

theorem reads_payload_iff_headless :
    ReadsPayload { start [Sphero.create 0] with state := .MATCH } headless [] ↔
      CarriesFields { start [Sphero.create 0] with state := .MATCH } headless :=
  reads_payload_iff _ [] (by decide)

/-- The end byte becomes the high byte of a heading. -/
theorem headless_reads_end :
    ¬ ∀ (s : Main) (f : RxFrame) (arrivals : List Packet), f.valid = true →
      ReadsPayload s f arrivals := by
  intro h
  have hends : Ends (handleFrame headless.rx []) { start [Sphero.create 0] with state := .MATCH }
      fun _ t => 2 ∈ t.reads := ⟨_, _, rfl, by decide⟩
  obtain ⟨_, t, hrun, hmem⟩ := hends
  have hread := h _ headless [] (by decide) t (Or.inl hrun) 2 hmem
  exact absurd hread.2 (by decide)

end Main

end NrfSpheros
