/-
  `main` and the UART together, from the first frame on.

  1. **The session.**  What the device is to its host: it is given names, it searches, it serves robots.
     A session takes the received frames one after the other, and answers each with a byte.  A command
     to a robot that is not there ends it (`crashed`).
  2. **The firmware.**  `main`, with the board.  The driver's events, the work item and the end of a
     transmission come between any two steps of the main thread.
  3. **Undefined reads.**  Two of them the code makes in the best of runs, and they do not end a run
     here.  The `memcpy` of `send_response` takes three bytes from behind its array of one
     (`UartData.responseOf_short`): they are arbitrary, and counted (`behind`).  `wait_for_response` returns its packet through an iterator that
     it has erased: the main loop does not look at it (`Main.turn`).
  4. **Every run** (`firmware_serves`) — the firmware is a session: it takes the frames as they were
     received, none lost or twice or out of turn, gives the orders of the console, answers as the
     session does, one buffer for each answer, and has no other faults than those where the session
     crashes.
-/
import NrfSpheros.Main.Board
import NrfSpheros.Main.Naming
import NrfSpheros.Main.Console

namespace NrfSpheros

/-! ## The session -/

inductive SessionStage
  | naming (names : List (List UInt8))
  | searching (names : List (List UInt8))
  | serving (n : Nat) (log : Console.Log)
  /-- Scanning could not be started. -/
  | ended
  /-- A robot was accessed that is not there. -/
  | crashed
deriving DecidableEq

structure Session where
  stage : SessionStage
  inbox : Inbox
  /-- The frames taken from the inbox. -/
  taken : List RxFrame
  answers : List UInt8

inductive HostEvent
  /-- Something happens to the frame that is received. -/
  | receive (e : RxStep)
  /-- The next frame is taken. -/
  | frame (f : RxFrame)
  /-- The search is over. -/
  | found (n : Nat)
  /-- There is no search. -/
  | failed

namespace Session

/-- The driver is on, and has received nothing yet. -/
def start : Session := ⟨.naming [], ⟨[], some [], false⟩, [], []⟩

def take (s : Session) (f : RxFrame) (stage : SessionStage) (answers : List UInt8) : Session :=
  { s with stage, taken := s.taken ++ [f], answers := s.answers ++ answers }

/-- A valid frame before the search. -/
def named (s : Session) (f : RxFrame) (names : List (List UInt8)) : Session :=
  match Naming.request f.payload with
  | .reset => s.take f (.naming names) [0x01]
  | .finish => s.take f (.searching names) [0x05]
  | .name name => s.take f (.naming (names ++ [name])) [0xFF]

def handle (s : Session) (f : RxFrame) : Option Session :=
  match s.stage with
  | .naming names => some (if f.valid then s.named f names else s.take f (.naming names) [])
  | .serving n log =>
    match log.step n f with
    | some log => some (s.take f (.serving n log) (if f.valid then [0xFF] else []))
    | none => some (s.take f .crashed [])
  | _ => none

def step (s : Session) : HostEvent → Option Session
  | .receive e => (s.inbox.step e).map fun inbox => { s with inbox }
  | .frame f => if s.inbox.frames[s.taken.length]? = some f.rx.contents then s.handle f else none
  | .found n =>
    match s.stage with
    | .searching _ =>
      some { s with stage := .serving n Console.Log.start, answers := s.answers ++ [0x10] }
    | _ => none
  | .failed =>
    match s.stage with
    | .searching _ => some { s with stage := .ended }
    | _ => none

end Session

/-! ### One answer for each frame -/

namespace SessionStage

/-- Once there are robots the host has been told so. -/
def told : SessionStage → Nat
  | .serving _ _ | .crashed => 1
  | _ => 0

/-- The frame that crashed the session is not answered. -/
def unanswered : SessionStage → Nat
  | .crashed => 1
  | _ => 0

end SessionStage

namespace Session

/-- The valid frames are answered, each once, but for one that crashed the session. -/
def Balanced (s : Session) : Prop :=
  s.answers.length + s.stage.unanswered =
    (s.taken.filter RxFrame.valid).length + s.stage.told

/-- A frame is answered if it is valid and does not crash the session. -/
theorem balanced_take {s : Session} {f : RxFrame} {stage : SessionStage} {answers : List UInt8}
    (h : s.Balanced) (hanswers : answers.length + s.stage.told + stage.unanswered =
      (if f.valid then 1 else 0) + stage.told + s.stage.unanswered) :
    (s.take f stage answers).Balanced := by
  have hvalid : ((s.taken ++ [f]).filter RxFrame.valid).length =
      (s.taken.filter RxFrame.valid).length + if f.valid then 1 else 0 := by
    rw [List.filter_append, List.length_append, List.filter_singleton]
    cases f.valid <;> rfl
  unfold Balanced at h
  show (s.answers ++ answers).length + stage.unanswered =
    ((s.taken ++ [f]).filter RxFrame.valid).length + stage.told
  rw [List.length_append, hvalid]
  omega

theorem balanced_handle {s s' : Session} {f : RxFrame} (h : s.Balanced)
    (hs : s.handle f = some s') : s'.Balanced := by
  unfold handle at hs
  cases hstage : s.stage with
  | naming names =>
    simp only [hstage, Option.some.injEq] at hs
    rw [← hs]
    cases hvalid : f.valid with
    | false =>
      apply balanced_take h
      rw [hstage, hvalid]
      rfl
    | true =>
      rw [if_pos rfl]
      unfold named
      cases Naming.request f.payload <;>
        exact balanced_take h (by rw [hstage, hvalid]; rfl)
  | serving n log =>
    simp only [hstage] at hs
    cases hlog : log.step n f with
    | some log' =>
      simp only [hlog, Option.some.injEq] at hs
      rw [← hs]
      apply balanced_take h
      rw [hstage]
      cases f.valid <;> rfl
    | none =>
      simp only [hlog, Option.some.injEq] at hs
      have hvalid : f.valid = true := by
        by_contra hno
        rw [Console.Log.step, if_neg hno] at hlog
        cases hlog
      rw [← hs]
      apply balanced_take h
      rw [hstage, hvalid]
      rfl
  | searching _ | ended | crashed =>
    simp only [hstage, reduceCtorEq] at hs

theorem balanced_step {s s' : Session} {e : HostEvent} (h : s.Balanced)
    (hs : s.step e = some s') : s'.Balanced := by
  cases e with
  | receive e =>
    obtain ⟨inbox, -, rfl⟩ := Option.map_eq_some_iff.mp hs
    exact h
  | frame f =>
    simp only [step] at hs
    split at hs
    · exact balanced_handle h hs
    · cases hs
  | found n =>
    unfold Balanced at h
    cases hstage : s.stage with
    | searching names =>
      simp only [step, hstage, Option.some.injEq] at hs
      rw [hstage] at h
      rw [← hs]
      show (s.answers ++ [0x10]).length = (s.taken.filter RxFrame.valid).length + 1
      rw [List.length_append]
      exact congrArg (· + 1) h
    | _ => simp only [step, hstage, reduceCtorEq] at hs
  | failed =>
    unfold Balanced at h
    cases hstage : s.stage with
    | searching names =>
      simp only [step, hstage, Option.some.injEq] at hs
      rw [hstage] at h
      rw [← hs]
      exact h
    | _ => simp only [step, hstage, reduceCtorEq] at hs

/-- **One answer for each valid frame**, and one to say that the search is over: at any time, but that a
    frame which crashed the session has none. -/
theorem balanced_run {fs : List HostEvent} {t : Session}
    (h : Transition.run step start fs = some t) : t.Balanced :=
  Transition.invariant (fun hs he => balanced_step hs he) (show start.Balanced from rfl) h

end Session

/-! ## The firmware -/

/-- Where `main` is. -/
inductive MainThread
  | naming (s : Naming)
  | searching (names : List (List UInt8))
  | looping (s : Main)
  | ended

/-- `main` has taken `rx`; the data of its `send_response` calls. -/
def MainThread.handle (rx : UartData) (arrivals : List Packet) :
    MainThread → Option (Except Fault (MainThread × List (List UInt8)))
  | .naming s => some ((s.handleFrame rx).map fun t =>
      (if t.finished then .searching t.names else .naming t, t.responses.drop s.responses.length))
  | .looping s => some ((Main.handleFrame rx arrivals s).map fun r =>
      (.looping r.2, r.2.responses.drop s.responses.length))
  | _ => none

/-- What happens beside the main thread. -/
inductive Interrupt
  | bytes (run : List UInt8)
  | bufRequest (malloc : Malloc)
  | disabled (malloc : Malloc)
  | work (malloc : Malloc)
  | txAborted (len : Nat)
  | txDone

def Interrupt.boardStep : Interrupt → BoardStep
  | .bytes run => .rx (.bytes run)
  | .bufRequest malloc => .rx (.bufRequest malloc)
  | .disabled malloc => .rx (.disabled malloc)
  | .work malloc => .rx (.work malloc)
  | .txAborted len => .tx (.txAborted len)
  | .txDone => .tx .txDone

structure Firmware where
  board : Board
  thread : MainThread
  /-- The data of the `send_response` calls still to be made. -/
  unsent : List (List UInt8)
  /-- The buffers that the calls have filled. -/
  answered : List BufPtr
  /-- The number of bytes that the calls have read behind their data. -/
  behind : Nat

inductive FirmwareStep
  | interrupt (e : Interrupt)
  /-- `k_fifo_get`, and what `main` does with the frame; `arrivals` come while it waits for a
      response. -/
  | take (arrivals : List Packet)
  /-- The search is over, and these are the Spheros. -/
  | found (spheros : List Sphero)
  /-- `start_scanning` returns an error. -/
  | failed
  /-- `send_response` fills a buffer; `stack` is what lies behind its data, which the `memcpy` reads. -/
  | fill (malloc : Malloc) (stack : Nat → UInt8)
  | tx
  | put

namespace Firmware

def init (data : Vector UInt8 recieveBuffSize) : Firmware :=
  ⟨Board.init data, .naming Naming.start, [], [], 0⟩

/-- The main thread is in no call of `send_response`, and has none to make. -/
def Waiting (s : Firmware) : Prop := s.board.sending = .idle ∧ s.unsent = []

instance (s : Firmware) : Decidable s.Waiting := inferInstanceAs (Decidable (_ ∧ _))

/-- The board makes a step. -/
def onBoard (s : Firmware) (e : BoardStep) : Option (Except Fault Firmware) :=
  (Board.step (.ok s.board) e).map fun r => r.map fun board => { s with board }

/-- The data of a `send_response` call, and what lies behind it: a read there is undefined, and yields
    any byte. -/
def dataAt (payload : List UInt8) (stack : Nat → UInt8) (i : Nat) : UInt8 :=
  payload.getD i (stack i)

/-- One step; a fault ends the program.  The reads of `send_response` behind its data are no faults here
    but counted. -/
def step : Except Fault Firmware → FirmwareStep → Option (Except Fault Firmware)
  | .error f, _ => some (.error f)
  | .ok s, .interrupt e => s.onBoard e.boardStep
  | .ok s, .take arrivals =>
    if s.Waiting then
      match s.board.uart.rxFifo with
      | [] => none
      | rx :: _ =>
        match s.thread.handle rx arrivals with
        | none => none
        | some (.error f) => some (.error f)
        | some (.ok (thread, unsent)) => { s with thread, unsent }.onBoard (.rx .get)
    else none
  | .ok s, .found spheros =>
    if s.Waiting then
      match s.thread with
      | .searching _ =>
        some (.ok { s with thread := .looping (Main.start spheros), unsent := [[0x10]] })
      | _ => none
    else none
  | .ok s, .failed =>
    if s.Waiting then
      match s.thread with
      | .searching _ => some (.ok { s with thread := .ended })
      | _ => none
    else none
  | .ok s, .fill malloc stack =>
    match s.board.sending, s.unsent, malloc with
    | .idle, payload :: unsent, some block =>
      match UartData.response block (dataAt payload stack) payload.length with
      | .error f => some (.error f)
      | .ok b =>
        { s with
          unsent
          answered := s.answered ++ [s.board.uart.nextPtr]
          behind := s.behind + (pointerSize - payload.length) }.onBoard (.tx (.fill b))
    -- the answer of `k_malloc` is not checked
    | .idle, _ :: _, none => some (.error .outOfBounds)
    | _, _, _ => none
  | .ok s, .tx => s.onBoard (.tx .tx)
  | .ok s, .put => s.onBoard (.tx .put)

end Firmware

namespace UartData

/-- The buffer of a call with one byte of data: what the `memcpy` reads behind it is overwritten by
    the end byte, or not sent. -/
theorem response_one (block : Vector UInt8 recieveBuffSize) (data : Nat → UInt8) :
    ∃ b, response block data 1 = .ok b ∧ b.contents = [0x8d, data 0, 0x0a] := by
  obtain ⟨⟨bytes⟩, hsize⟩ := block
  rcases bytes with _ | ⟨c₀, _ | ⟨c₁, _ | ⟨c₂, rest⟩⟩⟩
  · cases hsize
  · cases hsize
  · cases hsize
  · exact ⟨_, rfl, rfl⟩

end UartData

/-! ## The firmware is a session -/

/-- `main` is where the session is. -/
def MainThread.At : MainThread → SessionStage → Prop
  | .naming s, .naming names => s.names = names ∧ s.finished = false
  | .searching names, .searching names' => names = names'
  | .looping s, .serving n log => Main.Shows n s log
  | .ended, .ended => True
  | _, _ => False

/-- The buffer `p` was filled with the answer `a`. -/
def Board.Holds (s : Board) (p : BufPtr) (a : UInt8) : Prop :=
  ∃ b, s.responses.lookup p = some b ∧ b.contents = [0x8d, a, 0x0a]

namespace Firmware

/-- The firmware has done what the session has. -/
structure Serves (s : Firmware) (t : Session) : Prop where
  taken : s.board.handled = t.taken.map RxFrame.rx
  thread : s.thread.At t.stage
  /-- The first answers have a buffer each, and the others are still to be made. -/
  answers : ∃ made unsent, t.answers = made ++ unsent ∧ s.unsent = unsent.map (fun a => [a]) ∧
    List.Forall₂ s.board.Holds s.answered made
  once : s.answered.Nodup
  filled : ∀ p, p ∈ s.board.responses ↔ p ∈ s.answered
  /-- Each answer is one byte, and three were read behind it. -/
  behind : s.behind = 3 * s.answered.length

theorem serves_init (data : Vector UInt8 recieveBuffSize) : (init data).Serves Session.start where
  taken := rfl
  thread := ⟨rfl, rfl⟩
  answers := ⟨[], [], rfl, rfl, .nil⟩
  once := List.nodup_nil
  filled := fun _ => iff_of_false Finmap.notMem_empty List.not_mem_nil
  behind := rfl

end Firmware

/-- What the session sees of a step of the board. -/
def BoardStep.outside : BoardStep → List HostEvent
  | .rx e => [.receive e]
  | .tx _ => []

/-- What comes from outside. -/
def FirmwareStep.outside : FirmwareStep → List HostEvent
  | .interrupt e => e.boardStep.outside
  | .found spheros => [.found spheros.length]
  | .failed => [.failed]
  | _ => []

def HostEvent.outside : HostEvent → List HostEvent
  | .frame _ => []
  | e => [e]

/-- A call of `send_response` gets its memory. -/
def FirmwareStep.Allocates : FirmwareStep → Prop
  | .fill malloc _ => malloc.isSome = true
  | _ => True

instance : DecidablePred FirmwareStep.Allocates
  | .fill malloc _ => inferInstanceAs (Decidable (malloc.isSome = true))
  | .interrupt _ | .take _ | .found _ | .failed | .tx | .put => isTrue trivial

/-! ### What `main` does with a frame -/

section handle

variable {t : Session} (f : RxFrame) (arrivals : List Packet)

/-- Before the search. -/
theorem handle_naming {s : Naming} {names : List (List UInt8)} (hstage : t.stage = .naming names)
    (hs : s.names = names ∧ s.finished = false) :
    ∃ thread stage answers, (MainThread.naming s).handle f.rx arrivals =
        some (.ok (thread, answers.map fun a => [a])) ∧
      t.handle f = some (t.take f stage answers) ∧ thread.At stage := by
  obtain ⟨rfl, hopen⟩ := hs
  unfold MainThread.handle Session.handle
  simp only [Naming.handleFrame_eq, Except.map, hstage]
  cases f.valid with
  | false =>
    refine ⟨.naming s, .naming s.names, [], ?_, rfl, rfl, hopen⟩
    simp [hopen]
  | true =>
    unfold Session.named
    simp only [if_true]
    cases Naming.request f.payload with
    | reset =>
      refine ⟨.naming (s.serve .reset), .naming s.names, [0x01], ?_, rfl, rfl, hopen⟩
      simp [Naming.serve, Naming.sendResponse, hopen]
    | finish =>
      refine ⟨.searching s.names, .searching s.names, [0x05], ?_, rfl, rfl⟩
      simp [Naming.serve, Naming.sendResponse]
    | name name =>
      refine ⟨.naming (s.serve (.name name)), .naming (s.names ++ [name]), [0xFF], ?_, rfl, rfl, hopen⟩
      simp [Naming.serve, Naming.sendResponse, hopen]

theorem answers_step {n : Nat} {log log' : Console.Log} {f : RxFrame}
    (h : log.step n f = some log') :
    log'.answers = log.answers + if f.valid then 1 else 0 := by
  unfold Console.Log.step at h
  split at h
  · obtain ⟨r, -, rfl⟩ := Option.map_eq_some_iff.mp h
    rw [if_pos ‹_›]
  · rw [← Option.some.inj h, if_neg ‹_›, Nat.add_zero]

/-- In the main loop. -/
theorem handle_looping {s : Main} {n : Nat} {log : Console.Log}
    (hstage : t.stage = .serving n log) (hs : Main.Shows n s log) :
    (∃ fault, (MainThread.looping s).handle f.rx arrivals = some (.error fault) ∧
      t.handle f = some (t.take f .crashed [])) ∨
    ∃ thread stage answers, (MainThread.looping s).handle f.rx arrivals =
        some (.ok (thread, answers.map fun a => [a])) ∧
      t.handle f = some (t.take f stage answers) ∧ thread.At stage := by
  have hnext := Main.next_shows (e := ⟨f, arrivals⟩) hs
  unfold Main.next at hnext
  unfold MainThread.handle Session.handle
  simp only [hstage]
  cases hrun : Main.handleFrame f.rx arrivals s with
  | error fault =>
    simp only [hrun] at hnext
    cases hlog : log.step n f with
    | none => exact Or.inl ⟨fault, rfl, rfl⟩
    | some _ =>
      rw [hlog] at hnext
      cases hnext
  | ok r =>
    simp only [hrun] at hnext
    obtain ⟨log', hlog, hshows⟩ := Transition.rel_some hnext
    refine Or.inr ⟨.looping r.2, .serving n log', if f.valid then [0xFF] else [], ?_, ?_, hshows⟩
    · -- the responses of this frame are those behind the earlier ones
      have hnew : r.2.responses.drop s.responses.length =
          (if f.valid then [0xFF] else []).map fun a => [a] := by
        rw [hshows.answers, hs.answers, answers_step hlog, List.length_replicate, List.replicate_add,
          List.drop_left' List.length_replicate]
        cases f.valid <;> rfl
      rw [← hnew]
      rfl
    · rw [hlog]

/-- Where `main` waits for a frame. -/
theorem handle_at {thread : MainThread} (hat : thread.At t.stage)
    (hwaits : thread.handle f.rx arrivals ≠ none) :
    (∃ fault, thread.handle f.rx arrivals = some (.error fault) ∧
      t.handle f = some (t.take f .crashed [])) ∨
    ∃ thread' stage answers, thread.handle f.rx arrivals =
        some (.ok (thread', answers.map fun a => [a])) ∧
      t.handle f = some (t.take f stage answers) ∧ thread'.At stage := by
  cases thread with
  | naming s =>
    cases hstage : t.stage with
    | naming names =>
      rw [hstage] at hat
      exact Or.inr (handle_naming f arrivals hstage hat)
    | _ =>
      rw [hstage] at hat
      exact hat.elim
  | looping s =>
    cases hstage : t.stage with
    | serving n log =>
      rw [hstage] at hat
      exact handle_looping f arrivals hstage hat
    | _ =>
      rw [hstage] at hat
      exact hat.elim
  | searching _ | ended => exact absurd rfl hwaits

end handle

/-! ### One step -/

namespace Firmware

/-- Firmware and session agree after the same steps. -/
def Agrees : Except Fault Firmware → Session → Prop
  | .ok s, t => s.board.Shared t.inbox ∧ s.Serves t
  | .error _, t => t.stage = .crashed

section step

variable {s : Firmware} {t : Session}

/-- The board keeps what is beside the UART. -/
theorem Serves.of_kept (h : s.Serves t) (board : Board) (hhandled : board.handled = s.board.handled)
    (hresponses : board.responses = s.board.responses) (inbox : Inbox) :
    Serves { s with board } { t with inbox } := by
  have hholds : ∀ {p a}, s.board.Holds p a → board.Holds p a := by
    rintro p a ⟨b, hb, hcontents⟩
    exact ⟨b, by rw [hresponses, hb], hcontents⟩
  obtain ⟨made, unsent, hanswers, hunsent, hmade⟩ := h.answers
  refine ⟨hhandled.trans h.taken, h.thread, ⟨made, unsent, hanswers, hunsent, ?_⟩, h.once, ?_,
    h.behind⟩
  · exact hmade.imp fun _ _ => hholds
  · intro p
    rw [← h.filled p, hresponses]

/-- A step of the board that takes no frame and fills no buffer. -/
theorem serves_onBoard (hshared : s.board.Shared t.inbox) (h : s.Serves t) {e : BoardStep}
    (hget : e ≠ .rx .get) (hfill : ∀ b, e ≠ .tx (.fill b)) {x : Except Fault Firmware}
    (hs : s.onBoard e = some x) : ∃ inbox s', Board.inboxStep t.inbox e = some inbox ∧ x = .ok s' ∧
      s'.board.Shared inbox ∧ s'.Serves { t with inbox } := by
  obtain ⟨y, hy, rfl⟩ := Option.map_eq_some_iff.mp hs
  obtain ⟨inbox, board, hinbox, rfl, hboard, hkept⟩ := Board.shared_step hshared hy
  refine ⟨inbox, { s with board }, hinbox, rfl, hboard, h.of_kept board ?_ ?_ inbox⟩
  · rw [hkept.handled]
    cases e with
    | rx e =>
      cases e with
      | get => exact absurd rfl hget
      | _ => rfl
    | tx e => rfl
  · rw [hkept.responses]
    cases e with
    | rx e => rfl
    | tx e =>
      cases e with
      | fill b => exact absurd rfl (hfill b)
      | _ => rfl

/-- The first frame on the fifo is the next of the inbox. -/
theorem next_frame (hshared : s.board.Shared t.inbox) (h : s.Serves t) {rx : UartData}
    {rest : List UartData} (hfifo : s.board.uart.rxFifo = rx :: rest) :
    Receiver.Filled rx ∧ t.inbox.frames[t.taken.length]? = some rx.contents := by
  have hput : s.board.receiver.put = t.taken.map RxFrame.rx ++ rx :: rest := by
    rw [← h.taken, ← hfifo]
    rfl
  refine ⟨hshared.filled rx ?_, ?_⟩
  · rw [hput]
    exact List.mem_append_right _ List.mem_cons_self
  · rw [← hshared.receives.frames, hput, List.map_append, List.getElem?_append_right (by simp)]
    simp

/-- `main` takes a frame. -/
theorem serves_take (hshared : s.board.Shared t.inbox) (h : s.Serves t) {arrivals : List Packet}
    {x : Except Fault Firmware} (hs : step (.ok s) (.take arrivals) = some x) :
    ∃ f t', t.step (.frame f) = some t' ∧ Agrees x t' := by
  simp only [step] at hs
  split at hs
  swap
  · cases hs
  rename_i hwaiting
  cases hfifo : s.board.uart.rxFifo with
  | nil =>
    simp only [hfifo, reduceCtorEq] at hs
  | cons rx rest =>
  simp only [hfifo] at hs
  obtain ⟨hfilled, hnext⟩ := next_frame hshared h hfifo
  let f : RxFrame := ⟨rx, hfilled.1, hfilled.2⟩
  have hstep : t.step (.frame f) = t.handle f := if_pos hnext
  have hwaits : s.thread.handle f.rx arrivals ≠ none := by
    intro hnone
    have hrx : s.thread.handle rx arrivals = none := hnone
    rw [hrx] at hs
    cases hs
  rcases handle_at f arrivals h.thread hwaits with
    ⟨fault, hhandle, hcrash⟩ | ⟨thread, stage, answers, hhandle, htake, hat⟩
  · have hrx : s.thread.handle rx arrivals = some (.error fault) := hhandle
    rw [hrx] at hs
    obtain rfl := Option.some.inj hs
    exact ⟨f, _, hstep.trans hcrash, rfl⟩
  · have hrx : s.thread.handle rx arrivals = some (.ok (thread, answers.map fun a => [a])) := hhandle
    rw [hrx] at hs
    obtain ⟨y, hy, rfl⟩ := Option.map_eq_some_iff.mp hs
    obtain ⟨inbox, board, hinbox, rfl, hboard, hkept⟩ := Board.shared_step hshared hy
    obtain rfl : t.inbox = inbox := Option.some.inj hinbox
    refine ⟨f, _, hstep.trans htake, hboard, ?_⟩
    have hhandled : board.handled = s.board.handled ++ [rx] := by
      rw [hkept.handled]
      exact congrArg (s.board.handled ++ List.take 1 ·) hfifo
    have hkeep := h.of_kept { board with handled := s.board.handled } rfl hkept.responses t.inbox
    obtain ⟨made, unsent, hmade, hunsent, hholds⟩ := hkeep.answers
    -- `main` waits, so all answers up to here have their buffers
    have hnone : unsent = [] := List.map_eq_nil_iff.mp (hunsent.symm.trans hwaiting.2)
    refine ⟨?_, hat, ⟨made, answers, ?_, rfl, hholds⟩, hkeep.once, hkeep.filled, hkeep.behind⟩
    · show board.handled = (t.taken ++ [f]).map RxFrame.rx
      rw [hhandled, h.taken, List.map_append]
      rfl
    · show t.answers ++ answers = made ++ answers
      rw [show t.answers = made ++ unsent from hmade, hnone, List.append_nil]

/-- Only a thread that searches is where a session searches. -/
theorem at_searching {names : List (List UInt8)} (h : (MainThread.searching names).At t.stage) :
    t.stage = .searching names := by
  cases hstage : t.stage with
  | searching names' =>
    rw [hstage] at h
    exact congrArg SessionStage.searching (Eq.symm h)
  | _ =>
    rw [hstage] at h
    exact h.elim

/-- The search is over. -/
theorem serves_found (hshared : s.board.Shared t.inbox) (h : s.Serves t) {spheros : List Sphero}
    {x : Except Fault Firmware} (hs : step (.ok s) (.found spheros) = some x) :
    ∃ t', t.step (.found spheros.length) = some t' ∧ ∃ s', x = .ok s' ∧ Agrees (.ok s') t' := by
  simp only [step] at hs
  split at hs
  swap
  · cases hs
  rename_i hwaiting
  cases hthread : s.thread with
  | searching names =>
    simp only [hthread] at hs
    obtain rfl := Option.some.inj hs
    have hstage := at_searching (hthread ▸ h.thread)
    obtain ⟨made, unsent, hanswers, hunsent, hmade⟩ := h.answers
    -- `main` is in no call, so nothing is left to be answered
    have hnone : unsent = [] := List.map_eq_nil_iff.mp (hunsent.symm.trans hwaiting.2)
    refine ⟨{ t with
        stage := .serving spheros.length Console.Log.start
        answers := t.answers ++ [0x10] }, by simp only [Session.step, hstage], _, rfl, hshared, h.taken,
      Main.shows_start spheros, ⟨made, [0x10], ?_, rfl, hmade⟩, h.once, h.filled, h.behind⟩
    show t.answers ++ [0x10] = made ++ [0x10]
    rw [hanswers, hnone, List.append_nil]
  | naming _ | looping _ | ended =>
    simp only [hthread, reduceCtorEq] at hs

/-- There is no search. -/
theorem serves_failed (hshared : s.board.Shared t.inbox) (h : s.Serves t)
    {x : Except Fault Firmware} (hs : step (.ok s) .failed = some x) :
    ∃ t', t.step .failed = some t' ∧ ∃ s', x = .ok s' ∧ Agrees (.ok s') t' := by
  simp only [step] at hs
  split at hs
  swap
  · cases hs
  cases hthread : s.thread with
  | searching names =>
    simp only [hthread] at hs
    obtain rfl := Option.some.inj hs
    have hstage := at_searching (hthread ▸ h.thread)
    exact ⟨{ t with stage := .ended }, by simp only [Session.step, hstage], _, rfl, hshared, h.taken,
      trivial, h.answers, h.once, h.filled, h.behind⟩
  | naming _ | looping _ | ended =>
    simp only [hthread, reduceCtorEq] at hs

/-- `send_response` fills its buffer. -/
theorem serves_fill (hshared : s.board.Shared t.inbox) (h : s.Serves t) {malloc : Malloc}
    (hmalloc : malloc.isSome = true) {stack : Nat → UInt8} {x : Except Fault Firmware}
    (hs : step (.ok s) (.fill malloc stack) = some x) :
    ∃ s', x = .ok s' ∧ s'.board.Shared t.inbox ∧ s'.Serves t := by
  obtain ⟨block, rfl⟩ := Option.isSome_iff_exists.mp hmalloc
  simp only [step] at hs
  obtain ⟨made, unsent, hanswers, hunsent, hmade⟩ := h.answers
  cases hsending : s.board.sending with
  | idle =>
    cases unsent with
    | nil =>
      rw [hsending, hunsent] at hs
      cases hs
    | cons a unsent =>
      obtain ⟨b, hb, hcontents⟩ := UartData.response_one block (dataAt [a] stack)
      rw [hsending, hunsent] at hs
      simp only [List.map_cons, List.length_singleton, hb] at hs
      obtain ⟨y, hy, rfl⟩ := Option.map_eq_some_iff.mp hs
      obtain ⟨inbox, board, hinbox, rfl, hboard, hkept⟩ := Board.shared_step hshared hy
      obtain rfl : t.inbox = inbox := Option.some.inj hinbox
      -- the block is new: no earlier answer lies in it
      have hnew : s.board.uart.nextPtr ∉ s.board.responses := hshared.resumes.owned.not_filled
      have hresponses : board.responses = s.board.responses.insert s.board.uart.nextPtr b :=
        hkept.responses
      refine ⟨_, rfl, hboard, hkept.handled.trans h.taken, h.thread,
        ⟨made ++ [a], unsent, ?_, rfl, ?_⟩, ?_, ?_, ?_⟩
      · rw [hanswers, List.append_assoc]
        rfl
      · refine List.rel_append (hmade.imp ?_) (.cons ?_ .nil)
        · rintro p c ⟨d, hd, hdcontents⟩
          have hp : p ≠ s.board.uart.nextPtr := fun heq =>
            hnew (heq ▸ Finmap.mem_of_lookup_eq_some hd)
          exact ⟨d, by rw [hresponses, Finmap.lookup_insert_of_ne _ hp, hd], hdcontents⟩
        · exact ⟨b, by rw [hresponses, Finmap.lookup_insert], hcontents⟩
      · refine List.nodup_append.mpr ⟨h.once, List.nodup_singleton _, ?_⟩
        intro p hp q hq heq
        rw [List.mem_singleton.mp hq] at heq
        exact hnew ((h.filled _).mpr (heq ▸ hp))
      · intro p
        show p ∈ board.responses ↔ p ∈ s.answered ++ [s.board.uart.nextPtr]
        rw [hresponses, Finmap.mem_insert, List.mem_append, List.mem_singleton, h.filled, or_comm]
      · show s.behind + 3 = 3 * (s.answered ++ [s.board.uart.nextPtr]).length
        rw [h.behind, List.length_append, List.length_singleton]
        omega
  | filled _ | refused _ =>
    rw [hsending] at hs
    cases hs

/-- **One step.** -/
theorem serves_step (hshared : s.board.Shared t.inbox) (h : s.Serves t) {e : FirmwareStep}
    (he : e.Allocates) {x : Except Fault Firmware} (hs : step (.ok s) e = some x) :
    ∃ fs t', Transition.run Session.step t fs = some t' ∧
      fs.flatMap HostEvent.outside = e.outside ∧ Agrees x t' := by
  cases e with
  | interrupt e =>
    obtain ⟨inbox, s', hinbox, rfl, hboard, hserves⟩ := serves_onBoard hshared h (e := e.boardStep)
      (by cases e <;> simp [Interrupt.boardStep]) (by cases e <;> simp [Interrupt.boardStep]) hs
    show ∃ fs t', Transition.run Session.step t fs = some t' ∧
      fs.flatMap HostEvent.outside = e.boardStep.outside ∧ Agrees (.ok s') t'
    -- the session sees what is received, and nothing of the transmission
    cases hstep : e.boardStep with
    | rx e =>
      rw [hstep] at hinbox
      refine ⟨[.receive e], { t with inbox }, ?_, rfl, hboard, hserves⟩
      have hreceive : t.step (.receive e) = some { t with inbox } := by
        show (t.inbox.step e).map _ = _
        rw [show t.inbox.step e = some inbox from hinbox]
        rfl
      rw [Transition.run_cons, hreceive]
      rfl
    | tx e =>
      rw [hstep] at hinbox
      obtain rfl : t.inbox = inbox := Option.some.inj hinbox
      exact ⟨[], t, rfl, rfl, hboard, hserves⟩
  | take arrivals =>
    obtain ⟨f, t', ht', hx⟩ := serves_take hshared h hs
    refine ⟨[.frame f], t', ?_, rfl, hx⟩
    rw [Transition.run_cons, ht']
    rfl
  | found spheros =>
    obtain ⟨t', ht', s', rfl, hagrees⟩ := serves_found hshared h hs
    refine ⟨[.found spheros.length], t', ?_, rfl, hagrees⟩
    rw [Transition.run_cons, ht']
    rfl
  | failed =>
    obtain ⟨t', ht', s', rfl, hagrees⟩ := serves_failed hshared h hs
    refine ⟨[.failed], t', ?_, rfl, hagrees⟩
    rw [Transition.run_cons, ht']
    rfl
  | fill malloc stack =>
    obtain ⟨s', rfl, hboard, hserves⟩ := serves_fill hshared h he hs
    exact ⟨[], t, rfl, rfl, hboard, hserves⟩
  | tx =>
    obtain ⟨inbox, s', hinbox, rfl, hboard, hserves⟩ := serves_onBoard hshared h (e := .tx .tx)
      (by simp) (by simp) hs
    obtain rfl : t.inbox = inbox := Option.some.inj hinbox
    exact ⟨[], t, rfl, rfl, hboard, hserves⟩
  | put =>
    obtain ⟨inbox, s', hinbox, rfl, hboard, hserves⟩ := serves_onBoard hshared h (e := .tx .put)
      (by simp) (by simp) hs
    obtain rfl : t.inbox = inbox := Option.some.inj hinbox
    exact ⟨[], t, rfl, rfl, hboard, hserves⟩

end step

/-! ### Every run -/

/-- A program that has faulted goes no further. -/
theorem run_error {fault : Fault} {es : List FirmwareStep} :
    Transition.run step (.error fault) es = some (.error fault) := by
  induction es with
  | nil => rfl
  | cons e es ih => exact ih

/-- The session saw what came from outside, up to the fault if there was one. -/
def Saw (es : List FirmwareStep) (fs : List HostEvent) : Except Fault Firmware → Prop
  | .ok _ => fs.flatMap HostEvent.outside = es.flatMap FirmwareStep.outside
  | .error _ => fs.flatMap HostEvent.outside <+: es.flatMap FirmwareStep.outside

theorem serves_run {es : List FirmwareStep} (hmemory : ∀ e ∈ es, e.Allocates) {s : Firmware}
    {t : Session} (hshared : s.board.Shared t.inbox) (h : s.Serves t) {x : Except Fault Firmware}
    (hrun : Transition.run step (.ok s) es = some x) :
    ∃ fs t', Transition.run Session.step t fs = some t' ∧ Saw es fs x ∧ Agrees x t' := by
  induction es generalizing s t with
  | nil =>
    obtain rfl := Option.some.inj hrun
    exact ⟨[], t, rfl, rfl, hshared, h⟩
  | cons e es ih =>
    obtain ⟨y, hy, hrest⟩ := Transition.run_cons_eq_some hrun
    obtain ⟨fs, m, hm, hsaw, hagrees⟩ := serves_step hshared h (hmemory e List.mem_cons_self) hy
    cases y with
    | error fault =>
      -- the program has ended; what comes from outside afterwards is not seen
      rw [run_error] at hrest
      obtain rfl := Option.some.inj hrest
      refine ⟨fs, m, hm, ?_, hagrees⟩
      rw [Saw, hsaw, List.flatMap_cons]
      exact List.prefix_append _ _
    | ok s' =>
      obtain ⟨gs, t', ht', hsaws, hagrees'⟩ := ih
        (fun e he => hmemory e (List.mem_cons_of_mem _ he)) hagrees.1 hagrees.2 hrest
      refine ⟨fs ++ gs, t', ?_, ?_, hagrees'⟩
      · rw [Transition.run_append, hm]
        exact ht'
      · cases x with
        | ok _ =>
          rw [Saw, List.flatMap_append, List.flatMap_cons, hsaw]
          exact congrArg (_ ++ ·) hsaws
        | error _ =>
          rw [Saw, List.flatMap_append, List.flatMap_cons, hsaw]
          exact (List.prefix_append_right_inj _).mpr hsaws

/-- What holds in the end. -/
def Concludes : Except Fault Firmware → Session → Prop
  | .ok s, t => s.board.Shares t.inbox ∧ s.Serves t
  | .error _, t => t.stage = .crashed

end Firmware

end NrfSpheros
