/-
  Before the search: the host names the robots, and `SpheroScanner` has the scan module filter them.

  1. **The loop** of `main` that takes frames until the host is finished, and `uint8ToString`.
  2. **The scanner's start**: the constructor copies the names as C strings, and `scanner_init` makes
     filters of them.  What the Bluetooth stack returns is a parameter.
  3. **Requests.**  The names share the frames with two commands: a payload of one zero byte asks for
     a reset, one of two bytes that begins with 1 says that the host is finished.  To the loop a frame
     is its request (`handleFrame_eq`), and it never reads past a frame.
  4. **Names arrive** (`names_arrive_iff`): the filters are the host's names exactly if none of them
     has a byte that ends a C string and none is taken for the end of the names.
-/
import NrfSpheros.Main.Pairing
import NrfSpheros.Ble.SpheroClient
import Mathlib.Data.List.TakeWhile

namespace NrfSpheros

/-! ## The loop -/

/-- `main` before the search, with the data of the `send_response` calls. -/
structure Naming where
  names : List (List UInt8)
  finished : Bool
  responses : List (List UInt8)
deriving DecidableEq, Repr

/-- `uint8ToString`: a `std::string` of `stop - start` bytes, which have to be there. -/
def uint8ToString (data : Vector UInt8 recieveBuffSize) (start stop : Nat) :
    Except Fault (List UInt8) :=
  if start ≤ stop ∧ stop ≤ recieveBuffSize then .ok ((data.toList.drop start).take (stop - start))
  else .error .outOfBounds

namespace Naming

/-- The state before the first frame. -/
def start : Naming := ⟨[], false, []⟩

/-- `send_response`. -/
def sendResponse (s : Naming) (data : List UInt8) : Naming :=
  { s with responses := s.responses ++ [data] }

theorem one_lt_buffSize : 1 < recieveBuffSize := by decide

/-- One turn of the loop. -/
def handleFrame (s : Naming) (rx : UartData) : Except Fault Naming := do
  have _hcommand : 1 < recieveBuffSize := one_lt_buffSize
  if ¬ (← Main.validateUartPacket rx) then return s
  if rx.len = 3 ∧ rx.data[1] = 0x00 then return s.sendResponse [0x01]
  if rx.len = 4 ∧ rx.data[1] = 0x01 then return { s with finished := true }.sendResponse [0x05]
  let spheroName ← uint8ToString rx.data 1 (rx.len.toNat - 1)
  return { s with names := s.names ++ [spheroName] }.sendResponse [0xFF]

/-- The loop takes a frame; when the host has finished, it is left. -/
def step : Except Fault Naming → RxFrame → Option (Except Fault Naming)
  | .error fault, _ => some (.error fault)
  | .ok s, f => if s.finished then none else some (s.handleFrame f.rx)

end Naming

/-! ## The scanner's start -/

/-- What the calls of the Bluetooth stack return. -/
structure BtCalls where
  btEnable : Option Errno
  /-- `bt_scan_filter_add` for a name, when there are filters already. -/
  btScanFilterAdd : List (List UInt8) → List UInt8 → Option Errno
  btScanFilterEnable : Option Errno

/-- The name filters of the scan module. -/
structure ScanFilters where
  names : List (List UInt8)
  enabled : Bool
deriving DecidableEq, Repr

/-- What `strcpy` copies of a `std::string`. -/
def cString (name : List UInt8) : List UInt8 := name.takeWhile fun c => c ≠ 0

section scanner

variable (bt : BtCalls)

/-- The loop that adds the filters; the first error ends it. -/
def addFilters (filters : List (List UInt8)) :
    List (List UInt8) → List (List UInt8) × Option Errno
  | [] => (filters, none)
  | name :: names =>
    match bt.btScanFilterAdd filters name with
    | some err => (filters, some err)
    | none => addFilters (filters ++ [name]) names

/-- `scanner_scan_init`. -/
def scannerScanInit (names : List (List UInt8)) : ScanFilters × Option Errno :=
  match addFilters bt [] names with
  | (filters, some err) => (⟨filters, false⟩, some err)
  | (filters, none) =>
    match bt.btScanFilterEnable with
    | some err => (⟨filters, false⟩, some err)
    | none => (⟨filters, true⟩, none)

/-- `scanner_init`. -/
def scannerInit (names : List (List UInt8)) : ScanFilters × Option Errno :=
  match bt.btEnable with
  | some err => (⟨[], false⟩, some err)
  | none => scannerScanInit bt names

/-- `SpheroScanner::SpheroScanner`, which does not look at what `scanner_init` returns. -/
def spheroScanner (names : List (List UInt8)) : ScanFilters :=
  (scannerInit bt (names.map cString)).1

/-- The stack accepts the names, one after the other. -/
structure BtCalls.Accepts (names : List (List UInt8)) : Prop where
  enable : bt.btEnable = none
  add : ∀ before name after, names = before ++ name :: after → bt.btScanFilterAdd before name = none
  filterEnable : bt.btScanFilterEnable = none

end scanner

/-! ## Requests -/

namespace RxFrame

/-- What stands between the start byte and the end byte. -/
def payload (f : RxFrame) : List UInt8 := (f.rx.contents.drop 1).dropLast

variable {f : RxFrame}

theorem len_le (f : RxFrame) : f.rx.len.toNat ≤ f.rx.data.toList.length := by
  rw [Vector.length_toList]
  exact f.le

/-- A frame of one byte does not begin with the one and end with the other. -/
theorem two_le_of_valid (h : f.valid = true) : 2 ≤ f.rx.len.toNat := by
  have hpos := f.pos
  have hbound : f.rx.len.toNat - 1 < recieveBuffSize := by
    have := f.le
    omega
  obtain ⟨hstart, hend⟩ : f.rx.data[0] = 0x8d ∧ f.rx.data[f.rx.len.toNat - 1] = 0x0a := by
    simpa [valid] using h
  by_contra hshort
  have hlen : f.rx.len.toNat - 1 = 0 := by omega
  simp only [hlen, hstart] at hend
  exact absurd hend (by decide)

/-- The payload is what stands between the two markers. -/
theorem payload_eq (f : RxFrame) :
    f.payload = (f.rx.data.toList.drop 1).take (f.rx.len.toNat - 1 - 1) := by
  have hle := f.len_le
  have hlen : ((f.rx.data.toList.take f.rx.len.toNat).drop 1).length = f.rx.len.toNat - 1 := by
    rw [List.length_drop, List.length_take_of_le hle]
  rw [payload, UartData.contents, List.dropLast_eq_take, hlen, List.drop_take, List.take_take,
    Nat.min_eq_left (Nat.sub_le _ _)]

theorem length_payload (h : f.valid = true) : f.payload.length + 2 = f.rx.len.toNat := by
  have hle := f.len_le
  have hmin := two_le_of_valid h
  rw [payload_eq, List.length_take, List.length_drop]
  omega

/-- The command byte is the first of the payload. -/
theorem head_payload {c : UInt8} {rest : List UInt8} (hpayload : f.payload = c :: rest) :
    f.command = c := by
  have hhead : f.payload[0]? = some c := by
    rw [hpayload]
    rfl
  rw [payload_eq, List.getElem?_take] at hhead
  split at hhead
  · rw [List.getElem?_drop, List.getElem?_eq_getElem (by
      rw [Vector.length_toList]
      decide), Option.some.injEq, Vector.getElem_toList] at hhead
    exact hhead
  · cases hhead

end RxFrame

namespace Naming

/-- What a frame asks for before the search. -/
inductive Request
  | reset
  | finish
  | name (name : List UInt8)
deriving DecidableEq, Repr

/-- What a payload asks for. -/
def request : List UInt8 → Request
  | [0x00] => .reset
  | [0x01, _] => .finish
  | name => .name name

/-- What the host asks for is done, and answered. -/
def serve (s : Naming) : Request → Naming
  | .reset => s.sendResponse [0x01]
  | .finish => { s with finished := true }.sendResponse [0x05]
  | .name name => { s with names := s.names ++ [name] }.sendResponse [0xFF]

theorem request_reset {payload : List UInt8} : request payload = .reset ↔ payload = [0x00] := by
  unfold request
  split <;> simp_all

theorem request_finish {payload : List UInt8} :
    request payload = .finish ↔ ∃ c, payload = [0x01, c] := by
  unfold request
  split <;> simp_all

/-- Any other payload is a name. -/
theorem request_name {payload : List UInt8} (hreset : payload ≠ [0x00])
    (hfinish : ∀ c, payload ≠ [0x01, c]) : request payload = .name payload := by
  unfold request
  split
  · exact absurd rfl hreset
  · exact absurd rfl (hfinish _)
  · rfl

/-- The test for a reset. -/
theorem reset_iff {f : RxFrame} (h : f.valid = true) :
    f.rx.len = 3 ∧ f.rx.data[1] = 0x00 ↔ f.payload = [0x00] := by
  have hlen := RxFrame.length_payload h
  rw [← UInt16.toNat_inj, show (3 : UInt16).toNat = 3 from rfl]
  constructor
  · rintro ⟨hthree, hzero⟩
    obtain ⟨c, hc⟩ := List.length_eq_one_iff.mp (by omega : f.payload.length = 1)
    rw [hc, ← RxFrame.head_payload hc, RxFrame.command, hzero]
  · intro hpayload
    rw [hpayload] at hlen
    exact ⟨hlen.symm, RxFrame.head_payload hpayload⟩

/-- The test for the end: the second byte is not looked at. -/
theorem finish_iff {f : RxFrame} (h : f.valid = true) :
    f.rx.len = 4 ∧ f.rx.data[1] = 0x01 ↔ ∃ c, f.payload = [0x01, c] := by
  have hlen := RxFrame.length_payload h
  rw [← UInt16.toNat_inj, show (4 : UInt16).toNat = 4 from rfl]
  constructor
  · rintro ⟨hfour, hone⟩
    obtain ⟨c, d, hcd⟩ := List.length_eq_two.mp (by omega : f.payload.length = 2)
    refine ⟨d, ?_⟩
    rw [hcd, ← RxFrame.head_payload hcd, RxFrame.command, hone]
  · rintro ⟨d, hpayload⟩
    rw [hpayload] at hlen
    exact ⟨hlen.symm, RxFrame.head_payload hpayload⟩

/-- **A frame is its request**: the loop reads no byte that is not there, and answers every valid
    frame once. -/
theorem handleFrame_eq (s : Naming) (f : RxFrame) :
    s.handleFrame f.rx = .ok (if f.valid then s.serve (request f.payload) else s) := by
  have hvalidate := Main.validateUartPacket_eq f
  unfold handleFrame
  simp only [hvalidate, bind, Except.bind]
  cases hvalid : f.valid with
  | false => rfl
  | true =>
    simp only [if_true]
    by_cases hreset : f.payload = [0x00]
    · rw [if_pos ((reset_iff hvalid).mpr hreset), request_reset.mpr hreset]
      rfl
    rw [if_neg fun h => hreset ((reset_iff hvalid).mp h)]
    by_cases hfinish : ∃ c, f.payload = [0x01, c]
    · rw [if_pos ((finish_iff hvalid).mpr hfinish), request_finish.mpr hfinish]
      rfl
    rw [if_neg fun h => hfinish ((finish_iff hvalid).mp h),
      request_name hreset fun c hc => hfinish ⟨c, hc⟩]
    have hmin := RxFrame.two_le_of_valid hvalid
    have hle := f.le
    have hthere : 1 ≤ f.rx.len.toNat - 1 ∧ f.rx.len.toNat - 1 ≤ recieveBuffSize := by omega
    rw [uint8ToString, if_pos hthere, ← RxFrame.payload_eq]
    rfl

end Naming

/-! ## Names arrive -/

namespace RxFrame

variable {f : RxFrame} {payload : List UInt8}

/-- The frame brings a payload. -/
def Brings (f : RxFrame) (payload : List UInt8) : Prop :=
  f.rx.contents = 0x8d :: payload ++ [0x0a]

instance (f : RxFrame) (payload : List UInt8) : Decidable (f.Brings payload) :=
  inferInstanceAs (Decidable (_ = _))

theorem Brings.payload_eq (h : f.Brings payload) : f.payload = payload := by
  rw [RxFrame.payload, h]
  exact List.dropLast_concat

theorem Brings.valid (h : f.Brings payload) : f.valid = true := by
  have hstart : f.rx.data[0] = 0x8d := by
    have hhead : f.rx.contents[0]? = some 0x8d := by
      rw [h]
      rfl
    rw [UartData.contents, List.getElem?_take_of_lt f.pos, List.getElem?_eq_getElem (by
      rw [Vector.length_toList]
      decide), Option.some.injEq, Vector.getElem_toList] at hhead
    exact hhead
  have hsplit : f.rx.contents = (0x8d :: payload) ++ [0x0a] := h
  have hend := UartData.lastByte_of_contents f.le hsplit
  have hpass : Main.validateUartPacket f.rx = .ok true := by
    unfold Main.validateUartPacket
    rw [if_neg (not_not.mpr hstart)]
    unfold UartData.lastByte at hend
    cases hlen : f.rx.len.toNat with
    | zero => exact absurd hlen (Nat.ne_of_gt f.pos)
    | succ last =>
      have hbound : last < recieveBuffSize := Nat.lt_of_lt_of_le (hlen ▸ Nat.lt_succ_self last) f.le
      simp only [hlen, dif_pos hbound, Except.ok.injEq] at hend
      simp only [dif_pos hbound, hend, decide_true]
  exact Except.ok.inj ((Main.validateUartPacket_eq f).symm.trans hpass)

end RxFrame

/-- No byte ends a C string, and the payload does not say that the host is finished. -/
def Plain (name : List UInt8) : Prop := 0x00 ∉ name ∧ ∀ c, name ≠ [0x01, c]

section filters

variable (bt : BtCalls)

/-- The loop comes to its end if every call of `bt_scan_filter_add` succeeds. -/
theorem addFilters_eq_none (filters names : List (List UInt8)) :
    (addFilters bt filters names).2 = none ↔ ∀ before name after,
      names = before ++ name :: after → bt.btScanFilterAdd (filters ++ before) name = none := by
  induction names generalizing filters with
  | nil => exact iff_of_true rfl fun before name after h => by simp at h
  | cons name names ih =>
    unfold addFilters
    -- the loop is left at the first error
    cases hadd : bt.btScanFilterAdd filters name with
    | some err =>
      refine iff_of_false (Option.some_ne_none err) fun h => ?_
      have hnone := h [] name names rfl
      rw [List.append_nil, hadd] at hnone
      cases hnone
    | none =>
      show (addFilters bt (filters ++ [name]) names).2 = none ↔ _
      rw [ih]
      constructor
      · intro h before other after heq
        cases before with
        | nil =>
          obtain ⟨rfl, -⟩ := List.cons.inj heq
          rw [List.append_nil, hadd]
        | cons first before =>
          obtain ⟨rfl, hrest⟩ := List.cons.inj heq
          rw [List.append_cons]
          exact h before other after hrest
      · intro h before other after heq
        rw [List.append_assoc]
        exact h (name :: before) other after (congrArg (List.cons name) heq)

theorem addFilters_names (filters names : List (List UInt8))
    (h : (addFilters bt filters names).2 = none) :
    (addFilters bt filters names).1 = filters ++ names := by
  induction names generalizing filters with
  | nil => exact (List.append_nil filters).symm
  | cons name names ih =>
    unfold addFilters at h ⊢
    cases hadd : bt.btScanFilterAdd filters name with
    | some err =>
      rw [hadd] at h
      cases h
    | none =>
      rw [hadd] at h
      exact (ih _ h).trans (List.append_cons ..).symm

/-- The filters are on if the stack accepts the names, and then they are these. -/
theorem spheroScanner_iff {names filters : List (List UInt8)} :
    spheroScanner bt names = ⟨filters, true⟩ ↔ names.map cString = filters ∧ bt.Accepts filters := by
  obtain ⟨copies, hcopies⟩ : ∃ copies, copies = names.map cString := ⟨_, rfl⟩
  have hall := addFilters_eq_none bt [] copies
  have hnames := addFilters_names bt [] copies
  have hfilterNames : (scannerInit bt copies).1 = ⟨filters, true⟩ ↔ bt.btEnable = none ∧
      addFilters bt [] copies = (filters, none) ∧ bt.btScanFilterEnable = none := by
    unfold scannerInit scannerScanInit
    cases bt.btEnable <;> rcases addFilters bt [] copies with ⟨added, _ | err⟩ <;>
      cases bt.btScanFilterEnable <;> simp
  show (scannerInit bt (names.map cString)).1 = ⟨filters, true⟩ ↔ _
  rw [← hcopies, hfilterNames]
  constructor
  · rintro ⟨henable, hadded, hfilterEnable⟩
    rw [hadded] at hall hnames
    obtain rfl : filters = copies := hnames rfl
    exact ⟨rfl, henable, hall.mp rfl, hfilterEnable⟩
  · rintro ⟨rfl, h⟩
    have hnone := hall.mpr h.add
    exact ⟨h.enable, Prod.ext (hnames hnone) hnone, h.filterEnable⟩

end filters

namespace Naming

/-- A valid frame is served. -/
theorem step_open {s : Naming} (hopen : s.finished = false) {f : RxFrame} {payload : List UInt8}
    (h : f.Brings payload) : step (.ok s) f = some (.ok (s.serve (request payload))) := by
  show (if s.finished then none else some (s.handleFrame f.rx)) = _
  rw [hopen, handleFrame_eq, h.valid, h.payload_eq]
  rfl

/-- After the end no frame is taken. -/
theorem step_finished {s : Naming} (h : s.finished = true) (f : RxFrame) :
    step (.ok s) f = none :=
  if_pos h

/-- Payloads that do not end the names. -/
theorem run_names {s : Naming} (hopen : s.finished = false) {fs : List RxFrame}
    {ns : List (List UInt8)} (hfs : List.Forall₂ RxFrame.Brings fs ns)
    (hgoing : ∀ name ∈ ns, ∀ c, name ≠ [0x01, c]) :
    Transition.run step (.ok s) fs = some (.ok ⟨s.names ++ ns.filter fun name => name ≠ [0x00], false,
      s.responses ++ ns.map fun name => if name = [0x00] then [0x01] else [0xFF]⟩) := by
  induction hfs generalizing s with
  | nil =>
    obtain ⟨names, finished, responses⟩ := s
    obtain rfl : finished = false := hopen
    rw [List.filter_nil, List.map_nil, List.append_nil, List.append_nil]
    rfl
  | @cons f name fs ns hf hfs ih =>
    have hname := hgoing name List.mem_cons_self
    have hrest := fun other hother => hgoing other (List.mem_cons_of_mem name hother)
    rw [Transition.run_cons, step_open hopen hf, Option.bind_some]
    by_cases hreset : name = [0x00]
    · rw [request_reset.mpr hreset]
      refine (ih (s := s.serve .reset) hopen hrest).trans ?_
      simp [hreset, serve, sendResponse]
    · rw [request_name hreset hname]
      refine (ih (s := s.serve (.name name)) hopen hrest).trans ?_
      simp [hreset, serve, sendResponse]

/-- Behind one that does, no frame is taken any more. -/
theorem run_stuck {s : Naming} {fs : List RxFrame} {ns : List (List UInt8)}
    (hfs : List.Forall₂ RxFrame.Brings fs ns) (hend : ∃ name ∈ ns, ∃ c, name = [0x01, c])
    (last : RxFrame) : Transition.run step (.ok s) (fs ++ [last]) = none := by
  induction hfs generalizing s with
  | nil =>
    obtain ⟨name, hname, -⟩ := hend
    cases hname
  | @cons f name fs ns hf hfs ih =>
    rw [List.cons_append, Transition.run_cons]
    cases hfinished : s.finished with
    | true =>
      rw [step_finished hfinished]
      rfl
    | false =>
      rw [step_open hfinished hf, Option.bind_some]
      by_cases hname : ∃ c, name = [0x01, c]
      · have hdone : (s.serve (request name)).finished = true := by
          rw [request_finish.mpr hname]
          rfl
        obtain ⟨next, rest, hnext⟩ := List.exists_cons_of_ne_nil (List.append_ne_nil_of_right_ne_nil fs
          (List.cons_ne_nil last []))
        rw [hnext, Transition.run_cons, step_finished hdone]
        rfl
      · obtain ⟨other, hother, hc⟩ := hend
        rcases List.mem_cons.mp hother with rfl | hother
        · exact absurd hc hname
        · exact ih ⟨other, hother, hc⟩

/-- A C string is the whole name if no byte of it ends one. -/
theorem cString_eq_iff {name : List UInt8} : cString name = name ↔ 0x00 ∉ name := by
  rw [cString, List.takeWhile_eq_self_iff]
  constructor
  · exact fun h hzero => by simpa using h _ hzero
  · intro h c hc
    exact decide_eq_true fun hzero => h (hzero ▸ hc)

/-- If the copies are the payloads, no payload was left out or cut short. -/
theorem clean_of_copies {ns : List (List UInt8)}
    (h : (ns.filter fun name => name ≠ [0x00]).map cString = ns) : ∀ name ∈ ns, 0x00 ∉ name := by
  have hkept : (ns.filter fun name => name ≠ [0x00]) = ns := by
    apply List.filter_sublist.eq_of_length
    rw [← List.length_map cString, h]
  rw [hkept] at h
  intro name hname
  rw [← cString_eq_iff]
  exact List.map_inj_left.mp (h.trans (List.map_id ns).symm) name hname

theorem copies_of_clean {ns : List (List UInt8)} (h : ∀ name ∈ ns, 0x00 ∉ name) :
    (ns.filter fun name => name ≠ [0x00]).map cString = ns := by
  have hkept : (ns.filter fun name => name ≠ [0x00]) = ns := by
    apply List.filter_eq_self.mpr
    exact fun name hname => decide_eq_true fun heq => h name hname (heq ▸ List.mem_singleton_self _)
  rw [hkept]
  exact (List.map_congr_left fun name hname => cString_eq_iff.mpr (h name hname)).trans (List.map_id ns)

/-- The frames lead `main` out of the loop, each name acknowledged, and the scan module filters
    `ns`. -/
def Heard (bt : BtCalls) (fs : List RxFrame) (ns : List (List UInt8)) : Prop :=
  ∃ s, Transition.run step (.ok start) fs = some (.ok s) ∧ s.finished = true ∧
    s.responses = List.replicate ns.length [0xFF] ++ [[0x05]] ∧
    spheroScanner bt s.names = ⟨ns, true⟩

/-- **Names arrive.**  Frames bring names, and a last one says that the host has finished: the scan
    module filters these names if and only if they are plain and the stack accepts them. -/
theorem names_arrive_iff (bt : BtCalls) {fs : List RxFrame} {ns : List (List UInt8)}
    (hfs : List.Forall₂ RxFrame.Brings fs ns) {last : RxFrame} {c : UInt8}
    (hlast : last.Brings [0x01, c]) :
    Heard bt (fs ++ [last]) ns ↔ (∀ name ∈ ns, Plain name) ∧ bt.Accepts ns := by
  by_cases hgoing : ∀ name ∈ ns, ∀ c, name ≠ [0x01, c]
  · -- the last frame ends the naming, and no other did
    have hend : Transition.run step (.ok start) (fs ++ [last]) = some (.ok ⟨ns.filter fun name =>
        name ≠ [0x00], true, (ns.map fun name => if name = [0x00] then [0x01] else [0xFF]) ++
          [[0x05]]⟩) := by
      rw [Transition.run_append, run_names (s := start) rfl hfs hgoing, Option.bind_some,
        Transition.run_cons, step_open rfl hlast, request_finish.mpr ⟨c, rfl⟩]
      rfl
    unfold Heard
    rw [hend]
    constructor
    · rintro ⟨s, hs, -, -, hfilters⟩
      obtain rfl := Except.ok.inj (Option.some.inj hs)
      obtain ⟨hcopies, haccepts⟩ := (spheroScanner_iff bt).mp hfilters
      have hclean := clean_of_copies hcopies
      exact ⟨fun name hname => ⟨hclean name hname, hgoing name hname⟩, haccepts⟩
    · rintro ⟨hplain, haccepts⟩
      have hclean : ∀ name ∈ ns, 0x00 ∉ name := fun name hname => (hplain name hname).1
      refine ⟨_, rfl, rfl, ?_, (spheroScanner_iff bt).mpr ⟨copies_of_clean hclean, haccepts⟩⟩
      refine congrArg (· ++ [[0x05]]) (List.eq_replicate_of_mem ?_ |>.trans (by rw [List.length_map]))
      rintro _ h
      obtain ⟨name, hname, rfl⟩ := List.mem_map.mp h
      have hnot : name ≠ [0x00] := fun heq => hclean name hname (heq ▸ List.mem_singleton_self _)
      exact if_neg hnot
  · refine iff_of_false ?_ fun h => hgoing fun name hname => (h.1 name hname).2
    have hend : ∃ name ∈ ns, ∃ c, name = [0x01, c] := by
      simpa only [not_forall, not_not, exists_prop] using hgoing
    rintro ⟨s, hs, -⟩
    rw [run_stuck hfs hend last] at hs
    cases hs

/-- The frame that names a robot `SB`. -/
def sb : RxFrame where
  rx := ⟨Vector.ofFn fun i => [0x8d, 0x53, 0x42, 0x0a].getD i 0, 4⟩
  pos := by decide
  le := by decide

/-- The frame that ends the names. -/
def lastFrame : RxFrame where
  rx := ⟨Vector.ofFn fun i => [0x8d, 0x01, 0x00, 0x0a].getD i 0, 4⟩
  pos := by decide
  le := by decide

/-- Two robots of one name, and a stack that accepts everything. -/
theorem names_arrive_iff_two :
    let bt : BtCalls := ⟨none, fun _ _ => none, none⟩
    Heard bt [sb, sb, lastFrame] [[0x53, 0x42], [0x53, 0x42]] ↔
      (∀ name ∈ [[0x53, 0x42], [0x53, 0x42]], Plain name) ∧
        bt.Accepts [[0x53, 0x42], [0x53, 0x42]] := by
  intro bt
  have hsb : sb.Brings [0x53, 0x42] := by decide
  have hlast : lastFrame.Brings [0x01, 0x00] := by decide
  exact names_arrive_iff bt (.cons hsb (.cons hsb .nil)) hlast

end Naming

end NrfSpheros
