import TdxTools.Attestation.Extensions
import TdxTools.General.HashChain

namespace TdxTools.Attestation.MeasuredBoot

open Python.ByteString Python.Text Python.Exec Actor Utility Rtmr DeviceFile
open Descriptors EventLogDecoding Replay BankSelection Ccel ReportRequest Verify Extensions
open General.HashChain

/-- The tools of the command line. -/
inductive Command
  | extendRtmr (args : ExtendArgs)
  | tdreport
  | quote (reportData : Option Bytes)
  | verifyRtmr

namespace Command

variable (platform : Platform)

/-- A tool runs in a process of its own, where what it raises ends. An extend
that succeeds is followed by a report. -/
def run : Command → World → World
  | extendRtmr args, w =>
    let extended := args.run platform.toTdxAttestFile platform.sha384 w.calls
    if extended.1 = .ok (some .EXTEND_SUCCESS) then
      { w with calls := (getTdReport platform.toGuest none extended.2).2 }
    else { w with calls := extended.2 }
  | tdreport, w => { w with calls := (getTdReport platform.toGuest none w.calls).2 }
  | quote reportData, w =>
    { w with calls := (getTdquoteBytes platform.toMachine reportData
      { node := newDeviceNode platform.pathExists, calls := w.calls }).2.calls }
  | verifyRtmr, w => (VerifyActor.verifyRtmr platform w).2

/-- The extension that a tool reports. -/
def reports : Command → World → List Extension
  | extendRtmr args, w => reportedBy args.index (args.value platform.sha384)
      (args.run platform.toTdxAttestFile platform.sha384 w.calls).1
  | tdreport, _ => []
  | quote _, _ => []
  | verifyRtmr, _ => []

end Command

section Runs

variable (platform : Platform)

def runCommands (commands : List Command) (w : World) : World :=
  commands.foldl (fun w c => c.run platform w) w

/-- The extensions that are reported in a run. -/
def reported : List Command → World → List Extension
  | [], _ => []
  | c :: commands, w => c.reports platform w ++ reported commands (c.run platform w)

theorem command_effect (c : Command) (w : World) : ∃ new,
    (c.run platform w).calls = w.calls ++ new ∧
      extendedBy platform.toTdxAttestFile w.calls new = c.reports platform w := by
  cases c with
  | extendRtmr args =>
    obtain ⟨new, hcalls, hnew⟩ :=
      run_effect platform.toTdxAttestFile platform.sha384 args w.calls
    rw [Command.run, Command.reports, ← hnew, hcalls]
    split
    · obtain ⟨later, hlater, hquiet⟩ := Quiet.extendedBy platform.toTdxAttestFile
        (getTdReport_quiet platform.toGuest none (w.calls ++ new))
      refine ⟨new ++ later, by rw [← List.append_assoc]; exact hlater, ?_⟩
      rw [extendedBy_append, hquiet, List.append_nil]
    · exact ⟨new, rfl, rfl⟩
  | tdreport => exact Quiet.extendedBy _ (getTdReport_quiet platform.toGuest none w.calls)
  | quote reportData => exact Quiet.extendedBy _ (getTdquoteBytes_quiet platform.toMachine reportData _)
  | verifyRtmr => exact Quiet.extendedBy _ (verifyRtmr_quiet platform w)

theorem run_extends (commands : List Command) (w : World) : ∃ new,
    (runCommands platform commands w).calls = w.calls ++ new ∧
      extendedBy platform.toTdxAttestFile w.calls new = reported platform commands w := by
  induction commands generalizing w with
  | nil => exact ⟨[], (List.append_nil _).symm, rfl⟩
  | cons c commands ih =>
    obtain ⟨new, hcalls, hnew⟩ := command_effect platform c w
    obtain ⟨later, hcallsLater, hlater⟩ := ih (c.run platform w)
    refine ⟨new ++ later, ?_, ?_⟩
    · rw [← List.append_assoc, ← hcalls]
      exact hcallsLater
    · rw [extendedBy_append, hnew, ← hcalls, hlater, reported]

end Runs

section Registers

variable (sha384 : HashFunction 48)

/-- The registers behind some extensions since the reset. -/
def registersAfter (extensions : List Extension) : Nat → Bytes :=
  extensions.foldl (bankStep (fun rtmr value => sha384.digest (rtmr ++ value)))
    (fun _ => List.replicate RTMR.RTMR_LENGTH_BY_BYTES 0)

theorem registersAfter_eq (extensions : List Extension) (i : Nat) :
    registersAfter sha384 extensions i = extended sha384.digest (itemsOf i extensions) :=
  foldl_bankStep _ extensions _ i

/-- What is hashed for two lists of extensions has no collision between them, and
none of it is hashed to the reset value. -/
def NoClash (ds es : List Bytes) : Prop :=
  (∀ x y, Hashed sha384 ds x → Hashed sha384 es y → sha384.digest x = sha384.digest y → x = y) ∧
    ∀ x, Hashed sha384 ds x ∨ Hashed sha384 es x →
      sha384.digest x ≠ List.replicate RTMR.RTMR_LENGTH_BY_BYTES 0

variable {sha384} {ds es : List Bytes}

theorem hashed_of_steps {p : Bytes × Bytes} (h : Steps (fun acc d => sha384.digest (acc ++ d))
    (List.replicate RTMR.RTMR_LENGTH_BY_BYTES 0) ds p) :
    Hashed sha384 ds (p.1 ++ p.2) ∧ p.1.length = 48 := by
  obtain ⟨pre, d, hpre, rfl⟩ := h
  exact ⟨⟨pre, d, hpre, rfl⟩, length_extended sha384 pre⟩

theorem unbroken_of_noClash (h : NoClash sha384 ds es) :
    ¬ Broken (fun acc d => sha384.digest (acc ++ d))
      (List.replicate RTMR.RTMR_LENGTH_BY_BYTES 0) ds es := by
  rintro (⟨p, q, hp, hq, hne, heq⟩ | ⟨p, hp, heq⟩ | ⟨p, hp, heq⟩)
  · obtain ⟨hhashed, hlen⟩ := hashed_of_steps hp
    obtain ⟨hhashed', hlen'⟩ := hashed_of_steps hq
    have hsame := h.1 _ _ hhashed hhashed' heq
    obtain ⟨hfst, hsnd⟩ := List.append_inj hsame (hlen.trans hlen'.symm)
    exact hne (Prod.ext hfst hsnd)
  · exact h.2 _ (.inl (hashed_of_steps hp).1) heq
  · exact h.2 _ (.inr (hashed_of_steps hp).1) heq

theorem extended_eq_iff (h : NoClash sha384 ds es) :
    extended sha384.digest ds = extended sha384.digest es ↔ ds = es :=
  foldl_eq_iff (unbroken_of_noClash h)

end Registers

/-- The reports show registers that were extended by the measured boot and then by
the requests of the tools, and by nothing else. -/
def Measured (platform : Platform) (boot : List Extension) : Prop :=
  ∀ name, determineDeviceNode platform.pathExists = some name → ∀ calls, ∀ i < 4,
    registerOf (reportLeft platform.toMachine name calls none) i =
      registersAfter platform.sha384 (boot ++ extendedBy platform.toTdxAttestFile [] calls) i

section Verified

variable {platform : Platform} {boot : List Extension}

/-- The log has the digests that the boot extended, in order. -/
def LogsBoot (boot : List Extension) (parsed : TDEventLogActor) : Prop :=
  ∀ i < 4, firstDigests (i : Nat) parsed.eventLogs = itemsOf i boot

theorem report_session_quiet (name : NodeName) (before : Calls) :
    extendedBy platform.toTdxAttestFile before (reportSession platform.toMachine name none) = [] := by
  apply extendedBy_of_no_request
  intro request req hmem
  simp only [reportSession, session, List.mem_cons, DeviceCall.ioctl.injEq, reduceCtorEq,
    List.not_mem_nil, or_false, false_or] at hmem
  rw [hmem.1]
  exact reportOperator_ne name

theorem register_of_run (hmeasured : Measured platform boot) (commands : List Command)
    (log : List LogLine)
    (c : Comparison platform (runCommands platform commands ⟨[], log⟩).calls) {i : Nat} (hi : i < 4) :
    registerOf c.report i = extended platform.sha384.digest
      (itemsOf i (boot ++ reported platform commands ⟨[], log⟩)) := by
  obtain ⟨new, hcalls, hnew⟩ := run_extends platform commands ⟨[], log⟩
  have hafter : extendedBy platform.toTdxAttestFile [] c.callsAfter =
      reported platform commands ⟨[], log⟩ := by
    rw [Comparison.callsAfter, extendedBy_append, report_session_quiet, List.append_nil, hcalls]
    exact hnew
  rw [Comparison.report, hmeasured c.name c.name_eq _ i hi, hafter, registersAfter_eq]

/-- After any run of the tools on a guest whose log has all that its boot
extended, the verifier passes the registers that no tool has reported to extend,
and fails the others. -/
theorem verified_run (hmeasured : Measured platform boot) (commands : List Command)
    (log : List LogLine)
    (c : Comparison platform (runCommands platform commands ⟨[], log⟩).calls)
    (hlogged : LogsBoot boot c.parsed)
    (hclash : ∀ i < 4, NoClash platform.sha384
      (itemsOf i (boot ++ reported platform commands ⟨[], log⟩)) (itemsOf i boot)) :
    VerifyActor.verifyRtmr platform (runCommands platform commands ⟨[], log⟩) =
      (.ok (), { calls := c.callsAfter
                 log := (runCommands platform commands ⟨[], log⟩).log ++ (List.range 4).map (fun i =>
                  verdict i (decide (itemsOf i (reported platform commands ⟨[], log⟩) = []))) }) := by
  have hmatches : ∀ i < 4, (c.Matches i ↔ itemsOf i (reported platform commands ⟨[], log⟩) = []) := by
    intro i hi
    rw [Comparison.Matches, register_of_run hmeasured commands log c hi, hlogged i hi,
      extended_eq_iff (hclash i hi), itemsOf_append, List.append_right_eq_self]
  have hverdicts : c.verdicts = (List.range 4).map (fun i =>
      verdict i (decide (itemsOf i (reported platform commands ⟨[], log⟩) = []))) := by
    apply List.map_congr_left
    intro i hi
    rw [decide_eq_decide.mpr (hmatches i (List.mem_range.mp hi))]
  rw [verify_of_comparison c, hverdicts]

/-- Against one guest only logs with the same digests pass: where one log passes
for a register, another does just if it extends that register with the same
digests in the same order. -/
theorem verified_logs_agree {platform' : Platform} (hguest : platform'.toGuest = platform.toGuest)
    (hsha384 : platform'.sha384 = platform.sha384) {calls : Calls} (c : Comparison platform calls)
    (c' : Comparison platform' calls) (i : Nat)
    (hclash : NoClash platform.sha384 (firstDigests i c.parsed.eventLogs)
      (firstDigests i c'.parsed.eventLogs)) (hpasses : c.Matches i) :
    c'.Matches i ↔ firstDigests i c'.parsed.eventLogs = firstDigests i c.parsed.eventLogs := by
  have hname : c'.name = c.name := by
    have hnames := c'.name_eq
    rw [hguest, c.name_eq] at hnames
    exact (Option.some.inj hnames).symm
  have hreport : c'.report = c.report := by
    rw [Comparison.report, Comparison.report, Comparison.callsAfter, Comparison.callsAfter, hname,
      hguest]
  rw [Comparison.Matches] at hpasses
  rw [Comparison.Matches, hreport, hpasses, hsha384, extended_eq_iff hclash]
  exact eq_comm

end Verified

section Sample

/-- A report with these registers. -/
def reportWith (rtmrs : Nat → Bytes) : Bytes :=
  List.replicate 0x2d0 0 ++ rtmrs 0 ++ rtmrs 1 ++ rtmrs 2 ++ rtmrs 3 ++ List.replicate 112 0

theorem registerOf_reportWith {rtmrs : Nat → Bytes} (h : ∀ i, (rtmrs i).length = 48) :
    ∀ i < 4, registerOf (reportWith rtmrs) i = rtmrs i := by
  have hpiece : ∀ (i : Nat) (xs zs : Bytes), xs.length = 0x2d0 + 0x30 * i →
      reportWith rtmrs = xs ++ (rtmrs i ++ zs) → registerOf (reportWith rtmrs) i = rtmrs i := by
    intro i xs zs hxs hreport
    have hslice := slice_piece xs (rtmrs i) zs
    rw [← hreport, hxs, h i] at hslice
    exact hslice
  intro i hi
  match i, hi with
  | 0, _ =>
    exact hpiece 0 (List.replicate 0x2d0 0) _ (by simp only [List.length_replicate])
      (by simp only [reportWith, List.append_assoc]; rfl)
  | 1, _ =>
    exact hpiece 1 (List.replicate 0x2d0 0 ++ rtmrs 0) _
      (by simp only [List.length_append, List.length_replicate, h])
      (by simp only [reportWith, List.append_assoc]; rfl)
  | 2, _ =>
    exact hpiece 2 (List.replicate 0x2d0 0 ++ rtmrs 0 ++ rtmrs 1) _
      (by simp only [List.length_append, List.length_replicate, h])
      (by simp only [reportWith, List.append_assoc]; rfl)
  | 3, _ =>
    exact hpiece 3 (List.replicate 0x2d0 0 ++ rtmrs 0 ++ rtmrs 1 ++ rtmrs 2) _
      (by simp only [List.length_append, List.length_replicate, h])
      (by simp only [reportWith, List.append_assoc]; rfl)

theorem length_reportWith {rtmrs : Nat → Bytes} (h : ∀ i, (rtmrs i).length = 48) :
    (reportWith rtmrs).length = 1024 := by
  simp only [reportWith, List.length_append, List.length_replicate, h]

variable (sha384 : HashFunction 48) (boot : List Extension)

theorem length_registersAfter (extensions : List Extension) (i : Nat) :
    (registersAfter sha384 extensions i).length = 48 := by
  rw [registersAfter_eq]
  exact length_extended sha384 _

/-- A node of version 1.5 on which every call succeeds. -/
def workingMachine : Machine where
  toTdxAttestFile := ExtendIma.workingFile
  addressofReportdata := 0
  addressofTdreport := 0
  addressofTdquote := 0
  memory _ _ := 0
  reply calls req :=
    if req.length = 1088 then
      req.take 64 ++ reportWith (registersAfter sha384
        (boot ++ extendedBy ExtendIma.workingFile [] calls))
    else req
  length_reply calls req := by
    split
    · next hlen =>
      rw [List.length_append, List.length_take, length_reportWith (length_registersAfter sha384 _), hlen]
      rfl
    · rfl

theorem workingMachine_reply (calls : Calls) {req : Bytes} (h : req.length = 1088) :
    ((workingMachine sha384 boot).reply calls req).drop 64 =
      reportWith (registersAfter sha384 (boot ++ extendedBy ExtendIma.workingFile [] calls)) := by
  have htake : (req.take 64).length = 64 := by
    rw [List.length_take, h]
    rfl
  rw [workingMachine]
  dsimp only
  rw [if_pos h, List.drop_left' htake]

theorem workingMachine_report (calls : Calls) :
    reportLeft (workingMachine sha384 boot) .DEVICE_NODE_NAME_1_5 calls none =
      reportWith (registersAfter sha384 (boot ++ extendedBy ExtendIma.workingFile [] calls)) := by
  have hlen : (reportRequest (workingMachine sha384 boot) .DEVICE_NODE_NAME_1_5 none).length =
      1088 := by
    simp only [reportRequest, paddedReportData, List.length_append, List.length_replicate]
    rfl
  rw [reportLeft]
  exact workingMachine_reply sha384 boot calls hlen

def workingPlatform (log : Bytes) (table : CcelTable) : Platform where
  toMachine := workingMachine sha384 boot
  pathExists path := path = NodeName.DEVICE_NODE_NAME_1_5.path
  acpiFile := .content table.encode
  ccelFile := .content log
  sha384 := sha384

theorem workingPlatform_measured (log : Bytes) (table : CcelTable) :
    Measured (workingPlatform sha384 boot log table) boot := by
  intro name hname calls i hi
  have hnode : determineDeviceNode (workingPlatform sha384 boot log table).pathExists =
      some .DEVICE_NODE_NAME_1_5 := rfl
  obtain rfl := Option.some.inj (hnode.symm.trans hname)
  have hreport : reportLeft (workingPlatform sha384 boot log table).toMachine
      .DEVICE_NODE_NAME_1_5 calls none = _ := workingMachine_report sha384 boot calls
  rw [hreport]
  exact registerOf_reportWith (length_registersAfter sha384 _) i hi

/-- SHA-384 on what the sample run extends. -/
def zerosHash : HashFunction 48 where
  digest b := if b = List.replicate 96 0 then firstExtend else secondExtend
  length_digest b := by
    split
    · exact length_beBytes _ _
    · exact length_beBytes _ _

theorem hashed_zeros {digests : List Bytes} (h : digests <+: List.replicate 2 (List.replicate 48 0))
    {x : Bytes} (hx : Hashed zerosHash digests x) :
    x = List.replicate 96 0 ∨ x = firstExtend ++ List.replicate 48 0 := by
  obtain ⟨pre, d, hpre, rfl⟩ := hx
  obtain ⟨rest, hrest⟩ := hpre.trans h
  match pre with
  | [] =>
    obtain ⟨rfl, -⟩ := List.cons.inj hrest
    exact .inl rfl
  | [a] =>
    obtain ⟨rfl, htail⟩ := List.cons.inj hrest
    have hd : d = List.replicate 48 0 := (List.cons.inj htail).1
    subst hd
    exact .inr (by decide +kernel)
  | a :: b :: pre => simp [List.replicate_succ] at hrest

theorem zerosHash_noClash {ds es : List Bytes} (hds : ds <+: List.replicate 2 (List.replicate 48 0))
    (hes : es <+: List.replicate 2 (List.replicate 48 0)) : NoClash zerosHash ds es := by
  have hne : zerosHash.digest (List.replicate 96 0) ≠
      zerosHash.digest (firstExtend ++ List.replicate 48 0) := by
    decide +kernel
  refine ⟨fun x y hx hy heq => ?_, fun x hx => ?_⟩
  · rcases hashed_zeros hds hx with rfl | rfl <;> rcases hashed_zeros hes hy with rfl | rfl
    · rfl
    · exact absurd heq hne
    · exact absurd heq.symm hne
    · rfl
  · rcases hx.elim (hashed_zeros hds) (hashed_zeros hes) with rfl | rfl
    · decide +kernel
    · decide +kernel

/-- The table that tells where a sample log of this length is. -/
def sampleTable (laml : Nat) (h : laml < 2 ^ 64) : CcelTable where
  revision := 1
  checksum := 0
  oemId := List.replicate 6 0x20
  creator := List.replicate 20 0
  ccType := 2
  ccSubtype := 0
  reserved := [0, 0]
  laml := laml
  lasa := 0
  rest := []
  revision_lt := by decide
  checksum_lt := by decide
  oemId_length := by decide
  creator_length := by decide
  ccType_lt := by decide
  ccSubtype_lt := by decide
  reserved_length := by decide
  laml_lt := h
  lasa_lt := by decide
  rest_length := by decide

/-- A guest that has extended register 0 with 48 zeros once, and a log of `n` such extends. -/
def samplePlatform (n : Nat) (h : (sampleLog n).logLength < 2 ^ 64) : Platform :=
  workingPlatform zerosHash [(0, List.replicate 48 0)] (sampleLog n).encode
    (sampleTable (sampleLog n).logLength h)

def sampleComparison (n : Nat) (h : (sampleLog n).logLength < 2 ^ 64)
    (hm : Measures ((sampleLog n).after 0 (sampleLog n).records).actor.eventLogs) (calls : Calls) :
    Comparison (samplePlatform n h) calls where
  ccel := (sampleTable (sampleLog n).logLength h).ccel
  parsed := _
  name := .DEVICE_NODE_NAME_1_5
  base := 0
  length := (sampleLog n).logLength
  created := CcelTable.createFromAcpiFile_encode _
  base_eq := CcelTable.logAreaStartAddress_ccel _
  length_eq := CcelTable.logAreaMinimumLength_ccel _
  process_eq := (sampleLog n).process_eq 0
  measures := hm
  name_eq := rfl
  answers := ⟨rfl, rfl⟩

/-- Register 2 is extended with 48 zeros. -/
def sampleExtend : Command :=
  .extendRtmr { raw := none, str := none, digest := some (ofStr (List.replicate 96 '0')), index := 2 }

theorem verified_run_sample :
    (VerifyActor.verifyRtmr (samplePlatform 1 (by decide +kernel))
      (runCommands (samplePlatform 1 (by decide +kernel)) [sampleExtend] ⟨[], []⟩)).2.log =
        [verdict 0 true, verdict 1 true, verdict 2 false, verdict 3 true] := by
  have hreported : reported (samplePlatform 1 (by decide +kernel)) [sampleExtend] ⟨[], []⟩ =
      [(2, List.replicate 48 0)] := by
    decide +kernel
  have hmeasured : Measured (samplePlatform 1 (by decide +kernel)) [(0, List.replicate 48 0)] :=
    workingPlatform_measured _ _ _ _
  have hlogged : LogsBoot [(0, List.replicate 48 0)]
      (sampleComparison 1 (by decide +kernel) (by decide +kernel)
        (runCommands (samplePlatform 1 (by decide +kernel)) [sampleExtend] ⟨[], []⟩).calls).parsed := by
    unfold LogsBoot
    decide +kernel
  have hclash : ∀ i < 4, NoClash zerosHash
      (itemsOf i ([(0, List.replicate 48 0)] ++
        reported (samplePlatform 1 (by decide +kernel)) [sampleExtend] ⟨[], []⟩))
      (itemsOf i [(0, List.replicate 48 0)]) := by
    rw [hreported]
    intro i hi
    apply zerosHash_noClash
    · revert i
      decide
    · revert i
      decide
  rw [verified_run hmeasured [sampleExtend] [] (sampleComparison 1 _ _ _) hlogged hclash, hreported]
  rfl

/-- The log with a second extend does not pass where the log with one does. -/
theorem verified_logs_agree_sample :
    (sampleComparison 1 (by decide +kernel) (by decide +kernel) []).Matches 0 ∧
      ¬ (sampleComparison 2 (by decide +kernel) (by decide +kernel) []).Matches 0 := by
  have hpasses : (sampleComparison 1 (by decide +kernel) (by decide +kernel) []).Matches 0 := by
    decide +kernel
  have hclash : NoClash zerosHash
      (firstDigests 0 (sampleComparison 1 (by decide +kernel) (by decide +kernel) []).parsed.eventLogs)
      (firstDigests 0 (sampleComparison 2 (by decide +kernel) (by decide +kernel) []).parsed.eventLogs) :=
    zerosHash_noClash (by decide +kernel) (by decide +kernel)
  have hguest : (samplePlatform 2 (by decide +kernel)).toGuest =
      (samplePlatform 1 (by decide +kernel)).toGuest := rfl
  refine ⟨hpasses, fun h => ?_⟩
  have hsame := (verified_logs_agree hguest rfl _ _ 0 hclash hpasses).mp h
  exact absurd hsame (by decide +kernel)

end Sample

end TdxTools.Attestation.MeasuredBoot
