import TdxTools.Attestation.BankSelection
import TdxTools.Attestation.Ccel
import TdxTools.Attestation.ReplayTotal
import TdxTools.Attestation.ReportRequest
import TdxTools.Python.Decimal

namespace TdxTools.Attestation.Verify

open Python.ByteString Python.Text Python.Exec Python.Dictionary Python.Decimal Blob
open Actor Utility Rtmr DeviceFile Descriptors ReportParsing Replay ReplayTotal BankSelection Ccel
open ReportRequest

inductive Level
  | info
  | error
  deriving DecidableEq, Repr

structure LogLine where
  level : Level
  message : Str
  deriving DecidableEq, Repr

/-- What the verifier has done: its calls on the device and its verdicts. -/
structure World where
  calls : Calls
  log : List LogLine

/-- What the verifier meets, and the hash function. -/
structure Platform extends Guest where
  acpiFile : CcelFile
  ccelFile : CcelFile
  sha384 : HashFunction 48

def verdict (rtmrIndex : Nat) (passed : Bool) : LogLine :=
  if passed then
    ⟨.info, "RTMR[".toList ++ decimal rtmrIndex ++ "] passed the verification.".toList⟩
  else ⟨.error, "RTMR[".toList ++ decimal rtmrIndex ++ "] did not pass the verification".toList⟩

namespace VerifyActor

def verifySingleRtmr (rtmrIndex : Nat) (rtmrValue1 rtmrValue2 : RTMR) : Py World Unit := do
  let same ← .lift (rtmrValue1.eq rtmrValue2)
  .modify (fun w => { w with log := w.log ++ [verdict rtmrIndex same] })

/-- `self._verify_single_rtmr(i, actor.get_rtmr_by_index(i), RTMR(bytearray(td_info.rtmr_i)))`. -/
def verifyRegister (tdEventLogActor : TDEventLogActor) (tdReport : TdReport) (i : Nat) :
    Py World Unit := do
  let replayed ← .lift (tdEventLogActor.getRtmrByIndex i)
  let tdInfo ← .lift (.ofOption .attributeError tdReport.tdInfo)
  let value ← .lift (.ofOption .typeError (TdInfo.rtmr tdInfo i))
  verifySingleRtmr i replayed (RTMR.init value)

def verifyRtmr (platform : Platform) : Py World Unit := do
  let ccelobj ← .lift (CCEL.createFromAcpiFile platform.acpiFile)
  match ccelobj with
  | none => pure ()
  | some ccelobj =>
    let base ← .lift ccelobj.logAreaStartAddress
    let length ← .lift ccelobj.logAreaMinimumLength
    let replayed := TDEventLogActor.replay platform.sha384.digest platform.ccelFile
      (TDEventLogActor.init base length)
    .lift replayed.1
    let tdEventLogActor := replayed.2
    let tdReport ← .within World.calls (fun calls w => { w with calls })
      (getTdReport platform.toGuest none)
    verifyRegister tdEventLogActor tdReport 0
    verifyRegister tdEventLogActor tdReport 1
    verifyRegister tdEventLogActor tdReport 2
    verifyRegister tdEventLogActor tdReport 3

end VerifyActor

/-- The verifier finds a table, a log that replays and a report. -/
structure Comparison (platform : Platform) (calls : Calls) where
  ccel : CCEL
  parsed : TDEventLogActor
  name : NodeName
  base : Nat
  length : Nat
  created : CCEL.createFromAcpiFile platform.acpiFile = .ok (some ccel)
  base_eq : ccel.logAreaStartAddress = .ok base
  length_eq : ccel.logAreaMinimumLength = .ok length
  process_eq : TDEventLogActor.process platform.ccelFile (TDEventLogActor.init base length) =
    (.ok (), parsed)
  measures : Measures parsed.eventLogs
  name_eq : determineDeviceNode platform.pathExists = some name
  answers : Answers platform.toMachine name calls none

namespace Comparison

variable {platform : Platform} {calls : Calls} (c : Comparison platform calls)

def callsAfter : Calls := calls ++ reportSession platform.toMachine c.name none

def report : Bytes := reportLeft platform.toMachine c.name c.callsAfter none

/-- The report's register has the value that the log gives it. -/
def Matches (i : Nat) : Prop :=
  registerOf c.report i = extended platform.sha384.digest (firstDigests i c.parsed.eventLogs)

instance (i : Nat) : Decidable (c.Matches i) := inferInstanceAs (Decidable (_ = _))

/-- The verdicts on the four registers, in order. -/
def verdicts : List LogLine := (List.range 4).map (fun i => verdict i (decide (c.Matches i)))

end Comparison

section Verdicts

variable {platform : Platform}

theorem notTooLong : ¬ TooLong none := Nat.not_lt_zero _

theorem rtmr_eq {x y : Bytes} (hx : x.length = 48) (hy : y.length = 48) :
    (RTMR.init x).eq (RTMR.init y) = .ok (decide (y = x)) := by
  have hread : ∀ z : Bytes, z.length = 48 →
      (RTMR.init z).unpackBytes 0 RTMR.RTMR_LENGTH_BY_BYTES = .ok (z, 48) := by
    intro z hz
    have hne : z ≠ [] := by
      rw [← List.length_pos_iff, hz]
      decide
    have hpiece : (RTMR.init z).unpackBytes 0 48 = .ok (z, 0 + z.length) :=
      BinaryBlob.unpackBytes_at [] [] 0 (by simp) rfl hz.symm hne
    rw [hz] at hpiece
    exact hpiece
  rw [RTMR.eq, hread x hx, Outcome.ok_bind]
  dsimp only
  rw [hread y hy, Outcome.ok_bind]
  exact congrArg _ (decide_eq_decide.mpr eq_comm)

theorem length_registerOf {report : Bytes} (h : report.length = TDX_REPORT_LEN) {i : Nat}
    (hi : i < 4) : (registerOf report i).length = 48 := by
  rw [registerOf, length_slice, h, TDX_REPORT_LEN]
  omega

theorem verifyRegister_eq {calls : Calls} (c : Comparison platform calls) {actor : TDEventLogActor}
    {tdReport : TdReport}
    (hactor : ∀ i ∈ registers, actor.getRtmrByIndex i =
      .ok (RTMR.init (extended platform.sha384.digest (firstDigests i c.parsed.eventLogs))))
    {info : TdInfo} (hinfo : tdReport.tdInfo = some info)
    (hrtmr : ∀ i < 4, TdInfo.rtmr info i = some (registerOf c.report i)) (w : World) {i : Nat}
    (hi : i < 4) : VerifyActor.verifyRegister actor tdReport i w =
      (.ok (), { w with log := w.log ++ [verdict i (decide (c.Matches i))] }) := by
  have hmem : (i : Int) ∈ registers := by
    simp only [registers, List.mem_cons, List.not_mem_nil, or_false]
    omega
  have hreport : c.report.length = TDX_REPORT_LEN := length_reportLeft notTooLong _
  have hsame := rtmr_eq (length_extended platform.sha384 (firstDigests i c.parsed.eventLogs))
    (length_registerOf hreport hi)
  rw [VerifyActor.verifyRegister, hactor i hmem, Py.lift_ok_bind_apply, hinfo, Outcome.ofOption_some,
    Py.lift_ok_bind_apply, hrtmr i hi, Outcome.ofOption_some, Py.lift_ok_bind_apply,
    VerifyActor.verifySingleRtmr, hsame, Py.lift_ok_bind_apply]
  rfl

theorem verify_of_comparison {w : World} (c : Comparison platform w.calls) :
    VerifyActor.verifyRtmr platform w = (.ok (), { calls := c.callsAfter, log := w.log ++ c.verdicts }) := by
  have hreplay := replay_eq platform.sha384.digest c.process_eq c.measures
  obtain ⟨name, tdReport, hname, -, hinit, hrun⟩ | ⟨hno, -⟩ :=
    getTdReport_eq platform.toGuest notTooLong w.calls
  case inr => exact absurd c.answers (hno _ c.name_eq)
  obtain rfl := Option.some.inj (c.name_eq.symm.trans hname)
  have hreport : c.report.length = TDX_REPORT_LEN := length_reportLeft notTooLong _
  obtain ⟨self, info, hinit', -, hinfo, hmeasurements⟩ := TdReport.init_eq hreport c.name none
  obtain rfl := Outcome.ok.inj (hinit'.symm.trans hinit)
  have hrtmr := rtmr_of_measurements hmeasurements
  have hwithin : (Py.within World.calls (fun calls w => { w with calls })
      (getTdReport platform.toGuest none)) w = (.ok self, { w with calls := c.callsAfter }) :=
    Py.within_ok hrun
  rw [VerifyActor.verifyRtmr, c.created, Py.lift_ok_bind_apply]
  dsimp only
  rw [c.base_eq, Py.lift_ok_bind_apply, c.length_eq, Py.lift_ok_bind_apply, hreplay,
    Py.lift_ok_bind_apply, Py.bind_ok hwithin]
  have hactor : ∀ i ∈ registers, TDEventLogActor.getRtmrByIndex { c.parsed with
      rtmrs := tabulate registers (fun i =>
        RTMR.init (extended platform.sha384.digest (firstDigests i c.parsed.eventLogs))) } i =
      .ok (RTMR.init (extended platform.sha384.digest (firstDigests i c.parsed.eventLogs))) := by
    intro i hi
    rw [TDEventLogActor.getRtmrByIndex, get?_tabulate registers _ i hi, Outcome.ofOption_some]
  have hstep := fun w i => verifyRegister_eq c hactor hinfo hrtmr w (i := i)
  rw [Py.bind_ok (hstep _ 0 (by decide)), Py.bind_ok (hstep _ 1 (by decide)),
    Py.bind_ok (hstep _ 2 (by decide)), hstep _ 3 (by decide)]
  simp [Comparison.verdicts, List.range_succ]

theorem quiet_of_lift {α : Type} {x : Outcome α} (h : ∀ a, x ≠ .ok a) (f : α → Py World Unit)
    (w : World) : ((Py.lift x >>= f) w).2.log = w.log ∧ ((Py.lift x >>= f) w).1 ≠ .ok () := by
  cases x with
  | ok a => exact absurd rfl (h a)
  | raised e => exact ⟨rfl, fun hok => by cases hok⟩
  | running => exact ⟨rfl, fun hok => by cases hok⟩

theorem verify_cases (platform : Platform) (w : World) :
    Nonempty (Comparison platform w.calls) ∨
      ((VerifyActor.verifyRtmr platform w).2.log = w.log ∧
        ((VerifyActor.verifyRtmr platform w).1 = .ok () ↔
          CCEL.createFromAcpiFile platform.acpiFile = .ok none)) := by
  have quiet : ∀ {r : Outcome Unit × World}, r.2.log = w.log ∧ r.1 ≠ .ok () →
      CCEL.createFromAcpiFile platform.acpiFile ≠ .ok none →
      Nonempty (Comparison platform w.calls) ∨ (r.2.log = w.log ∧
        (r.1 = .ok () ↔ CCEL.createFromAcpiFile platform.acpiFile = .ok none)) :=
    fun hr hno => .inr ⟨hr.1, iff_of_false hr.2 hno⟩
  rw [VerifyActor.verifyRtmr]
  by_cases hcreated : ∃ ccelobj, CCEL.createFromAcpiFile platform.acpiFile = .ok ccelobj
  case neg =>
    have hno : ∀ ccelobj, CCEL.createFromAcpiFile platform.acpiFile ≠ .ok ccelobj :=
      fun ccelobj h => hcreated ⟨ccelobj, h⟩
    exact quiet (quiet_of_lift hno _ w) (hno none)
  obtain ⟨ccelobj, hcreated⟩ := hcreated
  cases ccelobj with
  | none =>
    rw [hcreated]
    exact .inr ⟨rfl, iff_of_true rfl rfl⟩
  | some ccel =>
    have hsome : CCEL.createFromAcpiFile platform.acpiFile ≠ .ok none := by
      rw [hcreated]
      simp
    rw [hcreated, Py.lift_ok_bind_apply, ← hcreated]
    dsimp only
    by_cases hbase : ∃ base, ccel.logAreaStartAddress = .ok base
    case neg => exact quiet (quiet_of_lift (fun b h => hbase ⟨b, h⟩) _ w) hsome
    obtain ⟨base, hbase⟩ := hbase
    rw [hbase, Py.lift_ok_bind_apply]
    by_cases hlength : ∃ length, ccel.logAreaMinimumLength = .ok length
    case neg => exact quiet (quiet_of_lift (fun b h => hlength ⟨b, h⟩) _ w) hsome
    obtain ⟨length, hlength⟩ := hlength
    rw [hlength, Py.lift_ok_bind_apply]
    rcases hreplay : TDEventLogActor.replay platform.sha384.digest platform.ccelFile
      (TDEventLogActor.init base length) with ⟨o, actor⟩
    by_cases ho : o = .ok ()
    case neg => exact quiet (quiet_of_lift (fun _ h => ho h) _ w) hsome
    subst ho
    obtain ⟨_, parsed, hprocess, -⟩ := Py.bind_eq_ok.mp hreplay
    rw [Py.lift_ok_bind_apply]
    obtain ⟨name, report, hname, hanswers, -⟩ | ⟨-, hraised⟩ :=
      getTdReport_eq platform.toGuest notTooLong w.calls
    · exact .inl ⟨{ ccel, parsed, name, base, length, created := hcreated, base_eq := hbase
                    length_eq := hlength, process_eq := hprocess
                    measures := measures_of_replay platform.sha384.digest hprocess hreplay
                    name_eq := hname, answers := hanswers }⟩
    · have hwithin : (Py.within World.calls (fun calls w => { w with calls })
          (getTdReport platform.toGuest none)) w =
            (.raised .typeError, { w with calls := (getTdReport platform.toGuest none w.calls).2 }) := by
        rw [Py.within_apply, hraised]
      rw [Py.bind_raised hwithin]
      exact quiet ⟨rfl, fun h => by cases h⟩ hsome

end Verdicts

/-- The verifier gives its verdicts on all four registers, in order and each of
them true, or gives none. Without a verdict it returns only where there is no
readable ACPI table, and raises otherwise. -/
theorem verify_all_or_nothing (platform : Platform) (w : World) :
    (∃ c : Comparison platform w.calls, VerifyActor.verifyRtmr platform w =
      (.ok (), { calls := c.callsAfter, log := w.log ++ c.verdicts })) ∨
    (IsEmpty (Comparison platform w.calls) ∧
      (VerifyActor.verifyRtmr platform w).2.log = w.log ∧
      ((VerifyActor.verifyRtmr platform w).1 = .ok () ↔
        platform.acpiFile = .missing ∨ platform.acpiFile = .unreadable)) := by
  have hnone : CCEL.createFromAcpiFile platform.acpiFile = .ok none ↔
      platform.acpiFile = .missing ∨ platform.acpiFile = .unreadable := by
    cases platform.acpiFile with
    | missing => simp [CCEL.createFromAcpiFile]
    | unreadable => simp [CCEL.createFromAcpiFile]
    | content data =>
      rw [CCEL.createFromAcpiFile]
      split <;> simp
  by_cases hc : Nonempty (Comparison platform w.calls)
  · obtain ⟨c⟩ := hc
    exact .inl ⟨c, verify_of_comparison c⟩
  · rcases verify_cases platform w with h | ⟨hlog, hok⟩
    · exact absurd h hc
    · exact .inr ⟨not_nonempty_iff.mp hc, hlog, hok.trans hnone⟩

end TdxTools.Attestation.Verify
