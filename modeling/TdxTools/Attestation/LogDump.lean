import TdxTools.Attestation.HexDump
import TdxTools.Attestation.NoAction
import TdxTools.Python.Decimal

namespace TdxTools.Attestation.LogDump

open Python.ByteString Python.Text Python.Exec Python.Dictionary Python.Decimal Python.Format Blob
open EventLog Actor HexDump

abbrev Log := List Str

def info (line : Str) : Py Log Unit := .modify (fun log => log ++ [line])

section Tables

def EVENT_TABLE : Dict Nat Str :=
  [ (0x0, "EV_PREBOOT_CERT".toList), (0x1, "EV_POST_CODE".toList), (0x2, "EV_UNUSED".toList),
    (0x3, "EV_NO_ACTION".toList), (0x4, "EV_SEPARATOR".toList), (0x5, "EV_ACTION".toList),
    (0x6, "EV_EVENT_TAG".toList), (0x7, "EV_S_CRTM_CONTENTS".toList),
    (0x8, "EV_S_CRTM_VERSION".toList), (0x9, "EV_CPU_MICROCODE".toList),
    (0xa, "EV_PLATFORM_CONFIG_FLAGS".toList), (0xb, "EV_TABLE_OF_DEVICES".toList),
    (0xc, "EV_COMPACT_HASH".toList), (0xd, "EV_IPL".toList), (0xe, "EV_IPL_PARTITION_DATA".toList),
    (0xf, "EV_NONHOST_CODE".toList), (0x10, "EV_NONHOST_CONFIG".toList),
    (0x11, "EV_NONHOST_INFO".toList), (0x12, "EV_OMIT_BOOT_DEVICE_EVENTS".toList),
    (0x80000000, "EV_EFI_EVENT_BASE".toList),
    (0x80000001, "EV_EFI_VARIABLE_DRIVER_CONFIG".toList), (0x80000002, "EV_EFI_VARIABLE_BOOT".toList),
    (0x80000003, "EV_EFI_BOOT_SERVICES_APPLICATION".toList),
    (0x80000004, "EV_EFI_BOOT_SERVICES_DRIVER".toList),
    (0x80000005, "EV_EFI_RUNTIME_SERVICES_DRIVER".toList), (0x80000006, "EV_EFI_GPT_EVENT".toList),
    (0x80000007, "EV_EFI_ACTION".toList), (0x80000008, "EV_EFI_PLATFORM_FIRMWARE_BLOB".toList),
    (0x80000009, "EV_EFI_HANDOFF_TABLES".toList), (0x800000e0, "EV_EFI_VARIABLE_AUTHORITY".toList) ]

def getTypeString (eventType : Nat) : Str := (get? EVENT_TABLE eventType).getD "UNKNOWN".toList

def TPM_ALG_TABLE : Dict Nat Str :=
  [ (0x1, "TPM_ALG_RSA".toList), (0x3, "TPM_ALG_TDES".toList), (0xb, "TPM_ALG_SHA256".toList),
    (0xc, "TPM_ALG_SHA384".toList), (0xd, "TPM_ALG_SHA512".toList) ]

def getAlgorithmString (algoid : Nat) : Str := (get? TPM_ALG_TABLE algoid).getD "UNKNOWN".toList

end Tables

section Dumping

def dumpBlob (blob : BinaryBlob) : Py Log Unit := do
  let lines ← .lift (dump blob)
  .modify (fun log => log ++ lines)

def RAW_DATA : Str := "RAW DATA: ----------------------------------------------".toList

def dumpBase (self : TDEventLogBase) : Py Log Unit := do
  info RAW_DATA
  let data ← .lift (.ofOption .typeError self.data)
  dumpBlob ⟨data, self.address⟩
  info RAW_DATA

def rtmrLine (self : TDEventLogBase) : Str := "RTMR              : ".toList ++ decimalInt self.rtmr

def lengthLine (self : TDEventLogBase) : Str := "Length            : ".toList ++ decimal self.length

def typeLine (number : Str) (etype : Nat) : Str :=
  number ++ " (".toList ++ getTypeString etype ++ ")".toList

def algorithmsNumberLine (self : TDEventLogSpecIdHeader) : Str :=
  "Algorithms Number : ".toList ++ decimal self.algorithmsNumber

def algorithmsIdLine (self : TDEventLogEntry) : Str :=
  "Algorithms ID     : ".toList ++ decimal self.algorithmsId ++ " (".toList ++
    getAlgorithmString self.algorithmsId ++ ")".toList

def dumpAlgorithms : List (Nat × Nat) → Py Log Unit
  | [] => pure ()
  | (algoid, size) :: digestSizes => do
    info ("  Algorithms[0x".toList ++ formatX 1 algoid ++ "] Size: ".toList ++ decimal (size * 8))
    dumpAlgorithms digestSizes

def dumpSpecIdHeader (self : TDEventLogSpecIdHeader) : Py Log Unit := do
  info (rtmrLine self.toTDEventLogBase)
  info (typeLine ("Type              : ".toList ++ decimal self.etype) self.etype)
  info (lengthLine self.toTDEventLogBase)
  info (algorithmsNumberLine self)
  dumpAlgorithms self.digestSizes
  dumpBase self.toTDEventLogBase

def dumpDigests : Nat → List Bytes → Py Log Unit
  | _, [] => pure ()
  | count, digest :: digests => do
    info ("Digest[".toList ++ decimal count ++ "] :".toList)
    dumpBlob ⟨digest, 0⟩
    dumpDigests (count + 1) digests

def dumpEntry (self : TDEventLogEntry) : Py Log Unit := do
  info (rtmrLine self.toTDEventLogBase)
  info (typeLine ("Type              : 0x".toList ++ formatX 1 self.etype) self.etype)
  info (lengthLine self.toTDEventLogBase)
  info (algorithmsIdLine self)
  dumpDigests 0 self.digests
  dumpBase self.toTDEventLogBase
  info []

def heading (count address : Nat) : Str :=
  "==== TDX Event Log Entry - ".toList ++ decimal count ++ " [0x".toList ++ formatX 1 address ++
    "] ====".toList

def dumpEntries (logBase : Nat) : Nat → Nat → List TDEventLogEntry → Py Log Unit
  | _, _, [] => pure ()
  | count, start, eventLog :: eventLogs => do
    info (heading count (logBase + start))
    dumpEntry eventLog
    dumpEntries logBase (count + 1) (start + eventLog.length) eventLogs

/-- The object and the lines that are logged. -/
structure Dumping where
  actor : TDEventLogActor
  log : Log

/-- `dump_td_event_logs` with its lines. The places are counted from the spec-ID
record on, and no EV_NO_ACTION record but the last is counted. -/
def dumpTdEventLogs (ccelFile : CcelFile) : Py Dumping Unit := do
  .within Dumping.actor (fun actor s => { s with actor }) (TDEventLogActor.process ccelFile)
  let s ← .get
  .within Dumping.log (fun log s => { s with log }) do
    info (heading 0 (s.actor.logBase + 0))
    let header ← .lift (.ofOption .attributeError s.actor.specidHeader)
    dumpSpecIdHeader header
    dumpEntries s.actor.logBase 1 (0 + header.length) s.actor.eventLogs

end Dumping

section Lines

/-- The statements return and have logged these lines. -/
def Logs (x : Py Log Unit) (lines : Log) : Prop := ∀ log, x log = (.ok (), log ++ lines)

theorem logs_info (line : Str) : Logs (info line) [line] := fun _ => rfl

theorem logs_pure : Logs (pure ()) [] := fun log => by simp

theorem Logs.bind {x y : Py Log Unit} {lines more : Log} (hx : Logs x lines) (hy : Logs y more) :
    Logs (x >>= fun _ => y) (lines ++ more) := by
  intro log
  rw [Py.bind_ok (hx log), hy, List.append_assoc]

/-- The lines of a hex dump. -/
def hexLines (blob : BinaryBlob) : Log := (List.range ((blob.length + 15) / 16)).map (line blob)

theorem logs_dumpBlob {blob : BinaryBlob} (h : blob.data ≠ []) : Logs (dumpBlob blob) (hexLines blob) := by
  intro log
  rw [dumpBlob, dump_eq h, Py.lift_ok_bind_apply]
  rfl

def rawLines (address : Nat) (data : Bytes) : Log :=
  RAW_DATA :: (hexLines ⟨data, address⟩ ++ [RAW_DATA])

theorem logs_dumpBase {self : TDEventLogBase} {data : Bytes} (hdata : self.data = some data)
    (hne : data ≠ []) : Logs (dumpBase self) (rawLines self.address data) := by
  have hblob : Logs (dumpBlob ⟨data, self.address⟩) (hexLines ⟨data, self.address⟩) :=
    logs_dumpBlob hne
  rw [dumpBase, hdata]
  exact (logs_info RAW_DATA).bind (hblob.bind (logs_info RAW_DATA))

def algorithmLines (digestSizes : List (Nat × Nat)) : Log :=
  digestSizes.map fun a =>
    "  Algorithms[0x".toList ++ formatX 1 a.1 ++ "] Size: ".toList ++ decimal (a.2 * 8)

theorem logs_dumpAlgorithms (digestSizes : List (Nat × Nat)) :
    Logs (dumpAlgorithms digestSizes) (algorithmLines digestSizes) := by
  induction digestSizes with
  | nil => exact logs_pure
  | cons a digestSizes ih => exact (logs_info _).bind ih

/-- The lines of a spec-ID record before its raw data. -/
def headerText (self : TDEventLogSpecIdHeader) : Log :=
  [rtmrLine self.toTDEventLogBase,
    typeLine ("Type              : ".toList ++ decimal self.etype) self.etype,
    lengthLine self.toTDEventLogBase, algorithmsNumberLine self] ++ algorithmLines self.digestSizes

theorem logs_dumpSpecIdHeader {self : TDEventLogSpecIdHeader} {data : Bytes}
    (hdata : self.data = some data) (hne : data ≠ []) :
    Logs (dumpSpecIdHeader self) (headerText self ++ rawLines self.address data) := by
  have hlines := (logs_info (rtmrLine self.toTDEventLogBase)).bind ((logs_info (typeLine
    ("Type              : ".toList ++ decimal self.etype) self.etype)).bind
    ((logs_info (lengthLine self.toTDEventLogBase)).bind ((logs_info (algorithmsNumberLine self)).bind
      ((logs_dumpAlgorithms self.digestSizes).bind (logs_dumpBase hdata hne)))))
  simpa only [dumpSpecIdHeader, headerText, List.append_assoc, List.cons_append, List.nil_append]
    using hlines

def digestLines : Nat → List Bytes → Log
  | _, [] => []
  | count, digest :: digests =>
    ("Digest[".toList ++ decimal count ++ "] :".toList) ::
      (hexLines ⟨digest, 0⟩ ++ digestLines (count + 1) digests)

theorem logs_dumpDigests (count : Nat) {digests : List Bytes} (h : ∀ d ∈ digests, d ≠ []) :
    Logs (dumpDigests count digests) (digestLines count digests) := by
  induction digests generalizing count with
  | nil => exact logs_pure
  | cons d digests ih =>
    have hrest := ih (count + 1) fun d' hd' => h d' (List.mem_cons_of_mem _ hd')
    exact (logs_info _).bind ((logs_dumpBlob (h d List.mem_cons_self)).bind hrest)

/-- The lines of an event record before its raw data. -/
def entryText (self : TDEventLogEntry) : Log :=
  [rtmrLine self.toTDEventLogBase,
    typeLine ("Type              : 0x".toList ++ formatX 1 self.etype) self.etype,
    lengthLine self.toTDEventLogBase, algorithmsIdLine self] ++ digestLines 0 self.digests

theorem logs_dumpEntry {self : TDEventLogEntry} {data : Bytes} (hdata : self.data = some data)
    (hne : data ≠ []) (hdigests : ∀ d ∈ self.digests, d ≠ []) :
    Logs (dumpEntry self) (entryText self ++ rawLines self.address data ++ [[]]) := by
  have hlines := (logs_info (rtmrLine self.toTDEventLogBase)).bind ((logs_info (typeLine
    ("Type              : 0x".toList ++ formatX 1 self.etype) self.etype)).bind
    ((logs_info (lengthLine self.toTDEventLogBase)).bind ((logs_info (algorithmsIdLine self)).bind
      ((logs_dumpDigests 0 hdigests).bind ((logs_dumpBase hdata hne).bind (logs_info []))))))
  simpa only [dumpEntry, entryText, List.append_assoc, List.cons_append, List.nil_append] using hlines

end Lines

section Sections

/-- A heading and the lines below it. -/
structure DumpSection where
  title : Str
  text : Log
  address : Nat
  data : Bytes
  rest : Log

def DumpSection.lines (s : DumpSection) : Log :=
  s.title :: (s.text ++ rawLines s.address s.data ++ s.rest)

/-- An entry as it comes from the parser: its data is there, and no digest is empty. -/
def Whole (e : TDEventLogEntry) : Prop :=
  ∃ data, e.data = some data ∧ data ≠ [] ∧ ∀ d ∈ e.digests, d ≠ []

def entrySection (count address : Nat) (e : TDEventLogEntry) : DumpSection :=
  { title := heading count address, text := entryText e, address := e.address
    data := e.data.getD [], rest := [[]] }

def entrySections (logBase : Nat) : Nat → Nat → List TDEventLogEntry → List DumpSection
  | _, _, [] => []
  | count, start, e :: eventLogs =>
    entrySection count (logBase + start) e ::
      entrySections logBase (count + 1) (start + e.length) eventLogs

theorem logs_dumpEntries (logBase count start : Nat) {eventLogs : List TDEventLogEntry}
    (h : ∀ e ∈ eventLogs, Whole e) : Logs (dumpEntries logBase count start eventLogs)
      ((entrySections logBase count start eventLogs).flatMap DumpSection.lines) := by
  induction eventLogs generalizing count start with
  | nil => exact logs_pure
  | cons e eventLogs ih =>
    obtain ⟨data, hdata, hne, hdigests⟩ := h e List.mem_cons_self
    have hrest := ih (count + 1) (start + e.length) fun e' he' => h e' (List.mem_cons_of_mem _ he')
    have hlines : (entrySection count (logBase + start) e).lines =
        [heading count (logBase + start)] ++ (entryText e ++ rawLines e.address data ++ [[]]) := by
      simp [entrySection, DumpSection.lines, hdata]
    rw [entrySections, List.flatMap_cons, hlines, List.append_assoc]
    exact (logs_info _).bind ((logs_dumpEntry hdata hne hdigests).bind hrest)

def headerSection (logBase : Nat) (header : TDEventLogSpecIdHeader) : DumpSection :=
  { title := heading 0 (logBase + 0), text := headerText header, address := header.address
    data := header.data.getD [], rest := [] }

/-- The sections of a dump. -/
def dumpSections (actor : TDEventLogActor) (header : TDEventLogSpecIdHeader) : List DumpSection :=
  headerSection actor.logBase header ::
    entrySections actor.logBase 1 (0 + header.length) actor.eventLogs

theorem dump_sections {ccelFile : CcelFile} {actor parsed : TDEventLogActor} (log : Log)
    (hp : TDEventLogActor.process ccelFile actor = (.ok (), parsed)) {header : TDEventLogSpecIdHeader}
    (hheader : parsed.specidHeader = some header) {data : Bytes} (hdata : header.data = some data)
    (hne : data ≠ []) (hentries : ∀ e ∈ parsed.eventLogs, Whole e) :
    dumpTdEventLogs ccelFile ⟨actor, log⟩ =
      (.ok (), ⟨parsed, log ++ (dumpSections parsed header).flatMap DumpSection.lines⟩) := by
  have hlines := (logs_info (heading 0 (parsed.logBase + 0))).bind
    ((logs_dumpSpecIdHeader hdata hne).bind (logs_dumpEntries parsed.logBase 1 (0 + header.length)
      hentries))
  have htext : (dumpSections parsed header).flatMap DumpSection.lines =
      [heading 0 (parsed.logBase + 0)] ++ (headerText header ++ rawLines header.address data ++
        (entrySections parsed.logBase 1 (0 + header.length) parsed.eventLogs).flatMap
          DumpSection.lines) := by
    simp [dumpSections, headerSection, DumpSection.lines, hdata]
  rw [dumpTdEventLogs, Py.bind_ok (Py.within_ok hp), Py.get_bind_apply]
  apply Py.within_ok
  dsimp only
  rw [hheader, htext]
  exact hlines log

end Sections

end TdxTools.Attestation.LogDump
