import TdxTools.Attestation.ReportParsing

namespace TdxTools.FullDiskEncryption.TdReport

open Python.ByteString Python.Exec Attestation.Utility Attestation.ReportParsing

def REPORT_MAX_STRUCT_SIZE : Nat := 0x100
def TEE_TCB_INFO_SIZE : Nat := 0xef
def RESERVED_SIZE : Nat := 0x11
def TD_INFO_SIZE : Nat := 0x200

/-- `[u8; 1024]`. -/
abbrev ReportBytes := { bytes : Bytes // bytes.length = 1024 }

/-- `bytes[i..j].to_vec()`; `none` is a panic. -/
def range (bytes : Bytes) (i j : Nat) : Option Bytes :=
  if i ≤ j ∧ j ≤ bytes.length then some (slice bytes i j) else none

structure TDInfo where
  attributes : Bytes
  xfam : Bytes
  mrtd : Bytes
  mrconfigid : Bytes
  mrowner : Bytes
  mrownerconfig : Bytes
  rtmr_0 : Bytes
  rtmr_1 : Bytes
  rtmr_2 : Bytes
  rtmr_3 : Bytes
  deriving DecidableEq, Repr

def TDInfo.new (bytes : Bytes) : Option TDInfo := do
  let offset := 0
  let attributes ← range bytes offset (offset + 0x08)
  let offset := offset + 0x08
  let xfam ← range bytes offset (offset + 0x08)
  let offset := offset + 0x08
  let mrtd ← range bytes offset (offset + 0x30)
  let offset := offset + 0x30
  let mrconfigid ← range bytes offset (offset + 0x30)
  let offset := offset + 0x30
  let mrowner ← range bytes offset (offset + 0x30)
  let offset := offset + 0x30
  let mrownerconfig ← range bytes offset (offset + 0x30)
  let offset := offset + 0x30
  let rtmr_0 ← range bytes offset (offset + 0x30)
  let offset := offset + 0x30
  let rtmr_1 ← range bytes offset (offset + 0x30)
  let offset := offset + 0x30
  let rtmr_2 ← range bytes offset (offset + 0x30)
  let offset := offset + 0x30
  let rtmr_3 ← range bytes offset (offset + 0x30)
  some { attributes, xfam, mrtd, mrconfigid, mrowner, mrownerconfig, rtmr_0, rtmr_1, rtmr_2, rtmr_3 }

structure TDReport where
  tdInfo : TDInfo
  deriving DecidableEq, Repr

def TDReport.new (bytes : ReportBytes) : Option TDReport := do
  let offset := REPORT_MAX_STRUCT_SIZE + TEE_TCB_INFO_SIZE + RESERVED_SIZE
  let info ← range bytes.val offset (offset + TD_INFO_SIZE)
  let tdInfo ← TDInfo.new info
  some { tdInfo }

def TDInfo.measurements (self : TDInfo) : List Bytes :=
  [self.attributes, self.xfam, self.mrtd, self.mrconfigid, self.mrowner, self.mrownerconfig,
    self.rtmr_0, self.rtmr_1, self.rtmr_2, self.rtmr_3]

theorem range_of_le {bytes : Bytes} {i j : Nat} (hij : i ≤ j) (hj : j ≤ bytes.length) :
    range bytes i j = some (slice bytes i j) := if_pos ⟨hij, hj⟩

theorem TDInfo.new_eq {bytes : Bytes} (h : bytes.length = TD_INFO_SIZE) :
    ∃ info, TDInfo.new bytes = some info ∧
      info.measurements = pieces bytes 0 TdInfo.measurementWidths := by
  have hrange : ∀ i j, i ≤ j → j ≤ 0x200 → range bytes i j = some (slice bytes i j) := by
    intro i j hij hj
    exact range_of_le hij (Nat.le_trans hj (Nat.le_of_eq h.symm))
  refine ⟨⟨slice bytes 0 0x8, slice bytes 0x8 0x10, slice bytes 0x10 0x40, slice bytes 0x40 0x70,
    slice bytes 0x70 0xa0, slice bytes 0xa0 0xd0, slice bytes 0xd0 0x100, slice bytes 0x100 0x130,
    slice bytes 0x130 0x160, slice bytes 0x160 0x190⟩, ?_, rfl⟩
  simp [TDInfo.new, hrange]

theorem TDReport.new_eq (bytes : ReportBytes) :
    ∃ rust, TDReport.new bytes = some rust ∧
      rust.tdInfo.measurements = pieces (bytes.val.drop 0x200) 0 TdInfo.measurementWidths := by
  have hrange : range bytes.val 0x200 0x400 = some (bytes.val.drop 0x200) := by
    rw [range_of_le (by norm_num) (Nat.le_of_eq bytes.property.symm), slice,
      List.take_of_length_le (Nat.le_of_eq bytes.property)]
  have hlen : (bytes.val.drop 0x200).length = TD_INFO_SIZE := by
    rw [List.length_drop, bytes.property]
    rfl
  obtain ⟨tdInfo, hnew, hmeasurements⟩ := TDInfo.new_eq hlen
  refine ⟨⟨tdInfo⟩, ?_, hmeasurements⟩
  have hoffset : REPORT_MAX_STRUCT_SIZE + TEE_TCB_INFO_SIZE + RESERVED_SIZE = 0x200 := rfl
  have hend : 0x200 + TD_INFO_SIZE = 0x400 := rfl
  rw [TDReport.new, hoffset, hend, hrange, Option.bind_eq_bind, Option.bind_some, hnew]
  rfl

/-- The fields that both implementations read are the same. -/
structure Agree (info : TdInfo) (rust : TDInfo) : Prop where
  attributes : info.attributes = some rust.attributes
  xfam : info.xfam = some rust.xfam
  mrtd : info.mrtd = some rust.mrtd
  mrconfigid : info.mrconfigid = some rust.mrconfigid
  mrowner : info.mrowner = some rust.mrowner
  mrownerconfig : info.mrownerconfig = some rust.mrownerconfig
  rtmr_0 : info.rtmr_0 = some rust.rtmr_0
  rtmr_1 : info.rtmr_1 = some rust.rtmr_1
  rtmr_2 : info.rtmr_2 = some rust.rtmr_2
  rtmr_3 : info.rtmr_3 = some rust.rtmr_3

theorem agree_of_measurements {info : TdInfo} {rust : TDInfo}
    (h : info.measurements = rust.measurements.map some) : Agree info rust := by
  simp only [TdInfo.measurements, TDInfo.measurements, List.map_cons, List.map_nil,
    List.cons.injEq] at h
  obtain ⟨h1, h2, h3, h4, h5, h6, h7, h8, h9, h10, -⟩ := h
  exact ⟨h1, h2, h3, h4, h5, h6, h7, h8, h9, h10⟩

/-- Every report is parsed without loss on both devices, and the two
implementations read the same attributes and measurements. -/
theorem report_parsed (bytes : ReportBytes) (name : NodeName) (tdquote : Option Bytes) :
    ∃ report info rust,
      Attestation.ReportParsing.TdReport.init bytes.val ⟨some name, tdquote⟩ = .ok report ∧
      report.leaves.flatten = bytes.val ∧ report.tdInfo = some info ∧
      TDReport.new bytes = some rust ∧ Agree info rust.tdInfo := by
  obtain ⟨report, info, hinit, hleaves, hinfo, hmeasurements⟩ :=
    Attestation.ReportParsing.TdReport.init_eq bytes.property name tdquote
  obtain ⟨rust, hnew, hrust⟩ := TDReport.new_eq bytes
  refine ⟨report, info, rust, hinit, hleaves, hinfo, hnew, agree_of_measurements ?_⟩
  rw [hmeasurements, hrust]

end TdxTools.FullDiskEncryption.TdReport
