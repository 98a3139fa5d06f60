import TdxTools.Attestation.Blob
import TdxTools.Attestation.Utility

namespace TdxTools.Attestation.ReportParsing

open Python.ByteString Python.Exec Python.Text Blob Utility

/-- The fields of a struct in the order in which they are read, with their widths. -/
abbrev Layout (σ : Type) := List (Nat × (Bytes → σ → σ))

section Layouts

variable {σ : Type} {data : Bytes} {layout : Layout σ} {offset n : Nat}

/-- A constructor whose last statement is `self.parse()`. -/
def construct {σ : Type} (parse : Py σ Unit) (self : σ) : Outcome σ := do
  (parse self).1
  .ok (parse self).2

theorem construct_ok {parse : Py σ Unit} {self self' : σ} (h : parse self = (.ok (), self')) :
    construct parse self = .ok self' := by
  rw [construct, h]
  rfl

/-- All the fields of a layout lie in the data and are read. -/
theorem layout_read (hpos : ∀ f ∈ layout, 0 < f.1) (hsum : offset + (layout.map Prod.fst).sum = n)
    (hlen : n ≤ data.length) (self : σ) :
    BinaryBlob.getFields ⟨data, 0⟩ layout offset self =
      (.ok n, BinaryBlob.putFields data layout offset self) := by
  rw [← hsum] at hlen ⊢
  exact BinaryBlob.getFields_eq hpos hlen self

theorem pieces_whole (widths : List Nat) (hlen : data.length = widths.sum) :
    (pieces data 0 widths).flatten = data := by
  rw [flatten_pieces, slice_zero, Nat.zero_add, ← hlen, List.take_length]

end Layouts

structure ReportMacStruct extends BinaryBlob where
  reportType : Option Bytes := none
  reserverd1 : Option Bytes := none
  cpusvn : Option Bytes := none
  teeTcbInfoHash : Option Bytes := none
  teeInfoHash : Option Bytes := none
  reportData : Option Bytes := none
  reserverd2 : Option Bytes := none
  mac : Option Bytes := none
  deriving DecidableEq, Repr

namespace ReportMacStruct

def layout : Layout ReportMacStruct :=
  [ (0x8, fun b self => { self with reportType := some b }),
    (0x8, fun b self => { self with reserverd1 := some b }),
    (0x10, fun b self => { self with cpusvn := some b }),
    (0x30, fun b self => { self with teeTcbInfoHash := some b }),
    (0x30, fun b self => { self with teeInfoHash := some b }),
    (0x40, fun b self => { self with reportData := some b }),
    (0x20, fun b self => { self with reserverd2 := some b }),
    (0x20, fun b self => { self with mac := some b }) ]

def parse : Py ReportMacStruct Unit := do
  let self ← .get
  let _ ← self.getFields layout 0
  pure ()

def init (data : Bytes) : Outcome ReportMacStruct := construct parse { data, baseAddress := 0 }

/-- The fields that were read, in the order of the layout. -/
def leaves (self : ReportMacStruct) : List Bytes :=
  [self.reportType, self.reserverd1, self.cpusvn, self.teeTcbInfoHash, self.teeInfoHash,
    self.reportData, self.reserverd2, self.mac].reduceOption

theorem init_eq {data : Bytes} (h : data.length = 0x100) :
    ∃ self, init data = .ok self ∧ self.leaves.flatten = data := by
  refine ⟨BinaryBlob.putFields data layout 0 { data, baseAddress := 0 }, construct_ok ?_, ?_⟩
  · rw [parse, Py.get_bind_apply, Py.bind_ok (layout_read (n := 0x100) (by decide) rfl (by omega) _)]
    rfl
  · exact pieces_whole [0x8, 0x8, 0x10, 0x30, 0x30, 0x40, 0x20, 0x20] h

end ReportMacStruct

structure TeeTcbInfo extends BinaryBlob where
  device : Option Str
  moduleVersion : Option ModuleVersion := none
  valid : Option Bytes := none
  teeTcbSvn : Option Bytes := none
  mrseam : Option Bytes := none
  mrsignerseam : Option Bytes := none
  attributes : Option Bytes := none
  teeTcbSvn2 : Option Bytes := none
  reserved : Option Bytes := none
  deriving DecidableEq, Repr

namespace TeeTcbInfo

def layout : Layout TeeTcbInfo :=
  [ (0x8, fun b self => { self with valid := some b }),
    (0x10, fun b self => { self with teeTcbSvn := some b }),
    (0x30, fun b self => { self with mrseam := some b }),
    (0x30, fun b self => { self with mrsignerseam := some b }),
    (0x8, fun b self => { self with attributes := some b }) ]

/-- What stands behind the attributes depends on the device. -/
def tailLayout (device : Option Str) : Layout TeeTcbInfo :=
  if device = some NodeName.DEVICE_NODE_NAME_1_0.path then
    [ (0x6f, fun b self => { self with reserved := some b }) ]
  else if device = some NodeName.DEVICE_NODE_NAME_1_5.path then
    [ (0x10, fun b self => { self with teeTcbSvn2 := some b }),
      (0x5f, fun b self => { self with reserved := some b }) ]
  else []

def parse : Py TeeTcbInfo Unit := do
  let self ← .get
  if self.device = some DEVICE_NODE_NAME_DEPRECATED then pure ()
  else
    let offset ← self.getFields layout 0
    let _ ← self.getFields (tailLayout self.device) offset
    let self ← .get
    let teeTcbSvn ← .lift (.ofOption .typeError self.teeTcbSvn)
    .modify (fun self => { self with moduleVersion := ModuleVersion.fromBytes teeTcbSvn })

def init (data : Bytes) (device : Option Str) : Outcome TeeTcbInfo :=
  construct parse { data, baseAddress := 0, device }

def leaves (self : TeeTcbInfo) : List Bytes :=
  [self.valid, self.teeTcbSvn, self.mrseam, self.mrsignerseam, self.attributes, self.teeTcbSvn2,
    self.reserved].reduceOption

theorem init_eq {data : Bytes} (h : data.length = 0xef) (name : NodeName) :
    ∃ self, init data (some name.path) = .ok self ∧ self.leaves.flatten = data := by
  let fresh : TeeTcbInfo := { data, baseAddress := 0, device := some name.path }
  let head := BinaryBlob.putFields data layout 0 fresh
  let whole := BinaryBlob.putFields data (tailLayout (some name.path)) 0x80 head
  have hdevice : fresh.device ≠ some DEVICE_NODE_NAME_DEPRECATED := name.path_ne_deprecated
  have hhead : BinaryBlob.getFields ⟨data, 0⟩ layout 0 fresh = (.ok 0x80, head) :=
    layout_read (n := 0x80) (by decide) rfl (by omega) _
  have htail : BinaryBlob.getFields ⟨data, 0⟩ (tailLayout (some name.path)) 0x80 head =
      (.ok 0xef, whole) := by
    cases name with
    | DEVICE_NODE_NAME_1_0 => exact layout_read (n := 0xef) (by decide) (by decide) (by omega) _
    | DEVICE_NODE_NAME_1_5 => exact layout_read (n := 0xef) (by decide) (by decide) (by omega) _
  have hsvn : Outcome.ofOption .typeError whole.teeTcbSvn = .ok (slice data 0x8 0x18) := by
    cases name <;> rfl
  refine ⟨{ whole with moduleVersion := ModuleVersion.fromBytes (slice data 0x8 0x18) },
    construct_ok ?_, ?_⟩
  · rw [parse, Py.get_bind_apply, if_neg hdevice, Py.bind_ok hhead, Py.bind_ok htail,
      Py.get_bind_apply, hsvn, Py.lift_ok_bind_apply]
    rfl
  · cases name with
    | DEVICE_NODE_NAME_1_0 => exact pieces_whole [0x8, 0x10, 0x30, 0x30, 0x8, 0x6f] h
    | DEVICE_NODE_NAME_1_5 =>
      exact pieces_whole [0x8, 0x10, 0x30, 0x30, 0x8, 0x10, 0x5f] h

end TeeTcbInfo

structure TdInfo extends BinaryBlob where
  device : Option Str
  attributes : Option Bytes := none
  xfam : Option Bytes := none
  mrtd : Option Bytes := none
  mrconfigid : Option Bytes := none
  mrowner : Option Bytes := none
  mrownerconfig : Option Bytes := none
  rtmr_0 : Option Bytes := none
  rtmr_1 : Option Bytes := none
  rtmr_2 : Option Bytes := none
  rtmr_3 : Option Bytes := none
  servtdHash : Option Bytes := none
  reserved : Option Bytes := none
  deriving DecidableEq, Repr

namespace TdInfo

def layout : Layout TdInfo :=
  [ (0x8, fun b self => { self with attributes := some b }),
    (0x8, fun b self => { self with xfam := some b }),
    (0x30, fun b self => { self with mrtd := some b }),
    (0x30, fun b self => { self with mrconfigid := some b }),
    (0x30, fun b self => { self with mrowner := some b }),
    (0x30, fun b self => { self with mrownerconfig := some b }),
    (0x30, fun b self => { self with rtmr_0 := some b }),
    (0x30, fun b self => { self with rtmr_1 := some b }),
    (0x30, fun b self => { self with rtmr_2 := some b }),
    (0x30, fun b self => { self with rtmr_3 := some b }) ]

/-- What stands behind the registers depends on the device. -/
def tailLayout (device : Option Str) : Layout TdInfo :=
  if device = some NodeName.DEVICE_NODE_NAME_1_0.path then
    [ (0x70, fun b self => { self with reserved := some b }) ]
  else if device = some NodeName.DEVICE_NODE_NAME_1_5.path then
    [ (0x30, fun b self => { self with servtdHash := some b }),
      (0x40, fun b self => { self with reserved := some b }) ]
  else []

def parse : Py TdInfo Unit := do
  let self ← .get
  if self.device = some DEVICE_NODE_NAME_DEPRECATED then pure ()
  else
    let offset ← self.getFields layout 0
    let _ ← self.getFields (tailLayout self.device) offset
    pure ()

def init (data : Bytes) (device : Option Str) : Outcome TdInfo :=
  construct parse { data, baseAddress := 0, device }

def leaves (self : TdInfo) : List Bytes :=
  [self.attributes, self.xfam, self.mrtd, self.mrconfigid, self.mrowner, self.mrownerconfig,
    self.rtmr_0, self.rtmr_1, self.rtmr_2, self.rtmr_3, self.servtdHash, self.reserved].reduceOption

/-- The attributes, the measurements and the registers, in the order of the layout. -/
def measurements (self : TdInfo) : List (Option Bytes) :=
  [self.attributes, self.xfam, self.mrtd, self.mrconfigid, self.mrowner, self.mrownerconfig,
    self.rtmr_0, self.rtmr_1, self.rtmr_2, self.rtmr_3]

def measurementWidths : List Nat :=
  [0x8, 0x8, 0x30, 0x30, 0x30, 0x30, 0x30, 0x30, 0x30, 0x30]

theorem init_eq {data : Bytes} (h : data.length = 0x200) (name : NodeName) :
    ∃ self, init data (some name.path) = .ok self ∧ self.leaves.flatten = data ∧
      self.measurements = (pieces data 0 measurementWidths).map some := by
  let fresh : TdInfo := { data, baseAddress := 0, device := some name.path }
  let head := BinaryBlob.putFields data layout 0 fresh
  let whole := BinaryBlob.putFields data (tailLayout (some name.path)) 0x190 head
  have hdevice : fresh.device ≠ some DEVICE_NODE_NAME_DEPRECATED := name.path_ne_deprecated
  have hhead : BinaryBlob.getFields ⟨data, 0⟩ layout 0 fresh = (.ok 0x190, head) :=
    layout_read (n := 0x190) (by decide) rfl (by omega) _
  have htail : BinaryBlob.getFields ⟨data, 0⟩ (tailLayout (some name.path)) 0x190 head =
      (.ok 0x200, whole) := by
    cases name with
    | DEVICE_NODE_NAME_1_0 => exact layout_read (n := 0x200) (by decide) (by decide) (by omega) _
    | DEVICE_NODE_NAME_1_5 => exact layout_read (n := 0x200) (by decide) (by decide) (by omega) _
  refine ⟨whole, construct_ok ?_, ?_, ?_⟩
  · rw [parse, Py.get_bind_apply, if_neg hdevice, Py.bind_ok hhead, Py.bind_ok htail]
    rfl
  · cases name with
    | DEVICE_NODE_NAME_1_0 =>
      exact pieces_whole
        [0x8, 0x8, 0x30, 0x30, 0x30, 0x30, 0x30, 0x30, 0x30, 0x30, 0x70] h
    | DEVICE_NODE_NAME_1_5 =>
      exact pieces_whole
        [0x8, 0x8, 0x30, 0x30, 0x30, 0x30, 0x30, 0x30, 0x30, 0x30, 0x30, 0x40] h
  · cases name with
    | DEVICE_NODE_NAME_1_0 => rfl
    | DEVICE_NODE_NAME_1_5 => rfl

end TdInfo

structure TdReport extends BinaryBlob where
  deviceNode : DeviceNode
  reportMacStruct : Option ReportMacStruct := none
  teeTcbInfo : Option TeeTcbInfo := none
  reserved : Option Bytes := none
  tdInfo : Option TdInfo := none
  deriving DecidableEq

namespace TdReport

/-- The device node, an object, is compared with a path at first; they are never equal. -/
def parse : Py TdReport Unit := do
  let self ← .get
  let device := self.deviceNode.deviceNodeName.map NodeName.path
  let (data, offset) ← .lift (self.unpackBytes 0 0x100)
  let reportMacStruct ← .lift (ReportMacStruct.init data)
  .modify (fun self => { self with reportMacStruct := some reportMacStruct })
  let (data, offset) ← .lift (self.unpackBytes offset 0xef)
  let teeTcbInfo ← .lift (TeeTcbInfo.init data device)
  .modify (fun self => { self with teeTcbInfo := some teeTcbInfo })
  let (data, offset) ← .lift (self.unpackBytes offset 0x11)
  .modify (fun self => { self with reserved := some data })
  let (data, _) ← .lift (self.unpackBytes offset 0x200)
  let tdInfo ← .lift (TdInfo.init data device)
  .modify (fun self => { self with tdInfo := some tdInfo })

def init (data : Bytes) (deviceNode : DeviceNode) : Outcome TdReport :=
  construct parse { data, baseAddress := 0, deviceNode }

/-- The leaf fields that were read, in the order of the layout. -/
def leaves (self : TdReport) : List Bytes :=
  (self.reportMacStruct.map ReportMacStruct.leaves).getD [] ++
    (self.teeTcbInfo.map TeeTcbInfo.leaves).getD [] ++ self.reserved.toList ++
    (self.tdInfo.map TdInfo.leaves).getD []

theorem init_eq {data : Bytes} (h : data.length = 1024) (name : NodeName)
    (tdquote : Option Bytes) :
    ∃ self info, init data ⟨some name, tdquote⟩ = .ok self ∧ self.leaves.flatten = data ∧
      self.tdInfo = some info ∧
      info.measurements = (pieces (data.drop 0x200) 0 TdInfo.measurementWidths).map some := by
  have hpart : ∀ i j, i ≤ j → j ≤ 1024 → (slice data i j).length = j - i := by
    intro i j hij hj
    rw [length_slice, h]
    omega
  have hread : ∀ pos count, 0 < count → pos + count ≤ 1024 →
      BinaryBlob.unpackBytes ⟨data, 0⟩ pos count =
        .ok (slice data pos (pos + count), pos + count) := by
    intro pos count hcount hle
    exact BinaryBlob.unpackBytes_of_le hcount (Nat.le_trans hle (Nat.le_of_eq h.symm))
  have hread₁ : BinaryBlob.unpackBytes ⟨data, 0⟩ 0 0x100 = .ok (slice data 0 0x100, 0x100) :=
    hread 0 0x100 (by norm_num) (by norm_num)
  have hread₂ : BinaryBlob.unpackBytes ⟨data, 0⟩ 0x100 0xef = .ok (slice data 0x100 0x1ef, 0x1ef) :=
    hread 0x100 0xef (by norm_num) (by norm_num)
  have hread₃ : BinaryBlob.unpackBytes ⟨data, 0⟩ 0x1ef 0x11 = .ok (slice data 0x1ef 0x200, 0x200) :=
    hread 0x1ef 0x11 (by norm_num) (by norm_num)
  have hread₄ : BinaryBlob.unpackBytes ⟨data, 0⟩ 0x200 0x200 = .ok (slice data 0x200 0x400, 0x400) :=
    hread 0x200 0x200 (by norm_num) (by norm_num)
  obtain ⟨mac, hmac, hmacLeaves⟩ := ReportMacStruct.init_eq (hpart 0 0x100 (by omega) (by omega))
  obtain ⟨tcb, htcb, htcbLeaves⟩ := TeeTcbInfo.init_eq (hpart 0x100 0x1ef (by omega) (by omega)) name
  obtain ⟨info, hinfo, hinfoLeaves, hmeasurements⟩ :=
    TdInfo.init_eq (hpart 0x200 0x400 (by omega) (by omega)) name
  have hrest : slice data 0x200 0x400 = data.drop 0x200 := by
    rw [slice, List.take_of_length_le (Nat.le_of_eq h)]
  refine ⟨{ data, baseAddress := 0, deviceNode := ⟨some name, tdquote⟩, reportMacStruct := some mac
            teeTcbInfo := some tcb, reserved := some (slice data 0x1ef 0x200), tdInfo := some info },
    info, construct_ok ?_, ?_, rfl, ?_⟩
  · rw [parse, Py.get_bind_apply]
    dsimp only
    rw [hread₁, Py.lift_ok_bind_apply]
    dsimp only
    rw [hmac, Py.lift_ok_bind_apply, Py.modify_bind_apply, hread₂, Py.lift_ok_bind_apply]
    dsimp only
    rw [Option.map_some, htcb, Py.lift_ok_bind_apply, Py.modify_bind_apply, hread₃,
      Py.lift_ok_bind_apply]
    dsimp only
    rw [Py.modify_bind_apply, hread₄, Py.lift_ok_bind_apply]
    dsimp only
    rw [hinfo, Py.lift_ok_bind_apply]
    rfl
  · have hwhole := flatten_pieces data 0 [0x100, 0xef, 0x11, 0x200]
    have hleaves : mac.leaves.flatten ++ tcb.leaves.flatten ++ slice data 0x1ef 0x200 ++
        info.leaves.flatten = data := by
      rw [hmacLeaves, htcbLeaves, hinfoLeaves]
      simpa [pieces, slice_zero, List.take_of_length_le (Nat.le_of_eq h)] using hwhole
    simpa [leaves] using hleaves
  · rw [← hrest]
    exact hmeasurements

end TdReport

end TdxTools.Attestation.ReportParsing
