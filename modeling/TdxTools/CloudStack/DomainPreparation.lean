import TdxTools.CloudStack.DomainXml
import TdxTools.CloudStack.VmGuest
import TdxTools.Python.Path
import TdxTools.Python.TreePaths

namespace TdxTools.CloudStack.DomainPreparation

open Python.Text Python.Decimal Python.Dictionary Python.Exec Python.ElementTree Python
open Python.TreePaths DomainXml VmGuest

def HUGEPAGE_VALUES : List Str := ["2M".toList, "1G".toList]

def COMMANDLINE : Str := "{http://libvirt.org/schemas/domain/qemu/1.0}commandline".toList
def ARG : Str := "{http://libvirt.org/schemas/domain/qemu/1.0}arg".toList

inductive Topology
  | sockets
  | cores
  | threads
  deriving DecidableEq, Repr

def Topology.attrib : Topology → Str
  | sockets => "sockets".toList
  | cores => "cores".toList
  | threads => "threads".toList

/-- The object, with the copies that no `load` fills. -/
structure DomainDocument extends VirtXml where
  logfile : Option Str := none
  qemuExec : Option Str := none
  topology : Topology → Option Str := fun _ => none

/-- A section of the SGX memory as the specification of the guest gives it. -/
structure EpcSection where
  size : Str
  prealloc : Bool
  node : Int
  deriving DecidableEq, Repr

section ByValue

variable (attrib value : Str)

/-- `_find_single_element_by_value`, which goes down by the first child with each tag. -/
def findSingleByValue : List Str → Element → Outcome (Option Element)
  | [], _ => .ok none
  | [tag], parent =>
    match (parent.findall tag).find? (get? ·.attrib attrib = some value) with
    | some item => .ok (some item)
    | none => if parent.findall tag = [] then .raised .indexError else .ok none
  | tag :: tags, parent =>
    match parent.findall tag with
    | [] => .raised .indexError
    | item :: _ => findSingleByValue tags item

/-- Change the first of some elements that has the tag and the value in place. -/
def changeValue (tag : Str) (f : Element → Element) : List Element → List Element
  | [] => []
  | child :: rest =>
    if child.tag = tag ∧ get? child.attrib attrib = some value then f child :: rest
    else child :: changeValue tag f rest

/-- Change the element that `findSingleByValue` gives in place. -/
def inSingleByValue (f : Element → Element) : List Str → Element → Element
  | [], e => e
  | [tag], parent => { parent with children := changeValue attrib value tag f parent.children }
  | tag :: tags, parent => parent.inFirst tag (inSingleByValue f tags)

end ByValue

namespace DomainDocument

def withXml (xml : VirtXml) (self : DomainDocument) : DomainDocument := { self with toVirtXml := xml }

def onXml {α : Type} (x : Py VirtXml α) : Py DomainDocument α := .within toVirtXml withXml x

/-- `_set_single_element_attrib`. -/
def setSingleElementAttrib (tagArr : List Str) (attrib value : Str) : Py DomainDocument Bool := do
  let element ← onXml (VirtXml.findSingleElement tagArr)
  if element.isSome then
    onXml (VirtXml.onTree (inSingle tagArr (·.update [(attrib, value)])))
    pure true
  else pure false

/-- `_add_new_element_by_parent` for an element that is not in a tree yet. -/
def addByParent (parent : Element) : List Str → Dict Str Str → Element
  | [], attribs => parent.update attribs
  | tag :: tags, attribs => parent.append (addByParent { tag := tag } tags attribs)

def addArg (value : Str) : Py DomainDocument Unit :=
  onXml (VirtXml.addNewElement [COMMANDLINE, ARG] [("value".toList, value)] true)

variable (saving : Element → Str → Saving)

def save (filepath : Option Str) : Py DomainDocument Bool := onXml (VirtXml.save saving filepath)

/-- The setters for the topology of the CPUs. -/
def setTopology (t : Topology) (newValue : VcpuNumber) : Py DomainDocument Unit := do
  let self ← .get
  if self.topology t = some newValue.toText then pure ()
  else
    if ← setSingleElementAttrib ["cpu".toList, "topology".toList] t.attrib newValue.toText then
      .modify fun self =>
        { self with topology := Function.update self.topology t (some newValue.toText) }
      let _ ← save saving none
      pure ()
    else pure ()

/-- An attribute that has a setter, of an element that has to be there. -/
structure Place where
  path : List Str
  attrib : Str
  copy : DomainDocument → Option Str
  keep : Option Str → DomainDocument → DomainDocument

/-- Such a setter. A `None` is set as well, and raises when the tree is made text. -/
def setPlace (place : Place) (newValue : Option Str) : Py DomainDocument Unit := do
  let self ← .get
  if place.copy self = newValue then pure ()
  else do
    let element ← onXml (VirtXml.findSingleElement place.path)
    if element.isSome then
      match newValue with
      | none => .raise .typeError
      | some value =>
        onXml (VirtXml.onTree (inSingle place.path (·.update [(place.attrib, value)])))
        .modify (place.keep newValue)
        let _ ← save saving none
        pure ()
    else .raise .attributeError

def IMAGEFILE : Place where
  path := ["devices".toList, "disk".toList, "source".toList]
  attrib := "file".toList
  copy self := self.imagefile
  keep value self := { self with imagefile := value }

def IOMODE : Place where
  path := ["devices".toList, "disk".toList, "driver".toList]
  attrib := "io".toList
  copy self := self.io
  keep value self := { self with io := value }

def CACHE : Place where
  path := ["devices".toList, "disk".toList, "driver".toList]
  attrib := "cache".toList
  copy self := self.cache
  keep value self := { self with cache := value }

def LOGFILE : Place where
  path := ["devices".toList, "console".toList, "log".toList]
  attrib := "file".toList
  copy self := self.logfile
  keep value self := { self with logfile := value }

def setImagefile (newFile : Str) : Py DomainDocument Unit := setPlace saving IMAGEFILE (some newFile)

def setIomode (iomode : Option Str) : Py DomainDocument Unit := setPlace saving IOMODE iomode

def setCache (cache : Option Str) : Py DomainDocument Unit := setPlace saving CACHE cache

def setLogfile (newFile : Str) : Py DomainDocument Unit := setPlace saving LOGFILE (some newFile)

def setQemuExec (qemuExec : Str) : Py DomainDocument Unit := do
  let self ← .get
  if self.qemuExec = some qemuExec then pure ()
  else do
    if ← onXml (VirtXml.setSingleElementValue ["devices".toList, "emulator".toList] (some qemuExec)) then
      .modify fun self => { self with qemuExec := some qemuExec }
    let _ ← save saving none
    pure ()

def setHugepageParams (hugepageSize : Str) : Py DomainDocument Unit :=
  if hugepageSize ∉ HUGEPAGE_VALUES then .raise .assertionError
  else do
    onXml (VirtXml.addNewElement ["memoryBacking".toList, "hugepages".toList, "page".toList]
      [("unit".toList, hugepageSize.drop 1), ("size".toList, hugepageSize.take 1)] false)
    let _ ← save saving none
    pure ()

def setDriver (driver : Str) : Py DomainDocument Unit := do
  let root ← onXml VirtXml.root
  let interface ← .lift (findSingleByValue "type".toList "bridge".toList
    ["devices".toList, "interface".toList] root)
  -- A sub-element of `None` is a TypeError.
  if interface.isNone then .raise .typeError
  else do
    onXml (VirtXml.onTree (inSingleByValue "type".toList "bridge".toList
      (addByParent · ["driver".toList] [("name".toList, driver)])
      ["devices".toList, "interface".toList]))
    let _ ← save saving none
    pure ()

def setCpuParams (cpuParam : Str) : Py DomainDocument Unit := do
  addArg "-cpu".toList
  addArg cpuParam
  let _ ← save saving none
  pure ()

def setOvercommitParams (overcommitParam : Str) : Py DomainDocument Unit := do
  addArg "-overcommit".toList
  addArg overcommitParam
  let _ ← save saving none
  pure ()

def bindCpuids (cpuIds : List Nat) : Py DomainDocument Unit := onXml (VirtXml.bindCpuids saving cpuIds)

def setMemNuma (memnuma : Bool) : Py DomainDocument Unit := do
  onXml (VirtXml.addNewElement ["numatune".toList, "memory".toList] [] false)
  let _ ← setSingleElementAttrib ["numatune".toList, "memory".toList] "mode".toList "strict".toList
  let _ ← setSingleElementAttrib ["numatune".toList, "memory".toList] "nodeset".toList
    (if memnuma then "0".toList else "1".toList)
  let _ ← save saving none
  pure ()

def memoryBackend (num : Nat) (epc : EpcSection) : Str :=
  "memory-backend-epc,id=mem".toList ++ decimal num ++ ",size=".toList ++ epc.size ++
    if epc.prealloc then ",prealloc=on".toList else []

def sgxEpc (num : Nat) (epc : EpcSection) : Str :=
  "sgx-epc.".toList ++ decimal (num - 1) ++ ".memdev=mem".toList ++ decimal num ++
    ",sgx-epc.".toList ++ decimal (num - 1) ++ ".node=".toList ++ decimalInt epc.node ++ ",".toList

/-- The loop of `set_epc_params`, behind some sections. -/
def epcArgs : Nat → List EpcSection → Str → Py DomainDocument Str
  | _, [], written => pure written
  | num, epc :: rest, written => do
    addArg "-object".toList
    addArg (memoryBackend (num + 1) epc)
    epcArgs (num + 1) rest (written ++ sgxEpc (num + 1) epc)

def setEpcParams (epcParam : List EpcSection) : Py DomainDocument Unit := do
  let written ← epcArgs 0 epcParam []
  addArg "-M".toList
  addArg written.dropLast
  let _ ← save saving none
  pure ()

def setVsock (cid : Int) : Py DomainDocument Unit := do
  onXml (VirtXml.addNewElement ["devices".toList, "vsock".toList, "cid".toList]
    [("auto".toList, "no".toList), ("address".toList, decimalInt cid)] false)
  let _ ← setSingleElementAttrib ["devices".toList, "vsock".toList] "model".toList "virtio".toList
  let _ ← save saving none
  pure ()

/-- An f-string of a text or of `None`. -/
def format : Option Str → Str
  | some s => s
  | none => "None".toList

/-- The data disk, with its children. -/
def dataDisk (io cache : Option Str) (diskfilePath : Str) : Element :=
  let disk : Element :=
    Element.update { tag := "disk".toList }
      [("type".toList, "file".toList), ("device".toList, "disk".toList)]
  let disk := addByParent disk ["driver".toList]
    [("name".toList, "qemu".toList), ("type".toList, "qcow2".toList), ("io".toList, format io),
      ("cache".toList, format cache), ("iothread".toList, "2".toList)]
  let disk := addByParent disk ["source".toList] [("file".toList, diskfilePath)]
  addByParent disk ["target".toList] [("dev".toList, "vdb".toList), ("bus".toList, "virtio".toList)]

def setDisk (diskfilePath : Str) : Py DomainDocument Unit := do
  let self ← .get
  onXml (VirtXml.onTree (addBelow (dataDisk self.io self.cache diskfilePath) ["devices".toList]))
  let _ ← save saving none
  pure ()

def setHugepagePath (hugepagePath : Str) : Py DomainDocument Unit := do
  onXml (VirtXml.addNewElement ["memoryBacking".toList, "path".toList] [] false)
  let _ ← onXml (VirtXml.setSingleElementValue ["memoryBacking".toList, "path".toList] (some hugepagePath))
  let _ ← save saving none
  pure ()

def setVtpmParam (vtpmPath vtpmLog : Option Str) : Py DomainDocument Unit := do
  onXml (VirtXml.addNewElement ["launchSecurity".toList, "vtpm".toList, "loader".toList] [] false)
  let _ ← onXml (VirtXml.setSingleElementValue ["launchSecurity".toList, "vtpm".toList, "loader".toList]
    (some (format vtpmPath)))
  onXml (VirtXml.addNewElement ["launchSecurity".toList, "vtpm".toList, "log".toList] [] false)
  let _ ← onXml (VirtXml.setSingleElementValue ["launchSecurity".toList, "vtpm".toList, "log".toList]
    (some (format vtpmLog)))
  let _ ← save saving none
  pure ()

end DomainDocument

/-- What the host holds and says. -/
structure Site where
  files : Str → Option Element
  templatesDir : Str
  outputDir : Str
  distro : Outcome Str
  cpuBaseFreq : Outcome Int

open DomainDocument in
/-- `VirtXml.clone`, which gives no object without the template. -/
def clone (saving : Element → Str → Saving) (site : Site) (templateName newName : Str) :
    Py DomainDocument Bool := do
  let templateFullPath := Path.join site.templatesDir (templateName ++ ".xml".toList)
  match site.files templateFullPath with
  | none => pure false
  | some parsed =>
    let newxmlFullPath := Path.join site.outputDir (newName ++ ".xml".toList)
    let _ ← onXml (VirtXml.load (some parsed) templateFullPath)
    let _ ← save saving (some newxmlFullPath)
    onXml (VirtXml.setName saving newName)
    pure true

structure VMSpec where
  sockets : Int
  cores : Int
  threads : Int
  memsize : MemorySize
  epc : Option (List EpcSection) := none

def VMSpec.vcpus (self : VMSpec) : Int := self.sockets * self.cores * self.threads

/-- What the operator reads of its guest. -/
structure Vminst where
  name : Str
  vmid : Str
  image : Str
  vmtype : Str
  vmspec : VMSpec
  boot : BootType
  kernel : Option Str
  cmdline : KernelCmdline
  ioMode : Option Str
  cache : Option Str
  cpuIds : List Nat := []
  memNuma : Option Bool := none
  hugepages : Bool := false
  hugepageSize : Str := "2M".toList
  hugepagePath : Option Str := none
  driver : Option Str := none
  vsock : Bool := false
  vsockCid : Int := 0
  diskfilePath : Option Str := none
  hasVtpm : Bool := false
  vtpmPath : Option Str := none
  vtpmLog : Option Str := none
  tsx : Option Bool := none
  tsc : Option Bool := none
  mwait : Option Str := none

def VM_TYPE_LEGACY : Str := "legacy".toList
def VM_TYPE_EFI : Str := "efi".toList
def VM_TYPE_EFI_PERF : Str := "efi_perf".toList
def VM_TYPE_LEGACY_PERF : Str := "legacy_perf".toList
def VM_TYPE_TD_SB : Str := "td_sb".toList

/-- `VMMLibvirt._TEMPLATE`. -/
def TEMPLATE : Dict Str Str :=
  [(VM_TYPE_LEGACY, "legacy-base".toList), (VM_TYPE_EFI, "ovmf-base".toList),
    (VM_TYPE_TD, "tdx-base".toList), (VM_TYPE_SGX, "sgx-base".toList),
    (VM_TYPE_TD_PERF, "tdx-base-perf".toList), (VM_TYPE_EFI_PERF, "ovmf-base-perf".toList),
    (VM_TYPE_LEGACY_PERF, "legacy-base-perf".toList), (VM_TYPE_TD_SB, "tdx-sb".toList)]

def QEMU_EXEC_CENTOS : Str := "/usr/libexec/qemu-kvm".toList
def QEMU_EXEC_UBUNTU : Str := "/usr/bin/qemu-system-x86_64".toList
def BIOS_BINARY_LEGACY_CENTOS : Str := "/usr/share/qemu-kvm/bios.bin".toList
def BIOS_BINARY_LEGACY_UBUNTU : Str := "/usr/share/seabios/bios.bin".toList
def BIOS_OVMF : Str := "/usr/share/qemu/OVMF.fd".toList
def SB_BIOS_OVMF : Str := "/usr/share/ovmf/OVMF.tdx.fd".toList

def CPU : Str := "host,-kvm-steal-time,pmu=off".toList

def SGX_CPU : Str :=
  ("host,host-phys-bits,+sgx,+sgx-debug,+sgx-exinfo," ++
    "+sgx-kss,+sgx-mode64,+sgx-provisionkey,+sgx-tokenkey,+sgx1,+sgx2,+sgxlc").toList

/-- The argument of a text that is not `None` and not empty. -/
def given (text : Option Str) (f : Str → Py DomainDocument Unit) : Py DomainDocument Unit :=
  match text with
  | none => pure ()
  | some t => if t = [] then pure () else f t

section Preparing

open DomainDocument

variable (saving : Element → Str → Saving) (site : Site) (vminst : Vminst)

def biosLegacy (distro : Str) : Str :=
  if "ubuntu".toList <:+: distro then BIOS_BINARY_LEGACY_UBUNTU else BIOS_BINARY_LEGACY_CENTOS

def qemuExecOf (distro : Str) : Str :=
  if "ubuntu".toList <:+: distro then QEMU_EXEC_UBUNTU else QEMU_EXEC_CENTOS

def paramCpu (freq : Int) : Str :=
  (if freq < 1000000 then CPU ++ ",tsc-freq=1000000000".toList else CPU) ++
    (if vminst.tsx = some false then ",-hle,-rtm".toList else []) ++
    if vminst.tsc = some false then ",-tsc-deadline".toList else []

def setCpuParamsXml : Py DomainDocument Unit := do
  let distro ← .lift site.distro
  setQemuExec saving (qemuExecOf distro)
  if vminst.vmtype ∈ [VM_TYPE_LEGACY, VM_TYPE_LEGACY_PERF] then do
    onXml (VirtXml.setLoader saving (biosLegacy distro))
    setCpuParams saving CPU
  else if vminst.vmtype ∈ [VM_TYPE_EFI, VM_TYPE_EFI_PERF] then do
    onXml (VirtXml.setLoader saving BIOS_OVMF)
    setCpuParams saving CPU
  else if vminst.vmtype = VM_TYPE_SGX then do
    onXml (VirtXml.setLoader saving (biosLegacy distro))
    setCpuParams saving SGX_CPU
    let epc ← .lift (.ofOption .attributeError vminst.vmspec.epc)
    setEpcParams saving epc
  else if vminst.vmtype ∈ [VM_TYPE_TD, VM_TYPE_TD_PERF, VM_TYPE_TD_SB] then do
    onXml (VirtXml.setLoader saving (if vminst.vmtype = VM_TYPE_TD_SB then SB_BIOS_OVMF else BIOS_OVMF))
    match vminst.hugepagePath with
    | some path => setHugepagePath saving path
    | none => pure ()
    let freq ← .lift site.cpuBaseFreq
    setCpuParams saving (paramCpu vminst freq)
  else pure ()

def setVtpmXml : Py DomainDocument Unit :=
  if vminst.vmtype ∈ [VM_TYPE_TD, VM_TYPE_TD_PERF] then
    setVtpmParam saving vminst.vtpmPath vminst.vtpmLog
  else pure ()

/-- The attributes of the guest that the template has an element for. -/
def setSpec : Py DomainDocument Unit := do
  onXml (VirtXml.setMemory saving vminst.vmspec.memsize)
  onXml (VirtXml.setUuid saving vminst.vmid)
  setImagefile saving vminst.image
  setIomode saving vminst.ioMode
  setCache saving vminst.cache
  setLogfile saving ("/tmp/".toList ++ vminst.name ++ ".log".toList)
  onXml (VirtXml.setVcpu saving (.int vminst.vmspec.vcpus))
  setTopology saving .sockets (.int vminst.vmspec.sockets)
  setTopology saving .cores (.int vminst.vmspec.cores)
  setTopology saving .threads (.int vminst.vmspec.threads)

/-- What is only set when the guest asks for it, but for its data disk. -/
def setOptions : Py DomainDocument Unit := do
  if vminst.cpuIds ≠ [] then bindCpuids saving vminst.cpuIds else pure ()
  match vminst.memNuma with
  | some memnuma => setMemNuma saving memnuma
  | none => pure ()
  if vminst.hugepages then setHugepageParams saving vminst.hugepageSize else pure ()
  given vminst.driver (setDriver saving)
  if vminst.vsock then setVsock saving vminst.vsockCid else pure ()

def setBoot : Py DomainDocument Unit :=
  match vminst.boot with
  | .BOOT_TYPE_GRUB => do
    onXml (VirtXml.setKernel saving none)
    onXml (VirtXml.setCmdline saving none)
  | .BOOT_TYPE_DIRECT => do
    onXml (VirtXml.setKernel saving vminst.kernel)
    onXml (VirtXml.setCmdline saving (some vminst.cmdline.cmdline))

/-- `VMMLibvirt._prepare_domain_xml`, from an object that holds nothing yet. -/
def prepareDomainXml : Py DomainDocument Unit := do
  let template ← .lift (.ofOption .keyError (get? TEMPLATE vminst.vmtype))
  -- An attribute of `None` cannot be set.
  if ← clone saving site template vminst.name then do
    setSpec saving vminst
    setOptions saving vminst
    given vminst.diskfilePath (setDisk saving)
    setCpuParamsXml saving site vminst
    if vminst.hasVtpm then setVtpmXml saving vminst else pure ()
    match vminst.mwait with
    | some mwait => setOvercommitParams saving ("cpu-pm=".toList ++ mwait)
    | none => pure ()
    setBoot saving vminst
  else .raise .attributeError

end Preparing

end TdxTools.CloudStack.DomainPreparation
