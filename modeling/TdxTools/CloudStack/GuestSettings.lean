import TdxTools.CloudStack.DomainOptions

namespace TdxTools.CloudStack.GuestSettings

open Python.Text Python.Decimal Python.Dictionary Python.ElementTree Python.TreePaths
open DomainXml VmGuest DomainPreparation DomainDocument DomainSlots DomainOptions

section Asked

variable (vminst : Vminst) (distro : Str) (freq : Int)

/-- What comes of an argument that is not `None` and not empty. -/
def whenGiven {α : Type} (text : Option Str) (f : Str → List α) : List α :=
  match text with
  | none => []
  | some t => if t = [] then [] else f t

def specSettings : List (Key × Option Str) :=
  [((Slot.text .memory).key, some vminst.vmspec.memsize.toText), ((Slot.text .uuid).key, some vminst.vmid),
    (Slot.imagefile.key, some vminst.image), (Slot.iomode.key, vminst.ioMode),
    (Slot.cache.key, vminst.cache),
    (Slot.logfile.key, some ("/tmp/".toList ++ vminst.name ++ ".log".toList)),
    ((Slot.text .vcpu).key, some (decimalInt vminst.vmspec.vcpus)),
    ((Slot.topology .sockets).key, some (decimalInt vminst.vmspec.sockets)),
    ((Slot.topology .cores).key, some (decimalInt vminst.vmspec.cores)),
    ((Slot.topology .threads).key, some (decimalInt vminst.vmspec.threads))]

def numaSettings : List (Key × Option Str) :=
  match vminst.memNuma with
  | some memnuma =>
    [(⟨["numatune".toList, "memory".toList], .attrib "mode".toList⟩, some "strict".toList),
      (⟨["numatune".toList, "memory".toList], .attrib "nodeset".toList⟩,
        some (if memnuma then "0".toList else "1".toList))]
  | none => []

def hugepageSettings : List (Key × Option Str) :=
  if vminst.hugepages then
    attribSettings ["memoryBacking".toList, "hugepages".toList, "page".toList]
      [("unit".toList, vminst.hugepageSize.drop 1), ("size".toList, vminst.hugepageSize.take 1)]
  else []

def driverSettings : List (Key × Option Str) :=
  whenGiven vminst.driver fun driver => attribSettings DRIVER [("name".toList, driver)]

def vsockSettings : List (Key × Option Str) :=
  if vminst.vsock then
    [(⟨["devices".toList, "vsock".toList, "cid".toList], .attrib "auto".toList⟩, some "no".toList),
      (⟨["devices".toList, "vsock".toList, "cid".toList], .attrib "address".toList⟩,
        some (decimalInt vminst.vsockCid)),
      (⟨["devices".toList, "vsock".toList], .attrib "model".toList⟩, some "virtio".toList)]
  else []

def optionSettings : List (Key × Option Str) :=
  numaSettings vminst ++ (hugepageSettings vminst ++ (driverSettings vminst ++ vsockSettings vminst))

def TD_TYPES : List Str := [VM_TYPE_TD, VM_TYPE_TD_PERF, VM_TYPE_TD_SB]

def loaderOf : Str :=
  if vminst.vmtype ∈ [VM_TYPE_LEGACY, VM_TYPE_LEGACY_PERF] then biosLegacy distro
  else if vminst.vmtype ∈ [VM_TYPE_EFI, VM_TYPE_EFI_PERF] then BIOS_OVMF
  else if vminst.vmtype = VM_TYPE_SGX then biosLegacy distro
  else if vminst.vmtype = VM_TYPE_TD_SB then SB_BIOS_OVMF
  else BIOS_OVMF

def hugepagePathSettings : List (Key × Option Str) :=
  if vminst.vmtype ∈ TD_TYPES then
    match vminst.hugepagePath with
    | some path => [(⟨["memoryBacking".toList, "path".toList], .text⟩, some path)]
    | none => []
  else []

def cpuSettings : List (Key × Option Str) :=
  (Slot.emulator.key, some (qemuExecOf distro)) ::
    ((Slot.text .loader).key, some (loaderOf vminst distro)) :: hugepagePathSettings vminst

def vtpmSettings : List (Key × Option Str) :=
  if vminst.hasVtpm ∧ vminst.vmtype ∈ [VM_TYPE_TD, VM_TYPE_TD_PERF] then
    [(⟨["launchSecurity".toList, "vtpm".toList, "loader".toList], .text⟩, some (format vminst.vtpmPath)),
      (⟨["launchSecurity".toList, "vtpm".toList, "log".toList], .text⟩, some (format vminst.vtpmLog))]
  else []

def bootSettings : List (Key × Option Str) :=
  match vminst.boot with
  | .BOOT_TYPE_GRUB => [((Slot.text .kernel).key, none), ((Slot.text .cmdline).key, none)]
  | .BOOT_TYPE_DIRECT =>
    [((Slot.text .kernel).key, vminst.kernel),
      ((Slot.text .cmdline).key, some vminst.cmdline.cmdline)]

/-- All that the guest says about its document, but for the pins, the arguments and the data disk. -/
def settings : List (Key × Option Str) :=
  ((Slot.text .name).key, some vminst.name) ::
    (specSettings vminst ++ (optionSettings vminst ++ (cpuSettings vminst distro ++
      (vtpmSettings vminst ++ bootSettings vminst))))

/-- The data disk has the I/O mode and the cache of the image. -/
def diskElements : List Element :=
  whenGiven vminst.diskfilePath fun path => [dataDisk vminst.ioMode vminst.cache path]

def cpuArgs : List Element :=
  if vminst.vmtype = VM_TYPE_SGX then
    [argLeaf "-cpu".toList, argLeaf SGX_CPU] ++ (epcLeaves 0 (vminst.vmspec.epc.getD []) ++
      [argLeaf "-M".toList, argLeaf (epcText 0 (vminst.vmspec.epc.getD [])).dropLast])
  else if vminst.vmtype ∈ TD_TYPES then [argLeaf "-cpu".toList, argLeaf (paramCpu vminst freq)]
  else [argLeaf "-cpu".toList, argLeaf CPU]

def overcommitArgs : List Element :=
  match vminst.mwait with
  | some mwait => [argLeaf "-overcommit".toList, argLeaf ("cpu-pm=".toList ++ mwait)]
  | none => []

/-- What the document has of each kind behind the elements of the template. -/
def added : Grown → List Element
  | .disk => diskElements vminst
  | .arg => cpuArgs vminst freq ++ overcommitArgs vminst
  | g => pinLeaves vminst.cpuIds g

/-- The elements that have to be in any template. -/
def BASE : List (List Str) :=
  [["name".toList], ["uuid".toList], ["memory".toList], ["vcpu".toList], ["os".toList, "loader".toList],
    ["devices".toList, "emulator".toList], ["devices".toList, "disk".toList, "source".toList],
    ["devices".toList, "disk".toList, "driver".toList],
    ["devices".toList, "console".toList, "log".toList], ["cpu".toList, "topology".toList]]

def required : List (List Str) :=
  match vminst.boot with
  | .BOOT_TYPE_GRUB => BASE
  | .BOOT_TYPE_DIRECT => BASE ++ BOOT

def SPEC_KEYS : List Key :=
  [(Slot.text .memory).key, (Slot.text .uuid).key, Slot.imagefile.key, Slot.iomode.key, Slot.cache.key,
    Slot.logfile.key, (Slot.text .vcpu).key, (Slot.topology .sockets).key, (Slot.topology .cores).key,
    (Slot.topology .threads).key]

def NUMA_KEYS : List Key :=
  [⟨["numatune".toList, "memory".toList], .attrib "mode".toList⟩,
    ⟨["numatune".toList, "memory".toList], .attrib "nodeset".toList⟩]

def HUGEPAGE_KEYS : List Key :=
  [⟨["memoryBacking".toList, "hugepages".toList, "page".toList], .attrib "unit".toList⟩,
    ⟨["memoryBacking".toList, "hugepages".toList, "page".toList], .attrib "size".toList⟩]

def DRIVER_KEYS : List Key := [⟨DRIVER, .attrib "name".toList⟩]

def VSOCK_KEYS : List Key :=
  [⟨["devices".toList, "vsock".toList, "cid".toList], .attrib "auto".toList⟩,
    ⟨["devices".toList, "vsock".toList, "cid".toList], .attrib "address".toList⟩,
    ⟨["devices".toList, "vsock".toList], .attrib "model".toList⟩]

def CPU_KEYS : List Key :=
  [Slot.emulator.key, (Slot.text .loader).key, ⟨["memoryBacking".toList, "path".toList], .text⟩]

def VTPM_KEYS : List Key :=
  [⟨["launchSecurity".toList, "vtpm".toList, "loader".toList], .text⟩,
    ⟨["launchSecurity".toList, "vtpm".toList, "log".toList], .text⟩]

def BOOT_KEYS : List Key := [(Slot.text .kernel).key, (Slot.text .cmdline).key]

/-- The keys that a guest can have a setting for. -/
def KEYS : List Key :=
  (Slot.text .name).key :: (SPEC_KEYS ++ ((NUMA_KEYS ++ (HUGEPAGE_KEYS ++ (DRIVER_KEYS ++ VSOCK_KEYS))) ++
    (CPU_KEYS ++ (VTPM_KEYS ++ BOOT_KEYS))))

theorem keys_if {c : Prop} [Decidable c] {list : List (Key × Option Str)} {keys : List Key}
    (h : list.map Prod.fst = keys) : ((if c then list else []).map Prod.fst).Sublist keys := by
  split
  · rw [h]
  · exact List.nil_sublist keys

theorem keys_numa : ((numaSettings vminst).map Prod.fst).Sublist NUMA_KEYS := by
  rw [numaSettings]
  split
  · exact List.Sublist.refl NUMA_KEYS
  · exact List.nil_sublist NUMA_KEYS

theorem keys_hugepage : ((hugepageSettings vminst).map Prod.fst).Sublist HUGEPAGE_KEYS := keys_if rfl

theorem keys_driver : ((driverSettings vminst).map Prod.fst).Sublist DRIVER_KEYS := by
  rw [driverSettings]
  cases vminst.driver with
  | none => exact List.nil_sublist DRIVER_KEYS
  | some driver =>
    dsimp only [whenGiven]
    split
    · exact List.nil_sublist DRIVER_KEYS
    · exact List.Sublist.refl DRIVER_KEYS

theorem keys_vsock : ((vsockSettings vminst).map Prod.fst).Sublist VSOCK_KEYS := keys_if rfl

theorem keys_cpu : ((cpuSettings vminst distro).map Prod.fst).Sublist CPU_KEYS := by
  refine List.Sublist.cons_cons _ (List.Sublist.cons_cons _ ?_)
  rw [hugepagePathSettings]
  split
  · cases vminst.hugepagePath with
    | none => exact List.nil_sublist _
    | some path => exact List.Sublist.refl _
  · exact List.nil_sublist _

theorem keys_vtpm : ((vtpmSettings vminst).map Prod.fst).Sublist VTPM_KEYS := keys_if rfl

theorem keys_boot : (bootSettings vminst).map Prod.fst = BOOT_KEYS := by
  rw [bootSettings]
  split <;> rfl

theorem keys_settings : ((settings vminst distro).map Prod.fst).Sublist KEYS := by
  rw [settings, List.map_cons, List.map_append, List.map_append, List.map_append, List.map_append,
    keys_boot, optionSettings, List.map_append, List.map_append, List.map_append]
  exact List.Sublist.cons_cons _ ((List.Sublist.refl SPEC_KEYS).append
    (((keys_numa vminst).append ((keys_hugepage vminst).append
      ((keys_driver vminst).append (keys_vsock vminst)))).append
        ((keys_cpu vminst distro).append ((keys_vtpm vminst).append (List.Sublist.refl BOOT_KEYS)))))

/-- No two settings are of one thing. -/
theorem nodup_settings : ((settings vminst distro).map Prod.fst).Nodup := by
  have hnodup : KEYS.Nodup := by decide
  exact hnodup.sublist (keys_settings vminst distro)

theorem tracked_settings : ∀ s ∈ settings vminst distro, Tracked s.1 := by
  have htracked : ∀ k ∈ KEYS, Tracked k := by decide
  exact fun s hs => htracked s.1 ((keys_settings vminst distro).subset (List.mem_map_of_mem hs))

theorem pinLeaves_beside (cpuIds : List Nat) :
    pinLeaves cpuIds .arg = [] ∧ pinLeaves cpuIds .disk = [] := by
  cases cpuIds <;> exact ⟨rfl, rfl⟩

end Asked

end TdxTools.CloudStack.GuestSettings
