import TdxTools.Python.Exec
import TdxTools.Python.Text

namespace TdxTools.CloudStack.VmGuest

open Python.Text Python.Exec

def VM_TYPE_TD : Str := "td".toList
def VM_TYPE_SGX : Str := "sgx".toList
def VM_TYPE_TD_PERF : Str := "td_perf".toList

inductive BootType
  | BOOT_TYPE_DIRECT
  | BOOT_TYPE_GRUB
  deriving DecidableEq, Repr

def DEFAULT_CMDLINE : Str := "rw selinux=0 console=hvc0 earlyprintk console=tty0".toList

structure KernelCmdline where
  cmdline : Str := DEFAULT_CMDLINE
  deriving DecidableEq, Repr

namespace KernelCmdline

def isFieldExists (self : KernelCmdline) (fieldStr : Str) : Bool :=
  decide (stripBy isWhitespace fieldStr <:+: self.cmdline)

def addFieldFromString (self : KernelCmdline) (fieldStr : Str) : KernelCmdline :=
  if self.isFieldExists fieldStr then self
  else { cmdline := self.cmdline ++ " ".toList ++ fieldStr }

def removeFieldFromString (self : KernelCmdline) (fieldStr : Str) : KernelCmdline :=
  { cmdline := remove (stripBy isWhitespace fieldStr) self.cmdline }

/-- `self._cmdline.strip().split(' ')`. -/
def items (self : KernelCmdline) : List Str := (stripBy isWhitespace self.cmdline).splitOn ' '

/-- The loop of `__iadd__` over the pieces of the value. -/
def iaddFrom (value : Str) : List Str → KernelCmdline → KernelCmdline
  | [], self => self
  | item :: rest, self =>
    iaddFrom value rest (if item ∈ self.items then self
      else { cmdline := self.cmdline ++ " ".toList ++ value })

def iadd (self : KernelCmdline) (value : Str) : KernelCmdline :=
  iaddFrom value (value.splitOn ' ') self

def itemKey (item : Str) : Str := (item.splitOn '=').headD []

def fieldKeys (self : KernelCmdline) : List Str := self.items.map itemKey

def getValueFrom (fieldKey : Str) : List Str → Option Str
  | [] => none
  | item :: rest =>
    let arr := item.splitOn '='
    if arr.headD [] = fieldKey ∧ 1 < arr.length then arr[1]? else getValueFrom fieldKey rest

def getValue (self : KernelCmdline) (fieldKey : Str) : Option Str :=
  getValueFrom fieldKey self.items

def addField (self : KernelCmdline) (key : Str) : Option Str → KernelCmdline
  | none => { cmdline := self.cmdline ++ " ".toList ++ key }
  | some value => { cmdline := self.cmdline ++ " ".toList ++ key ++ "=".toList ++ value }

def removeFields (self : KernelCmdline) (key : Str) : KernelCmdline :=
  { cmdline := (self.items.filter (itemKey · ≠ stripBy isWhitespace key)).flatMap (' ' :: ·) }

end KernelCmdline

inductive GuestDistro
  | ubuntu
  | centos
  deriving DecidableEq, Repr

/-- The root field that the constructor adds. -/
def GuestDistro.rootfs : GuestDistro → Str
  | ubuntu => "root=/dev/vda1".toList
  | centos => "root=/dev/vda3".toList

/-- A guest with the command line that it is given when it is constructed. -/
structure VMGuest where
  guestDistro : GuestDistro
  cmdline : Str
  deriving DecidableEq, Repr

/-- The process: the default value of the parameter `cmdline` of `new_vm`, one
object that is made when the class is, and the guests of all factories. -/
structure Process where
  defaultCmdline : KernelCmdline := {}
  vms : List VMGuest := []
  deriving DecidableEq, Repr

structure VMGuestFactory where
  motherImage : Str
  vmKernel : Option Str
  deriving DecidableEq, Repr

/-- A disk image that the caller passes, of the class VMImage or not. -/
inductive DiskImage
  | vmImage
  | other
  deriving DecidableEq, Repr

/-- What a call meets on the host. -/
structure Host where
  clones : Bool
  freePort : Bool
  kernelExists : Bool
  definesVm : Bool
  starts : Bool
  deriving DecidableEq, Repr

/-- A call of `new_vm` with the default command line. -/
structure Call where
  factory : VMGuestFactory
  vmtype : Str
  autoStart : Bool := false
  hugepages : Bool := false
  boot : BootType := .BOOT_TYPE_DIRECT
  diskImg : Option DiskImage := none
  hugepagePath : Option Str := none
  host : Host
  deriving DecidableEq, Repr

def VMGuestFactory.guestDistro (self : VMGuestFactory) : GuestDistro :=
  if "ubuntu".toList <:+: self.motherImage then .ubuntu else .centos

/-- `VMGuest.__init__` with the default object as its `cmdline`. -/
def VMGuest.init (image : DiskImage) (guestDistro : GuestDistro) (boot : BootType)
    (kernel : Option Str) (host : Host) : Py Process VMGuest := do
  .modify (fun self =>
    { self with defaultCmdline := self.defaultCmdline.addFieldFromString guestDistro.rootfs })
  if ¬ host.freePort then .raise .osError
  else if image ≠ .vmImage then .raise .assertionError
  else if boot = .BOOT_TYPE_DIRECT ∧ (kernel = none ∨ ¬ host.kernelExists) then
    .raise .assertionError
  else if ¬ host.definesVm then .raise (.exception [])
  else
    let self ← .get
    pure { guestDistro, cmdline := self.defaultCmdline.cmdline }

/-- The image of the call, or a clone of the mother image. -/
def diskImage (c : Call) : Outcome DiskImage :=
  match c.diskImg with
  | some diskImg => .ok diskImg
  | none => if c.host.clones then .ok .vmImage else .raised .assertionError

/-- `self.vms[vm_name] = inst`, and what `auto_start` asks for. -/
def keepVm (c : Call) (inst : VMGuest) : Py Process VMGuest := do
  .modify (fun self => { self with vms := self.vms ++ [inst] })
  if c.autoStart ∧ ¬ c.host.starts then .raise (.exception []) else pure inst

/-- `VMGuestFactory.new_vm`. -/
def newVm (c : Call) : Py Process VMGuest :=
  if c.hugepages ∧ (c.vmtype = VM_TYPE_TD ∨ c.vmtype = VM_TYPE_TD_PERF) ∧ c.hugepagePath = none then
    .raise .assertionError
  else do
    let boot := if c.vmtype = VM_TYPE_SGX then .BOOT_TYPE_GRUB else c.boot
    let diskImg ← .lift (diskImage c)
    let inst ← VMGuest.init diskImg c.factory.guestDistro boot c.factory.vmKernel c.host
    keepVm c inst

/-- The process after some calls; the caller goes on whether they raise or not. -/
def newVms : List Call → Process → Process
  | [], self => self
  | c :: calls, self => newVms calls (newVm c self).2

/-- The constructor comes to its end. -/
def Completes (image : DiskImage) (boot : BootType) (kernel : Option Str) (host : Host) : Prop :=
  host.freePort ∧ image = .vmImage ∧
    ¬ (boot = .BOOT_TYPE_DIRECT ∧ (kernel = none ∨ ¬ host.kernelExists)) ∧ host.definesVm

instance (image : DiskImage) (boot : BootType) (kernel : Option Str) (host : Host) :
    Decidable (Completes image boot kernel host) := inferInstanceAs (Decidable (_ ∧ _))

theorem init_state (image : DiskImage) (guestDistro : GuestDistro) (boot : BootType)
    (kernel : Option Str) (host : Host) (s : Process) :
    let cmdline := s.defaultCmdline.addFieldFromString guestDistro.rootfs
    ∃ o, VMGuest.init image guestDistro boot kernel host s =
        (o, { s with defaultCmdline := cmdline }) ∧
      (Completes image boot kernel host → o = .ok ⟨guestDistro, cmdline.cmdline⟩) ∧
      (¬ Completes image boot kernel host → ∃ e, o = .raised e) := by
  intro cmdline
  rw [VMGuest.init, Py.modify_bind_apply]
  by_cases hport : host.freePort
  · by_cases himage : image = .vmImage
    · by_cases hboot : boot = .BOOT_TYPE_DIRECT ∧ (kernel = none ∨ ¬ host.kernelExists)
      · rw [if_neg (not_not_intro hport), if_neg (not_not_intro himage), if_pos hboot]
        exact ⟨_, rfl, fun h => absurd hboot h.2.2.1, fun _ => ⟨_, rfl⟩⟩
      · rw [if_neg (not_not_intro hport), if_neg (not_not_intro himage), if_neg hboot]
        by_cases hdefines : host.definesVm
        · rw [if_neg (not_not_intro hdefines)]
          exact ⟨_, rfl, fun _ => rfl, fun h => absurd ⟨hport, himage, hboot, hdefines⟩ h⟩
        · rw [if_pos hdefines]
          exact ⟨_, rfl, fun h => absurd h.2.2.2 hdefines, fun _ => ⟨_, rfl⟩⟩
    · rw [if_neg (not_not_intro hport), if_pos himage]
      exact ⟨_, rfl, fun h => absurd h.2.1 himage, fun _ => ⟨_, rfl⟩⟩
  · rw [if_pos hport]
    exact ⟨_, rfl, fun h => absurd h.1 hport, fun _ => ⟨_, rfl⟩⟩

section Calls

variable (c : Call) (s : Process)

/-- The call comes as far as the constructor of the guest. -/
def Call.ReachesInit : Prop :=
  ¬ (c.hugepages ∧ (c.vmtype = VM_TYPE_TD ∨ c.vmtype = VM_TYPE_TD_PERF) ∧ c.hugepagePath = none) ∧
    (c.diskImg = none → c.host.clones)

def Call.bootType : BootType := if c.vmtype = VM_TYPE_SGX then .BOOT_TYPE_GRUB else c.boot

/-- The call constructs a guest. -/
def Call.Constructs : Prop :=
  c.ReachesInit ∧ Completes (c.diskImg.getD .vmImage) c.bootType c.factory.vmKernel c.host

instance : Decidable c.ReachesInit := inferInstanceAs (Decidable (_ ∧ _))

instance : Decidable c.Constructs := inferInstanceAs (Decidable (_ ∧ _))

def Call.distro : GuestDistro := c.factory.guestDistro

/-- The default object after the call's distro was added to it. -/
def Call.extended : KernelCmdline := s.defaultCmdline.addFieldFromString c.distro.rootfs

/-- The call raises before it comes to the constructor, or it changes the
default object and, if it constructs one, adds a guest with what is there then. -/
theorem newVm_state :
    (¬ c.ReachesInit ∧ (newVm c s).2 = s) ∨
      (c.ReachesInit ∧ ¬ c.Constructs ∧
        (newVm c s).2 = { s with defaultCmdline := c.extended s }) ∨
      (c.Constructs ∧ (newVm c s).2 =
        { defaultCmdline := c.extended s
          vms := s.vms ++ [⟨c.distro, (c.extended s).cmdline⟩] }) := by
  have hkeep : ∀ inst s', (keepVm c inst s').2 = { s' with vms := s'.vms ++ [inst] } := by
    intro inst s'
    rw [keepVm, Py.modify_bind_apply]
    split
    · rfl
    · rfl
  rw [newVm]
  by_cases hpath : c.hugepages ∧ (c.vmtype = VM_TYPE_TD ∨ c.vmtype = VM_TYPE_TD_PERF) ∧
      c.hugepagePath = none
  · rw [if_pos hpath]
    exact Or.inl ⟨fun h => h.1 hpath, rfl⟩
  · rw [if_neg hpath]
    by_cases hclone : c.diskImg = none → c.host.clones
    · have himage : diskImage c = .ok (c.diskImg.getD .vmImage) := by
        rw [diskImage]
        cases hdisk : c.diskImg with
        | some image => rfl
        | none => exact if_pos (hclone hdisk)
      obtain ⟨o, hrun, hcompletes, hraises⟩ := init_state (c.diskImg.getD .vmImage)
        c.distro c.bootType c.factory.vmKernel c.host s
      rw [himage, Py.lift_ok_bind_apply]
      by_cases hc : Completes (c.diskImg.getD .vmImage) c.bootType c.factory.vmKernel c.host
      · rw [hcompletes hc] at hrun
        have hrun := Py.bind_ok (f := keepVm c) hrun
        refine Or.inr (Or.inr ⟨⟨⟨hpath, hclone⟩, hc⟩, ?_⟩)
        rw [← Call.bootType, ← Call.distro, hrun, hkeep]
        rfl
      · obtain ⟨e, rfl⟩ := hraises hc
        have hrun := Py.bind_raised (f := keepVm c) hrun
        refine Or.inr (Or.inl ⟨⟨hpath, hclone⟩, fun h => hc h.2, ?_⟩)
        rw [← Call.bootType, ← Call.distro, hrun]
        rfl
    · have himage : diskImage c = .raised .assertionError := by
        push Not at hclone
        rw [diskImage, hclone.1]
        exact if_neg hclone.2
      rw [himage]
      exact Or.inl ⟨fun h => hclone h.2, rfl⟩

end Calls

/-- The default command line with one root field. -/
def rooted (guestDistro : GuestDistro) : Str := DEFAULT_CMDLINE ++ " ".toList ++ guestDistro.rootfs

/-- Each guest that a call constructs has the command line it would have as the
only guest of the process: the default with the root field of its own distro. -/
def Isolated (calls : List Call) : Prop :=
  ∀ pre c post vm, calls = pre ++ c :: post →
    (newVm c (newVms pre {})).2.vms = (newVms pre {}).vms ++ [vm] →
      (newVm c {}).2.vms = [vm] ∧ vm.cmdline = rooted c.distro

/-- Where a guest is constructed, every call before it that came as far as the
constructor was for the same distro. -/
def OneDistro (calls : List Call) : Prop :=
  ∀ pre c post, calls = pre ++ c :: post → c.Constructs →
    ∀ d ∈ pre, d.ReachesInit → d.distro = c.distro

section Fields

theorem add_default (d : GuestDistro) :
    KernelCmdline.addFieldFromString {} d.rootfs = ⟨rooted d⟩ := by
  cases d <;> decide +kernel

theorem add_rooted (d : GuestDistro) :
    KernelCmdline.addFieldFromString ⟨rooted d⟩ d.rootfs = ⟨rooted d⟩ := by
  cases d <;> decide +kernel

theorem rootfs_of_rooted {d e : GuestDistro} (h : d.rootfs <:+: rooted e) : d = e := by
  revert h
  cases d <;> cases e <;> decide +kernel

theorem strip_rootfs (d : GuestDistro) : stripBy isWhitespace d.rootfs = d.rootfs := by
  cases d <;> decide +kernel

variable (c : Call) (s : Process)

theorem extended_keeps : s.defaultCmdline.cmdline <+: (c.extended s).cmdline := by
  rw [Call.extended, KernelCmdline.addFieldFromString]
  split
  · exact List.prefix_refl _
  · rw [List.append_assoc]
    exact List.prefix_append _ _

theorem rootfs_extended : c.distro.rootfs <:+: (c.extended s).cmdline := by
  rw [Call.extended, KernelCmdline.addFieldFromString]
  split
  · next hexists =>
    rw [KernelCmdline.isFieldExists, strip_rootfs] at hexists
    exact of_decide_eq_true hexists
  · exact (List.suffix_append _ _).isInfix

end Fields

section Runs

variable {c : Call} {s : Process}

theorem newVm_keeps : s.defaultCmdline.cmdline <+: (newVm c s).2.defaultCmdline.cmdline := by
  rcases newVm_state c s with ⟨-, hrun⟩ | ⟨-, -, hrun⟩ | ⟨-, hrun⟩
  · simp only [hrun, List.prefix_refl]
  · rw [hrun]
    exact extended_keeps c s
  · rw [hrun]
    exact extended_keeps c s

theorem newVm_extends (h : c.ReachesInit) : (newVm c s).2.defaultCmdline = c.extended s := by
  rcases newVm_state c s with ⟨hnot, -⟩ | ⟨-, -, hrun⟩ | ⟨-, hrun⟩
  · exact absurd h hnot
  · rw [hrun]
  · rw [hrun]

theorem newVms_keeps (calls : List Call) :
    s.defaultCmdline.cmdline <+: (newVms calls s).defaultCmdline.cmdline := by
  induction calls generalizing s with
  | nil => exact List.prefix_refl _
  | cons c calls ih => exact newVm_keeps.trans ih

theorem rootfs_newVms {calls : List Call} {d : Call} (hd : d ∈ calls) (h : d.ReachesInit) :
    d.distro.rootfs <:+: (newVms calls s).defaultCmdline.cmdline := by
  induction calls generalizing s with
  | nil => cases hd
  | cons c calls ih =>
    rcases List.mem_cons.mp hd with rfl | hd
    · have hroot := rootfs_extended d s
      rw [← newVm_extends h] at hroot
      exact hroot.trans (newVms_keeps calls).isInfix
    · exact ih hd

theorem newVms_oneDistro {calls : List Call} {g : GuestDistro}
    (h : ∀ d ∈ calls, d.ReachesInit → d.distro = g)
    (hs : s.defaultCmdline = {} ∨ s.defaultCmdline = ⟨rooted g⟩) :
    (newVms calls s).defaultCmdline = {} ∨ (newVms calls s).defaultCmdline = ⟨rooted g⟩ := by
  induction calls generalizing s with
  | nil => exact hs
  | cons c calls ih =>
    apply ih (fun d hd => h d (List.mem_cons_of_mem _ hd))
    by_cases hreaches : c.ReachesInit
    · have hg := h c List.mem_cons_self hreaches
      rw [newVm_extends hreaches, Call.extended, hg]
      rcases hs with hs | hs
      · rw [hs, add_default]
        exact Or.inr rfl
      · rw [hs, add_rooted]
        exact Or.inr rfl
    · rcases newVm_state c s with ⟨-, hrun⟩ | ⟨hreaches', -⟩ | ⟨hconstructs, -⟩
      · rw [hrun]
        exact hs
      · exact absurd hreaches' hreaches
      · exact absurd hconstructs.1 hreaches

theorem guest_of_newVm {vm : VMGuest} (h : (newVm c s).2.vms = s.vms ++ [vm]) :
    c.Constructs ∧ vm = ⟨c.distro, (c.extended s).cmdline⟩ := by
  rcases newVm_state c s with ⟨-, hrun⟩ | ⟨-, -, hrun⟩ | ⟨hconstructs, hrun⟩
  · rw [hrun] at h
    exact absurd h (by simp)
  · rw [hrun] at h
    exact absurd h (by simp)
  · rw [hrun] at h
    obtain ⟨rfl, -⟩ := List.cons.inj (List.append_cancel_left h)
    exact ⟨hconstructs, rfl⟩

theorem newVm_constructs (h : c.Constructs) :
    (newVm c s).2.vms = s.vms ++ [⟨c.distro, (c.extended s).cmdline⟩] := by
  rcases newVm_state c s with ⟨hnot, -⟩ | ⟨-, hnot, -⟩ | ⟨-, hrun⟩
  · exact absurd h.1 hnot
  · exact absurd h hnot
  · rw [hrun]

theorem isolated_of_oneDistro {calls : List Call} (h : OneDistro calls) : Isolated calls := by
  intro pre c post vm he hvm
  obtain ⟨hconstructs, rfl⟩ := guest_of_newVm hvm
  have hextended : c.extended (newVms pre {}) = ⟨rooted c.distro⟩ := by
    rw [Call.extended]
    rcases newVms_oneDistro (s := {}) (h pre c post he hconstructs) (Or.inl rfl) with hs | hs
    · rw [hs, add_default]
    · rw [hs, add_rooted]
  have halone : c.extended {} = ⟨rooted c.distro⟩ := add_default c.distro
  refine ⟨?_, ?_⟩
  · rw [newVm_constructs hconstructs, halone, hextended]
    rfl
  · rw [hextended]

theorem oneDistro_of_isolated {calls : List Call} (h : Isolated calls) : OneDistro calls := by
  intro pre c post he hconstructs d hd hreaches
  obtain ⟨-, hcmdline⟩ := h pre c post _ he (newVm_constructs hconstructs)
  have hroot := (rootfs_newVms hd hreaches (s := {})).trans
    (extended_keeps c (newVms pre {})).isInfix
  have hcmdline : (c.extended (newVms pre {})).cmdline = rooted c.distro := hcmdline
  rw [hcmdline] at hroot
  exact rootfs_of_rooted hroot

end Runs

/-- For every sequence of calls: the guests are isolated exactly when none is
constructed after a call for the other distro came to the constructor. -/
theorem newVms_isolated_iff (calls : List Call) : Isolated calls ↔ OneDistro calls :=
  ⟨oneDistro_of_isolated, isolated_of_oneDistro⟩

/-- A call for a direct boot on a host where nothing fails. -/
def sampleCall (motherImage : Str) : Call where
  factory := { motherImage, vmKernel := some "/boot/vmlinuz".toList }
  vmtype := VM_TYPE_TD
  host := { clones := true, freePort := true, kernelExists := true, definesVm := true, starts := true }

/-- A guest of the other distro gets the root fields of both. -/
theorem centos_after_ubuntu :
    (newVms [sampleCall "/images/ubuntu.qcow2".toList, sampleCall "/images/centos.qcow2".toList]
      {}).vms.map VMGuest.cmdline =
        [rooted .ubuntu, rooted .ubuntu ++ " root=/dev/vda3".toList] ∧
      ¬ Isolated [sampleCall "/images/ubuntu.qcow2".toList,
        sampleCall "/images/centos.qcow2".toList] := by
  refine ⟨by decide +kernel, fun h => ?_⟩
  have hsame := oneDistro_of_isolated h [sampleCall "/images/ubuntu.qcow2".toList] _ [] rfl
    (by decide +kernel) _ (List.mem_singleton_self _) (by decide +kernel)
  exact absurd hsame (by decide +kernel)

end TdxTools.CloudStack.VmGuest
