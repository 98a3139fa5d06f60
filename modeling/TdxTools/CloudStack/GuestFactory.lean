import TdxTools.CloudStack.Libvirt
import TdxTools.CloudStack.VmGuest
import TdxTools.Python.Dictionary
import TdxTools.Python.Path

namespace TdxTools.CloudStack.GuestFactory

open Python Python.ByteString Python.Text Python.Exec Python.Dictionary Libvirt VmGuest

variable {Domain : Type}

/-- What is settled about a guest when it is constructed. -/
structure Identity where
  name : Str
  image : Str
  vmm : VMMLibvirt
  deriving DecidableEq, Repr

def Identity.resources (d : Identity) : List Resource := .file d.image :: d.vmm.resources

/-- A guest; `keep` keeps it from being removed. -/
structure Guest extends Identity where
  inst : VMGuest
  keep : Bool := false
  deriving DecidableEq, Repr

namespace Guest

variable (g : Guest) (a : Answers Domain)

def destroy (deleteImage deleteLog isUndefined : Bool) : Py (HostState Domain) Unit := do
  g.vmm.destroy a isUndefined
  if deleteImage then removeFile a g.image else pure ()
  if deleteLog then g.vmm.deleteLog a else pure ()

def create : Py (HostState Domain) Unit := g.vmm.create a

def start : Py (HostState Domain) Unit := g.vmm.start a

end Guest

/-- A call of `new_vm` with what it is given and makes up: the name, the id, and the
real path of the image that is passed or cloned; and what is in the clone of the image, in
that of the template, and in the file of the domain at the end, if it is written. -/
structure Creation where
  call : Call
  name : Str
  vmid : Str
  image : Str
  template : Str
  outputDir : Str
  xmlSaved : Bool
  imageClone : Option Bytes
  xmlClone : Option Bytes
  document : Option Bytes
  deriving DecidableEq, Repr

namespace Creation

variable (c : Creation)

def newxmlPath : Str := Path.join c.outputDir (c.name ++ ".xml".toList)

/-- The file of the domain. A clone that could not be saved still is the template. -/
def filepath : Str := if c.xmlSaved then c.newxmlPath else c.template

def logfile : Str := "/tmp/".toList ++ c.name ++ ".log".toList

def vmm : VMMLibvirt := ⟨c.vmid, c.filepath, c.logfile⟩

def identity : Identity := ⟨c.name, c.image, c.vmm⟩

/-- The resources of its guest, and the clone of the template. -/
def resources : List Resource := .file c.newxmlPath :: c.identity.resources

/-- The resources that are there by the call only. -/
def made : List Resource :=
  [.domain c.vmid, .file c.logfile] ++ (if c.xmlClone.isSome then [.file c.newxmlPath] else []) ++
    if c.call.diskImg = none ∧ c.imageClone.isSome then [.file c.image] else []

/-- The call asks for nothing that `new_vm` refuses at once. -/
def Asks : Prop :=
  ¬ (c.call.hugepages ∧ (c.call.vmtype = VM_TYPE_TD ∨ c.call.vmtype = VM_TYPE_TD_PERF) ∧
    c.call.hugepagePath = none)

/-- The constructor of the guest comes to that of the operator. -/
def ReachesVmm (diskImg : DiskImage) : Prop :=
  c.call.host.freePort ∧ diskImg = .vmImage ∧
    ¬ (c.call.bootType = .BOOT_TYPE_DIRECT ∧ (c.call.factory.vmKernel = none ∨ ¬ c.call.host.kernelExists))

/-- The call makes this file. -/
def Writes (path : Str) : Prop :=
  (path = c.image ∧ c.Asks ∧ c.call.diskImg = none ∧ c.imageClone.isSome) ∨
    (path = c.newxmlPath ∧ c.call.ReachesInit ∧ c.ReachesVmm (c.call.diskImg.getD .vmImage) ∧
      c.xmlClone.isSome)

instance : Decidable c.Asks := inferInstanceAs (Decidable (¬ _))

instance (diskImg : DiskImage) : Decidable (c.ReachesVmm diskImg) :=
  inferInstanceAs (Decidable (_ ∧ _))

end Creation

/-- The process with one factory, all guests that were constructed in their
order, and the host. -/
structure State (Domain : Type) where
  host : HostState Domain
  process : Process := {}
  guests : List Guest := []
  vms : Dict Str Nat := []
  keepIssueVm : Bool := false

namespace State

def identities (s : State Domain) : List Identity := s.guests.map Guest.toIdentity

def withHost (host : HostState Domain) (s : State Domain) : State Domain := { s with host := host }

def withProcess (process : Process) (s : State Domain) : State Domain := { s with process := process }

def onHost {α : Type} (x : Py (HostState Domain) α) : Py (State Domain) α := .within host withHost x

end State

section Operations

open State

variable (c : Creation) (a b : Answers Domain)

/-- The image that is passed, or a clone. What `qemu-img` has written of a clone
is there when it fails, too. -/
def takeImage : Py (State Domain) DiskImage :=
  match c.call.diskImg with
  | some diskImg => pure diskImg
  | none => do
    onHost (.modify (HostState.write · c.image c.imageClone))
    if c.call.host.clones then pure .vmImage else .raise .assertionError

/-- The constructor of the guest. Its operator saves the clone of the template
and then, with each thing that it sets in it, the file of the domain. -/
def construct (diskImg : DiskImage) : Py (State Domain) VMGuest := do
  onHost (.modify fun host =>
    if c.ReachesVmm diskImg then
      (host.write c.newxmlPath c.xmlClone).rewrite c.filepath c.document
    else host)
  .within process withProcess
    (VMGuest.init diskImg c.call.distro c.call.bootType c.call.factory.vmKernel c.call.host)

def Creation.guest (inst : VMGuest) : Guest :=
  { c.identity with inst := inst }

def State.withGuest (inst : VMGuest) (s : State Domain) : State Domain :=
  { s with
    process := { s.process with vms := s.process.vms ++ [inst] }
    guests := s.guests ++ [c.guest inst]
    vms := set s.vms c.name s.guests.length }

def newVm : Py (State Domain) Unit :=
  if c.call.hugepages ∧ (c.call.vmtype = VM_TYPE_TD ∨ c.call.vmtype = VM_TYPE_TD_PERF) ∧
      c.call.hugepagePath = none then
    .raise .assertionError
  else do
    let diskImg ← takeImage c
    let inst ← construct c diskImg
    .modify (withGuest c inst)
    if c.call.autoStart then do
      onHost ((c.guest inst).create a)
      onHost ((c.guest inst).start b)
    else pure ()

/-- `del self.vms[name]`, if it is there. -/
def erase (vms : Dict Str Nat) (name : Str) : Dict Str Nat := vms.filter (·.1 ≠ name)

def drop (g : Guest) : Py (State Domain) Unit := do
  onHost (g.destroy a true true true)
  .modify fun s => { s with vms := erase s.vms g.name }

/-- Something is done with the guest that was constructed as the `i`-th. -/
def withNth (i : Nat) (f : Guest → Py (State Domain) Unit) : Py (State Domain) Unit := fun s =>
  match s.guests[i]? with
  | some g => f g s
  | none => (.ok (), s)

def remove (i : Nat) : Py (State Domain) Unit :=
  withNth i fun g => do
    let s ← .get
    if ¬ s.keepIssueVm then drop a g
    else if ¬ g.keep then drop a g
    else pure ()

def removeEach (a : Nat → Answers Domain) : List Nat → Py (State Domain) Unit
  | [] => pure ()
  | i :: rest => do
    remove (a i) i
    removeEach a rest

/-- `removeall`, which is `__del__` too. -/
def removeall (a : Nat → Answers Domain) : Py (State Domain) Unit := do
  let s ← .get
  removeEach a (s.vms.map Prod.snd)

/-- `ssh_run` when the command has ended, or is not waited for. -/
def sshRun (retcode : Option Int) (g : Guest) : Guest :=
  if retcode ≠ some 0 then { g with keep := true } else g

end Operations

/-- The machine of a domain does something by itself, which leaves the domain so. -/
def change (uuid : Str) (left : Domain → Option Domain) (host : HostState Domain) : HostState Domain :=
  host.withDomain uuid ((host.domains uuid).bind left)

/-- What the factory, the guests by their numbers, and the machines do; each operation
with the answers that it meets. -/
inductive Op (Domain : Type)
  | newVm (c : Creation) (a b : Answers Domain)
  | create (i : Nat) (a : Answers Domain)
  | start (i : Nat) (a : Answers Domain)
  | suspend (i : Nat) (a : Answers Domain)
  | resume (i : Nat) (a : Answers Domain)
  | reboot (i : Nat) (a : Answers Domain)
  | shutdown (i : Nat) (mode : VMMLibvirt.ShutdownMode) (a : Answers Domain)
  | destroy (i : Nat) (deleteImage deleteLog isUndefined : Bool) (a : Answers Domain)
  | sshRun (i : Nat) (retcode : Option Int)
  | remove (i : Nat) (a : Answers Domain)
  | removeall (a : Nat → Answers Domain)
  | setKeepIssueVm (keepIssueVm : Bool)
  | change (uuid : Str) (left : Domain → Option Domain)
  | writes (path : Str) (content : Bytes)

def perform : Op Domain → Py (State Domain) Unit
  | .newVm c a b => newVm c a b
  | .create i a => withNth i fun g => State.onHost (g.create a)
  | .start i a => withNth i fun g => State.onHost (g.start a)
  | .suspend i a => withNth i fun g => State.onHost (g.vmm.suspend a)
  | .resume i a => withNth i fun g => State.onHost (g.vmm.resume a)
  | .reboot i a => withNth i fun g => State.onHost (g.vmm.reboot a)
  | .shutdown i mode a => withNth i fun g => State.onHost (g.vmm.shutdown a mode)
  | .destroy i deleteImage deleteLog isUndefined a =>
    withNth i fun g => State.onHost (g.destroy a deleteImage deleteLog isUndefined)
  | .sshRun i retcode => .modify fun s => { s with guests := s.guests.modify i (sshRun retcode) }
  | .remove i a => remove a i
  | .removeall a => removeall a
  | .setKeepIssueVm keepIssueVm => .modify fun s => { s with keepIssueVm := keepIssueVm }
  | .change uuid left => State.onHost (.modify (change uuid left))
  | .writes path content => State.onHost (.modify (HostState.rewrite · path (some content)))

/-- The state after an operation, whether it raises or not. -/
def step (s : State Domain) (op : Op Domain) : State Domain := (perform op s).2

def run (ops : List (Op Domain)) (s : State Domain) : State Domain := ops.foldl step s

/-- The calls of `new_vm` among the operations. -/
def creations (ops : List (Op Domain)) : List Creation :=
  ops.filterMap fun op =>
    match op with
    | .newVm c _ _ => some c
    | _ => none

end TdxTools.CloudStack.GuestFactory
