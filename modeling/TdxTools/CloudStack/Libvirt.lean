import Mathlib.Logic.Function.Basic
import TdxTools.Python.ByteString
import TdxTools.Python.Exec
import TdxTools.Python.Text

namespace TdxTools.CloudStack.Libvirt

open Python.ByteString Python.Text Python.Exec

/-- The states that libvirt tells, `VIR_DOMAIN_` before their names. -/
inductive DomainState
  | NOSTATE
  | RUNNING
  | BLOCKED
  | PAUSED
  | SHUTDOWN
  | SHUTOFF
  | CRASHED
  | PMSUSPENDED
  deriving DecidableEq, Repr

variable {Domain : Type}

/-- The files of the host with their bytes, and the domains of libvirt by their
ids; what libvirt knows of a domain is left open. -/
structure HostState (Domain : Type) where
  files : Str → Option Bytes
  domains : Str → Option Domain

namespace HostState

variable (host : HostState Domain)

/-- What a program writes into a file, if it comes to that. -/
def write (path : Str) (content : Option Bytes) : HostState Domain :=
  match content with
  | some b => { host with files := Function.update host.files path (some b) }
  | none => host

/-- A file that is there is written again. -/
def rewrite (path : Str) (content : Option Bytes) : HostState Domain :=
  if (host.files path).isSome then host.write path content else host

def without (path : Str) : HostState Domain :=
  { host with files := Function.update host.files path none }

def withDomain (uuid : Str) (d : Option Domain) : HostState Domain :=
  { host with domains := Function.update host.domains uuid d }

end HostState

/-- What a guest takes of the host. -/
inductive Resource
  | file (path : Str)
  | domain (uuid : Str)
  deriving DecidableEq, Repr

/-- What the host has of a resource. -/
def HostState.view (host : HostState Domain) : Resource → Option (Bytes ⊕ Domain)
  | .file path => (host.files path).map .inl
  | .domain uuid => (host.domains uuid).map .inr

def HostState.has (host : HostState Domain) (r : Resource) : Bool := (host.view r).isSome

/-- What libvirt makes of a request on a domain: the value, or none if it raises,
and what is left of the domain. -/
structure Reply (Domain α : Type) where
  value : Option α
  left : Option Domain

/-- What one operation meets: any answers of libvirt, where a request on a domain
concerns that domain alone, the log that a domain begins, and the files that can
be removed. The questions for a domain and for its state go by their numbers. -/
structure Answers (Domain : Type) where
  lookup : Nat → Bool
  state : Nat → Domain → Reply Domain DomainState
  isActive : Domain → Reply Domain Bool
  defineXML : Option Domain → Option Domain
  create : Domain → Reply Domain Unit
  destroy : Domain → Reply Domain Unit
  undefineFlags : Domain → Reply Domain Unit
  suspend : Domain → Reply Domain Unit
  resume : Domain → Reply Domain Unit
  reboot : Domain → Reply Domain Unit
  shutdown : Domain → Reply Domain Unit
  log : Option Bytes
  removes : Str → Bool

def libvirtError : Exn := .exception []

section Service

variable (a : Answers Domain) (uuid : Str)

/-- A method of the domain, if a lookup found it, or else of `None`. -/
def request {α : Type} (found : Bool) (serve : Domain → Reply Domain α) :
    Py (HostState Domain) α := fun host =>
  if found then
    match host.domains uuid with
    | some d => (.ofOption libvirtError (serve d).value, host.withDomain uuid (serve d).left)
    | none => (.raised libvirtError, host)
  else (.raised .attributeError, host)

def fileRemoved (path : Str) (host : HostState Domain) : HostState Domain :=
  if (host.files path).isSome ∧ a.removes path then host.without path else host

/-- `os.remove` behind `os.path.exists`; its `OSError` is caught. -/
def removeFile (path : Str) : Py (HostState Domain) Unit := .modify (fileRemoved a path)

end Service

/-- The operator of a guest, with the id of the guest and the files of its domain. -/
structure VMMLibvirt where
  vmid : Str
  filepath : Str
  logfile : Str
  deriving DecidableEq, Repr

namespace VMMLibvirt

def resources (self : VMMLibvirt) : List Resource :=
  [.domain self.vmid, .file self.filepath, .file self.logfile]

inductive ShutdownMode
  | unset
  | default
  | acpi
  | agent
  | other
  deriving DecidableEq

section Operations

variable (self : VMMLibvirt) (a : Answers Domain)

/-- `_get_domain`: whether a domain is found. -/
def getDomain (i : Nat) : Py (HostState Domain) Bool := fun host =>
  (.ok (a.lookup i && (host.domains self.vmid).isSome), host)

def defineXML : Py (HostState Domain) Unit := fun host =>
  match a.defineXML (host.domains self.vmid) with
  | some d => (.ok (), host.withDomain self.vmid (some d))
  | none => (.raised libvirtError, host)

/-- `domain.create()`; with the machine the log of its console begins. -/
def launch (dom : Bool) : Py (HostState Domain) Unit := do
  .modify fun host =>
    if dom ∧ (host.domains self.vmid).isSome then host.write self.logfile a.log else host
  request self.vmid dom a.create

def create : Py (HostState Domain) Unit := do
  self.defineXML a
  self.launch a true

def domainState (i j : Nat) : Py (HostState Domain) DomainState := do
  let dom ← self.getDomain a i
  request self.vmid dom (a.state j)

/-- The part of `destroy` that stops the machine. -/
def stop : Py (HostState Domain) Unit :=
  .tryExcept (do
    let active ← request self.vmid true a.isActive
    if active then request self.vmid true a.destroy else pure ()) fun _ => pure ()

/-- The part of `destroy` that undefines the domain. -/
def undefine : Py (HostState Domain) Unit :=
  .tryExcept (request self.vmid true a.undefineFlags) fun _ => pure ()

def destroyDomain (isUndefined : Bool) (dom : Bool) : Py (HostState Domain) Unit :=
  if dom then do
    self.stop a
    if isUndefined then self.undefine a else pure ()
  else pure ()

def destroy (isUndefined : Bool) : Py (HostState Domain) Unit := do
  let dom ← self.getDomain a 0
  self.destroyDomain a isUndefined dom
  removeFile a self.filepath

def deleteLog : Py (HostState Domain) Unit := removeFile a self.logfile

/-- `resume`, behind so many lookups and questions for the state. -/
def resumeAfter (i j : Nat) : Py (HostState Domain) Unit := do
  let dom ← self.getDomain a i
  let state ← self.domainState a (i + 1) j
  if state ≠ .RUNNING then request self.vmid dom a.resume else pure ()

def resume : Py (HostState Domain) Unit := self.resumeAfter a 0 0

def start : Py (HostState Domain) Unit := do
  let state ← self.domainState a 0 0
  if state = .SHUTOFF then do
    let dom ← self.getDomain a 1
    self.launch a dom
  else self.resumeAfter a 1 1

def suspend : Py (HostState Domain) Unit := do
  let dom ← self.getDomain a 0
  let state ← self.domainState a 1 0
  if state = .RUNNING then request self.vmid dom a.suspend else pure ()

def reboot : Py (HostState Domain) Unit := do
  let dom ← self.getDomain a 0
  request self.vmid dom a.reboot

def shutdown (mode : ShutdownMode) : Py (HostState Domain) Unit := do
  let dom ← self.getDomain a 0
  if mode = .other then pure () else request self.vmid dom a.shutdown

end Operations

end VMMLibvirt

section Requests

variable {uuid : Str} {α : Type} {f : Domain → Reply Domain α} {host : HostState Domain}
  {d : Domain}

theorem request_absent (h : host.domains uuid = none) (dom : Bool) :
    ∃ e, request uuid dom f host = (.raised e, host) := by
  cases dom with
  | false => exact ⟨.attributeError, if_neg Bool.false_ne_true⟩
  | true => exact ⟨libvirtError, by simp [request, h]⟩

theorem request_served (h : host.domains uuid = some d) : request uuid true f host =
    (.ofOption libvirtError (f d).value, host.withDomain uuid (f d).left) := by
  simp [request, h]

theorem withDomain_same {d : Option Domain} (h : host.domains uuid = d) :
    host.withDomain uuid d = host := by
  rw [HostState.withDomain, ← h, Function.update_eq_self]

theorem withDomain_withDomain (d d' : Option Domain) :
    (host.withDomain uuid d).withDomain uuid d' = host.withDomain uuid d' := by
  simp [HostState.withDomain]

@[simp] theorem domains_withDomain (d : Option Domain) :
    (host.withDomain uuid d).domains uuid = d := Function.update_self _ _ _

@[simp] theorem domains_write (path : Str) (content : Option Bytes) :
    (host.write path content).domains = host.domains := by
  cases content <;> rfl

end Requests

section Destroying

namespace Answers

variable (a : Answers Domain)

def stopped (d : Domain) : Option Domain :=
  if (a.isActive d).value = some true then
    (a.isActive d).left.bind fun d => (a.destroy d).left
  else (a.isActive d).left

/-- What `destroy` leaves of a domain. -/
def leaves (isUndefined : Bool) (d : Domain) : Option Domain :=
  if a.lookup 0 then
    (a.stopped d).bind fun d => if isUndefined then (a.undefineFlags d).left else some d
  else some d

/-- A definition and the start behind it leave the domain or its log. -/
def Makes (old : Option Domain) : Prop :=
  ∃ d, a.defineXML old = some d ∧ ((a.create d).left.isSome ∨ a.log.isSome)

end Answers

/-- Libvirt and the host do what a removal asks: a domain is found, one that is active is not when
it was stopped, one that is not active is gone when it was undefined, and files go. -/
structure Obliging (active : Domain → Bool) (a : Answers Domain) : Prop where
  lookup : a.lookup 0 = true
  isActive : ∀ d, a.isActive d = ⟨some (active d), some d⟩
  destroy : ∀ d left, active d = true → (a.destroy d).left = some left → active left = false
  undefineFlags : ∀ d, active d = false → (a.undefineFlags d).left = none
  removes : ∀ path, a.removes path = true

theorem Obliging.leaves {active : Domain → Bool} {a : Answers Domain} (h : Obliging active a)
    (d : Domain) : a.leaves true d = none := by
  rw [Answers.leaves, if_pos h.lookup, Answers.stopped, h.isActive]
  cases hactive : active d with
  | false => simpa using h.undefineFlags d hactive
  | true =>
    rw [if_pos rfl, Option.bind_some]
    cases hleft : (a.destroy d).left with
    | none => rfl
    | some left =>
      rw [Option.bind_some, if_pos rfl]
      exact h.undefineFlags left (h.destroy d left hactive hleft)

variable {self : VMMLibvirt} {a : Answers Domain} {host : HostState Domain} {d : Domain}

theorem stop_run (h : host.domains self.vmid = some d) :
    self.stop a host = (.ok (), host.withDomain self.vmid (a.stopped d)) := by
  have hactive := request_served (f := a.isActive) h
  rw [VMMLibvirt.stop, Answers.stopped]
  cases hvalue : (a.isActive d).value with
  | none =>
    rw [hvalue, Outcome.ofOption_none] at hactive
    rw [Py.tryExcept_raised (Py.bind_raised hactive), Py.pure_apply, if_neg (by simp)]
  | some active =>
    rw [hvalue, Outcome.ofOption_some] at hactive
    rw [Py.tryExcept, Py.bind_ok hactive]
    cases active with
    | false => simp
    | true =>
      rw [if_pos rfl, if_pos rfl]
      cases hleft : (a.isActive d).left with
      | none =>
        have hgone : (host.withDomain self.vmid none).domains self.vmid = none :=
          domains_withDomain none
        obtain ⟨e, hraised⟩ := request_absent (f := a.destroy) hgone true
        rw [hraised]
        rfl
      | some left =>
        rw [request_served (domains_withDomain (some left)), withDomain_withDomain]
        cases (a.destroy left).value <;> rfl

theorem undefine_run (h : host.domains self.vmid = some d) :
    self.undefine a host = (.ok (), host.withDomain self.vmid (a.undefineFlags d).left) := by
  rw [VMMLibvirt.undefine, Py.tryExcept, request_served h]
  cases (a.undefineFlags d).value <;> rfl

theorem undefine_absent (h : host.domains self.vmid = none) :
    self.undefine a host = (.ok (), host) := by
  obtain ⟨e, hraised⟩ := request_absent (f := a.undefineFlags) h true
  rw [VMMLibvirt.undefine, Py.tryExcept_raised hraised, Py.pure_apply]

theorem destroyDomain_run (isUndefined : Bool) (h : host.domains self.vmid = some d)
    (hlook : a.lookup 0 = true) : self.destroyDomain a isUndefined true host =
      (.ok (), host.withDomain self.vmid (a.leaves isUndefined d)) := by
  rw [VMMLibvirt.destroyDomain, if_pos rfl, Py.bind_ok (stop_run h), Answers.leaves, if_pos hlook]
  cases isUndefined with
  | false =>
    rw [if_neg Bool.false_ne_true, Py.pure_apply]
    cases a.stopped d <;> rfl
  | true =>
    rw [if_pos rfl]
    cases hstopped : a.stopped d with
    | none => rw [undefine_absent (domains_withDomain _), Option.bind_none]
    | some left =>
      rw [undefine_run (domains_withDomain _), withDomain_withDomain, Option.bind_some, if_pos rfl]

/-- `destroy` does not raise, and touches nothing but the domain and its file. -/
theorem destroy_run (isUndefined : Bool) : self.destroy a isUndefined host =
    (.ok (), fileRemoved a self.filepath
      (host.withDomain self.vmid ((host.domains self.vmid).bind (a.leaves isUndefined)))) := by
  have hfound : self.getDomain a 0 host =
      (.ok (a.lookup 0 && (host.domains self.vmid).isSome), host) := rfl
  have hnone : self.destroyDomain a isUndefined false host = (.ok (), host) := rfl
  rw [VMMLibvirt.destroy, Py.bind_ok hfound]
  cases h : host.domains self.vmid with
  | none =>
    rw [Option.isSome_none, Bool.and_false, Py.bind_ok hnone, Option.bind_none, withDomain_same h]
    rfl
  | some d =>
    rw [Option.isSome_some, Bool.and_true, Option.bind_some]
    cases hlook : a.lookup 0 with
    | false =>
      rw [Py.bind_ok hnone, Answers.leaves, if_neg (by simp [hlook]), withDomain_same h]
      rfl
    | true =>
      rw [Py.bind_ok (destroyDomain_run isUndefined h hlook)]
      rfl

end Destroying

section Frames

/-- What an operation leaves alone: every file but the log, and the other domains. -/
structure Touches (vmm : VMMLibvirt) (host host' : HostState Domain) : Prop where
  files : ∀ path, path ≠ vmm.logfile → host'.files path = host.files path
  domains : ∀ uuid, uuid ≠ vmm.vmid → host'.domains uuid = host.domains uuid

/-- It also leaves the host alone when the domain is not there. -/
structure Quiet (vmm : VMMLibvirt) (host host' : HostState Domain) : Prop
    extends Touches vmm host host' where
  absent : host.domains vmm.vmid = none → host' = host

variable {self : VMMLibvirt} {a : Answers Domain} {host host' host'' : HostState Domain} {α : Type}

theorem Touches.refl (host : HostState Domain) : Touches self host host :=
  ⟨fun _ _ => rfl, fun _ _ => rfl⟩

theorem Touches.trans (h : Touches self host host') (h' : Touches self host' host'') :
    Touches self host host'' where
  files path hpath := (h'.files path hpath).trans (h.files path hpath)
  domains uuid huuid := (h'.domains uuid huuid).trans (h.domains uuid huuid)

theorem Quiet.refl (host : HostState Domain) : Quiet self host host :=
  ⟨.refl host, fun _ => rfl⟩

theorem Quiet.trans (h : Quiet self host host') (h' : Quiet self host' host'') :
    Quiet self host host'' where
  toTouches := h.toTouches.trans h'.toTouches
  absent habsent := by
    obtain rfl := h.absent habsent
    exact h'.absent habsent

theorem Quiet.bind {x : Py (HostState Domain) α} {β : Type} {f : α → Py (HostState Domain) β}
    (hx : Py.Keeps (Quiet self) x) (hf : ∀ v, Py.Keeps (Quiet self) (f v)) :
    Py.Keeps (Quiet self) (x >>= f) :=
  Py.Keeps.bind (R := Quiet self) Quiet.trans hx hf

theorem touches_withDomain (d : Option Domain) :
    Touches self host (host.withDomain self.vmid d) :=
  ⟨fun _ _ => rfl, fun _ huuid => Function.update_of_ne huuid _ _⟩

theorem touches_log (content : Option Bytes) :
    Touches self host (host.write self.logfile content) := by
  cases content with
  | none => exact .refl host
  | some b => exact ⟨fun _ hpath => Function.update_of_ne hpath _ _, fun _ _ => rfl⟩

theorem quiet_request (dom : Bool) (serve : Domain → Reply Domain α) :
    Py.Keeps (Quiet self) (request self.vmid dom serve) := by
  intro host
  cases hd : host.domains self.vmid with
  | none =>
    obtain ⟨e, hraised⟩ := request_absent (f := serve) hd dom
    rw [hraised]
    exact .refl host
  | some d =>
    cases dom with
    | false => exact .refl host
    | true =>
      rw [request_served hd]
      exact ⟨touches_withDomain _, fun habsent => by simp [hd] at habsent⟩

theorem quiet_getDomain (i : Nat) : Py.Keeps (Quiet self) (self.getDomain a i) := fun host =>
  .refl host

theorem quiet_pure (v : α) : Py.Keeps (Quiet self) (pure v : Py (HostState Domain) α) := fun host =>
  .refl host

theorem quiet_launch (dom : Bool) : Py.Keeps (Quiet self) (self.launch a dom) := by
  refine Quiet.bind (fun host => ?_) fun _ => quiet_request dom a.create
  rw [Py.modify_apply]
  split
  · next h => exact ⟨touches_log a.log, fun habsent => by simp [habsent] at h⟩
  · exact .refl host

theorem quiet_domainState (i j : Nat) : Py.Keeps (Quiet self) (self.domainState a i j) :=
  Quiet.bind (quiet_getDomain i) fun dom => quiet_request dom (a.state j)

theorem quiet_resumeAfter (i j : Nat) : Py.Keeps (Quiet self) (self.resumeAfter a i j) := by
  refine Quiet.bind (quiet_getDomain i) fun dom => Quiet.bind (quiet_domainState (i + 1) j) fun state => ?_
  split
  · exact quiet_request dom a.resume
  · exact quiet_pure ()

theorem quiet_start : Py.Keeps (Quiet self) (self.start a) := by
  refine Quiet.bind (quiet_domainState 0 0) fun state => ?_
  split
  · exact Quiet.bind (quiet_getDomain 1) quiet_launch
  · exact quiet_resumeAfter 1 1

theorem quiet_suspend : Py.Keeps (Quiet self) (self.suspend a) := by
  refine Quiet.bind (quiet_getDomain 0) fun dom => Quiet.bind (quiet_domainState 1 0) fun state => ?_
  split
  · exact quiet_request dom a.suspend
  · exact quiet_pure ()

theorem quiet_reboot : Py.Keeps (Quiet self) (self.reboot a) :=
  Quiet.bind (quiet_getDomain 0) fun dom => quiet_request dom a.reboot

theorem quiet_shutdown (mode : VMMLibvirt.ShutdownMode) :
    Py.Keeps (Quiet self) (self.shutdown a mode) := by
  refine Quiet.bind (quiet_getDomain 0) fun dom => ?_
  split
  · exact quiet_pure ()
  · exact quiet_request dom a.shutdown

theorem touches_create : Py.Keeps (Touches self) (self.create a) := by
  refine Py.Keeps.bind (R := Touches self) Touches.trans (fun host => ?_)
    fun _ host => (quiet_launch true host).toTouches
  rw [VMMLibvirt.defineXML]
  split
  · exact touches_withDomain _
  · exact .refl host

end Frames

end TdxTools.CloudStack.Libvirt
