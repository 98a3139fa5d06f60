import TdxTools.CloudStack.GuestFactory

namespace TdxTools.CloudStack.GuestResources

open Python.ByteString Python.Text Python.Exec Python.Dictionary Libvirt VmGuest GuestFactory

variable {Domain : Type}

section Views

variable {host host' : HostState Domain} {r : Resource} {a : Answers Domain}

theorem has_of_view (h : host'.view r = host.view r) : host'.has r = host.has r := by
  rw [HostState.has, HostState.has, h]

theorem view_write_ne {path : Str} (content : Option Bytes) (h : r ≠ .file path) :
    (host.write path content).view r = host.view r := by
  cases content with
  | none => rfl
  | some b =>
    cases r with
    | file other =>
      have hpath : other ≠ path := fun heq => h (by rw [heq])
      simp [HostState.view, HostState.write, Function.update_of_ne hpath]
    | domain uuid => rfl

theorem has_write (path : Str) (content : Option Bytes) : (host.write path content).has r ↔
    host.has r ∨ (r = .file path ∧ content.isSome) := by
  cases content with
  | none => simp [HostState.write]
  | some b =>
    by_cases hr : r = .file path
    · subst hr
      simp [HostState.has, HostState.view, HostState.write]
    · rw [has_of_view (view_write_ne (some b) hr)]
      simp [hr]

theorem view_rewrite_ne {path : Str} (content : Option Bytes) (h : r ≠ .file path) :
    (host.rewrite path content).view r = host.view r := by
  rw [HostState.rewrite]
  split
  · exact view_write_ne content h
  · rfl

theorem has_rewrite (path : Str) (content : Option Bytes) :
    (host.rewrite path content).has r ↔ host.has r := by
  rw [HostState.rewrite]
  split
  · next hthere =>
    rw [has_write, or_iff_left_of_imp]
    rintro ⟨rfl, -⟩
    simpa [HostState.has, HostState.view] using hthere
  · rfl

theorem view_withDomain (uuid : Str) (d : Option Domain) : (host.withDomain uuid d).view r =
    if r = .domain uuid then d.map .inr else host.view r := by
  cases r with
  | file path =>
    rw [if_neg (by simp)]
    rfl
  | domain other =>
    by_cases huuid : other = uuid
    · simp [HostState.withDomain, HostState.view, huuid]
    · simp [HostState.withDomain, HostState.view, huuid]

theorem view_fileRemoved (path : Str) : (fileRemoved a path host).view r =
    if r = .file path ∧ a.removes path then none else host.view r := by
  rw [fileRemoved]
  cases r with
  | file other =>
    by_cases hpath : other = path
    · subst hpath
      cases hfile : host.files other <;> cases hremoves : a.removes other <;>
        simp [HostState.without, HostState.view, hfile]
    · split <;> simp [HostState.without, HostState.view, hpath]
  | domain uuid => split <;> simp [HostState.without, HostState.view]

theorem view_of_touches {vmm : VMMLibvirt} (h : Touches vmm host host') (hr : r ∉ vmm.resources) :
    host'.view r = host.view r := by
  cases r with
  | file path =>
    have hlog : path ≠ vmm.logfile := by
      rintro rfl
      exact hr (by simp [VMMLibvirt.resources])
    rw [HostState.view, HostState.view, h.files path hlog]
  | domain uuid =>
    have huuid : uuid ≠ vmm.vmid := by
      rintro rfl
      exact hr (by simp [VMMLibvirt.resources])
    rw [HostState.view, HostState.view, h.domains uuid huuid]

/-- An operator gives its host no more than the domain and its log. -/
theorem gains_of_touches {vmm : VMMLibvirt} (h : Touches vmm host host') (hr : host'.has r) :
    host.has r ∨ r = .domain vmm.vmid ∨ r = .file vmm.logfile := by
  cases r with
  | file path =>
    by_cases hlog : path = vmm.logfile
    · exact .inr (.inr (by rw [hlog]))
    · refine .inl ?_
      rw [HostState.has, HostState.view, h.files path hlog] at hr
      exact hr
  | domain uuid =>
    by_cases huuid : uuid = vmm.vmid
    · exact .inr (.inl (by rw [huuid]))
    · refine .inl ?_
      rw [HostState.has, HostState.view, h.domains uuid huuid] at hr
      exact hr

theorem create_run {vmm : VMMLibvirt} {d : Domain} (h : a.defineXML (host.domains vmm.vmid) = some d) :
    (vmm.create a host).2 =
      ((host.withDomain vmm.vmid (some d)).write vmm.logfile a.log).withDomain vmm.vmid
        (a.create d).left := by
  have hdefine : vmm.defineXML a host = (.ok (), host.withDomain vmm.vmid (some d)) := by
    simp only [VMMLibvirt.defineXML, h]
  rw [VMMLibvirt.create, Py.bind_ok hdefine, VMMLibvirt.launch, Py.modify_bind_apply,
    if_pos (by simp), request_served (d := d) (by simp)]

/-- What a creation makes, the host has then. -/
theorem create_makes {vmm : VMMLibvirt} (h : a.Makes (host.domains vmm.vmid)) :
    (vmm.create a host).2.has (.domain vmm.vmid) ∨ (vmm.create a host).2.has (.file vmm.logfile) := by
  obtain ⟨d, hdefine, hleft | hlog⟩ := h
  · rw [create_run hdefine]
    exact .inl (by rw [HostState.has, view_withDomain, if_pos rfl, Option.isSome_map, hleft])
  · rw [create_run hdefine]
    refine .inr ?_
    rw [HostState.has, view_withDomain, if_neg (by simp), ← HostState.has, has_write]
    exact .inr ⟨rfl, hlog⟩

/-- The host has nothing new by a creation that makes nothing. -/
theorem makes_of_gained {vmm : VMMLibvirt} (hold : ¬ host.has r) (hr : (vmm.create a host).2.has r) :
    a.Makes (host.domains vmm.vmid) := by
  cases hdefine : a.defineXML (host.domains vmm.vmid) with
  | none =>
    have hraised : vmm.defineXML a host = (.raised libvirtError, host) := by
      simp only [VMMLibvirt.defineXML, hdefine]
    rw [VMMLibvirt.create, Py.bind_raised hraised] at hr
    exact absurd hr hold
  | some d =>
    refine ⟨d, hdefine, ?_⟩
    rw [create_run hdefine, HostState.has, view_withDomain] at hr
    split at hr
    · exact .inl (by simpa using hr)
    · next hdomain =>
      rw [← HostState.has, has_write, HostState.has, view_withDomain, if_neg hdomain] at hr
      exact .inr (hr.resolve_left hold).2

end Views

section Removal

variable {g : Guest} {a : Answers Domain} {host : HostState Domain} {r : Resource}

/-- What the destruction of a guest with its image and log leaves of the host. -/
def destroyed (g : Guest) (a : Answers Domain) (deleteImage deleteLog isUndefined : Bool)
    (host : HostState Domain) : HostState Domain :=
  let host := fileRemoved a g.vmm.filepath
    (host.withDomain g.vmm.vmid ((host.domains g.vmm.vmid).bind (a.leaves isUndefined)))
  let host := if deleteImage then fileRemoved a g.image host else host
  if deleteLog then fileRemoved a g.vmm.logfile host else host

theorem guest_destroy_run (deleteImage deleteLog isUndefined : Bool) :
    g.destroy a deleteImage deleteLog isUndefined host =
      (.ok (), destroyed g a deleteImage deleteLog isUndefined host) := by
  rw [Guest.destroy, Py.bind_ok (destroy_run isUndefined)]
  cases deleteImage <;> cases deleteLog <;> rfl

theorem view_destroyed {deleteImage deleteLog isUndefined : Bool} (hr : r ∉ g.resources) :
    (destroyed g a deleteImage deleteLog isUndefined host).view r = host.view r := by
  simp only [Identity.resources, VMMLibvirt.resources, List.mem_cons, List.not_mem_nil, or_false,
    not_or] at hr
  obtain ⟨himage, hdomain, hfile, hlog⟩ := hr
  cases deleteImage <;> cases deleteLog <;>
    simp [destroyed, view_fileRemoved, view_withDomain, himage, hdomain, hfile, hlog]

/-- The removal of a guest takes the resource from the host. -/
def Frees (g : Guest) (a : Answers Domain) (host : HostState Domain) : Resource → Prop
  | .file path => .file path ∈ g.resources ∧ a.removes path = true
  | .domain uuid => .domain uuid ∈ g.resources ∧
      ∀ d, host.domains uuid = some d → a.leaves true d = none

theorem domain_mem {uuid : Str} : .domain uuid ∈ g.resources ↔ uuid = g.vmm.vmid := by
  simp [Identity.resources, VMMLibvirt.resources]

theorem file_mem {path : Str} : .file path ∈ g.resources ↔
    path = g.image ∨ path = g.vmm.filepath ∨ path = g.vmm.logfile := by
  simp [Identity.resources, VMMLibvirt.resources]

theorem has_destroyed : (destroyed g a true true true host).has r ↔
    host.has r ∧ ¬ Frees g a host r := by
  cases r with
  | file path =>
    rw [Frees, file_mem]
    simp only [HostState.has, destroyed, view_fileRemoved, view_withDomain, if_true]
    by_cases himage : path = g.image <;> by_cases hfile : path = g.vmm.filepath <;>
      by_cases hlog : path = g.vmm.logfile <;> cases hremoves : a.removes path <;>
      simp_all
  | domain uuid =>
    rw [Frees, domain_mem]
    simp only [HostState.has, destroyed, view_fileRemoved, view_withDomain, if_true]
    by_cases huuid : uuid = g.vmm.vmid
    · subst huuid
      cases hd : host.domains g.vmm.vmid with
      | none => simp [HostState.view, hd]
      | some d => simp [HostState.view, hd, Option.isSome_iff_ne_none]
    · simp [huuid]

end Removal

section Creating

variable (c : Creation) (a b : Answers Domain) (s : State Domain)

/-- The host when the image is taken. -/
def imaged (host : HostState Domain) : HostState Domain :=
  if c.call.diskImg = none then host.write c.image c.imageClone else host

/-- The host when the constructor of the guest has ended. -/
def documented (host : HostState Domain) : HostState Domain :=
  if c.ReachesVmm (c.call.diskImg.getD .vmImage) then
    (host.write c.newxmlPath c.xmlClone).rewrite c.filepath c.document
  else host

/-- The host with all files that the call writes. -/
def taken (host : HostState Domain) : HostState Domain :=
  if c.call.ReachesInit then documented c (imaged c host)
  else if c.Asks then imaged c host else host

/-- The state when the constructor of the guest has ended. -/
def entered : State Domain :=
  { s with
    host := taken c s.host
    process := if c.call.ReachesInit then
      { s.process with defaultCmdline := c.call.extended s.process } else s.process }

def constructed : VMGuest := ⟨c.call.distro, (c.call.extended s.process).cmdline⟩

variable {c a b s}

theorem takeImage_run (host : HostState Domain) : takeImage c { s with host := host } =
    (if c.call.diskImg = none → c.call.host.clones then .ok (c.call.diskImg.getD .vmImage)
      else .raised .assertionError, { s with host := imaged c host }) := by
  rw [takeImage, imaged]
  cases hdisk : c.call.diskImg with
  | some diskImg => simp
  | none =>
    have hwrite : State.onHost (.modify (HostState.write · c.image c.imageClone))
        { s with host := host } =
          (.ok (), { s with host := host.write c.image c.imageClone }) := rfl
    dsimp only
    rw [Py.bind_ok hwrite]
    cases hclones : c.call.host.clones <;> simp

theorem construct_run (diskImg : DiskImage) :
    ∃ o, construct c diskImg s = (o,
      { s with
        host := if c.ReachesVmm diskImg then
          (s.host.write c.newxmlPath c.xmlClone).rewrite c.filepath c.document else s.host
        process := { s.process with defaultCmdline := c.call.extended s.process } }) ∧
      (Completes diskImg c.call.bootType c.call.factory.vmKernel c.call.host →
        o = .ok (constructed c s)) ∧
      (¬ Completes diskImg c.call.bootType c.call.factory.vmKernel c.call.host →
        ∃ e, o = .raised e) := by
  obtain ⟨o, hrun, hok, hraised⟩ := init_state diskImg c.call.distro c.call.bootType
    c.call.factory.vmKernel c.call.host s.process
  refine ⟨o, ?_, hok, hraised⟩
  have hinit : (VMGuest.init diskImg c.call.distro c.call.bootType c.call.factory.vmKernel
      c.call.host) s.process = (o, { s.process with defaultCmdline := c.call.extended s.process }) :=
    hrun
  rw [construct]
  have hwrite : State.onHost (.modify fun host : HostState Domain =>
      if c.ReachesVmm diskImg then
        (host.write c.newxmlPath c.xmlClone).rewrite c.filepath c.document
      else host) s = (.ok (), { s with
        host := if c.ReachesVmm diskImg then
          (s.host.write c.newxmlPath c.xmlClone).rewrite c.filepath c.document else s.host }) := rfl
  rw [Py.bind_ok hwrite, Py.within_apply, hinit]
  rfl

theorem autoStart_run (inst : VMGuest) (s : State Domain) : ∃ host, Touches c.vmm s.host host ∧
    ((do
      State.onHost ((c.guest inst).create a)
      State.onHost ((c.guest inst).start b)) s).2 = { s with host := host } := by
  have hcreate : Touches c.vmm s.host ((c.guest inst).create a s.host).2 := touches_create s.host
  rcases h : (c.guest inst).create a s.host with ⟨o, host⟩
  rw [h] at hcreate
  have hrun : State.onHost ((c.guest inst).create a) s = (o, { s with host := host }) := by
    rw [State.onHost, Py.within_apply, h]
    rfl
  cases o with
  | ok u =>
    have hstart : Touches c.vmm host ((c.guest inst).start b host).2 :=
      (quiet_start host).toTouches
    rw [Py.bind_ok hrun]
    exact ⟨_, hcreate.trans hstart, rfl⟩
  | raised e =>
    rw [Py.bind_raised hrun]
    exact ⟨host, hcreate, rfl⟩
  | running =>
    rw [Py.bind_running hrun]
    exact ⟨host, hcreate, rfl⟩

/-- A call leaves what it takes to no guest, or makes a guest. -/
theorem newVm_state (c : Creation) (a b : Answers Domain) (s : State Domain) :
    (¬ c.call.Constructs ∧ (GuestFactory.newVm c a b s).2 = entered c s) ∨
      (c.call.Constructs ∧ ∃ host, Touches c.vmm (taken c s.host) host ∧
        (GuestFactory.newVm c a b s).2 =
          State.withHost host (State.withGuest c (constructed c s) (entered c s))) := by
  rw [GuestFactory.newVm]
  by_cases hpath : c.call.hugepages ∧ (c.call.vmtype = VM_TYPE_TD ∨ c.call.vmtype = VM_TYPE_TD_PERF) ∧
      c.call.hugepagePath = none
  · have hreaches : ¬ c.call.ReachesInit := fun h => h.1 hpath
    have hasks : ¬ c.Asks := fun h => h hpath
    refine .inl ⟨fun h => hreaches h.1, ?_⟩
    rw [if_pos hpath, entered, taken, if_neg hreaches, if_neg hasks, if_neg hreaches]
    rfl
  · have hasks : c.Asks := hpath
    have htaken : takeImage c s = _ := takeImage_run s.host
    rw [if_neg hpath]
    by_cases hclone : c.call.diskImg = none → c.call.host.clones = true
    · have hreaches : c.call.ReachesInit := ⟨hpath, hclone⟩
      rw [if_pos hclone] at htaken
      rw [Py.bind_ok htaken]
      obtain ⟨o, hrun, hcompletes, hraises⟩ :=
        construct_run (c := c) (s := { s with host := imaged c s.host })
          (c.call.diskImg.getD .vmImage)
      have hentered : ({ s with
          host := documented c (imaged c s.host)
          process := { s.process with defaultCmdline := c.call.extended s.process } } :
          State Domain) = entered c s := by
        rw [entered, taken, if_pos hreaches, if_pos hreaches]
      have hrun : construct c (c.call.diskImg.getD .vmImage) { s with host := imaged c s.host } =
          (o, entered c s) := hrun.trans (congrArg (Prod.mk o) hentered)
      by_cases hc : Completes (c.call.diskImg.getD .vmImage) c.call.bootType c.call.factory.vmKernel
          c.call.host
      · rw [hcompletes hc] at hrun
        rw [Py.bind_ok hrun, Py.modify_bind_apply]
        refine .inr ⟨⟨hreaches, hc⟩, ?_⟩
        split
        · exact autoStart_run (constructed c s) (State.withGuest c (constructed c s) (entered c s))
        · exact ⟨_, .refl _, rfl⟩
      · obtain ⟨e, rfl⟩ := hraises hc
        rw [Py.bind_raised hrun]
        exact .inl ⟨fun h => hc h.2, rfl⟩
    · have hreaches : ¬ c.call.ReachesInit := fun h => hclone h.2
      rw [if_neg hclone] at htaken
      rw [Py.bind_raised htaken, entered, taken, if_neg hreaches, if_pos hasks, if_neg hreaches]
      exact .inl ⟨fun h => hreaches h.1, rfl⟩

/-- Of the process, the call makes what it makes without its resources. -/
theorem newVm_process (c : Creation) (a b : Answers Domain) (s : State Domain) :
    (GuestFactory.newVm c a b s).2.process = (VmGuest.newVm c.call s.process).2 := by
  rcases newVm_state c a b s with ⟨hnot, hrun⟩ | ⟨hconstructs, host, -, hrun⟩
  · rcases VmGuest.newVm_state c.call s.process with
      ⟨hnot', hrun'⟩ | ⟨hreaches, -, hrun'⟩ | ⟨hconstructs, -⟩
    · rw [hrun, hrun', entered, if_neg hnot']
    · rw [hrun, hrun', entered, if_pos hreaches]
    · exact absurd hconstructs hnot
  · rcases VmGuest.newVm_state c.call s.process with ⟨hnot', -⟩ | ⟨-, hnot', -⟩ | ⟨-, hrun'⟩
    · exact absurd hconstructs.1 hnot'
    · exact absurd hconstructs hnot'
    · rw [hrun, hrun']
      show State.process (State.withGuest c (constructed c s) (entered c s)) = _
      rw [State.withGuest, entered, if_pos hconstructs.1]
      rfl

end Creating

section Removing

/-- A guest is removed, unless it is unhealthy and such guests are kept. -/
def Removes (s : State Domain) (g : Guest) : Prop := s.keepIssueVm = false ∨ g.keep = false

instance (s : State Domain) (g : Guest) : Decidable (Removes s g) := inferInstanceAs (Decidable (_ ∨ _))

def dropped (a : Answers Domain) (g : Guest) (s : State Domain) : State Domain :=
  { s with host := destroyed g a true true true s.host, vms := erase s.vms g.name }

def removed (a : Answers Domain) (s : State Domain) (i : Nat) : State Domain :=
  match s.guests[i]? with
  | some g => if Removes s g then dropped a g s else s
  | none => s

def removedEach (a : Nat → Answers Domain) (is : List Nat) (s : State Domain) : State Domain :=
  is.foldl (fun s i => removed (a i) s i) s

variable {a : Answers Domain} {s : State Domain} {g : Guest} {i : Nat}

theorem drop_run (a : Answers Domain) (g : Guest) (s : State Domain) :
    drop a g s = (.ok (), dropped a g s) := by
  have hdestroy : State.onHost (g.destroy a true true true) s =
      (.ok (), { s with host := destroyed g a true true true s.host }) := by
    rw [State.onHost, Py.within_apply, guest_destroy_run]
    rfl
  rw [drop, Py.bind_ok hdestroy]
  rfl

theorem remove_run (a : Answers Domain) (i : Nat) (s : State Domain) :
    GuestFactory.remove a i s = (.ok (), removed a s i) := by
  rw [GuestFactory.remove, withNth, removed]
  cases s.guests[i]? with
  | none => rfl
  | some g =>
    dsimp only
    rw [Py.get_bind_apply]
    cases hissue : s.keepIssueVm with
    | false => simp [Removes, hissue, drop_run]
    | true =>
      cases hkeep : g.keep with
      | false => simp [Removes, hissue, hkeep, drop_run]
      | true => simp [Removes, hissue, hkeep]

theorem removeEach_run (a : Nat → Answers Domain) (is : List Nat) (s : State Domain) :
    removeEach a is s = (.ok (), removedEach a is s) := by
  induction is generalizing s with
  | nil => rfl
  | cons i rest ih =>
    rw [removeEach, Py.bind_ok (remove_run (a i) i s), ih]
    rfl

/-- A removal leaves the process alone, and the guests as objects. -/
theorem removed_same (a : Answers Domain) (s : State Domain) (i : Nat) :
    (removed a s i).guests = s.guests ∧ (removed a s i).keepIssueVm = s.keepIssueVm ∧
      (removed a s i).process = s.process := by
  rw [removed]
  split
  · split <;> exact ⟨rfl, rfl, rfl⟩
  · exact ⟨rfl, rfl, rfl⟩

@[simp] theorem guests_removed : (removed a s i).guests = s.guests := (removed_same a s i).1

@[simp] theorem keepIssueVm_removed : (removed a s i).keepIssueVm = s.keepIssueVm :=
  (removed_same a s i).2.1

theorem removedEach_same (a : Nat → Answers Domain) (is : List Nat) (s : State Domain) :
    (removedEach a is s).guests = s.guests ∧ (removedEach a is s).process = s.process := by
  induction is generalizing s with
  | nil => exact ⟨rfl, rfl⟩
  | cons i rest ih =>
    obtain ⟨hguests, -, hprocess⟩ := removed_same (a i) s i
    obtain ⟨ihguests, ihprocess⟩ := ih (removed (a i) s i)
    exact ⟨ihguests.trans hguests, ihprocess.trans hprocess⟩

/-- The guest with the number is removed. -/
def Goes (s : State Domain) (i : Nat) (g : Guest) : Prop := s.guests[i]? = some g ∧ Removes s g

theorem removed_goes (h : Goes s i g) : removed a s i = dropped a g s := by
  simp only [removed, h.1, if_pos h.2]

theorem removed_stays (h : ∀ g, ¬ Goes s i g) : removed a s i = s := by
  rw [removed]
  split
  · next g hg => exact if_neg fun hremoves => h g ⟨hg, hremoves⟩
  · rfl

theorem goes_removed {j : Nat} : Goes (removed a s i) j g ↔ Goes s j g := by
  simp only [Goes, Removes, guests_removed, keepIssueVm_removed]

theorem mem_vms_removed {e : Str × Nat} :
    e ∈ (removed a s i).vms ↔ e ∈ s.vms ∧ ∀ g, Goes s i g → e.1 ≠ g.name := by
  by_cases hgoes : ∃ g, Goes s i g
  · obtain ⟨g, hg⟩ := hgoes
    have hone : ∀ g', Goes s i g' → g' = g := fun g' hg' =>
      Option.some.inj (hg'.1.symm.trans hg.1)
    rw [removed_goes hg, dropped, erase, List.mem_filter]
    refine and_congr_right fun _ => ?_
    constructor
    · intro hne g' hg'
      rw [hone g' hg']
      simpa using hne
    · intro h
      simpa using h g hg
  · rw [removed_stays fun g hg => hgoes ⟨g, hg⟩]
    exact ⟨fun h => ⟨h, fun g hg => absurd ⟨g, hg⟩ hgoes⟩, fun h => h.1⟩

theorem mem_vms_removedEach {e : Str × Nat} (a : Nat → Answers Domain) (is : List Nat) (s : State Domain) :
    e ∈ (removedEach a is s).vms ↔ e ∈ s.vms ∧ ∀ i ∈ is, ∀ g, Goes s i g → e.1 ≠ g.name := by
  induction is generalizing s with
  | nil => exact ⟨fun h => ⟨h, by simp⟩, fun h => h.1⟩
  | cons i rest ih =>
    rw [removedEach, List.foldl_cons, ← removedEach, ih, mem_vms_removed, and_assoc,
      List.forall_mem_cons]
    simp only [goes_removed]

theorem has_removed (r : Resource) : (removed a s i).host.has r ↔
    s.host.has r ∧ ∀ g, Goes s i g → ¬ Frees g a s.host r := by
  by_cases hgoes : ∃ g, Goes s i g
  · obtain ⟨g, hg⟩ := hgoes
    have hone : ∀ g', Goes s i g' → g' = g := fun g' hg' =>
      Option.some.inj (hg'.1.symm.trans hg.1)
    rw [removed_goes hg, dropped, has_destroyed]
    exact and_congr_right fun _ =>
      ⟨fun h g' hg' => by rw [hone g' hg']; exact h, fun h => h g hg⟩
  · rw [removed_stays fun g hg => hgoes ⟨g, hg⟩]
    exact ⟨fun h => ⟨h, fun g hg => absurd ⟨g, hg⟩ hgoes⟩, fun h => h.1⟩

theorem view_removed {r : Resource} (h : ∀ g, Goes s i g → r ∉ g.resources) :
    (removed a s i).host.view r = s.host.view r := by
  by_cases hgoes : ∃ g, Goes s i g
  · obtain ⟨g, hg⟩ := hgoes
    rw [removed_goes hg]
    exact view_destroyed (h g hg)
  · rw [removed_stays fun g hg => hgoes ⟨g, hg⟩]

theorem view_removedEach {r : Resource} (a : Nat → Answers Domain) (is : List Nat)
    (h : ∀ i ∈ is, ∀ g, Goes s i g → r ∉ g.resources) :
    (removedEach a is s).host.view r = s.host.view r := by
  induction is generalizing s with
  | nil => rfl
  | cons i rest ih =>
    obtain ⟨hi, hrest⟩ := List.forall_mem_cons.mp h
    rw [removedEach, List.foldl_cons, ← removedEach, ih (by simpa only [goes_removed] using hrest),
      view_removed hi]

theorem vms_removedEach (a : Nat → Answers Domain) (is : List Nat) (s : State Domain) :
    (removedEach a is s).vms.Sublist s.vms := by
  induction is generalizing s with
  | nil => exact List.Sublist.refl _
  | cons i rest ih =>
    have hremoved : (removed (a i) s i).vms.Sublist s.vms := by
      rw [removed]
      split
      · split
        · exact List.filter_sublist
        · exact List.Sublist.refl _
      · exact List.Sublist.refl _
    exact (ih (removed (a i) s i)).trans hremoved

theorem has_of_removedEach {a : Nat → Answers Domain} {is : List Nat} {r : Resource}
    (h : (removedEach a is s).host.has r) : s.host.has r := by
  induction is generalizing s with
  | nil => exact h
  | cons i rest ih => exact ((has_removed r).mp (ih h)).1

/-- The guests have their ids for themselves. -/
def OwnIds (s : State Domain) : Prop :=
  ∀ (i j : Nat) (g g' : Guest), s.guests[i]? = some g → s.guests[j]? = some g' →
    g.vmm.vmid = g'.vmm.vmid → i = j

/-- What one removal frees does not depend on the removals of other guests. -/
theorem frees_removed {j : Nat} {r : Resource} {b : Answers Domain} (hids : OwnIds s) (hij : i ≠ j)
    (hg : Goes s j g) : Frees g b (removed a s i).host r ↔ Frees g b s.host r := by
  cases r with
  | file path => exact Iff.rfl
  | domain uuid =>
    rw [Frees, Frees]
    refine and_congr_right fun hmem => ?_
    have hview : (removed a s i).host.view (.domain uuid) = s.host.view (.domain uuid) := by
      apply view_removed
      intro g' hg' hmem'
      exact hij (hids i j g' g hg'.1 hg.1
        ((domain_mem.mp hmem').symm.trans (domain_mem.mp hmem)))
    have hdomains : (removed a s i).host.domains uuid = s.host.domains uuid :=
      Option.map_injective Sum.inr_injective hview
    rw [hdomains]

theorem has_removedEach {is : List Nat} (a : Nat → Answers Domain) (his : is.Nodup) (hids : OwnIds s)
    (r : Resource) : (removedEach a is s).host.has r ↔
      s.host.has r ∧ ∀ i ∈ is, ∀ g, Goes s i g → ¬ Frees g (a i) s.host r := by
  induction is generalizing s with
  | nil => exact ⟨fun h => ⟨h, by simp⟩, fun h => h.1⟩
  | cons i rest ih =>
    obtain ⟨hi, hrest⟩ := List.nodup_cons.mp his
    have hids' : OwnIds (removed (a i) s i) := by
      simpa only [OwnIds, guests_removed] using hids
    rw [removedEach, List.foldl_cons, ← removedEach, ih hrest hids', has_removed, and_assoc,
      List.forall_mem_cons]
    refine and_congr_right fun _ => and_congr_right fun _ => ?_
    refine forall_congr' fun j => forall_congr' fun hj => forall_congr' fun g => ?_
    rw [goes_removed]
    refine forall_congr' fun hg => not_congr ?_
    exact frees_removed hids (fun hij => hi (hij ▸ hj)) hg

end Removing

end TdxTools.CloudStack.GuestResources
