import TdxTools.CloudStack.GuestResources

namespace TdxTools.CloudStack.GuestSteps

open Python.ByteString Python.Text Python.Exec Libvirt VmGuest GuestFactory GuestResources

variable {Domain : Type}

section Steps

theorem withNth_host {i : Nat} {s : State Domain} (f : Guest → Py (HostState Domain) Unit) :
    (∃ g, s.guests[i]? = some g ∧ (withNth i (fun g => State.onHost (f g)) s).2 =
      State.withHost (f g s.host).2 s) ∨
    (s.guests[i]? = none ∧ (withNth i (fun g => State.onHost (f g)) s).2 = s) := by
  cases hg : s.guests[i]? with
  | none => exact .inr ⟨rfl, by simp [withNth, hg]⟩
  | some g => exact .inl ⟨g, rfl, by simp [withNth, hg, State.onHost]⟩

/-- The machines change the resource by themselves. -/
def Touched : Op Domain → Resource → Prop
  | .change uuid _, r => r = .domain uuid
  | .writes path _, r => r = .file path
  | _, _ => False

/-- No guest comes or goes, and the host gains no more than the domain and the
log of a guest whose domain is there. -/
structure Calm (op : Op Domain) (s s' : State Domain) : Prop where
  process : s'.process = s.process
  identities : s'.identities = s.identities
  vms : s'.vms = s.vms
  gains : ∀ r, s'.host.has r → s.host.has r ∨ ∃ d ∈ s.identities,
    s.host.has (.domain d.vmm.vmid) ∧ (r = .domain d.vmm.vmid ∨ r = .file d.vmm.logfile)
  frame : ∀ r, (∀ d ∈ s.identities, r ∉ d.resources) →
    ¬ Touched op r → s'.host.view r = s.host.view r

variable {s s' : State Domain} {host : HostState Domain} {g : Guest} {i : Nat} {op : Op Domain}

theorem Calm.of_host (h : s'.host = s.host) (hprocess : s'.process = s.process)
    (hidentities : s'.identities = s.identities) (hvms : s'.vms = s.vms) : Calm op s s' :=
  ⟨hprocess, hidentities, hvms, fun _ hr => .inl (h ▸ hr), fun _ _ _ => by rw [h]⟩

theorem mem_identities (hg : s.guests[i]? = some g) : g.toIdentity ∈ s.identities :=
  List.mem_map_of_mem (List.mem_of_getElem? hg)

theorem Calm.of_quiet (hg : s.guests[i]? = some g) (h : Quiet g.vmm s.host host) :
    Calm op s (State.withHost host s) where
  process := rfl
  identities := rfl
  vms := rfl
  gains r hr := by
    cases hdomain : s.host.has (.domain g.vmm.vmid) with
    | false =>
      have habsent : s.host.domains g.vmm.vmid = none := by
        simpa [HostState.has, HostState.view] using hdomain
      obtain rfl : host = s.host := h.absent habsent
      exact .inl hr
    | true =>
      rcases gains_of_touches h.toTouches hr with hold | hgained
      · exact .inl hold
      · exact .inr ⟨g.toIdentity, mem_identities hg, hdomain, hgained⟩
  frame r hr _ := by
    have hmem := hr g.toIdentity (mem_identities hg)
    exact view_of_touches h.toTouches fun h => hmem (List.mem_cons_of_mem _ h)

/-- What an operation on the guest with the number makes of the host. -/
theorem calm_withNth (f : Guest → Py (HostState Domain) Unit) (h : ∀ g, Py.Keeps (Quiet g.vmm) (f g)) :
    Calm op s (withNth i (fun g => State.onHost (f g)) s).2 := by
  obtain ⟨g, hg, hrun⟩ | ⟨-, hrun⟩ := withNth_host (i := i) (s := s) f
  · rw [hrun]
    exact .of_quiet hg (h g s.host)
  · rw [hrun]
    exact .of_host rfl rfl rfl rfl

theorem has_of_fileRemoved {a : Answers Domain} {path : Str} {r : Resource}
    (h : (fileRemoved a path host).has r) : host.has r := by
  rw [HostState.has, view_fileRemoved] at h
  split at h
  · cases h
  · exact h

theorem has_of_destroyed {a : Answers Domain} {deleteImage deleteLog isUndefined : Bool} {r : Resource}
    (h : (destroyed g a deleteImage deleteLog isUndefined host).has r) : host.has r := by
  have hdomain : ∀ d, (host.withDomain g.vmm.vmid ((host.domains g.vmm.vmid).bind d)).has r →
      host.has r := by
    intro d hr
    rw [HostState.has, view_withDomain] at hr
    split at hr
    · next hdomain =>
      cases hd : host.domains g.vmm.vmid with
      | none => simp [hd] at hr
      | some old => simp [HostState.has, HostState.view, hdomain, hd]
    · exact hr
  rw [destroyed] at h
  cases deleteImage <;> cases deleteLog
  · exact hdomain _ (has_of_fileRemoved h)
  · exact hdomain _ (has_of_fileRemoved (has_of_fileRemoved h))
  · exact hdomain _ (has_of_fileRemoved (has_of_fileRemoved h))
  · exact hdomain _ (has_of_fileRemoved (has_of_fileRemoved (has_of_fileRemoved h)))

theorem calm_destroy (a : Answers Domain) (deleteImage deleteLog isUndefined : Bool) :
    Calm op s (withNth i
      (fun g => State.onHost (g.destroy a deleteImage deleteLog isUndefined)) s).2 := by
  obtain ⟨g, hg, hrun⟩ | ⟨-, hrun⟩ := withNth_host (i := i) (s := s)
    fun g => g.destroy a deleteImage deleteLog isUndefined
  · rw [hrun, guest_destroy_run]
    exact ⟨rfl, rfl, rfl, fun r hr => .inl (has_of_destroyed hr),
      fun r hr _ => view_destroyed (hr g.toIdentity (mem_identities hg))⟩
  · rw [hrun]
    exact .of_host rfl rfl rfl rfl

theorem view_change {uuid : Str} {left : Domain → Option Domain} {r : Resource}
    (h : r ≠ .domain uuid) : (change uuid left host).view r = host.view r := by
  rw [change, view_withDomain, if_neg h]

theorem has_of_change {uuid : Str} {left : Domain → Option Domain} {r : Resource}
    (h : (change uuid left host).has r) : host.has r := by
  by_cases hr : r = .domain uuid
  · subst hr
    cases hd : host.domains uuid with
    | none =>
      rw [change, hd, Option.bind_none, withDomain_same hd] at h
      exact h
    | some d => simp [HostState.has, HostState.view, hd]
  · rwa [has_of_view (view_change hr)] at h

theorem identities_sshRun (i : Nat) (retcode : Option Int) :
    (s.guests.modify i (sshRun retcode)).map Guest.toIdentity = s.identities := by
  have hsame : ∀ g, (sshRun retcode g).toIdentity = g.toIdentity := by
    intro g
    rw [sshRun]
    split <;> rfl
  rw [State.identities]
  apply List.ext_getElem?
  intro j
  rw [List.getElem?_map, List.getElem?_map, List.getElem?_modify]
  cases s.guests[j]? with
  | none => rfl
  | some g =>
    by_cases hij : i = j
    · simp [hij, hsame]
    · simp [hij]

/-- The operation neither makes a guest or its domain nor removes a guest. -/
def Steady : Op Domain → Prop
  | .newVm _ _ _ | .create _ _ | .remove _ _ | .removeall _ => False
  | _ => True

theorem calm_step (h : Steady op) : Calm op s (step s op) := by
  cases op with
  | newVm | create | remove | removeall => exact h.elim
  | start i a => exact calm_withNth _ fun g => quiet_start
  | suspend i a => exact calm_withNth _ fun g => quiet_suspend
  | resume i a => exact calm_withNth _ fun g => quiet_resumeAfter 0 0
  | reboot i a => exact calm_withNth _ fun g => quiet_reboot
  | shutdown i mode a => exact calm_withNth _ fun g => quiet_shutdown mode
  | destroy i deleteImage deleteLog isUndefined a =>
    exact calm_destroy a deleteImage deleteLog isUndefined
  | sshRun i retcode => exact .of_host rfl rfl (identities_sshRun i retcode) rfl
  | setKeepIssueVm keepIssueVm => exact .of_host rfl rfl rfl rfl
  | change uuid left =>
    exact ⟨rfl, rfl, rfl, fun r hr => .inl (has_of_change hr), fun r _ hr => view_change hr⟩
  | writes path content =>
    exact ⟨rfl, rfl, rfl, fun r hr => .inl ((has_rewrite path _).mp hr),
      fun r _ hr => view_rewrite_ne _ hr⟩

theorem step_remove (s : State Domain) (i : Nat) (a : Answers Domain) :
    step s (.remove i a) = removedEach (fun _ => a) [i] s := congrArg Prod.snd (remove_run a i s)

theorem step_removeall (s : State Domain) (a : Nat → Answers Domain) :
    step s (.removeall a) = removedEach a (s.vms.map Prod.snd) s :=
  congrArg Prod.snd (removeEach_run a _ s)

theorem touches_guest_create (g : Guest) (a : Answers Domain) (host : HostState Domain) :
    Touches g.vmm host (g.create a host).2 := touches_create host

/-- Creating a guest touches no more than its domain and log. -/
theorem step_create (i : Nat) (a : Answers Domain) (s : State Domain) :
    (s.guests[i]? = none ∧ step s (.create i a) = s) ∨
      ∃ g, s.guests[i]? = some g ∧ step s (.create i a) = State.withHost (g.create a s.host).2 s := by
  obtain ⟨g, hg, hrun⟩ | ⟨hnone, hrun⟩ := withNth_host (i := i) (s := s) fun g => g.create a
  · exact .inr ⟨g, hg, hrun⟩
  · exact .inl ⟨hnone, hrun⟩

theorem view_taken {c : Creation} {r : Resource} (hr : r ∉ c.resources) :
    (taken c host).view r = host.view r := by
  have hxml : r ≠ .file c.newxmlPath := fun h => hr (by simp [Creation.resources, h])
  have himage : r ≠ .file c.image := fun h => hr (by simp [Creation.resources, Identity.resources,
    Creation.identity, h])
  have hfile : r ≠ .file c.filepath := fun h => hr (by simp [Creation.resources,
    Identity.resources, Creation.identity, Creation.vmm, VMMLibvirt.resources, h])
  have himaged : (imaged c host).view r = host.view r := by
    rw [imaged]
    split
    · exact view_write_ne _ himage
    · rfl
  have hdocumented : (documented c (imaged c host)).view r = host.view r := by
    rw [documented]
    split
    · rw [view_rewrite_ne _ hfile, view_write_ne _ hxml, himaged]
    · exact himaged
  rw [taken]
  split
  · exact hdocumented
  · split
    · exact himaged
    · rfl

theorem identities_newVm (c : Creation) (a b : Answers Domain) (s : State Domain) :
    (step s (.newVm c a b)).identities = s.identities ∨
      (c.call.Constructs ∧ (step s (.newVm c a b)).identities = s.identities ++ [c.identity]) := by
  have hstep : step s (.newVm c a b) = (GuestFactory.newVm c a b s).2 := rfl
  rcases newVm_state c a b s with ⟨-, hrun⟩ | ⟨hconstructs, host, -, hrun⟩
  · exact .inl (by rw [hstep, hrun]; rfl)
  · refine .inr ⟨hconstructs, ?_⟩
    rw [hstep, hrun]
    exact List.map_append

theorem view_newVm {c : Creation} (a b : Answers Domain) {r : Resource} (hr : r ∉ c.resources) :
    (step s (.newVm c a b)).host.view r = s.host.view r := by
  have hstep : step s (.newVm c a b) = (GuestFactory.newVm c a b s).2 := rfl
  rcases newVm_state c a b s with ⟨-, hrun⟩ | ⟨-, host, htouches, hrun⟩
  · rw [hstep, hrun]
    exact view_taken hr
  · rw [hstep, hrun]
    have hvmm : r ∉ c.vmm.resources := fun h =>
      hr (List.mem_cons_of_mem _ (List.mem_cons_of_mem _ h))
    exact (view_of_touches htouches hvmm).trans (view_taken hr)

theorem run_append (ops ops' : List (Op Domain)) (s : State Domain) :
    run (ops ++ ops') s = run ops' (run ops s) := List.foldl_append

theorem creations_append (ops ops' : List (Op Domain)) :
    creations (ops ++ ops') = creations ops ++ creations ops' := List.filterMap_append

/-- What is of no guest, and no call of `new_vm` takes, a step leaves alone. -/
theorem view_step {op : Op Domain} {r : Resource} (hs : ∀ d ∈ s.identities, r ∉ d.resources)
    (hnew : ∀ c a b, op = .newVm c a b → r ∉ c.resources) (htouched : ¬ Touched op r) :
    (step s op).host.view r = s.host.view r := by
  have hcalm (hsteady : Steady op) : Calm op s (step s op) := calm_step hsteady
  have hgoes {i : Nat} (g : Guest) (hg : Goes s i g) : r ∉ g.resources :=
    hs g.toIdentity (mem_identities hg.1)
  cases op with
  | newVm c a b => exact view_newVm a b (hnew c a b rfl)
  | create i a =>
    obtain ⟨-, hrun⟩ | ⟨g, hg, hrun⟩ := step_create i a s
    · rw [hrun]
    · rw [hrun]
      have hmem := hs g.toIdentity (mem_identities hg)
      exact view_of_touches (touches_guest_create g a s.host)
        fun h => hmem (List.mem_cons_of_mem _ h)
  | remove i a => rw [step_remove, view_removedEach _ _ fun _ _ => hgoes]
  | removeall a => rw [step_removeall, view_removedEach _ _ fun _ _ => hgoes]
  | _ => exact (hcalm trivial).frame r hs htouched

theorem identities_removedEach (a : Nat → Answers Domain) (is : List Nat) (s : State Domain) :
    (removedEach a is s).identities = s.identities := by
  rw [State.identities, (removedEach_same a is s).1, State.identities]

/-- The guests after a step are those before it, and one that is constructed. -/
theorem identities_step (s : State Domain) (op : Op Domain) : (step s op).identities = s.identities ∨
    ∃ c a b, op = .newVm c a b ∧ (step s op).identities = s.identities ++ [c.identity] := by
  have hcalm (hsteady : Steady op) : Calm op s (step s op) := calm_step hsteady
  cases op with
  | newVm c a b => exact (identities_newVm c a b s).imp_right fun h => ⟨c, a, b, rfl, h.2⟩
  | create i a =>
    obtain ⟨-, hrun⟩ | ⟨g, -, hrun⟩ := step_create i a s
    · exact .inl (by rw [hrun])
    · exact .inl (by rw [hrun]; rfl)
  | remove i a => exact .inl (by rw [step_remove, identities_removedEach])
  | removeall a => exact .inl (by rw [step_removeall, identities_removedEach])
  | _ => exact .inl (hcalm trivial).identities

/-- Of the process, a step makes what its call of `new_vm` makes. -/
theorem process_step (s : State Domain) (op : Op Domain) :
    (step s op).process = newVms ((creations [op]).map Creation.call) s.process := by
  have hcalm (hsteady : Steady op) : Calm op s (step s op) := calm_step hsteady
  cases op with
  | newVm c a b => exact newVm_process c a b s
  | create i a =>
    obtain ⟨-, hrun⟩ | ⟨g, -, hrun⟩ := step_create i a s
    · rw [hrun]
      rfl
    · rw [hrun]
      rfl
  | remove i a =>
    rw [step_remove]
    exact (removedEach_same _ _ s).2
  | removeall a =>
    rw [step_removeall]
    exact (removedEach_same _ _ s).2
  | _ => exact (hcalm trivial).process

theorem newVms_append (calls calls' : List Call) (process : Process) :
    newVms (calls ++ calls') process = newVms calls' (newVms calls process) := by
  induction calls generalizing process with
  | nil => rfl
  | cons c calls ih => exact ih (VmGuest.newVm c process).2

/-- The guests of a run have the command lines that its calls of `new_vm` give them,
whatever comes of their resources. -/
theorem run_process (ops : List (Op Domain)) (s : State Domain) :
    (run ops s).process = newVms ((creations ops).map Creation.call) s.process := by
  induction ops using List.reverseRecOn with
  | nil => rfl
  | append_singleton ops op ih =>
    rw [run_append, creations_append, List.map_append, newVms_append, ← ih]
    exact process_step (run ops s) op

end Steps

/-- What changes in a run, of a file what is in it, is of a guest, of a call of `new_vm` in the
run, or changed by the machines themselves; whatever libvirt answers and whatever fails. -/
theorem run_frame (ops : List (Op Domain)) (s : State Domain) (r : Resource) :
    (run ops s).host.view r = s.host.view r ∨ (∃ d ∈ s.identities, r ∈ d.resources) ∨
      (∃ c ∈ creations ops, r ∈ c.resources) ∨ ∃ op ∈ ops, Touched op r := by
  induction ops generalizing s with
  | nil => exact .inl rfl
  | cons op rest ih =>
    have hrest : ∀ c, c ∈ creations rest → c ∈ creations (op :: rest) := by
      intro c hc
      obtain ⟨o, ho, hco⟩ := List.mem_filterMap.mp hc
      exact List.mem_filterMap.mpr ⟨o, List.mem_cons_of_mem _ ho, hco⟩
    by_cases hs : ∃ d ∈ s.identities, r ∈ d.resources
    · exact .inr (.inl hs)
    by_cases hnew : ∃ c a b, op = .newVm c a b ∧ r ∈ c.resources
    · obtain ⟨c, a, b, rfl, hr⟩ := hnew
      exact .inr (.inr (.inl ⟨c, List.mem_filterMap.mpr ⟨_, List.mem_cons_self, rfl⟩, hr⟩))
    by_cases htouched : Touched op r
    · exact .inr (.inr (.inr ⟨op, List.mem_cons_self, htouched⟩))
    have hview : (step s op).host.view r = s.host.view r :=
      view_step (fun d hd hr => hs ⟨d, hd, hr⟩) (fun c a b hop hr => hnew ⟨c, a, b, hop, hr⟩) htouched
    rcases ih (step s op) with hsame | ⟨d, hd, hr⟩ | ⟨c, hc, hr⟩ | ⟨o, ho, hr⟩
    · exact .inl (hsame.trans hview)
    · rcases identities_step s op with hids | ⟨c, a, b, rfl, hids⟩
      · exact .inr (.inl ⟨d, hids ▸ hd, hr⟩)
      · rw [hids] at hd
        rcases List.mem_append.mp hd with hd | hd
        · exact .inr (.inl ⟨d, hd, hr⟩)
        · rw [List.mem_singleton.mp hd] at hr
          exact absurd ⟨c, a, b, rfl, List.mem_cons_of_mem _ hr⟩ hnew
    · exact .inr (.inr (.inl ⟨c, hrest c hc, hr⟩))
    · exact .inr (.inr (.inr ⟨o, List.mem_cons_of_mem _ ho, hr⟩))

end TdxTools.CloudStack.GuestSteps
