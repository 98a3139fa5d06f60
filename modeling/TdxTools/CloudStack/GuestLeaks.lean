import TdxTools.CloudStack.GuestSteps

namespace TdxTools.CloudStack.GuestLeaks

open Python.Text Python.Exec Python.Dictionary Libvirt VmGuest GuestFactory GuestResources GuestSteps

variable {Domain : Type}

section Accounts

variable (host₀ : HostState Domain)

/-- What the calls of `new_vm` make is not there at first, and no other call is
given it or makes it up too. -/
structure Fresh (cs : List Creation) : Prop where
  absent : ∀ c ∈ cs, ∀ r ∈ c.made, host₀.has r = false
  names : (cs.map Creation.name).Nodup
  apart : ∀ c ∈ cs, ∀ c' ∈ cs, c.name ≠ c'.name → ∀ r ∈ c.made, r ∉ c'.resources

/-- The guest with the number is one of the factory's. -/
def Holds (s : State Domain) (i : Nat) : Prop := i ∈ s.vms.map Prod.snd

instance (s : State Domain) (i : Nat) : Decidable (Holds s i) := inferInstanceAs (Decidable (_ ∈ _))

/-- A guest of the factory has the resource. -/
def Owned (s : State Domain) (r : Resource) : Prop :=
  ∃ i, Holds s i ∧ ∃ d, s.identities[i]? = some d ∧ r ∈ d.resources

/-- All that the host has it had at first, or a guest of the factory has it. -/
def Accounted (s : State Domain) : Prop := ∀ r, s.host.has r → host₀.has r ∨ Owned s r

/-- What holds in every state of a run with these calls of `new_vm`. -/
structure Tidy (cs : List Creation) (s : State Domain) : Prop where
  known : ∀ d ∈ s.identities, ∃ c ∈ cs, d = c.identity
  names : (s.identities.map Identity.name).Nodup
  keyed : (keys s.vms).Nodup
  indexed : ∀ e ∈ s.vms, ∃ d, s.identities[e.2]? = some d ∧ d.name = e.1
  made : ∀ r, s.host.has r → host₀.has r ∨ ∃ c ∈ cs, r ∈ c.made

/-- A removal of the guest takes away all that was not there at first. -/
def ClearsAway (s : State Domain) (i : Nat) (a : Answers Domain) : Prop :=
  ∀ g, Goes s i g → Holds s i → ∀ r ∈ g.resources, s.host.has r → host₀.has r ∨ Frees g a s.host r

/-- An operation that leaves no resource to nobody: what a call of `new_vm` writes is of
the guest that it makes, a guest that was removed is not created again, and a removal takes
away all that was not there at first. -/
def Clean (s : State Domain) : Op Domain → Prop
  | .newVm c _ _ => ∀ path, c.Writes path →
      c.call.Constructs ∧ .file path ∈ c.identity.resources
  | .create i a => ∀ g, s.guests[i]? = some g → Holds s i ∨ ¬ a.Makes (s.host.domains g.vmm.vmid)
  | .remove i a => ClearsAway host₀ s i a
  | .removeall a => ∀ i, Holds s i → ClearsAway host₀ s i (a i)
  | _ => True

end Accounts

/-- Every operation of a run is clean. -/
def CleanRun (host₀ : HostState Domain) : State Domain → List (Op Domain) → Prop
  | _, [] => True
  | s, op :: rest => Clean host₀ s op ∧ CleanRun host₀ (step s op) rest

/-- The factory keeps the guest with the number, which is unhealthy. -/
def Kept (s : State Domain) (i : Nat) : Prop :=
  Holds s i ∧ ∃ g, s.guests[i]? = some g ∧ s.keepIssueVm = true ∧ g.keep = true

section Invariant

variable {host₀ : HostState Domain} {cs : List Creation} {c c' : Creation} {s : State Domain} {r : Resource}
  {i j : Nat} {d d' : Identity}

theorem Fresh.sublist {cs' : List Creation} (h : Fresh host₀ cs) (hsub : cs'.Sublist cs) :
    Fresh host₀ cs' where
  absent c hc := h.absent c (hsub.mem hc)
  names := h.names.sublist (hsub.map Creation.name)
  apart c hc c' hc' := h.apart c (hsub.mem hc) c' (hsub.mem hc')

theorem Fresh.name_ne (h : Fresh host₀ (cs ++ [c])) (hc' : c' ∈ cs) : c'.name ≠ c.name := by
  have hnames := h.names
  rw [List.map_append, List.map_singleton, List.nodup_append] at hnames
  exact hnames.2.2 _ (List.mem_map_of_mem hc') _ (List.mem_singleton_self _)

theorem domain_made : .domain c.vmid ∈ c.made := by simp [Creation.made]

theorem log_made : .file c.logfile ∈ c.made := by simp [Creation.made]

theorem Tidy.name_injective (h : Tidy host₀ cs s) (hd : s.identities[i]? = some d)
    (hd' : s.identities[j]? = some d') (hname : d.name = d'.name) : i = j := by
  have hi : (s.identities.map Identity.name)[i]? = some d.name := by
    rw [List.getElem?_map, hd, Option.map_some]
  have hj : (s.identities.map Identity.name)[j]? = some d'.name := by
    rw [List.getElem?_map, hd', Option.map_some]
  obtain ⟨hilt, hin⟩ := List.getElem?_eq_some_iff.mp hi
  obtain ⟨hjlt, hjn⟩ := List.getElem?_eq_some_iff.mp hj
  exact (h.names.getElem_inj_iff).mp (hin.trans (hname.trans hjn.symm))

theorem Tidy.owner (h : Tidy host₀ cs s) (hfresh : Fresh host₀ cs) (hd : s.identities[i]? = some d)
    (hd' : s.identities[j]? = some d') (hr : r ∈ d.resources) (hr' : r ∈ d'.resources)
    (hc : c ∈ cs) (hmade : r ∈ c.made) : i = j := by
  have hname : ∀ e ∈ s.identities, r ∈ e.resources → e.name = c.name := by
    intro e he hre
    obtain ⟨b, hb, rfl⟩ := h.known e he
    by_contra hne
    exact hfresh.apart c hc b hb (fun hn => hne hn.symm) r hmade (List.mem_cons_of_mem _ hre)
  exact h.name_injective hd hd' ((hname d (List.mem_of_getElem? hd) hr).trans
    (hname d' (List.mem_of_getElem? hd') hr').symm)

theorem Tidy.owner_of_has (h : Tidy host₀ cs s) (hfresh : Fresh host₀ cs)
    (hd : s.identities[i]? = some d) (hd' : s.identities[j]? = some d') (hr : r ∈ d.resources)
    (hr' : r ∈ d'.resources) (hhas : s.host.has r) (hnew : host₀.has r = false) : i = j := by
  rcases h.made r hhas with hold | ⟨c, hc, hmade⟩
  · rw [hnew] at hold
    cases hold
  · exact h.owner hfresh hd hd' hr hr' hc hmade

theorem identity_of_guest {g : Guest} (hg : s.guests[i]? = some g) :
    s.identities[i]? = some g.toIdentity := by
  rw [State.identities, List.getElem?_map, hg, Option.map_some]

theorem domain_resource : .domain d.vmm.vmid ∈ d.resources := by
  simp [Identity.resources, VMMLibvirt.resources]

theorem log_resource : .file d.vmm.logfile ∈ d.resources := by
  simp [Identity.resources, VMMLibvirt.resources]

theorem Tidy.domain_new (h : Tidy host₀ cs s) (hfresh : Fresh host₀ cs) (hd : d ∈ s.identities) :
    ∃ c ∈ cs, .domain d.vmm.vmid ∈ c.made ∧ .file d.vmm.logfile ∈ c.made ∧
      host₀.has (.domain d.vmm.vmid) = false := by
  obtain ⟨c, hc, rfl⟩ := h.known d hd
  exact ⟨c, hc, domain_made, log_made, hfresh.absent c hc _ domain_made⟩

theorem Tidy.ownIds (h : Tidy host₀ cs s) (hfresh : Fresh host₀ cs) : OwnIds s := by
  intro i j g g' hg hg' hids
  obtain ⟨c, hc, hmade, -⟩ := h.domain_new hfresh (mem_identities hg)
  have hr' : .domain g.vmm.vmid ∈ g'.toIdentity.resources := by
    rw [hids]
    exact domain_resource
  exact h.owner hfresh (identity_of_guest hg) (identity_of_guest hg') domain_resource hr' hc hmade

theorem Tidy.handles (h : Tidy host₀ cs s) : (s.vms.map Prod.snd).Nodup := by
  refine List.Nodup.map_on ?_ h.keyed.of_map
  intro e he e' he' hsnd
  obtain ⟨d, hd, hname⟩ := h.indexed e he
  obtain ⟨d', hd', hname'⟩ := h.indexed e' he'
  rw [hsnd, hd'] at hd
  cases hd
  exact Prod.ext (hname.symm.trans hname') hsnd

theorem Tidy.of_gains {s' : State Domain} (h : Tidy host₀ cs s) (hids : s'.identities = s.identities)
    (hvms : s'.vms.Sublist s.vms)
    (hgains : ∀ r, s'.host.has r → s.host.has r ∨ ∃ d ∈ s.identities,
      r = .domain d.vmm.vmid ∨ r = .file d.vmm.logfile) : Tidy host₀ cs s' where
  known := by
    rw [hids]
    exact h.known
  names := by
    rw [hids]
    exact h.names
  keyed := h.keyed.sublist (hvms.map Prod.fst)
  indexed e he := by
    rw [hids]
    exact h.indexed e (hvms.mem he)
  made r hr := by
    rcases hgains r hr with hold | ⟨d, hd, hr⟩
    · exact h.made r hold
    · obtain ⟨c, hc, rfl⟩ := h.known d hd
      refine .inr ⟨c, hc, ?_⟩
      rcases hr with rfl | rfl
      · exact domain_made
      · exact log_made

theorem Tidy.more (h : Tidy host₀ cs s) (c : Creation) : Tidy host₀ (cs ++ [c]) s where
  known d hd := by
    obtain ⟨b, hb, hd⟩ := h.known d hd
    exact ⟨b, List.mem_append_left _ hb, hd⟩
  names := h.names
  keyed := h.keyed
  indexed := h.indexed
  made r hr := (h.made r hr).imp_right fun ⟨b, hb, hmade⟩ => ⟨b, List.mem_append_left _ hb, hmade⟩

theorem has_taken : (taken c s.host).has r ↔
    s.host.has r ∨ ∃ path, c.Writes path ∧ r = .file path := by
  have himaged : (imaged c s.host).has r ↔ s.host.has r ∨
      (r = .file c.image ∧ c.call.diskImg = none ∧ c.imageClone.isSome) := by
    rw [imaged]
    by_cases hclone : c.call.diskImg = none
    · rw [if_pos hclone, has_write, and_iff_right hclone]
    · rw [if_neg hclone]
      exact (or_iff_left fun h => hclone h.2.1).symm
  have hdocumented : (documented c (imaged c s.host)).has r ↔ (imaged c s.host).has r ∨
      (r = .file c.newxmlPath ∧ c.ReachesVmm (c.call.diskImg.getD .vmImage) ∧
        c.xmlClone.isSome) := by
    rw [documented]
    by_cases hvmm : c.ReachesVmm (c.call.diskImg.getD .vmImage)
    · rw [if_pos hvmm, has_rewrite, has_write, and_iff_right hvmm]
    · rw [if_neg hvmm]
      exact (or_iff_left fun h => hvmm h.2.1).symm
  rw [taken]
  by_cases hreaches : c.call.ReachesInit
  · have hasks : c.Asks := hreaches.1
    rw [if_pos hreaches, hdocumented, himaged, or_assoc]
    refine or_congr_right ⟨?_, ?_⟩
    · rintro (⟨rfl, hclone⟩ | ⟨rfl, hxml⟩)
      · exact ⟨c.image, .inl ⟨rfl, hasks, hclone⟩, rfl⟩
      · exact ⟨c.newxmlPath, .inr ⟨rfl, hreaches, hxml⟩, rfl⟩
    · rintro ⟨path, ⟨rfl, -, hclone⟩ | ⟨rfl, -, hxml⟩, rfl⟩
      · exact .inl ⟨rfl, hclone⟩
      · exact .inr ⟨rfl, hxml⟩
  · rw [if_neg hreaches]
    by_cases hasks : c.Asks
    · rw [if_pos hasks, himaged]
      refine or_congr_right ⟨?_, ?_⟩
      · rintro ⟨rfl, hclone⟩
        exact ⟨c.image, .inl ⟨rfl, hasks, hclone⟩, rfl⟩
      · rintro ⟨path, ⟨rfl, -, hclone⟩ | ⟨rfl, hreaches', -⟩, rfl⟩
        · exact ⟨rfl, hclone⟩
        · exact absurd hreaches' hreaches
    · rw [if_neg hasks]
      refine (or_iff_left ?_).symm
      rintro ⟨path, ⟨rfl, hasks', -⟩ | ⟨rfl, hreaches', -⟩, rfl⟩
      · exact hasks hasks'
      · exact hreaches hreaches'

theorem made_of_writes {path : Str} (h : c.Writes path) : .file path ∈ c.made := by
  rcases h with ⟨rfl, -, hclone⟩ | ⟨rfl, -, -, hxml⟩
  · simp [Creation.made, hclone]
  · simp [Creation.made, hxml]

theorem taken_made (h : (taken c s.host).has r) : s.host.has r ∨ r ∈ c.made := by
  rcases has_taken.mp h with hold | ⟨path, hwrites, rfl⟩
  · exact .inl hold
  · exact .inr (made_of_writes hwrites)

theorem Tidy.name_not_mem (h : Tidy host₀ cs s) (hfresh : Fresh host₀ (cs ++ [c])) :
    c.name ∉ keys s.vms := by
  intro hmem
  obtain ⟨e, he, hname⟩ := List.mem_map.mp hmem
  obtain ⟨d, hd, hdname⟩ := h.indexed e he
  obtain ⟨b, hb, rfl⟩ := h.known d (List.mem_of_getElem? hd)
  exact hfresh.name_ne hb (hdname.trans hname)

theorem vms_withGuest (h : Tidy host₀ cs s) (hfresh : Fresh host₀ (cs ++ [c])) (inst : VMGuest) :
    (State.withGuest c inst (entered c s)).vms = s.vms ++ [(c.name, s.identities.length)] := by
  have hlength : s.identities.length = s.guests.length := List.length_map _
  rw [hlength]
  exact set_of_not_mem (h.name_not_mem hfresh) _

theorem tidy_newVm (h : Tidy host₀ cs s) (hfresh : Fresh host₀ (cs ++ [c]))
    (a b : Answers Domain) : Tidy host₀ (cs ++ [c]) (step s (.newVm c a b)) := by
  have hstep : step s (.newVm c a b) = (GuestFactory.newVm c a b s).2 := rfl
  have hnew : c ∈ cs ++ [c] := List.mem_append_right _ (List.mem_singleton_self c)
  rcases newVm_state c a b s with ⟨-, hrun⟩ | ⟨-, host, htouches, hrun⟩
  · rw [hstep, hrun]
    refine ⟨(h.more c).known, h.names, h.keyed, h.indexed, fun r hr => ?_⟩
    rcases taken_made hr with hold | hmade
    · exact (h.more c).made r hold
    · exact .inr ⟨c, hnew, hmade⟩
  · rw [hstep, hrun]
    have hids : (State.withHost host (State.withGuest c (constructed c s) (entered c s))).identities =
        s.identities ++ [c.identity] := List.map_append
    have hvms : (State.withHost host (State.withGuest c (constructed c s) (entered c s))).vms =
        s.vms ++ [(c.name, s.identities.length)] := vms_withGuest h hfresh (constructed c s)
    refine ⟨?_, ?_, ?_, ?_, ?_⟩
    · rw [hids]
      intro d hd
      rcases List.mem_append.mp hd with hd | hd
      · exact (h.more c).known d hd
      · exact ⟨c, hnew, List.mem_singleton.mp hd⟩
    · rw [hids, List.map_append, List.map_singleton, List.nodup_append]
      refine ⟨h.names, List.nodup_singleton _, ?_⟩
      rintro _ hname _ hc rfl
      obtain ⟨d, hd, hdname⟩ := List.mem_map.mp hname
      obtain ⟨b, hb, rfl⟩ := h.known d hd
      exact hfresh.name_ne hb (hdname.trans (List.mem_singleton.mp hc))
    · rw [hvms, keys, List.map_append, List.map_singleton, List.nodup_append]
      refine ⟨h.keyed, List.nodup_singleton _, ?_⟩
      rintro _ hname _ hc rfl
      rw [List.mem_singleton.mp hc] at hname
      exact h.name_not_mem hfresh hname
    · rw [hvms, hids]
      intro e he
      rcases List.mem_append.mp he with he | he
      · obtain ⟨d, hd, hname⟩ := h.indexed e he
        have hlt : e.2 < s.identities.length := (List.getElem?_eq_some_iff.mp hd).1
        exact ⟨d, by rw [List.getElem?_append_left hlt, hd], hname⟩
      · rw [List.mem_singleton.mp he]
        exact ⟨c.identity, List.getElem?_concat_length, rfl⟩
    · intro r hr
      rcases gains_of_touches htouches hr with hold | rfl | rfl
      · rcases taken_made hold with hold | hmade
        · exact (h.more c).made r hold
        · exact .inr ⟨c, hnew, hmade⟩
      · exact .inr ⟨c, hnew, domain_made⟩
      · exact .inr ⟨c, hnew, log_made⟩

theorem tidy_step (h : Tidy host₀ cs s) {op : Op Domain} (hfresh : Fresh host₀ (cs ++ creations [op])) :
    Tidy host₀ (cs ++ creations [op]) (step s op) := by
  have hsame (a : Nat → Answers Domain) (is : List Nat) : Tidy host₀ cs (removedEach a is s) :=
    h.of_gains (identities_removedEach a is s) (vms_removedEach a is s)
      fun r hr => .inl (has_of_removedEach hr)
  have hcalm (hsteady : Steady op) : Tidy host₀ cs (step s op) := by
    have hstep : Calm op s (step s op) := calm_step hsteady
    refine h.of_gains hstep.identities (hstep.vms ▸ List.Sublist.refl _) fun r hr => ?_
    exact (hstep.gains r hr).imp_right fun ⟨d, hd, _, hgained⟩ => ⟨d, hd, hgained⟩
  cases op with
  | newVm c a b => exact tidy_newVm h hfresh a b
  | create i a =>
    rw [creations, List.filterMap_cons_none rfl, List.filterMap_nil, List.append_nil]
    obtain ⟨-, hrun⟩ | ⟨g, hg, hrun⟩ := step_create i a s
    · rw [hrun]
      exact h
    · rw [hrun]
      refine h.of_gains rfl (List.Sublist.refl _) fun r hr => ?_
      exact (gains_of_touches (touches_guest_create g a s.host) hr).imp_right
        fun hgained => ⟨g.toIdentity, mem_identities hg, hgained⟩
  | remove i a =>
    rw [creations, List.filterMap_cons_none rfl, List.filterMap_nil, List.append_nil, step_remove]
    exact hsame _ _
  | removeall a =>
    rw [creations, List.filterMap_cons_none rfl, List.filterMap_nil, List.append_nil, step_removeall]
    exact hsame _ _
  | _ =>
    rw [creations, List.filterMap_cons_none rfl, List.filterMap_nil, List.append_nil]
    exact hcalm trivial

end Invariant

section Leaks

variable {host₀ : HostState Domain} {cs : List Creation} {c : Creation} {s s' : State Domain} {r : Resource}
  {i : Nat}

theorem Tidy.unowned (h : Tidy host₀ cs s) (hfresh : Fresh host₀ (cs ++ [c])) (hr : r ∈ c.made) :
    host₀.has r = false ∧ ¬ Owned s r := by
  have hc : c ∈ cs ++ [c] := List.mem_append_right _ (List.mem_singleton_self c)
  refine ⟨hfresh.absent c hc r hr, ?_⟩
  rintro ⟨i, -, d, hd, hmem⟩
  obtain ⟨b, hb, rfl⟩ := h.known d (List.mem_of_getElem? hd)
  exact hfresh.apart c hc b (List.mem_append_left _ hb) (hfresh.name_ne hb).symm r hr
    (List.mem_cons_of_mem _ hmem)

theorem Owned.mono (hvms : ∀ e ∈ s.vms, e ∈ s'.vms)
    (hids : ∀ (i : Nat) (d : Identity), s.identities[i]? = some d → s'.identities[i]? = some d)
    (h : Owned s r) : Owned s' r := by
  obtain ⟨i, hi, d, hd, hr⟩ := h
  obtain ⟨e, he, rfl⟩ := List.mem_map.mp hi
  exact ⟨e.2, List.mem_map_of_mem (hvms e he), d, hids _ d hd, hr⟩

/-- A guest of the factory has what it had, and the new one what is its own. -/
theorem owned_withGuest (h : Tidy host₀ cs s) (hfresh : Fresh host₀ (cs ++ [c]))
    (host : HostState Domain) (inst : VMGuest) :
    Owned (State.withHost host (State.withGuest c inst (entered c s))) r ↔
      Owned s r ∨ r ∈ c.identity.resources := by
  have hvms : (State.withHost host (State.withGuest c inst (entered c s))).vms =
      s.vms ++ [(c.name, s.identities.length)] := vms_withGuest h hfresh inst
  have hids : (State.withHost host (State.withGuest c inst (entered c s))).identities =
      s.identities ++ [c.identity] := List.map_append
  rw [Owned, Owned]
  simp only [Holds, hvms, hids, List.map_append, List.map_singleton, List.mem_append,
    List.mem_singleton]
  constructor
  · rintro ⟨i, hi | rfl, d, hd, hr⟩
    · obtain ⟨e, he, rfl⟩ := List.mem_map.mp hi
      obtain ⟨d', hd', -⟩ := h.indexed e he
      rw [List.getElem?_append_left (List.getElem?_eq_some_iff.mp hd').1] at hd
      exact .inl ⟨e.2, hi, d, hd, hr⟩
    · rw [List.getElem?_concat_length] at hd
      cases hd
      exact .inr hr
  · rintro (⟨i, hi, d, hd, hr⟩ | hr)
    · have hd' : (s.identities ++ [c.identity])[i]? = some d := by
        rw [List.getElem?_append_left (List.getElem?_eq_some_iff.mp hd).1, hd]
      exact ⟨i, .inl hi, d, hd', hr⟩
    · exact ⟨s.identities.length, .inr rfl, c.identity, List.getElem?_concat_length, hr⟩

theorem accounted_newVm (h : Tidy host₀ cs s) (hfresh : Fresh host₀ (cs ++ [c]))
    (hacc : Accounted host₀ s) (a b : Answers Domain) :
    Accounted host₀ (step s (.newVm c a b)) ↔ Clean host₀ s (.newVm c a b) := by
  have hstep : step s (.newVm c a b) = (GuestFactory.newVm c a b s).2 := rfl
  rw [Clean]
  rcases newVm_state c a b s with ⟨hnot, hrun⟩ | ⟨hconstructs, host, htouches, hrun⟩
  · rw [hstep, hrun]
    constructor
    · intro hacc' path hwrites
      obtain ⟨hnew, hunowned⟩ := h.unowned hfresh (made_of_writes hwrites)
      rcases hacc' _ (has_taken.mpr (.inr ⟨path, hwrites, rfl⟩)) with hold | howned
      · rw [hnew] at hold
        cases hold
      · exact absurd howned hunowned
    · intro hclean r hr
      rcases has_taken.mp hr with hold | ⟨path, hwrites, -⟩
      · exact hacc r hold
      · exact absurd (hclean path hwrites).1 hnot
  · rw [hstep, hrun]
    constructor
    · intro hacc' path hwrites
      refine ⟨hconstructs, ?_⟩
      by_cases hlog : path = c.vmm.logfile
      · rw [hlog]
        exact log_resource
      obtain ⟨hnew, hunowned⟩ := h.unowned hfresh (made_of_writes hwrites)
      have htaken : (taken c s.host).has (.file path) :=
        has_taken.mpr (.inr ⟨path, hwrites, rfl⟩)
      rw [HostState.has, HostState.view, ← htouches.files path hlog] at htaken
      rcases hacc' (.file path) htaken with hold | howned
      · rw [hnew] at hold
        cases hold
      · exact ((owned_withGuest h hfresh host _).mp howned).resolve_left hunowned
    · intro hclean r hr
      have hown (hmem : r ∈ c.identity.resources) :=
        (owned_withGuest h hfresh host (constructed c s)).mpr (.inr hmem)
      rcases gains_of_touches htouches hr with htaken | rfl | rfl
      · rcases has_taken.mp htaken with hold | ⟨path, hwrites, rfl⟩
        · exact (hacc r hold).imp_right fun howned =>
            (owned_withGuest h hfresh host (constructed c s)).mpr (.inl howned)
        · exact .inr (hown (hclean path hwrites).2)
      · exact .inr (hown domain_resource)
      · exact .inr (hown log_resource)

theorem owned_of_holds {d : Identity} (hi : Holds s i) (hd : s.identities[i]? = some d)
    (hr : r ∈ d.resources) : Owned s r := ⟨i, hi, d, hd, hr⟩

theorem Tidy.holds_of_owned (h : Tidy host₀ cs s) (hfresh : Fresh host₀ cs) {d : Identity}
    (hd : s.identities[i]? = some d) (hr : r ∈ d.resources) (hc : c ∈ cs) (hmade : r ∈ c.made)
    (howned : Owned s r) : Holds s i := by
  obtain ⟨j, hj, d', hd', hr'⟩ := howned
  rw [h.owner hfresh hd hd' hr hr' hc hmade]
  exact hj

theorem accounted_calm {op : Op Domain} (hcalm : Calm op s s') (h : Tidy host₀ cs s)
    (hfresh : Fresh host₀ cs) (hacc : Accounted host₀ s) : Accounted host₀ s' := by
  have hkeep : ∀ r, Owned s r → Owned s' r := by
    intro r
    apply Owned.mono
    · rw [hcalm.vms]
      exact fun e he => he
    · rw [hcalm.identities]
      exact fun i d hd => hd
  intro r hr
  rcases hcalm.gains r hr with hold | ⟨d, hd, hdomain, hgained⟩
  · exact (hacc r hold).imp_right (hkeep r)
  · obtain ⟨i, hi⟩ := List.mem_iff_getElem?.mp hd
    obtain ⟨c, hc, hmade, -, hnew⟩ := h.domain_new hfresh hd
    rcases hacc _ hdomain with hold | howned
    · rw [hnew] at hold
      cases hold
    · have hholds := h.holds_of_owned hfresh hi domain_resource hc hmade howned
      refine .inr (hkeep r (owned_of_holds hholds hi ?_))
      rcases hgained with rfl | rfl
      · exact domain_resource
      · exact log_resource

theorem accounted_create (h : Tidy host₀ cs s) (hfresh : Fresh host₀ cs)
    (hacc : Accounted host₀ s) (i : Nat) (a : Answers Domain) :
    Accounted host₀ (step s (.create i a)) ↔ Clean host₀ s (.create i a) := by
  rw [Clean]
  obtain ⟨hnone, hrun⟩ | ⟨g, hg, hrun⟩ := step_create i a s
  · rw [hrun]
    refine iff_of_true hacc fun g hg => ?_
    rw [hnone] at hg
    cases hg
  · have hi : s.identities[i]? = some g.toIdentity := identity_of_guest hg
    have hone : (∀ g', s.guests[i]? = some g' → Holds s i ∨
        ¬ a.Makes (s.host.domains g'.vmm.vmid)) ↔
        Holds s i ∨ ¬ a.Makes (s.host.domains g.vmm.vmid) := by
      rw [hg]
      exact ⟨fun h => h g rfl, fun h g' hg' => by cases hg'; exact h⟩
    rw [hrun, hone]
    obtain ⟨c, hc, hdomain, hlog, -⟩ := h.domain_new hfresh (mem_identities hg)
    constructor
    · intro hacc'
      rw [or_iff_not_imp_right, not_not]
      intro hmakes
      have hhad : ∀ r ∈ g.resources, r ∈ c.made → (g.create a s.host).2.has r → Holds s i := by
        intro r hr hmade hhas
        rcases hacc' r hhas with hold | howned
        · rw [hfresh.absent c hc r hmade] at hold
          cases hold
        · exact h.holds_of_owned hfresh hi hr hc hmade howned
      rcases create_makes hmakes with hmade | hmade
      · exact hhad _ domain_resource hdomain hmade
      · exact hhad _ log_resource hlog hmade
    · intro hclean r hr
      by_cases hold : s.host.has r = true
      · exact hacc r hold
      · have hholds := hclean.resolve_right (not_not_intro (makes_of_gained hold hr))
        rcases (gains_of_touches (touches_guest_create g a s.host) hr).resolve_left hold with
          rfl | rfl
        · exact .inr (owned_of_holds hholds hi domain_resource)
        · exact .inr (owned_of_holds hholds hi log_resource)

theorem holds_removedEach (h : Tidy host₀ cs s) {d : Identity} (hd : s.identities[i]? = some d)
    (a : Nat → Answers Domain) (is : List Nat) : Holds (removedEach a is s) i ↔
      Holds s i ∧ ∀ j ∈ is, ∀ g, Goes s j g → j ≠ i := by
  have hname : ∀ e ∈ s.vms, e.2 = i → e.1 = d.name := by
    rintro e he rfl
    obtain ⟨d', hd', hname⟩ := h.indexed e he
    rw [hd] at hd'
    cases hd'
    exact hname.symm
  have hother : ∀ j g, Goes s j g → (d.name = g.name ↔ j = i) := by
    intro j g hg
    have hj := identity_of_guest hg.1
    constructor
    · exact fun heq => h.name_injective hj hd heq.symm
    · rintro rfl
      rw [hd] at hj
      cases hj
      rfl
  constructor
  · intro hmem
    obtain ⟨e, he, rfl⟩ := List.mem_map.mp hmem
    obtain ⟨he, hstays⟩ := (mem_vms_removedEach a is s).mp he
    refine ⟨List.mem_map_of_mem he, fun j hj g hg hje => ?_⟩
    exact hstays j hj g hg ((hname e he rfl).trans ((hother j g hg).mpr hje))
  · rintro ⟨hmem, hstays⟩
    obtain ⟨e, he, rfl⟩ := List.mem_map.mp hmem
    refine List.mem_map_of_mem ((mem_vms_removedEach a is s).mpr ⟨he, fun j hj g hg heq => ?_⟩)
    exact hstays j hj g hg ((hother j g hg).mp ((hname e he rfl).symm.trans heq))

theorem mem_of_frees {g : Guest} {a : Answers Domain} {host : HostState Domain} (h : Frees g a host r) :
    r ∈ g.resources := by
  cases r with
  | file path => exact h.1
  | domain uuid => exact h.1

theorem accounted_removedEach (h : Tidy host₀ cs s) (hfresh : Fresh host₀ cs)
    (hacc : Accounted host₀ s) {is : List Nat} (his : is.Nodup) (a : Nat → Answers Domain) :
    Accounted host₀ (removedEach a is s) ↔ ∀ i ∈ is, ClearsAway host₀ s i (a i) := by
  have hids := h.ownIds hfresh
  have hidentities := identities_removedEach a is s
  constructor
  · intro hacc' i hi g hg hheld r hr hhas
    by_contra hno
    obtain ⟨hnew, hstuck⟩ := not_or.mp hno
    rw [Bool.not_eq_true] at hnew
    have hstill : (removedEach a is s).host.has r := by
      refine (has_removedEach a his hids r).mpr ⟨hhas, fun j hj g' hg' hfrees => ?_⟩
      have hij := h.owner_of_has hfresh (identity_of_guest hg.1) (identity_of_guest hg'.1) hr
        (mem_of_frees hfrees) hhas hnew
      subst hij
      have hsame : g = g' := Option.some.inj (hg.1.symm.trans hg'.1)
      exact hstuck (hsame ▸ hfrees)
    rcases hacc' r hstill with hold | ⟨j, hj, d, hd, hmem⟩
    · rw [hnew] at hold
      cases hold
    · rw [hidentities] at hd
      have hij := h.owner_of_has hfresh (identity_of_guest hg.1) hd hr hmem hhas hnew
      exact ((holds_removedEach h hd a is).mp hj).2 i hi g hg hij
  · intro hclears r hr
    obtain ⟨hhas, hstuck⟩ := (has_removedEach a his hids r).mp hr
    by_cases hnew : host₀.has r = true
    · exact .inl hnew
    · rcases hacc r hhas with hold | ⟨i, hi, d, hd, hmem⟩
      · exact .inl hold
      · refine .inr ⟨i, (holds_removedEach h hd a is).mpr ⟨hi, fun j hj g hg hji => ?_⟩, d, ?_, hmem⟩
        · subst hji
          have hsame : d = g.toIdentity :=
            Option.some.inj (hd.symm.trans (identity_of_guest hg.1))
          rcases hclears j hj g hg hi r (hsame ▸ hmem) hhas with hold | hfrees
          · exact hnew hold
          · exact hstuck j hj g hg hfrees
        · rw [hidentities, hd]

theorem accounted_step (h : Tidy host₀ cs s) {op : Op Domain}
    (hfresh : Fresh host₀ (cs ++ creations [op])) (hacc : Accounted host₀ s) :
    Accounted host₀ (step s op) ↔ Clean host₀ s op := by
  have hcalm (hsteady : Steady op) (hfresh : Fresh host₀ cs) : Accounted host₀ (step s op) :=
    accounted_calm (calm_step hsteady) h hfresh hacc
  have hsame (hnone : creations [op] = []) : Fresh host₀ cs := by
    rwa [hnone, List.append_nil] at hfresh
  cases op with
  | newVm c a b => exact accounted_newVm h hfresh hacc a b
  | create i a => exact accounted_create h (hsame rfl) hacc i a
  | remove i a =>
    rw [step_remove, accounted_removedEach h (hsame rfl) hacc (List.nodup_singleton i),
      List.forall_mem_singleton]
    exact Iff.rfl
  | removeall a =>
    rw [step_removeall, accounted_removedEach h (hsame rfl) hacc h.handles]
    exact Iff.rfl
  | _ => exact iff_of_true (hcalm trivial (hsame rfl)) trivial

end Leaks

section Runs

variable {host₀ : HostState Domain} {ops : List (Op Domain)}

theorem tidy_run (hfresh : Fresh host₀ (creations ops)) :
    Tidy host₀ (creations ops) (run ops { host := host₀ }) := by
  induction ops using List.reverseRecOn with
  | nil =>
    exact ⟨fun d hd => (List.not_mem_nil hd).elim, List.nodup_nil, List.nodup_nil,
      fun e he => (List.not_mem_nil he).elim, fun r hr => .inl hr⟩
  | append_singleton ops op ih =>
    rw [creations_append] at hfresh
    rw [run_append, creations_append]
    exact tidy_step (ih (hfresh.sublist (List.sublist_append_left _ _))) hfresh

theorem cleanRun_iff (ops : List (Op Domain)) (s : State Domain) : CleanRun host₀ s ops ↔
    ∀ done op, done ++ [op] <+: ops → Clean host₀ (run done s) op := by
  induction ops generalizing s with
  | nil =>
    refine iff_of_true trivial fun done op h => ?_
    exact absurd (List.prefix_nil.mp h) (by simp)
  | cons first rest ih =>
    rw [CleanRun, ih]
    constructor
    · rintro ⟨hfirst, hrest⟩ done op h
      cases done with
      | nil =>
        obtain ⟨rfl, -⟩ := List.cons_prefix_cons.mp h
        exact hfirst
      | cons o done =>
        obtain ⟨rfl, htail⟩ := List.cons_prefix_cons.mp h
        exact hrest done op htail
    · intro h
      exact ⟨h [] first (List.cons_prefix_cons.mpr ⟨rfl, List.nil_prefix⟩),
        fun done op hdone => h (first :: done) op (List.cons_prefix_cons.mpr ⟨rfl, hdone⟩)⟩

theorem frees_obliging {active : Domain → Bool} {a : Answers Domain} (h : Obliging active a)
    {g : Guest} {host : HostState Domain} {r : Resource} : Frees g a host r ↔ r ∈ g.resources := by
  cases r with
  | file path => exact and_iff_left (h.removes path)
  | domain uuid => exact and_iff_left fun d _ => h.leaves d

theorem accounted_run (hfresh : Fresh host₀ (creations ops)) :
    (∀ done, done <+: ops → Accounted host₀ (run done { host := host₀ })) ↔
      CleanRun host₀ { host := host₀ } ops := by
  rw [cleanRun_iff]
  have hstart : Accounted host₀ (run [] { host := host₀ }) := fun r hr => .inl hr
  refine prefix_invariant_iff hstart fun done op hdone hacc => ?_
  have hsub : (creations done ++ creations [op]).Sublist (creations ops) := by
    rw [← creations_append]
    exact hdone.sublist.filterMap _
  have htidy := tidy_run (hfresh.sublist ((List.sublist_append_left _ _).trans hsub))
  rw [run_append]
  exact accounted_step htidy (hfresh.sublist hsub) hacc

theorem kept_of_holds {s : State Domain} {i : Nat} {g : Guest} (hg : s.guests[i]? = some g)
    (hi : Holds s i) : Kept s i ↔ ¬ Goes s i g := by
  have hone : ∀ g', s.guests[i]? = some g' → g' = g := fun g' hg' =>
    Option.some.inj (hg'.symm.trans hg)
  constructor
  · rintro ⟨-, g', hg', hissue, hkeep⟩ ⟨-, hremoves⟩
    rw [hone g' hg'] at hkeep
    rcases hremoves with hissue' | hkeep'
    · rw [hissue] at hissue'
      cases hissue'
    · rw [hkeep] at hkeep'
      cases hkeep'
  · intro hstays
    have hno : ¬ Removes s g := fun hremoves => hstays ⟨hg, hremoves⟩
    rw [Removes, not_or, Bool.not_eq_false, Bool.not_eq_false] at hno
    exact ⟨hi, g, hg, hno⟩

end Runs

/-- For every sequence of operations of a factory and its guests, on a host where anything can
fail: at each point all that the host has more than at first is had by a guest of the factory,
exactly when every operation of the run is clean. -/
theorem leak_free_iff (host₀ : HostState Domain) (ops : List (Op Domain))
    (hfresh : Fresh host₀ (creations ops)) :
    (∀ done, done <+: ops → Accounted host₀ (run done { host := host₀ })) ↔
      CleanRun host₀ { host := host₀ } ops := accounted_run hfresh

/-- `removeall` takes the resource away with a guest that is not kept. -/
def Cleared (s : State Domain) (r : Resource) : Prop :=
  ∃ i d, Holds s i ∧ ¬ Kept s i ∧ s.identities[i]? = some d ∧ r ∈ d.resources

/-- After a clean run `removeall`, when libvirt and the host do what it asks, leaves the factory its
unhealthy guests if they are to be kept, and else none; the host has nothing more than at first
but what these have, and all but what the removed guests had is as it was. -/
theorem cleaned_up (host₀ : HostState Domain) (ops : List (Op Domain))
    (hfresh : Fresh host₀ (creations ops)) (hclean : CleanRun host₀ { host := host₀ } ops)
    (active : Domain → Bool) (a : Nat → Answers Domain) (hobliging : ∀ i, Obliging active (a i)) :
    let s := run ops { host := host₀ }
    let s' := step s (.removeall a)
    (∀ i, Holds s' i ↔ Kept s i) ∧
      (∀ r, s'.host.has r → host₀.has r ∨
        ∃ i d, Kept s i ∧ s.identities[i]? = some d ∧ r ∈ d.resources) ∧
      ∀ r, (Cleared s r → s'.host.view r = none) ∧
        (¬ Cleared s r → s'.host.view r = s.host.view r) := by
  intro s s'
  have htidy : Tidy host₀ (creations ops) s := tidy_run hfresh
  have hacc : Accounted host₀ s :=
    (accounted_run hfresh).mpr hclean ops (List.prefix_refl ops)
  have hstep : s' = removedEach a (s.vms.map Prod.snd) s := step_removeall s a
  have hguest : ∀ i, Holds s i → ∃ g, s.guests[i]? = some g := by
    intro i hi
    obtain ⟨e, he, rfl⟩ := List.mem_map.mp hi
    obtain ⟨d, hd, -⟩ := htidy.indexed e he
    rw [State.identities, List.getElem?_map] at hd
    obtain ⟨g, hg, -⟩ := Option.map_eq_some_iff.mp hd
    exact ⟨g, hg⟩
  have hkept : ∀ i, Holds s' i ↔ Kept s i := by
    intro i
    rw [hstep]
    constructor
    · intro hi
      have hold : Holds s i := (vms_removedEach _ _ s).map Prod.snd |>.mem hi
      obtain ⟨g, hg⟩ := hguest i hold
      have hstays := ((holds_removedEach htidy (identity_of_guest hg) _ _).mp hi).2
      exact (kept_of_holds hg hold).mpr fun hgoes => hstays i hold g hgoes rfl
    · intro hi
      obtain ⟨g, hg⟩ := hguest i hi.1
      refine (holds_removedEach htidy (identity_of_guest hg) _ _).mpr ⟨hi.1, ?_⟩
      rintro j - g' hgoes rfl
      exact (kept_of_holds hgoes.1 hi.1).mp hi hgoes
  have hcleared : ∀ r, Cleared s r ↔ ∃ i, Holds s i ∧ ∃ g, Goes s i g ∧ r ∈ g.resources := by
    intro r
    constructor
    · rintro ⟨i, d, hi, hno, hd, hr⟩
      obtain ⟨g, hg⟩ := hguest i hi
      have hsame : d = g.toIdentity := Option.some.inj (hd.symm.trans (identity_of_guest hg))
      have hgoes := not_not.mp fun hstays => hno ((kept_of_holds hg hi).mpr hstays)
      exact ⟨i, hi, g, hgoes, hsame ▸ hr⟩
    · rintro ⟨i, hi, g, hgoes, hr⟩
      exact ⟨i, g.toIdentity, hi, fun hkept => (kept_of_holds hgoes.1 hi).mp hkept hgoes,
        identity_of_guest hgoes.1, hr⟩
  have hhas : ∀ r, s'.host.has r ↔ s.host.has r ∧ ¬ Cleared s r := by
    intro r
    rw [hstep, has_removedEach _ htidy.handles (htidy.ownIds hfresh), hcleared]
    simp only [frees_obliging (hobliging _)]
    push Not
    rfl
  refine ⟨hkept, fun r hr => ?_, fun r => ⟨fun hlost => ?_, fun hstays => ?_⟩⟩
  · obtain ⟨hold, hstays⟩ := (hhas r).mp hr
    refine (hacc r hold).imp_right ?_
    rintro ⟨i, hi, d, hd, hmem⟩
    exact ⟨i, d, by_contra fun hno => hstays ⟨i, d, hi, hno, hd, hmem⟩, hd, hmem⟩
  · have hno : s'.host.has r ≠ true := fun hr => ((hhas r).mp hr).2 hlost
    simpa [HostState.has] using hno
  · rw [hstep]
    refine view_removedEach a _ fun i hi g hgoes hmem => ?_
    exact hstays ((hcleared r).mpr ⟨i, hi, g, hgoes, hmem⟩)

/-- A domain as far as the sample needs it: a transient one is there while it runs. -/
inductive Machine
  | off
  | running
  | transient
  deriving DecidableEq

def Machine.active : Machine → Bool
  | .off => false
  | _ => true

def working : Answers Machine where
  lookup _ := true
  state _ d := ⟨some (if d.active then .RUNNING else .SHUTOFF), some d⟩
  isActive d := ⟨some d.active, some d⟩
  defineXML d := if d = none ∨ d = some .off then some .off else some .running
  create d := if d.active then ⟨none, some d⟩ else ⟨some (), some .running⟩
  destroy d := match d with
    | .off => ⟨none, some .off⟩
    | .running => ⟨some (), some .off⟩
    | .transient => ⟨some (), none⟩
  undefineFlags d := match d with
    | .off => ⟨some (), none⟩
    | .running => ⟨some (), some .transient⟩
    | .transient => ⟨none, some .transient⟩
  suspend d := ⟨none, some d⟩
  resume d := ⟨none, some d⟩
  reboot d := ⟨none, some d⟩
  shutdown d := ⟨none, some d⟩
  log := some []
  removes _ := true

theorem working_obliging : Obliging Machine.active working where
  lookup := rfl
  isActive _ := rfl
  destroy d left hactive hleft := by
    cases d <;> cases hleft
    · cases hactive
    · rfl
  undefineFlags d hactive := by
    cases d <;> first | rfl | cases hactive
  removes _ := rfl

/-- A host with a mother image and a kernel. -/
def sampleHost : HostState Machine where
  files path := if path ∈ ["/images/ubuntu.qcow2".toList, "/boot/vmlinuz".toList] then some [] else none
  domains _ := none

def sampleCreation (name vmid image : Str) : Creation where
  call :=
    { factory := { motherImage := "/images/ubuntu.qcow2".toList, vmKernel := some "/boot/vmlinuz".toList }
      vmtype := VM_TYPE_TD
      autoStart := true
      host := { clones := true, freePort := true, kernelExists := true, definesVm := true, starts := true } }
  name := name
  vmid := vmid
  image := image
  template := "/templates/tdx-base.xml".toList
  outputDir := "/out".toList
  xmlSaved := true
  imageClone := some [1]
  xmlClone := some [2]
  document := some [3]

/-- Two guests, of which the first writes to its log and goes off, and the second fails at
a command. -/
def sampleRun : List (Op Machine) :=
  [.setKeepIssueVm true,
    .newVm (sampleCreation "td-1".toList "id-1".toList "/images/td-1.qcow2".toList) working working,
    .newVm (sampleCreation "td-2".toList "id-2".toList "/images/td-2.qcow2".toList) working working,
    .writes "/tmp/td-1.log".toList [4],
    .change "id-1".toList fun _ => some .off,
    .sshRun 1 (some 255)]

theorem sampleRun_fresh : Fresh sampleHost (creations sampleRun) where
  absent := by decide +kernel
  names := by decide +kernel
  apart := by decide +kernel

theorem sampleCreation_clean (name vmid image : Str) :
    ∀ path, (sampleCreation name vmid image).Writes path →
      (sampleCreation name vmid image).call.Constructs ∧
        .file path ∈ (sampleCreation name vmid image).identity.resources := by
  have hconstructs : (sampleCreation [] [] []).call.Constructs := by decide +kernel
  have hfile : (sampleCreation name vmid image).filepath =
      (sampleCreation name vmid image).newxmlPath := if_pos rfl
  rintro path (⟨hpath, -⟩ | ⟨hpath, -⟩)
  · rw [hpath]
    exact ⟨hconstructs, List.mem_cons_self⟩
  · rw [hpath, ← hfile]
    exact ⟨hconstructs, List.mem_cons_of_mem _ (List.mem_cons_of_mem _ List.mem_cons_self)⟩

theorem sampleRun_clean : CleanRun sampleHost { host := sampleHost } sampleRun :=
  ⟨trivial, sampleCreation_clean _ _ _, sampleCreation_clean _ _ _, trivial, trivial, trivial,
    trivial⟩

theorem leak_free_iff_sample : Fresh sampleHost (creations sampleRun) ∧
    ∀ done, done <+: sampleRun → Accounted sampleHost (run done { host := sampleHost }) :=
  ⟨sampleRun_fresh, (leak_free_iff sampleHost sampleRun sampleRun_fresh).mpr sampleRun_clean⟩

/-- Only the guest that failed is kept. -/
theorem cleaned_up_sample :
    let s' := step (run sampleRun { host := sampleHost }) (.removeall fun _ => working)
    Fresh sampleHost (creations sampleRun) ∧ CleanRun sampleHost { host := sampleHost } sampleRun ∧
      ¬ Holds s' 0 ∧ Holds s' 1 := by
  intro s'
  obtain ⟨hkept, -⟩ := cleaned_up sampleHost sampleRun sampleRun_fresh sampleRun_clean
    Machine.active (fun _ => working) fun _ => working_obliging
  have hfirst : (run sampleRun { host := sampleHost }).guests[0]?.map Guest.keep = some false := by
    decide +kernel
  have hsecond : (run sampleRun { host := sampleHost }).guests[1]?.map Guest.keep = some true := by
    decide +kernel
  refine ⟨sampleRun_fresh, sampleRun_clean, fun h => ?_, (hkept 1).mpr ?_⟩
  · obtain ⟨-, g, hg, -, hkeep⟩ := (hkept 0).mp h
    rw [hg, Option.map_some, hkeep] at hfirst
    cases hfirst
  · obtain ⟨g, hg, hkeep⟩ := Option.map_eq_some_iff.mp hsecond
    exact ⟨by decide +kernel, g, hg, by decide +kernel, hkeep⟩

end TdxTools.CloudStack.GuestLeaks
