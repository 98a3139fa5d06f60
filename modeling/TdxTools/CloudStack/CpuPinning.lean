import Mathlib.Data.List.Nodup
import TdxTools.CloudStack.DomainXml

namespace TdxTools.CloudStack.CpuPinning

open Python.Text Python.Decimal Python.Dictionary Python.Exec Python.ElementTree DomainXml

/-- The inner loop: so many ids from `start` on, `vmNum` apart. -/
def cpuids (cpuList : List Nat) (vmNum : Nat) : Nat → Nat → Outcome (List Nat)
  | 0, _ => .ok []
  | n + 1, start => do
    let cpuid ← .ofOption .indexError cpuList[start]?
    let rest ← cpuids cpuList vmNum n (start + vmNum)
    .ok (cpuid :: rest)

def groupsFrom (cpuList : List Nat) (vmNum coreNum : Nat) : List Nat → Outcome (List (List Nat))
  | [] => .ok []
  | i :: rest => do
    let group ← cpuids cpuList vmNum (coreNum + 1) i
    let groups ← groupsFrom cpuList vmNum coreNum rest
    .ok (group :: groups)

/-- `get_cpuids_group` on the ids of the last node of the host. -/
def getCpuidsGroup (cpuList : List Nat) (vmNum coreNum : Nat) : Outcome (List (List Nat)) :=
  if vmNum * (coreNum + 1) < cpuList.length then
    groupsFrom cpuList vmNum coreNum (List.range vmNum)
  else .raised .assertionError

section Groups

variable {cpuList : List Nat} {vmNum coreNum : Nat}

/-- The ids at the places `i`, `i + vmNum`, and so on. -/
def strided (cpuList : List Nat) (vmNum n i : Nat) : List Nat :=
  (List.range n).map fun k => cpuList.getD (i + k * vmNum) 0

theorem cpuids_eq {n start : Nat} (h : ∀ k < n, start + k * vmNum < cpuList.length) :
    cpuids cpuList vmNum n start = .ok (strided cpuList vmNum n start) := by
  induction n generalizing start with
  | zero => rfl
  | succ n ih =>
    have hstart : start < cpuList.length := by simpa using h 0 (Nat.succ_pos n)
    have hrest : ∀ k < n, start + vmNum + k * vmNum < cpuList.length := by
      intro k hk
      have hnext := h (k + 1) (by omega)
      rw [Nat.succ_mul] at hnext
      omega
    have hshift : strided cpuList vmNum (n + 1) start =
        cpuList.getD start 0 :: strided cpuList vmNum n (start + vmNum) := by
      rw [strided, List.range_succ_eq_map, List.map_cons, List.map_map, Nat.zero_mul, Nat.add_zero,
        strided]
      congr 1
      apply List.map_congr_left
      intro k _
      simp only [Function.comp_apply, Nat.succ_mul]
      congr 1
      omega
    rw [cpuids, ih hrest, hshift, List.getElem?_eq_getElem hstart, Outcome.ofOption_some,
      List.getD_eq_getElem?_getD, List.getElem?_eq_getElem hstart]
    rfl

theorem place_lt (h : vmNum * (coreNum + 1) < cpuList.length) {i k : Nat} (hi : i < vmNum)
    (hk : k < coreNum + 1) : i + k * vmNum < cpuList.length := by
  have hle : k * vmNum ≤ coreNum * vmNum := Nat.mul_le_mul_right _ (by omega)
  have htotal : vmNum * (coreNum + 1) = coreNum * vmNum + vmNum := by
    rw [Nat.mul_add, Nat.mul_one, Nat.mul_comm]
  omega

theorem groupsFrom_eq (h : vmNum * (coreNum + 1) < cpuList.length) {is : List Nat}
    (his : ∀ i ∈ is, i < vmNum) : groupsFrom cpuList vmNum coreNum is =
      .ok (is.map (strided cpuList vmNum (coreNum + 1))) := by
  induction is with
  | nil => rfl
  | cons i is ih =>
    have hi := cpuids_eq (fun k hk => place_lt h (his i List.mem_cons_self) hk)
    rw [groupsFrom, hi, ih fun j hj => his j (List.mem_cons_of_mem _ hj)]
    rfl

theorem place_injective {i j k l : Nat} (hi : i < vmNum) (hj : j < vmNum)
    (h : i + k * vmNum = j + l * vmNum) : i = j ∧ k = l := by
  have hmod := congrArg (· % vmNum) h
  simp only [Nat.add_mul_mod_self_right, Nat.mod_eq_of_lt hi, Nat.mod_eq_of_lt hj] at hmod
  subst hmod
  have hmul : k * vmNum = l * vmNum := by omega
  exact ⟨rfl, Nat.eq_of_mul_eq_mul_right (by omega) hmul⟩

theorem strided_nodup (hd : cpuList.Nodup) (h : vmNum * (coreNum + 1) < cpuList.length) :
    ((List.range vmNum).map (strided cpuList vmNum (coreNum + 1))).flatten.Nodup := by
  have hsame : ∀ i j k l, i < vmNum → j < vmNum → k < coreNum + 1 → l < coreNum + 1 →
      cpuList.getD (i + k * vmNum) 0 = cpuList.getD (j + l * vmNum) 0 → i = j ∧ k = l := by
    intro i j k l hi hj hk hl heq
    apply place_injective hi hj
    simp only [List.getD_eq_getElem?_getD, List.getElem?_eq_getElem (place_lt h hi hk),
      List.getElem?_eq_getElem (place_lt h hj hl), Option.getD_some] at heq
    exact (hd.getElem_inj_iff).mp heq
  rw [← List.flatMap_def, List.nodup_flatMap]
  constructor
  · intro i hi
    apply List.Nodup.map_on _ List.nodup_range
    intro k hk l hl heq
    exact (hsame i i k l (List.mem_range.mp hi) (List.mem_range.mp hi) (List.mem_range.mp hk)
      (List.mem_range.mp hl) heq).2
  · apply List.Pairwise.imp_of_mem _ List.nodup_range
    intro i j hi hj hne x hx hy
    obtain ⟨k, hk, rfl⟩ := List.mem_map.mp hx
    obtain ⟨l, hl, heq⟩ := List.mem_map.mp hy
    exact hne (hsame i j k l (List.mem_range.mp hi) (List.mem_range.mp hj) (List.mem_range.mp hk)
      (List.mem_range.mp hl) heq.symm).1

end Groups

section Pins

def CPUTUNE : Str := "cputune".toList
def VCPUPIN : Str := "vcpupin".toList
def IOTHREADPIN : Str := "iothreadpin".toList

/-- The pins of a kind in all `cputune` elements. -/
def pins (kind : Str) (root : Element) : List Element :=
  (root.findall CPUTUNE).flatMap (·.findall kind)

/-- Pins of that kind stand in the first `cputune` element only. -/
def InFirst (kind : Str) (root : Element) : Prop :=
  ∀ tune ∈ (root.findall CPUTUNE).tail, tune.findall kind = []

variable {kind : Str} {root : Element}

theorem inFirst_of_unpinned (h : pins kind root = []) : InFirst kind root :=
  fun tune htune => List.flatMap_eq_nil_iff.mp h tune (List.mem_of_mem_tail htune)

variable (leaf : Str) (attribs : Dict Str Str)

theorem tunes_addLeaf : (addLeaf leaf attribs true [CPUTUNE] root).findall CPUTUNE =
    (((root.findall CPUTUNE).head?.getD { tag := CPUTUNE }).append
      (Element.update { tag := leaf } attribs)) :: (root.findall CPUTUNE).tail := by
  have hadd : ∀ e : Element, addLeaf leaf attribs true [] e =
      e.append (Element.update { tag := leaf } attribs) := fun e => by simp [addLeaf]
  rw [addLeaf, Element.find_eq_head]
  cases hfind : root.findall CPUTUNE with
  | nil =>
    rw [List.head?_nil, if_neg (by simp), hadd, Element.findall_append, hfind, Element.tag_append,
      if_pos rfl]
    rfl
  | cons tune rest =>
    have htag : ∀ e : Element, (addLeaf leaf attribs true [] e).tag = e.tag := fun e => by
      rw [hadd, Element.tag_append]
    rw [List.head?_cons, if_pos (by simp), Element.findall_inFirst htag hfind, hadd]
    rfl

theorem pins_addLeaf (h : InFirst kind root) :
    pins kind (addLeaf leaf attribs true [CPUTUNE] root) = pins kind root ++
        (if leaf = kind then [Element.update { tag := leaf } attribs] else []) ∧
      InFirst kind (addLeaf leaf attribs true [CPUTUNE] root) := by
  have hlater : (root.findall CPUTUNE).tail.flatMap (·.findall kind) = [] :=
    List.flatMap_eq_nil_iff.mpr h
  constructor
  · rw [pins, tunes_addLeaf, List.flatMap_cons, hlater, List.append_nil, Element.findall_append,
      Element.tag_update, pins]
    congr 1
    cases hfind : root.findall CPUTUNE with
    | nil => rfl
    | cons tune rest =>
      rw [hfind, List.tail_cons] at hlater
      rw [List.flatMap_cons, hlater, List.append_nil]
      rfl
  · rw [InFirst, tunes_addLeaf]
    exact h

end Pins

section Binding

/-- What `bind_cpuids` pins: the number of a vCPU, and the host CPU. -/
def vcpuLeaf (vcpuId cpuId : Nat) : Element :=
  Element.update { tag := VCPUPIN }
    [("vcpu".toList, decimal vcpuId), ("cpuset".toList, decimal cpuId)]

def iothreadLeaf (cpuId : Nat) : Element :=
  Element.update { tag := IOTHREADPIN }
    [("iothread".toList, "1".toList), ("cpuset".toList, decimal cpuId)]

def vcpuOf (pin : Element) : Option Str := get? pin.attrib "vcpu".toList

def cpusetOf (pin : Element) : Option Str := get? pin.attrib "cpuset".toList

@[simp] theorem vcpuOf_vcpuLeaf (k n : Nat) : vcpuOf (vcpuLeaf k n) = some (decimal k) := rfl

@[simp] theorem cpusetOf_vcpuLeaf (k n : Nat) : cpusetOf (vcpuLeaf k n) = some (decimal n) := rfl

@[simp] theorem cpusetOf_iothreadLeaf (n : Nat) : cpusetOf (iothreadLeaf n) = some (decimal n) := rfl

/-- The tree has these pins, and later pins will stand behind them. -/
structure Pinned (root : Element) (iothread vcpu : List Element) : Prop where
  iothread_pins : pins IOTHREADPIN root = iothread
  vcpu_pins : pins VCPUPIN root = vcpu
  iothread_first : InFirst IOTHREADPIN root
  vcpu_first : InFirst VCPUPIN root

theorem Pinned.add_iothread {root : Element} {io vcpu : List Element} (h : Pinned root io vcpu)
    (n : Nat) : Pinned (addLeaf IOTHREADPIN [("iothread".toList, "1".toList),
      ("cpuset".toList, decimal n)] true [CPUTUNE] root) (io ++ [iothreadLeaf n]) vcpu := by
  obtain ⟨hio, hiofirst⟩ := pins_addLeaf IOTHREADPIN
    [("iothread".toList, "1".toList), ("cpuset".toList, decimal n)] h.iothread_first
  obtain ⟨hvcpu, hvcpufirst⟩ := pins_addLeaf IOTHREADPIN
    [("iothread".toList, "1".toList), ("cpuset".toList, decimal n)] h.vcpu_first
  rw [h.iothread_pins, if_pos rfl] at hio
  rw [h.vcpu_pins, if_neg (by decide), List.append_nil] at hvcpu
  exact ⟨hio, hvcpu, hiofirst, hvcpufirst⟩

theorem Pinned.add_vcpu {root : Element} {io vcpu : List Element} (h : Pinned root io vcpu)
    (k n : Nat) : Pinned (addLeaf VCPUPIN [("vcpu".toList, decimal k),
      ("cpuset".toList, decimal n)] true [CPUTUNE] root) io (vcpu ++ [vcpuLeaf k n]) := by
  obtain ⟨hio, hiofirst⟩ := pins_addLeaf VCPUPIN
    [("vcpu".toList, decimal k), ("cpuset".toList, decimal n)] h.iothread_first
  obtain ⟨hvcpu, hvcpufirst⟩ := pins_addLeaf VCPUPIN
    [("vcpu".toList, decimal k), ("cpuset".toList, decimal n)] h.vcpu_first
  rw [h.iothread_pins, if_neg (by decide), List.append_nil] at hio
  rw [h.vcpu_pins, if_pos rfl] at hvcpu
  exact ⟨hio, hvcpu, hiofirst, hvcpufirst⟩

theorem bindVcpus_run (self : VirtXml) {root : Element} {io vcpu : List Element}
    (hroot : self.tree = some root) (h : Pinned root io vcpu) (vcpuId : Nat) (cpuIds : List Nat) :
    ∃ root', VirtXml.bindVcpus vcpuId cpuIds self = (.ok (), { self with tree := some root' }) ∧
      Pinned root' io (vcpu ++ (cpuIds.zipIdx vcpuId).map fun p => vcpuLeaf p.2 p.1) := by
  induction cpuIds generalizing self root vcpu vcpuId with
  | nil => exact ⟨root, by rw [← hroot]; rfl, by simpa using h⟩
  | cons cpuId rest ih =>
    have hadd := VirtXml.onTree_run hroot (addLeaf VCPUPIN [("vcpu".toList, decimal vcpuId),
      ("cpuset".toList, decimal cpuId)] true [CPUTUNE])
    obtain ⟨root', hrun, hpinned⟩ := ih { self with tree := some _ } rfl (h.add_vcpu vcpuId cpuId) (vcpuId + 1)
    refine ⟨root', ?_, ?_⟩
    · rw [VirtXml.bindVcpus]
      exact (Py.bind_ok hadd).trans hrun
    · rw [List.zipIdx_cons, List.map_cons]
      rw [List.append_assoc] at hpinned
      exact hpinned

theorem bindCpuids_run (saving : Element → Str → Saving) {self : VirtXml} {root : Element}
    (hroot : self.tree = some root) (hio : pins IOTHREADPIN root = [])
    (hvcpu : pins VCPUPIN root = []) (first second : Nat) (rest : List Nat) :
    ∃ root', (VirtXml.bindCpuids saving (first :: second :: rest) self).2.tree = some root' ∧
      pins IOTHREADPIN root' = [iothreadLeaf first] ∧
      pins VCPUPIN root' = (second :: rest).zipIdx.map fun p => vcpuLeaf p.2 p.1 := by
  have hunpinned : Pinned root [] [] :=
    ⟨hio, hvcpu, inFirst_of_unpinned hio, inFirst_of_unpinned hvcpu⟩
  have hadd := VirtXml.onTree_run hroot (addLeaf IOTHREADPIN [("iothread".toList, "1".toList),
    ("cpuset".toList, decimal first)] true [CPUTUNE])
  obtain ⟨root', hrun, hpinned⟩ := bindVcpus_run { self with tree := some _ } rfl
    (hunpinned.add_iothread first) 0 (second :: rest)
  refine ⟨root', ?_, hpinned.iothread_pins, hpinned.vcpu_pins⟩
  have hsaved := (VirtXml.save_keeps saving none { self with tree := some root' }).1
  have hbind : VirtXml.bindCpuids saving (first :: second :: rest) self =
      (VirtXml.save saving none >>= fun _ => pure ()) { self with tree := some root' } :=
    (Py.bind_ok hadd).trans (Py.bind_ok hrun)
  rw [hbind]
  rcases hsave : VirtXml.save saving none { self with tree := some root' } with ⟨o | e | _, s⟩
  · rw [hsave] at hsaved
    rw [Py.bind_ok hsave]
    exact hsaved
  · rw [hsave] at hsaved
    rw [Py.bind_raised hsave]
    exact hsaved
  · rw [hsave] at hsaved
    rw [Py.bind_running hsave]
    exact hsaved

end Binding

section Sharing

/-- The vCPUs that are pinned, as the tree of the object names them. -/
def vcpus (self : VirtXml) : List (Option Str) :=
  match self.tree with
  | some root => (pins VCPUPIN root).map vcpuOf
  | none => []

/-- The host CPUs of the I/O thread and of the vCPUs. -/
def hostCpus (self : VirtXml) : List (Option Str) :=
  match self.tree with
  | some root => (pins IOTHREADPIN root ++ pins VCPUPIN root).map cpusetOf
  | none => []

def Unpinned (self : VirtXml) : Prop :=
  ∃ root, self.tree = some root ∧ pins IOTHREADPIN root = [] ∧ pins VCPUPIN root = []

/-- The objects after each was bound to the group with its number. -/
def bound (saving : Element → Str → Saving) (groups : List (List Nat)) (xmls : Nat → VirtXml)
    (i : Nat) : VirtXml := (VirtXml.bindCpuids saving (groups.getD i []) (xmls i)).2

theorem bound_pins (saving : Element → Str → Saving) {self : VirtXml} (h : Unpinned self)
    {group : List Nat} {coreNum : Nat} (hlen : group.length = coreNum + 1) (hcore : 1 ≤ coreNum) :
    vcpus (VirtXml.bindCpuids saving group self).2 =
        (List.range coreNum).map (fun k => some (decimal k)) ∧
      hostCpus (VirtXml.bindCpuids saving group self).2 = group.map (fun n => some (decimal n)) := by
  obtain ⟨root, hroot, hio, hvcpu⟩ := h
  match group, hlen with
  | [first], hlen => simp at hlen; omega
  | first :: second :: rest, hlen =>
    obtain ⟨root', hroot', hio', hvcpu'⟩ :=
      bindCpuids_run saving hroot hio hvcpu first second rest
    have hcount : (second :: rest).length = coreNum := by simpa using hlen
    constructor
    · have hsnd : (second :: rest).zipIdx.map Prod.snd = List.range coreNum := by
        rw [List.zipIdx_map_snd, hcount, List.range_eq_range']
      rw [vcpus, hroot']
      simp only [hvcpu', List.map_map, ← hsnd]
      rfl
    · have hfst : (second :: rest).zipIdx.map Prod.fst = second :: rest := List.zipIdx_map_fst _ _
      have hcpus : ((second :: rest).zipIdx.map fun p => vcpuLeaf p.2 p.1).map cpusetOf =
          (second :: rest).map fun n => some (decimal n) := by
        conv_rhs => rw [← hfst]
        rw [List.map_map, List.map_map]
        rfl
      rw [hostCpus, hroot']
      dsimp only
      rw [hio', hvcpu', List.map_append, hcpus]
      rfl

end Sharing

/-- No host CPU is given to two virtual machines, or to two threads of one. -/
theorem pinning_never_shares (saving : Element → Str → Saving) {cpuList : List Nat}
    {vmNum coreNum : Nat} {xmls : Nat → VirtXml} (hd : cpuList.Nodup) (hcore : 1 ≤ coreNum)
    (hlen : vmNum * (coreNum + 1) < cpuList.length) (hxmls : ∀ i < vmNum, Unpinned (xmls i)) :
    ∃ groups, getCpuidsGroup cpuList vmNum coreNum = .ok groups ∧ groups.length = vmNum ∧
      (∀ group ∈ groups, group.length = coreNum + 1) ∧ groups.flatten.Nodup ∧
      (∀ i < vmNum,
        vcpus (bound saving groups xmls i) = (List.range coreNum).map (fun k => some (decimal k)) ∧
        hostCpus (bound saving groups xmls i) =
          (groups.getD i []).map (fun n => some (decimal n))) ∧
      ((List.range vmNum).flatMap fun i => hostCpus (bound saving groups xmls i)).Nodup := by
  let groups := (List.range vmNum).map (strided cpuList vmNum (coreNum + 1))
  have hgroups : getCpuidsGroup cpuList vmNum coreNum = .ok groups := by
    rw [getCpuidsGroup, if_pos hlen]
    exact groupsFrom_eq hlen fun i hi => List.mem_range.mp hi
  have hgroup : ∀ i < vmNum, groups.getD i [] = strided cpuList vmNum (coreNum + 1) i := by
    intro i hi
    simp [groups, hi]
  have hsize : ∀ i, (strided cpuList vmNum (coreNum + 1) i).length = coreNum + 1 := fun i => by
    simp [strided]
  have hbound : ∀ i < vmNum,
      vcpus (bound saving groups xmls i) = (List.range coreNum).map (fun k => some (decimal k)) ∧
      hostCpus (bound saving groups xmls i) =
        (groups.getD i []).map (fun n => some (decimal n)) := by
    intro i hi
    apply bound_pins saving (hxmls i hi) _ hcore
    rw [hgroup i hi, hsize]
  have hnodup : groups.flatten.Nodup := strided_nodup hd hlen
  refine ⟨groups, hgroups, by simp [groups], ?_, hnodup, hbound, ?_⟩
  · intro group hg
    obtain ⟨i, -, rfl⟩ := List.mem_map.mp hg
    exact hsize i
  · have hflat : ((List.range vmNum).flatMap fun i => hostCpus (bound saving groups xmls i)) =
        groups.flatten.map (fun n => some (decimal n)) := by
      rw [List.map_flatten, List.map_map, List.flatMap_def]
      congr 1
      apply List.map_congr_left
      intro i hi
      have hi := List.mem_range.mp hi
      rw [(hbound i hi).2, hgroup i hi]
      rfl
    rw [hflat]
    apply hnodup.map
    intro m n hmn
    exact decimal_injective (Option.some.inj hmn)

/-- A new document with no pins. -/
def sampleXml : VirtXml := { tree := some { tag := "domain".toList } }

theorem pinning_never_shares_pair :
    ∃ groups, getCpuidsGroup [0, 1, 2, 3, 4] 2 1 = .ok groups ∧ groups.length = 2 ∧
      (∀ group ∈ groups, group.length = 1 + 1) ∧ groups.flatten.Nodup ∧
      (∀ i < 2, vcpus (bound (fun _ _ => .saved) groups (fun _ => sampleXml) i) =
          (List.range 1).map (fun k => some (decimal k)) ∧
        hostCpus (bound (fun _ _ => .saved) groups (fun _ => sampleXml) i) =
          (groups.getD i []).map (fun n => some (decimal n))) ∧
      ((List.range 2).flatMap fun i =>
        hostCpus (bound (fun _ _ => .saved) groups (fun _ => sampleXml) i)).Nodup :=
  pinning_never_shares (fun _ _ => .saved) (by decide) (by decide) (by decide)
    fun _ _ => ⟨_, rfl, rfl, rfl⟩

end TdxTools.CloudStack.CpuPinning
