import TdxTools.CloudStack.DocumentSaving
import TdxTools.CloudStack.GuestFactory
import TdxTools.CloudStack.GuestSettings

namespace TdxTools.CloudStack.PreparedDomain

open Python.Text Python.Decimal Python.Dictionary Python.Exec Python.ElementTree Python.TreePaths
open Python DomainXml VmGuest DomainPreparation DomainDocument DomainSlots DomainOptions DocumentSaving
open GuestSettings
open GuestFactory (Creation)

section Parts

variable {saving : Element → Str → Saving} {sh sh' sh'' : Shape} {vminst : Vminst}

/-- A statement that is only made under a condition, before others. -/
theorem writes_if (c : Prop) [Decidable c] {x rest : Py DomainDocument Unit}
    (first : List (Key × Option Str)) (more : Grown → List Element)
    {second : List (Key × Option Str)} {last : Grown → List Element}
    (hx : c → Writes sh sh' x first more) (hskip : ¬ c → first = [] ∧ more = nothing ∧ sh.Covers sh')
    (hrest : Writes sh' sh'' rest second last) :
    Writes sh sh'' (if c then x >>= fun _ => rest else rest) (first ++ second)
      (fun g => more g ++ last g) := by
  split
  · next hc => exact (hx hc).bind fun _ => hrest
  · next hc =>
    obtain ⟨rfl, rfl, hcovers⟩ := hskip hc
    exact hrest.before hcovers

theorem writes_given {text : Option Str} {f : Str → Py DomainDocument Unit}
    {s : Str → List (Key × Option Str)} (hf : ∀ t, text = some t → t ≠ [] → Writes sh sh' (f t) (s t) nothing)
    (hcovers : sh.Covers sh') : Writes sh sh' (given text f) (whenGiven text s) nothing := by
  cases text with
  | none => exact (Writes.pure ()).after hcovers
  | some t =>
    dsimp only [given, whenGiven]
    split
    · exact (Writes.pure ()).after hcovers
    · next ht => exact hf t rfl ht

theorem undriven_covers (sh : Shape) : sh.Covers { sh with undriven := false } :=
  ⟨List.Subset.refl sh.slim, List.Subset.refl sh.there, fun h => absurd h (by simp), id, rfl, rfl⟩

theorem writes_setSpec (sh : Shape) (hsaving : NeverRaises saving) (himage : sh.image = true)
    (hthere : BASE ⊆ sh.there) (hio : vminst.ioMode ≠ none) (hcache : vminst.cache ≠ none) :
    Writes sh { sh with logged := true } (setSpec saving vminst) (specSettings vminst) nothing := by
  obtain ⟨io, hio⟩ := Option.ne_none_iff_exists'.mp hio
  obtain ⟨cache, hcache⟩ := Option.ne_none_iff_exists'.mp hcache
  have hslim {p : List Str} (hp : p ∈ IMAGE ++ SINGLES) : p ∈ sh.slim := by rwa [Shape.slim, if_pos himage]
  have hmemory := writes_setText hsaving (p := .memory) (hslim (by decide)) (hthere (by decide))
    vminst.vmspec.memsize.toText
  have huuid := writes_setText hsaving (p := .uuid) (hslim (by decide)) (hthere (by decide)) vminst.vmid
  have himagefile := writes_setPlace hsaving IMAGEFILE .imagefile rfl (fun _ => rfl) (fun _ _ => rfl)
    (hslim (by decide)) (hthere (by decide)) vminst.image fun _ _ h _ => h
  have hiomode := writes_setPlace hsaving IOMODE .iomode rfl (fun _ => rfl) (fun _ _ => rfl)
    (hslim (by decide)) (hthere (by decide)) io fun _ _ h _ => h
  have hcachemode := writes_setPlace hsaving CACHE .cache rfl (fun _ => rfl) (fun _ _ => rfl)
    (hslim (by decide)) (hthere (by decide)) cache fun _ _ h _ => h
  have hlogfile := writes_setPlace hsaving LOGFILE .logfile rfl (fun _ => rfl) (fun _ _ => rfl)
    (hslim (by decide)) (hthere (by decide)) ("/tmp/".toList ++ vminst.name ++ ".log".toList)
    fun root doc h hcopy => h.withLog fun hnone => Option.some_ne_none _ (hcopy.symm.trans hnone)
  have hslimLogged {p : List Str} (hp : p ∈ IMAGE ++ SINGLES) : p ∈ Shape.slim { sh with logged := true } :=
    hslim hp
  have hvcpu : Writes { sh with logged := true } { sh with logged := true }
      (onXml (VirtXml.setVcpu saving (.int vminst.vmspec.vcpus)))
      [((Slot.text .vcpu).key, some (decimalInt vminst.vmspec.vcpus))] nothing :=
    writes_setVcpu hsaving (hslimLogged (by decide)) (hthere (by decide)) (.int vminst.vmspec.vcpus)
  have htopology (t : Topology) (n : Int) : Writes { sh with logged := true } { sh with logged := true }
      (setTopology saving t (.int n)) [((Slot.topology t).key, some (decimalInt n))] nothing :=
    writes_setTopology hsaving t (hslimLogged (by cases t <;> decide)) (hthere (by cases t <;> decide))
      (.int n)
  rw [setSpec, specSettings, hio, hcache]
  exact hmemory.then fun _ => huuid.then fun _ => himagefile.then fun _ => hiomode.then fun _ =>
    hcachemode.then fun _ => hlogfile.then fun _ => hvcpu.then fun _ => (htopology .sockets _).then fun _ =>
      (htopology .cores _).then fun _ => htopology .threads _

theorem writes_setOptions (sh : Shape) (hsaving : NeverRaises saving)
    (hcpuIds : vminst.cpuIds ≠ [] → 2 ≤ vminst.cpuIds.length)
    (hsize : vminst.hugepages → vminst.hugepageSize ∈ HUGEPAGE_VALUES)
    (hdriver : driverSettings vminst ≠ [] → sh.undriven = true) :
    Writes sh { sh with undriven := false } (setOptions saving vminst) (optionSettings vminst)
      (pinLeaves vminst.cpuIds) := by
  have hvsock (u : Unit) : Writes { sh with undriven := false } { sh with undriven := false }
      (if vminst.vsock then setVsock saving vminst.vsockCid else pure ()) (vsockSettings vminst) nothing := by
    rw [vsockSettings]
    split
    · exact writes_setVsock hsaving vminst.vsockCid
    · exact Writes.pure ()
  have hdriven : Writes sh { sh with undriven := false } (given vminst.driver (setDriver saving))
      (driverSettings vminst) nothing := by
    refine writes_given (fun t ht hne => writes_setDriver hsaving (hdriver ?_) t) (undriven_covers sh)
    rw [driverSettings, ht, whenGiven, if_neg hne]
    exact List.cons_ne_nil _ _
  have hhugepages := writes_if (vminst.hugepages = true) (hugepageSettings vminst) nothing
    (fun hc => by
      rw [hugepageSettings, if_pos hc]
      exact writes_setHugepageParams hsaving (hsize hc))
    (fun hc => ⟨if_neg hc, rfl, sh.covers_refl⟩) (hdriven.then hvsock)
  have hpins {rest : Py DomainDocument Unit} {s : List (Key × Option Str)}
      (hrest : Writes sh { sh with undriven := false } rest s nothing) :
      Writes sh { sh with undriven := false }
        (if vminst.cpuIds ≠ [] then bindCpuids saving vminst.cpuIds >>= fun _ => rest else rest) s
        (pinLeaves vminst.cpuIds) :=
    Writes.congr (writes_if (vminst.cpuIds ≠ []) [] (pinLeaves vminst.cpuIds)
      (fun hc => writes_bindCpuids hsaving (hcpuIds hc))
      (fun hc => ⟨rfl, by rw [not_not.mp hc]; rfl, sh.covers_refl⟩) hrest) fun _ => List.append_nil _
  rw [setOptions, optionSettings, numaSettings]
  cases vminst.memNuma with
  | none => exact hpins hhugepages
  | some memnuma => exact hpins ((writes_setMemNuma hsaving memnuma).then fun _ => hhugepages)

/-- The types that have a template, by what is set for them. -/
theorem type_cases (h : (get? TEMPLATE vminst.vmtype).isSome) :
    (vminst.vmtype ∈ [VM_TYPE_LEGACY, VM_TYPE_LEGACY_PERF] ∧ vminst.vmtype ≠ VM_TYPE_SGX ∧
      vminst.vmtype ∉ TD_TYPES) ∨
    (vminst.vmtype ∉ [VM_TYPE_LEGACY, VM_TYPE_LEGACY_PERF] ∧
      vminst.vmtype ∈ [VM_TYPE_EFI, VM_TYPE_EFI_PERF] ∧ vminst.vmtype ≠ VM_TYPE_SGX ∧
      vminst.vmtype ∉ TD_TYPES) ∨
    (vminst.vmtype ∉ [VM_TYPE_LEGACY, VM_TYPE_LEGACY_PERF] ∧
      vminst.vmtype ∉ [VM_TYPE_EFI, VM_TYPE_EFI_PERF] ∧ vminst.vmtype = VM_TYPE_SGX ∧
      vminst.vmtype ∉ TD_TYPES) ∨
    (vminst.vmtype ∉ [VM_TYPE_LEGACY, VM_TYPE_LEGACY_PERF] ∧
      vminst.vmtype ∉ [VM_TYPE_EFI, VM_TYPE_EFI_PERF] ∧ vminst.vmtype ≠ VM_TYPE_SGX ∧
      vminst.vmtype ∈ TD_TYPES) := by
  have hmem : vminst.vmtype ∈ TEMPLATE.map Prod.fst := by
    obtain ⟨v, hv⟩ := Option.isSome_iff_exists.mp h
    obtain ⟨item, hfind, -⟩ := Option.map_eq_some_iff.mp hv
    have hkey : item.1 = vminst.vmtype := by simpa using List.find?_some hfind
    exact hkey ▸ List.mem_map_of_mem (List.mem_of_find?_eq_some hfind)
  revert hmem
  generalize vminst.vmtype = t
  revert t
  decide

theorem writes_setCpuParamsXml {site : Site} {distro : Str} {freq : Int} (sh : Shape)
    (hsaving : NeverRaises saving)
    (hthere : BASE ⊆ sh.there) (hknown : (get? TEMPLATE vminst.vmtype).isSome)
    (hdistro : site.distro = .ok distro)
    (hfreq : vminst.vmtype ∈ TD_TYPES → site.cpuBaseFreq = .ok freq)
    (hepc : vminst.vmtype = VM_TYPE_SGX → vminst.vmspec.epc ≠ none) :
    Writes sh sh (setCpuParamsXml saving site vminst) (cpuSettings vminst distro)
      (only .arg (cpuArgs vminst freq)) := by
  have hexec := writes_setQemuExec hsaving (Shape.mem_slim (by decide)) (hthere (by decide))
    (qemuExecOf distro)
  have hloader (v : Str) : Writes sh sh (onXml (VirtXml.setLoader saving v))
      [((Slot.text .loader).key, some v)] nothing :=
    writes_setText hsaving (Shape.mem_slim (by decide)) (hthere (by decide)) v
  refine Writes.lift site.distro distro hdistro (hexec.bind fun _ => ?_)
  rw [loaderOf, hugepagePathSettings, cpuArgs]
  rcases type_cases hknown with ⟨hlegacy, hsgx, htd⟩ | ⟨hlegacy, hefi, hsgx, htd⟩ |
    ⟨hlegacy, hefi, hsgx, htd⟩ | ⟨hlegacy, hefi, hsgx, htd⟩
  · simp only [if_pos hlegacy, if_neg hsgx, if_neg htd]
    exact (hloader _).bind fun _ => writes_setCpuParams hsaving CPU
  · simp only [if_neg hlegacy, if_pos hefi, if_neg hsgx, if_neg htd]
    exact (hloader _).bind fun _ => writes_setCpuParams hsaving CPU
  · obtain ⟨epc, hepc⟩ := Option.ne_none_iff_exists'.mp (hepc hsgx)
    simp only [if_neg hlegacy, if_neg hefi, if_pos hsgx, if_neg htd, hepc, Option.getD_some]
    exact (hloader _).bind fun _ => writes_args (writes_setCpuParams hsaving SGX_CPU) fun _ =>
      Writes.lift _ epc rfl (writes_setEpcParams hsaving epc)
  · have hcpu (u : Unit) : Writes sh sh (do
        let freq ← .lift site.cpuBaseFreq
        setCpuParams saving (paramCpu vminst freq)) []
        (only .arg [argLeaf "-cpu".toList, argLeaf (paramCpu vminst freq)]) :=
      Writes.lift site.cpuBaseFreq freq (hfreq htd) (writes_setCpuParams hsaving _)
    have hlisted : vminst.vmtype ∈ [VM_TYPE_TD, VM_TYPE_TD_PERF, VM_TYPE_TD_SB] := htd
    simp only [if_neg hlegacy, if_neg hefi, if_neg hsgx, if_pos htd, if_pos hlisted]
    cases vminst.hugepagePath with
    | none => exact (hloader _).bind hcpu
    | some path => exact (hloader _).bind fun _ => (writes_setHugepagePath hsaving path).bind hcpu

theorem writes_setBoot (hsaving : NeverRaises saving)
    (hboot : vminst.boot = .BOOT_TYPE_DIRECT → BOOT ⊆ sh.there ∧ vminst.kernel ≠ none) :
    Writes sh { sh with there := [] } (setBoot saving vminst) (bootSettings vminst) nothing := by
  rw [setBoot, bootSettings]
  cases hcase : vminst.boot with
  | BOOT_TYPE_GRUB =>
    have hkernel : Writes sh { sh with there := [] } (onXml (VirtXml.setKernel saving none))
        [((Slot.text .kernel).key, none)] nothing :=
      writes_setOptional_none hsaving (by decide) (Shape.mem_slim (by decide))
    have hcmdline : Writes { sh with there := [] } { sh with there := [] }
        (onXml (VirtXml.setCmdline saving none)) [((Slot.text .cmdline).key, none)] nothing :=
      writes_setOptional_none hsaving (by decide) (Shape.mem_slim (by decide))
    exact hkernel.then fun _ => hcmdline
  | BOOT_TYPE_DIRECT =>
    obtain ⟨hthere, hkernel⟩ := hboot hcase
    obtain ⟨kernel, hkernel⟩ := Option.ne_none_iff_exists'.mp hkernel
    have hset : Writes sh sh (onXml (VirtXml.setKernel saving (some kernel)))
        [((Slot.text .kernel).key, some kernel)] nothing :=
      writes_setOptional_some hsaving (Shape.mem_slim (by decide)) (hthere (by decide)) kernel
    have hcmdline : Writes sh sh (onXml (VirtXml.setCmdline saving (some vminst.cmdline.cmdline)))
        [((Slot.text .cmdline).key, some vminst.cmdline.cmdline)] nothing :=
      writes_setOptional_some hsaving (Shape.mem_slim (by decide)) (hthere (by decide)) _
    rw [hkernel]
    exact (hset.then fun _ => hcmdline).after
      ⟨List.Subset.refl sh.slim, List.nil_subset sh.there, id, id, rfl, rfl⟩

/-- What is left to do once the arguments of the CPU are there. -/
theorem writes_last (sh : Shape) (hsaving : NeverRaises saving)
    (hboot : vminst.boot = .BOOT_TYPE_DIRECT → BOOT ⊆ sh.there ∧ vminst.kernel ≠ none) :
    Writes sh { sh with there := [] } (do
      if vminst.hasVtpm then setVtpmXml saving vminst else pure ()
      match vminst.mwait with
      | some mwait => setOvercommitParams saving ("cpu-pm=".toList ++ mwait)
      | none => pure ()
      setBoot saving vminst) (vtpmSettings vminst ++ bootSettings vminst)
      (only .arg (overcommitArgs vminst)) := by
  have hvtpm : vminst.hasVtpm → Writes sh sh (setVtpmXml saving vminst) (vtpmSettings vminst) nothing := by
    intro hvtpm
    rw [setVtpmXml, vtpmSettings]
    by_cases htd : vminst.vmtype ∈ [VM_TYPE_TD, VM_TYPE_TD_PERF]
    · rw [if_pos htd, if_pos ⟨hvtpm, htd⟩]
      exact writes_setVtpmParam hsaving vminst.vtpmPath vminst.vtpmLog
    · rw [if_neg htd, if_neg fun hboth => htd hboth.2]
      exact Writes.pure ()
  have hskip : ¬ vminst.hasVtpm = true → vtpmSettings vminst = [] ∧ nothing = nothing ∧ sh.Covers sh :=
    fun hno => ⟨if_neg fun hboth => hno hboth.1, rfl, sh.covers_refl⟩
  have hlast := writes_setBoot hsaving hboot
  rw [overcommitArgs]
  cases vminst.mwait with
  | none =>
    rw [only_nil]
    exact writes_if (vminst.hasVtpm = true) (vtpmSettings vminst) nothing hvtpm hskip hlast
  | some mwait =>
    have hset : Writes sh sh (setOvercommitParams saving ("cpu-pm=".toList ++ mwait)) [] _ :=
      writes_setOvercommitParams hsaving ("cpu-pm=".toList ++ mwait)
    have hovercommit := hset.bind fun _ => hlast
    exact Writes.congr (writes_if (vminst.hasVtpm = true) (vtpmSettings vminst) nothing hvtpm hskip
      hovercommit) fun _ => List.append_nil _

end Parts

section Prepared

variable (saving : Element → Str → Saving) (site : Site) (vminst : Vminst) (root : Element)

def templatePath : Str :=
  Path.join site.templatesDir ((get? TEMPLATE vminst.vmtype).getD [] ++ ".xml".toList)

def newxmlPath : Str := Path.join site.outputDir (vminst.name ++ ".xml".toList)

/-- The file of the object, which stays the template when the clone cannot be saved. -/
def preparedPath : Str :=
  match saving root (newxmlPath site vminst) with
  | .saved => newxmlPath site vminst
  | _ => templatePath site vminst

/-- The preparation stops at a tree that cannot be saved. -/
def Unsaved : Prop :=
  ∃ e doc, prepareDomainXml saving site vminst {} = (.raised e, doc) ∧ Unsavable saving e doc.toVirtXml

/-- The template and the host go with what the guest asks for. -/
structure Ready (distro : Str) (freq : Int) : Prop where
  known : (get? TEMPLATE vminst.vmtype).isSome
  file : site.files (templatePath site vminst) = some root
  slim : ∀ p ∈ IMAGE ++ SINGLES, Slim p root
  there : ∀ p ∈ required vminst, (firstAt p root).isSome
  plain : ∀ p ∈ BOOT, ∀ e, firstAt p root = some e → e.attrib = [] ∧ e.children = []
  bridge : driverSettings vminst ≠ [] →
    view root BRIDGE = some "bridge".toList ∧ firstAt DRIVER root = none
  ioMode : vminst.ioMode ≠ none
  cache : vminst.cache ≠ none
  cpuIds : vminst.cpuIds ≠ [] → 2 ≤ vminst.cpuIds.length
  hugepageSize : vminst.hugepages → vminst.hugepageSize ∈ HUGEPAGE_VALUES
  distro : site.distro = .ok distro
  freq : vminst.vmtype ∈ TD_TYPES → site.cpuBaseFreq = .ok freq
  epc : vminst.vmtype = VM_TYPE_SGX → vminst.vmspec.epc ≠ none
  kernel : vminst.boot = .BOOT_TYPE_DIRECT → vminst.kernel ≠ none

/-- The object that is loaded has what the document says as its copies. -/
def loadedDocument (filepath : Str) : DomainDocument where
  tree := some root
  cached p := view root ⟨p.path, .text⟩
  io := view root Slot.iomode.key
  cache := view root Slot.cache.key
  imagefile := view root Slot.imagefile.key
  filepath := some filepath

/-- What is relied on when the clone is loaded. -/
def clonedShape : Shape where
  image := true
  there := required vminst
  undriven := driverSettings vminst ≠ []
  logged := false
  filepath := preparedPath saving site vminst root
  told := BOOT.filter fun p => (firstAt p root).isNone ∨ (view root ⟨p, .text⟩).isSome

variable {saving site vminst root} {distro : Str} {freq : Int}

theorem preparedPath_quiet :
    preparedPath (quiet saving) site vminst root = preparedPath saving site vminst root := by
  rw [preparedPath, preparedPath, quiet]
  cases saving root (newxmlPath site vminst) <;> rfl

theorem Ready.plain_view (h : Ready site vminst root distro freq) :
    ∀ p ∈ BOOT, ∀ k : Key, p <+: k.path → k ≠ ⟨p, .text⟩ → view root k = none := by
  rintro p hp ⟨path, field⟩ ⟨rest, rfl⟩ hne
  rw [view, firstAt_append]
  cases hfirst : firstAt p root with
  | none => rfl
  | some e =>
    obtain ⟨hattrib, hchildren⟩ := h.plain p hp e hfirst
    cases rest with
    | nil =>
      cases field with
      | text => exact absurd (by rw [List.append_nil]) hne
      | attrib name =>
        show get? e.attrib name = none
        rw [hattrib]
        rfl
    | cons tag tags =>
      rw [Option.bind_some, firstAt, Element.find, hchildren]
      rfl

theorem Ready.single (h : Ready site vminst root distro freq) {p : List Str}
    (hslim : p ∈ IMAGE ++ SINGLES) (hpath : p ≠ []) : findSingle p root = firstAt p root :=
  DocumentView.findSingle_eq hpath (h.slim p hslim)

theorem Ready.base (h : Ready site vminst root distro freq) {p : List Str} (hp : p ∈ BASE) :
    ∃ e, firstAt p root = some e := by
  refine Option.isSome_iff_exists.mp (h.there p ?_)
  rw [required]
  split
  · exact hp
  · exact List.mem_append_left _ hp

theorem Ready.load (h : Ready site vminst root distro freq) (filepath : Str) :
    onXml (VirtXml.load (some root) filepath) {} = (.ok true, loadedDocument root filepath) := by
  obtain ⟨driver, hdriver⟩ := h.base (p := IOMODE.path) (by decide)
  obtain ⟨image, himage⟩ := h.base (p := IMAGEFILE.path) (by decide)
  have hfindDriver : findSingle ["devices".toList, "disk".toList, "driver".toList] root = some driver :=
    (h.single (p := IOMODE.path) (by decide) (by decide)).trans hdriver
  have hfindImage : findSingle ["devices".toList, "disk".toList, "source".toList] root = some image :=
    (h.single (p := IMAGEFILE.path) (by decide) (by decide)).trans himage
  have hio : view root Slot.iomode.key = get? driver.attrib "io".toList :=
    congrArg (·.bind (read Slot.iomode.key.field)) hdriver
  have hcache : view root Slot.cache.key = get? driver.attrib "cache".toList :=
    congrArg (·.bind (read Slot.cache.key.field)) hdriver
  have hfile : view root Slot.imagefile.key = get? image.attrib "file".toList :=
    congrArg (·.bind (read Slot.imagefile.key.field)) himage
  have htext (p : Property) : view root ⟨p.path, .text⟩ = (findSingle p.path root).bind Element.text := by
    rw [h.single (by cases p <;> decide) (by cases p <;> decide)]
    rfl
  refine Py.within_ok ?_
  rw [VirtXml.load, Py.modify_bind_apply]
  simp only [DomainSettings.keep_single, hfindDriver, hfindImage, Outcome.ofOption_some,
    Py.lift_ok_bind_apply, Py.modify_bind_apply, Py.pure_apply]
  rw [← hio, ← hcache, ← hfile]
  refine congrArg (fun c => (Outcome.ok true, VirtXml.mk (some root) c (view root Slot.iomode.key)
    (view root Slot.cache.key) (view root Slot.imagefile.key) (some filepath))) (funext fun p => ?_)
  rw [htext]
  cases p <;> rfl

theorem Ready.fit (h : Ready site vminst root distro freq) :
    Fit (clonedShape saving site vminst root) root
      (loadedDocument root (preparedPath saving site vminst root)) where
  tree := rfl
  filepath := rfl
  slim p hp := h.slim p (Shape.slim_subset _ hp)
  there := h.there
  undriven hu := h.bridge (of_decide_eq_true hu)
  copies slot := by
    cases slot with
    | logfile | emulator | topology _ => exact .inr ⟨trivial, rfl⟩
    | _ => exact .inl rfl
  logged hl := absurd hl Bool.false_ne_true
  plain := h.plain_view
  told p _ hmem hsome := by
    rcases of_decide_eq_true (List.mem_filter.mp hmem).2 with hnone | htext
    · exact absurd hsome (by simp [Option.isNone_iff_eq_none.mp hnone])
    · exact Option.isSome_iff_ne_none.mp htext

variable (site vminst root) in
theorem saved_clone (hsaving : NeverRaises saving) :
    ∃ b, save saving (some (newxmlPath site vminst)) (loadedDocument root (templatePath site vminst)) =
      (.ok b, loadedDocument root (preparedPath saving site vminst root)) := by
  have hroot : VirtXml.root (loadedDocument root (templatePath site vminst)).toVirtXml =
      (.ok root, (loadedDocument root (templatePath site vminst)).toVirtXml) := rfl
  rw [preparedPath]
  cases hs : saving root (newxmlPath site vminst) with
  | saved =>
    refine ⟨true, Py.within_ok ?_⟩
    rw [VirtXml.save, Py.bind_ok hroot, Py.get_bind_apply, Option.some_or]
    dsimp only
    rw [hs]
    rfl
  | ioError =>
    refine ⟨false, Py.within_ok ?_⟩
    rw [VirtXml.save, Py.bind_ok hroot, Py.get_bind_apply, Option.some_or]
    dsimp only
    rw [hs]
    rfl
  | raised e => exact absurd hs (hsaving root _ e)

theorem Ready.clone (h : Ready site vminst root distro freq) (hsaving : NeverRaises saving) {t : Str}
    (ht : get? TEMPLATE vminst.vmtype = some t) : DomainPreparation.clone saving site t vminst.name {} =
      (onXml (VirtXml.setName saving vminst.name) >>= fun _ => pure true)
        (loadedDocument root (preparedPath saving site vminst root)) := by
  have htemplate : Path.join site.templatesDir (t ++ ".xml".toList) = templatePath site vminst := by
    rw [templatePath, ht]
    rfl
  obtain ⟨b, hsave⟩ := saved_clone site vminst root hsaving
  rw [DomainPreparation.clone]
  dsimp only
  rw [htemplate, h.file]
  exact (Py.bind_ok (h.load _)).trans (Py.bind_ok hsave)

theorem imageless_covers (sh : Shape) : sh.Covers { sh with image := false } :=
  ⟨fun _ hp => Shape.mem_slim hp, List.Subset.refl sh.there, id, id, rfl, rfl⟩

/-- The data disk is made of what the document already has of the image. -/
theorem comes_disk {sh : Shape} {middle : Element} {doc : DomainDocument} (hsaving : NeverRaises saving)
    (himage : IMAGEFILE.path ∈ sh.there) (hfit : Fit sh middle doc)
    (hio : view middle Slot.iomode.key = vminst.ioMode) (hcache : view middle Slot.cache.key = vminst.cache) :
    Comes { sh with image := false } (given vminst.diskfilePath (setDisk saving)) middle doc []
      (only .disk (diskElements vminst)) := by
  have hcopies : doc.io = vminst.ioMode ∧ doc.cache = vminst.cache :=
    ⟨((hfit.copies .iomode).resolve_right fun hlate => hlate.1).trans hio,
      ((hfit.copies .cache).resolve_right fun hlate => hlate.1).trans hcache⟩
  have hnone : Comes { sh with image := false } (pure ()) middle doc [] (only .disk []) := by
    rw [only_nil]
    exact (Writes.pure ()).after (imageless_covers sh) middle doc hfit
  rw [diskElements]
  cases vminst.diskfilePath with
  | none => exact hnone
  | some path =>
    dsimp only [given, whenGiven]
    split
    · exact hnone
    · obtain ⟨after, doc', hrun, hfit', hview, hgrown⟩ := setDisk_run hsaving hfit himage path
      rw [hcopies.1, hcopies.2] at hgrown
      exact ⟨(), after, doc', hrun, hfit', fun k _ => hview k, hgrown⟩

/-- The object and its document when the operator is done. -/
structure Prepared (site : Site) (vminst : Vminst) (root : Element) (distro : Str) (freq : Int)
    (filepath : Str) (after : Element) (doc : DomainDocument) : Prop where
  tree : doc.tree = some after
  filepath : doc.filepath = some filepath
  logfile : doc.logfile = view after Slot.logfile.key
  view : ∀ k, Tracked k → view after k = overwritten (settings vminst distro) (view root) k
  grown : ∀ g : Grown, g.observed after = g.observed root ++ added vminst freq g
  gone : vminst.boot = .BOOT_TYPE_GRUB → ∀ p ∈ BOOT,
    firstAt p root = none ∨ TreePaths.view root ⟨p, .text⟩ ≠ none → firstAt p after = none

theorem Ready.run (h : Ready site vminst root distro freq) (hsaving : NeverRaises saving) :
    ∃ after doc, prepareDomainXml saving site vminst {} = (.ok (), doc) ∧
      Prepared site vminst root distro freq (preparedPath saving site vminst root) after doc := by
  obtain ⟨t, ht⟩ := Option.isSome_iff_exists.mp h.known
  have hbase : BASE ⊆ required vminst := by
    intro p hp
    rw [required]
    split
    · exact hp
    · exact List.mem_append_left _ hp
  have hboot : vminst.boot = .BOOT_TYPE_DIRECT → BOOT ⊆ required vminst ∧ vminst.kernel ≠ none := by
    intro hdirect
    refine ⟨?_, h.kernel hdirect⟩
    rw [required, hdirect]
    exact List.subset_append_right BASE BOOT
  have hname : Writes (clonedShape saving site vminst root) (clonedShape saving site vminst root)
      (onXml (VirtXml.setName saving vminst.name)) [((Slot.text .name).key, some vminst.name)] nothing :=
    writes_setText hsaving (by rw [Shape.slim, clonedShape, if_pos rfl]; decide) (hbase (by decide)) _
  have hspec := writes_setSpec (clonedShape saving site vminst root) hsaving rfl hbase h.ioMode h.cache
  have hoptions := writes_setOptions { clonedShape saving site vminst root with logged := true } hsaving
    h.cpuIds h.hugepageSize decide_eq_true
  have hcpu := writes_setCpuParamsXml
    { clonedShape saving site vminst root with undriven := false, image := false, logged := true }
    hsaving hbase h.known h.distro h.freq h.epc
  have hlast := writes_last
    { clonedShape saving site vminst root with undriven := false, image := false, logged := true }
    hsaving hboot
  have hfront : ((specSettings vminst ++ optionSettings vminst).map Prod.fst).Nodup := by
    refine (nodup_settings vminst distro).sublist (List.Sublist.map _ (List.Sublist.cons _ ?_))
    rw [← List.append_assoc]
    exact List.sublist_append_left _ _
  have hset (k : Key) (v : Option Str) {middle after : Element} (hview : ∀ k, Tracked k → view after k =
      overwritten (specSettings vminst ++ optionSettings vminst) (view middle) k) (htracked : Tracked k)
      (hmem : (k, v) ∈ specSettings vminst) : view after k = v :=
    (hview k htracked).trans (overwritten_of_mem hfront (List.mem_append_left _ hmem) _)
  obtain ⟨u, after, doc, hrun, hfit, hview, hgrown⟩ := (hname _ _ h.fit).bind fun _ middle doc hfit _ =>
    ((hspec.bind fun _ => hoptions) middle doc hfit).bind fun _ middle doc hfit hview =>
      (comes_disk hsaving (hbase (by decide)) hfit
        (hset _ vminst.ioMode hview (by decide) (by simp [specSettings]))
        (hset _ vminst.cache hview (by decide) (by simp [specSettings]))).bind fun _ middle doc hfit _ =>
        (hcpu.bind fun _ => hlast) middle doc hfit
  have hlog : doc.logfile = view after Slot.logfile.key :=
    (hfit.copies .logfile).resolve_right fun hlate => hfit.logged rfl hlate.2
  have hsettings : ∀ k, Tracked k → view after k = overwritten (settings vminst distro) (view root) k := by
    intro k hk
    rw [hview k hk]
    simp [settings, List.append_assoc]
  refine ⟨after, doc, ?_, hfit.tree, hfit.filepath, hlog, hsettings, fun g => ?_, fun hgrub p hp htold => ?_⟩
  · rw [prepareDomainXml, ht]
    refine (Py.bind_of_eq (h.clone hsaving ht) _).trans ?_
    rw [Py.bind_assoc]
    rw [Py.bind_assoc] at hrun
    exact hrun
  · obtain ⟨harg, hdisk⟩ := pinLeaves_beside vminst.cpuIds
    rw [hgrown]
    cases g <;> simp [nothing, only, added, harg, hdisk]
  · have hmem : p ∈ (clonedShape saving site vminst root).told :=
      List.mem_filter.mpr ⟨hp, decide_eq_true (htold.imp Option.isNone_iff_eq_none.mpr
        Option.isSome_iff_ne_none.mpr)⟩
    have hdeleted : (⟨p, .text⟩, none) ∈ settings vminst distro := by
      simp only [BOOT, List.mem_cons, List.not_mem_nil, or_false] at hp
      rcases hp with rfl | rfl <;> simp [settings, bootSettings, hgrub, Slot.key]
    have hnone : view after ⟨p, .text⟩ = none :=
      (hsettings _ (tracked_settings vminst distro _ hdeleted)).trans
        (overwritten_of_mem (nodup_settings vminst distro) hdeleted (view root))
    by_contra hsome
    exact hfit.told p hp hmem (Option.isSome_iff_ne_none.mpr hsome) hnone

/-- Whether trees can be saved or not. -/
theorem Ready.prepared (h : Ready site vminst root distro freq) : Unsaved saving site vminst ∨
    ∃ after doc, prepareDomainXml saving site vminst {} = (.ok (), doc) ∧
      Prepared site vminst root distro freq (preparedPath saving site vminst root) after doc := by
  obtain ⟨after, doc, hrun, hprepared⟩ := h.run (neverRaises_quiet saving)
  rw [preparedPath_quiet] at hprepared
  rcases alikeOn_prepareDomainXml site vminst {} with hsame | ⟨e, stopped, hraised, hunsavable⟩
  · exact .inr ⟨after, doc, hsame.trans hrun, hprepared⟩
  · exact .inl ⟨e, stopped, hraised, hunsavable⟩

end Prepared

/-- The guest that the call of the factory makes up, whose clone is saved or not. -/
def Prepares (saving : Element → Str → Saving) (site : Site) (vminst : Vminst) (root : Element)
    (c : Creation) : Prop :=
  c.name = vminst.name ∧ c.vmid = vminst.vmid ∧ c.template = templatePath site vminst ∧
    c.outputDir = site.outputDir ∧ (c.xmlSaved ↔ saving root (newxmlPath site vminst) = .saved)

section Sample

variable {vminst : Vminst}

def element (tag : String) (attrib : List (String × String)) (children : List Element) : Element :=
  { tag := tag.toList, attrib := attrib.map fun item => (item.1.toList, item.2.toList), children }

def written (tag text : String) : Element := { tag := tag.toList, text := some text.toList }

/-- The template of a TD, but for what no setter comes by and the blanks between the elements. -/
def tdxBase : Element :=
  element "domain" [("type", "kvm")]
    [written "name" "REPLACEME_NAME", written "uuid" "REPLACEME_UUID",
      { element "memory" [("unit", "KiB")] [] with text := some "REPLACEME_MEMORY".toList },
      { element "vcpu" [("placement", "static")] [] with text := some "1".toList },
      element "os" []
        [written "loader" "REPLACEME_OVMF_CODE", element "boot" [("dev", "hd")] [],
          written "kernel" "REPLACEME_KERNEL",
          written "cmdline" "root=/dev/vda3 selinux=0 rw console=hvc0"],
      element "cpu" [("mode", "host-passthrough")]
        [element "topology" [("sockets", "1"), ("cores", "1"), ("threads", "1")] []],
      element "devices" []
        [written "emulator" "REPLACEME_QEMU",
          element "disk" [("type", "file"), ("device", "disk")]
            [element "driver" [("name", "qemu"), ("type", "qcow2"), ("io", "native"), ("cache", "none")] [],
              element "source" [("file", "REPLACEME_IMAGE")] [],
              element "target" [("dev", "vda"), ("bus", "virtio")] []],
          element "console" [("type", "pty")] [element "log" [("file", "REPLACEME_LOG")] []],
          element "interface" [("type", "bridge")]
            [element "source" [("bridge", "virbr0")] [], element "model" [("type", "virtio")] []],
          element "interface" [("type", "user")] [element "model" [("type", "virtio")] []]],
      element "launchSecurity" [("type", "tdx")] [written "policy" "0x10000000"]]

def tdxSite : Site where
  files _ := some tdxBase
  templatesDir := "/templates".toList
  outputDir := "/tmp".toList
  distro := .ok "ubuntu 22.04".toList
  cpuBaseFreq := .ok 2000000

/-- A guest that asks for everything. -/
def tdxGuest : Vminst where
  name := "td-1".toList
  vmid := "7a-1".toList
  image := "/tmp/td-1.qcow2".toList
  vmtype := VM_TYPE_TD
  vmspec := { sockets := 1, cores := 2, threads := 1, memsize := .int 16777216 }
  boot := .BOOT_TYPE_DIRECT
  kernel := some "/boot/vmlinuz".toList
  cmdline := ⟨"root=/dev/vda1".toList⟩
  ioMode := some "threads".toList
  cache := some "none".toList
  cpuIds := [37, 39, 40]
  memNuma := some true
  hugepages := true
  hugepagePath := some "/dev/hugepages".toList
  driver := some "vhost".toList
  vsock := true
  vsockCid := 3
  diskfilePath := some "/tmp/data.qcow2".toList
  hasVtpm := true
  tsc := some false
  mwait := some "on".toList

def allSaved : Element → Str → Saving := fun _ _ => .saved

theorem tdxGuest_ready : Ready tdxSite tdxGuest tdxBase "ubuntu 22.04".toList 2000000 where
  known := by decide
  file := rfl
  slim := by decide
  there := by decide
  plain := by decide
  bridge _ := by decide
  ioMode := by decide
  cache := by decide
  cpuIds _ := by decide
  hugepageSize _ := by decide
  distro := rfl
  freq _ := rfl
  epc h := by revert h; decide
  kernel _ := by decide

/-- The same guest, which boots the kernel of its image. -/
def grubGuest : Vminst := { tdxGuest with boot := .BOOT_TYPE_GRUB, kernel := none }

theorem grubGuest_ready : Ready tdxSite grubGuest tdxBase "ubuntu 22.04".toList 2000000 where
  known := by decide
  file := rfl
  slim := by decide
  there := by decide
  plain := by decide
  bridge _ := by decide
  ioMode := by decide
  cache := by decide
  cpuIds _ := by decide
  hugepageSize _ := by decide
  distro := rfl
  freq _ := rfl
  epc h := by revert h; decide
  kernel h := by cases h

theorem not_unsaved : ¬ Unsaved allSaved tdxSite vminst := by
  rintro ⟨e, doc, -, tree, path, -, hraised⟩
  cases hraised

def tdxCreation : Creation where
  call := sampleCall "/images/ubuntu.qcow2".toList
  name := tdxGuest.name
  vmid := tdxGuest.vmid
  image := tdxGuest.image
  template := templatePath tdxSite tdxGuest
  outputDir := tdxSite.outputDir
  xmlSaved := true
  imageClone := some []
  xmlClone := some []
  document := some []

theorem tdxCreation_prepared : Prepares allSaved tdxSite tdxGuest tdxBase tdxCreation :=
  ⟨rfl, rfl, rfl, rfl, iff_of_true rfl rfl⟩

end Sample

section Results

variable {saving : Element → Str → Saving} {site : Site} {vminst : Vminst} {root : Element}
  {distro : Str} {freq : Int}

/-- What the guest says is what its document says, and the rest is as the template has it.
For a GRUB boot the kernel and its command line are gone, if the template has them with a text. -/
theorem prepared_document (h : Ready site vminst root distro freq) : Unsaved saving site vminst ∨
    ∃ after doc, prepareDomainXml saving site vminst {} = (.ok (), doc) ∧ doc.tree = some after ∧
      (∀ s ∈ settings vminst distro, view after s.1 = s.2) ∧
      (∀ k, Tracked k → (∀ s ∈ settings vminst distro, s.1 ≠ k) → view after k = view root k) ∧
      (vminst.boot = .BOOT_TYPE_GRUB → ∀ p ∈ BOOT,
        firstAt p root = none ∨ view root ⟨p, .text⟩ ≠ none → firstAt p after = none) := by
  refine h.prepared.imp_right ?_
  rintro ⟨after, doc, hrun, hprepared⟩
  refine ⟨after, doc, hrun, hprepared.tree, fun s hs => ?_, fun k hk hother => ?_, hprepared.gone⟩
  · rw [hprepared.view s.1 (tracked_settings vminst distro s hs)]
    exact overwritten_of_mem (nodup_settings vminst distro) hs (view root)
  · rw [hprepared.view k hk]
    exact overwritten_of_ne hother (view root)

theorem prepared_document_tdx :
    (∃ after doc, prepareDomainXml allSaved tdxSite tdxGuest {} = (.ok (), doc) ∧ doc.tree = some after ∧
      (∀ s ∈ settings tdxGuest "ubuntu 22.04".toList, view after s.1 = s.2) ∧
      ∀ k, Tracked k → (∀ s ∈ settings tdxGuest "ubuntu 22.04".toList, s.1 ≠ k) →
        view after k = view tdxBase k) ∧
    ∃ after doc, prepareDomainXml allSaved tdxSite grubGuest {} = (.ok (), doc) ∧ doc.tree = some after ∧
      ∀ p ∈ BOOT, firstAt p after = none := by
  obtain ⟨after, doc, hrun, htree, hset, hkept, -⟩ :=
    (prepared_document tdxGuest_ready).resolve_left not_unsaved
  obtain ⟨after', doc', hrun', htree', -, -, hgone⟩ :=
    (prepared_document grubGuest_ready).resolve_left not_unsaved
  refine ⟨⟨after, doc, hrun, htree, hset, hkept⟩, after', doc', hrun', htree', ?_⟩
  intro p hp
  have htold : ∀ p ∈ BOOT, view tdxBase ⟨p, .text⟩ ≠ none := by decide
  exact hgone rfl p hp (.inr (htold p hp))

/-- Pins, arguments and disks stay those of the template, with those of the guest behind them. -/
theorem prepared_elements (h : Ready site vminst root distro freq) : Unsaved saving site vminst ∨
    ∃ after doc, prepareDomainXml saving site vminst {} = (.ok (), doc) ∧ doc.tree = some after ∧
      ∀ g : Grown, g.observed after = g.observed root ++ added vminst freq g := by
  refine h.prepared.imp_right ?_
  rintro ⟨after, doc, hrun, hprepared⟩
  exact ⟨after, doc, hrun, hprepared.tree, hprepared.grown⟩

theorem prepared_elements_tdx :
    ∃ after doc, prepareDomainXml allSaved tdxSite tdxGuest {} = (.ok (), doc) ∧ doc.tree = some after ∧
      ∀ g : Grown, g.observed after = g.observed tdxBase ++ added tdxGuest 2000000 g :=
  (prepared_elements tdxGuest_ready).resolve_left not_unsaved

/-- The domain, the file and the log that the operator clears away are those of the document. -/
theorem prepared_identity (h : Ready site vminst root distro freq) {c : Creation}
    (hc : Prepares saving site vminst root c) : Unsaved saving site vminst ∨
    ∃ after doc, prepareDomainXml saving site vminst {} = (.ok (), doc) ∧ doc.tree = some after ∧
      view after (Slot.text .uuid).key = some c.vmm.vmid ∧ doc.filepath = some c.vmm.filepath ∧
      view after Slot.logfile.key = some c.vmm.logfile ∧ doc.logfile = some c.vmm.logfile := by
  obtain ⟨hname, hvmid, htemplate, hdir, hsaved⟩ := hc
  refine h.prepared.imp_right ?_
  rintro ⟨after, doc, hrun, htree, hpath, hlog, hview, -, -⟩
  have hset (k : Key) (v : Option Str) (hmem : (k, v) ∈ settings vminst distro) : view after k = v :=
    (hview k (tracked_settings vminst distro _ hmem)).trans
      (overwritten_of_mem (nodup_settings vminst distro) hmem (view root))
  have hfile : preparedPath saving site vminst root = c.filepath := by
    rw [preparedPath, Creation.filepath, Creation.newxmlPath, hname, hdir, htemplate]
    by_cases hs : saving root (newxmlPath site vminst) = .saved
    · rw [if_pos (hsaved.mpr hs), hs]
      rfl
    · rw [if_neg fun hwrote => hs (hsaved.mp hwrote)]
      cases hcase : saving root (newxmlPath site vminst) with
      | saved => exact absurd hcase hs
      | ioError => rfl
      | raised e => rfl
  have huuid := hset (Slot.text .uuid).key (some vminst.vmid) (by simp [settings, specSettings])
  have hlogfile : view after Slot.logfile.key = some c.logfile := by
    rw [Creation.logfile, hname]
    exact hset Slot.logfile.key _ (by simp [settings, specSettings])
  exact ⟨after, doc, hrun, htree, huuid.trans (congrArg some hvmid.symm),
    hpath.trans (congrArg some hfile), hlogfile, hlog.trans hlogfile⟩

theorem prepared_identity_tdx :
    ∃ after doc, prepareDomainXml allSaved tdxSite tdxGuest {} = (.ok (), doc) ∧ doc.tree = some after ∧
      view after (Slot.text .uuid).key = some tdxCreation.vmm.vmid ∧
      doc.filepath = some tdxCreation.vmm.filepath ∧
      view after Slot.logfile.key = some tdxCreation.vmm.logfile ∧
      doc.logfile = some tdxCreation.vmm.logfile :=
  (prepared_identity tdxGuest_ready tdxCreation_prepared).resolve_left not_unsaved

end Results

end TdxTools.CloudStack.PreparedDomain
