import TdxTools.CloudStack.DomainSlots

namespace TdxTools.CloudStack.DocumentSaving

open Python.Text Python.Dictionary Python.Exec Python.ElementTree Python
open DomainXml DomainPreparation DomainDocument DomainSlots

/-- The same, but that what would raise is an `IOError` that the saving catches. -/
def quiet (saving : Element → Str → Saving) (e : Element) (path : Str) : Saving :=
  match saving e path with
  | .raised _ => .ioError
  | s => s

theorem neverRaises_quiet (saving : Element → Str → Saving) : NeverRaises (quiet saving) := by
  intro e path x h
  rw [quiet] at h
  cases hs : saving e path <;> rw [hs] at h <;> cases h

/-- The error is that of saving the tree that the object is left with. -/
def Unsavable (saving : Element → Str → Saving) (e : Exn) (self : VirtXml) : Prop :=
  ∃ root path, self.tree = some root ∧ saving root path = .raised e

section Setters

variable (saving : Element → Str → Saving)

/-- The statements do the same with either saving, unless they stop at a tree that
cannot be saved. -/
def Alike {α : Type} (act : (Element → Str → Saving) → Py VirtXml α) : Prop :=
  Py.Follows (Unsavable saving) (act saving) (act (quiet saving))

def AlikeOn {α : Type} (act : (Element → Str → Saving) → Py DomainDocument α) : Prop :=
  Py.Follows (fun e self => Unsavable saving e self.toVirtXml) (act saving) (act (quiet saving))

variable {saving}

theorem Alike.onXml {α : Type} {act : (Element → Str → Saving) → Py VirtXml α} (h : Alike saving act) :
    AlikeOn saving fun saving => onXml (act saving) :=
  Py.Follows.within (fun _ _ _ hunsaved => hunsaved) h

theorem alike_save (filepath : Option Str) : Alike saving fun saving => VirtXml.save saving filepath := by
  intro self
  cases htree : self.tree with
  | none =>
    have hroot : VirtXml.root self = (.raised .attributeError, self) := by
      rw [VirtXml.root, htree, Outcome.ofOption_none]
    exact .inl ((Py.bind_raised hroot).trans (Py.bind_raised hroot).symm)
  | some root =>
    have hroot : VirtXml.root self = (.ok root, self) := by
      rw [VirtXml.root, htree, Outcome.ofOption_some]
    dsimp only
    rw [VirtXml.save, VirtXml.save, Py.bind_ok hroot, Py.bind_ok hroot, Py.get_bind_apply,
      Py.get_bind_apply]
    cases filepath.or self.filepath with
    | none => exact .inl rfl
    | some path =>
      dsimp only
      rw [quiet]
      cases hs : saving root path with
      | saved => exact .inl rfl
      | ioError => exact .inl rfl
      | raised e => exact .inr ⟨e, self, rfl, root, path, htree, hs⟩

theorem alike_saved : Alike saving fun saving => (do
    let _ ← VirtXml.save saving none
    pure () : Py VirtXml Unit) :=
  (alike_save none).bind fun _ => .refl _

theorem alikeOn_saved : AlikeOn saving fun saving => (do
    let _ ← DomainDocument.save saving none
    pure () : Py DomainDocument Unit) :=
  (alike_save none).onXml.bind fun _ => .refl _

theorem alike_setText (p : Property) (v : Str) : Alike saving fun saving => VirtXml.setText saving p v := by
  refine .then .get fun self => ?_
  split
  · exact .refl _
  · refine .then _ fun b => ?_
    split
    · exact .then _ fun _ => alike_saved
    · exact alike_saved

theorem alike_setOptional (p : Property) (v : Option Str) :
    Alike saving fun saving => VirtXml.setOptional saving p v := by
  refine .then .get fun self => ?_
  split
  · exact .refl _
  · cases v with
    | none => exact .then _ fun _ => .then _ fun _ => alike_saved
    | some v =>
      refine .then _ fun b => ?_
      split
      · exact .then _ fun _ => alike_saved
      · exact alike_saved

theorem alike_setVcpu (v : VcpuNumber) : Alike saving fun saving => VirtXml.setVcpu saving v := by
  refine .then .get fun self => ?_
  split
  · exact .refl _
  · refine .then _ fun b => ?_
    split
    · exact .then _ fun _ => alike_saved
    · exact .refl _

theorem alike_bindCpuids (cpuIds : List Nat) :
    Alike saving fun saving => VirtXml.bindCpuids saving cpuIds := by
  match cpuIds with
  | [] => exact .refl _
  | [_] => exact .refl _
  | first :: second :: rest => exact .then _ fun _ => .then _ fun _ => alike_saved

theorem alikeOn_setTopology (t : Topology) (v : VcpuNumber) :
    AlikeOn saving fun saving => setTopology saving t v := by
  refine .then .get fun self => ?_
  split
  · exact .refl _
  · refine .then _ fun b => ?_
    split
    · exact .then _ fun _ => alikeOn_saved
    · exact .refl _

theorem alikeOn_setPlace (place : Place) (v : Option Str) :
    AlikeOn saving fun saving => setPlace saving place v := by
  refine .then .get fun self => ?_
  split
  · exact .refl _
  · refine .then _ fun element => ?_
    split
    · cases v with
      | none => exact .refl _
      | some v => exact .then _ fun _ => .then _ fun _ => alikeOn_saved
    · exact .refl _

theorem alikeOn_setQemuExec (v : Str) : AlikeOn saving fun saving => setQemuExec saving v := by
  refine .then .get fun self => ?_
  split
  · exact .refl _
  · refine .then _ fun b => ?_
    split
    · exact .then _ fun _ => alikeOn_saved
    · exact alikeOn_saved

theorem alikeOn_setHugepageParams (v : Str) : AlikeOn saving fun saving => setHugepageParams saving v := by
  unfold AlikeOn setHugepageParams
  split
  · exact .refl _
  · exact .then _ fun _ => alikeOn_saved

theorem alikeOn_setDriver (v : Str) : AlikeOn saving fun saving => setDriver saving v := by
  refine .then _ fun root => .then _ fun interface => ?_
  split
  · exact .refl _
  · exact .then _ fun _ => alikeOn_saved

theorem alikeOn_setEpcParams (epcParam : List EpcSection) :
    AlikeOn saving fun saving => setEpcParams saving epcParam :=
  .then _ fun _ => .then _ fun _ => .then _ fun _ => alikeOn_saved

end Setters

section Preparing

variable {saving : Element → Str → Saving} (site : Site) (vminst : Vminst)

/-- A statement that is only made under a condition, before others. -/
theorem alikeOn_if (c : Prop) [Decidable c] {act rest : (Element → Str → Saving) → Py DomainDocument Unit}
    (h : AlikeOn saving act) (hrest : AlikeOn saving rest) :
    AlikeOn saving fun saving => if c then act saving >>= fun _ => rest saving else rest saving := by
  unfold AlikeOn
  dsimp only
  split
  · exact h.bind fun _ => hrest
  · exact hrest

theorem alikeOn_given (text : Option Str) {act : (Element → Str → Saving) → Str → Py DomainDocument Unit}
    (h : ∀ v, AlikeOn saving fun saving => act saving v) :
    AlikeOn saving fun saving => given text (act saving) := by
  cases text with
  | none => exact .refl _
  | some v =>
    unfold AlikeOn
    dsimp only [given]
    split
    · exact .refl _
    · exact h v

theorem alikeOn_clone (templateName newName : Str) :
    AlikeOn saving fun saving => DomainPreparation.clone saving site templateName newName := by
  unfold AlikeOn DomainPreparation.clone
  dsimp only
  split
  · exact .refl _
  · exact .then _ fun _ => (alike_save _).onXml.bind fun _ => (alike_setText .name newName).onXml.bind
      fun _ => .refl _

theorem alikeOn_setSpec : AlikeOn saving fun saving => setSpec saving vminst :=
  (alike_setText .memory _).onXml.bind fun _ => (alike_setText .uuid _).onXml.bind fun _ =>
    (alikeOn_setPlace IMAGEFILE _).bind fun _ => (alikeOn_setPlace IOMODE _).bind fun _ =>
    (alikeOn_setPlace CACHE _).bind fun _ => (alikeOn_setPlace LOGFILE _).bind fun _ =>
    (alike_setVcpu _).onXml.bind fun _ => (alikeOn_setTopology .sockets _).bind fun _ =>
    (alikeOn_setTopology .cores _).bind fun _ => alikeOn_setTopology .threads _

theorem alikeOn_setMemNuma (memnuma : Bool) : AlikeOn saving fun saving => setMemNuma saving memnuma :=
  .then _ fun _ => .then _ fun _ => .then _ fun _ => alikeOn_saved

theorem alikeOn_setVsock (cid : Int) : AlikeOn saving fun saving => setVsock saving cid :=
  .then _ fun _ => .then _ fun _ => alikeOn_saved

theorem alikeOn_setOptions : AlikeOn saving fun saving => setOptions saving vminst := by
  have hvsock : AlikeOn saving fun saving =>
      if vminst.vsock then setVsock saving vminst.vsockCid else pure () := by
    unfold AlikeOn
    dsimp only
    split
    · exact alikeOn_setVsock vminst.vsockCid
    · exact .refl _
  have hdriven : AlikeOn saving fun saving => (do
      given vminst.driver (setDriver saving)
      if vminst.vsock then setVsock saving vminst.vsockCid else pure ()) :=
    (alikeOn_given vminst.driver alikeOn_setDriver).bind fun _ => hvsock
  have hsize : AlikeOn saving fun saving => setHugepageParams saving vminst.hugepageSize :=
    alikeOn_setHugepageParams vminst.hugepageSize
  have hbound : AlikeOn saving fun saving => bindCpuids saving vminst.cpuIds :=
    (alike_bindCpuids vminst.cpuIds).onXml
  have hhugepages := alikeOn_if (vminst.hugepages = true) hsize hdriven
  have hpins {rest : (Element → Str → Saving) → Py DomainDocument Unit} (hrest : AlikeOn saving rest) :=
    alikeOn_if (vminst.cpuIds ≠ []) hbound hrest
  unfold setOptions
  cases vminst.memNuma with
  | none => exact hpins hhugepages
  | some memnuma => exact hpins ((alikeOn_setMemNuma memnuma).bind fun _ => hhugepages)

theorem alikeOn_setCpuParams (v : Str) : AlikeOn saving fun saving => setCpuParams saving v :=
  .then _ fun _ => .then _ fun _ => alikeOn_saved

theorem alikeOn_setCpuParamsXml : AlikeOn saving fun saving => setCpuParamsXml saving site vminst := by
  have hloader (v : Str) : AlikeOn saving fun saving => onXml (VirtXml.setLoader saving v) :=
    (alike_setText .loader v).onXml
  refine .then _ fun distro => (alikeOn_setQemuExec _).bind fun _ => ?_
  split
  · exact (hloader _).bind fun _ => alikeOn_setCpuParams _
  split
  · exact (hloader _).bind fun _ => alikeOn_setCpuParams _
  split
  · exact (hloader _).bind fun _ => (alikeOn_setCpuParams _).bind fun _ => .then _ fun epc =>
      alikeOn_setEpcParams epc
  split
  · refine (hloader _).bind fun _ => ?_
    have hcpu : AlikeOn saving fun saving => (do
        let freq ← .lift site.cpuBaseFreq
        setCpuParams saving (paramCpu vminst freq)) :=
      .then _ fun freq => alikeOn_setCpuParams _
    cases vminst.hugepagePath with
    | none => exact hcpu
    | some path =>
      have hpath : AlikeOn saving fun saving => setHugepagePath saving path :=
        .then _ fun _ => .then _ fun _ => alikeOn_saved
      exact hpath.bind fun _ => hcpu
  · exact .refl _

theorem alikeOn_setVtpmXml : AlikeOn saving fun saving => setVtpmXml saving vminst := by
  unfold AlikeOn setVtpmXml
  dsimp only
  split
  · exact .then _ fun _ => .then _ fun _ => .then _ fun _ => .then _ fun _ => alikeOn_saved
  · exact .refl _

theorem alikeOn_setBoot : AlikeOn saving fun saving => setBoot saving vminst := by
  unfold AlikeOn setBoot
  dsimp only
  split
  · exact (alike_setOptional .kernel _).onXml.bind fun _ => (alike_setOptional .cmdline _).onXml
  · exact (alike_setOptional .kernel _).onXml.bind fun _ => (alike_setOptional .cmdline _).onXml

/-- The preparation goes as with the quiet saving, unless it stops at a tree that
cannot be saved. -/
theorem alikeOn_prepareDomainXml : AlikeOn saving fun saving => prepareDomainXml saving site vminst := by
  refine .then _ fun template => (alikeOn_clone site template vminst.name).bind fun cloned => ?_
  split
  · have hdisk (path : Str) : AlikeOn saving fun saving => setDisk saving path :=
      .then .get fun self => .then _ fun _ => alikeOn_saved
    refine (alikeOn_setSpec vminst).bind fun _ => (alikeOn_setOptions vminst).bind fun _ =>
      (alikeOn_given vminst.diskfilePath hdisk).bind fun _ =>
        (alikeOn_setCpuParamsXml site vminst).bind fun _ => ?_
    cases vminst.mwait with
    | none => exact alikeOn_if (vminst.hasVtpm = true) (alikeOn_setVtpmXml vminst) (alikeOn_setBoot vminst)
    | some mwait =>
      have hset : AlikeOn saving fun saving => setOvercommitParams saving ("cpu-pm=".toList ++ mwait) :=
        .then _ fun _ => .then _ fun _ => alikeOn_saved
      have hlast : AlikeOn saving fun saving => (do
          setOvercommitParams saving ("cpu-pm=".toList ++ mwait)
          setBoot saving vminst) := hset.bind fun _ => alikeOn_setBoot vminst
      exact alikeOn_if (vminst.hasVtpm = true) (alikeOn_setVtpmXml vminst) hlast
  · exact .refl _

end Preparing

end TdxTools.CloudStack.DocumentSaving
