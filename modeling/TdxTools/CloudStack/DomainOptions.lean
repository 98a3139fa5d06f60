import Mathlib.Data.List.Infix
import TdxTools.CloudStack.DomainSlots

namespace TdxTools.CloudStack.DomainOptions

open Python.Text Python.Decimal Python.Dictionary Python.Exec Python.ElementTree Python.TreePaths
open DomainXml DocumentView CpuPinning DomainPreparation DomainDocument DomainSlots

section Adding

variable {saving : Element → Str → Saving} {sh sh' : Shape} {root after : Element}
  {doc : DomainDocument} {path above : List Str} {leaf : Str}

/-- Nothing at the path is copied, deleted or appended to. -/
def Free (path : List Str) : Prop :=
  Clear path ∧ (∀ p ∈ BOOT, ¬ p <+: path) ∧ (∀ slot ∈ Slot.all, slot.key.path ≠ path) ∧
    path ≠ INTERFACE

instance (path : List Str) : Decidable (Free path) := inferInstanceAs (Decidable (_ ∧ _))

theorem settings_attribs (path : List Str) (attribs : Dict Str Str) :
    Settings path (attribSettings path attribs) := by
  intro setting hsetting
  obtain ⟨item, -, rfl⟩ := List.mem_map.mp hsetting
  rfl

/-- An edit at a path that nothing else is about keeps what is relied on. -/
theorem Fit.free {settings : List (Key × Option Str)} (h : Fit sh root doc)
    (hc : Confined path root after) (hview : view after = overwritten settings (view root))
    (hsettings : Settings path settings) (hfree : Free path) (hdriver : sh.undriven → ¬ DRIVER <+: path) :
    Fit sh after { doc with tree := some after } := by
  obtain ⟨-, hboot, hslots, hbridge⟩ := hfree
  refine h.edit hc hview hsettings ?_ (fun p hp hpath => absurd hpath (hboot p hp)) ?_ rfl rfl
    (fun slot => ?_) id
  · intro setting hsetting p hp hpath
    rw [hsettings setting hsetting] at hpath
    exact absurd hpath (hboot p hp)
  · refine fun hu => ⟨hdriver hu, fun setting hsetting he => hbridge ?_⟩
    rw [← hsettings setting hsetting, he]
    rfl
  · have hother : ∀ setting ∈ settings, setting.1 ≠ slot.key := by
      intro setting hsetting he
      exact hslots slot (Slot.mem_all slot) (by rw [← he, hsettings setting hsetting])
    rw [hview, overwritten_of_ne hother, Slot.copy_withTree]
    exact h.copies slot

theorem writes_of_free {α : Type} {act : Py DomainDocument α} {settings : List (Key × Option Str)}
    (hsettings : Settings path settings) (hfree : Free path)
    (hdriver : sh.undriven → ¬ DRIVER <+: path)
    (hrun : ∀ root doc, Fit sh root doc → ∃ a after, act doc = (.ok a, { doc with tree := some after }) ∧
      Confined path root after ∧ view after = overwritten settings (view root)) :
    Writes sh sh act settings nothing := by
  intro root doc h
  obtain ⟨a, after, hact, hc, hview⟩ := hrun root doc h
  refine ⟨a, after, _, hact, Fit.free h hc hview hsettings hfree hdriver, fun k _ => by rw [hview],
    fun g => ?_⟩
  rw [observed_eq hc hfree.1]
  exact (List.append_nil _).symm

/-- What is there afterwards as well: the new leaf, and all on the way to it. -/
def Shape.adding (path : List Str) (sh : Shape) : Shape := { sh with there := path.inits ++ sh.there }

theorem Shape.adding_covers (sh : Shape) : (Shape.adding path sh).Covers sh :=
  ⟨List.Subset.refl _, List.subset_append_right _ _, id, id, rfl, rfl⟩

theorem Shape.mem_adding {p : List Str} (h : p <+: path) : p ∈ (Shape.adding path sh).there :=
  List.mem_append_left _ ((List.mem_inits p path).mpr h)

theorem isSome_of_prefix {p q : List Str} (h : p <+: q) (hq : (firstAt q root).isSome) :
    (firstAt p root).isSome := by
  obtain ⟨rest, rfl⟩ := h
  rw [firstAt_append] at hq
  cases hp : firstAt p root with
  | none =>
    rw [hp] at hq
    exact hq
  | some e => rfl

theorem Fit.adding (h : Fit sh root doc) (hpath : (firstAt path root).isSome) :
    Fit (Shape.adding path sh) root doc where
  tree := h.tree
  filepath := h.filepath
  slim := h.slim
  there p hp := by
    rcases List.mem_append.mp hp with hp | hp
    · exact isSome_of_prefix ((List.mem_inits p path).mp hp) hpath
    · exact h.there p hp
  undriven := h.undriven
  copies := h.copies
  logged := h.logged
  plain := h.plain
  told := h.told

theorem addNewElement_run (h : Fit sh root doc) (above : List Str) (leaf : Str) (attribs : Dict Str Str)
    (multi : Bool) : onXml (VirtXml.addNewElement (above ++ [leaf]) attribs multi) doc =
      (.ok (), { doc with tree := some (addLeaf leaf attribs multi above root) }) := by
  refine Py.within_ok ?_
  rw [VirtXml.addNewElement, List.getLast?_concat, List.dropLast_concat]
  exact VirtXml.onTree_run h.tree _

theorem writes_add (sh : Shape) (above : List Str) (leaf : Str) (attribs : Dict Str Str)
    (hfree : Free (above ++ [leaf])) (hdriver : sh.undriven → ¬ DRIVER <+: above ++ [leaf]) :
    Writes sh (Shape.adding (above ++ [leaf]) sh)
      (onXml (VirtXml.addNewElement (above ++ [leaf]) attribs false))
      (attribSettings (above ++ [leaf]) attribs) nothing := by
  intro root doc h
  have hview := view_addLeaf above leaf attribs root
  have hfit := Fit.free h confined_addLeaf hview (settings_attribs _ attribs) hfree hdriver
  refine ⟨(), _, _, addNewElement_run h above leaf attribs false, Fit.adding hfit isSome_addLeaf_self,
    fun k _ => by rw [hview], fun g => ?_⟩
  rw [observed_eq confined_addLeaf hfree.1]
  exact (List.append_nil _).symm

theorem found (h : Fit sh root doc) (hpath : path ≠ []) (hslim : path ∈ sh.slim) (hthere : path ∈ sh.there) :
    ∃ e, findSingle path root = some e ∧ ∀ f, inSingle path f root = atFirst path f root := by
  have hslim' := h.slim _ hslim
  obtain ⟨e, he⟩ := Option.isSome_iff_exists.mp (h.there _ hthere)
  exact ⟨e, (findSingle_eq hpath hslim').trans he, fun f => inSingle_eq_atFirst hslim'⟩

theorem writes_attrib (attrib value : Str) (hpath : path ≠ []) (hslim : path ∈ sh.slim)
    (hthere : path ∈ sh.there) (hfree : Free path) (hdriver : sh.undriven → ¬ DRIVER <+: path) :
    Writes sh sh (setSingleElementAttrib path attrib value)
      [(⟨path, .attrib attrib⟩, some value)] nothing := by
  have hsettings : Settings path [((⟨path, .attrib attrib⟩ : Key), some value)] :=
    settings_single ⟨path, .attrib attrib⟩ (some value)
  refine writes_of_free hsettings hfree hdriver fun root doc h => ?_
  obtain ⟨e, he, hin⟩ := found h hpath hslim hthere
  have hfind : onXml (VirtXml.findSingleElement path) doc = (.ok (some e), doc) := by
    refine Py.within_ok ?_
    rw [DomainSettings.findSingleElement_run h.tree, he]
  have hset : onXml (VirtXml.onTree (inSingle path (·.update [(attrib, value)]))) doc =
      (.ok (), { doc with tree := some (Key.write ⟨path, .attrib attrib⟩ value root) }) := by
    have hwrite : inSingle path (·.update [(attrib, value)]) root =
        Key.write ⟨path, .attrib attrib⟩ value root := hin _
    rw [← hwrite]
    exact Py.within_ok (VirtXml.onTree_run h.tree _)
  refine ⟨true, Key.write ⟨path, .attrib attrib⟩ value root, ?_, confined_write ⟨path, .attrib attrib⟩ value,
    Key.view_write value (h.there _ hthere)⟩
  rw [setSingleElementAttrib, Py.bind_ok hfind]
  exact Py.bind_ok hset

theorem writes_value (value : Str) (hpath : path ≠ []) (hslim : path ∈ sh.slim)
    (hthere : path ∈ sh.there) (hfree : Free path) (hdriver : sh.undriven → ¬ DRIVER <+: path) :
    Writes sh sh (onXml (VirtXml.setSingleElementValue path (some value)))
      [(⟨path, .text⟩, some value)] nothing := by
  have hsettings : Settings path [((⟨path, .text⟩ : Key), some value)] :=
    settings_single ⟨path, .text⟩ (some value)
  refine writes_of_free hsettings hfree hdriver fun root doc h => ?_
  obtain ⟨e, he, hin⟩ := found h hpath hslim hthere
  refine ⟨true, Key.write ⟨path, .text⟩ value root, ?_, confined_write ⟨path, .text⟩ value,
    Key.view_write value (h.there _ hthere)⟩
  have hset := DomainSettings.setSingle_found h.tree he (some value)
  rw [hin] at hset
  exact Py.within_ok hset

theorem writes_saved (hsaving : NeverRaises saving) : Writes sh sh
    (do let _ ← DomainDocument.save saving none; pure () : Py DomainDocument Unit) [] nothing :=
  fun root doc h => ⟨(), root, doc, saved hsaving h.tree h.filepath, h, fun _ _ => rfl,
    fun _ => (List.append_nil _).symm⟩

/-- A setter ends with saving. -/
theorem thenSave {α : Type} {act : Py DomainDocument α} {settings : List (Key × Option Str)}
    {added : Grown → List Element} (h : Writes sh sh' act settings added) (hsaving : NeverRaises saving) :
    Writes sh sh' (act >>= fun _ => (do let _ ← DomainDocument.save saving none; pure ()))
      settings added := by
  have hsaved := h.bind fun _ => writes_saved hsaving
  simp only [List.append_nil, nothing] at hsaved
  exact hsaved

theorem writes_setHugepageParams (hsaving : NeverRaises saving) {hugepageSize : Str}
    (hsize : hugepageSize ∈ HUGEPAGE_VALUES) : Writes sh sh (setHugepageParams saving hugepageSize)
      (attribSettings ["memoryBacking".toList, "hugepages".toList, "page".toList]
        [("unit".toList, hugepageSize.drop 1), ("size".toList, hugepageSize.take 1)]) nothing := by
  have hadd := writes_add sh ["memoryBacking".toList, "hugepages".toList] "page".toList
    [("unit".toList, hugepageSize.drop 1), ("size".toList, hugepageSize.take 1)] (by decide)
    fun _ => by decide
  rw [setHugepageParams, if_neg (not_not_intro hsize)]
  exact (thenSave hadd hsaving).after (Shape.adding_covers sh)

theorem writes_setMemNuma (hsaving : NeverRaises saving) (memnuma : Bool) :
    Writes sh sh (setMemNuma saving memnuma)
      [(⟨["numatune".toList, "memory".toList], .attrib "mode".toList⟩, some "strict".toList),
        (⟨["numatune".toList, "memory".toList], .attrib "nodeset".toList⟩,
          some (if memnuma then "0".toList else "1".toList))] nothing := by
  have hfree : Free ["numatune".toList, "memory".toList] := by decide
  have hadd := writes_add sh ["numatune".toList] "memory".toList [] hfree fun _ => by decide
  have hset (attrib value : Str) :
      Writes (Shape.adding ["numatune".toList, "memory".toList] sh)
        (Shape.adding ["numatune".toList, "memory".toList] sh)
        (setSingleElementAttrib ["numatune".toList, "memory".toList] attrib value)
        [(⟨["numatune".toList, "memory".toList], .attrib attrib⟩, some value)] nothing :=
    writes_attrib attrib value (by decide) (Shape.mem_slim (by decide))
      (Shape.mem_adding List.prefix_rfl) hfree fun _ => by decide
  exact (hadd.then fun _ => (hset "mode".toList "strict".toList).then fun _ =>
    thenSave (hset "nodeset".toList (if memnuma then "0".toList else "1".toList)) hsaving).after
      (Shape.adding_covers sh)

theorem writes_setVsock (hsaving : NeverRaises saving) (cid : Int) :
    Writes sh sh (setVsock saving cid)
      [(⟨["devices".toList, "vsock".toList, "cid".toList], .attrib "auto".toList⟩, some "no".toList),
        (⟨["devices".toList, "vsock".toList, "cid".toList], .attrib "address".toList⟩,
          some (decimalInt cid)),
        (⟨["devices".toList, "vsock".toList], .attrib "model".toList⟩, some "virtio".toList)] nothing := by
  have hadd := writes_add sh ["devices".toList, "vsock".toList] "cid".toList
    [("auto".toList, "no".toList), ("address".toList, decimalInt cid)] (by decide) fun _ => by decide
  have hset : Writes (Shape.adding ["devices".toList, "vsock".toList, "cid".toList] sh)
      (Shape.adding ["devices".toList, "vsock".toList, "cid".toList] sh)
      (setSingleElementAttrib ["devices".toList, "vsock".toList] "model".toList "virtio".toList)
      [(⟨["devices".toList, "vsock".toList], .attrib "model".toList⟩, some "virtio".toList)] nothing :=
    writes_attrib _ _ (by decide) (Shape.mem_slim (by decide)) (Shape.mem_adding (by decide)) (by decide)
      fun _ => by decide
  exact (hadd.then fun _ => thenSave hset hsaving).after (Shape.adding_covers sh)

/-- An element that is added unless it is there, and given a text, before other statements. -/
theorem writes_text_added (above : List Str) (leaf : Str) (hfree : Free (above ++ [leaf]))
    (hslim : above ++ [leaf] ∈ SINGLES) (hdriver : ¬ DRIVER <+: above ++ [leaf]) (value : Str)
    {f : Bool → Py DomainDocument Unit} {settings : List (Key × Option Str)}
    (hf : ∀ b, Writes sh sh (f b) settings nothing) :
    Writes sh sh (do
      onXml (VirtXml.addNewElement (above ++ [leaf]) [] false)
      let b ← onXml (VirtXml.setSingleElementValue (above ++ [leaf]) (some value))
      f b) ((⟨above ++ [leaf], .text⟩, some value) :: settings) nothing := by
  have hadd := writes_add sh above leaf [] hfree fun _ => hdriver
  have hset : Writes (Shape.adding (above ++ [leaf]) sh) (Shape.adding (above ++ [leaf]) sh)
      (onXml (VirtXml.setSingleElementValue (above ++ [leaf]) (some value)))
      [(⟨above ++ [leaf], .text⟩, some value)] nothing :=
    writes_value value (by simp) (Shape.mem_slim hslim) (Shape.mem_adding List.prefix_rfl) hfree
      fun _ => hdriver
  exact hadd.then fun _ => hset.then fun b => (hf b).before (Shape.adding_covers sh)

theorem writes_setHugepagePath (hsaving : NeverRaises saving) (hugepagePath : Str) :
    Writes sh sh (setHugepagePath saving hugepagePath)
      [(⟨["memoryBacking".toList, "path".toList], .text⟩, some hugepagePath)] nothing :=
  writes_text_added ["memoryBacking".toList] "path".toList (by decide) (by decide) (by decide)
    hugepagePath fun _ => writes_saved hsaving

theorem writes_setVtpmParam (hsaving : NeverRaises saving) (vtpmPath vtpmLog : Option Str) :
    Writes sh sh (setVtpmParam saving vtpmPath vtpmLog)
      [(⟨["launchSecurity".toList, "vtpm".toList, "loader".toList], .text⟩, some (format vtpmPath)),
        (⟨["launchSecurity".toList, "vtpm".toList, "log".toList], .text⟩, some (format vtpmLog))]
      nothing :=
  writes_text_added ["launchSecurity".toList, "vtpm".toList] "loader".toList (by decide) (by decide)
    (by decide) (format vtpmPath) fun _ =>
      writes_text_added ["launchSecurity".toList, "vtpm".toList] "log".toList (by decide) (by decide)
        (by decide) (format vtpmLog) fun _ => writes_saved hsaving

end Adding

section Appending

variable {saving : Element → Str → Saving} {sh : Shape} {root : Element} {doc : DomainDocument}

/-- Only this is appended. -/
def only (g : Grown) (elements : List Element) : Grown → List Element :=
  fun other => if other = g then elements else []

theorem only_append (g : Grown) (first second : List Element) :
    (fun other => only g first other ++ only g second other) = only g (first ++ second) := by
  funext other
  rw [only, only, only]
  split <;> rfl

theorem only_nil (g : Grown) : only g [] = nothing := by
  funext other
  exact ite_self []

theorem beside_grown {g other : Grown} (h : other ≠ g) :
    ¬ other.above ++ [other.leaf] <+: g.above ++ [g.leaf] ∧
      ¬ g.above ++ [g.leaf] <+: other.above := by
  cases g <;> cases other <;> first | exact absurd rfl h | decide

theorem observed_addBelow (g : Grown) {new : Element} (htag : new.tag = g.leaf)
    (hthere : g = .disk → leaves g.above g.leaf root ≠ []) (other : Grown) :
    other.observed (addBelow new g.above root) = other.observed root ++ only g [new] other := by
  rw [only]
  by_cases hother : other = g
  · subst hother
    have hself : leaves other.above other.leaf (addBelow new other.above root) =
        leaves other.above other.leaf root ++ [new] := by
      rw [← htag]
      exact leaves_addBelow_self
    rw [if_pos rfl]
    cases other with
    | disk =>
      refine (congrArg List.tail hself).trans ?_
      cases hleaves : leaves Grown.disk.above Grown.disk.leaf root with
      | nil => exact absurd hleaves (hthere rfl)
      | cons d rest => exact congrArg (List.tail · ++ [new]) hleaves.symm
    | _ => exact hself
  · obtain ⟨habove, hbelow⟩ := beside_grown hother
    rw [← htag] at habove hbelow
    have hsame : leaves other.above other.leaf (addBelow new g.above root) =
        leaves other.above other.leaf root := leaves_addBelow_other habove hbelow
    rw [if_neg hother, List.append_nil]
    cases other with
    | disk => exact congrArg List.tail hsame
    | _ => exact hsame

/-- What is relied on stays so when a pin or an argument is appended. -/
theorem Fit.appended (h : Fit sh root doc) {g : Grown} (hg : g ≠ .disk) {new : Element}
    (htag : new.tag = g.leaf) (hview : ∀ k, Tracked k → view (addBelow new g.above root) k = view root k) :
    Fit sh (addBelow new g.above root) { doc with tree := some (addBelow new g.above root) } where
  tree := rfl
  filepath := h.filepath
  slim p hp := by
    have hbeside : ∀ p ∈ IMAGE ++ SINGLES, ¬ g.above ++ [g.leaf] <+: p := by
      cases g <;> first | exact absurd rfl hg | decide
    refine slim_addBelow (h.slim p hp) fun hprefix => ?_
    rw [htag] at hprefix
    exact absurd hprefix (hbeside p (sh.slim_subset hp))
  there p hp := isSome_addBelow (h.there p hp)
  undriven hu := by
    have hbeside : ¬ DRIVER <+: g.above ∧ ¬ g.above ++ [g.leaf] <+: DRIVER := by
      cases g <;> first | exact absurd rfl hg | decide
    obtain ⟨hbridge, hnone⟩ := h.undriven hu
    rw [← htag] at hbeside
    rw [hview BRIDGE (by decide), firstAt_addBelow_beside hbeside.1 hbeside.2]
    exact ⟨hbridge, hnone⟩
  copies slot := by
    have htracked : ∀ slot ∈ Slot.all, Tracked slot.key := by decide
    rw [hview slot.key (htracked slot (Slot.mem_all slot)), Slot.copy_withTree]
    exact h.copies slot
  logged := h.logged
  plain := by
    have hbeside : BesideBoot [] := by decide
    have hsame : ∀ k, Tracked k →
        view (addBelow new g.above root) k = overwritten [] (view root) k := hview
    exact plain_of_overwritten h.plain hsame hbeside
  told p hp hmem := by
    have hbeside : ∀ p ∈ BOOT, Tracked ⟨p, .text⟩ ∧ ¬ p <+: g.above ∧ ¬ g.above ++ [g.leaf] <+: p := by
      cases g <;> first | exact absurd rfl hg | decide
    obtain ⟨htracked, habove, hbelow⟩ := hbeside p hp
    rw [← htag] at hbelow
    exact h.still_told hp hmem (firstAt_addBelow_beside habove hbelow).trans (hview _ htracked)

theorem view_appended {g : Grown} (hg : g ≠ .disk) {new : Element} (htag : new.tag = g.leaf)
    (hnew : new.children = []) (k : Key) (hk : Tracked k) :
    view (addBelow new g.above root) k = view root k := by
  rw [view_addBelow hnew, if_neg]
  rintro ⟨hpath, -⟩
  obtain ⟨hcputune, hcommandline⟩ := hk
  rw [hpath] at hcputune hcommandline
  cases g with
  | disk => exact hg rfl
  | iothreadpin | vcpupin => exact hcputune rfl
  | arg => exact hcommandline rfl

/-- A pin or an argument is appended by one statement. -/
theorem writes_appended {g : Grown} (hg : g ≠ .disk) (attribs : Dict Str Str) :
    Writes sh sh (onXml (VirtXml.addNewElement (g.above ++ [g.leaf]) attribs true)) []
      (only g [Element.update { tag := g.leaf } attribs]) := by
  intro root doc h
  have hrun := addNewElement_run h g.above g.leaf attribs true
  rw [addLeaf_multi] at hrun
  have hview : ∀ k, Tracked k →
      view (addBelow (Element.update { tag := g.leaf } attribs) g.above root) k = view root k :=
    view_appended hg rfl rfl
  exact ⟨(), _, _, hrun, Fit.appended h hg rfl hview, hview,
    observed_addBelow g rfl fun he => absurd he hg⟩

def argLeaf (value : Str) : Element := Element.update { tag := ARG } [("value".toList, value)]

theorem writes_addArg (value : Str) : Writes sh sh (addArg value) [] (only .arg [argLeaf value]) := by
  have harg : Grown.arg ≠ .disk := by decide
  exact writes_appended harg [("value".toList, value)]

/-- Two arguments, one after the other. -/
theorem writes_args {f : Unit → Py DomainDocument Unit} {first second : List Element} {sh' : Shape}
    {act : Py DomainDocument Unit} (h : Writes sh sh act [] (only .arg first))
    (hf : ∀ u, Writes sh sh' (f u) [] (only .arg second)) :
    Writes sh sh' (act >>= f) [] (only .arg (first ++ second)) := by
  have hboth := h.bind hf
  rw [only_append] at hboth
  exact hboth

theorem writes_setCpuParams (hsaving : NeverRaises saving) (cpuParam : Str) :
    Writes sh sh (setCpuParams saving cpuParam) []
      (only .arg [argLeaf "-cpu".toList, argLeaf cpuParam]) :=
  writes_args (writes_addArg "-cpu".toList) fun _ => thenSave (writes_addArg cpuParam) hsaving

theorem writes_setOvercommitParams (hsaving : NeverRaises saving) (overcommitParam : Str) :
    Writes sh sh (setOvercommitParams saving overcommitParam) []
      (only .arg [argLeaf "-overcommit".toList, argLeaf overcommitParam]) :=
  writes_args (writes_addArg "-overcommit".toList) fun _ =>
    thenSave (writes_addArg overcommitParam) hsaving

/-- The arguments of some sections, behind as many as the number. -/
def epcLeaves : Nat → List EpcSection → List Element
  | _, [] => []
  | num, epc :: rest =>
    argLeaf "-object".toList :: argLeaf (memoryBackend (num + 1) epc) :: epcLeaves (num + 1) rest

def epcText : Nat → List EpcSection → Str
  | _, [] => []
  | num, epc :: rest => sgxEpc (num + 1) epc ++ epcText (num + 1) rest

/-- The loop gives on the text of all sections. -/
theorem writes_epcArgs (epcParam : List EpcSection) (num : Nat) (written : Str)
    {f : Str → Py DomainDocument Unit} {more : List Element}
    (hf : Writes sh sh (f (written ++ epcText num epcParam)) [] (only .arg more)) :
    Writes sh sh (epcArgs num epcParam written >>= f) [] (only .arg (epcLeaves num epcParam ++ more)) := by
  induction epcParam generalizing num written with
  | nil =>
    rw [epcText, List.append_nil] at hf
    exact hf
  | cons epc rest ih =>
    rw [epcText, ← List.append_assoc] at hf
    have hbackend (u : Unit) : Writes sh sh ((do
        addArg (memoryBackend (num + 1) epc)
        epcArgs (num + 1) rest (written ++ sgxEpc (num + 1) epc)) >>= f) []
        (only .arg ([argLeaf (memoryBackend (num + 1) epc)] ++ (epcLeaves (num + 1) rest ++ more))) := by
      rw [Py.bind_assoc]
      exact writes_args (writes_addArg _) fun _ => ih (num + 1) _ hf
    rw [epcArgs, Py.bind_assoc]
    have hall := writes_args (writes_addArg "-object".toList) hbackend
    exact hall

theorem writes_setEpcParams (hsaving : NeverRaises saving) (epcParam : List EpcSection) :
    Writes sh sh (setEpcParams saving epcParam) [] (only .arg (epcLeaves 0 epcParam ++
      [argLeaf "-M".toList, argLeaf (epcText 0 epcParam).dropLast])) :=
  writes_epcArgs epcParam 0 [] (writes_args (writes_addArg "-M".toList) fun _ =>
    thenSave (writes_addArg _) hsaving)

theorem onXml_bind {α β : Type} (x : Py VirtXml α) (f : α → Py VirtXml β) :
    onXml (x >>= f) = onXml x >>= fun a => onXml (f a) := by
  funext doc
  rcases hx : x doc.toVirtXml with ⟨a | e | _, xml⟩
  · have hdoc : onXml x doc = (.ok a, withXml xml doc) := Py.within_ok hx
    have hrest : (x >>= f) doc.toVirtXml = f a xml := Py.bind_ok hx
    rw [Py.bind_ok hdoc, onXml, Py.within_apply, hrest]
    rfl
  · have hdoc : onXml x doc = (.raised e, withXml xml doc) := by rw [onXml, Py.within_apply, hx]
    rw [Py.bind_raised hdoc, onXml, Py.within_apply, Py.bind_raised hx]
  · have hdoc : onXml x doc = (.running, withXml xml doc) := by rw [onXml, Py.within_apply, hx]
    rw [Py.bind_running hdoc, onXml, Py.within_apply, Py.bind_running hx]

/-- The pins of the vCPUs from a number on. -/
def vcpuLeaves : Nat → List Nat → List Element
  | _, [] => []
  | vcpuId, cpuId :: rest => vcpuLeaf vcpuId cpuId :: vcpuLeaves (vcpuId + 1) rest

theorem writes_bindVcpus (sh : Shape) (cpuIds : List Nat) (vcpuId : Nat) :
    Writes sh sh (onXml (VirtXml.bindVcpus vcpuId cpuIds)) [] (only .vcpupin (vcpuLeaves vcpuId cpuIds)) := by
  induction cpuIds generalizing vcpuId with
  | nil =>
    rw [vcpuLeaves, only_nil]
    exact Writes.pure ()
  | cons cpuId rest ih =>
    have hpin : Grown.vcpupin ≠ .disk := by decide
    have hboth := (writes_appended hpin
      [("vcpu".toList, decimal vcpuId), ("cpuset".toList, decimal cpuId)]).bind fun _ => ih (vcpuId + 1)
    rw [only_append] at hboth
    rw [VirtXml.bindVcpus, onXml_bind]
    exact hboth

theorem writes_xml_saved (hsaving : NeverRaises saving) : Writes sh sh
    (onXml (do let _ ← VirtXml.save saving none; pure ())) [] nothing :=
  fun root doc h => ⟨(), root, doc, Py.within_ok (xml_saved hsaving h.tree h.filepath), h,
    fun _ _ => rfl, fun _ => (List.append_nil _).symm⟩

/-- What binding some CPUs appends: the first is for the I/O thread. -/
def pinLeaves : List Nat → Grown → List Element
  | [], _ => []
  | first :: rest, g => only .iothreadpin [iothreadLeaf first] g ++ only .vcpupin (vcpuLeaves 0 rest) g

theorem writes_bindCpuids (hsaving : NeverRaises saving) {cpuIds : List Nat} (h : 2 ≤ cpuIds.length) :
    Writes sh sh (bindCpuids saving cpuIds) [] (pinLeaves cpuIds) := by
  obtain ⟨first, second, rest, rfl⟩ : ∃ first second rest, cpuIds = first :: second :: rest := by
    cases cpuIds with
    | nil => simp at h
    | cons first tail =>
      cases tail with
      | nil => simp at h
      | cons second rest => exact ⟨first, second, rest, rfl⟩
  have hpin : Grown.iothreadpin ≠ .disk := by decide
  have hrest (u : Unit) : Writes sh sh (onXml (do
      VirtXml.bindVcpus 0 (second :: rest)
      let _ ← VirtXml.save saving none
      pure ())) [] (only .vcpupin (vcpuLeaves 0 (second :: rest))) := by
    have hsaved := (writes_bindVcpus sh (second :: rest) 0).bind fun _ => writes_xml_saved hsaving
    simp only [nothing, List.append_nil] at hsaved
    rw [onXml_bind]
    exact hsaved
  have hall := (writes_appended hpin
    [("iothread".toList, "1".toList), ("cpuset".toList, decimal first)]).bind hrest
  rw [bindCpuids, VirtXml.bindCpuids, onXml_bind]
  exact hall

theorem leaves_ne_nil {above : List Str} {leaf : Str} (h : (firstAt (above ++ [leaf]) root).isSome) :
    leaves above leaf root ≠ [] := by
  intro hnil
  rw [firstAt_concat, hnil] at h
  cases h

/-- The image stays the first disk, but is no longer the only one. -/
theorem Fit.withDisk (h : Fit sh root doc) (himage : IMAGEFILE.path ∈ sh.there) {disk : Element}
    (htag : disk.tag = "disk".toList) :
    Fit { sh with image := false } (addBelow disk ["devices".toList] root)
      { doc with tree := some (addBelow disk ["devices".toList] root) } := by
  have hdisk : (firstAt (["devices".toList] ++ [disk.tag]) root).isSome := by
    rw [htag]
    exact isSome_of_prefix (by decide) (h.there _ himage)
  have hview := view_addBelow_again hdisk
  have hbeside : ∀ p ∈ SINGLES, ¬ ["devices".toList] ++ ["disk".toList] <+: p := by decide
  have hdriver : ¬ DRIVER <+: ["devices".toList] ∧ ¬ ["devices".toList] ++ ["disk".toList] <+: DRIVER := by
    decide
  have hboot : ∀ p ∈ BOOT, ¬ p <+: ["devices".toList] ∧ ¬ ["devices".toList] ++ ["disk".toList] <+: p := by
    decide
  rw [← htag] at hbeside hdriver hboot
  exact
    { tree := rfl
      filepath := h.filepath
      slim := fun p hp => slim_addBelow (h.slim p (Shape.mem_slim hp)) fun hprefix =>
        absurd hprefix (hbeside p hp)
      there := fun p hp => isSome_addBelow (h.there p hp)
      undriven := fun hu => by
        obtain ⟨hbridge, hnone⟩ := h.undriven hu
        rw [hview, firstAt_addBelow_beside hdriver.1 hdriver.2]
        exact ⟨hbridge, hnone⟩
      copies := fun slot => by
        rw [hview, Slot.copy_withTree]
        exact h.copies slot
      logged := h.logged
      plain := fun p hp k hpath hne => by
        rw [hview]
        exact h.plain p hp k hpath hne
      told := fun p hp hmem => by
        obtain ⟨habove, hbelow⟩ := hboot p hp
        exact h.still_told hp hmem (firstAt_addBelow_beside habove hbelow).trans (hview _) }

/-- The data disk is a whole element, behind the image. -/
theorem setDisk_run (hsaving : NeverRaises saving) (h : Fit sh root doc) (himage : IMAGEFILE.path ∈ sh.there)
    (diskfilePath : Str) : ∃ after doc', setDisk saving diskfilePath doc = (.ok (), doc') ∧
      Fit { sh with image := false } after doc' ∧ (∀ k, view after k = view root k) ∧
      ∀ g : Grown, g.observed after =
        g.observed root ++ only .disk [dataDisk doc.io doc.cache diskfilePath] g := by
  have hdisk : (firstAt (["devices".toList] ++ ["disk".toList]) root).isSome :=
    isSome_of_prefix (by decide) (h.there _ himage)
  have hfit : Fit _ (addBelow (dataDisk doc.io doc.cache diskfilePath) ["devices".toList] root) _ :=
    Fit.withDisk h himage rfl
  refine ⟨_, _, ?_, hfit, view_addBelow_again hdisk,
    observed_addBelow .disk rfl fun _ => leaves_ne_nil hdisk⟩
  have htree : onXml (VirtXml.onTree (addBelow (dataDisk doc.io doc.cache diskfilePath) ["devices".toList]))
      doc = (.ok (), { doc with
        tree := some (addBelow (dataDisk doc.io doc.cache diskfilePath) ["devices".toList] root) }) :=
    Py.within_ok (VirtXml.onTree_run h.tree _)
  rw [setDisk, Py.get_bind_apply, Py.bind_ok htree]
  exact saved hsaving hfit.tree hfit.filepath

end Appending

section Driver

variable {saving : Element → Str → Saving} {sh : Shape} {root item : Element} {doc : DomainDocument}
  {path : List Str} {attrib value tag : Str} {f : Element → Element}

theorem changeValue_eq {children : List Element} (h : children.find? (·.tag = tag) = some item)
    (hvalue : get? item.attrib attrib = some value) :
    changeValue attrib value tag f children = Element.changeFirst tag f children := by
  induction children with
  | nil => rfl
  | cons child rest ih =>
    rw [changeValue, Element.changeFirst]
    by_cases htag : child.tag = tag
    · rw [List.find?_cons_of_pos (by simp [htag])] at h
      obtain rfl := Option.some.inj h
      rw [if_pos ⟨htag, hvalue⟩, if_pos htag]
    · rw [List.find?_cons_of_neg (by simp [htag])] at h
      rw [if_neg fun hboth => htag hboth.1, if_neg htag, ih h]

/-- Where the first element has the value, it is the one that is found by the value. -/
theorem byValue_first (hpath : path ≠ []) (h : firstAt path root = some item)
    (hvalue : get? item.attrib attrib = some value) :
    findSingleByValue attrib value path root = .ok (some item) ∧
      inSingleByValue attrib value f path root = atFirst path f root := by
  induction path generalizing root with
  | nil => exact absurd rfl hpath
  | cons tag tags ih =>
    obtain ⟨c, hc, hrest⟩ := Option.bind_eq_some_iff.mp h
    obtain ⟨more, hall⟩ : ∃ more, root.findall tag = c :: more := by
      rw [Element.find_eq_head] at hc
      exact List.head?_eq_some_iff.mp hc
    cases tags with
    | nil =>
      obtain rfl : c = item := Option.some.inj hrest
      constructor
      · rw [findSingleByValue, hall, List.find?_cons_of_pos (by simp [hvalue])]
      · rw [inSingleByValue, changeValue_eq hc hvalue]
        rfl
    | cons next rest =>
      obtain ⟨hfind, hin⟩ := ih (List.cons_ne_nil _ _) hrest
      constructor
      · rw [findSingleByValue, hall]
        · exact hfind
        · exact List.cons_ne_nil _ _
      · rw [inSingleByValue, atFirst]
        · exact inFirst_congr hc hin
        · exact List.cons_ne_nil _ _

theorem setDriver_run (hsaving : NeverRaises saving) (h : Fit sh root doc)
    (hitem : firstAt INTERFACE root = some item)
    (htype : get? item.attrib "type".toList = some "bridge".toList)
    (hnone : firstAt DRIVER root = none) (driver : Str) (hfit : Fit { sh with undriven := false }
      (addLeaf "driver".toList [("name".toList, driver)] false INTERFACE root)
      { doc with tree := some (addLeaf "driver".toList [("name".toList, driver)] false INTERFACE root) }) :
    setDriver saving driver doc = (.ok (), { doc with
      tree := some (addLeaf "driver".toList [("name".toList, driver)] false INTERFACE root) }) := by
  obtain ⟨hfound, hin⟩ := byValue_first (f := (addByParent · ["driver".toList] [("name".toList, driver)]))
    (by decide) hitem htype
  have hadd : atFirst INTERFACE (addByParent · ["driver".toList] [("name".toList, driver)]) root =
      addLeaf "driver".toList [("name".toList, driver)] false INTERFACE root := by
    rw [addLeaf_new hnone, addBelow_eq_atFirst (by rw [hitem]; rfl)]
    rfl
  have hroot : onXml VirtXml.root doc = (.ok root, doc) := by
    refine Py.within_ok ?_
    rw [VirtXml.root, h.tree, Outcome.ofOption_some]
  have hlift : (Py.lift (findSingleByValue "type".toList "bridge".toList
      ["devices".toList, "interface".toList] root) : Py DomainDocument (Option Element)) doc =
        (.ok (some item), doc) :=
    congrArg (·, doc) hfound
  have hset : onXml (VirtXml.onTree (inSingleByValue "type".toList "bridge".toList
      (addByParent · ["driver".toList] [("name".toList, driver)])
      ["devices".toList, "interface".toList])) doc = (.ok (), { doc with
        tree := some (addLeaf "driver".toList [("name".toList, driver)] false INTERFACE root) }) := by
    rw [← hadd, ← hin]
    exact Py.within_ok (VirtXml.onTree_run h.tree _)
  rw [setDriver, Py.bind_ok hroot, Py.bind_ok hlift]
  exact (Py.bind_ok hset).trans (saved hsaving hfit.tree hfit.filepath)

theorem writes_setDriver (hsaving : NeverRaises saving) (hundriven : sh.undriven = true) (driver : Str) :
    Writes sh { sh with undriven := false } (setDriver saving driver)
      (attribSettings DRIVER [("name".toList, driver)]) nothing := by
  intro root doc h
  obtain ⟨hbridge, hnone⟩ := h.undriven hundriven
  obtain ⟨item, hitem, htype⟩ := Option.bind_eq_some_iff.mp hbridge
  have hcovered : Fit { sh with undriven := false } root doc :=
    h.covered
      ⟨List.Subset.refl _, List.Subset.refl _, fun hfalse => absurd hfalse (by simp), id, rfl, rfl⟩
  have hview := view_addLeaf INTERFACE "driver".toList [("name".toList, driver)] root
  have hfree : Free DRIVER := by decide
  have hfit := Fit.free hcovered confined_addLeaf hview (settings_attribs DRIVER _) hfree
    fun hfalse => absurd hfalse (by simp)
  refine ⟨(), _, _, setDriver_run hsaving h hitem htype hnone driver hfit, hfit,
    fun k _ => by rw [hview]; rfl, fun g => ?_⟩
  rw [observed_eq confined_addLeaf hfree.1]
  exact (List.append_nil _).symm

end Driver

section Deleting

variable {saving : Element → Str → Saving} {sh : Shape} {root : Element} {doc : DomainDocument}
  {p : Property}

theorem boot_path {path : List Str} (hp : path ∈ BOOT) : ∃ leaf, path = ["os".toList] ++ [leaf] := by
  simp only [BOOT, List.mem_cons, List.not_mem_nil, or_false] at hp
  rcases hp with hp | hp
  · exact ⟨"kernel".toList, hp⟩
  · exact ⟨"cmdline".toList, hp⟩

theorem view_deleted (h : Fit sh root doc) (hp : p.path ∈ BOOT) (hslim : Slim p.path root) :
    view (deleteFirst p.path root) = overwritten [(⟨p.path, .text⟩, none)] (view root) := by
  obtain ⟨leaf, hleaf⟩ := boot_path hp
  funext k
  have hview : view (deleteFirst p.path root) k = if p.path <+: k.path then none else view root k := by
    rw [hleaf] at hslim ⊢
    rw [deleteFirst_eq_atFirst]
    exact view_dropAt hslim k
  rw [hview]
  by_cases hk : k = ⟨p.path, .text⟩
  · subst hk
    rw [if_pos List.prefix_rfl, overwritten_self]
  · rw [overwritten_other hk]
    split
    · next hbelow => exact (h.plain p.path hp k hbelow hk).symm
    · rfl

/-- Of the elements that can be deleted only one is. -/
theorem firstAt_deleted (hp : p.path ∈ BOOT) {q : List Str} (hq : q ∈ BOOT) (hne : q ≠ p.path) :
    firstAt q (deleteFirst p.path root) = firstAt q root := by
  obtain ⟨leaf, hleaf⟩ := boot_path hp
  obtain ⟨other, rfl⟩ := boot_path hq
  rw [hleaf] at hne
  have hsame : leaves ["os".toList] other (deleteFirst p.path root) = leaves ["os".toList] other root := by
    rw [hleaf, deleteFirst_eq_atFirst]
    exact leaves_dropAt_other (fun h => hne (h.eq_of_length rfl)) fun h => hne (h.eq_of_length rfl).symm
  rw [firstAt_concat, firstAt_concat, hsame]

theorem firstAt_deleted_self (hp : p.path ∈ BOOT) (hslim : Slim p.path root) :
    firstAt p.path (deleteFirst p.path root) = none := by
  obtain ⟨leaf, hleaf⟩ := boot_path hp
  rw [hleaf] at hslim ⊢
  rw [deleteFirst_eq_atFirst]
  have hgone : firstAt (["os".toList] ++ [leaf] ++ []) (dropAt ["os".toList] leaf root) = none :=
    firstAt_dropAt hslim
  rwa [List.append_nil] at hgone

theorem observed_deleted (hp : p.path ∈ BOOT) (g : Grown) :
    g.observed (deleteFirst p.path root) = g.observed root := by
  obtain ⟨leaf, hleaf⟩ := boot_path hp
  have hbeside : ¬ g.above ++ [g.leaf] <+: ["os".toList] ++ [leaf] ∧
      ¬ ["os".toList] ++ [leaf] <+: g.above ++ [g.leaf] := by
    constructor <;> intro hprefix <;> cases g <;>
      exact absurd (List.cons_prefix_cons.mp hprefix).1 (by decide)
  have hsame : leaves g.above g.leaf (deleteFirst p.path root) = leaves g.above g.leaf root := by
    rw [hleaf, deleteFirst_eq_atFirst]
    exact leaves_dropAt_other hbeside.1 hbeside.2
  cases g with
  | disk => exact congrArg List.tail hsame
  | _ => exact hsame

/-- The object without the element, and without the copy of its text. -/
def deleted (p : Property) (root : Element) (doc : DomainDocument) : DomainDocument :=
  Slot.keep none { doc with tree := some (deleteFirst p.path root) } (.text p)

theorem Fit.deleted (h : Fit sh root doc) (hp : p.path ∈ BOOT) (hslim : p.path ∈ sh.slim) :
    Fit { sh with there := [] } (deleteFirst p.path root) (deleted p root doc) where
  tree := rfl
  filepath := h.filepath
  slim q hq := by
    obtain ⟨leaf, hleaf⟩ := boot_path hp
    have hself := h.slim _ hslim
    rw [hleaf] at hself ⊢
    rw [deleteFirst_eq_atFirst]
    exact slim_dropAt hself (h.slim q hq)
  there q hq := by cases hq
  undriven hu := by
    obtain ⟨hbridge, hnone⟩ := h.undriven hu
    obtain ⟨leaf, hleaf⟩ := boot_path hp
    have hdriver : firstAt DRIVER (deleteFirst p.path root) = none := by
      have htag (e : Element) : (dropFirst leaf e).tag = e.tag := rfl
      have hbeside : ¬ DRIVER <+: ["os".toList] ∧ ¬ ["os".toList] <+: DRIVER := by decide
      rw [hleaf, deleteFirst_eq_atFirst, firstAt_atFirst_beside htag hbeside.1 hbeside.2, hnone]
    have hother : BRIDGE ≠ ⟨p.path, .text⟩ := by
      intro he
      cases congrArg Key.field he
    rw [view_deleted h hp (h.slim _ hslim), overwritten_other hother]
    exact ⟨hbridge, hdriver⟩
  copies slot := by
    have hview := view_deleted h hp (h.slim _ hslim)
    by_cases hslot : slot = .text p
    · subst hslot
      left
      rw [DomainOptions.deleted, Slot.copy_keep_self, hview]
      exact (overwritten_self _ _ _).symm
    · have hkey : slot.key ≠ ⟨p.path, .text⟩ := fun he => hslot (Slot.key_injective he)
      rw [DomainOptions.deleted, Slot.copy_keep_other hslot, Slot.copy_withTree, hview,
        overwritten_other hkey]
      exact h.copies slot
  logged := h.logged
  plain := by
    have hview := view_deleted h hp (h.slim _ hslim)
    exact plain_of_overwritten h.plain (fun k _ => congrFun hview k) (Slot.besideBoot (.text p) none)
  told q hq hmem := by
    by_cases hself : q = p.path
    · rw [hself, firstAt_deleted_self hp (h.slim _ hslim)]
      exact fun hsome => absurd hsome Bool.false_ne_true
    · have hkey : (⟨q, .text⟩ : Key) ≠ ⟨p.path, .text⟩ := fun he => hself (congrArg Key.path he)
      refine h.still_told hq hmem (firstAt_deleted hp hq hself).trans ?_
      rw [view_deleted h hp (h.slim _ hslim), overwritten_other hkey]

/-- A `None` deletes the element, unless nothing of it is there to delete. -/
theorem writes_setOptional_none (hsaving : NeverRaises saving) (hp : p.path ∈ BOOT)
    (hslim : p.path ∈ sh.slim) : Writes sh { sh with there := [] }
      (onXml (VirtXml.setOptional saving p none)) [(⟨p.path, .text⟩, none)] nothing := by
  intro root doc h
  by_cases hcached : doc.cached p = none
  · have hrun : VirtXml.setOptional saving p none doc.toVirtXml = (.ok (), doc.toVirtXml) := by
      rw [VirtXml.setOptional, Py.get_bind_apply, if_pos hcached]
      rfl
    have hnone : view root ⟨p.path, .text⟩ = none := by
      rcases h.copies (.text p) with hcopy | ⟨hlate, -⟩
      · exact hcopy.symm.trans hcached
      · exact hlate.elim
    have hsame : overwritten [(⟨p.path, .text⟩, none)] (view root) = view root := by
      rw [← hnone]
      exact Function.update_eq_self _ _
    exact ⟨(), root, doc, Py.within_ok hrun,
      h.covered ⟨List.Subset.refl _, List.nil_subset _, id, id, rfl, rfl⟩, fun k _ => by rw [hsame],
      fun g => (List.append_nil _).symm⟩
  · have hfit := Fit.deleted h hp hslim
    have hdelete : VirtXml.deleteElement p.path doc.toVirtXml =
        (.ok (), { doc.toVirtXml with tree := some (deleteFirst p.path root) }) := by
      rw [VirtXml.deleteElement, if_neg fun hnil => by cases p <;> cases hnil]
      exact VirtXml.onTree_run h.tree _
    have hrun : VirtXml.setOptional saving p none doc.toVirtXml =
        (.ok (), (deleted p root doc).toVirtXml) := by
      rw [VirtXml.setOptional, Py.get_bind_apply, if_neg hcached]
      dsimp only
      rw [Py.bind_ok hdelete]
      exact xml_saved hsaving hfit.tree hfit.filepath
    refine ⟨(), _, _, Py.within_ok hrun, hfit, fun k _ => by rw [view_deleted h hp (h.slim _ hslim)],
      fun g => ?_⟩
    rw [observed_deleted hp]
    exact (List.append_nil _).symm

end Deleting

end TdxTools.CloudStack.DomainOptions
