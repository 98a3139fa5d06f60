import TdxTools.CloudStack.CpuPinning
import TdxTools.CloudStack.DocumentView
import TdxTools.CloudStack.DomainSettings
import TdxTools.CloudStack.DomainPreparation

namespace TdxTools.CloudStack.DomainSlots

open Python.Text Python.Decimal Python.Dictionary Python.Exec Python.ElementTree Python.TreePaths
open Python DomainXml DocumentView CpuPinning VmGuest DomainPreparation DomainDocument

/-- A copy that the object keeps of something in its tree. -/
inductive Slot
  | text (p : Property)
  | imagefile
  | iomode
  | cache
  | logfile
  | emulator
  | topology (t : Topology)
  deriving DecidableEq, Repr

namespace Slot

def key : Slot → Key
  | text p => ⟨p.path, .text⟩
  | imagefile => ⟨IMAGEFILE.path, .attrib IMAGEFILE.attrib⟩
  | iomode => ⟨IOMODE.path, .attrib IOMODE.attrib⟩
  | cache => ⟨CACHE.path, .attrib CACHE.attrib⟩
  | logfile => ⟨LOGFILE.path, .attrib LOGFILE.attrib⟩
  | emulator => ⟨["devices".toList, "emulator".toList], .text⟩
  | topology t => ⟨["cpu".toList, "topology".toList], .attrib t.attrib⟩

def copy (self : DomainDocument) : Slot → Option Str
  | text p => self.cached p
  | imagefile => self.imagefile
  | iomode => self.io
  | cache => self.cache
  | logfile => self.logfile
  | emulator => self.qemuExec
  | topology t => self.topology t

def keep (value : Option Str) (self : DomainDocument) : Slot → DomainDocument
  | text p => { self with cached := Function.update self.cached p value }
  | imagefile => { self with imagefile := value }
  | iomode => { self with io := value }
  | cache => { self with cache := value }
  | logfile => { self with logfile := value }
  | emulator => { self with qemuExec := value }
  | topology t => { self with topology := Function.update self.topology t value }

/-- Nothing is copied when a document is loaded. -/
def Late : Slot → Prop
  | logfile | emulator | topology _ => True
  | _ => False

@[simp] theorem copy_withTree (tree : Option Element) (self : DomainDocument) (slot : Slot) :
    slot.copy { self with tree := tree } = slot.copy self := by
  cases slot <;> rfl

theorem copy_keep_self (value : Option Str) (self : DomainDocument) (slot : Slot) :
    slot.copy (slot.keep value self) = value := by
  cases slot with
  | text p => exact Function.update_self p value self.cached
  | topology t => exact Function.update_self t value self.topology
  | _ => rfl

theorem copy_keep_other {slot other : Slot} (h : other ≠ slot) (value : Option Str)
    (self : DomainDocument) : other.copy (slot.keep value self) = other.copy self := by
  cases slot with
  | text p =>
    cases other with
    | text q => exact Function.update_of_ne (fun he => h (congrArg text he)) value self.cached
    | _ => rfl
  | topology t =>
    cases other with
    | topology u => exact Function.update_of_ne (fun he => h (congrArg topology he)) value self.topology
    | _ => rfl
  | _ => cases other <;> first | rfl | exact absurd rfl h

def all : List Slot :=
  [text .name, text .uuid, text .kernel, text .cmdline, text .loader, text .memory, text .vcpu,
    imagefile, iomode, cache, logfile, emulator, topology .sockets, topology .cores,
    topology .threads]

theorem mem_all (slot : Slot) : slot ∈ all := by
  cases slot with
  | text p => cases p <;> simp [all]
  | topology t => cases t <;> simp [all]
  | _ => simp [all]

theorem key_injective : Function.Injective key := by
  intro slot other h
  have hnodup : (all.map key).Nodup := by decide
  exact List.inj_on_of_nodup_map hnodup (mem_all slot) (mem_all other) h

end Slot

/-- What is only ever appended to. -/
inductive Grown
  | iothreadpin
  | vcpupin
  | arg
  | disk
  deriving DecidableEq, Repr

namespace Grown

def above : Grown → List Str
  | iothreadpin | vcpupin => [CPUTUNE]
  | arg => [COMMANDLINE]
  | disk => ["devices".toList]

def leaf : Grown → Str
  | iothreadpin => IOTHREADPIN
  | vcpupin => VCPUPIN
  | arg => ARG
  | disk => "disk".toList

/-- The elements of a document; of its disks those behind the first, which is the image. -/
def observed (root : Element) : Grown → List Element
  | disk => (leaves ["devices".toList] "disk".toList root).tail
  | g => leaves g.above g.leaf root

end Grown

/-- The pins and the arguments of the emulator are read as lists of elements, and by no key. -/
def Tracked (k : Key) : Prop := k.path.head? ≠ some CPUTUNE ∧ k.path.head? ≠ some COMMANDLINE

instance (k : Key) : Decidable (Tracked k) := inferInstanceAs (Decidable (_ ∧ _))

/-- The elements that can be deleted. -/
def BOOT : List (List Str) := [Property.kernel.path, Property.cmdline.path]

def IMAGE : List (List Str) := [IMAGEFILE.path, IOMODE.path]

/-- The elements that are set by a path, but for those of the image. -/
def SINGLES : List (List Str) :=
  [["name".toList], ["uuid".toList], ["os".toList, "kernel".toList], ["os".toList, "cmdline".toList],
    ["os".toList, "loader".toList], ["memory".toList], ["vcpu".toList],
    ["devices".toList, "console".toList, "log".toList], ["devices".toList, "emulator".toList],
    ["cpu".toList, "topology".toList], ["numatune".toList, "memory".toList],
    ["devices".toList, "vsock".toList], ["memoryBacking".toList, "path".toList],
    ["launchSecurity".toList, "vtpm".toList, "loader".toList],
    ["launchSecurity".toList, "vtpm".toList, "log".toList]]

def INTERFACE : List Str := ["devices".toList, "interface".toList]

def DRIVER : List Str := INTERFACE ++ ["driver".toList]

/-- What the setters rely on: whether the image is the only disk, which elements
are there, whether the first interface is a bridge that has no driver yet,
whether the log file was set, and which elements are never there without a text. -/
structure Shape where
  image : Bool
  there : List (List Str)
  undriven : Bool
  logged : Bool
  filepath : Str
  told : List (List Str)

def Shape.slim (sh : Shape) : List (List Str) := if sh.image then IMAGE ++ SINGLES else SINGLES

theorem Shape.mem_slim {sh : Shape} {p : List Str} (h : p ∈ SINGLES) : p ∈ sh.slim := by
  rw [slim]
  split
  · exact List.mem_append_right IMAGE h
  · exact h

theorem Shape.slim_subset (sh : Shape) : sh.slim ⊆ IMAGE ++ SINGLES := by
  rw [slim]
  split
  · exact List.Subset.refl _
  · exact List.subset_append_right IMAGE SINGLES

def BRIDGE : Key := ⟨INTERFACE, .attrib "type".toList⟩

/-- An object with its tree in shape, and the copies of the one in step with the other. -/
structure Fit (sh : Shape) (root : Element) (doc : DomainDocument) : Prop where
  tree : doc.tree = some root
  filepath : doc.filepath = some sh.filepath
  slim : ∀ p ∈ sh.slim, Slim p root
  there : ∀ p ∈ sh.there, (firstAt p root).isSome
  undriven : sh.undriven → view root BRIDGE = some "bridge".toList ∧ firstAt DRIVER root = none
  copies : ∀ slot : Slot, slot.copy doc = view root slot.key ∨ slot.Late ∧ slot.copy doc = none
  logged : sh.logged → doc.logfile ≠ none
  plain : ∀ p ∈ BOOT, ∀ k : Key, p <+: k.path → k ≠ ⟨p, .text⟩ → view root k = none
  told : ∀ p ∈ BOOT, p ∈ sh.told → (firstAt p root).isSome → view root ⟨p, .text⟩ ≠ none

/-- An edit along the path disturbs nothing that is only appended to. -/
def Clear (path : List Str) : Prop :=
  ∀ g ∈ [Grown.iothreadpin, .vcpupin, .arg, .disk],
    ¬ path <+: g.above ∧ (g ≠ .disk → ¬ g.above ++ [g.leaf] <+: path)

instance (path : List Str) : Decidable (Clear path) := inferInstanceAs (Decidable (∀ _ ∈ _, _))

/-- The settings are not of anything at or below an element that can be deleted but its text. -/
def BesideBoot (settings : List (Key × Option Str)) : Prop :=
  ∀ setting ∈ settings, ∀ p ∈ BOOT, p <+: setting.1.path → setting.1 = ⟨p, .text⟩

instance (settings : List (Key × Option Str)) : Decidable (BesideBoot settings) :=
  inferInstanceAs (Decidable (∀ _ ∈ _, _))

section Fitting

variable {sh sh' : Shape} {root after : Element} {doc doc' : DomainDocument} {path : List Str}
  {settings : List (Key × Option Str)}

theorem observed_eq (hc : Confined path root after) (hclear : Clear path) (g : Grown) :
    g.observed after = g.observed root := by
  have hg : g ∈ [Grown.iothreadpin, .vcpupin, .arg, .disk] := by cases g <;> simp
  obtain ⟨hbelow, habove⟩ := hclear g hg
  cases g with
  | disk => exact hc.others _ _ hbelow
  | _ => exact hc.leaves _ _ hbelow (habove (by simp))

theorem plain_of_overwritten
    (hplain : ∀ p ∈ BOOT, ∀ k : Key, p <+: k.path → k ≠ ⟨p, .text⟩ → view root k = none)
    (hview : ∀ k, Tracked k → view after k = overwritten settings (view root) k)
    (hbeside : BesideBoot settings) :
    ∀ p ∈ BOOT, ∀ k : Key, p <+: k.path → k ≠ ⟨p, .text⟩ → view after k = none := by
  intro p hp k hpath hne
  have htracked : Tracked k := by
    obtain ⟨rest, hrest⟩ := hpath
    have hhead : k.path.head? = some "os".toList := by
      simp only [BOOT, List.mem_cons, List.not_mem_nil, or_false] at hp
      rcases hp with rfl | rfl <;> rw [← hrest] <;> rfl
    rw [Tracked, hhead]
    decide
  rw [hview k htracked, overwritten_of_ne]
  · exact hplain p hp k hpath hne
  · intro setting hsetting heq
    exact hne (heq ▸ hbeside setting hsetting p hp (heq ▸ hpath))

theorem Fit.withLog (h : Fit sh root doc) (hlog : doc.logfile ≠ none) :
    Fit { sh with logged := true } root doc where
  tree := h.tree
  filepath := h.filepath
  slim := h.slim
  there := h.there
  undriven := h.undriven
  copies := h.copies
  logged _ := hlog
  plain := h.plain
  told := h.told

/-- More may be relied on before than after. -/
def Shape.Covers (sh sh' : Shape) : Prop :=
  sh'.slim ⊆ sh.slim ∧ sh'.there ⊆ sh.there ∧ (sh'.undriven → sh.undriven) ∧
    (sh'.logged → sh.logged) ∧ sh'.filepath = sh.filepath ∧ sh'.told = sh.told

theorem Shape.covers_refl (sh : Shape) : sh.Covers sh :=
  ⟨List.Subset.refl _, List.Subset.refl _, id, id, rfl, rfl⟩

theorem Fit.covered (h : Fit sh root doc) (hc : sh.Covers sh') : Fit sh' root doc where
  tree := h.tree
  filepath := h.filepath.trans (congrArg some hc.2.2.2.2.1.symm)
  slim p hp := h.slim p (hc.1 hp)
  there p hp := h.there p (hc.2.1 hp)
  undriven hu := h.undriven (hc.2.2.1 hu)
  copies := h.copies
  logged hl := h.logged (hc.2.2.2.1 hl)
  plain := h.plain
  told p hp hmem := h.told p hp (hc.2.2.2.2.2 ▸ hmem)

/-- Where no element that can be deleted comes, and its text stays, it is still never
without one. -/
theorem Fit.still_told (h : Fit sh root doc) {p : List Str} (hp : p ∈ BOOT) (hmem : p ∈ sh.told)
    (hthere : firstAt p root = none → firstAt p after = none)
    (htext : view after ⟨p, .text⟩ = view root ⟨p, .text⟩) (hsome : (firstAt p after).isSome) :
    view after ⟨p, .text⟩ ≠ none := by
  rw [htext]
  refine h.told p hp hmem (Option.isSome_iff_ne_none.mpr fun hnone => ?_)
  rw [hthere hnone] at hsome
  cases hsome

/-- The settings are of the element at the path. -/
def Settings (path : List Str) (settings : List (Key × Option Str)) : Prop :=
  ∀ setting ∈ settings, setting.1.path = path

theorem settings_single (k : Key) (value : Option Str) : Settings k.path [(k, value)] := by
  intro setting hsetting
  rw [List.mem_singleton.mp hsetting]

/-- An edit along one path that is settings of the document keeps the shape. -/
theorem Fit.edit (h : Fit sh root doc) (hc : Confined path root after)
    (hview : view after = overwritten settings (view root)) (hsettings : Settings path settings)
    (hbeside : BesideBoot settings) (hboot : ∀ p ∈ BOOT, p <+: path → view after ⟨p, .text⟩ ≠ none)
    (hdriver : sh.undriven → ¬ DRIVER <+: path ∧ ∀ setting ∈ settings, setting.1 ≠ BRIDGE)
    (htree : doc'.tree = some after) (hfile : doc'.filepath = doc.filepath)
    (hcopies : ∀ slot : Slot,
      slot.copy doc' = view after slot.key ∨ slot.Late ∧ slot.copy doc' = none)
    (hlogged : doc.logfile ≠ none → doc'.logfile ≠ none) : Fit sh after doc' where
  tree := htree
  filepath := hfile.trans h.filepath
  slim p hp := hc.slim p (h.slim p hp)
  there p hp := hc.there p (h.there p hp)
  undriven hu := by
    obtain ⟨hbridge, hnone⟩ := h.undriven hu
    obtain ⟨hpath, hsettings⟩ := hdriver hu
    rw [hview, overwritten_of_ne hsettings]
    exact ⟨hbridge, hc.absent DRIVER hpath hnone⟩
  copies := hcopies
  logged hl := hlogged (h.logged hl)
  plain := plain_of_overwritten h.plain (fun k _ => congrFun hview k) hbeside
  told p hp hmem := by
    by_cases hpath : p <+: path
    · exact fun _ => hboot p hp hpath
    · refine h.still_told hp hmem (hc.absent p hpath) ?_
      rw [hview, overwritten_of_ne]
      intro setting hsetting he
      exact hpath (by rw [← hsettings setting hsetting, he])

end Fitting

/-- From this object the statements return, and come to these settings and these appended elements. -/
@[reducible] def Comes {α : Type} (sh' : Shape) (act : Py DomainDocument α) (root : Element)
    (doc : DomainDocument) (settings : List (Key × Option Str)) (added : Grown → List Element) : Prop :=
  ∃ a after doc', act doc = (.ok a, doc') ∧ Fit sh' after doc' ∧
    (∀ k, Tracked k → view after k = overwritten settings (view root) k) ∧
    ∀ g : Grown, g.observed after = g.observed root ++ added g

/-- The same from any object in shape. -/
def Writes {α : Type} (sh sh' : Shape) (act : Py DomainDocument α) (settings : List (Key × Option Str))
    (added : Grown → List Element) : Prop :=
  ∀ root doc, Fit sh root doc → Comes sh' act root doc settings added

/-- Nothing is appended. -/
def nothing : Grown → List Element := fun _ => []

section Rules

variable {α β : Type} {sh sh' sh'' : Shape} {act : Py DomainDocument α} {f : α → Py DomainDocument β}
  {first second : List (Key × Option Str)} {added more : Grown → List Element}

theorem Writes.pure (a : α) : Writes sh sh (Pure.pure a) [] nothing := by
  intro root doc h
  exact ⟨a, root, doc, rfl, h, fun _ _ => rfl, fun g => (List.append_nil _).symm⟩

/-- What comes behind may rely on what the document says by then. -/
theorem Comes.bind {root : Element} {doc : DomainDocument} (h : Comes sh' act root doc first added)
    (hf : ∀ a after doc', Fit sh' after doc' →
      (∀ k, Tracked k → view after k = overwritten first (view root) k) →
        Comes sh'' (f a) after doc' second more) :
    Comes sh'' (act >>= f) root doc (first ++ second) (fun g => added g ++ more g) := by
  obtain ⟨a, middle, doc', hrun, hfit', hview, hgrown⟩ := h
  obtain ⟨b, after, doc'', hrun', hfit'', hview', hgrown'⟩ := hf a middle doc' hfit' hview
  refine ⟨b, after, doc'', (Py.bind_ok hrun).trans hrun', hfit'', fun k hk => ?_, fun g => ?_⟩
  · rw [hview' k hk, overwritten_append, overwritten_congr (hview k hk)]
  · rw [hgrown', hgrown, List.append_assoc]

theorem Writes.bind (h : Writes sh sh' act first added) (hf : ∀ a, Writes sh' sh'' (f a) second more) :
    Writes sh sh'' (act >>= f) (first ++ second) (fun g => added g ++ more g) :=
  fun root doc hfit => (h root doc hfit).bind fun a after doc' hfit' _ => hf a after doc' hfit'

/-- Statements that append nothing, one after the other. -/
theorem Writes.then (h : Writes sh sh' act first nothing)
    (hf : ∀ a, Writes sh' sh'' (f a) second nothing) :
    Writes sh sh'' (act >>= f) (first ++ second) nothing :=
  h.bind hf

theorem Writes.congr (h : Writes sh sh' act first added) (hmore : ∀ g, added g = more g) :
    Writes sh sh' act first more := by
  rwa [funext hmore] at h

theorem Writes.lift (x : Outcome α) (a : α) (hx : x = .ok a) (hf : Writes sh sh' (f a) second more) :
    Writes sh sh' (Py.lift x >>= f) second more := by
  intro root doc hfit
  rw [hx]
  exact hf root doc hfit

theorem Writes.before (h : Writes sh' sh'' act first added) (hc : sh.Covers sh') :
    Writes sh sh'' act first added :=
  fun root doc hfit => h root doc (hfit.covered hc)

theorem Writes.after (h : Writes sh sh' act first added) (hc : sh'.Covers sh'') :
    Writes sh sh'' act first added := by
  intro root doc hfit
  obtain ⟨a, after, doc', hrun, hfit', hrest⟩ := h root doc hfit
  exact ⟨a, after, doc', hrun, hfit'.covered hc, hrest⟩

end Rules

section Settling

variable {saving : Element → Str → Saving} {sh sh' : Shape} {root : Element} {doc : DomainDocument}

theorem Slot.besideBoot (slot : Slot) (value : Option Str) : BesideBoot [(slot.key, value)] := by
  have hall : ∀ slot ∈ Slot.all, ∀ p ∈ BOOT, p <+: slot.key.path → slot.key = ⟨p, .text⟩ := by decide
  intro setting hsetting
  obtain rfl := List.mem_singleton.mp hsetting
  exact hall slot (Slot.mem_all slot)

theorem Slot.clear (slot : Slot) : Clear slot.key.path := by
  have hall : ∀ slot ∈ Slot.all, Clear slot.key.path := by decide
  exact hall slot (Slot.mem_all slot)

theorem Slot.besideDriver (slot : Slot) (value : Option Str) :
    ¬ DRIVER <+: slot.key.path ∧ ∀ setting ∈ [(slot.key, value)], setting.1 ≠ BRIDGE := by
  have hall : ∀ slot ∈ Slot.all, ¬ DRIVER <+: slot.key.path ∧ slot.key ≠ BRIDGE := by decide
  obtain ⟨hpath, hkey⟩ := hall slot (Slot.mem_all slot)
  refine ⟨hpath, fun setting hsetting => ?_⟩
  obtain rfl := List.mem_singleton.mp hsetting
  exact hkey

theorem Slot.path_ne_nil (slot : Slot) : slot.key.path ≠ [] := by
  have hall : ∀ slot ∈ Slot.all, slot.key.path ≠ [] := by decide
  exact hall slot (Slot.mem_all slot)

theorem confined_write (k : Key) (v : Str) : Confined k.path root (k.write v root) :=
  confined_atFirst (tag_change k.field v) (children_change k.field v)

/-- The object with one element of its tree written, and the copy of it kept. -/
def settled (slot : Slot) (v : Str) (root : Element) (doc : DomainDocument) : DomainDocument :=
  slot.keep (some v) { doc with tree := some (slot.key.write v root) }

theorem Fit.settled (h : Fit sh root doc) (slot : Slot) (v : Str) (hthere : slot.key.path ∈ sh.there) :
    Fit sh (slot.key.write v root) (settled slot v root doc) := by
  have hview := Key.view_write v (h.there _ hthere)
  have hsettings : view (slot.key.write v root) = overwritten [(slot.key, some v)] (view root) := hview
  have hboot : ∀ p ∈ BOOT, p <+: slot.key.path → view (slot.key.write v root) ⟨p, .text⟩ ≠ none := by
    intro p hp hpath
    have hkey : slot.key = ⟨p, .text⟩ :=
      slot.besideBoot (some v) (slot.key, some v) List.mem_cons_self p hp hpath
    rw [hview, ← hkey, Function.update_self]
    exact Option.some_ne_none v
  refine h.edit (confined_write slot.key v) hsettings (settings_single slot.key (some v))
    (slot.besideBoot _) hboot (fun _ => slot.besideDriver (some v)) (by cases slot <;> rfl)
    (by cases slot <;> rfl) (fun other => ?_) fun hlog => ?_
  · by_cases hother : other = slot
    · subst hother
      left
      rw [DomainSlots.settled, Slot.copy_keep_self, hview, Function.update_self]
    · rw [DomainSlots.settled, Slot.copy_keep_other hother, hview,
        Function.update_of_ne fun he => hother (Slot.key_injective he)]
      rw [Slot.copy_withTree]
      exact h.copies other
  · cases slot with
    | logfile => exact Option.some_ne_none v
    | _ => exact hlog

/-- What a setter comes to that leaves an object alone whose copy is the value already. -/
theorem writes_slot {α : Type} {act : Py DomainDocument α} (slot : Slot) (v : Str)
    (hthere : slot.key.path ∈ sh.there)
    (hpost : ∀ root doc, Fit sh root doc → slot.copy doc = some v → Fit sh' root doc)
    (hsame : ∀ root doc, Fit sh root doc → slot.copy doc = some v → ∃ a, act doc = (.ok a, doc))
    (hnew : ∀ root doc, Fit sh root doc → slot.copy doc ≠ some v →
      ∃ a, act doc = (.ok a, settled slot v root doc)) :
    Writes sh sh' act [(slot.key, some v)] nothing := by
  intro root doc h
  by_cases hcopy : slot.copy doc = some v
  · obtain ⟨a, hrun⟩ := hsame root doc h hcopy
    refine ⟨a, root, doc, hrun, hpost root doc h hcopy, fun k _ => ?_, fun g => (List.append_nil _).symm⟩
    have hview : view root slot.key = some v := by
      rcases h.copies slot with heq | ⟨-, hnone⟩
      · exact heq.symm.trans hcopy
      · rw [hcopy] at hnone
        cases hnone
    have hupdate : overwritten [(slot.key, some v)] (view root) = view root := by
      rw [← hview]
      exact Function.update_eq_self _ _
    rw [hupdate]
  · obtain ⟨a, hrun⟩ := hnew root doc h hcopy
    have hsettled := hpost _ _ (h.settled slot v hthere) (Slot.copy_keep_self (some v) _ slot)
    refine ⟨a, _, _, hrun, hsettled, fun k _ => ?_, fun g => ?_⟩
    · rw [Key.view_write v (h.there _ hthere)]
      rfl
    · rw [observed_eq (confined_write slot.key v) slot.clear]
      exact (List.append_nil _).symm

end Settling

section Setters

variable {saving : Element → Str → Saving} {sh sh' : Shape} {root : Element} {doc : DomainDocument}
  {xml : VirtXml} {p : Property} {v : Str}

/-- Writing a tree to its file never raises anything but an `IOError`. -/
def NeverRaises (saving : Element → Str → Saving) : Prop := ∀ e path x, saving e path ≠ .raised x

theorem xml_save_same (hsaving : NeverRaises saving) {path : Str} (htree : xml.tree = some root)
    (hfile : xml.filepath = some path) : ∃ b, VirtXml.save saving none xml = (.ok b, xml) := by
  have hroot : VirtXml.root xml = (.ok root, xml) := by rw [VirtXml.root, htree, Outcome.ofOption_some]
  rw [VirtXml.save, Py.bind_ok hroot, Py.get_bind_apply, hfile]
  dsimp only [Option.none_or]
  cases hs : saving root path with
  | saved =>
    refine ⟨true, congrArg (Prod.mk (Outcome.ok true)) ?_⟩
    obtain ⟨tree, cached, io, cache, imagefile, filepath⟩ := xml
    exact congrArg (VirtXml.mk tree cached io cache imagefile) hfile.symm
  | ioError => exact ⟨false, rfl⟩
  | raised x => exact absurd hs (hsaving root path x)

theorem xml_saved (hsaving : NeverRaises saving) {path : Str} (htree : xml.tree = some root)
    (hfile : xml.filepath = some path) :
    (do let _ ← VirtXml.save saving none; pure () : Py VirtXml Unit) xml = (.ok (), xml) := by
  obtain ⟨b, hrun⟩ := xml_save_same hsaving htree hfile
  exact Py.bind_ok hrun

theorem saved (hsaving : NeverRaises saving) {path : Str} (htree : doc.tree = some root)
    (hfile : doc.filepath = some path) :
    (do let _ ← DomainDocument.save saving none; pure () : Py DomainDocument Unit) doc = (.ok (), doc) := by
  obtain ⟨b, hrun⟩ := xml_save_same hsaving htree hfile
  have hdoc : DomainDocument.save saving none doc = (.ok b, doc) := Py.within_ok hrun
  exact Py.bind_ok hdoc

/-- What is written at a single element is written at the first. -/
theorem single (h : Fit sh root doc) (slot : Slot) (hslim : slot.key.path ∈ sh.slim)
    (hthere : slot.key.path ∈ sh.there) : ∃ e, findSingle slot.key.path root = some e ∧
      ∀ v, inSingle slot.key.path (change slot.key.field v) root = slot.key.write v root := by
  have hpath := h.slim _ hslim
  obtain ⟨e, he⟩ := Option.isSome_iff_exists.mp (h.there _ hthere)
  exact ⟨e, (findSingle_eq slot.path_ne_nil hpath).trans he, fun v => inSingle_eq_atFirst hpath⟩

theorem setSingle_text (h : Fit sh root doc) (hslim : p.path ∈ sh.slim) (hthere : p.path ∈ sh.there)
    (v : Str) : VirtXml.setSingleElementValue p.path (some v) doc.toVirtXml =
      (.ok true, { doc.toVirtXml with tree := some ((Slot.text p).key.write v root) }) := by
  obtain ⟨e, he, hwrite⟩ := single h (.text p) hslim hthere
  rw [← hwrite]
  exact DomainSettings.setSingle_found h.tree he (some v)

theorem writes_setText (hsaving : NeverRaises saving) (hslim : p.path ∈ sh.slim)
    (hthere : p.path ∈ sh.there) (v : Str) :
    Writes sh sh (onXml (VirtXml.setText saving p v)) [(Slot.key (.text p), some v)] nothing := by
  refine writes_slot (.text p) v hthere (fun _ _ h _ => h) (fun root doc h hcopy => ⟨(), ?_⟩)
    fun root doc h hcopy => ⟨(), ?_⟩
  · have hcached : doc.cached p = some v := hcopy
    have hrun : VirtXml.setText saving p v doc.toVirtXml = (.ok (), doc.toVirtXml) := by
      rw [VirtXml.setText, Py.get_bind_apply, if_pos hcached]
      rfl
    exact Py.within_ok hrun
  · have hcached : ¬ doc.cached p = some v := hcopy
    have hrun : VirtXml.setText saving p v doc.toVirtXml =
        (.ok (), (settled (.text p) v root doc).toVirtXml) := by
      rw [VirtXml.setText, Py.get_bind_apply, if_neg hcached, Py.bind_ok (setSingle_text h hslim hthere v)]
      have hafter := h.settled (.text p) v hthere
      exact xml_saved hsaving hafter.tree hafter.filepath
    exact Py.within_ok hrun

theorem writes_setVcpu (hsaving : NeverRaises saving) (hslim : Property.vcpu.path ∈ sh.slim)
    (hthere : Property.vcpu.path ∈ sh.there) (newVcpu : VcpuNumber) :
    Writes sh sh (onXml (VirtXml.setVcpu saving newVcpu))
      [(Slot.key (.text .vcpu), some newVcpu.toText)] nothing := by
  refine writes_slot (.text .vcpu) newVcpu.toText hthere (fun _ _ h _ => h)
    (fun root doc h hcopy => ⟨(), ?_⟩) fun root doc h hcopy => ⟨(), ?_⟩
  · have hcached : doc.cached .vcpu = some newVcpu.toText := hcopy
    have hrun : VirtXml.setVcpu saving newVcpu doc.toVirtXml = (.ok (), doc.toVirtXml) := by
      rw [VirtXml.setVcpu, Py.get_bind_apply, if_pos hcached]
      rfl
    exact Py.within_ok hrun
  · have hcached : ¬ doc.cached .vcpu = some newVcpu.toText := hcopy
    have hrun : VirtXml.setVcpu saving newVcpu doc.toVirtXml =
        (.ok (), (settled (.text .vcpu) newVcpu.toText root doc).toVirtXml) := by
      rw [VirtXml.setVcpu, Py.get_bind_apply, if_neg hcached,
        Py.bind_ok (setSingle_text h hslim hthere newVcpu.toText)]
      have hafter := h.settled (.text .vcpu) newVcpu.toText hthere
      exact xml_saved hsaving hafter.tree hafter.filepath
    exact Py.within_ok hrun

/-- A value for an element that could be deleted is set as in the other setters. -/
theorem writes_setOptional_some (hsaving : NeverRaises saving) (hslim : p.path ∈ sh.slim)
    (hthere : p.path ∈ sh.there) (v : Str) :
    Writes sh sh (onXml (VirtXml.setOptional saving p (some v))) [(Slot.key (.text p), some v)] nothing :=
  writes_setText hsaving hslim hthere v

theorem setAttrib_run (h : Fit sh root doc) (slot : Slot) {attrib : Str}
    (hfield : slot.key.field = .attrib attrib) (hslim : slot.key.path ∈ sh.slim)
    (hthere : slot.key.path ∈ sh.there) (v : Str) :
    setSingleElementAttrib slot.key.path attrib v doc =
      (.ok true, { doc with tree := some (slot.key.write v root) }) := by
  obtain ⟨e, he, hwrite⟩ := single h slot hslim hthere
  have hfind : onXml (VirtXml.findSingleElement slot.key.path) doc = (.ok (some e), doc) := by
    refine Py.within_ok ?_
    rw [DomainSettings.findSingleElement_run h.tree, he]
  have hset : onXml (VirtXml.onTree (inSingle slot.key.path (·.update [(attrib, v)]))) doc =
      (.ok (), { doc with tree := some (slot.key.write v root) }) := by
    rw [← hwrite, hfield]
    exact Py.within_ok (VirtXml.onTree_run h.tree _)
  rw [setSingleElementAttrib, Py.bind_ok hfind]
  exact Py.bind_ok hset

theorem writes_setTopology (hsaving : NeverRaises saving) (t : Topology)
    (hslim : (Slot.topology t).key.path ∈ sh.slim) (hthere : (Slot.topology t).key.path ∈ sh.there)
    (newValue : VcpuNumber) : Writes sh sh (setTopology saving t newValue)
      [((Slot.topology t).key, some newValue.toText)] nothing := by
  refine writes_slot (.topology t) newValue.toText hthere (fun _ _ h _ => h)
    (fun root doc h hcopy => ⟨(), ?_⟩) fun root doc h hcopy => ⟨(), ?_⟩
  · have hkept : doc.topology t = some newValue.toText := hcopy
    rw [setTopology, Py.get_bind_apply, if_pos hkept]
    rfl
  · have hkept : ¬ doc.topology t = some newValue.toText := hcopy
    have hset : setSingleElementAttrib ["cpu".toList, "topology".toList] t.attrib newValue.toText doc =
        (.ok true, { doc with tree := some ((Slot.topology t).key.write newValue.toText root) }) :=
      setAttrib_run h (.topology t) rfl hslim hthere newValue.toText
    rw [setTopology, Py.get_bind_apply, if_neg hkept, Py.bind_ok hset]
    have hafter := h.settled (.topology t) newValue.toText hthere
    exact saved hsaving hafter.tree hafter.filepath

theorem writes_setQemuExec (hsaving : NeverRaises saving) (hslim : Slot.emulator.key.path ∈ sh.slim)
    (hthere : Slot.emulator.key.path ∈ sh.there) (v : Str) :
    Writes sh sh (setQemuExec saving v) [(Slot.emulator.key, some v)] nothing := by
  refine writes_slot .emulator v hthere (fun _ _ h _ => h) (fun root doc h hcopy => ⟨(), ?_⟩)
    fun root doc h hcopy => ⟨(), ?_⟩
  · have hkept : doc.qemuExec = some v := hcopy
    rw [setQemuExec, Py.get_bind_apply, if_pos hkept]
    rfl
  · have hkept : ¬ doc.qemuExec = some v := hcopy
    obtain ⟨e, he, hwrite⟩ := single h .emulator hslim hthere
    have hset : onXml (VirtXml.setSingleElementValue ["devices".toList, "emulator".toList] (some v)) doc =
        (.ok true, { doc with tree := some (Slot.emulator.key.write v root) }) := by
      rw [← hwrite]
      exact Py.within_ok (DomainSettings.setSingle_found h.tree he (some v))
    rw [setQemuExec, Py.get_bind_apply, if_neg hkept, Py.bind_ok hset]
    have hafter := h.settled .emulator v hthere
    exact saved hsaving hafter.tree hafter.filepath

/-- The setters of the attributes, when they are given a text. -/
theorem writes_setPlace (hsaving : NeverRaises saving) (place : Place) (slot : Slot)
    (hkey : slot.key = ⟨place.path, .attrib place.attrib⟩) (hcopy : ∀ doc, slot.copy doc = place.copy doc)
    (hkeep : ∀ value doc, slot.keep value doc = place.keep value doc)
    (hslim : place.path ∈ sh.slim) (hthere : place.path ∈ sh.there) (v : Str)
    (hpost : ∀ root doc, Fit sh root doc → slot.copy doc = some v → Fit sh' root doc) :
    Writes sh sh' (setPlace saving place (some v)) [(slot.key, some v)] nothing := by
  have hpath : slot.key.path = place.path := congrArg Key.path hkey
  have hfield : slot.key.field = .attrib place.attrib := congrArg Key.field hkey
  rw [← hpath] at hslim hthere
  refine writes_slot slot v hthere hpost (fun root doc h hsame => ⟨(), ?_⟩) fun root doc h hnew => ⟨(), ?_⟩
  · rw [hcopy] at hsame
    rw [setPlace, Py.get_bind_apply, if_pos hsame]
    rfl
  · rw [hcopy] at hnew
    obtain ⟨e, he, hwrite⟩ := single h slot hslim hthere
    have hfind : onXml (VirtXml.findSingleElement place.path) doc = (.ok (some e), doc) := by
      refine Py.within_ok ?_
      rw [DomainSettings.findSingleElement_run h.tree, ← hpath, he]
    have hset : onXml (VirtXml.onTree (inSingle place.path (·.update [(place.attrib, v)]))) doc =
        (.ok (), { doc with tree := some (slot.key.write v root) }) := by
      rw [← hwrite, hfield, ← hpath]
      exact Py.within_ok (VirtXml.onTree_run h.tree _)
    rw [setPlace, Py.get_bind_apply, if_neg hnew, Py.bind_ok hfind]
    refine (Py.bind_ok hset).trans ?_
    rw [Py.modify_bind_apply, ← hkeep]
    have hafter := h.settled slot v hthere
    exact saved hsaving hafter.tree hafter.filepath

end Setters

end TdxTools.CloudStack.DomainSlots
