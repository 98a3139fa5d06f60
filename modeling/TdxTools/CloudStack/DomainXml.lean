import TdxTools.Python.Decimal
import TdxTools.Python.ElementTree

namespace TdxTools.CloudStack.DomainXml

open Python.Text Python.Decimal Python.Dictionary Python.Exec Python.ElementTree

/-- The fields that have a setter for the text of an element. -/
inductive Property
  | name
  | uuid
  | kernel
  | cmdline
  | loader
  | memory
  | vcpu
  deriving DecidableEq, Repr

def Property.path : Property → List Str
  | name => ["name".toList]
  | uuid => ["uuid".toList]
  | kernel => ["os".toList, "kernel".toList]
  | cmdline => ["os".toList, "cmdline".toList]
  | loader => ["os".toList, "loader".toList]
  | memory => ["memory".toList]
  | vcpu => ["vcpu".toList]

/-- The object: the tree, and the copies of the texts by their property. -/
structure VirtXml where
  tree : Option Element := none
  cached : Property → Option Str := fun _ => none
  io : Option Str := none
  cache : Option Str := none
  imagefile : Option Str := none
  filepath : Option Str := none

/-- `round`, to the even number of two that are as near. -/
def round (x : Rat) : Int :=
  let n := x.floor
  if x - n < 1 / 2 then n
  else if 1 / 2 < x - n then n + 1
  else if n % 2 = 0 then n else n + 1

/-- What the setter of `memory` is given; a float is one that `round` takes. -/
inductive MemorySize
  | int (n : Int)
  | float (x : Rat)
  | text (s : Str)

def MemorySize.toText : MemorySize → Str
  | int n => decimalInt n
  | float x => decimalInt (round x)
  | text s => s

inductive VcpuNumber
  | int (n : Int)
  | text (s : Str)

def VcpuNumber.toText : VcpuNumber → Str
  | int n => decimalInt n
  | text s => s

/-- One assignment to a property of the object. -/
inductive Assignment
  | name (v : Str)
  | uuid (v : Str)
  | kernel (v : Option Str)
  | cmdline (v : Option Str)
  | loader (v : Str)
  | memory (v : MemorySize)
  | vcpu (v : VcpuNumber)

namespace Assignment

def property : Assignment → Property
  | name _ => .name
  | uuid _ => .uuid
  | kernel _ => .kernel
  | cmdline _ => .cmdline
  | loader _ => .loader
  | memory _ => .memory
  | vcpu _ => .vcpu

/-- The text that the element is to have, if it is to be there. -/
def value : Assignment → Option Str
  | name v => some v
  | uuid v => some v
  | kernel v => v
  | cmdline v => v
  | loader v => some v
  | memory v => some v.toText
  | vcpu v => some v.toText

end Assignment

/-- What writing a tree to a file comes to. -/
inductive Saving
  | saved
  | ioError
  | raised (e : Exn)

section Paths

/-- The last of a path of elements, each of them the only child with its tag. -/
def findSingle : List Str → Element → Option Element
  | [], _ => none
  | tag :: tags, parent =>
    match parent.findall tag with
    | [item] => if tags = [] then some item else findSingle tags item
    | _ => none

/-- Change the element that `findSingle` gives in place. -/
def inSingle : List Str → (Element → Element) → Element → Element
  | [], f, e => f e
  | tag :: tags, f, parent => parent.inEach tag (inSingle tags f)

/-- `_add_new_element` below the element that the path leads to. -/
def addLeaf (leaf : Str) (attribs : Dict Str Str) (allowMultiSameLeaf : Bool) :
    List Str → Element → Element
  | [], parent =>
    if allowMultiSameLeaf ∨ (parent.find leaf).isNone then
      parent.append (Element.update { tag := leaf } attribs)
    else parent.inFirst leaf (·.update attribs)
  | tag :: tags, parent =>
    if (parent.find tag).isSome then
      parent.inFirst tag (addLeaf leaf attribs allowMultiSameLeaf tags)
    else parent.append (addLeaf leaf attribs allowMultiSameLeaf tags { tag := tag })

/-- `_delete_element`, which goes down by the first child with each tag. -/
def deleteFirst : List Str → Element → Element
  | [], e => e
  | [tag], parent => { parent with children := parent.children.eraseP (·.tag = tag) }
  | tag :: tags, parent => parent.inFirst tag (deleteFirst tags)

end Paths

namespace VirtXml

def onTree (f : Element → Element) : Py VirtXml Unit := fun self =>
  match self.tree with
  | some root => (.ok (), { self with tree := some (f root) })
  | none => (.raised .attributeError, self)

theorem onTree_run {self : VirtXml} {root : Element} (h : self.tree = some root)
    (f : Element → Element) : onTree f self = (.ok (), { self with tree := some (f root) }) := by
  rw [onTree, h]

def root : Py VirtXml Element := fun self => (.ofOption .attributeError self.tree, self)

def findSingleElement (tagArr : List Str) : Py VirtXml (Option Element) := do
  let root ← root
  pure (findSingle tagArr root)

def getSingleElementValue (tagArr : List Str) : Py VirtXml (Option Str) := do
  let element ← findSingleElement tagArr
  pure (element.bind Element.text)

def setSingleElementValue (tagArr : List Str) (newValue : Option Str) : Py VirtXml Bool := do
  let element ← findSingleElement tagArr
  if element.isSome then
    onTree (inSingle tagArr (·.withText newValue))
    pure true
  else pure false

def addNewElement (tagArr : List Str) (attribs : Dict Str Str) (allowMultiSameLeaf : Bool) :
    Py VirtXml Unit :=
  match tagArr.getLast? with
  | none => .raise .assertionError
  | some leaf => onTree (addLeaf leaf attribs allowMultiSameLeaf tagArr.dropLast)

def deleteElement (tagArr : List Str) : Py VirtXml Unit :=
  if tagArr = [] then .raise .assertionError else onTree (deleteFirst tagArr)

def keep (property : Property) (value : Option Str) : Py VirtXml Unit :=
  .modify fun self => { self with cached := Function.update self.cached property value }

/-- `load` of a file that holds the tree, or is missing. -/
def load (file : Option Element) (filepath : Str) : Py VirtXml Bool :=
  match file with
  | none => pure false
  | some parsed => do
    .modify fun self => { self with tree := some parsed }
    keep .name (← getSingleElementValue Property.name.path)
    keep .uuid (← getSingleElementValue Property.uuid.path)
    keep .kernel (← getSingleElementValue Property.kernel.path)
    keep .cmdline (← getSingleElementValue Property.cmdline.path)
    keep .vcpu (← getSingleElementValue Property.vcpu.path)
    keep .memory (← getSingleElementValue Property.memory.path)
    keep .loader (← getSingleElementValue Property.loader.path)
    let driver ← .lift (.ofOption .attributeError
      (findSingle ["devices".toList, "disk".toList, "driver".toList] parsed))
    .modify fun self =>
      { self with io := get? driver.attrib "io".toList, cache := get? driver.attrib "cache".toList }
    let image ← .lift (.ofOption .attributeError
      (findSingle ["devices".toList, "disk".toList, "source".toList] parsed))
    .modify fun self =>
      { self with imagefile := get? image.attrib "file".toList, filepath := some filepath }
    pure true

section Saved

variable (saving : Element → Str → Saving)

def save (filepath : Option Str) : Py VirtXml Bool := do
  let root ← root
  let self ← .get
  match filepath.or self.filepath with
  | none => .raise .typeError
  | some filepath =>
    match saving root filepath with
    | .saved => do
      .modify fun self => { self with filepath := some filepath }
      pure true
    | .ioError => pure false
    | .raised e => .raise e

/-- The tree and the copies are as before. -/
def Same (s s' : VirtXml) : Prop := s'.tree = s.tree ∧ s'.cached = s.cached

omit saving in
theorem Same.trans {s t u : VirtXml} (h : Same s t) (h' : Same t u) : Same s u :=
  ⟨h'.1.trans h.1, h'.2.trans h.2⟩

theorem save_keeps (filepath : Option Str) : Py.Keeps Same (save saving filepath) := by
  have hroot : Py.Keeps Same root := fun s => ⟨rfl, rfl⟩
  have hget : Py.Keeps Same (Py.get : Py VirtXml VirtXml) := fun s => ⟨rfl, rfl⟩
  refine Py.Keeps.bind (R := Same) Same.trans hroot fun root =>
    Py.Keeps.bind (R := Same) Same.trans hget fun self => ?_
  cases filepath.or self.filepath with
  | none => exact fun s => ⟨rfl, rfl⟩
  | some path =>
    dsimp only
    cases saving root path with
    | saved => exact fun s => ⟨rfl, rfl⟩
    | ioError => exact fun s => ⟨rfl, rfl⟩
    | raised e => exact fun s => ⟨rfl, rfl⟩

/-- The setters for the text of an element that is there. -/
def setText (property : Property) (newValue : Str) : Py VirtXml Unit := do
  let self ← .get
  if self.cached property = some newValue then pure ()
  else do
    if ← setSingleElementValue property.path (some newValue) then keep property (some newValue)
    let _ ← save saving none
    pure ()

def setName (newName : Str) : Py VirtXml Unit := setText saving .name newName

def setUuid (newUuid : Str) : Py VirtXml Unit := setText saving .uuid newUuid

def setLoader (newLoader : Str) : Py VirtXml Unit := setText saving .loader newLoader

def setMemory (newMemory : MemorySize) : Py VirtXml Unit := setText saving .memory newMemory.toText

/-- The setters that delete the element when they are given `None`. -/
def setOptional (property : Property) (newValue : Option Str) : Py VirtXml Unit := do
  let self ← .get
  if self.cached property = newValue then pure ()
  else do
    match newValue with
    | none => do
      deleteElement property.path
      keep property none
    | some value =>
      if ← setSingleElementValue property.path (some value) then keep property (some value)
    let _ ← save saving none
    pure ()

def setKernel (newKernel : Option Str) : Py VirtXml Unit := setOptional saving .kernel newKernel

def setCmdline (newCmdline : Option Str) : Py VirtXml Unit := setOptional saving .cmdline newCmdline

def setVcpu (newVcpu : VcpuNumber) : Py VirtXml Unit := do
  let self ← .get
  if self.cached .vcpu = some newVcpu.toText then pure ()
  else
    if ← setSingleElementValue Property.vcpu.path (some newVcpu.toText) then
      keep .vcpu (some newVcpu.toText)
      let _ ← save saving none
      pure ()
    else pure ()

/-- The loop of `bind_cpuids` over the ids behind the first. -/
def bindVcpus : Nat → List Nat → Py VirtXml Unit
  | _, [] => pure ()
  | vcpuId, cpuId :: rest => do
    addNewElement ["cputune".toList, "vcpupin".toList]
      [("vcpu".toList, decimal vcpuId), ("cpuset".toList, decimal cpuId)] true
    bindVcpus (vcpuId + 1) rest

def bindCpuids (cpuIds : List Nat) : Py VirtXml Unit :=
  match cpuIds with
  | first :: second :: rest => do
    addNewElement ["cputune".toList, "iothreadpin".toList]
      [("iothread".toList, "1".toList), ("cpuset".toList, decimal first)] true
    bindVcpus 0 (second :: rest)
    let _ ← save saving none
    pure ()
  | _ => .raise .assertionError

end Saved

section Assignments

variable (saving : Element → Str → Saving)

def assign : Assignment → Py VirtXml Unit
  | .name v => setName saving v
  | .uuid v => setUuid saving v
  | .kernel v => setKernel saving v
  | .cmdline v => setCmdline saving v
  | .loader v => setLoader saving v
  | .memory v => setMemory saving v
  | .vcpu v => setVcpu saving v

/-- The object after some assignments, whether they raise or not. -/
def assignAll : List Assignment → VirtXml → VirtXml
  | [], self => self
  | a :: rest, self => assignAll rest (assign saving a self).2

end Assignments

end VirtXml

end TdxTools.CloudStack.DomainXml
