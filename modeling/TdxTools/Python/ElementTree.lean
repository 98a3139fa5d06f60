import TdxTools.Python.Dictionary
import TdxTools.Python.Text

namespace TdxTools.Python.ElementTree

open Text Dictionary

/-- An element of a document tree; the tail is the text behind its end. -/
structure Element where
  tag : Str
  attrib : Dict Str Str := []
  text : Option Str := none
  tail : Option Str := none
  children : List Element := []

namespace Element

variable (tag : Str) (self : Element)

/-- The first child with the tag. -/
def find : Option Element := self.children.find? (·.tag = tag)

def findall : List Element := self.children.filter (·.tag = tag)

def append (child : Element) : Element := { self with children := self.children ++ [child] }

def update (items : Dict Str Str) : Element :=
  { self with attrib := items.foldl (fun attrib item => set attrib item.1 item.2) self.attrib }

def withText (newText : Option Str) : Element := { self with text := newText }

/-- Change a first element in place. -/
def changeFirst (f : Element → Element) : List Element → List Element
  | [] => []
  | child :: rest => if child.tag = tag then f child :: rest else child :: changeFirst f rest

/-- Change the first child with the tag in place. -/
def inFirst (f : Element → Element) : Element :=
  { self with children := changeFirst tag f self.children }

/-- Change the children with the tag in place. -/
def inEach (f : Element → Element) : Element :=
  { self with children := self.children.map fun child => if child.tag = tag then f child else child }

section Find

variable {tag : Str} {self : Element} {f : Element → Element}

theorem find_eq_head : self.find tag = (self.findall tag).head? := List.head?_filter.symm

@[simp] theorem tag_append (child : Element) : (self.append child).tag = self.tag := rfl

@[simp] theorem tag_update (items : Dict Str Str) : (self.update items).tag = self.tag := rfl

theorem findall_append (child : Element) (other : Str) : (self.append child).findall other =
    self.findall other ++ if child.tag = other then [child] else [] := by
  rw [findall, append, List.filter_append, findall]
  by_cases h : child.tag = other
  · simp [h]
  · simp [h]

theorem filter_changeFirst (hf : ∀ e, (f e).tag = e.tag) (children : List Element) :
    (changeFirst tag f children).filter (·.tag = tag) =
      changeFirst tag f (children.filter (·.tag = tag)) := by
  induction children with
  | nil => rfl
  | cons child rest ih =>
    by_cases h : child.tag = tag
    · simp [changeFirst, h, hf]
    · simp [changeFirst, h, ih]

/-- The first of the found elements is changed. -/
theorem findall_inFirst (hf : ∀ e, (f e).tag = e.tag) {child : Element} {rest : List Element}
    (h : self.findall tag = child :: rest) : (self.inFirst tag f).findall tag = f child :: rest := by
  have hchild : child.tag = tag := by
    have hmem : child ∈ self.findall tag := by simp [h]
    simpa using (List.mem_filter.mp hmem).2
  rw [findall] at h
  rw [findall, inFirst, filter_changeFirst hf, h, changeFirst, if_pos hchild]

end Find

end Element

end TdxTools.Python.ElementTree
