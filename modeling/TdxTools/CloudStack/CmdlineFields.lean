import TdxTools.CloudStack.VmGuest
import TdxTools.Python.Fields

namespace TdxTools.CloudStack.CmdlineFields

open Python.Text Python.Fields VmGuest

/-- A field: some characters, none of them white space. -/
structure Field where
  text : Str
  text_ne : text ≠ []
  no_space : ∀ c ∈ text, isWhitespace c = false

namespace Field

variable (f : Field)

theorem blank_not_mem : ' ' ∉ f.text := fun h => absurd (f.no_space ' ' h) (by decide)

theorem strip_text : stripBy isWhitespace f.text = f.text :=
  stripBy_of_ends _ _ (fun c hc => f.no_space c (List.mem_of_mem_head? hc))
    (fun c hc => f.no_space c (List.mem_of_mem_getLast? hc))

theorem fields_text : fields f.text = [f.text] := by
  rw [fields_single f.blank_not_mem, List.filter_cons_of_pos (by simpa using f.text_ne)]
  rfl

end Field

section Laws

variable (self : KernelCmdline) (f : Field)

def Presence : Prop := self.isFieldExists f.text = true ↔ f.text ∈ fields self.cmdline

/-- The field is there afterwards, once if it is new, behind the fields of before. -/
def Addition : Prop := fields (self.addFieldFromString f.text).cmdline =
  if f.text ∈ fields self.cmdline then fields self.cmdline else fields self.cmdline ++ [f.text]

/-- The field is gone afterwards, and the others stand as before. -/
def Removal : Prop := fields (self.removeFieldFromString f.text).cmdline =
  (fields self.cmdline).filter (· ≠ f.text)

/-- The text of the field occurs as a field, or does not occur at all. -/
def FieldOrNothing : Prop := ∀ g ∈ fields self.cmdline, f.text <:+: g → f.text ∈ fields self.cmdline

/-- Each field in which the text of the field occurs is the field. -/
def OnlyField : Prop := ∀ g ∈ fields self.cmdline, f.text <:+: g → g = f.text

variable {self f}

theorem OnlyField.fieldOrNothing (h : OnlyField self f) : FieldOrNothing self f := by
  intro g hg hin
  rw [← h g hg hin]
  exact hg

theorem isFieldExists_iff :
    self.isFieldExists f.text = true ↔ ∃ g ∈ fields self.cmdline, f.text <:+: g := by
  rw [KernelCmdline.isFieldExists, f.strip_text, decide_eq_true_iff,
    infix_iff f.blank_not_mem f.text_ne]

theorem exists_of_mem (h : f.text ∈ fields self.cmdline) : self.isFieldExists f.text = true :=
  isFieldExists_iff.mpr ⟨_, h, List.infix_refl _⟩

theorem presence_iff : Presence self f ↔ FieldOrNothing self f := by
  rw [Presence, isFieldExists_iff]
  constructor
  · exact fun h g hg hin => h.mp ⟨g, hg, hin⟩
  · intro h
    refine ⟨?_, fun hmem => ⟨_, hmem, List.infix_refl _⟩⟩
    rintro ⟨g, hg, hin⟩
    exact h g hg hin

theorem fields_add (h : self.isFieldExists f.text = false) :
    fields (self.addFieldFromString f.text).cmdline = fields self.cmdline ++ [f.text] := by
  rw [KernelCmdline.addFieldFromString, if_neg (by simp [h]), List.append_assoc]
  exact (fields_cons _ _).trans (congrArg _ f.fields_text)

theorem addition_iff : Addition self f ↔ FieldOrNothing self f := by
  rw [← presence_iff, Addition, Presence]
  cases h : self.isFieldExists f.text with
  | false =>
    have hmem : f.text ∉ fields self.cmdline := fun hm => by
      rw [exists_of_mem hm] at h
      cases h
    rw [fields_add h, if_neg hmem]
    simp [hmem]
  | true =>
    rw [KernelCmdline.addFieldFromString, if_pos h]
    by_cases hmem : f.text ∈ fields self.cmdline
    · simp [hmem]
    · simp [hmem]

theorem removal_iff : Removal self f ↔ OnlyField self f := by
  rw [Removal, KernelCmdline.removeFieldFromString, f.strip_text]
  exact fields_remove_iff f.text_ne f.blank_not_mem self.cmdline

end Laws

/-- The operations are about whole fields just if the text of the field occurs
nowhere but as that field; presence and addition ask for less. -/
theorem whole_fields_iff (self : KernelCmdline) (f : Field) :
    (Presence self f ∧ Addition self f ∧ Removal self f ↔ OnlyField self f) ∧
      (Presence self f ↔ FieldOrNothing self f) ∧ (Addition self f ↔ FieldOrNothing self f) := by
  refine ⟨?_, presence_iff, addition_iff⟩
  rw [presence_iff, addition_iff, removal_iff]
  exact ⟨fun h => h.2.2, fun h => ⟨h.fieldOrNothing, h.fieldOrNothing, h⟩⟩

def vda1 : Field where
  text := "root=/dev/vda1".toList
  text_ne := by decide
  no_space := by
    have hall : ("root=/dev/vda1".toList.all fun c => !isWhitespace c) = true := by decide +kernel
    simpa using List.all_eq_true.mp hall

/-- The root field of another partition passes for it, and is cut. -/
theorem vda10_not_whole :
    let self : KernelCmdline := ⟨"rw root=/dev/vda10 quiet".toList⟩
    self.isFieldExists vda1.text = true ∧ vda1.text ∉ fields self.cmdline ∧
      self.addFieldFromString vda1.text = self ∧
      fields (self.removeFieldFromString vda1.text).cmdline =
        ["rw".toList, "0".toList, "quiet".toList] ∧
      ¬ (Presence self vda1 ∧ Addition self vda1 ∧ Removal self vda1) := by
  intro self
  have hexists : self.isFieldExists vda1.text = true := by decide +kernel
  have hmem : vda1.text ∉ fields self.cmdline := by decide +kernel
  refine ⟨hexists, hmem, by decide +kernel, by decide +kernel, ?_⟩
  exact fun h => hmem (h.1.mp hexists)

end TdxTools.CloudStack.CmdlineFields
