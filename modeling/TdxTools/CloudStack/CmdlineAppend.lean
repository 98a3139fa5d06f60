import TdxTools.CloudStack.CmdlineFields

namespace TdxTools.CloudStack.CmdlineAppend

open Python.Text Python.Fields VmGuest

/-- Some distinct fields, none of them empty or with a blank in it. -/
structure FieldList where
  texts : List Str
  text_ne : ∀ f ∈ texts, f ≠ []
  no_blank : ∀ f ∈ texts, ' ' ∉ f
  nodup : texts.Nodup

namespace FieldList

variable (l : FieldList)

/-- The fields with single blanks between them. -/
def value : Str := [' '].intercalate l.texts

theorem split_value (h : l.texts ≠ []) : l.value.splitOn ' ' = l.texts :=
  List.splitOn_intercalate ' ' l.no_blank h

theorem fields_value : fields l.value = l.texts := fields_intercalate l.text_ne l.no_blank

end FieldList

section Loop

variable (self : KernelCmdline) (l : FieldList)

/-- The command line with the whole value behind it. -/
def appended : KernelCmdline := { cmdline := self.cmdline ++ " ".toList ++ l.value }

/-- The fields that are not there yet come behind the ones of before, and the
same value adds nothing a second time. -/
def AddsMissing : Prop :=
  fields (self.iadd l.value).cmdline =
      fields self.cmdline ++ l.texts.filter (· ∉ fields self.cmdline) ∧
    fields ((self.iadd l.value).iadd l.value).cmdline = fields (self.iadd l.value).cmdline ∧
    (l.texts ≠ [] → (self.iadd l.value).iadd l.value = self.iadd l.value)

/-- The test of the loop finds each field of the list. -/
def FindsAll : Prop := ∀ f ∈ l.texts, f ∈ self.items

/-- All fields are there, and the test finds them, or none is, and the test
finds all behind the command line. -/
def AllOrNone : Prop :=
  (FindsAll self l ∧ ∀ f ∈ l.texts, f ∈ fields self.cmdline) ∨
    (¬ FindsAll self l ∧ (∀ f ∈ l.texts, f ∉ fields self.cmdline) ∧ FindsAll (appended self l) l)

instance : Decidable (FindsAll self l) := List.decidableBAll _ _

instance : Decidable (AllOrNone self l) := inferInstanceAs (Decidable (_ ∨ _))

theorem fields_appended : fields (appended self l).cmdline = fields self.cmdline ++ l.texts := by
  rw [appended, List.append_assoc]
  exact (fields_cons _ _).trans (congrArg _ l.fields_value)

variable {self l}

theorem iaddFrom_found {rest : List Str} (h : ∀ f ∈ rest, f ∈ self.items) :
    KernelCmdline.iaddFrom l.value rest self = self := by
  induction rest with
  | nil => rfl
  | cons item rest ih =>
    rw [KernelCmdline.iaddFrom, if_pos (h item List.mem_cons_self)]
    exact ih fun f hf => h f (List.mem_cons_of_mem _ hf)

/-- The first field that is not found brings the whole value. -/
theorem iaddFrom_missing {rest : List Str} (h : ¬ ∀ f ∈ rest, f ∈ self.items) :
    ∃ later, later <:+ rest ∧ KernelCmdline.iaddFrom l.value rest self =
      KernelCmdline.iaddFrom l.value later (appended self l) := by
  induction rest with
  | nil => exact absurd (fun f hf => absurd hf List.not_mem_nil) h
  | cons item rest ih =>
    by_cases hitem : item ∈ self.items
    · have hrest : ¬ ∀ f ∈ rest, f ∈ self.items :=
        fun hall => h (List.forall_mem_cons.mpr ⟨hitem, hall⟩)
      obtain ⟨later, hlater, hrun⟩ := ih hrest
      refine ⟨later, hlater.trans (List.suffix_cons _ _), ?_⟩
      rw [KernelCmdline.iaddFrom, if_pos hitem, hrun]
    · refine ⟨rest, List.suffix_cons _ _, ?_⟩
      rw [KernelCmdline.iaddFrom, if_neg hitem]
      rfl

theorem fields_iaddFrom (rest : List Str) :
    fields self.cmdline <+: fields (KernelCmdline.iaddFrom l.value rest self).cmdline := by
  induction rest generalizing self with
  | nil => exact List.prefix_refl _
  | cons item rest ih =>
    rw [KernelCmdline.iaddFrom]
    split
    · exact ih
    · have happended : fields self.cmdline <+: fields (appended self l).cmdline := by
        rw [fields_appended]
        exact List.prefix_append _ _
      exact happended.trans ih

theorem iadd_found (h : FindsAll self l) (hne : l.texts ≠ []) : self.iadd l.value = self := by
  rw [KernelCmdline.iadd, l.split_value hne]
  exact iaddFrom_found h

theorem iadd_missing (h : ¬ FindsAll self l) : ∃ later, later <:+ l.texts ∧
    self.iadd l.value = KernelCmdline.iaddFrom l.value later (appended self l) := by
  have hne : l.texts ≠ [] := by
    intro hnil
    rw [FindsAll, hnil] at h
    exact h fun f hf => absurd hf List.not_mem_nil
  rw [KernelCmdline.iadd, l.split_value hne]
  exact iaddFrom_missing h

/-- A field that is not found makes the command line longer by the whole value. -/
theorem fields_iadd_missing (h : ¬ FindsAll self l) :
    fields self.cmdline ++ l.texts <+: fields (self.iadd l.value).cmdline := by
  obtain ⟨later, -, hrun⟩ := iadd_missing h
  rw [hrun, ← fields_appended]
  exact fields_iaddFrom later

theorem iadd_nil (h : l.texts = []) : fields (self.iadd l.value).cmdline = fields self.cmdline := by
  have hvalue : l.value = [] := by rw [FieldList.value, h]; rfl
  have hadd : fields (self.cmdline ++ ' ' :: []) = fields self.cmdline := by
    rw [fields_cons, fields_nil, List.append_nil]
  rw [hvalue, KernelCmdline.iadd]
  by_cases hempty : ([] : Str) ∈ self.items
  · simp [KernelCmdline.iaddFrom, hempty]
  · simpa [KernelCmdline.iaddFrom, hempty] using hadd

theorem addsMissing_of_allOrNone (h : AllOrNone self l) : AddsMissing self l := by
  by_cases hne : l.texts = []
  · refine ⟨?_, iadd_nil hne, fun hsome => absurd hne hsome⟩
    rw [iadd_nil hne, hne]
    simp
  · rcases h with ⟨hfound, hthere⟩ | ⟨hmissing, hnone, hfound⟩
    · have hfilter : l.texts.filter (· ∉ fields self.cmdline) = [] :=
        List.filter_eq_nil_iff.mpr fun f hf => by simpa using hthere f hf
      have hadd := iadd_found hfound hne
      refine ⟨?_, ?_, fun _ => ?_⟩
      · rw [hadd, hfilter, List.append_nil]
      · rw [hadd, hadd]
      · rw [hadd, hadd]
    · have hfilter : l.texts.filter (· ∉ fields self.cmdline) = l.texts :=
        List.filter_eq_self.mpr fun f hf => by simpa using hnone f hf
      have hadd : self.iadd l.value = appended self l := by
        obtain ⟨later, hlater, hrun⟩ := iadd_missing hmissing
        rw [hrun]
        exact iaddFrom_found fun f hf => hfound f (hlater.subset hf)
      have hagain := iadd_found hfound hne
      refine ⟨?_, ?_, fun _ => ?_⟩
      · rw [hadd, fields_appended, hfilter]
      · rw [hadd, hagain]
      · rw [hadd, hagain]

theorem allOrNone_of_addsMissing (h : AddsMissing self l) : AllOrNone self l := by
  obtain ⟨hfields, -, hagain⟩ := h
  by_cases hfound : FindsAll self l
  · by_cases hne : l.texts = []
    · exact Or.inl ⟨hfound, by simp [hne]⟩
    · rw [iadd_found hfound hne] at hfields
      have hfilter := List.filter_eq_nil_iff.mp (List.self_eq_append_right.mp hfields)
      exact Or.inl ⟨hfound, fun f hf => by simpa using hfilter f hf⟩
  · have hne : l.texts ≠ [] := fun hnil => hfound (by simp [FindsAll, hnil])
    have hlonger := fields_iadd_missing hfound
    rw [hfields, List.prefix_append_right_inj] at hlonger
    have hfilter := (List.filter_sublist (p := (· ∉ fields self.cmdline))).eq_of_length_le
      hlonger.length_le
    refine Or.inr ⟨hfound, fun f hf => by simpa using List.filter_eq_self.mp hfilter f hf, ?_⟩
    have hshort : ∀ gs : List Str, ¬ gs ++ l.texts <+: gs := by
      intro gs hgs
      have hlen := hgs.length_le
      rw [List.length_append] at hlen
      exact hne (List.length_eq_zero_iff.mp (by omega))
    have hadd : self.iadd l.value = appended self l := by
      obtain ⟨later, -, hrun⟩ := iadd_missing hfound
      rw [hfilter, ← fields_appended, hrun] at hfields
      by_cases hlater : ∀ f ∈ later, f ∈ (appended self l).items
      · rw [hrun, iaddFrom_found hlater]
      · obtain ⟨last, -, htwice⟩ := iaddFrom_missing hlater
        have hlonger : fields (appended (appended self l) l).cmdline <+:
            fields (KernelCmdline.iaddFrom l.value last (appended (appended self l) l)).cmdline :=
          fields_iaddFrom last
        rw [← htwice, hfields, fields_appended (appended self l)] at hlonger
        exact absurd hlonger (hshort _)
    by_contra hlater
    have htwice := fields_iadd_missing hlater
    have hsame := hagain hne
    rw [hadd] at hsame
    rw [hsame] at htwice
    exact hshort _ htwice

end Loop

section Plain

/-- The only white space of the text are blanks. -/
def Plain (s : Str) : Prop := ∀ c ∈ s, isWhitespace c = true → c = ' '

theorem Plain.append {s t : Str} (hs : Plain s) (ht : Plain t) : Plain (s ++ ' ' :: t) := by
  intro c hc hspace
  rcases List.mem_append.mp hc with hc | hc
  · exact hs c hc hspace
  · rcases List.mem_cons.mp hc with hc | hc
    · exact hc
    · exact ht c hc hspace

theorem fields_dropWhile {s : Str} (h : Plain s) : fields (s.dropWhile isWhitespace) = fields s := by
  induction s with
  | nil => rfl
  | cons c s ih =>
    by_cases hc : isWhitespace c = true
    · have hrest : Plain s := fun d hd => h d (List.mem_cons_of_mem _ hd)
      obtain rfl := h c List.mem_cons_self hc
      rw [List.dropWhile_cons_of_pos hc, ih hrest]
      exact (fields_cons [] s).symm
    · rw [List.dropWhile_cons_of_neg hc]

theorem fields_reverse (s : Str) : fields s.reverse = ((fields s).map List.reverse).reverse := by
  have hone : ∀ a : Str, ' ' ∉ a → fields a.reverse = ((fields a).map List.reverse).reverse := by
    intro a ha
    rw [fields_single ha, fields_single (mt List.mem_reverse.mp ha)]
    by_cases hnil : a = []
    · simp [hnil]
    · simp [hnil]
  induction s using piece_induction with
  | single a ha => exact hone a ha
  | cons a b ha ih =>
    rw [List.reverse_append, List.reverse_cons, List.append_assoc, List.singleton_append,
      fields_cons, fields_cons, ih, hone a ha, List.map_append, List.reverse_append]

theorem fields_strip {s : Str} (h : Plain s) : fields (stripBy isWhitespace s) = fields s := by
  have hdrop : Plain (s.dropWhile isWhitespace).reverse := by
    intro c hc
    exact h c ((List.dropWhile_sublist _).subset (List.mem_reverse.mp hc))
  rw [stripBy, fields_reverse, fields_dropWhile hdrop, fields_reverse, fields_dropWhile h]
  simp

variable {self : KernelCmdline} {l : FieldList}

theorem findsAll_iff (h : Plain self.cmdline) :
    FindsAll self l ↔ ∀ f ∈ l.texts, f ∈ fields self.cmdline := by
  apply forall₂_congr
  intro f hf
  rw [← fields_strip h, fields, List.mem_filter, KernelCmdline.items]
  simp [l.text_ne f hf]

theorem allOrNone_iff (h : Plain self.cmdline) (hl : Plain l.value) : AllOrNone self l ↔
    (∀ f ∈ l.texts, f ∈ fields self.cmdline) ∨ ∀ f ∈ l.texts, f ∉ fields self.cmdline := by
  have happended : Plain (appended self l).cmdline := by
    rw [appended, List.append_assoc]
    exact h.append hl
  have hbehind : FindsAll (appended self l) l := by
    rw [findsAll_iff happended, fields_appended]
    exact fun f hf => List.mem_append_right _ hf
  rw [AllOrNone, findsAll_iff h, and_self, and_iff_left hbehind]
  by_cases hall : ∀ f ∈ l.texts, f ∈ fields self.cmdline
  · exact iff_of_true (Or.inl hall) (Or.inl hall)
  · rw [or_iff_right hall, or_iff_right hall, and_iff_right hall]

end Plain

/-- Appending adds just the missing fields if all of them are missing, or none. -/
theorem adds_missing_iff (self : KernelCmdline) (l : FieldList) :
    (AddsMissing self l ↔ AllOrNone self l) ∧
      (Plain self.cmdline → Plain l.value → (AddsMissing self l ↔
        (∀ f ∈ l.texts, f ∈ fields self.cmdline) ∨ ∀ f ∈ l.texts, f ∉ fields self.cmdline)) := by
  have hadds : AddsMissing self l ↔ AllOrNone self l :=
    ⟨allOrNone_of_addsMissing, addsMissing_of_allOrNone⟩
  refine ⟨hadds, fun h hl => ?_⟩
  rw [hadds, allOrNone_iff h hl]

def quietAndRo : FieldList where
  texts := ["quiet".toList, "ro".toList]
  text_ne := by decide
  no_blank := by decide
  nodup := by decide

/-- The field that is there already comes a second time with the one that is not. -/
theorem quiet_twice :
    let self : KernelCmdline := ⟨"rw quiet".toList⟩
    quietAndRo.value = "quiet ro".toList ∧
      fields (self.iadd quietAndRo.value).cmdline =
        ["rw".toList, "quiet".toList, "quiet".toList, "ro".toList] ∧
      ¬ AddsMissing self quietAndRo := by
  intro self
  have hfields : fields (self.iadd quietAndRo.value).cmdline =
      ["rw".toList, "quiet".toList, "quiet".toList, "ro".toList] := by decide +kernel
  refine ⟨by decide +kernel, hfields, fun h => ?_⟩
  have hone := h.1
  rw [hfields] at hone
  revert hone
  decide +kernel

end TdxTools.CloudStack.CmdlineAppend
