import TdxTools.CloudStack.CmdlineFields

namespace TdxTools.CloudStack.CmdlineKeys

open Python.Text Python.Fields VmGuest CmdlineFields

/-- A key: a field with no `=` in it. -/
structure Key extends Field where
  no_equals : '=' ∉ text

structure Value where
  text : Str
  no_space : ∀ c ∈ text, isWhitespace c = false

/-- The field that `add_field` makes of a key and a value. -/
def Key.assign (k : Key) (v : Value) : Field where
  text := k.text ++ '=' :: v.text
  text_ne := by simp
  no_space := by
    intro c hc
    rcases List.mem_append.mp hc with hc | hc
    · exact k.no_space c hc
    · rcases List.mem_cons.mp hc with hc | hc
      · rw [hc]
        decide
      · exact v.no_space c hc

/-- The command line with these fields and single blanks between them. -/
def line (fs : List Field) : KernelCmdline := { cmdline := [' '].intercalate (fs.map Field.text) }

/-- The key is gone and the other fields stay; with a new field for the key its
value is read back, and the values of the other keys are as they were. -/
def KeyLaws (self : KernelCmdline) (k : Key) (v : Value) : Prop :=
  let removed := self.removeFields k.text
  let added := removed.addField k.text (some v.text)
  k.text ∉ removed.fieldKeys ∧
    fields removed.cmdline =
      (fields self.cmdline).filter (KernelCmdline.itemKey · ≠ k.text) ∧
    added.getValue k.text = some v.text ∧
    ∀ other, other ≠ k.text → added.getValue other = self.getValue other

section Items

/-- What a text of these fields is split into; no field at all is one empty piece. -/
def pieces (fs : List Field) : List Str := if fs = [] then [[]] else fs.map Field.text

theorem fields_line (fs : List Field) : fields (line fs).cmdline = fs.map Field.text := by
  apply fields_intercalate
  · intro g hg
    obtain ⟨f, -, rfl⟩ := List.mem_map.mp hg
    exact f.text_ne
  · intro g hg
    obtain ⟨f, -, rfl⟩ := List.mem_map.mp hg
    exact f.blank_not_mem

theorem head_line (fs : List Field) : ∀ c ∈ (line fs).cmdline.head?, isWhitespace c = false := by
  cases fs with
  | nil => simp [line]
  | cons f fs =>
    intro c hc
    obtain ⟨d, t, ht⟩ := List.exists_cons_of_ne_nil f.text_ne
    have hd : isWhitespace d = false := f.no_space d (by simp [ht])
    cases fs with
    | nil => simp_all [line]
    | cons g fs => simp_all [line]

theorem last_line (fs : List Field) : ∀ c ∈ (line fs).cmdline.getLast?, isWhitespace c = false := by
  induction fs with
  | nil => simp [line]
  | cons f fs ih =>
    cases fs with
    | nil =>
      intro c hc
      apply f.no_space c
      simpa [line] using List.mem_of_mem_getLast? hc
    | cons g fs =>
      have hne : (line (g :: fs)).cmdline ≠ [] := by
        intro hnil
        have hfields := fields_line (g :: fs)
        rw [hnil, fields_nil] at hfields
        cases hfields
      have happend : (line (f :: g :: fs)).cmdline = f.text ++ [' '] ++ (line (g :: fs)).cmdline := by
        simp [line]
      rw [happend, List.getLast?_append_of_ne_nil _ hne]
      exact ih

theorem items_line (fs : List Field) : (line fs).items = pieces fs := by
  rw [KernelCmdline.items, stripBy_of_ends _ _ (head_line fs) (last_line fs), pieces]
  split
  · next h =>
    rw [h]
    rfl
  · next h =>
    apply List.splitOn_intercalate
    · intro g hg
      obtain ⟨f, -, rfl⟩ := List.mem_map.mp hg
      exact f.blank_not_mem
    · simpa using h

theorem items_blank (s : Str) :
    KernelCmdline.items { cmdline := ' ' :: s } = KernelCmdline.items { cmdline := s } := rfl

theorem flatMap_blank (f : Field) (fs : List Field) :
    ((f :: fs).map Field.text).flatMap (' ' :: ·) = ' ' :: (line (f :: fs)).cmdline := by
  induction fs generalizing f with
  | nil => simp [line]
  | cons g fs ih =>
    have happend : (line (f :: g :: fs)).cmdline = f.text ++ ' ' :: (line (g :: fs)).cmdline := by
      simp [line]
    rw [List.map_cons, List.flatMap_cons, ih, happend]
    rfl

end Items

section Values

theorem itemKey_assign (k : Key) (v : Value) : KernelCmdline.itemKey (k.assign v).text = k.text := by
  rw [KernelCmdline.itemKey, Key.assign, List.splitOn_append_cons_self_of_not_mem k.no_equals]
  rfl

/-- The value that is read is what stands before the first `=` of it. -/
theorem getValueFrom_assign (k : Key) (v : Value) :
    KernelCmdline.getValueFrom k.text [(k.assign v).text] = (v.text.splitOn '=').head? := by
  have hsplit : (k.assign v).text.splitOn '=' = k.text :: v.text.splitOn '=' :=
    List.splitOn_append_cons_self_of_not_mem k.no_equals _
  have hlen : 1 < (k.text :: v.text.splitOn '=').length := by
    rw [List.length_cons]
    have hpos := List.length_pos_iff.mpr (List.splitOn_ne_nil '=' v.text)
    omega
  rw [KernelCmdline.getValueFrom, hsplit, if_pos ⟨rfl, hlen⟩, List.getElem?_cons_succ,
    List.head?_eq_getElem?]

theorem head_split_iff (s : Str) : (s.splitOn '=').head? = some s ↔ '=' ∉ s := by
  constructor
  · intro h hmem
    obtain ⟨a, b, rfl, ha⟩ := List.eq_append_cons_of_mem hmem
    rw [List.splitOn_append_cons_self_of_not_mem ha, List.head?_cons] at h
    have hlen := congrArg List.length (Option.some.inj h)
    rw [List.length_append, List.length_cons] at hlen
    omega
  · intro h
    rw [List.splitOn_eq_singleton h]
    rfl

theorem getValueFrom_append {key : Str} {xs : List Str}
    (h : ∀ x ∈ xs, KernelCmdline.itemKey x ≠ key) (ys : List Str) :
    KernelCmdline.getValueFrom key (xs ++ ys) = KernelCmdline.getValueFrom key ys := by
  induction xs with
  | nil => rfl
  | cons x xs ih =>
    have hx : ¬ ((x.splitOn '=').headD [] = key ∧ 1 < (x.splitOn '=').length) :=
      fun hboth => h x List.mem_cons_self hboth.1
    rw [List.cons_append, KernelCmdline.getValueFrom, if_neg hx]
    exact ih fun y hy => h y (List.mem_cons_of_mem _ hy)

/-- The items of one key do not tell what is read for another. -/
theorem getValueFrom_filter {key other : Str} (h : other ≠ key) (xs : List Str) :
    KernelCmdline.getValueFrom other (xs.filter (KernelCmdline.itemKey · ≠ key)) =
      KernelCmdline.getValueFrom other xs := by
  induction xs with
  | nil => rfl
  | cons x xs ih =>
    by_cases hx : KernelCmdline.itemKey x = key
    · have hskip : KernelCmdline.getValueFrom other ([x] ++ xs) =
          KernelCmdline.getValueFrom other xs :=
        getValueFrom_append (by simpa [hx] using h.symm) xs
      rw [List.filter_cons_of_neg (by simpa using hx), ih]
      exact hskip.symm
    · rw [List.filter_cons_of_pos (by simpa using hx), KernelCmdline.getValueFrom,
        KernelCmdline.getValueFrom, ih]

theorem getValueFrom_pieces (key : Str) (fs : List Field) :
    KernelCmdline.getValueFrom key (pieces fs) =
      KernelCmdline.getValueFrom key (fs.map Field.text) := by
  by_cases h : fs = []
  · rw [pieces, if_pos h, h]
    simp [KernelCmdline.getValueFrom]
  · rw [pieces, if_neg h]

end Values

section Removed

variable (fs : List Field) (k : Key) (v : Value)

/-- The fields of the other keys. -/
def others : List Field := fs.filter fun f => KernelCmdline.itemKey f.text ≠ k.text

theorem map_others : (others fs k).map Field.text =
    (fs.map Field.text).filter (KernelCmdline.itemKey · ≠ k.text) := by
  rw [List.filter_map]
  rfl

theorem itemKey_others {fs : List Field} {k : Key} :
    ∀ x ∈ (others fs k).map Field.text, KernelCmdline.itemKey x ≠ k.text := by
  intro x hx
  rw [map_others] at hx
  simpa using (List.mem_filter.mp hx).2

/-- What is left, apart from blanks in front of it. -/
theorem removeFields_line : ∃ n, (line fs).removeFields k.text =
    { cmdline := List.replicate n ' ' ++ (line (others fs k)).cmdline } := by
  rw [KernelCmdline.removeFields, k.strip_text, items_line]
  by_cases h : fs = []
  · have hkey : KernelCmdline.itemKey [] ≠ k.text := k.text_ne.symm
    refine ⟨1, ?_⟩
    rw [h, pieces, if_pos rfl, List.filter_cons_of_pos (by simpa using hkey)]
    rfl
  · rw [pieces, if_neg h, ← map_others]
    cases hothers : others fs k with
    | nil => exact ⟨0, rfl⟩
    | cons g gs => exact ⟨1, congrArg KernelCmdline.mk (flatMap_blank g gs)⟩

theorem items_replicate (n : Nat) (s : Str) :
    KernelCmdline.items { cmdline := List.replicate n ' ' ++ s } =
      KernelCmdline.items { cmdline := s } := by
  induction n with
  | zero => rfl
  | succ n ih => rw [List.replicate_succ, List.cons_append, items_blank, ih]

theorem fields_replicate (n : Nat) (s : Str) : fields (List.replicate n ' ' ++ s) = fields s := by
  induction n with
  | zero => rfl
  | succ n ih =>
    rw [List.replicate_succ, List.cons_append, ← ih]
    exact fields_cons [] _

theorem items_removed : ((line fs).removeFields k.text).items = pieces (others fs k) := by
  obtain ⟨n, hremoved⟩ := removeFields_line fs k
  rw [hremoved, items_replicate, ← items_line]

theorem line_append {gs : List Field} (h : gs ≠ []) (f : Field) :
    (line (gs ++ [f])).cmdline = (line gs).cmdline ++ ' ' :: f.text := by
  induction gs with
  | nil => exact absurd rfl h
  | cons g gs ih =>
    cases gs with
    | nil => simp [line]
    | cons g' gs =>
      have hrest := ih (List.cons_ne_nil _ _)
      simp only [line, List.cons_append, List.map_cons, List.intercalate_cons_cons] at hrest ⊢
      rw [hrest]
      simp

theorem items_added : (((line fs).removeFields k.text).addField k.text (some v.text)).items =
    (others fs k).map Field.text ++ [(k.assign v).text] := by
  have hend : (others fs k).map Field.text ++ [(k.assign v).text] =
      (line (others fs k ++ [k.assign v])).items := by
    rw [items_line, pieces, if_neg (by simp), List.map_append, List.map_singleton]
  have hbehind : KernelCmdline.items
      { cmdline := (line (others fs k)).cmdline ++ ' ' :: (k.assign v).text } =
        (line (others fs k ++ [k.assign v])).items := by
    by_cases hnil : others fs k = []
    · rw [hnil]
      simp [line, items_blank]
    · rw [← line_append hnil]
  obtain ⟨n, hremoved⟩ := removeFields_line fs k
  rw [hend, ← hbehind, hremoved, KernelCmdline.addField]
  simp only [List.append_assoc]
  rw [items_replicate]
  rfl

end Removed

/-- The laws hold just for the values with no `=` in them. -/
theorem key_laws_iff (fs : List Field) (k : Key) (v : Value) :
    KeyLaws (line fs) k v ↔ '=' ∉ v.text := by
  have hadded := items_added fs k v
  have hread : (((line fs).removeFields k.text).addField k.text (some v.text)).getValue k.text =
      (v.text.splitOn '=').head? := by
    rw [KernelCmdline.getValue, hadded, getValueFrom_append itemKey_others, getValueFrom_assign]
  rw [KeyLaws, hread, head_split_iff]
  refine ⟨fun h => h.2.2.1, fun h => ⟨?_, ?_, h, ?_⟩⟩
  · rw [KernelCmdline.fieldKeys, items_removed, pieces]
    split
    · simpa [KernelCmdline.itemKey] using k.text_ne
    · intro hmem
      obtain ⟨x, hx, hkey⟩ := List.mem_map.mp hmem
      exact itemKey_others x hx hkey
  · obtain ⟨n, hremoved⟩ := removeFields_line fs k
    rw [hremoved, fields_replicate, fields_line, fields_line, map_others]
  · intro other hother
    have hassign : KernelCmdline.itemKey (k.assign v).text = k.text := itemKey_assign k v
    have hkept : ((others fs k).map Field.text ++ [(k.assign v).text]).filter
        (KernelCmdline.itemKey · ≠ k.text) = (others fs k).map Field.text := by
      rw [List.filter_append, List.filter_cons_of_neg (by simpa using hassign), List.filter_nil,
        List.append_nil, List.filter_eq_self]
      exact fun x hx => decide_eq_true (itemKey_others x hx)
    rw [KernelCmdline.getValue, hadded, ← getValueFrom_filter hother, hkept, map_others,
      getValueFrom_filter hother, KernelCmdline.getValue, items_line, getValueFrom_pieces]

def root : Key where
  text := "root".toList
  text_ne := by decide
  no_space := by
    have hall : ("root".toList.all fun c => !isWhitespace c) = true := by decide +kernel
    simpa using List.all_eq_true.mp hall
  no_equals := by decide

def uuid : Value where
  text := "UUID=0a".toList
  no_space := by
    have hall : ("UUID=0a".toList.all fun c => !isWhitespace c) = true := by decide +kernel
    simpa using List.all_eq_true.mp hall

/-- Of a root by its identifier only the word `UUID` is read back. -/
theorem uuid_cut :
    let self := line [vda1]
    let added := (self.removeFields root.text).addField root.text (some uuid.text)
    self.cmdline = "root=/dev/vda1".toList ∧ added.cmdline = " root=UUID=0a".toList ∧
      added.getValue root.text = some "UUID".toList ∧ ¬ KeyLaws self root uuid := by
  intro self added
  have hread : added.getValue root.text = some "UUID".toList := by decide +kernel
  refine ⟨by decide +kernel, by decide +kernel, hread, fun h => ?_⟩
  have hvalue := h.2.2.1
  rw [hread] at hvalue
  revert hvalue
  decide +kernel

end TdxTools.CloudStack.CmdlineKeys
