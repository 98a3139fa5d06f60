import Mathlib.Data.List.Infix
import TdxTools.Python.ElementTree

namespace TdxTools.Python.TreePaths

open Text Dictionary ElementTree

/-- What is read of an element. -/
inductive Field
  | text
  | attrib (name : Str)
  deriving DecidableEq, Repr

def read : Field → Element → Option Str
  | .text, e => e.text
  | .attrib name, e => get? e.attrib name

/-- The element at a path that takes the first child with each tag. -/
def firstAt : List Str → Element → Option Element
  | [], e => some e
  | tag :: tags, e => (e.find tag).bind (firstAt tags)

structure Key where
  path : List Str
  field : Field
  deriving DecidableEq, Repr

/-- What a document says, by the first elements at the paths. -/
def view (root : Element) (k : Key) : Option Str := (firstAt k.path root).bind (read k.field)

/-- The elements with a tag below the first one at a path. -/
def leaves (above : List Str) (leaf : Str) (root : Element) : List Element :=
  ((firstAt above root).map (·.findall leaf)).getD []

/-- Each element on the way down the path is the only one with its tag, if it is there. -/
def Slim (path : List Str) (root : Element) : Prop :=
  ∀ above leaf, above ++ [leaf] <+: path → (leaves above leaf root).length ≤ 1

/-- Change the first element at a path in place. -/
def atFirst : List Str → (Element → Element) → Element → Element
  | [], f, e => f e
  | tag :: tags, f, e => e.inFirst tag (atFirst tags f)

/-- Append a child to the first element at a path, after making what is missing of the path. -/
def addBelow (new : Element) : List Str → Element → Element
  | [], e => e.append new
  | tag :: tags, e =>
    if (e.find tag).isSome then e.inFirst tag (addBelow new tags)
    else e.append (addBelow new tags { tag := tag })

section Children

variable {e c : Element} {tag other : Str} {f : Element → Element}

theorem find_append : (e.append c).find other =
    (e.find other).or (if c.tag = other then some c else none) := by
  rw [Element.find_eq_head, Element.findall_append, List.head?_append, Element.find_eq_head]
  split <;> rfl

theorem find_eq_none : e.find tag = none ↔ e.findall tag = [] := by
  rw [Element.find_eq_head, List.head?_eq_none_iff]

theorem findall_inFirst_other (hf : ∀ e, (f e).tag = e.tag) (h : other ≠ tag) :
    (e.inFirst tag f).findall other = e.findall other := by
  rw [Element.findall, Element.inFirst, Element.findall]
  induction e.children with
  | nil => rfl
  | cons child rest ih =>
    rw [Element.changeFirst]
    split
    · next htag =>
      have hne : ¬ child.tag = other := fun hc => h (hc.symm.trans htag)
      rw [List.filter_cons_of_neg (by simp [hf, hne]), List.filter_cons_of_neg (by simp [hne])]
    · by_cases hc : child.tag = other
      · rw [List.filter_cons_of_pos (by simp [hc]), List.filter_cons_of_pos (by simp [hc]), ih]
      · rw [List.filter_cons_of_neg (by simp [hc]), List.filter_cons_of_neg (by simp [hc]), ih]

/-- Only what is made of the first child matters. -/
theorem inFirst_congr {g : Element → Element} (h : e.find tag = some c) (hc : f c = g c) :
    e.inFirst tag f = e.inFirst tag g := by
  rw [Element.inFirst, Element.inFirst]
  apply congrArg (Element.mk e.tag e.attrib e.text e.tail)
  rw [Element.find] at h
  revert h
  induction e.children with
  | nil => exact fun _ => rfl
  | cons child rest ih =>
    intro h
    rw [Element.changeFirst, Element.changeFirst]
    by_cases htag : child.tag = tag
    · rw [List.find?_cons_of_pos (by simp [htag])] at h
      obtain rfl := Option.some.inj h
      rw [if_pos htag, if_pos htag, hc]
    · rw [List.find?_cons_of_neg (by simp [htag])] at h
      rw [if_neg htag, if_neg htag, ih h]

theorem findall_inFirst_self (hf : ∀ e, (f e).tag = e.tag) :
    (e.inFirst tag f).findall tag = (e.findall tag).modifyHead f := by
  cases hfind : e.findall tag with
  | nil =>
    rw [Element.findall, Element.inFirst, Element.filter_changeFirst hf]
    rw [Element.findall] at hfind
    rw [hfind]
    rfl
  | cons child rest => exact Element.findall_inFirst hf hfind

theorem find_inFirst (hf : ∀ e, (f e).tag = e.tag) :
    (e.inFirst tag f).find other = if other = tag then (e.find other).map f else e.find other := by
  by_cases h : other = tag
  · subst h
    rw [if_pos rfl, Element.find_eq_head, Element.find_eq_head, findall_inFirst_self hf]
    cases e.findall other <;> rfl
  · rw [if_neg h, Element.find_eq_head, findall_inFirst_other hf h, Element.find_eq_head]

end Children

section Paths

variable {root e : Element} {above path rest : List Str} {leaf : Str} {field : Field}

theorem firstAt_append (path rest : List Str) (root : Element) :
    firstAt (path ++ rest) root = (firstAt path root).bind (firstAt rest) := by
  induction path generalizing root with
  | nil => rfl
  | cons tag tags ih =>
    rw [List.cons_append, firstAt, firstAt, Option.bind_assoc]
    exact Option.bind_congr fun c _ => ih c

theorem firstAt_concat : firstAt (above ++ [leaf]) root = (leaves above leaf root).head? := by
  rw [firstAt_append, leaves]
  cases firstAt above root with
  | none => rfl
  | some e =>
    rw [Option.bind_some, firstAt, Option.map_some, Option.getD_some, ← Element.find_eq_head]
    cases e.find leaf <;> rfl

theorem leaves_cons (tag : Str) : leaves (tag :: above) leaf root =
    ((root.find tag).map (leaves above leaf)).getD [] := by
  rw [leaves, firstAt]
  cases root.find tag <;> rfl

theorem slim_iff {path : List Str} {root : Element} : Slim path root ↔
    ∀ q ∈ path.inits, ∀ leaf ∈ q.getLast?.toList, (leaves q.dropLast leaf root).length ≤ 1 := by
  constructor
  · intro h q hq leaf hleaf
    have hlast : q.getLast? = some leaf := by simpa using hleaf
    have hsplit : q.dropLast ++ [leaf] = q := List.dropLast_append_getLast? leaf hlast
    exact h q.dropLast leaf (hsplit.symm ▸ (List.mem_inits q path).mp hq)
  · intro h above leaf hprefix
    have hle := h (above ++ [leaf]) ((List.mem_inits _ path).mpr hprefix) leaf (by simp)
    rwa [List.dropLast_concat] at hle

instance (path : List Str) (root : Element) : Decidable (Slim path root) :=
  decidable_of_iff _ slim_iff.symm

theorem slim_cons {tag : Str} (h : Slim (tag :: path) root) :
    (root.findall tag).length ≤ 1 ∧ ∀ c, root.find tag = some c → Slim path c := by
  constructor
  · exact h [] tag ⟨path, rfl⟩
  · intro c hc above leaf hprefix
    have hle := h (tag :: above) leaf (by
      rw [List.cons_append]
      exact (List.cons_prefix_cons).mpr ⟨rfl, hprefix⟩)
    rw [leaves_cons, hc] at hle
    exact hle

end Paths

section Changes

variable {root e : Element} {above path rest : List Str} {leaf : Str} {field : Field}
  {f : Element → Element}

theorem tag_atFirst (hf : ∀ e, (f e).tag = e.tag) (path : List Str) (e : Element) :
    (atFirst path f e).tag = e.tag := by
  cases path with
  | nil => exact hf e
  | cons => rfl

theorem read_atFirst (hpath : path ≠ []) : read field (atFirst path f e) = read field e := by
  cases path with
  | nil => exact absurd rfl hpath
  | cons => cases field <;> rfl

/-- The elements above the changed one are changed below. -/
theorem firstAt_atFirst_above (hf : ∀ e, (f e).tag = e.tag) (above rest : List Str) (root : Element) :
    firstAt above (atFirst (above ++ rest) f root) = (firstAt above root).map (atFirst rest f) := by
  induction above generalizing root with
  | nil => rfl
  | cons tag tags ih =>
    rw [List.cons_append, atFirst, firstAt, firstAt, find_inFirst (tag_atFirst hf _), if_pos rfl]
    cases root.find tag with
    | none => rfl
    | some c => exact ih c

theorem firstAt_atFirst_below (hf : ∀ e, (f e).tag = e.tag) (path rest : List Str) (root : Element) :
    firstAt (path ++ rest) (atFirst path f root) =
      (firstAt path root).bind fun e => firstAt rest (f e) := by
  have hself : firstAt path (atFirst path f root) = (firstAt path root).map f := by
    have habove := firstAt_atFirst_above hf path [] root
    rwa [List.append_nil] at habove
  rw [firstAt_append, hself, Option.bind_map]
  rfl

theorem firstAt_atFirst_beside (hf : ∀ e, (f e).tag = e.tag) {other : List Str}
    (h : ¬ other <+: path) (h' : ¬ path <+: other) :
    firstAt other (atFirst path f root) = firstAt other root := by
  induction path generalizing root other with
  | nil => exact absurd List.nil_prefix h'
  | cons tag tags ih =>
    cases other with
    | nil => exact absurd List.nil_prefix h
    | cons t ts =>
      rw [atFirst, firstAt, firstAt, find_inFirst (tag_atFirst hf _)]
      by_cases ht : t = tag
      · subst ht
        rw [if_pos rfl]
        cases root.find t with
        | none => rfl
        | some c =>
          exact ih (fun hp => h (List.cons_prefix_cons.mpr ⟨rfl, hp⟩))
            (fun hp => h' (List.cons_prefix_cons.mpr ⟨rfl, hp⟩))
      · rw [if_neg ht]

/-- What is read at a path the change is not at or above. -/
theorem view_atFirst_other (hf : ∀ e, (f e).tag = e.tag) {k : Key} (h : ¬ path <+: k.path) :
    view (atFirst path f root) k = view root k := by
  by_cases hk : k.path <+: path
  · obtain ⟨rest, hrest⟩ := hk
    have hne : rest ≠ [] := by
      rintro rfl
      exact h (by rw [← hrest, List.append_nil])
    rw [view, view, ← hrest, firstAt_atFirst_above hf, Option.bind_map]
    exact Option.bind_congr fun e _ => read_atFirst hne
  · rw [view, view, firstAt_atFirst_beside hf hk h]

theorem leaves_atFirst_other (hf : ∀ e, (f e).tag = e.tag) (h : ¬ path <+: above)
    (h' : ¬ above ++ [leaf] <+: path) :
    leaves above leaf (atFirst path f root) = leaves above leaf root := by
  by_cases ha : above <+: path
  · obtain ⟨rest, rfl⟩ := ha
    cases rest with
    | nil => exact absurd (by rw [List.append_nil]) h
    | cons next rest =>
      have hnext : leaf ≠ next := by
        rintro rfl
        exact h' ⟨rest, by simp⟩
      rw [leaves, leaves, firstAt_atFirst_above hf, Option.map_map]
      cases firstAt above root with
      | none => rfl
      | some e => exact findall_inFirst_other (tag_atFirst hf rest) hnext
  · rw [leaves, leaves, firstAt_atFirst_beside hf ha h]

/-- No element comes or goes along the path to a change. -/
theorem length_leaves_atFirst (hf : ∀ e, (f e).tag = e.tag) (h : ¬ path <+: above) :
    (leaves above leaf (atFirst path f root)).length = (leaves above leaf root).length := by
  by_cases ha : above ++ [leaf] <+: path
  · obtain ⟨rest, rfl⟩ := ha
    rw [List.append_assoc, leaves, leaves, firstAt_atFirst_above hf, Option.map_map]
    cases firstAt above root with
    | none => rfl
    | some e =>
      rw [Option.map_some, Option.map_some, Option.getD_some, Option.getD_some]
      exact (congrArg List.length (findall_inFirst_self (tag_atFirst hf rest))).trans
        List.length_modifyHead
  · rw [leaves_atFirst_other hf h ha]

/-- A change at the first element with a tag, or below it, leaves the others with the tag alone. -/
theorem tail_leaves_atFirst (hf : ∀ e, (f e).tag = e.tag) (h : ¬ path <+: above) :
    (leaves above leaf (atFirst path f root)).tail = (leaves above leaf root).tail := by
  by_cases ha : above ++ [leaf] <+: path
  · obtain ⟨rest, rfl⟩ := ha
    rw [List.append_assoc, leaves, leaves, firstAt_atFirst_above hf, Option.map_map]
    cases firstAt above root with
    | none => rfl
    | some e =>
      rw [Option.map_some, Option.map_some, Option.getD_some, Option.getD_some]
      refine (congrArg List.tail (findall_inFirst_self (tag_atFirst hf rest))).trans ?_
      cases e.findall leaf <;> rfl
  · rw [leaves_atFirst_other hf h ha]

/-- Below the changed element, what the change makes of it. -/
theorem leaves_atFirst_below (hf : ∀ e, (f e).tag = e.tag) (path rest : List Str) (leaf : Str)
    (root : Element) : leaves (path ++ rest) leaf (atFirst path f root) =
      ((firstAt path root).map fun e => leaves rest leaf (f e)).getD [] := by
  rw [leaves, firstAt_atFirst_below hf]
  cases firstAt path root <;> rfl

section Content

-- A change of the text or of the attributes.
variable (hf : ∀ e, (f e).tag = e.tag) (hc : ∀ e, (f e).children = e.children)

include hc in
theorem findall_of_children (e : Element) (tag : Str) : (f e).findall tag = e.findall tag := by
  rw [Element.findall, Element.findall, hc]

include hc in
theorem firstAt_of_children (e : Element) (hpath : path ≠ []) : firstAt path (f e) = firstAt path e := by
  cases path with
  | nil => exact absurd rfl hpath
  | cons tag tags =>
    rw [firstAt, firstAt, Element.find_eq_head, Element.find_eq_head, findall_of_children hc]

include hc in
theorem leaves_of_children (e : Element) : leaves above leaf (f e) = leaves above leaf e := by
  cases above with
  | nil => exact findall_of_children hc e leaf
  | cons tag tags => rw [leaves, leaves, firstAt_of_children hc e (List.cons_ne_nil _ _)]

include hf hc

theorem view_atFirst (k : Key) : view (atFirst path f root) k =
    if k.path = path then (firstAt path root).bind fun e => read k.field (f e) else view root k := by
  by_cases hk : path <+: k.path
  · obtain ⟨rest, hrest⟩ := hk
    by_cases hnil : rest = []
    · subst hnil
      rw [List.append_nil] at hrest
      have hbelow := firstAt_atFirst_below hf path [] root
      rw [List.append_nil] at hbelow
      rw [if_pos hrest.symm, view, ← hrest, hbelow, Option.bind_assoc]
      rfl
    · have hne : k.path ≠ path := by
        rintro he
        exact hnil (List.append_cancel_left (by rw [hrest, he, List.append_nil]))
      rw [if_neg hne, view, view, ← hrest, firstAt_atFirst_below hf, firstAt_append]
      exact congrArg (Option.bind · _) (Option.bind_congr fun e _ => firstAt_of_children hc e hnil)
  · have hne : k.path ≠ path := by
      rintro he
      exact hk (by rw [he])
    rw [if_neg hne, view_atFirst_other hf hk]

theorem length_leaves_atFirst_content (above path : List Str) (leaf : Str) (root : Element) :
    (leaves above leaf (atFirst path f root)).length = (leaves above leaf root).length := by
  by_cases h : path <+: above
  · obtain ⟨rest, rfl⟩ := h
    rw [leaves_atFirst_below hf, leaves, firstAt_append]
    cases firstAt path root with
    | none => rfl
    | some e => exact congrArg List.length (leaves_of_children hc e)
  · exact length_leaves_atFirst hf h

theorem slim_atFirst {other : List Str} (h : Slim other root) : Slim other (atFirst path f root) := by
  intro above leaf hprefix
  rw [length_leaves_atFirst_content hf hc]
  exact h above leaf hprefix

theorem isSome_atFirst {other : List Str} :
    (firstAt other (atFirst path f root)).isSome = (firstAt other root).isSome := by
  cases other using List.reverseRecOn with
  | nil => rfl
  | append_singleton above leaf _ =>
    have hlength := length_leaves_atFirst_content hf hc above path leaf root
    rw [firstAt_concat, firstAt_concat]
    cases hafter : leaves above leaf (atFirst path f root) <;>
      cases hbefore : leaves above leaf root <;> simp [hafter, hbefore] at hlength ⊢

end Content

end Changes

section Additions

variable {root e new : Element} {above path rest other : List Str} {leaf tag : Str} {k : Key}

theorem tag_addBelow : (addBelow new path e).tag = e.tag := by
  cases path with
  | nil => rfl
  | cons tag tags =>
    rw [addBelow]
    split <;> rfl

theorem read_addBelow (field : Field) : read field (addBelow new path e) = read field e := by
  cases path with
  | nil => cases field <;> rfl
  | cons tag tags =>
    rw [addBelow]
    split <;> cases field <;> rfl

theorem findall_addBelow_other (h : leaf ≠ tag) :
    (addBelow new (tag :: path) e).findall leaf = e.findall leaf := by
  rw [addBelow]
  split
  · exact findall_inFirst_other (fun _ => tag_addBelow) h
  · have hne : ¬ (addBelow new path { tag := tag }).tag = leaf := by
      rw [tag_addBelow]
      exact fun he => h he.symm
    rw [Element.findall_append, if_neg hne, List.append_nil]

theorem findall_addBelow_self : (addBelow new (tag :: path) e).findall tag =
    addBelow new path ((e.find tag).getD { tag := tag }) :: (e.findall tag).tail := by
  rw [addBelow]
  cases hfind : e.find tag with
  | some c =>
    rw [if_pos Option.isSome_some]
    obtain ⟨rest, hall⟩ : ∃ rest, e.findall tag = c :: rest := by
      rw [Element.find_eq_head] at hfind
      exact List.head?_eq_some_iff.mp hfind
    refine (findall_inFirst_self fun _ => tag_addBelow).trans ?_
    rw [hall]
    rfl
  | none =>
    rw [if_neg (by simp), Element.findall_append, if_pos tag_addBelow, find_eq_none.mp hfind]
    rfl

theorem find_addBelow_self : (addBelow new (tag :: path) e).find tag =
    some (addBelow new path ((e.find tag).getD { tag := tag })) := by
  rw [Element.find_eq_head, findall_addBelow_self]
  rfl

theorem find_addBelow_other (h : leaf ≠ tag) : (addBelow new (tag :: path) e).find leaf = e.find leaf := by
  rw [Element.find_eq_head, Element.find_eq_head, findall_addBelow_other h]

/-- A made element has nothing below it. -/
theorem firstAt_bare (h : path ≠ []) : firstAt path { tag := tag } = none := by
  cases path with
  | nil => exact absurd rfl h
  | cons => rfl

theorem read_bare (field : Field) : read field { tag := tag } = none := by
  cases field <;> rfl

theorem addBelow_eq_atFirst (h : (firstAt path root).isSome) :
    addBelow new path root = atFirst path (·.append new) root := by
  induction path generalizing root with
  | nil => rfl
  | cons tag tags ih =>
    rw [firstAt] at h
    rw [addBelow, atFirst]
    cases hfind : root.find tag with
    | none =>
      rw [hfind] at h
      cases h
    | some c =>
      rw [hfind] at h
      rw [if_pos Option.isSome_some]
      exact inFirst_congr hfind (ih h)

theorem firstAt_addBelow_beside (h : ¬ other <+: path) (h' : ¬ path ++ [new.tag] <+: other) :
    firstAt other (addBelow new path root) = firstAt other root := by
  induction path generalizing root other with
  | nil =>
    cases other with
    | nil => exact absurd List.nil_prefix h
    | cons t ts =>
      have ht : ¬ new.tag = t := by
        rintro rfl
        exact h' (List.cons_prefix_cons.mpr ⟨rfl, List.nil_prefix⟩)
      rw [addBelow, firstAt, find_append, if_neg ht, Option.or_none, firstAt]
  | cons tag tags ih =>
    cases other with
    | nil => exact absurd List.nil_prefix h
    | cons t ts =>
      rw [firstAt, firstAt]
      by_cases ht : t = tag
      · subst ht
        have hts : ¬ ts <+: tags := fun hp => h (List.cons_prefix_cons.mpr ⟨rfl, hp⟩)
        rw [find_addBelow_self, Option.bind_some,
          ih hts fun hp => h' (List.cons_prefix_cons.mpr ⟨rfl, hp⟩)]
        cases root.find t with
        | some c => rfl
        | none =>
          refine firstAt_bare fun hnil => hts ?_
          rw [hnil]
          exact List.nil_prefix
      · rw [find_addBelow_other ht]

/-- What is read of the elements that are made on the way is what is read where none are. -/
theorem view_addBelow_above (h : k.path <+: path) : view (addBelow new path root) k = view root k := by
  obtain ⟨above, field⟩ := k
  dsimp only at h
  induction above generalizing root path with
  | nil => exact read_addBelow field
  | cons t ts ih =>
    cases path with
    | nil => exact absurd (List.prefix_nil.mp h) (List.cons_ne_nil _ _)
    | cons tag tags =>
      obtain ⟨rfl, hts⟩ := List.cons_prefix_cons.mp h
      rw [view, view, firstAt, firstAt, find_addBelow_self, Option.bind_some]
      refine (ih hts).trans ?_
      cases root.find t with
      | some c => rfl
      | none =>
        rw [Option.getD_none, view]
        cases ts with
        | nil => exact read_bare field
        | cons => rfl

theorem firstAt_addBelow_leaf (new : Element) (path : List Str) (root : Element) :
    firstAt (path ++ [new.tag]) (addBelow new path root) =
      (firstAt (path ++ [new.tag]) root).or (some new) := by
  induction path generalizing root with
  | nil =>
    rw [List.nil_append, addBelow, firstAt, firstAt, find_append, if_pos rfl]
    cases root.find new.tag <;> rfl
  | cons tag tags ih =>
    rw [List.cons_append, firstAt, firstAt, find_addBelow_self, Option.bind_some, ih]
    cases root.find tag with
    | some c => rfl
    | none => rw [Option.getD_none, firstAt_bare (by simp)]; rfl

/-- The new leaf is read only where none was there. -/
theorem view_addBelow (hnew : new.children = []) (k : Key) : view (addBelow new path root) k =
    if k.path = path ++ [new.tag] ∧ firstAt (path ++ [new.tag]) root = none then read k.field new
    else view root k := by
  by_cases hbelow : path ++ [new.tag] <+: k.path
  · obtain ⟨rest, hrest⟩ := hbelow
    rw [view, view, ← hrest, firstAt_append _ rest, firstAt_append _ rest,
      firstAt_addBelow_leaf]
    cases hleaf : firstAt (path ++ [new.tag]) root with
    | some c => simp
    | none =>
      cases rest with
      | nil => simp [firstAt]
      | cons t ts => simp [firstAt, Element.find, hnew]
  · have hne : k.path ≠ path ++ [new.tag] := fun he => hbelow (by rw [he])
    rw [if_neg fun h => hne h.1]
    by_cases habove : k.path <+: path
    · exact view_addBelow_above habove
    · rw [view, view, firstAt_addBelow_beside habove hbelow]

/-- Where the leaf is there, nothing is read differently, whatever the new one holds. -/
theorem view_addBelow_again (h : (firstAt (path ++ [new.tag]) root).isSome) (k : Key) :
    view (addBelow new path root) k = view root k := by
  obtain ⟨c, hc⟩ := Option.isSome_iff_exists.mp h
  by_cases hbelow : path ++ [new.tag] <+: k.path
  · obtain ⟨rest, hrest⟩ := hbelow
    rw [view, view, ← hrest, firstAt_append _ rest, firstAt_append _ rest,
      firstAt_addBelow_leaf, hc]
    rfl
  · by_cases habove : k.path <+: path
    · exact view_addBelow_above habove
    · rw [view, view, firstAt_addBelow_beside habove hbelow]

theorem leaves_addBelow_self : leaves path new.tag (addBelow new path root) =
    leaves path new.tag root ++ [new] := by
  induction path generalizing root with
  | nil =>
    rw [leaves, addBelow, firstAt, Option.map_some, Option.getD_some, Element.findall_append,
      if_pos rfl]
    rfl
  | cons tag tags ih =>
    rw [leaves_cons, leaves_cons, find_addBelow_self, Option.map_some, Option.getD_some, ih]
    cases root.find tag with
    | some c => rfl
    | none =>
      rw [Option.getD_none, Option.map_none, Option.getD_none, leaves]
      cases tags <;> rfl

theorem leaves_bare : leaves path leaf { tag := tag } = [] := by
  cases path <;> rfl

theorem leaves_addBelow_other (h : ¬ above ++ [leaf] <+: path ++ [new.tag])
    (h' : ¬ path ++ [new.tag] <+: above) :
    leaves above leaf (addBelow new path root) = leaves above leaf root := by
  induction path generalizing root above with
  | nil =>
    cases above with
    | nil =>
      have hne : ¬ new.tag = leaf := by
        rintro rfl
        exact h List.prefix_rfl
      rw [leaves, leaves, addBelow, firstAt, Option.map_some, Option.getD_some,
        Element.findall_append, if_neg hne, List.append_nil]
      rfl
    | cons t ts =>
      have ht : ¬ new.tag = t := by
        rintro rfl
        exact h' (List.cons_prefix_cons.mpr ⟨rfl, List.nil_prefix⟩)
      rw [leaves_cons, leaves_cons, addBelow, find_append, if_neg ht, Option.or_none]
  | cons tag tags ih =>
    cases above with
    | nil =>
      have hne : leaf ≠ tag := by
        rintro rfl
        exact h (List.cons_prefix_cons.mpr ⟨rfl, List.nil_prefix⟩)
      exact findall_addBelow_other hne
    | cons t ts =>
      rw [leaves_cons, leaves_cons]
      by_cases ht : t = tag
      · subst ht
        have hts (c : Element) : leaves ts leaf (addBelow new tags c) = leaves ts leaf c := ih
          (fun hp => h (List.cons_prefix_cons.mpr ⟨rfl, hp⟩))
          (fun hp => h' (List.cons_prefix_cons.mpr ⟨rfl, hp⟩))
        rw [find_addBelow_self, Option.map_some, Option.getD_some, hts]
        cases root.find t with
        | some c => rfl
        | none => exact leaves_bare
      · rw [find_addBelow_other ht]

/-- Of the elements above the new one, at most the first of each is made. -/
theorem length_leaves_addBelow (h : above ++ [leaf] <+: path) :
    (leaves above leaf (addBelow new path root)).length ≤ max 1 (leaves above leaf root).length := by
  induction path generalizing root above with
  | nil => exact absurd (List.prefix_nil.mp h) (by simp)
  | cons tag tags ih =>
    cases above with
    | nil =>
      obtain ⟨rfl, -⟩ := List.cons_prefix_cons.mp h
      have hself : leaves [] leaf (addBelow new (leaf :: tags) root) = _ := findall_addBelow_self
      rw [hself, List.length_cons, List.length_tail]
      have hroot : leaves [] leaf root = root.findall leaf := rfl
      rw [hroot]
      omega
    | cons t ts =>
      obtain ⟨rfl, hts⟩ := List.cons_prefix_cons.mp h
      rw [leaves_cons, leaves_cons, find_addBelow_self, Option.map_some, Option.getD_some]
      refine (ih hts).trans (max_le_max_left 1 (le_of_eq ?_))
      cases root.find t with
      | some c => rfl
      | none => exact congrArg List.length leaves_bare

theorem tail_leaves_addBelow (h : above ++ [leaf] <+: path) :
    (leaves above leaf (addBelow new path root)).tail = (leaves above leaf root).tail := by
  induction path generalizing root above with
  | nil => exact absurd (List.prefix_nil.mp h) (by simp)
  | cons tag tags ih =>
    cases above with
    | nil =>
      obtain ⟨rfl, -⟩ := List.cons_prefix_cons.mp h
      have hself : leaves [] leaf (addBelow new (leaf :: tags) root) = _ := findall_addBelow_self
      rw [hself]
      rfl
    | cons t ts =>
      obtain ⟨rfl, hts⟩ := List.cons_prefix_cons.mp h
      rw [leaves_cons, leaves_cons, find_addBelow_self, Option.map_some, Option.getD_some, ih hts]
      cases root.find t with
      | some c => rfl
      | none => exact congrArg List.tail leaves_bare

/-- Below a new leaf that is the only one, there is nothing. -/
theorem leaves_addBelow_below (hnew : new.children = []) (hnone : leaves path new.tag root = []) :
    leaves (path ++ [new.tag] ++ rest) leaf (addBelow new path root) = [] := by
  have hfirst : firstAt (path ++ [new.tag]) root = none := by rw [firstAt_concat, hnone]; rfl
  rw [leaves, firstAt_append, firstAt_addBelow_leaf, hfirst, Option.none_or, Option.bind_some]
  cases rest with
  | nil => simp [firstAt, Element.findall, hnew]
  | cons t ts => simp [firstAt, Element.find, hnew]

theorem slim_addBelow (h : Slim other root)
    (hfirst : path ++ [new.tag] <+: other → new.children = [] ∧ leaves path new.tag root = []) :
    Slim other (addBelow new path root) := by
  intro above leaf hprefix
  have hle := h above leaf hprefix
  by_cases habove : above ++ [leaf] <+: path
  · exact (length_leaves_addBelow habove).trans (max_le (le_refl 1) hle)
  · by_cases hself : above ++ [leaf] <+: path ++ [new.tag]
    · have hsame := (List.prefix_concat_iff.mp hself).resolve_right habove
      obtain ⟨rfl, hleaf⟩ := List.append_inj' hsame rfl
      obtain rfl := List.singleton_inj.mp hleaf
      rw [leaves_addBelow_self, (hfirst hprefix).2]
      exact le_refl 1
    · by_cases hbelow : path ++ [new.tag] <+: above
      · obtain ⟨rest, rfl⟩ := hbelow
        have hnew := hfirst ((List.prefix_append _ rest).trans ((List.prefix_append _ [leaf]).trans hprefix))
        rw [leaves_addBelow_below hnew.1 hnew.2]
        exact Nat.zero_le 1
      · rw [leaves_addBelow_other hself hbelow]
        exact hle

theorem firstAt_addBelow_none (hnew : new.children = []) (h : firstAt other root = none)
    (h' : ¬ other <+: path ++ [new.tag]) : firstAt other (addBelow new path root) = none := by
  by_cases hbelow : path ++ [new.tag] <+: other
  · obtain ⟨rest, rfl⟩ := hbelow
    have hrest : rest ≠ [] := by
      rintro rfl
      exact h' (by rw [List.append_nil])
    rw [firstAt_append] at h
    rw [firstAt_append, firstAt_addBelow_leaf]
    cases hleaf : firstAt (path ++ [new.tag]) root with
    | some c =>
      rw [hleaf] at h
      exact h
    | none =>
      cases rest with
      | nil => exact absurd rfl hrest
      | cons t ts => simp [firstAt, Element.find, hnew]
  · rw [firstAt_addBelow_beside (fun hp => h' (hp.trans (List.prefix_append path _))) hbelow, h]

theorem isSome_addBelow (h : (firstAt other root).isSome) :
    (firstAt other (addBelow new path root)).isSome := by
  induction path generalizing root other with
  | nil =>
    cases other with
    | nil => rfl
    | cons t ts =>
      rw [firstAt] at h ⊢
      cases hfind : root.find t with
      | none =>
        rw [hfind] at h
        cases h
      | some c =>
        rw [addBelow, find_append, hfind]
        rwa [hfind] at h
  | cons tag tags ih =>
    cases other with
    | nil => rfl
    | cons t ts =>
      rw [firstAt] at h ⊢
      by_cases ht : t = tag
      · subst ht
        rw [find_addBelow_self]
        cases hfind : root.find t with
        | none =>
          rw [hfind] at h
          cases h
        | some c =>
          rw [hfind] at h
          exact ih h
      · rwa [find_addBelow_other ht]

end Additions

/-- What is read after some settings, the later ones over the earlier. -/
def overwritten (settings : List (Key × Option Str)) (content : Key → Option Str) : Key → Option Str :=
  settings.foldl (fun content setting => Function.update content setting.1 setting.2) content

theorem overwritten_append (first second : List (Key × Option Str)) (content : Key → Option Str) :
    overwritten (first ++ second) content = overwritten second (overwritten first content) :=
  List.foldl_append

theorem overwritten_congr {settings : List (Key × Option Str)} {content other : Key → Option Str} {k : Key}
    (h : content k = other k) : overwritten settings content k = overwritten settings other k := by
  induction settings generalizing content other with
  | nil => exact h
  | cons setting rest ih =>
    apply ih
    dsimp only
    by_cases hk : k = setting.1
    · rw [hk, Function.update_self, Function.update_self]
    · rw [Function.update_of_ne hk, Function.update_of_ne hk, h]

section Settings

variable {root e : Element} {above path : List Str} {leaf : Str} {attribs : Dict Str Str}

theorem overwritten_of_ne {settings : List (Key × Option Str)} {k : Key}
    (h : ∀ s ∈ settings, s.1 ≠ k) (content : Key → Option Str) :
    overwritten settings content k = content k := by
  induction settings generalizing content with
  | nil => rfl
  | cons s rest ih =>
    rw [overwritten, List.foldl_cons, ← overwritten, ih fun t ht => h t (List.mem_cons_of_mem _ ht)]
    exact Function.update_of_ne (h s List.mem_cons_self).symm _ _

theorem overwritten_self (k : Key) (v : Option Str) (content : Key → Option Str) :
    overwritten [(k, v)] content k = v := by
  rw [overwritten, List.foldl_cons, List.foldl_nil]
  exact Function.update_self k v content

theorem overwritten_other {k other : Key} (h : other ≠ k) (v : Option Str) (content : Key → Option Str) :
    overwritten [(k, v)] content other = content other := by
  rw [overwritten, List.foldl_cons, List.foldl_nil]
  exact Function.update_of_ne h v content

theorem overwritten_of_mem {settings : List (Key × Option Str)} {s : Key × Option Str}
    (hnodup : (settings.map Prod.fst).Nodup) (h : s ∈ settings) (content : Key → Option Str) :
    overwritten settings content s.1 = s.2 := by
  induction settings generalizing content with
  | nil => cases h
  | cons t rest ih =>
    obtain ⟨hnot, hnodup⟩ := List.nodup_cons.mp hnodup
    rw [overwritten, List.foldl_cons, ← overwritten]
    rcases List.mem_cons.mp h with rfl | h
    · have hother : ∀ u ∈ rest, u.1 ≠ s.1 := by
        intro u hu he
        rw [← he] at hnot
        exact hnot (List.mem_map_of_mem hu)
      rw [overwritten_of_ne hother]
      exact Function.update_self s.1 s.2 content
    · exact ih hnodup h _

/-- Attributes at one path, as settings of a document. -/
def attribSettings (path : List Str) (attribs : Dict Str Str) : List (Key × Option Str) :=
  attribs.map fun item => (⟨path, .attrib item.1⟩, some item.2)

/-- Set what is read of an element. -/
def change : Field → Str → Element → Element
  | .text, v, e => e.withText (some v)
  | .attrib name, v, e => e.update [(name, v)]

theorem tag_change (field : Field) (v : Str) (e : Element) : (change field v e).tag = e.tag := by
  cases field <;> rfl

theorem children_change (field : Field) (v : Str) (e : Element) :
    (change field v e).children = e.children := by
  cases field <;> rfl

theorem read_change (field other : Field) (v : Str) (e : Element) :
    read other (change field v e) = if other = field then some v else read other e := by
  cases field with
  | text =>
    cases other with
    | text => rfl
    | attrib name => rw [if_neg (by simp)]; rfl
  | attrib name =>
    cases other with
    | text => rw [if_neg (by simp)]; rfl
    | attrib other =>
      refine (get?_set e.attrib name other v).trans ?_
      by_cases h : other = name
      · rw [if_pos h, if_pos (congrArg Field.attrib h)]
      · rw [if_neg h, if_neg (by simpa using h)]
        rfl

/-- Set what is read with a key, at the first element. -/
def Key.write (k : Key) (v : Str) : Element → Element := atFirst k.path (change k.field v)

theorem Key.view_write {k : Key} (v : Str) (h : (firstAt k.path root).isSome) :
    view (k.write v root) = Function.update (view root) k (some v) := by
  obtain ⟨e, he⟩ := Option.isSome_iff_exists.mp h
  funext other
  rw [write, view_atFirst (tag_change k.field v) (children_change k.field v), he, Option.bind_some,
    read_change]
  by_cases hk : other = k
  · subst hk
    rw [if_pos rfl, if_pos rfl, Function.update_self]
  · rw [Function.update_of_ne hk]
    by_cases hpath : other.path = k.path
    · have hfield : other.field ≠ k.field := by
        intro hf
        obtain ⟨path, field⟩ := other
        obtain ⟨path', field'⟩ := k
        obtain rfl : path = path' := hpath
        obtain rfl : field = field' := hf
        exact hk rfl
      rw [if_pos hpath, if_neg hfield, view, hpath, he]
      rfl
    · rw [if_neg hpath]

theorem read_update (field : Field) {content : Key → Option Str}
    (h : ∀ field, read field e = content ⟨path, field⟩) :
    read field (e.update attribs) = overwritten (attribSettings path attribs) content ⟨path, field⟩ := by
  induction attribs generalizing e content with
  | nil =>
    cases field with
    | text => exact h .text
    | attrib name => exact h (.attrib name)
  | cons item rest ih =>
    refine ih (e := { e with attrib := set e.attrib item.1 item.2 }) fun other => ?_
    cases other with
    | text => exact (h .text).trans (Function.update_of_ne (by simp) _ _).symm
    | attrib name =>
      refine (get?_set e.attrib item.1 name item.2).trans ?_
      by_cases hname : name = item.1
      · subst hname
        rw [if_pos rfl]
        dsimp only
        rw [Function.update_self]
      · rw [if_neg hname]
        exact (h (.attrib name)).trans (Function.update_of_ne (by simp [hname]) _ _).symm

theorem view_attribs {after : Element}
    (hat : ∀ field, view after ⟨path, field⟩ = read field (e.update attribs))
    (he : ∀ field, read field e = view root ⟨path, field⟩)
    (hother : ∀ k : Key, k.path ≠ path → view after k = view root k) :
    view after = overwritten (attribSettings path attribs) (view root) := by
  funext k
  obtain ⟨other, field⟩ := k
  by_cases hpath : other = path
  · subst hpath
    rw [hat, read_update field he]
  · rw [hother _ hpath, overwritten_of_ne]
    intro s hs
    obtain ⟨item, -, rfl⟩ := List.mem_map.mp hs
    exact fun heq => hpath (congrArg Key.path heq).symm

end Settings

section Deletion

variable {root e : Element} {above rest : List Str} {leaf tag : Str}

/-- The element without its first child with the tag. -/
def dropFirst (leaf : Str) (e : Element) : Element :=
  { e with children := e.children.eraseP (·.tag = leaf) }

def dropAt (above : List Str) (leaf : Str) : Element → Element := atFirst above (dropFirst leaf)

theorem findall_dropFirst_other (h : tag ≠ leaf) : (dropFirst leaf e).findall tag = e.findall tag := by
  rw [Element.findall, dropFirst, Element.findall]
  induction e.children with
  | nil => rfl
  | cons child rest ih =>
    by_cases hc : child.tag = leaf
    · have hne : ¬ child.tag = tag := fun he => h (he.symm.trans hc)
      rw [List.eraseP_cons_of_pos (by simp [hc]), List.filter_cons_of_neg (by simp [hne])]
    · rw [List.eraseP_cons_of_neg (by simp [hc]), List.filter_cons, List.filter_cons, ih]

theorem findall_dropFirst_self : (dropFirst leaf e).findall leaf = (e.findall leaf).tail := by
  rw [Element.findall, dropFirst, Element.findall]
  induction e.children with
  | nil => rfl
  | cons child rest ih =>
    by_cases hc : child.tag = leaf
    · rw [List.eraseP_cons_of_pos (by simp [hc]), List.filter_cons_of_pos (by simp [hc])]
      rfl
    · rw [List.eraseP_cons_of_neg (by simp [hc]), List.filter_cons_of_neg (by simp [hc]),
        List.filter_cons_of_neg (by simp [hc]), ih]

theorem firstAt_dropFirst_other (h : tag ≠ leaf) :
    firstAt (tag :: rest) (dropFirst leaf e) = firstAt (tag :: rest) e := by
  rw [firstAt, firstAt, Element.find_eq_head, Element.find_eq_head, findall_dropFirst_other h]

theorem leaves_dropAt_self : leaves above leaf (dropAt above leaf root) =
    (leaves above leaf root).tail := by
  have htag (e : Element) : (dropFirst leaf e).tag = e.tag := rfl
  have hself := leaves_atFirst_below htag above [] leaf root
  rw [List.append_nil] at hself
  rw [dropAt, hself, leaves]
  cases firstAt above root with
  | none => rfl
  | some e => exact findall_dropFirst_self

/-- Where the single element of a path is deleted, nothing is there or below. -/
theorem firstAt_dropAt (h : Slim (above ++ [leaf]) root) :
    firstAt (above ++ [leaf] ++ rest) (dropAt above leaf root) = none := by
  have hle := h above leaf List.prefix_rfl
  have hnil : (leaves above leaf root).tail = [] := by
    rw [← List.length_eq_zero_iff, List.length_tail]
    omega
  rw [firstAt_append, firstAt_concat, leaves_dropAt_self, hnil]
  rfl

theorem view_dropAt (h : Slim (above ++ [leaf]) root) (k : Key) :
    view (dropAt above leaf root) k =
      if above ++ [leaf] <+: k.path then none else view root k := by
  have htag (e : Element) : (dropFirst leaf e).tag = e.tag := rfl
  by_cases hbelow : above ++ [leaf] <+: k.path
  · obtain ⟨rest, hrest⟩ := id hbelow
    rw [if_pos hbelow, view, ← hrest, firstAt_dropAt h]
    rfl
  · rw [if_neg hbelow, dropAt]
    by_cases habove : above <+: k.path
    · obtain ⟨rest, hrest⟩ := habove
      rw [view, view, ← hrest, firstAt_atFirst_below htag, firstAt_append, Option.bind_assoc,
        Option.bind_assoc]
      cases rest with
      | nil => exact Option.bind_congr fun e _ => by cases k.field <;> rfl
      | cons t ts =>
        have hne : t ≠ leaf := by
          rintro rfl
          exact hbelow (by simp [← hrest])
        exact Option.bind_congr fun e _ => by rw [firstAt_dropFirst_other hne]
    · rw [view_atFirst_other htag habove]

theorem leaves_dropAt_other {up : List Str} {other : Str} (h : ¬ up ++ [other] <+: above ++ [leaf])
    (h' : ¬ above ++ [leaf] <+: up ++ [other]) :
    leaves up other (dropAt above leaf root) = leaves up other root := by
  have htag (e : Element) : (dropFirst leaf e).tag = e.tag := rfl
  rw [dropAt]
  by_cases habove : above <+: up
  · obtain ⟨rest, rfl⟩ := habove
    rw [leaves_atFirst_below htag, leaves, firstAt_append]
    cases firstAt above root with
    | none => rfl
    | some e =>
      cases rest with
      | nil =>
        have hne : other ≠ leaf := by
          rintro rfl
          exact h (by rw [List.append_nil])
        exact findall_dropFirst_other hne
      | cons t ts =>
        have hne : t ≠ leaf := by
          rintro rfl
          exact h' (by simp)
        rw [Option.map_some, Option.getD_some, leaves, firstAt_dropFirst_other hne]
        rfl
  · exact leaves_atFirst_other htag habove fun hp => h (hp.trans (List.prefix_append above [leaf]))

theorem slim_dropAt {other : List Str} (h : Slim (above ++ [leaf]) root) (ho : Slim other root) :
    Slim other (dropAt above leaf root) := by
  have htag (e : Element) : (dropFirst leaf e).tag = e.tag := rfl
  intro up last hprefix
  have hle := ho up last hprefix
  by_cases habove : up ++ [last] <+: above
  · have hup : ¬ above <+: up := fun hp => by
      have hlength := (habove.trans hp).length_le
      simp at hlength
    rw [dropAt, length_leaves_atFirst htag hup]
    exact hle
  · by_cases hself : up ++ [last] <+: above ++ [leaf]
    · have hsame := (List.prefix_concat_iff.mp hself).resolve_right habove
      obtain ⟨rfl, hleaf⟩ := List.append_inj' hsame rfl
      obtain rfl := List.singleton_inj.mp hleaf
      rw [leaves_dropAt_self, List.length_tail]
      exact (Nat.sub_le _ _).trans hle
    · by_cases hbelow : above ++ [leaf] <+: up
      · obtain ⟨rest, rfl⟩ := hbelow
        rw [leaves, firstAt_dropAt h]
        exact Nat.zero_le 1
      · rw [leaves_dropAt_other hself fun hp => ?_]
        · exact hle
        · rcases List.prefix_concat_iff.mp hp with he | hp
          · exact hself (he ▸ List.prefix_rfl)
          · exact hbelow hp

end Deletion

end TdxTools.Python.TreePaths
