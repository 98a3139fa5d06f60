import TdxTools.CloudStack.SettledTree
import TdxTools.Python.TreePaths

namespace TdxTools.CloudStack.DocumentView

open Python Python.Text Python.Dictionary Python.ElementTree Python.TreePaths DomainXml

section Paths

variable {root e : Element} {path above : List Str} {tag leaf : Str} {attribs : Dict Str Str}
  {f : Element → Element}

theorem nil_or_singleton {children : List Element} (h : children.length ≤ 1) :
    children = [] ∨ ∃ c, children = [c] := by
  cases children with
  | nil => exact .inl rfl
  | cons c rest =>
    rw [List.length_cons] at h
    exact .inr ⟨c, congrArg (c :: ·) (List.length_eq_zero_iff.mp (by omega))⟩

/-- On a slim path nothing keeps the single element from being found. -/
theorem findSingle_eq (hpath : path ≠ []) (h : Slim path root) :
    findSingle path root = firstAt path root := by
  induction path generalizing root with
  | nil => exact absurd rfl hpath
  | cons tag tags ih =>
    obtain ⟨hle, hbelow⟩ := slim_cons h
    rw [findSingle, firstAt, Element.find_eq_head]
    rcases nil_or_singleton hle with hnone | ⟨c, hone⟩
    · rw [hnone]
      rfl
    · have hc : root.find tag = some c := by rw [Element.find_eq_head, hone]; rfl
      rw [hone]
      dsimp only [List.head?_cons, Option.bind_some]
      split
      · next hnil =>
        subst hnil
        rfl
      · next hne => exact ih hne (hbelow c hc)

theorem changeFirst_of_none {children : List Element} (h : children.filter (·.tag = tag) = []) :
    Element.changeFirst tag f children = children := by
  induction children with
  | nil => rfl
  | cons child rest ih =>
    have hchild := SettledTree.tag_ne_of_none h List.mem_cons_self
    rw [List.filter_cons_of_neg (by simp [hchild])] at h
    rw [Element.changeFirst, if_neg hchild, ih h]

/-- On a slim path the single element is the first one. -/
theorem inSingle_eq_atFirst (h : Slim path root) : inSingle path f root = atFirst path f root := by
  induction path generalizing root with
  | nil => rfl
  | cons tag tags ih =>
    obtain ⟨hle, hbelow⟩ := slim_cons h
    rw [inSingle, atFirst, Element.inEach, Element.inFirst]
    apply congrArg (Element.mk root.tag root.attrib root.text root.tail)
    rcases nil_or_singleton hle with hnone | ⟨c, hone⟩
    · calc (root.children.map fun child => if child.tag = tag then inSingle tags f child else child)
          = root.children.map id := List.map_congr_left fun child hchild =>
            if_neg (SettledTree.tag_ne_of_none hnone hchild)
        _ = root.children := List.map_id _
        _ = Element.changeFirst tag (atFirst tags f) root.children :=
            (changeFirst_of_none hnone).symm
    · rw [SettledTree.changeFirst_of_single hone]
      apply List.map_congr_left
      intro child hchild
      by_cases htag : child.tag = tag
      · have hmem : child ∈ root.findall tag := List.mem_filter.mpr ⟨hchild, decide_eq_true htag⟩
        rw [hone] at hmem
        obtain rfl := List.mem_singleton.mp hmem
        rw [if_pos htag, if_pos htag, ih (hbelow child (by rw [Element.find_eq_head, hone]; rfl))]
      · rw [if_neg htag, if_neg htag]

theorem addLeaf_multi : addLeaf leaf attribs true above root =
    addBelow (Element.update { tag := leaf } attribs) above root := by
  induction above generalizing root with
  | nil => rfl
  | cons tag tags ih =>
    rw [addLeaf, addBelow, ih, show addLeaf leaf attribs true tags = _ from funext fun _ => ih]

theorem addLeaf_new (h : firstAt (above ++ [leaf]) root = none) : addLeaf leaf attribs false above root =
    addBelow (Element.update { tag := leaf } attribs) above root := by
  induction above generalizing root with
  | nil =>
    have hnone : root.find leaf = none := by
      rw [List.nil_append, firstAt] at h
      cases hfind : root.find leaf with
      | none => rfl
      | some c => rw [hfind] at h; cases h
    rw [addLeaf, if_pos (.inr (by rw [hnone]; rfl)), addBelow]
  | cons tag tags ih =>
    rw [List.cons_append, firstAt] at h
    rw [addLeaf, addBelow]
    cases hfind : root.find tag with
    | none =>
      rw [if_neg (by simp), if_neg (by simp), ih (firstAt_bare (by simp))]
    | some c =>
      rw [hfind] at h
      rw [if_pos Option.isSome_some, if_pos Option.isSome_some]
      exact inFirst_congr hfind (ih h)

theorem addLeaf_there (h : (firstAt (above ++ [leaf]) root).isSome) : addLeaf leaf attribs false above root =
    atFirst (above ++ [leaf]) (·.update attribs) root := by
  induction above generalizing root with
  | nil =>
    have hsome : (root.find leaf).isSome := by
      rw [List.nil_append, firstAt] at h
      cases hfind : root.find leaf with
      | none => rw [hfind] at h; cases h
      | some c => rfl
    rw [addLeaf, if_neg (by simp [Option.isNone_iff_eq_none, Option.ne_none_iff_isSome, hsome])]
    rfl
  | cons tag tags ih =>
    rw [List.cons_append, firstAt] at h
    rw [addLeaf, List.cons_append, atFirst]
    cases hfind : root.find tag with
    | none => rw [hfind] at h; cases h
    | some c =>
      rw [hfind] at h
      rw [if_pos Option.isSome_some]
      exact inFirst_congr hfind (ih h)

/-- Without more than one leaf, the attributes are those of the document afterwards. -/
theorem view_addLeaf (above : List Str) (leaf : Str) (attribs : Dict Str Str) (root : Element) :
    view (addLeaf leaf attribs false above root) =
      overwritten (attribSettings (above ++ [leaf]) attribs) (view root) := by
  cases hleaf : firstAt (above ++ [leaf]) root with
  | none =>
    have hview (k : Key) : view (addLeaf leaf attribs false above root) k =
        if k.path = above ++ [leaf] then read k.field (Element.update { tag := leaf } attribs)
        else view root k := by
      rw [addLeaf_new hleaf, view_addBelow rfl]
      simp [hleaf]
    refine view_attribs (e := { tag := leaf }) (fun field => ?_) (fun field => ?_) fun k hk => ?_
    · rw [hview, if_pos rfl]
    · rw [read_bare, view, hleaf]
      rfl
    · rw [hview, if_neg hk]
  | some e =>
    have hview (k : Key) : view (addLeaf leaf attribs false above root) k =
        if k.path = above ++ [leaf] then read k.field (e.update attribs) else view root k := by
      rw [addLeaf_there (by rw [hleaf]; rfl),
        view_atFirst (f := (·.update attribs)) (fun _ => rfl) (fun _ => rfl), hleaf]
      rfl
    refine view_attribs (e := e) (fun field => ?_) (fun field => ?_) fun k hk => ?_
    · rw [hview, if_pos rfl]
    · rw [view, hleaf]
      rfl
    · rw [hview, if_neg hk]

theorem slim_addLeaf {other : List Str} (h : Slim other root) :
    Slim other (addLeaf leaf attribs false above root) := by
  cases hleaf : firstAt (above ++ [leaf]) root with
  | none =>
    rw [addLeaf_new hleaf]
    rw [firstAt_concat, List.head?_eq_none_iff] at hleaf
    exact slim_addBelow h fun _ => ⟨rfl, hleaf⟩
  | some e =>
    rw [addLeaf_there (by rw [hleaf]; rfl)]
    exact slim_atFirst (f := (·.update attribs)) (fun _ => rfl) (fun _ => rfl) h

theorem isSome_addLeaf {other : List Str} (h : (firstAt other root).isSome) :
    (firstAt other (addLeaf leaf attribs false above root)).isSome := by
  cases hleaf : firstAt (above ++ [leaf]) root with
  | none =>
    rw [addLeaf_new hleaf]
    exact isSome_addBelow h
  | some e =>
    rw [addLeaf_there (by rw [hleaf]; rfl),
      isSome_atFirst (f := (·.update attribs)) (fun _ => rfl) (fun _ => rfl)]
    exact h

theorem isSome_addLeaf_self : (firstAt (above ++ [leaf]) (addLeaf leaf attribs false above root)).isSome := by
  cases hleaf : firstAt (above ++ [leaf]) root with
  | none =>
    have hself := firstAt_addBelow_leaf (Element.update { tag := leaf } attribs) above root
    rw [Element.tag_update, hleaf] at hself
    rw [addLeaf_new hleaf, hself]
    rfl
  | some e => exact isSome_addLeaf (by rw [hleaf]; rfl)

theorem leaves_addLeaf_other {up : List Str} {other : Str} (h : ¬ up ++ [other] <+: above ++ [leaf])
    (h' : ¬ above ++ [leaf] <+: up) :
    leaves up other (addLeaf leaf attribs false above root) = leaves up other root := by
  cases hleaf : firstAt (above ++ [leaf]) root with
  | none =>
    rw [addLeaf_new hleaf]
    exact leaves_addBelow_other h h'
  | some e =>
    rw [addLeaf_there (by rw [hleaf]; rfl)]
    exact leaves_atFirst_other (fun _ => rfl) h' h

theorem deleteFirst_eq_atFirst :
    deleteFirst (above ++ [leaf]) root = atFirst above (dropFirst leaf) root := by
  induction above generalizing root with
  | nil => rfl
  | cons tag tags ih =>
    have hrest : deleteFirst (tags ++ [leaf]) = atFirst tags (dropFirst leaf) := funext fun _ => ih
    rw [List.cons_append, atFirst, deleteFirst, hrest]
    simp

end Paths

section Edits

/-- What an edit along one path leaves of the rest of a document. -/
structure Confined (path : List Str) (root after : Element) : Prop where
  slim : ∀ other, Slim other root → Slim other after
  there : ∀ other, (firstAt other root).isSome → (firstAt other after).isSome
  absent : ∀ other, ¬ other <+: path → firstAt other root = none → firstAt other after = none
  leaves : ∀ above leaf, ¬ path <+: above → ¬ above ++ [leaf] <+: path →
    leaves above leaf after = leaves above leaf root
  others : ∀ above leaf, ¬ path <+: above →
    (TreePaths.leaves above leaf after).tail = (TreePaths.leaves above leaf root).tail

variable {root : Element} {path above : List Str} {leaf : Str} {attribs : Dict Str Str}
  {f : Element → Element}

theorem confined_atFirst (hf : ∀ e, (f e).tag = e.tag) (hc : ∀ e, (f e).children = e.children) :
    Confined path root (atFirst path f root) where
  slim _ h := slim_atFirst hf hc h
  there _ h := by rwa [isSome_atFirst hf hc]
  absent other _ h := by
    have hsome : (firstAt other (atFirst path f root)).isSome = (firstAt other root).isSome :=
      isSome_atFirst hf hc
    rw [h] at hsome
    exact Option.isNone_iff_eq_none.mp (by simpa using hsome)
  leaves _ _ h h' := leaves_atFirst_other hf h h'
  others _ _ h := tail_leaves_atFirst hf h

theorem confined_addLeaf : Confined (above ++ [leaf]) root (addLeaf leaf attribs false above root) where
  slim _ h := slim_addLeaf h
  there _ h := isSome_addLeaf h
  absent other h hnone := by
    cases hleaf : firstAt (above ++ [leaf]) root with
    | none =>
      rw [addLeaf_new hleaf]
      exact firstAt_addBelow_none rfl hnone h
    | some e =>
      rw [addLeaf_there (by rw [hleaf]; rfl)]
      exact (confined_atFirst (f := (·.update attribs)) (fun _ => rfl) fun _ => rfl).absent other h hnone
  leaves up other h h' := leaves_addLeaf_other h' h
  others up other h := by
    cases hleaf : firstAt (above ++ [leaf]) root with
    | none =>
      rw [addLeaf_new hleaf]
      rw [firstAt_concat, List.head?_eq_none_iff] at hleaf
      by_cases hup : up ++ [other] <+: above ++ [leaf]
      · rcases List.prefix_concat_iff.mp hup with hsame | hup
        · obtain ⟨rfl, hlast⟩ := List.append_inj' hsame rfl
          obtain rfl := List.singleton_inj.mp hlast
          have hself : TreePaths.leaves up other
              (addBelow (Element.update { tag := other } attribs) up root) = _ := leaves_addBelow_self
          rw [hself, Element.tag_update, hleaf]
          rfl
        · exact tail_leaves_addBelow hup
      · rw [leaves_addBelow_other hup h]
    | some e =>
      rw [addLeaf_there (by rw [hleaf]; rfl)]
      exact tail_leaves_atFirst (fun _ => rfl) h

end Edits

end TdxTools.CloudStack.DocumentView
