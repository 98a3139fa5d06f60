import Mathlib.Data.List.Basic
import TdxTools.CloudStack.DomainXml

namespace TdxTools.CloudStack.SettledTree

open Python.Text Python.ElementTree DomainXml

/-- What becomes of an element. -/
inductive Fate
  | keep
  | text (t : Str)
  | gone
  deriving DecidableEq

namespace Fate

def apply : Fate → Element → List Element
  | keep, e => [e]
  | text t, e => [e.withText (some t)]
  | gone, _ => []

/-- What is found of a single element. -/
def found : Fate → Option Element → Option Element
  | keep, e => e
  | text t, e => e.map (·.withText (some t))
  | gone, _ => none

@[simp] theorem found_none (fate : Fate) : fate.found none = none := by
  cases fate with
  | keep | text _ | gone => rfl

theorem tag_apply {fate : Fate} {e c : Element} (h : c ∈ fate.apply e) : c.tag = e.tag := by
  cases fate with
  | keep =>
    have hc : c = e := List.mem_singleton.mp h
    rw [hc]
  | text t =>
    have hc : c = e.withText (some t) := List.mem_singleton.mp h
    rw [hc]
    rfl
  | gone => cases h

theorem filter_apply (fate : Fate) (e : Element) (tag : Str) :
    (fate.apply e).filter (·.tag = tag) = if e.tag = tag then fate.apply e else [] := by
  by_cases h : e.tag = tag
  · rw [if_pos h]
    apply List.filter_eq_self.mpr
    intro c hc
    exact decide_eq_true ((tag_apply hc).trans h)
  · rw [if_neg h]
    apply List.filter_eq_nil_iff.mpr
    intro c hc hctag
    exact h ((tag_apply hc).symm.trans (of_decide_eq_true hctag))

/-- The later fate of an element counts, when it was not gone before. -/
theorem apply_flatMap {fate after : Fate} (hafter : after ≠ keep) (h : fate ≠ gone ∨ after = gone)
    (e : Element) : (fate.apply e).flatMap after.apply = after.apply e := by
  cases fate with
  | keep => exact List.flatMap_singleton _ _
  | text _ =>
    cases after with
    | keep => exact absurd rfl hafter
    | text _ | gone => rfl
  | gone =>
    have hgone : after = gone := h.resolve_left (· rfl)
    subst hgone
    rfl

/-- One tag has a fate and the others are kept. -/
theorem update_apply (tag : Str) (fate : Fate) (c : Element) :
    (Function.update (fun _ => keep) tag fate c.tag).apply c =
      if c.tag = tag then fate.apply c else [c] := by
  by_cases hc : c.tag = tag
  · rw [if_pos hc, hc, Function.update_self]
  · rw [if_neg hc, Function.update_of_ne hc]
    rfl

end Fate

section Children

variable {fate : Str → Fate} {f : Element → Element} {tag : Str} {e : Element}

/-- Change the children by their tags, after changing each by `f`. -/
def change (fate : Str → Fate) (f : Element → Element) (e : Element) : Element :=
  { e with children := e.children.flatMap fun child => (fate child.tag).apply (f child) }

@[simp] theorem tag_change : (change fate f e).tag = e.tag := rfl

theorem findall_change (hf : ∀ c, (f c).tag = c.tag) :
    (change fate f e).findall tag = (e.findall tag).flatMap fun c => (fate tag).apply (f c) := by
  have hchild (c : Element) : ((fate c.tag).apply (f c)).filter (·.tag = tag) =
      if c.tag = tag then (fate tag).apply (f c) else [] := by
    rw [Fate.filter_apply, hf]
    by_cases h : c.tag = tag
    · rw [if_pos h, if_pos h, h]
    · rw [if_neg h, if_neg h]
  rw [Element.findall, change, List.filter_flatMap, Element.findall]
  induction e.children with
  | nil => rfl
  | cons c rest ih =>
    rw [List.flatMap_cons, ih, hchild]
    by_cases h : c.tag = tag
    · simp [h]
    · simp [h]

theorem findall_change_gone (hf : ∀ c, (f c).tag = c.tag) (h : fate tag = .gone) :
    (change fate f e).findall tag = [] := by
  rw [findall_change hf, h]
  exact List.flatMap_eq_nil_iff.mpr fun _ _ => rfl

theorem change_id (h : ∀ c ∈ e.children, fate c.tag = .keep) (hf : ∀ c, f c = c) :
    change fate f e = e := by
  have hchildren : e.children.flatMap (fun c => (fate c.tag).apply (f c)) = e.children := by
    conv => rhs; rw [← List.flatMap_singleton' e.children]
    apply List.flatMap_congr
    intro c hc
    rw [h c hc, hf]
    rfl
  obtain ⟨tag, attrib, text, tail, children⟩ := e
  exact congrArg (Element.mk tag attrib text tail) hchildren

/-- A change after a change, when what it is for was not gone before. -/
theorem change_change {after : Fate} (hf : ∀ c, (f c).tag = c.tag) (hafter : after ≠ .keep)
    (h : fate tag ≠ .gone ∨ after = .gone) :
    change (Function.update (fun _ => .keep) tag after) id (change fate f e) =
      change (Function.update fate tag after) f e := by
  have hchild (c : Element) : ((fate c.tag).apply (f c)).flatMap (fun d =>
      (Function.update (fun _ => Fate.keep) tag after d.tag).apply d) =
      (Function.update fate tag after c.tag).apply (f c) := by
    have hsame : ((fate c.tag).apply (f c)).flatMap (fun d =>
        (Function.update (fun _ => Fate.keep) tag after d.tag).apply d) =
        ((fate c.tag).apply (f c)).flatMap
          (Function.update (fun _ => Fate.keep) tag after c.tag).apply := by
      apply List.flatMap_congr
      intro d hd
      rw [(Fate.tag_apply hd).trans (hf c)]
    by_cases hc : c.tag = tag
    · rw [hsame, hc, Function.update_self, Function.update_self]
      exact Fate.apply_flatMap hafter h _
    · rw [hsame, Function.update_of_ne hc, Function.update_of_ne hc]
      exact List.flatMap_singleton' _
  simp only [change, List.flatMap_assoc, id]
  simp only [hchild]

theorem findSingle_one : findSingle [tag] e =
    match e.findall tag with
    | [item] => some item
    | _ => none := rfl

theorem findSingle_cons {tags : List Str} (h : tags ≠ []) :
    findSingle (tag :: tags) e = (findSingle [tag] e).bind (findSingle tags) := by
  rw [findSingle, findSingle_one]
  match e.findall tag with
  | [] => rfl
  | [item] => exact if_neg h
  | _ :: _ :: _ => rfl

theorem findSingle_eq_some {item : Element} :
    findSingle [tag] e = some item ↔ e.findall tag = [item] := by
  rw [findSingle_one]
  match e.findall tag with
  | [] => simp
  | [_] => simp
  | _ :: _ :: _ => simp

theorem tag_findSingle {item : Element} (h : findSingle [tag] e = some item) : item.tag = tag := by
  have hmem : item ∈ e.findall tag := by simp [findSingle_eq_some.mp h]
  simpa using (List.mem_filter.mp hmem).2

theorem findSingle_change (hf : ∀ c, (f c).tag = c.tag) :
    findSingle [tag] (change fate f e) = (fate tag).found ((findSingle [tag] e).map f) := by
  cases hfate : fate tag with
  | keep | text _ =>
    rw [findSingle_one, findall_change hf, findSingle_one, hfate]
    match e.findall tag with
    | [] | [_] | _ :: _ :: _ => rfl
  | gone =>
    rw [findSingle_one, findall_change_gone hf hfate]
    rfl

end Children

section Settled

variable {fate : List Str → Fate} {root : Element}

/-- The elements below the root and their children, each with its fate. -/
def settle (fate : List Str → Fate) (root : Element) : Element :=
  change (fun tag => fate [tag])
    (fun child => change (fun leaf => fate [child.tag, leaf]) id child) root

/-- Nothing becomes of the elements above and below the path. -/
def Alone (fate : List Str → Fate) : List Str → Prop
  | [tag] => ∀ leaf, fate [tag, leaf] = .keep
  | [tag, _] => fate [tag] = .keep
  | _ => False

theorem Alone.ne_nil {path : List Str} (h : Alone fate path) : path ≠ [] := by
  rintro rfl
  exact h

theorem settle_keep : settle (fun _ => .keep) root = root :=
  change_id (fun _ _ => rfl) fun _ => change_id (fun _ _ => rfl) fun _ => rfl

theorem findSingle_settle {path : List Str} (h : Alone fate path) :
    findSingle path (settle fate root) = (fate path).found (findSingle path root) := by
  match path, h with
  | [tag], h =>
    rw [settle, findSingle_change fun _ => tag_change]
    cases hone : findSingle [tag] root with
    | none => rfl
    | some item =>
      have hitem : change (fun leaf => fate [item.tag, leaf]) id item = item := by
        apply change_id
        · intro c _
          rw [tag_findSingle hone]
          exact h c.tag
        · exact fun _ => rfl
      rw [Option.map_some, hitem]
  | [tag, leaf], h =>
    have hkeep : fate [tag] = .keep := h
    rw [findSingle_cons (List.cons_ne_nil _ _), settle, findSingle_change fun _ => tag_change, hkeep,
      findSingle_cons (List.cons_ne_nil _ _)]
    cases hone : findSingle [tag] root with
    | none => exact (Fate.found_none _).symm
    | some item =>
      have hitem : findSingle [leaf] (change (fun l => fate [tag, l]) id item) =
          (fate [tag, leaf]).found ((findSingle [leaf] item).map id) :=
        findSingle_change fun _ => rfl
      rw [Option.map_id] at hitem
      rw [Fate.found, Option.map_some, Option.bind_some, Option.bind_some, tag_findSingle hone]
      exact hitem

/-- The elements at a path below the root, however many. -/
def elementsAt : List Str → Element → List Element
  | [], e => [e]
  | tag :: tags, e => (e.findall tag).flatMap (elementsAt tags)

/-- Nothing is left at a path whose elements are gone. -/
theorem elementsAt_settle_gone {path : List Str} (h : Alone fate path) (hgone : fate path = .gone) :
    elementsAt path (settle fate root) = [] := by
  match path, h, hgone with
  | [tag], _, hgone =>
    rw [elementsAt, settle, findall_change_gone (fun _ => tag_change) hgone]
    rfl
  | [tag, leaf], h, hgone =>
    have hkeep : fate [tag] = .keep := h
    rw [elementsAt, settle, findall_change fun _ => tag_change, hkeep]
    apply List.flatMap_eq_nil_iff.mpr
    intro c hc
    obtain ⟨d, hd, hcd⟩ := List.mem_flatMap.mp hc
    have hchild : c = change (fun leaf => fate [d.tag, leaf]) id d := List.mem_singleton.mp hcd
    have htag : d.tag = tag := by simpa using (List.mem_filter.mp hd).2
    rw [← htag] at hgone
    have hnone : (change (fun leaf => fate [d.tag, leaf]) id d).findall leaf = [] :=
      findall_change_gone (fun _ => rfl) hgone
    rw [hchild, elementsAt, hnone]
    rfl

/-- Change what is at a path below every element on the way. -/
def alterAt (after : Fate) : List Str → Element → Element
  | [], e => e
  | [tag], e => change (Function.update (fun _ => .keep) tag after) id e
  | tag :: tags, e => e.inEach tag (alterAt after tags)

theorem update_behind (fate : List Str → Fate) (above : List Str) (tag : Str) (after : Fate) :
    Function.update (fun t => fate (above ++ [t])) tag after =
      fun t => Function.update fate (above ++ [tag]) after (above ++ [t]) := by
  funext t
  by_cases ht : t = tag
  · rw [ht, Function.update_self, Function.update_self]
  · have hne : above ++ [t] ≠ above ++ [tag] := fun he => ht (by simpa using he)
    rw [Function.update_of_ne ht, Function.update_of_ne hne]

theorem alterAt_leaf {leaf : Str} {after : Fate} (h : fate [tag] = .keep) (hafter : after ≠ .keep)
    (hgone : fate [tag, leaf] ≠ .gone ∨ after = .gone) (c : Element) :
    ((fate [c.tag]).apply (change (fun l => fate [c.tag, l]) id c)).map (fun d =>
        if d.tag = tag then alterAt after [leaf] d else d) =
      (fate [c.tag]).apply
        (change (fun l => Function.update fate [tag, leaf] after [c.tag, l]) id c) := by
  by_cases hc : c.tag = tag
  · have hbehind : Function.update (fun l => fate [tag, l]) leaf after =
        fun l => Function.update fate [tag, leaf] after [tag, l] := update_behind fate [tag] leaf after
    have hchange : alterAt after [leaf] (change (fun l => fate [tag, l]) id c) =
        change (Function.update (fun l => fate [tag, l]) leaf after) id c :=
      change_change (fun _ => rfl) hafter hgone
    have htag : (change (fun l => fate [tag, l]) id c).tag = tag := hc
    rw [hc, h, ← hbehind, ← hchange]
    exact congrArg (fun d => [d]) (if_pos htag)
  · have hother : (fun l => Function.update fate [tag, leaf] after [c.tag, l]) =
        fun l => fate [c.tag, l] := by
      funext l
      exact Function.update_of_ne (by simp [hc]) _ _
    rw [hother]
    calc _ = ((fate [c.tag]).apply (change (fun l => fate [c.tag, l]) id c)).map id := by
          apply List.map_congr_left
          intro d hd
          exact if_neg fun htag => hc ((Fate.tag_apply hd).symm.trans htag)
      _ = _ := List.map_id _

theorem alterAt_settle {path : List Str} {after : Fate} (h : Alone fate path)
    (hafter : after ≠ .keep) (hgone : fate path ≠ .gone ∨ after = .gone) :
    alterAt after path (settle fate root) = settle (Function.update fate path after) root := by
  match path, h, hgone with
  | [tag], _, hgone =>
    have hbehind : Function.update (fun t => fate [t]) tag after =
        fun t => Function.update fate [tag] after [t] := update_behind fate [] tag after
    have hbelow (child : Element) :
        (fun leaf => Function.update fate [tag] after [child.tag, leaf]) =
          fun leaf => fate [child.tag, leaf] := by
      funext leaf
      exact Function.update_of_ne (by simp) _ _
    rw [alterAt, settle, change_change (fun _ => tag_change) hafter hgone, settle, hbehind]
    simp only [hbelow]
  | [tag, leaf], h, hgone =>
    have habove (t : Str) : Function.update fate [tag, leaf] after [t] = fate [t] :=
      Function.update_of_ne (by simp) _ _
    have hchild := alterAt_leaf h hafter hgone
    simp only [change, alterAt] at hchild
    simp only [alterAt, Element.inEach, settle, change, List.map_flatMap, habove, hchild]

end Settled

section Writing

variable {fate : List Str → Fate} {root e : Element} {tag : Str}

theorem inSingle_eq {path : List Str} (h : path ≠ []) (t : Str) (e : Element) :
    inSingle path (·.withText (some t)) e = alterAt (.text t) path e := by
  induction path generalizing e with
  | nil => exact absurd rfl h
  | cons tag tags ih =>
    cases tags with
    | nil =>
      have hchild (c : Element) : [if c.tag = tag then c.withText (some t) else c] =
          if c.tag = tag then (Fate.text t).apply c else [c] := by
        by_cases hc : c.tag = tag
        · rw [if_pos hc, if_pos hc]
          rfl
        · rw [if_neg hc, if_neg hc]
      simp only [inSingle, Element.inEach, alterAt, change, List.map_eq_flatMap, hchild, id,
        Fate.update_apply]
    | cons next rest =>
      have hrest : inSingle (next :: rest) (·.withText (some t)) =
          alterAt (.text t) (next :: rest) := by
        funext c
        exact ih (List.cons_ne_nil _ _) c
      rw [inSingle, alterAt, hrest]
      exact List.cons_ne_nil _ _

theorem tag_ne_of_none {children : List Element} (h : children.filter (·.tag = tag) = [])
    {c : Element} (hc : c ∈ children) : c.tag ≠ tag := by
  have hnot := List.filter_eq_nil_iff.mp h c hc
  simpa using hnot

/-- Removing the first element with the tag removes each of them, when it is the only one. -/
theorem eraseP_of_single {item : Element} {children : List Element}
    (h : children.filter (·.tag = tag) = [item]) :
    children.eraseP (·.tag = tag) = children.flatMap fun c => if c.tag = tag then [] else [c] := by
  induction children with
  | nil => rfl
  | cons c rest ih =>
    by_cases hc : c.tag = tag
    · rw [List.filter_cons_of_pos (by simp [hc]), List.cons.injEq] at h
      rw [List.eraseP_cons_of_pos (by simp [hc]), List.flatMap_cons, if_pos hc, List.nil_append]
      calc rest = rest.flatMap fun d => [d] := (List.flatMap_singleton' rest).symm
        _ = _ := List.flatMap_congr fun d hd => (if_neg (tag_ne_of_none h.2 hd)).symm
    · rw [List.filter_cons_of_neg (by simp [hc])] at h
      rw [List.eraseP_cons_of_neg (by simp [hc]), List.flatMap_cons, if_neg hc, ih h]
      rfl

theorem changeFirst_of_single {f : Element → Element} {item : Element} {children : List Element}
    (h : children.filter (·.tag = tag) = [item]) :
    Element.changeFirst tag f children =
      children.map fun child => if child.tag = tag then f child else child := by
  induction children with
  | nil => rfl
  | cons c rest ih =>
    by_cases hc : c.tag = tag
    · rw [List.filter_cons_of_pos (by simp [hc]), List.cons.injEq] at h
      rw [Element.changeFirst, if_pos hc, List.map_cons, if_pos hc]
      apply congrArg (f c :: ·)
      calc rest = rest.map id := (List.map_id rest).symm
        _ = _ := List.map_congr_left fun d hd => (if_neg (tag_ne_of_none h.2 hd)).symm
    · rw [List.filter_cons_of_neg (by simp [hc])] at h
      rw [Element.changeFirst, if_neg hc, List.map_cons, if_neg hc, ih h]

/-- What is deleted by the first matches is all that is at the path of a single element. -/
theorem deleteFirst_eq {path : List Str} (h : (findSingle path e).isSome) :
    deleteFirst path e = alterAt .gone path e := by
  induction path generalizing e with
  | nil => rfl
  | cons tag tags ih =>
    cases tags with
    | nil =>
      obtain ⟨item, hitem⟩ := Option.isSome_iff_exists.mp h
      rw [deleteFirst, eraseP_of_single (findSingle_eq_some.mp hitem), alterAt, change]
      simp only [Fate.update_apply, id]
      rfl
    | cons next rest =>
      rw [findSingle_cons (List.cons_ne_nil _ _)] at h
      obtain ⟨below, hbelow⟩ := Option.isSome_iff_exists.mp h
      obtain ⟨item, hitem, hfound⟩ := Option.bind_eq_some_iff.mp hbelow
      have hsingle := findSingle_eq_some.mp hitem
      rw [deleteFirst, Element.inFirst, changeFirst_of_single hsingle, alterAt, Element.inEach]
      · apply congrArg (Element.mk e.tag e.attrib e.text e.tail)
        apply List.map_congr_left
        intro c hc
        by_cases htag : c.tag = tag
        · have hmem : c ∈ e.findall tag := List.mem_filter.mpr ⟨hc, decide_eq_true htag⟩
          rw [hsingle] at hmem
          have hitem : c = item := List.mem_singleton.mp hmem
          rw [if_pos htag, if_pos htag, hitem]
          exact ih (Option.isSome_of_mem hfound)
        · rw [if_neg htag, if_neg htag]
      · exact List.cons_ne_nil _ _
      · exact List.cons_ne_nil _ _

end Writing

end TdxTools.CloudStack.SettledTree
