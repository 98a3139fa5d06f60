import TdxTools.CloudStack.SettledTree

namespace TdxTools.CloudStack.DomainSettings

open Python.Text Python.Exec Python.ElementTree DomainXml SettledTree

section Assigning

/-- What an assignment makes of the tree and of the copies. -/
def written (property : Property) (value : Option Str) (root : Element)
    (cached : Property → Option Str) : Element × (Property → Option Str) :=
  if cached property = value then (root, cached)
  else
    match value with
    | none => (deleteFirst property.path root, Function.update cached property none)
    | some v =>
      if (findSingle property.path root).isSome then
        (inSingle property.path (·.withText (some v)) root, Function.update cached property (some v))
      else (root, cached)

section Written

variable {p : Property} {value : Option Str} {root e : Element} {cached : Property → Option Str}
  {t : Str}

theorem written_same (h : cached p = value) : written p value root cached = (root, cached) :=
  if_pos h

theorem written_deleted (h : cached p ≠ none) : written p none root cached =
    (deleteFirst p.path root, Function.update cached p none) :=
  if_neg h

theorem written_refused (h : cached p ≠ some t) (hnone : findSingle p.path root = none) :
    written p (some t) root cached = (root, cached) := by
  simp [written, h, hnone]

theorem written_text (h : cached p ≠ some t) (hsome : findSingle p.path root = some e) :
    written p (some t) root cached =
      (inSingle p.path (·.withText (some t)) root, Function.update cached p (some t)) := by
  simp [written, h, hsome]

end Written

variable (saving : Element → Str → Saving) {s : VirtXml} {root : Element}

theorem findSingleElement_run (h : s.tree = some root) (path : List Str) :
    VirtXml.findSingleElement path s = (.ok (findSingle path root), s) := by
  have hroot : VirtXml.root s = (.ok root, s) := by rw [VirtXml.root, h, Outcome.ofOption_some]
  exact Py.bind_ok hroot

theorem setSingle_missing (h : s.tree = some root) {path : List Str}
    (hnone : findSingle path root = none) (v : Option Str) :
    VirtXml.setSingleElementValue path v s = (.ok false, s) := by
  rw [VirtXml.setSingleElementValue, Py.bind_ok (findSingleElement_run h path), hnone]
  rfl

theorem setSingle_found (h : s.tree = some root) {path : List Str} {e : Element}
    (hsome : findSingle path root = some e) (v : Option Str) :
    VirtXml.setSingleElementValue path v s =
      (.ok true, { s with tree := some (inSingle path (·.withText v) root) }) := by
  rw [VirtXml.setSingleElementValue, Py.bind_ok (findSingleElement_run h path), hsome]
  exact Py.bind_ok (VirtXml.onTree_run h _)

theorem saved_same (s : VirtXml) :
    VirtXml.Same s ((do
      let _ ← VirtXml.save saving none
      pure ()) s).2 :=
  Py.Keeps.bind (R := VirtXml.Same) VirtXml.Same.trans (VirtXml.save_keeps saving none)
    (fun _ _ => ⟨rfl, rfl⟩) s

theorem setText_run (h : s.tree = some root) (p : Property) (v : Str) :
    (VirtXml.setText saving p v s).2.tree = some (written p (some v) root s.cached).1 ∧
      (VirtXml.setText saving p v s).2.cached = (written p (some v) root s.cached).2 := by
  rw [VirtXml.setText, Py.get_bind_apply]
  by_cases hsame : s.cached p = some v
  · rw [if_pos hsame, written_same hsame]
    exact ⟨h, rfl⟩
  · rw [if_neg hsame]
    cases hfound : findSingle p.path root with
    | none =>
      have hsaved := saved_same saving s
      rw [Py.bind_ok (setSingle_missing h hfound _), written_refused hsame hfound]
      exact ⟨hsaved.1.trans h, hsaved.2⟩
    | some e =>
      have hsaved := saved_same saving { s with
        tree := some (inSingle p.path (·.withText (some v)) root)
        cached := Function.update s.cached p (some v) }
      rw [Py.bind_ok (setSingle_found h hfound _), written_text hsame hfound]
      exact hsaved

theorem setOptional_run (h : s.tree = some root) {p : Property} (hp : p.path ≠ [])
    (v : Option Str) :
    (VirtXml.setOptional saving p v s).2.tree = some (written p v root s.cached).1 ∧
      (VirtXml.setOptional saving p v s).2.cached = (written p v root s.cached).2 := by
  cases v with
  | some v => exact setText_run saving h p v
  | none =>
    rw [VirtXml.setOptional, Py.get_bind_apply]
    by_cases hsame : s.cached p = none
    · rw [if_pos hsame, written_same hsame]
      exact ⟨h, rfl⟩
    · have hdelete : VirtXml.deleteElement p.path s =
          (.ok (), { s with tree := some (deleteFirst p.path root) }) := by
        rw [VirtXml.deleteElement, if_neg hp]
        exact VirtXml.onTree_run h _
      have hsaved := saved_same saving { s with
        tree := some (deleteFirst p.path root)
        cached := Function.update s.cached p none }
      rw [if_neg hsame, written_deleted hsame]
      dsimp only
      rw [Py.bind_ok hdelete]
      exact hsaved

theorem setVcpu_run (h : s.tree = some root) (v : VcpuNumber) :
    (VirtXml.setVcpu saving v s).2.tree = some (written .vcpu (some v.toText) root s.cached).1 ∧
      (VirtXml.setVcpu saving v s).2.cached = (written .vcpu (some v.toText) root s.cached).2 := by
  rw [VirtXml.setVcpu, Py.get_bind_apply]
  by_cases hsame : s.cached .vcpu = some v.toText
  · rw [if_pos hsame, written_same hsame]
    exact ⟨h, rfl⟩
  · rw [if_neg hsame]
    cases hfound : findSingle Property.vcpu.path root with
    | none =>
      rw [Py.bind_ok (setSingle_missing h hfound _), written_refused hsame hfound]
      exact ⟨h, rfl⟩
    | some e =>
      have hsaved := saved_same saving { s with
        tree := some (inSingle Property.vcpu.path (·.withText (some v.toText)) root)
        cached := Function.update s.cached .vcpu (some v.toText) }
      rw [Py.bind_ok (setSingle_found h hfound _), written_text hsame hfound]
      exact hsaved

/-- Each setter keeps the tree and the copies in step in the same way. -/
theorem assign_run (h : s.tree = some root) (a : Assignment) :
    (VirtXml.assign saving a s).2.tree = some (written a.property a.value root s.cached).1 ∧
      (VirtXml.assign saving a s).2.cached = (written a.property a.value root s.cached).2 := by
  cases a with
  | name v => exact setText_run saving h .name v
  | uuid v => exact setText_run saving h .uuid v
  | kernel v => exact setOptional_run saving h (by decide) v
  | cmdline v => exact setOptional_run saving h (by decide) v
  | loader v => exact setText_run saving h .loader v
  | memory v => exact setText_run saving h .memory v.toText
  | vcpu v => exact setVcpu_run saving h v

omit saving in
theorem keep_single {α : Type} (cached : Property → Option Str)
    (io cache imagefile filepath : Option Str) (p : Property) (f : Unit → Py VirtXml α) :
    (VirtXml.getSingleElementValue p.path >>= fun v => VirtXml.keep p v >>= f)
        ⟨some root, cached, io, cache, imagefile, filepath⟩ =
      f () ⟨some root, Function.update cached p ((findSingle p.path root).bind Element.text),
        io, cache, imagefile, filepath⟩ := rfl

omit saving in
/-- A loaded object has the tree of the file, and the text of each single element. -/
theorem load_run {parsed : Element} {filepath : Str} {s₀ : VirtXml}
    (h : VirtXml.load (some parsed) filepath s₀ = (.ok true, s)) :
    s.tree = some parsed ∧
      ∀ p : Property, s.cached p = (findSingle p.path parsed).bind Element.text := by
  rw [VirtXml.load, Py.modify_bind_apply, keep_single, keep_single, keep_single, keep_single,
    keep_single, keep_single, keep_single] at h
  obtain ⟨driver, -, h⟩ := Py.lift_bind_eq_ok.mp h
  rw [Py.modify_bind_apply] at h
  obtain ⟨image, -, h⟩ := Py.lift_bind_eq_ok.mp h
  rw [Py.modify_bind_apply, Py.pure_apply, Prod.mk.injEq] at h
  obtain ⟨-, rfl⟩ := h
  refine ⟨rfl, fun p => ?_⟩
  cases p <;> rfl

end Assigning

section Fates

def fateOf : Option Str → Fate
  | some t => .text t
  | none => .gone

/-- What becomes of an element when its property is assigned once more. -/
def assigned (original : Option Element) (fate : Fate) (value : Option Str) : Fate :=
  match fate.found original with
  | none => fate
  | some e => if e.text = value then fate else fateOf value

variable {original : Option Element} {e : Element} {fate : Fate} {value : Option Str}

theorem assigned_missing (h : fate.found original = none) : assigned original fate value = fate := by
  simp only [assigned, h]

theorem assigned_same (h : fate.found original = some e) (hsame : e.text = value) :
    assigned original fate value = fate := by
  simp only [assigned, h, if_pos hsame]

theorem assigned_other (h : fate.found original = some e) (hne : e.text ≠ value) :
    assigned original fate value = fateOf value := by
  simp only [assigned, h, if_neg hne]

theorem assigned_found (h : fate.found original = some e) (t : Str) :
    (assigned original fate (some t)).found original = some (e.withText (some t)) := by
  by_cases hsame : e.text = some t
  · have hwith : e.withText (some t) = e := by
      obtain ⟨tag, attrib, text, tail, children⟩ := e
      exact congrArg (Element.mk tag attrib · tail children) hsame.symm
    rw [assigned_same h hsame, h, hwith]
  · rw [assigned_other h hsame]
    cases fate with
    | keep => exact congrArg (Option.map (·.withText (some t))) h
    | text u =>
      obtain ⟨e₀, horiginal, rfl⟩ := Option.map_eq_some_iff.mp h
      exact congrArg (Option.map (·.withText (some t))) horiginal
    | gone => cases h

theorem foldl_assigned_none (values : List (Option Str)) (fate : Fate) :
    values.foldl (assigned none) fate = fate := by
  induction values generalizing fate with
  | nil => rfl
  | cons v rest ih => rw [List.foldl_cons, assigned_missing (Fate.found_none fate), ih]

theorem foldl_assigned_gone (original : Option Element) (values : List (Option Str)) :
    values.foldl (assigned original) .gone = .gone := by
  induction values with
  | nil => rfl
  | cons v rest ih => exact ih

/-- Without a `None`, the last of the values is found. -/
theorem foldl_assigned_last {values : List (Option Str)}
    (hnone : none ∉ values) (h : fate.found original = some e) :
    (values.foldl (assigned original) fate).found original =
      some (match values.getLast? with
        | none => e
        | some v => e.withText v) := by
  induction values generalizing fate e with
  | nil => exact h
  | cons v rest ih =>
    obtain ⟨hv, hrest⟩ := not_or.mp (mt List.mem_cons.mpr hnone)
    obtain ⟨t, rfl⟩ := Option.ne_none_iff_exists'.mp (Ne.symm hv)
    rw [List.foldl_cons, ih hrest (assigned_found h t)]
    cases rest with
    | nil => rfl
    | cons w more =>
      rw [List.getLast?_cons_cons]
      cases hlast : (w :: more).getLast? with
      | none => exact absurd (List.getLast?_eq_none_iff.mp hlast) (List.cons_ne_nil _ _)
      | some u => rfl

/-- What is still found has a text. -/
def Bearing (e : Element) (fate : Fate) : Prop :=
  ∀ found, fate.found (some e) = some found → found.text ≠ none

theorem bearing_text (e : Element) (fate : Fate) (t : Str) :
    Bearing e (assigned (some e) fate (some t)) := by
  intro found hfound
  cases hcurrent : fate.found (some e) with
  | none =>
    rw [assigned_missing hcurrent, hcurrent] at hfound
    cases hfound
  | some current =>
    rw [assigned_found hcurrent t, Option.some.injEq] at hfound
    rw [← hfound]
    exact Option.some_ne_none t

theorem Bearing.deleted (h : Bearing e fate) : assigned (some e) fate none = .gone := by
  cases hcurrent : fate.found (some e) with
  | none =>
    rw [assigned_missing hcurrent]
    cases fate with
    | keep | text _ => cases hcurrent
    | gone => rfl
  | some current => exact assigned_other hcurrent (h current hcurrent)

theorem Bearing.foldl (h : Bearing e fate) (values : List (Option Str)) :
    Bearing e (values.foldl (assigned (some e)) fate) := by
  induction values generalizing fate with
  | nil => exact h
  | cons v rest ih =>
    apply ih
    cases v with
    | some t => exact bearing_text e fate t
    | none =>
      rw [h.deleted]
      intro found hfound
      cases hfound

/-- A `None` for an element with a text is final, whatever is assigned afterwards. -/
theorem foldl_assigned_deleted {before after : List (Option Str)}
    (h : e.text ≠ none ∨ ∃ t, some t ∈ before) :
    (before ++ none :: after).foldl (assigned (some e)) .keep = .gone := by
  have hbearing : Bearing e (before.foldl (assigned (some e)) .keep) := by
    rcases h with h | ⟨t, ht⟩
    · have hkeep : Bearing e .keep := fun found hfound => Option.some.inj hfound ▸ h
      exact hkeep.foldl before
    · obtain ⟨first, last, rfl⟩ := List.append_of_mem ht
      rw [List.foldl_append, List.foldl_cons]
      exact (bearing_text e _ t).foldl last
  rw [List.foldl_append, List.foldl_cons, hbearing.deleted, foldl_assigned_gone]

end Fates

section Settling

/-- The values that a property is assigned, in order. -/
def valuesOf (p : Property) (as : List Assignment) : List (Option Str) :=
  (as.filter (·.property = p)).map Assignment.value

/-- The copies are the texts of the single elements in the tree. -/
def Agrees (root : Element) (cached : Property → Option Str) : Prop :=
  ∀ p : Property, cached p = (findSingle p.path root).bind Element.text

/-- Nothing becomes of elements that no property is about. -/
def AboutProperties (fate : List Str → Fate) : Prop :=
  ∀ path, fate path ≠ .keep → ∃ p : Property, p.path = path

variable {fate : List Str → Fate} {parsed : Element} {cached : Property → Option Str}

theorem path_injective : Function.Injective Property.path := by
  intro p q h
  cases p <;> cases q <;> first | rfl | exact absurd h (by decide)

theorem AboutProperties.alone (h : AboutProperties fate) (p : Property) : Alone fate p.path := by
  have hkeep (path : List Str) (hpath : ∀ q : Property, q.path ≠ path) : fate path = .keep := by
    by_contra hne
    obtain ⟨q, hq⟩ := h path hne
    exact hpath q hq
  cases p with
  | name | uuid | memory | vcpu =>
    intro leaf
    apply hkeep
    intro q hq
    cases q <;> simp [Property.path] at hq
  | kernel | cmdline | loader =>
    apply hkeep
    intro q hq
    cases q <;> simp [Property.path] at hq

theorem AboutProperties.update (h : AboutProperties fate) (p : Property) (after : Fate) :
    AboutProperties (Function.update fate p.path after) := by
  intro path hpath
  by_cases hp : path = p.path
  · exact ⟨p, hp.symm⟩
  · rw [Function.update_of_ne hp] at hpath
    exact h path hpath

theorem Agrees.update (hfate : AboutProperties fate) (h : Agrees (settle fate parsed) cached)
    {p : Property} {after : Fate} {value : Option Str}
    (hvalue : value = (after.found (findSingle p.path parsed)).bind Element.text) :
    Agrees (settle (Function.update fate p.path after) parsed) (Function.update cached p value) := by
  intro q
  rw [findSingle_settle ((hfate.update p after).alone q)]
  by_cases hq : q = p
  · rw [hq, Function.update_self, Function.update_self, hvalue]
  · rw [Function.update_of_ne hq, Function.update_of_ne fun he => hq (path_injective he), h q,
      findSingle_settle (hfate.alone q)]

/-- Each assignment settles one element, and keeps the copies with the tree. -/
theorem written_settle (hfate : AboutProperties fate) (h : Agrees (settle fate parsed) cached)
    (p : Property) (value : Option Str) :
    let after := assigned (findSingle p.path parsed) (fate p.path) value
    (written p value (settle fate parsed) cached).1 =
        settle (Function.update fate p.path after) parsed ∧
      Agrees (settle (Function.update fate p.path after) parsed)
        (written p value (settle fate parsed) cached).2 := by
  have hfind : findSingle p.path (settle fate parsed) =
      (fate p.path).found (findSingle p.path parsed) := findSingle_settle (hfate.alone p)
  have hcached := h p
  rw [hfind] at hcached
  dsimp only
  by_cases hsame : cached p = value
  · have hkeep : assigned (findSingle p.path parsed) (fate p.path) value = fate p.path := by
      cases hfound : (fate p.path).found (findSingle p.path parsed) with
      | none => exact assigned_missing hfound
      | some e =>
        rw [hfound] at hcached
        exact assigned_same hfound (hcached.symm.trans hsame)
    rw [written_same hsame, hkeep, Function.update_eq_self]
    exact ⟨rfl, h⟩
  · cases hfound : (fate p.path).found (findSingle p.path parsed) with
    | none =>
      rw [hfound] at hfind hcached
      cases value with
      | none => exact absurd hcached hsame
      | some t =>
        rw [written_refused hsame hfind, assigned_missing hfound, Function.update_eq_self]
        exact ⟨rfl, h⟩
    | some e =>
      rw [hfound] at hfind hcached
      rw [assigned_other hfound fun he => hsame (hcached.trans he)]
      cases value with
      | none =>
        rw [written_deleted hsame, deleteFirst_eq (by simp [hfind]),
          alterAt_settle (hfate.alone p) Fate.noConfusion (.inr rfl)]
        exact ⟨rfl, h.update hfate rfl⟩
      | some t =>
        have hthere : fate p.path ≠ .gone := by
          intro hgone
          rw [hgone] at hfound
          cases hfound
        have hvalue : some t = ((fateOf (some t)).found (findSingle p.path parsed)).bind
            Element.text := by
          cases horiginal : findSingle p.path parsed with
          | none =>
            rw [horiginal, Fate.found_none] at hfound
            cases hfound
          | some e₀ => rfl
        rw [written_text hsame hfind, inSingle_eq (hfate.alone p).ne_nil,
          alterAt_settle (hfate.alone p) Fate.noConfusion (.inl hthere)]
        exact ⟨rfl, h.update hfate hvalue⟩

/-- What becomes of the elements by a list of assignments. -/
def fatesAfter (parsed : Element) (fate : List Str → Fate) (as : List Assignment) :
    List Str → Fate :=
  as.foldl (fun fate a => Function.update fate a.property.path
    (assigned (findSingle a.property.path parsed) (fate a.property.path) a.value)) fate

theorem fatesAfter_path (p : Property) (as : List Assignment) :
    fatesAfter parsed fate as p.path =
      (valuesOf p as).foldl (assigned (findSingle p.path parsed)) (fate p.path) := by
  induction as generalizing fate with
  | nil => rfl
  | cons a rest ih =>
    rw [fatesAfter, List.foldl_cons, ← fatesAfter, ih, valuesOf, valuesOf]
    by_cases ha : a.property = p
    · rw [List.filter_cons_of_pos (by simp [ha]), ha, Function.update_self]
      rfl
    · rw [List.filter_cons_of_neg (by simp [ha]),
        Function.update_of_ne fun he => ha (path_injective he.symm)]

theorem assignAll_settle (saving : Element → Str → Saving) (as : List Assignment) {s : VirtXml}
    (htree : s.tree = some (settle fate parsed)) (hfate : AboutProperties fate)
    (h : Agrees (settle fate parsed) s.cached) :
    (VirtXml.assignAll saving as s).tree = some (settle (fatesAfter parsed fate as) parsed) ∧
      AboutProperties (fatesAfter parsed fate as) ∧
      Agrees (settle (fatesAfter parsed fate as) parsed) (VirtXml.assignAll saving as s).cached := by
  induction as generalizing s fate with
  | nil => exact ⟨htree, hfate, h⟩
  | cons a rest ih =>
    obtain ⟨hroot, hagrees⟩ := written_settle hfate h a.property a.value
    obtain ⟨htree', hcached'⟩ := assign_run saving htree a
    rw [hroot] at htree'
    rw [← hcached'] at hagrees
    exact ih htree' (hfate.update a.property _) hagrees

end Settling

/-- What a list of assignments to a loaded object comes to. Only an element that the document
has, and that no `None` deleted, is ever written. -/
theorem assignments_settle {parsed : Element} {filepath : Str} {s₀ s : VirtXml}
    (hload : VirtXml.load (some parsed) filepath s₀ = (.ok true, s))
    (saving : Element → Str → Saving) (as : List Assignment) :
    ∃ root, (VirtXml.assignAll saving as s).tree = some root ∧
      Agrees root (VirtXml.assignAll saving as s).cached ∧
      (∀ p : Property, valuesOf p as = [] → findSingle p.path root = findSingle p.path parsed) ∧
      (∀ p : Property, findSingle p.path parsed = none →
        findSingle p.path root = none ∧ (VirtXml.assignAll saving as s).cached p = none) ∧
      (∀ (p : Property) (e : Element) (v : Option Str), findSingle p.path parsed = some e →
        none ∉ valuesOf p as → (valuesOf p as).getLast? = some v →
        findSingle p.path root = some (e.withText v) ∧
          (VirtXml.assignAll saving as s).cached p = v) ∧
      (∀ (p : Property) (e : Element) (before after : List (Option Str)),
        findSingle p.path parsed = some e → valuesOf p as = before ++ none :: after →
        (e.text ≠ none ∨ ∃ t, some t ∈ before) →
        elementsAt p.path root = [] ∧ (VirtXml.assignAll saving as s).cached p = none) ∧
      ∃ fate : List Str → Fate, root = settle fate parsed ∧
        ∀ path, fate path ≠ .keep → ∃ p : Property, p.path = path ∧
          (findSingle path parsed).isSome ∧ valuesOf p as ≠ [] := by
  obtain ⟨htree, hcached⟩ := load_run hload
  have hkeep : AboutProperties fun _ => .keep := fun _ h => absurd rfl h
  have hunchanged : settle (fun _ => .keep) parsed = parsed := settle_keep
  have hstart : s.tree = some (settle (fun _ => .keep) parsed) := by rw [hunchanged, htree]
  have hagrees : Agrees (settle (fun _ => .keep) parsed) s.cached := by
    rw [hunchanged]
    exact hcached
  obtain ⟨hroot, hfate, hend⟩ := assignAll_settle saving as hstart hkeep hagrees
  have hfind (p : Property) :
      findSingle p.path (settle (fatesAfter parsed (fun _ => .keep) as) parsed) =
        ((valuesOf p as).foldl (assigned (findSingle p.path parsed)) .keep).found
          (findSingle p.path parsed) := by
    rw [findSingle_settle (hfate.alone p), fatesAfter_path]
  refine ⟨_, hroot, hend, ?_, ?_, ?_, ?_, _, rfl, ?_⟩
  · intro p hnil
    rw [hfind, hnil]
    rfl
  · intro p hnone
    have hstill := hfind p
    rw [hnone, Fate.found_none] at hstill
    exact ⟨hstill, by rw [hend p, hstill, Option.bind_none]⟩
  · intro p e v hsome hnone hlast
    have hfound := hfind p
    rw [hsome, foldl_assigned_last hnone rfl, hlast] at hfound
    exact ⟨hfound, by rw [hend p, hfound, Option.bind_some]; rfl⟩
  · intro p e before after hsome hvalues htext
    have hgone : (valuesOf p as).foldl (assigned (findSingle p.path parsed)) .keep = .gone := by
      rw [hsome, hvalues]
      exact foldl_assigned_deleted htext
    have hnone := hfind p
    rw [hgone, Fate.found] at hnone
    refine ⟨elementsAt_settle_gone (hfate.alone p) ?_, by rw [hend p, hnone, Option.bind_none]⟩
    rw [fatesAfter_path, hgone]
  · intro path hne
    obtain ⟨p, rfl⟩ := hfate path hne
    rw [fatesAfter_path] at hne
    refine ⟨p, rfl, ?_, ?_⟩
    · cases hfound : findSingle p.path parsed with
      | some e => rfl
      | none =>
        rw [hfound, foldl_assigned_none] at hne
        exact absurd rfl hne
    · intro hnil
      rw [hnil] at hne
      exact hne rfl

/-- A domain with a kernel and a disk. -/
def sampleDomain : Element :=
  { tag := "domain".toList
    children := [
      { tag := "os".toList
        children := [{ tag := "kernel".toList, text := some "vmlinuz".toList }] },
      { tag := "devices".toList
        children := [{
          tag := "disk".toList
          children := [{ tag := "driver".toList }, { tag := "source".toList }] }] }] }

def sampleLoaded : VirtXml :=
  (VirtXml.load (some sampleDomain) "domain.xml".toList {}).2

theorem assignments_settle_kernel :
    VirtXml.load (some sampleDomain) "domain.xml".toList {} = (.ok true, sampleLoaded) ∧
      ∃ root, (VirtXml.assignAll (fun _ _ => .saved) [.kernel (some "bzImage".toList)]
          sampleLoaded).tree = some root ∧
        findSingle Property.kernel.path root =
          some { tag := "kernel".toList, text := some "bzImage".toList } := by
  have hload : VirtXml.load (some sampleDomain) "domain.xml".toList {} =
      (.ok true, sampleLoaded) := rfl
  obtain ⟨root, hroot, -, -, -, hlast, -⟩ := assignments_settle hload (fun _ _ => .saved)
    [.kernel (some "bzImage".toList)]
  exact ⟨hload, root, hroot, (hlast .kernel _ _ rfl (by decide) rfl).1⟩

/-- A kernel that is deleted cannot be set again. -/
theorem last_write_lost :
    ¬ ∀ (parsed : Element) (filepath : Str) (s₀ s : VirtXml) (saving : Element → Str → Saving)
        (as : List Assignment), VirtXml.load (some parsed) filepath s₀ = (.ok true, s) →
        (∀ p : Property, (elementsAt p.path parsed).length ≤ 1) →
        ∀ (p : Property) (v : Option Str), (valuesOf p as).getLast? = some v →
          (VirtXml.assignAll saving as s).cached p = v := by
  intro h
  have hload : VirtXml.load (some sampleDomain) "domain.xml".toList {} =
      (.ok true, sampleLoaded) := rfl
  have hlast := h sampleDomain "domain.xml".toList {} sampleLoaded (fun _ _ => .saved)
    [.kernel none, .kernel (some "bzImage".toList)] hload
    (by intro p; cases p <;> decide +kernel) .kernel (some "bzImage".toList) rfl
  exact absurd hlast (by decide +kernel)

end TdxTools.CloudStack.DomainSettings
