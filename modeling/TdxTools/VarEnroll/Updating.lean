import TdxTools.VarEnroll.Submitting

namespace TdxTools.VarEnroll.Updating

open Python.ByteString Python.Exec Python.Text Python.Files Python.Table
open Guid Variable Store Codec Enroll VariableMap Operations Submitting

/-- What a variable is looked up by: its name and the text of its GUID. -/
abbrev StoreKey := Bytes × Str

def storeKey (v : VariableTimeBasedAuth) : StoreKey := (v.nameBlob, v.vendorGuidStr)

/-- The key that the store looks for. -/
def looked (name vendorGuid : Str) : StoreKey := (str2blob name, lower vendorGuid)

/-- The key of the variable that the arguments are about. The variables with a
certificate and dbx have a fixed one, the GUID that is given is no part of it. -/
def addressed (name guid : Str) : StoreKey :=
  if lower name = "pk".toList then looked "PK".toList EFI_GLOBAL_VARIABLE
  else if lower name = "kek".toList then looked "KEK".toList EFI_GLOBAL_VARIABLE
  else if lower name = "db".toList then looked "db".toList EFI_IMAGE_SECURITY_DATABASE_GUID
  else if lower name = "dbx".toList then looked "dbx".toList EFI_IMAGE_SECURITY_DATABASE_GUID
  else looked name guid

/-- Does the store hold a variable with the key? -/
def Held (store : VariableStore) (k : StoreKey) : Prop := ∃ v ∈ store.varsList, storeKey v = k

/-- The data of the variable and nothing else has been replaced. -/
structure Swapped (k : StoreKey) (content : Bytes) (vars vars' : List VariableTimeBasedAuth) :
    Prop where
  one : (vars'.filter (fun v => storeKey v = k)).map VariableTimeBasedAuth.data = [content]
  others : vars'.filter (fun v => storeKey v ≠ k) = vars.filter (fun v => storeKey v ≠ k)

section Store

variable {store : VariableStore} {name vendorGuid : Str}

theorem isVar_iff {v : VariableTimeBasedAuth} :
    VariableStore.isVar name vendorGuid v = true ↔ storeKey v = looked name vendorGuid := by
  rw [VariableStore.isVar, Bool.and_eq_true, beq_iff_eq, beq_iff_eq, storeKey, looked, Prod.ext_iff]

theorem finds_looked (vars : List VariableTimeBasedAuth) :
    Finds storeKey (VariableStore.isVar name vendorGuid) (looked name vendorGuid) vars :=
  fun _ _ => isVar_iff

theorem find_isSome_iff :
    (store.findVarInList name vendorGuid).isSome ↔ Held store (looked name vendorGuid) := by
  rw [VariableStore.findVarInList, List.find?_isSome]
  simp only [isVar_iff, Held]

theorem find_eq_none_iff :
    store.findVarInList name vendorGuid = none ↔ ¬ Held store (looked name vendorGuid) := by
  rw [← find_isSome_iff, Option.not_isSome_iff_eq_none]

theorem filter_eq_nil_iff {k : StoreKey} :
    store.varsList.filter (fun v => storeKey v = k) = [] ↔ ¬ Held store k := by
  simp [Held, List.filter_eq_nil_iff]

theorem find_of_filter {v : VariableTimeBasedAuth}
    (h : store.varsList.filter (fun v => storeKey v = looked name vendorGuid) = [v]) :
    store.findVarInList name vendorGuid = some v := by
  have heq : VariableStore.isVar name vendorGuid =
      fun v => decide (storeKey v = looked name vendorGuid) := by
    funext u
    rw [Bool.eq_iff_iff, isVar_iff, decide_eq_true_eq]
  rw [VariableStore.findVarInList, ← List.head?_filter, heq, h]
  rfl

theorem delVariable_held (h : Held store (looked name vendorGuid)) :
    store.delVariable name vendorGuid = (true,
      { store with varsList := store.varsList.eraseP (VariableStore.isVar name vendorGuid) }) := by
  obtain ⟨v, hv, hk⟩ := h
  exact if_pos (List.any_eq_true.mpr ⟨v, hv, isVar_iff.mpr hk⟩)

theorem delVariable_not_held (h : ¬ Held store (looked name vendorGuid)) :
    store.delVariable name vendorGuid = (false, store) := by
  apply if_neg
  intro hany
  obtain ⟨v, hv, hp⟩ := List.any_eq_true.mp hany
  exact h ⟨v, hv, isVar_iff.mp hp⟩

end Store

section Submission

variable {env : Env} {w : World} {name guid : Str} {dataFile : Option Str}
  {attributes : Option Int} {append : Bool} {sub : Submission} {store store' : VariableStore}

theorem looked_submission
    (h : submission env w name guid dataFile attributes append = some sub) :
    looked sub.name sub.vendorGuid = addressed name guid := by
  have hcert : ∀ {fixed vendor : Str} {sub : Submission},
      certSubmission env w fixed vendor guid dataFile = some sub →
        looked sub.name sub.vendorGuid = looked fixed vendor := by
    intro fixed vendor sub hsub
    obtain ⟨owner, -, hsub⟩ := Option.bind_eq_some_iff.mp hsub
    obtain ⟨list, -, rfl⟩ := Option.map_eq_some_iff.mp hsub
    rfl
  unfold submission at h
  unfold addressed
  split at h
  · next hpk =>
    cases append with
    | true => cases h
    | false =>
      rw [if_pos hpk]
      exact hcert h
  · next hpk =>
    rw [if_neg hpk]
    split at h
    · next hkek =>
      rw [if_pos hkek]
      exact hcert h
    · next hkek =>
      rw [if_neg hkek]
      split at h
      · next hdb =>
        rw [if_pos hdb]
        exact hcert h
      · next hdb =>
        rw [if_neg hdb]
        split at h
        · next hdbx =>
          rw [if_pos hdbx]
          obtain ⟨data, -, h⟩ := Option.bind_eq_some_iff.mp h
          obtain ⟨auth2, -, rfl⟩ := Option.map_eq_some_iff.mp h
          rfl
        · next hdbx =>
          rw [if_neg hdbx]
          obtain ⟨attributes, -, h⟩ := Option.bind_eq_some_iff.mp h
          obtain ⟨data, -, rfl⟩ := Option.map_eq_some_iff.mp h
          rfl

theorem submission_append (hpk : lower name ≠ "pk".toList) :
    submission env w name guid dataFile attributes true =
      submission env w name guid dataFile attributes false := by
  rw [submission, submission, if_neg hpk, if_neg hpk]

theorem not_pk_of_submission
    (h : submission env w name guid dataFile attributes true = some sub) :
    lower name ≠ "pk".toList := by
  intro hpk
  rw [submission, if_pos hpk, if_pos rfl] at h
  cases h

theorem into_others (h : sub.into env w append store = .ok store') :
    store'.varsList.filter (fun v => storeKey v ≠ looked sub.name sub.vendorGuid) =
      store.varsList.filter (fun v => storeKey v ≠ looked sub.name sub.vendorGuid) := by
  obtain ⟨x, -, rfl⟩ | ⟨-, g, -, rfl⟩ := VariableStore.addVariable_cases h
  · apply filter_modify_findIdx (finds_looked _)
    intro v
    cases append <;> rfl
  · rw [List.filter_append]
    simp [storeKey, looked]

theorem into_new (hnew : ¬ Held store (looked sub.name sub.vendorGuid)) {g : Bytes}
    (hg : str2guid (some sub.vendorGuid) = .ok g) : ∃ v store',
      sub.into env w append store = .ok store' ∧ store'.varsList = store.varsList ++ [v] ∧
      storeKey v = looked sub.name sub.vendorGuid ∧ v.data = sub.buffer ∧ v.dataSize = sub.size := by
  exact ⟨_, _, VariableStore.addVariable_miss (find_eq_none_iff.mpr hnew) hg, rfl, rfl, rfl, rfl⟩

/-- The only variable with the key is written over, or what is submitted is
appended to it. -/
theorem into_only {k : StoreKey} (hk : looked sub.name sub.vendorGuid = k)
    {v : VariableTimeBasedAuth}
    (hv : store.varsList.filter (fun v => storeKey v = k) = [v]) : ∃ v' store',
      sub.into env w append store = .ok store' ∧
      store'.varsList.filter (fun v => storeKey v = k) = [v'] ∧
      v'.data = (if append then v.data ++ sub.buffer else sub.buffer) ∧
      v'.dataSize = if append then v.dataSize + sub.size else sub.size := by
  subst hk
  refine ⟨_, _, VariableStore.addVariable_hit (find_of_filter hv),
    filter_modify_singleton (finds_looked _) ?_ hv, ?_, ?_⟩
  · intro u
    cases append <;> rfl
  · cases append <;> rfl
  · cases append <;> rfl

theorem into_other {k : StoreKey} (hk : k ≠ looked sub.name sub.vendorGuid)
    (h : sub.into env w append store = .ok store') :
    store'.varsList.filter (fun v => storeKey v = k) =
      store.varsList.filter (fun v => storeKey v = k) := by
  have hothers := congrArg (List.filter (fun v => decide (storeKey v = k))) (into_others h)
  have himp : ∀ v : VariableTimeBasedAuth, (decide (storeKey v = k) &&
      decide (storeKey v ≠ looked sub.name sub.vendorGuid)) = decide (storeKey v = k) := by
    intro v
    by_cases hv : storeKey v = k
    · simp [hv, hk]
    · simp [hv]
  simpa only [List.filter_filter, himp] using hothers

theorem guid_of_into (hnew : ¬ Held store (looked sub.name sub.vendorGuid))
    (h : sub.into env w append store = .ok store') :
    ∃ g, str2guid (some sub.vendorGuid) = .ok g := by
  obtain ⟨x, hfind, -⟩ | ⟨-, g, hg, -⟩ := VariableStore.addVariable_cases h
  · rw [find_eq_none_iff.mpr hnew] at hfind
    cases hfind
  · exact ⟨g, hg⟩

end Submission

section Update

variable {env : Env} {s s' : Session} {name guid : Str} {dataFile : Option Str}
  {attributes : Option Int}

theorem updateVariable_not_held (h : ¬ Held s.store (looked name guid)) :
    updateVariable env name guid dataFile attributes s = (.ok false, s) := by
  rw [updateVariable, Py.get_bind_apply, find_eq_none_iff.mpr h]
  rfl

/-- The session behind the deletion that an update starts with. -/
abbrev erased (name guid : Str) (s : Session) : Session :=
  { s with store := { s.store with
      varsList := s.store.varsList.eraseP (VariableStore.isVar name guid) } }

theorem updateVariable_held (h : Held s.store (looked name guid)) :
    updateVariable env name guid dataFile attributes s =
      addVariable env name guid dataFile attributes true (erased name guid s) := by
  obtain ⟨x, hx⟩ := Option.isSome_iff_exists.mp (find_isSome_iff.mpr h)
  have hdel : delVariable name guid s = (.ok true, erased name guid s) := by
    rw [delVariable_apply, delVariable_held h]
  rw [updateVariable, Py.get_bind_apply, hx]
  exact Py.bind_ok hdel

end Update

/-- The operations on a store. -/
inductive StoreCall
  | add (name guid : Str) (dataFile : Option Str) (attributes : Option Int) (append : Bool)
  | update (name guid : Str) (dataFile : Option Str) (attributes : Option Int)
  | del (name guid : Str)

namespace StoreCall

def run (env : Env) : StoreCall → Py Session Bool
  | add name guid dataFile attributes append => addVariable env name guid dataFile attributes append
  | update name guid dataFile attributes => updateVariable env name guid dataFile attributes
  | del name guid => delVariable name guid

/-- Unless the call returns `True`, the list is as it was. -/
def Atomic (env : Env) (call : StoreCall) (s : Session) : Prop :=
  ∀ o s', call.run env s = (o, s') → o ≠ .ok true → s'.store.varsList = s.store.varsList

/-- An update that deletes its variable and then has nothing to enroll; without
attributes only a key has. -/
def Loses (env : Env) (s : Session) : StoreCall → Prop
  | update name guid dataFile attributes => Held s.store (looked name guid) ∧
      ¬ Accepted env s.world (erased name guid s).store name guid dataFile attributes true
  | add _ _ _ _ _ => False
  | del _ _ => False

variable {env : Env} {s : Session}

theorem atomic_add (name guid : Str) (dataFile : Option Str) (attributes : Option Int) (append : Bool) :
    Atomic env (add name guid dataFile attributes append) s := by
  intro o s' hrun ho
  have hrun : addVariable env name guid dataFile attributes append s = (o, s') := hrun
  by_cases hacc : Accepted env s.world s.store name guid dataFile attributes append
  · obtain ⟨sub, hsub, htakes⟩ := hacc
    obtain ⟨store, hinto⟩ := into_takes env s.world.tick append htakes
    rw [addVariable_accepted hsub hinto] at hrun
    cases hrun
    exact absurd rfl ho
  · obtain ⟨e, s₁, hraise, hstore⟩ := addVariable_refused hacc
    rw [hraise] at hrun
    cases hrun
    rw [hstore]

theorem atomic_del (name guid : Str) : Atomic env (del name guid) s := by
  intro o s' hrun ho
  have hrun : delVariable name guid s = (o, s') := hrun
  rw [delVariable_apply] at hrun
  by_cases hheld : Held s.store (looked name guid)
  · rw [delVariable_held hheld] at hrun
    cases hrun
    exact absurd rfl ho
  · rw [delVariable_not_held hheld] at hrun
    cases hrun
    rfl

theorem eraseP_ne {name guid : Str} (h : Held s.store (looked name guid)) :
    (erased name guid s).store.varsList ≠ s.store.varsList := by
  obtain ⟨v, hv, hk⟩ := h
  intro heq
  exact List.eraseP_eq_self_iff.mp heq v hv (isVar_iff.mpr hk)

theorem atomic_update_iff {name guid : Str} {dataFile : Option Str} {attributes : Option Int} :
    Atomic env (update name guid dataFile attributes) s ↔
      ¬ Loses env s (update name guid dataFile attributes) := by
  by_cases hheld : Held s.store (looked name guid)
  · have hrun : (update name guid dataFile attributes).run env s =
        addVariable env name guid dataFile attributes true (erased name guid s) :=
      updateVariable_held hheld
    rw [Atomic, hrun]
    by_cases hacc : Accepted env s.world (erased name guid s).store name guid dataFile attributes true
    · obtain ⟨sub, hsub, htakes⟩ := hacc
      obtain ⟨store, hinto⟩ := into_takes env s.world.tick true htakes
      have hadd : addVariable env name guid dataFile attributes true (erased name guid s) = _ :=
        addVariable_accepted hsub hinto
      refine iff_of_true ?_ (fun hloses => hloses.2 ⟨sub, hsub, htakes⟩)
      intro o s' hrun' ho
      rw [hadd] at hrun'
      cases hrun'
      exact absurd rfl ho
    · obtain ⟨e, s₁, hraise, hstore⟩ := addVariable_refused (s := erased name guid s) hacc
      refine iff_of_false ?_ (fun hnot => hnot ⟨hheld, hacc⟩)
      intro hatomic
      have hkept := hatomic _ _ hraise (by simp)
      rw [hstore] at hkept
      exact eraseP_ne hheld hkept
  · refine iff_of_true ?_ (fun hloses => hheld hloses.1)
    intro o s' hrun _
    have hrun : updateVariable env name guid dataFile attributes s = (o, s') := hrun
    rw [updateVariable_not_held hheld] at hrun
    cases hrun
    rfl

/-- A call that raises or returns `False` leaves the list alone, an update apart
whose variable is there and whose new content is refused. -/
theorem store_atomic_iff (env : Env) (call : StoreCall) (s : Session) :
    Atomic env call s ↔ ¬ Loses env s call := by
  cases call with
  | add name guid dataFile attributes append =>
    exact iff_of_true (atomic_add name guid dataFile attributes append) id
  | update name guid dataFile attributes => exact atomic_update_iff
  | del name guid => exact iff_of_true (atomic_del name guid) id

/-- A store with one variable, and no file to be read. -/
def sampleSession : Session :=
  { world := .empty, store := { blankStore 68 with varsList := [sampleVariable] } }

/-- An update of that variable from a file that is not there. -/
def lossyUpdate : StoreCall :=
  update ['V'] VariableStore.efiAuthenticatedVariableBasedTimeGuid (some ['d']) (some 7)

/-- The same store, and a file that can be read. -/
def readableSession : Session :=
  { sampleSession with
    world := { files := fun _ => some { content := [4, 5], ctime := 0 }, clock := 0 } }

/-- An update of the variable from that file, without attributes. -/
def bareUpdate : StoreCall :=
  update ['V'] VariableStore.efiAuthenticatedVariableBasedTimeGuid (some ['d']) none

theorem not_atomic_of_lost {call : StoreCall} {e : Exn} (hraise : (call.run env s).1 = .raised e)
    (hlost : (call.run env s).2.store.varsList = []) (hheld : s.store.varsList ≠ []) :
    ¬ Atomic env call s := by
  intro hatomic
  have hkept := hatomic _ _ (Prod.ext hraise rfl) (by simp)
  rw [hlost] at hkept
  exact hheld hkept.symm

/-- Each update raises, and the variable is gone. -/
theorem update_loses_variable :
    ((lossyUpdate.run .reliable sampleSession).1 = .raised .fileNotFoundError ∧
      (lossyUpdate.run .reliable sampleSession).2.store.varsList = [] ∧
      ¬ Atomic .reliable lossyUpdate sampleSession) ∧
    (bareUpdate.run .reliable readableSession).1 = .raised .typeError ∧
      (bareUpdate.run .reliable readableSession).2.store.varsList = [] ∧
      ¬ Atomic .reliable bareUpdate readableSession := by
  have hraise : (lossyUpdate.run .reliable sampleSession).1 = .raised .fileNotFoundError := by
    decide +kernel
  have hlost : (lossyUpdate.run .reliable sampleSession).2.store.varsList = [] := by
    decide +kernel
  have hbare : (bareUpdate.run .reliable readableSession).1 = .raised .typeError := by
    decide +kernel
  have hbareLost : (bareUpdate.run .reliable readableSession).2.store.varsList = [] := by
    decide +kernel
  exact ⟨⟨hraise, hlost, not_atomic_of_lost hraise hlost (List.cons_ne_nil _ _)⟩, hbare, hbareLost,
    not_atomic_of_lost hbare hbareLost (List.cons_ne_nil _ _)⟩

end StoreCall

section Replacing

variable {env : Env} {s : Session} {name guid : Str} {dataFile : Option Str}
  {attributes : Option Int}

/-- The content that the arguments ask for. -/
def contentOf (env : Env) (w : World) (name guid : Str) (dataFile : Option Str) : Option Bytes :=
  (submission env w name guid dataFile (some 0) false).map Submission.buffer

/-- The variable that the arguments are about is replaced, if the store holds
it, and missed otherwise. -/
def Updates (env : Env) (s : Session) (name guid : Str) (dataFile : Option Str)
    (attributes : Option Int) : Prop :=
  (Held s.store (addressed name guid) → ∃ s' content,
    contentOf env s.world name guid dataFile = some content ∧
    updateVariable env name guid dataFile attributes s = (.ok true, s') ∧
    Swapped (addressed name guid) content s.store.varsList s'.store.varsList) ∧
  (¬ Held s.store (addressed name guid) → ∃ s',
    updateVariable env name guid dataFile attributes s = (.ok false, s') ∧ s'.store = s.store)

/-- A variable that is held is found by the arguments as they are given, and
there is content to be appended; one that is not held hides no other. -/
def CanUpdate (env : Env) (s : Session) (name guid : Str) (dataFile : Option Str)
    (attributes : Option Int) : Prop :=
  (Held s.store (addressed name guid) → looked name guid = addressed name guid ∧ ∃ sub g,
    submission env s.world name guid dataFile attributes true = some sub ∧
    str2guid (some sub.vendorGuid) = .ok g) ∧
  (¬ Held s.store (addressed name guid) → ¬ Held s.store (looked name guid))

theorem contentOf_submission {sub : Submission}
    (h : submission env s.world name guid dataFile attributes true = some sub) :
    contentOf env s.world name guid dataFile = some sub.buffer := by
  have hpk := not_pk_of_submission h
  rw [submission_append hpk] at h
  unfold submission at h
  rw [contentOf, submission]
  rw [if_neg hpk] at h ⊢
  split at h
  · next hkek => rw [if_pos hkek, h, Option.map_some]
  · next hkek =>
    rw [if_neg hkek]
    split at h
    · next hdb => rw [if_pos hdb, h, Option.map_some]
    · next hdb =>
      rw [if_neg hdb]
      split at h
      · next hdbx => rw [if_pos hdbx, h, Option.map_some]
      · next hdbx =>
        obtain ⟨attributes, -, h⟩ := Option.bind_eq_some_iff.mp h
        obtain ⟨data, hdata, rfl⟩ := Option.map_eq_some_iff.mp h
        rw [if_neg hdbx, Option.bind_some, hdata, Option.map_some, Option.map_some]

theorem not_held_of_false {s' : Session}
    (h : updateVariable env name guid dataFile attributes s = (.ok false, s')) :
    ¬ Held s.store (looked name guid) := by
  intro hheld
  rw [updateVariable_held hheld] at h
  have hret : false = true := (addVariable_eq_ok h).1
  cases hret

theorem held_of_true {s' : Session}
    (h : updateVariable env name guid dataFile attributes s = (.ok true, s')) :
    Held s.store (looked name guid) ∧ ∃ sub,
      submission env s.world name guid dataFile attributes true = some sub ∧
      sub.into env s.world.tick true (erased name guid s).store = .ok s'.store := by
  by_cases hheld : Held s.store (looked name guid)
  · rw [updateVariable_held hheld] at h
    obtain ⟨-, sub, store, hsub, hinto, rfl⟩ := addVariable_eq_ok h
    exact ⟨hheld, sub, hsub, hinto⟩
  · rw [updateVariable_not_held hheld] at h
    cases h

theorem looked_eq_addressed {s' : Session} {content : Bytes}
    (hrun : updateVariable env name guid dataFile attributes s = (.ok true, s'))
    (hswap : Swapped (addressed name guid) content s.store.varsList s'.store.varsList) :
    looked name guid = addressed name guid := by
  by_contra hne
  obtain ⟨⟨v, hv, hk⟩, sub, hsub, hinto⟩ := held_of_true hrun
  have hothers := into_others hinto
  rw [looked_submission hsub, hswap.others] at hothers
  have himp : (fun v => VariableStore.isVar name guid v &&
      decide (storeKey v ≠ addressed name guid)) = VariableStore.isVar name guid := by
    funext u
    cases hu : VariableStore.isVar name guid u with
    | false => rfl
    | true => simpa [isVar_iff.mp hu] using hne
  have herase := List.eraseP_filter (p := VariableStore.isVar name guid)
    (f := fun v => decide (storeKey v ≠ addressed name guid)) (l := s.store.varsList)
  rw [himp, ← hothers, List.eraseP_eq_self_iff] at herase
  apply herase v (List.mem_filter.mpr ⟨hv, ?_⟩) (isVar_iff.mpr hk)
  simpa [hk] using hne

variable (hd : (s.store.varsList.map storeKey).Nodup)
include hd

theorem erased_eq : (erased name guid s).store.varsList =
    s.store.varsList.filter (fun v => storeKey v ≠ looked name guid) :=
  (finds_looked _).eraseP_eq_filter hd

theorem erased_not_held : ¬ Held (erased name guid s).store (looked name guid) := by
  rintro ⟨v, hv, hk⟩
  rw [erased_eq hd, List.mem_filter, decide_eq_true_eq] at hv
  exact hv.2 hk

theorem swapped_of_new {k : StoreKey} {content : Bytes} {v : VariableTimeBasedAuth}
    {vars : List VariableTimeBasedAuth} (hvars : vars = (erased name guid s).store.varsList ++ [v])
    (hk : k = looked name guid) (hv : storeKey v = k) (hdata : v.data = content) :
    Swapped k content s.store.varsList vars := by
  subst hk hdata
  rw [hvars, erased_eq hd]
  constructor
  · have hnone : (s.store.varsList.filter (fun u => storeKey u ≠ looked name guid)).filter
        (fun u => storeKey u = looked name guid) = [] := by
      rw [List.filter_filter, List.filter_eq_nil_iff]
      intro u _
      simp
    rw [List.filter_append, hnone]
    simp [hv]
  · rw [List.filter_append, List.filter_filter]
    simp [hv]

/-- Without double keys: an update does what it is for just if the arguments
name the variable as the store does and the content can be appended. -/
theorem update_replaces_iff :
    Updates env s name guid dataFile attributes ↔ CanUpdate env s name guid dataFile attributes := by
  by_cases hheld : Held s.store (addressed name guid)
  · constructor
    · rintro ⟨hheld', -⟩
      obtain ⟨s', content, hcontent, hrun, hswap⟩ := hheld' hheld
      have hlooked := looked_eq_addressed hrun hswap
      obtain ⟨-, sub, hsub, hinto⟩ := held_of_true hrun
      have hnew : ¬ Held (erased name guid s).store (looked sub.name sub.vendorGuid) := by
        rw [looked_submission hsub, ← hlooked]
        exact erased_not_held hd
      obtain ⟨g, hg⟩ := guid_of_into hnew hinto
      exact ⟨fun _ => ⟨hlooked, sub, g, hsub, hg⟩, fun hnot => absurd hheld hnot⟩
    · rintro ⟨hcan, -⟩
      obtain ⟨hlooked, sub, g, hsub, hg⟩ := hcan hheld
      have hkey : looked sub.name sub.vendorGuid = looked name guid :=
        (looked_submission hsub).trans hlooked.symm
      have hnew : ¬ Held (erased name guid s).store (looked sub.name sub.vendorGuid) :=
        hkey ▸ erased_not_held hd
      obtain ⟨v, store, hinto, hvars, hv, hdata, -⟩ := into_new hnew hg
      have hrun : updateVariable env name guid dataFile attributes s =
          (.ok true, { world := s.world.tick, store }) :=
        (updateVariable_held (hlooked ▸ hheld)).trans (addVariable_accepted hsub hinto)
      refine ⟨fun _ => ⟨_, sub.buffer, contentOf_submission hsub, hrun, ?_⟩,
        fun hnot => absurd hheld hnot⟩
      exact swapped_of_new hd hvars hlooked.symm (hv.trans (looked_submission hsub)) hdata
  · constructor
    · rintro ⟨-, hmissed⟩
      obtain ⟨s', hrun, -⟩ := hmissed hheld
      exact ⟨fun h => absurd h hheld, fun _ => not_held_of_false hrun⟩
    · rintro ⟨-, hmisses⟩
      exact ⟨fun h => absurd h hheld,
        fun _ => ⟨s, updateVariable_not_held (hmisses hheld), rfl⟩⟩

end Replacing

def kekVariable : VariableTimeBasedAuth :=
  { attributes := keyAttributes, timeStampBlob := EfiTime.zero.blob, nameSize := 8, dataSize := 3
    vendorGuid := globalBytes, fullSize := 71, vendorGuidStr := lower EFI_GLOBAL_VARIABLE
    name := "KEK".toList, nameBlob := str2blob "KEK".toList, data := [1, 2, 3] }

/-- A store with a KEK, and a file with the next certificate. -/
def kekSession : Session :=
  { world := { files := fun _ => some { content := [4, 5], ctime := 0 }, clock := 0 }
    store := { blankStore 68 with varsList := [kekVariable] } }

theorem update_replaces_iff_kek :
    Updates .reliable kekSession "KEK".toList EFI_GLOBAL_VARIABLE (some ['d']) (some 0) ↔
      CanUpdate .reliable kekSession "KEK".toList EFI_GLOBAL_VARIABLE (some ['d']) (some 0) :=
  update_replaces_iff (by decide +kernel)

/-- With the GUID of an owner the KEK is not found. -/
theorem kek_not_updated :
    Held kekSession.store (addressed "KEK".toList EFI_CERT_X509_GUID) ∧
      (updateVariable .reliable "KEK".toList EFI_CERT_X509_GUID (some ['d']) (some 0) kekSession).1 =
        .ok false ∧
      ¬ Updates .reliable kekSession "KEK".toList EFI_CERT_X509_GUID (some ['d']) (some 0) := by
  have hheld : Held kekSession.store (addressed "KEK".toList EFI_CERT_X509_GUID) :=
    ⟨kekVariable, List.mem_singleton_self _, by decide +kernel⟩
  have hmiss : (updateVariable .reliable "KEK".toList EFI_CERT_X509_GUID (some ['d'])
      (some 0) kekSession).1 = .ok false := by decide +kernel
  refine ⟨hheld, hmiss, fun hupdates => ?_⟩
  obtain ⟨s', content, -, hrun, -⟩ := hupdates.1 hheld
  rw [hrun] at hmiss
  cases hmiss

end TdxTools.VarEnroll.Updating
