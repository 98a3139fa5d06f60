import Mathlib.Data.List.Nodup
import Mathlib.Data.List.Perm.Basic
import Mathlib.Logic.Function.Basic

namespace TdxTools.General.KeyedEdits

variable {κ α ι : Type*} [DecidableEq κ] (key : ι → κ) (act : ι → α → α)

/-- An edit changes what is under its key, by what was there. -/
def edit (m : κ → α) (i : ι) : κ → α := Function.update m (key i) (act i (m (key i)))

def editsAt (k : κ) (edits : List ι) : List ι := edits.filter (key · = k)

def editAll (edits : List ι) (m : κ → α) : κ → α := edits.foldl (edit key act) m

variable {key act}

theorem edit_of_ne (m : κ → α) {i : ι} {k : κ} (h : key i ≠ k) : edit key act m i k = m k :=
  Function.update_of_ne h.symm _ _

theorem edit_self (m : κ → α) (i : ι) : edit key act m i (key i) = act i (m (key i)) :=
  Function.update_self _ _ _

theorem editAll_append (pre post : List ι) (m : κ → α) :
    editAll key act (pre ++ post) m = editAll key act post (editAll key act pre m) :=
  List.foldl_append

/-- What is under a key after a run is made by the edits under that key alone. -/
theorem editAll_apply (edits : List ι) (m : κ → α) (k : κ) :
    editAll key act edits m k = (editsAt key k edits).foldl (fun a i => act i a) (m k) := by
  induction edits generalizing m with
  | nil => rfl
  | cons i edits ih =>
    rw [editAll, List.foldl_cons]
    refine (ih (edit key act m i)).trans ?_
    by_cases hk : key i = k
    · subst hk
      have hsplit : editsAt key (key i) (i :: edits) = i :: editsAt key (key i) edits :=
        List.filter_cons_of_pos (decide_eq_true rfl)
      rw [hsplit, List.foldl_cons, edit_self]
    · have hsplit : editsAt key k (i :: edits) = editsAt key k edits :=
        List.filter_cons_of_neg (by simpa using hk)
      rw [hsplit, edit_of_ne m hk]

theorem editAll_congr {edits edits' : List ι} (h : ∀ k, editsAt key k edits = editsAt key k edits')
    (m : κ → α) : editAll key act edits m = editAll key act edits' m := by
  funext k
  rw [editAll_apply, editAll_apply, h k]

theorem editAll_of_not_mem {edits : List ι} {k : κ} (h : k ∉ edits.map key) (m : κ → α) :
    editAll key act edits m k = m k := by
  have hnone : editsAt key k edits = [] := by
    rw [editsAt, List.filter_eq_nil_iff]
    intro i hi
    rw [decide_eq_true_iff]
    rintro rfl
    exact h (List.mem_map_of_mem hi)
  rw [editAll_apply, hnone]
  rfl

theorem editAll_of_mem {edits : List ι} (h : (edits.map key).Nodup) {i : ι} (hi : i ∈ edits)
    (m : κ → α) : editAll key act edits m (key i) = act i (m (key i)) := by
  induction edits generalizing m with
  | nil => cases hi
  | cons j edits ih =>
    rw [List.map_cons, List.nodup_cons] at h
    obtain ⟨hj, hrest⟩ := h
    have hstep : editAll key act (j :: edits) m = editAll key act edits (edit key act m j) := rfl
    rw [hstep]
    cases List.mem_cons.mp hi with
    | inl he =>
      subst he
      rw [editAll_of_not_mem hj, edit_self]
    | inr hi =>
      have hne : key j ≠ key i := fun he => hj (he ▸ List.mem_map_of_mem hi)
      rw [ih hrest hi, edit_of_ne m hne]

/-- Edits with keys of their own can come in any order. -/
theorem editsAt_perm {edits edits' : List ι} (h : (edits.map key).Nodup) (hperm : edits.Perm edits')
    (k : κ) : editsAt key k edits = editsAt key k edits' := by
  have hperm' : (editsAt key k edits).Perm (editsAt key k edits') := hperm.filter _
  have hnodup : ((editsAt key k edits).map key).Nodup := (List.filter_sublist.map key).nodup h
  have hkeys : ∀ i ∈ editsAt key k edits, key i = k :=
    fun i hi => of_decide_eq_true (List.mem_filter.mp hi).2
  cases hat : editsAt key k edits with
  | nil =>
    rw [hat] at hperm'
    exact hperm'.nil_eq
  | cons i rest =>
    rw [hat] at hperm' hnodup hkeys
    cases rest with
    | nil => exact (List.perm_singleton.mp hperm'.symm).symm
    | cons j rest =>
      have hsame : key i = key j :=
        (hkeys i List.mem_cons_self).trans (hkeys j (List.mem_cons_of_mem i List.mem_cons_self)).symm
      rw [List.map_cons, List.nodup_cons] at hnodup
      exact absurd (hsame ▸ List.mem_cons_self) hnodup.1

end TdxTools.General.KeyedEdits
