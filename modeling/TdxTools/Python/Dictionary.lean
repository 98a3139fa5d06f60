import Mathlib.Data.List.Nodup
import Mathlib.Logic.Function.Basic
import TdxTools.Python.Exec

namespace TdxTools.Python.Dictionary

open Exec

/-- A dictionary, its items in the order of their first insertion. -/
abbrev Dict (κ α : Type) := List (κ × α)

variable {κ α : Type} [DecidableEq κ]

def keys (d : Dict κ α) : List κ := d.map Prod.fst

def get? (d : Dict κ α) (k : κ) : Option α := (d.find? (fun item => item.1 = k)).map Prod.snd

/-- `d[k] = v`. -/
def set (d : Dict κ α) (k : κ) (v : α) : Dict κ α :=
  if k ∈ keys d then d.map (fun item => if item.1 = k then (k, v) else item) else d ++ [(k, v)]

theorem set_of_not_mem {d : Dict κ α} {k : κ} (h : k ∉ keys d) (v : α) :
    set d k v = d ++ [(k, v)] := if_neg h

theorem get?_of_mem {d : Dict κ α} {k : κ} {v : α} (hd : (keys d).Nodup) (h : (k, v) ∈ d) :
    get? d k = some v := by
  induction d with
  | nil => cases h
  | cons item d ih =>
    rw [keys, List.map_cons, List.nodup_cons] at hd
    rcases List.mem_cons.mp h with rfl | hm
    · simp [get?]
    · have hne : item.1 ≠ k := by
        rintro rfl
        exact hd.1 (List.mem_map.mpr ⟨(item.1, v), hm, rfl⟩)
      rw [get?, List.find?_cons_of_neg (by simpa using hne), ← get?]
      exact ih hd.2 hm

/-- Filling a dictionary with what a function makes of the items of another. -/
theorem foldlM_set {β : Type} (f : α → Outcome β) (g : α → β) (items : Dict κ α)
    (hf : ∀ item ∈ items, f item.2 = .ok (g item.2)) (d : Dict κ β)
    (hk : (keys d ++ keys items).Nodup) :
    items.foldlM (fun d item => do let v ← f item.2; .ok (set d item.1 v)) d =
      .ok (d ++ items.map (fun item => (item.1, g item.2))) := by
  induction items generalizing d with
  | nil => simp
  | cons item items ih =>
    have hnew : item.1 ∉ keys d := by
      rw [keys, keys, List.map_cons, List.nodup_append] at hk
      intro hm
      exact hk.2.2 _ hm _ (by simp) rfl
    have hkeys : (keys (d ++ [(item.1, g item.2)]) ++ keys items).Nodup := by
      simpa [keys] using hk
    rw [List.foldlM_cons, hf item (by simp), Outcome.ok_bind, Outcome.ok_bind, set_of_not_mem hnew,
      ih (fun i hi => hf i (by simp [hi])) _ hkeys]
    simp

theorem get?_cons (item : κ × α) (d : Dict κ α) (name : κ) :
    get? (item :: d) name = if item.1 = name then some item.2 else get? d name := by
  by_cases h : item.1 = name <;> simp [get?, h]

theorem get?_append (d : Dict κ α) (item : κ × α) (name : κ) :
    get? (d ++ [item]) name = (get? d name).or (if item.1 = name then some item.2 else none) := by
  induction d with
  | nil => rw [List.nil_append, get?_cons]; rfl
  | cons first d ih =>
    rw [List.cons_append, get?_cons, get?_cons, ih]
    split <;> rfl

theorem get?_replaced (d : Dict κ α) (name other : κ) (v : α) :
    get? (d.map fun item => if item.1 = name then (name, v) else item) other =
      if other = name then (get? d name).map fun _ => v else get? d other := by
  induction d with
  | nil => simp [get?]
  | cons item rest ih =>
    rw [List.map_cons, get?_cons, get?_cons, get?_cons, ih]
    by_cases hitem : item.1 = name <;> by_cases hother : other = name
    · simp [hitem, hother]
    · have hname : ¬ name = other := fun he => hother he.symm
      simp [hitem, hother, hname]
    · simp [hitem, hother]
    · simp [hitem, hother]

theorem get?_set (d : Dict κ α) (name other : κ) (v : α) :
    get? (set d name v) other = if other = name then some v else get? d other := by
  rw [set]
  split
  · next hmem =>
    obtain ⟨item, hitem, hname⟩ := List.mem_map.mp hmem
    have hsome : (get? d name).isSome := by
      rw [get?, Option.isSome_map, List.find?_isSome]
      exact ⟨item, hitem, decide_eq_true hname⟩
    obtain ⟨old, hold⟩ := Option.isSome_iff_exists.mp hsome
    rw [get?_replaced, hold, Option.map_some]
  · next hmem =>
    rw [get?_append]
    by_cases hother : other = name
    · subst hother
      have hnone : get? d other = none := by
        rw [get?, Option.map_eq_none_iff, List.find?_eq_none]
        intro item hitem he
        exact hmem (List.mem_map.mpr ⟨item, hitem, of_decide_eq_true he⟩)
      rw [hnone, if_pos rfl, Option.none_or]
    · rw [if_neg hother, if_neg fun he => hother he.symm, Option.or_none]

section Tabulated

variable (ks : List κ) (f : κ → α)

/-- The dictionary that gives every key of a list its value. -/
def tabulate : Dict κ α := ks.map (fun k => (k, f k))

variable {ks f} in
omit [DecidableEq κ] in
theorem tabulate_congr {g : κ → α} (h : ∀ k ∈ ks, f k = g k) : tabulate ks f = tabulate ks g :=
  List.map_congr_left (fun k hk => by rw [h k hk])

theorem get?_tabulate (k : κ) (h : k ∈ ks) : get? (tabulate ks f) k = some (f k) := by
  induction ks with
  | nil => cases h
  | cons j ks ih =>
    by_cases hj : j = k
    · subst hj
      simp [get?, tabulate]
    · have hm : k ∈ ks := (List.mem_cons.mp h).resolve_left (Ne.symm hj)
      rw [get?, tabulate, List.map_cons, List.find?_cons_of_neg (by simpa using hj)]
      exact ih hm

theorem get?_tabulate_of_not_mem (k : κ) (h : k ∉ ks) : get? (tabulate ks f) k = none := by
  rw [get?, Option.map_eq_none_iff, List.find?_eq_none]
  intro item hitem hk
  obtain ⟨j, hj, rfl⟩ := List.mem_map.mp hitem
  have heq : j = k := by simpa using hk
  exact h (heq ▸ hj)

theorem set_tabulate (k : κ) (h : k ∈ ks) (v : α) :
    set (tabulate ks f) k v = tabulate ks (Function.update f k v) := by
  have hk : k ∈ keys (tabulate ks f) := by
    simpa [keys, tabulate] using h
  rw [set, if_pos hk, tabulate, tabulate, List.map_map]
  apply List.map_congr_left
  intro j _
  by_cases hj : j = k
  · subst hj
    simp
  · simp [hj]

end Tabulated

end TdxTools.Python.Dictionary
