import Mathlib.Data.List.Nodup
import Mathlib.Logic.Function.Basic

namespace TdxTools.Python.Table

variable {α κ ε : Type} {key : α → κ}

/-- The test `p` finds the items of the list that have the key `k`. -/
def Finds (key : α → κ) (p : α → Bool) (k : κ) (xs : List α) : Prop :=
  ∀ x ∈ xs, p x = true ↔ key x = k

theorem Finds.tail {p : α → Bool} {k : κ} {x : α} {xs : List α} (h : Finds key p k (x :: xs)) :
    Finds key p k xs := fun y hy => h y (by simp [hy])

theorem Finds.any_eq_true {p : α → Bool} {k : κ} {xs : List α} (h : Finds key p k xs) :
    xs.any p = true ↔ k ∈ xs.map key := by
  rw [List.any_eq_true, List.mem_map]
  constructor
  · rintro ⟨x, hx, hp⟩
    exact ⟨x, hx, (h x hx).mp hp⟩
  · rintro ⟨x, hx, hk⟩
    exact ⟨x, hx, (h x hx).mpr hk⟩

theorem Finds.eraseP_eq [DecidableEq κ] {p : α → Bool} {k : κ} {xs : List α}
    (h : Finds key p k xs) : xs.eraseP p = xs.eraseP (fun x => key x = k) := by
  induction xs with
  | nil => rfl
  | cons x xs ih =>
    by_cases hk : key x = k
    · rw [List.eraseP_cons_of_pos ((h x (by simp)).mpr hk), List.eraseP_cons_of_pos (by simpa using hk)]
    · rw [List.eraseP_cons_of_neg (fun hp => hk ((h x (by simp)).mp hp)),
        List.eraseP_cons_of_neg (by simpa using hk), ih h.tail]

theorem Finds.find?_eq_none {p : α → Bool} {k : κ} {xs : List α} (h : Finds key p k xs)
    (hn : xs.find? p = none) : k ∉ xs.map key := by
  intro hk
  obtain ⟨x, hx, hp⟩ := List.mem_map.mp hk
  exact List.find?_eq_none.mp hn x hx ((h x hx).mpr hp)

theorem mem_modify_findIdx {p : α → Bool} {xs : List α} {x y : α} {f : α → α}
    (hx : xs.find? p = some x) (hy : y ∈ xs.modify (xs.findIdx p) f) :
    y ∈ xs.eraseP p ∨ y = f x := by
  induction xs with
  | nil => cases hx
  | cons z zs ih =>
    cases hp : p z with
    | true =>
      rw [List.find?_cons_of_pos hp, Option.some.injEq] at hx
      rw [List.findIdx_cons, hp, cond_true, List.modify_zero_cons, List.mem_cons] at hy
      rw [List.eraseP_cons_of_pos hp]
      exact hy.elim (fun h => Or.inr (hx ▸ h)) Or.inl
    | false =>
      rw [List.find?_cons_of_neg (by simp [hp])] at hx
      rw [List.findIdx_cons, hp, cond_false, List.modify_succ_cons, List.mem_cons] at hy
      rw [List.eraseP_cons_of_neg (by simp [hp])]
      rcases hy with rfl | hy
      · exact Or.inl List.mem_cons_self
      · exact (ih hx hy).imp_left (List.mem_cons_of_mem z)

theorem modify_findIdx_mem {p : α → Bool} {xs : List α} {x : α} (f : α → α)
    (hx : xs.find? p = some x) : f x ∈ xs.modify (xs.findIdx p) f := by
  induction xs with
  | nil => cases hx
  | cons z zs ih =>
    cases hp : p z with
    | true =>
      rw [List.find?_cons_of_pos hp, Option.some.injEq] at hx
      rw [List.findIdx_cons, hp, cond_true, List.modify_zero_cons, hx]
      exact List.mem_cons_self
    | false =>
      rw [List.find?_cons_of_neg (by simp [hp])] at hx
      rw [List.findIdx_cons, hp, cond_false, List.modify_succ_cons]
      exact List.mem_cons_of_mem z (ih hx)

/-- What holds of a list still holds after a change of the first item found just
if it holds of the new item. -/
theorem forall_modify_findIdx {p : α → Bool} {q : α → Prop} {xs : List α} {x : α}
    (hx : xs.find? p = some x) (h : ∀ y ∈ xs, q y) (f : α → α) :
    (∀ y ∈ xs.modify (xs.findIdx p) f, q y) ↔ q (f x) := by
  constructor
  · exact fun hall => hall _ (modify_findIdx_mem f hx)
  · intro hnew y hy
    rcases mem_modify_findIdx hx hy with hy | rfl
    · exact h y (List.mem_of_mem_eraseP hy)
    · exact hnew

theorem forall_append_singleton {q : α → Prop} {xs : List α} {z : α} (h : ∀ y ∈ xs, q y) :
    (∀ y ∈ xs ++ [z], q y) ↔ q z := by
  rw [List.forall_mem_append, and_iff_right h, List.forall_mem_singleton]

theorem forall_mem_modify {p : α → Prop} {xs : List α} (h : ∀ x ∈ xs, p x) (i : Nat) (f : α → α) :
    (∀ y ∈ xs.modify i f, p y) ↔ ∀ x, xs[i]? = some x → p (f x) := by
  induction xs generalizing i with
  | nil => simp
  | cons x xs ih =>
    obtain ⟨hx, hxs⟩ := List.forall_mem_cons.mp h
    cases i with
    | zero =>
      rw [List.modify_zero_cons, List.forall_mem_cons]
      simpa using fun _ => hxs
    | succ i =>
      rw [List.modify_succ_cons, List.forall_mem_cons, ih hxs i]
      simpa using fun _ => hx

theorem map_key_modify (xs : List α) (i : Nat) (f : α → α) (hf : ∀ y, key (f y) = key y) :
    (xs.modify i f).map key = xs.map key := by
  induction xs generalizing i with
  | nil => simp
  | cons y ys ih =>
    cases i with
    | zero => simp [hf]
    | succ i => simp [ih]

/-- A change of an entry that keeps its key is not seen by the other keys. -/
theorem filter_modify_findIdx [DecidableEq κ] {p : α → Bool} {k : κ} {xs : List α} {f : α → α}
    (h : Finds key p k xs) (hf : ∀ y, key (f y) = key y) :
    (xs.modify (xs.findIdx p) f).filter (fun x => key x ≠ k) = xs.filter (fun x => key x ≠ k) := by
  induction xs with
  | nil => simp
  | cons x xs ih =>
    cases hp : p x with
    | true =>
      have hk : key x = k := (h x (by simp)).mp hp
      rw [List.findIdx_cons, hp, cond_true, List.modify_zero_cons]
      simp [hf, hk]
    | false =>
      rw [List.findIdx_cons, hp, cond_false, List.modify_succ_cons, List.filter_cons,
        List.filter_cons, ih h.tail]

/-- A change of the only entry with a key that keeps its key. -/
theorem filter_modify_singleton [DecidableEq κ] {p : α → Bool} {k : κ} {xs : List α} {x : α}
    {f : α → α} (h : Finds key p k xs) (hf : ∀ y, key (f y) = key y)
    (hx : xs.filter (fun x => key x = k) = [x]) :
    (xs.modify (xs.findIdx p) f).filter (fun x => key x = k) = [f x] := by
  induction xs with
  | nil => cases hx
  | cons y ys ih =>
    by_cases hk : key y = k
    · have hp : p y = true := (h y (by simp)).mpr hk
      rw [List.filter_cons_of_pos (by simpa using hk), List.cons.injEq] at hx
      rw [List.findIdx_cons, hp, cond_true, List.modify_zero_cons,
        List.filter_cons_of_pos (by simpa [hf] using hk), hx.1, hx.2]
    · have hp : p y = false := by
        simpa using fun hp => hk ((h y (by simp)).mp hp)
      rw [List.filter_cons_of_neg (by simpa using hk)] at hx
      rw [List.findIdx_cons, hp, cond_false, List.modify_succ_cons,
        List.filter_cons_of_neg (by simpa using hk), ih h.tail hx]

/-- Without double keys, erasing an entry leaves those with other keys. -/
theorem Finds.eraseP_eq_filter [DecidableEq κ] {p : α → Bool} {k : κ} {xs : List α}
    (h : Finds key p k xs) (hd : (xs.map key).Nodup) :
    xs.eraseP p = xs.filter (fun x => key x ≠ k) := by
  induction xs with
  | nil => rfl
  | cons x xs ih =>
    rw [List.map_cons, List.nodup_cons] at hd
    by_cases hk : key x = k
    · have hrest : ∀ y ∈ xs, decide (key y ≠ k) = true := by
        intro y hy
        rw [decide_eq_true_eq]
        rintro hky
        exact hd.1 (List.mem_map.mpr ⟨y, hy, hky.trans hk.symm⟩)
      rw [List.eraseP_cons_of_pos ((h x (by simp)).mpr hk), List.filter_cons_of_neg (by simp [hk]),
        List.filter_eq_self.mpr hrest]
    · have hp : ¬ p x = true := fun hp => hk ((h x (by simp)).mp hp)
      rw [List.eraseP_cons_of_neg hp, List.filter_cons_of_pos (by simpa using hk), ih h.tail hd.2]

theorem nodup_append_singleton {xs : List α} {y : α} (h : (xs.map key).Nodup)
    (hy : key y ∉ xs.map key) : ((xs ++ [y]).map key).Nodup := by
  rw [List.map_append, List.nodup_append]
  refine ⟨h, by simp, ?_⟩
  intro a ha b hb he
  rw [List.map_singleton, List.mem_singleton] at hb
  exact hy (hb ▸ he ▸ ha)

section Lookup

variable [DecidableEq κ] (key) (entry : α → ε)

/-- A list read as a map; the first item with a key decides. -/
def lookup (xs : List α) (k : κ) : Option ε := (xs.find? (fun x => key x = k)).map entry

theorem lookup_cons (x : α) (xs : List α) :
    lookup key entry (x :: xs) = Function.update (lookup key entry xs) (key x) (some (entry x)) := by
  funext k
  by_cases hk : key x = k
  · subst hk
    simp [lookup]
  · rw [Function.update_of_ne (Ne.symm hk)]
    simp [lookup, hk]

theorem lookup_eq_none {xs : List α} {k : κ} (h : k ∉ xs.map key) :
    lookup key entry xs k = none := by
  rw [lookup, Option.map_eq_none_iff, List.find?_eq_none]
  intro x hx hk
  exact h (List.mem_map.mpr ⟨x, hx, by simpa using hk⟩)

theorem lookup_congr {xs : List α} {β : Type} (f : α → β) (key' : β → κ) (entry' : β → ε)
    (hk : ∀ x ∈ xs, key' (f x) = key x) (he : ∀ x ∈ xs, entry' (f x) = entry x) :
    lookup key' entry' (xs.map f) = lookup key entry xs := by
  induction xs with
  | nil => rfl
  | cons x xs ih =>
    rw [List.map_cons, lookup_cons, lookup_cons, hk x (by simp), he x (by simp),
      ih (fun y hy => hk y (by simp [hy])) (fun y hy => he y (by simp [hy]))]

variable {key entry}

theorem Finds.lookup_eq {p : α → Bool} {k : κ} {xs : List α} (h : Finds key p k xs) :
    lookup key entry xs k = (xs.find? p).map entry := by
  induction xs with
  | nil => rfl
  | cons x xs ih =>
    rw [lookup_cons]
    by_cases hk : key x = k
    · rw [List.find?_cons_of_pos ((h x (by simp)).mpr hk), hk, Function.update_self]
      rfl
    · rw [Function.update_of_ne (Ne.symm hk), ih h.tail,
        List.find?_cons_of_neg (fun hp => hk ((h x (by simp)).mp hp))]

/-- Changing the first item found changes the map at its key. -/
theorem lookup_modify {p : α → Bool} {k : κ} {xs : List α} {x : α} {f : α → α}
    (h : Finds key p k xs) (hx : xs.find? p = some x) (hf : ∀ y, key (f y) = key y) :
    lookup key entry (xs.modify (xs.findIdx p) f) =
      Function.update (lookup key entry xs) k (some (entry (f x))) := by
  induction xs with
  | nil => cases hx
  | cons y ys ih =>
    by_cases hk : key y = k
    · have hp := (h y (by simp)).mpr hk
      rw [List.find?_cons_of_pos hp, Option.some.injEq] at hx
      subst hx
      rw [List.findIdx_cons, hp, cond_true, List.modify_zero_cons, lookup_cons, lookup_cons, hf, hk,
        Function.update_idem]
    · have hp : p y = false := by
        simpa using fun hp => hk ((h y (by simp)).mp hp)
      rw [List.find?_cons_of_neg (by simp [hp])] at hx
      rw [List.findIdx_cons, hp, cond_false, List.modify_succ_cons, lookup_cons, lookup_cons,
        ih h.tail hx, Function.update_comm (Ne.symm hk)]

theorem lookup_append_singleton {xs : List α} {y : α} (h : key y ∉ xs.map key) :
    lookup key entry (xs ++ [y]) =
      Function.update (lookup key entry xs) (key y) (some (entry y)) := by
  induction xs with
  | nil => exact lookup_cons key entry y []
  | cons x xs ih =>
    rw [List.map_cons, List.mem_cons, not_or] at h
    rw [List.cons_append, lookup_cons, lookup_cons, ih h.2, Function.update_comm h.1]

theorem lookup_eraseP {p : α → Bool} {k : κ} {xs : List α} (h : Finds key p k xs)
    (hd : (xs.map key).Nodup) :
    lookup key entry (xs.eraseP p) = Function.update (lookup key entry xs) k none := by
  induction xs with
  | nil => exact (Function.update_eq_self k _).symm
  | cons x xs ih =>
    rw [List.map_cons, List.nodup_cons] at hd
    by_cases hk : key x = k
    · have hn : lookup key entry xs k = none := lookup_eq_none key entry (hk ▸ hd.1)
      rw [List.eraseP_cons_of_pos ((h x (by simp)).mpr hk), lookup_cons, hk, Function.update_idem,
        ← hn, Function.update_eq_self]
    · rw [List.eraseP_cons_of_neg (fun hp => hk ((h x (by simp)).mp hp)), lookup_cons, lookup_cons,
        ih h.tail hd.2, Function.update_comm hk]

end Lookup

end TdxTools.Python.Table
