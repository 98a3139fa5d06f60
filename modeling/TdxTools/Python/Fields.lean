import TdxTools.Python.Text

namespace TdxTools.Python.Fields

open Text

/-- The fields of a text: what stands between blanks, empty pieces apart. -/
def fields (s : Str) : List Str := (s.splitOn ' ').filter (· ≠ [])

@[simp] theorem fields_nil : fields [] = [] := rfl

theorem fields_cons (a b : Str) : fields (a ++ ' ' :: b) = fields a ++ fields b := by
  rw [fields, List.splitOn_append_cons_self, List.filter_append, ← fields, ← fields]

theorem fields_single {a : Str} (h : ' ' ∉ a) : fields a = [a].filter (· ≠ []) := by
  rw [fields, List.splitOn_eq_singleton h]

theorem fields_intercalate {gs : List Str} (hne : ∀ g ∈ gs, g ≠ []) (hg : ∀ g ∈ gs, ' ' ∉ g) :
    fields ([' '].intercalate gs) = gs := by
  by_cases h : gs = []
  · rw [h]
    rfl
  · rw [fields, List.splitOn_intercalate ' ' hg h, List.filter_eq_self]
    exact fun g hmem => decide_eq_true (hne g hmem)

/-- A text is one piece, or a piece, a blank and another text. -/
theorem piece_induction {P : Str → Prop} (single : ∀ a, ' ' ∉ a → P a)
    (cons : ∀ a b, ' ' ∉ a → P b → P (a ++ ' ' :: b)) (s : Str) : P s := by
  induction hn : s.length using Nat.strongRecOn generalizing s with
  | ind n ih =>
    by_cases hs : ' ' ∈ s
    · obtain ⟨a, b, rfl, ha⟩ := List.eq_append_cons_of_mem hs
      have hlen : b.length < n := by
        rw [← hn, List.length_append, List.length_cons]
        omega
      exact cons a b ha (ih _ hlen b rfl)
    · exact single s hs

section Occurrence

variable {f : Str} (hf : ' ' ∉ f)
include hf

theorem prefix_piece {a b : Str} : f <+: a ++ ' ' :: b ↔ f <+: a := by
  induction f generalizing a with
  | nil => simp
  | cons c f ih =>
    cases a with
    | nil =>
      have hc : c ≠ ' ' := fun h => hf (by simp [h])
      simp [hc]
    | cons d a =>
      rw [List.cons_append, List.cons_prefix_cons, List.cons_prefix_cons,
        ih (fun h => hf (by simp [h]))]

/-- What has no blank occurs on one side of a blank. -/
theorem infix_piece {a b : Str} : f <:+: a ++ ' ' :: b ↔ f <:+: a ∨ f <:+: b := by
  induction a with
  | nil =>
    have hp : f <+: ' ' :: b ↔ f <+: [] := prefix_piece hf (a := [])
    rw [List.nil_append, List.infix_cons_iff, hp, List.prefix_nil, List.infix_nil]
  | cons c a ih =>
    have hp : f <+: c :: (a ++ ' ' :: b) ↔ f <+: c :: a := prefix_piece hf (a := c :: a)
    rw [List.cons_append, List.infix_cons_iff, List.infix_cons_iff, hp, ih, or_assoc]

omit hf in
theorem infix_single (hne : f ≠ []) {a : Str} (ha : ' ' ∉ a) :
    f <:+: a ↔ ∃ g ∈ fields a, f <:+: g := by
  rw [fields_single ha]
  cases a with
  | nil => simp [hne]
  | cons c a => simp

/-- What has no blank occurs in a text just if it occurs in a field. -/
theorem infix_iff (hne : f ≠ []) (s : Str) : f <:+: s ↔ ∃ g ∈ fields s, f <:+: g := by
  induction s using piece_induction with
  | single a ha => exact infix_single hne ha
  | cons a b ha ih =>
    rw [infix_piece hf, fields_cons, infix_single hne ha, ih]
    simp only [List.mem_append, or_and_right, exists_or]

end Occurrence

section Removal

variable {f : Str}

theorem removeFrom_skip (f s : Str) (k : Nat) : removeFrom f s k = removeFrom f (s.drop k) 0 := by
  induction s generalizing k with
  | nil => simp [removeFrom]
  | cons c s ih =>
    cases k with
    | zero => rfl
    | succ k => rw [removeFrom, ih, List.drop_succ_cons]

theorem remove_front {c : Char} {f s : Str} (h : c :: f <+: c :: s) :
    remove (c :: f) (c :: s) = remove (c :: f) (s.drop f.length) := by
  rw [remove, removeFrom, if_pos (by simpa using h), removeFrom_skip]
  rfl

theorem remove_cons {f s : Str} {c : Char} (h : ¬ f <+: c :: s) :
    remove f (c :: s) = c :: remove f s := by
  rw [remove, removeFrom, if_neg (by simpa using h)]
  rfl

theorem remove_self (f : Str) : remove f f = [] := by
  cases f with
  | nil => rfl
  | cons c f => rw [remove_front (List.prefix_refl _), List.drop_length]; rfl

theorem remove_of_absent {s : Str} (h : ¬ f <:+: s) : remove f s = s := by
  induction s with
  | nil => rfl
  | cons c s ih =>
    rw [List.infix_cons_iff, not_or] at h
    rw [remove_cons h.1, ih h.2]

variable (hne : f ≠ [])
include hne

/-- Removing takes one character at least where there is something to remove. -/
theorem length_remove (s : Str) :
    (remove f s).length ≤ s.length ∧ (f <:+: s → (remove f s).length < s.length) := by
  induction hn : s.length using Nat.strongRecOn generalizing s with
  | ind n ih =>
    cases s with
    | nil => exact ⟨by simp [remove, removeFrom], fun h => absurd (List.infix_nil.mp h) hne⟩
    | cons c s =>
      rw [List.length_cons] at hn
      by_cases hp : f <+: c :: s
      · obtain ⟨d, f, rfl⟩ := List.exists_cons_of_ne_nil hne
        obtain rfl : d = c := (List.cons_prefix_cons.mp hp).1
        have hle := (ih _ (by rw [List.length_drop]; omega) (s.drop f.length) rfl).1
        rw [List.length_drop] at hle
        rw [remove_front hp]
        exact ⟨by omega, fun _ => by omega⟩
      · obtain ⟨hle, hlt⟩ := ih _ (by omega) s rfl
        rw [remove_cons hp, List.length_cons]
        refine ⟨by omega, fun h => ?_⟩
        have hs := hlt ((List.infix_cons_iff.mp h).resolve_left hp)
        omega

theorem remove_eq_self_iff (s : Str) : remove f s = s ↔ ¬ f <:+: s := by
  constructor
  · intro h hin
    have hlt := (length_remove hne s).2 hin
    rw [h] at hlt
    exact Nat.lt_irrefl _ hlt
  · exact remove_of_absent

variable (hf : ' ' ∉ f)
include hf

/-- Nothing is removed across a blank. -/
theorem remove_piece (a b : Str) : remove f (a ++ ' ' :: b) = remove f a ++ ' ' :: remove f b := by
  induction hn : a.length using Nat.strongRecOn generalizing a with
  | ind n ih =>
    cases a with
    | nil =>
      have hp : ¬ f <+: ' ' :: b := fun h => hne (List.prefix_nil.mp ((prefix_piece hf (a := [])).mp h))
      exact remove_cons hp
    | cons c a =>
      rw [List.length_cons] at hn
      by_cases hp : f <+: c :: a
      · have hp' : f <+: c :: (a ++ ' ' :: b) := (prefix_piece hf (a := c :: a)).mpr hp
        obtain ⟨d, f, rfl⟩ := List.exists_cons_of_ne_nil hne
        obtain rfl : d = c := (List.cons_prefix_cons.mp hp).1
        have hlen : f.length ≤ a.length := by simpa using hp.length_le
        rw [List.cons_append, remove_front hp', remove_front hp,
          List.drop_append_of_le_length hlen]
        exact ih _ (by rw [List.length_drop]; omega) _ rfl
      · have hp' : ¬ f <+: c :: (a ++ ' ' :: b) :=
          fun h => hp ((prefix_piece hf (a := c :: a)).mp h)
        rw [List.cons_append, remove_cons hp', remove_cons hp, List.cons_append,
          ih _ (by omega) a rfl]

omit hf hne in
theorem blank_not_mem_remove {a : Str} (h : ' ' ∉ a) : ' ' ∉ remove f a := by
  intro hmem
  apply h
  clear h
  have hsub : ∀ (s : Str) (k : Nat), (removeFrom f s k).Sublist s := by
    intro s
    induction s with
    | nil => exact fun k => List.Sublist.refl _
    | cons c s ih =>
      intro k
      cases k with
      | succ k => exact (ih k).trans (List.sublist_cons_self c s)
      | zero =>
        rw [removeFrom]
        split
        · exact (ih _).trans (List.sublist_cons_self c s)
        · exact (ih 0).cons_cons c
  exact (hsub a 0).subset hmem

/-- The fields of what is left are what is left of the fields. -/
theorem fields_remove (s : Str) :
    fields (remove f s) = ((fields s).map (remove f)).filter (· ≠ []) := by
  have hnil : remove f [] = [] := rfl
  have hone : ∀ a, ' ' ∉ a → fields (remove f a) = ((fields a).map (remove f)).filter (· ≠ []) := by
    intro a ha
    rw [fields_single ha, fields_single (blank_not_mem_remove ha)]
    by_cases h : a = []
    · simp [h, hnil]
    · simp [h]
  induction s using piece_induction with
  | single a ha => exact hone a ha
  | cons a b ha ih =>
    rw [remove_piece hne hf, fields_cons, fields_cons, hone a ha, ih, List.map_append,
      List.filter_append]

/-- Only the field itself goes just if it occurs in no other field. -/
theorem fields_remove_iff (s : Str) : fields (remove f s) = (fields s).filter (· ≠ f) ↔
    ∀ g ∈ fields s, f <:+: g → g = f := by
  have hcount : ∀ gs : List Str,
      ((gs.map (remove f)).filter (· ≠ [])).length ≤ (gs.filter (· ≠ f)).length := by
    intro gs
    rw [← List.countP_eq_length_filter, ← List.countP_eq_length_filter, List.countP_map]
    apply List.countP_mono_left
    intro g _ hg
    have hleft : remove f g ≠ [] := by simpa using hg
    have hgf : g ≠ f := fun h => hleft (h ▸ remove_self f)
    simpa using hgf
  have hne' : ∀ g ∈ fields s, g ≠ [] := fun g hg => by simpa using (List.mem_filter.mp hg).2
  rw [fields_remove hne hf]
  generalize fields s = gs at hne'
  induction gs with
  | nil => simp
  | cons g gs ih =>
    have hgs : (gs.map (remove f)).filter (· ≠ []) = gs.filter (· ≠ f) ↔
        ∀ g ∈ gs, f <:+: g → g = f := ih fun g hg => hne' g (List.mem_cons_of_mem _ hg)
    rw [List.forall_mem_cons, ← hgs, List.map_cons]
    by_cases hg : g = f
    · subst hg
      rw [remove_self]
      simp
    · rw [List.filter_cons_of_pos (p := fun h => decide (h ≠ f)) (by simpa using hg)]
      by_cases hin : f <:+: g
      · refine iff_of_false (fun he => ?_) (fun h => hg (h.1 hin))
        by_cases hr : remove f g = []
        · -- A field that goes altogether leaves the list too short.
          rw [hr, List.filter_cons_of_neg (by simp)] at he
          have hle := hcount gs
          rw [he, List.length_cons] at hle
          omega
        · rw [List.filter_cons_of_pos (by simpa using hr), List.cons.injEq] at he
          exact (remove_eq_self_iff hne g).mp he.1 hin
      · rw [remove_of_absent hin, List.filter_cons_of_pos (by simpa using hne' g List.mem_cons_self),
          List.cons.injEq]
        simp [hin]

end Removal

end TdxTools.Python.Fields
