import Mathlib.Data.List.Induction
import Mathlib.Logic.Function.Basic

namespace TdxTools.General.HashChain

section Chain

variable {σ ι : Type*} (step : σ → ι → σ) (start : σ)

/-- A step on the way over these items: the state before it and its item. -/
def Steps (xs : List ι) (p : σ × ι) : Prop :=
  ∃ pre x, pre ++ [x] <+: xs ∧ p = (pre.foldl step start, x)

/-- Two different steps, one on each way, that come to the same state. -/
def Collide (xs ys : List ι) : Prop :=
  ∃ p q, Steps step start xs p ∧ Steps step start ys q ∧ p ≠ q ∧ step p.1 p.2 = step q.1 q.2

/-- A step that comes back to the start. -/
def Returns (xs : List ι) : Prop := ∃ p, Steps step start xs p ∧ step p.1 p.2 = start

/-- Why two chains over different items could come to the same state. -/
def Broken (xs ys : List ι) : Prop :=
  Collide step start xs ys ∨ Returns step start xs ∨ Returns step start ys

variable {step start} {xs ys zs : List ι}

theorem Steps.last (pre : List ι) (x : ι) :
    Steps step start (pre ++ [x]) (pre.foldl step start, x) :=
  ⟨pre, x, List.prefix_refl _, rfl⟩

theorem Steps.mono {p : σ × ι} (h : Steps step start xs p) (hle : xs <+: ys) :
    Steps step start ys p := by
  obtain ⟨pre, x, hpre, rfl⟩ := h
  exact ⟨pre, x, hpre.trans hle, rfl⟩

theorem Returns.mono (h : Returns step start xs) (hle : xs <+: ys) : Returns step start ys := by
  obtain ⟨p, hp, hreturn⟩ := h
  exact ⟨p, hp.mono hle, hreturn⟩

theorem Broken.mono {xs' ys' : List ι} (h : Broken step start xs ys) (hx : xs <+: xs')
    (hy : ys <+: ys') : Broken step start xs' ys' := by
  rcases h with ⟨p, q, hp, hq, hne, heq⟩ | h | h
  · exact .inl ⟨p, q, hp.mono hx, hq.mono hy, hne, heq⟩
  · exact .inr (.inl (h.mono hx))
  · exact .inr (.inr (h.mono hy))

theorem foldl_concat (pre : List ι) (x : ι) :
    (pre ++ [x]).foldl step start = step (pre.foldl step start) x := by
  rw [List.foldl_append]
  rfl

theorem returns_concat {pre : List ι} {x : ι} (h : (pre ++ [x]).foldl step start = start) :
    Returns step start (pre ++ [x]) := by
  rw [foldl_concat] at h
  exact ⟨_, .last pre x, h⟩

theorem eq_of_foldl_eq (hno : ¬ Broken step start xs ys)
    (h : xs.foldl step start = ys.foldl step start) : xs = ys := by
  induction xs using List.reverseRecOn generalizing ys with
  | nil =>
    cases ys using List.reverseRecOn with
    | nil => rfl
    | append_singleton ys y => exact absurd (.inr (.inr (returns_concat h.symm))) hno
  | append_singleton xs x ih =>
    cases ys using List.reverseRecOn with
    | nil => exact absurd (.inr (.inl (returns_concat h))) hno
    | append_singleton ys y =>
      rw [foldl_concat, foldl_concat] at h
      by_cases hsame : (xs.foldl step start, x) = (ys.foldl step start, y)
      · obtain ⟨hstate, rfl⟩ := Prod.mk.inj hsame
        have hbefore : ¬ Broken step start xs ys :=
          fun hb => hno (hb.mono (List.prefix_append _ _) (List.prefix_append _ _))
        rw [ih hbefore hstate]
      · exact absurd (.inl ⟨_, _, .last xs x, .last ys y, hsame, h⟩) hno

theorem foldl_eq_iff (hno : ¬ Broken step start xs ys) :
    xs.foldl step start = ys.foldl step start ↔ xs = ys :=
  ⟨eq_of_foldl_eq hno, fun h => by rw [h]⟩

end Chain

section Bank

variable {κ σ ι : Type*} [DecidableEq κ] (step : σ → ι → σ)

/-- One item taken by the chain it names. -/
def bankStep (bank : κ → σ) (e : κ × ι) : κ → σ := Function.update bank e.1 (step (bank e.1) e.2)

/-- The items that one chain of a bank takes, in order. -/
def itemsOf (i : κ) (history : List (κ × ι)) : List ι :=
  (history.filter (fun e => e.1 = i)).map Prod.snd

@[simp] theorem itemsOf_nil (i : κ) : itemsOf i ([] : List (κ × ι)) = [] := rfl

theorem itemsOf_append (i : κ) (history later : List (κ × ι)) :
    itemsOf i (history ++ later) = itemsOf i history ++ itemsOf i later := by
  rw [itemsOf, List.filter_append, List.map_append, itemsOf, itemsOf]

theorem itemsOf_cons (i : κ) (e : κ × ι) (history : List (κ × ι)) :
    itemsOf i (e :: history) = if e.1 = i then e.2 :: itemsOf i history else itemsOf i history := by
  rw [itemsOf, itemsOf, List.filter_cons]
  by_cases h : e.1 = i
  · simp [h]
  · simp [h]

theorem foldl_bankStep (history : List (κ × ι)) (bank : κ → σ) (i : κ) :
    history.foldl (bankStep step) bank i = (itemsOf i history).foldl step (bank i) := by
  induction history generalizing bank with
  | nil => rfl
  | cons e history ih =>
    rw [List.foldl_cons, ih, itemsOf_cons]
    by_cases h : e.1 = i
    · subst h
      rw [if_pos rfl, List.foldl_cons, bankStep, Function.update_self]
    · rw [if_neg h, bankStep, Function.update_of_ne (Ne.symm h)]

end Bank

end TdxTools.General.HashChain
