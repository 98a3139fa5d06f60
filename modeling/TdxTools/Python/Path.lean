import Mathlib.Data.List.TakeWhile
import TdxTools.Python.Text

namespace TdxTools.Python.Path

open Text

/-- Where a file is: the names of the directories from the root, then its own. -/
abbrev Place := List Str

def components : Str → List Str
  | [] => [[]]
  | c :: cs =>
    if c = '/' then [] :: components cs
    else
      match components cs with
      | [] => [[c]]
      | w :: ws => (c :: w) :: ws

def enter (at_ : Place) (name : Str) : Place :=
  if name = [] ∨ name = ['.'] then at_
  else if name = ['.', '.'] then at_.dropLast
  else at_ ++ [name]

/-- The place a path names when no directory on the way is a symbolic link. -/
def resolve (cwd : Place) (p : Str) : Place :=
  (components p).foldl enter (if p.head? = some '/' then [] else cwd)

def basename (p : Str) : Str := (p.reverse.takeWhile (· ≠ '/')).reverse

/-- Everything up to the last slash, the slash included. -/
def head (p : Str) : Str := (p.reverse.dropWhile (· ≠ '/')).reverse

def dirname (p : Str) : Str :=
  if (head p).all (· = '/') then head p
  else ((head p).reverse.dropWhile (· = '/')).reverse

def join (a b : Str) : Str :=
  if b.head? = some '/' then b
  else if a = [] ∨ a.getLast? = some '/' then a ++ b
  else a ++ '/' :: b

/-- `os.path.splitext`: dots that start the file name begin no extension. -/
def splitext (p : Str) : Str × Str :=
  let name := basename p
  let stem := ((name.reverse.dropWhile (· ≠ '.')).drop 1).reverse
  if '.' ∈ name ∧ stem.any (· ≠ '.') then (head p ++ stem, name.drop stem.length) else (p, [])

def abspath (cwd : Place) (p : Str) : Str := (resolve cwd p).flatMap ('/' :: ·)

def isabs (p : Str) : Bool := p.head? = some '/'

/-- A path whose last component is empty or made of dots names a directory. -/
def Names (p : Str) : Prop := basename p ≠ [] ∧ basename p ≠ ['.'] ∧ basename p ≠ ['.', '.']

instance (p : Str) : Decidable (Names p) := inferInstanceAs (Decidable (_ ∧ _ ∧ _))

theorem head_append_basename (p : Str) : head p ++ basename p = p := by
  rw [head, basename, ← List.reverse_append, List.takeWhile_append_dropWhile, List.reverse_reverse]

theorem slash_not_mem_basename (p : Str) : '/' ∉ basename p := by
  intro h
  have := List.mem_takeWhile_imp (List.mem_reverse.mp h)
  simp at this

theorem components_of_not_mem (p : Str) (h : '/' ∉ p) : components p = [p] := by
  induction p with
  | nil => rfl
  | cons c p ih =>
    have hc : c ≠ '/' := fun he => h (by simp [he])
    rw [components, if_neg hc, ih (fun hm => h (by simp [hm]))]

theorem components_append_slash (p q : Str) :
    components (p ++ '/' :: q) = components p ++ components q := by
  induction p with
  | nil => simp [components]
  | cons c p ih =>
    rw [List.cons_append, components, components, ih]
    split
    · rfl
    · cases hp : components p with
      | nil =>
        cases p with
        | nil => simp [components] at hp
        | cons d p =>
          rw [components] at hp
          split at hp
          · cases hp
          · split at hp <;> cases hp
      | cons w ws => rfl

theorem head_eq_nil_or (p : Str) : head p = [] ∨ ∃ d, head p = d ++ ['/'] := by
  unfold head
  cases h : p.reverse.dropWhile (· ≠ '/') with
  | nil => exact Or.inl rfl
  | cons c r =>
    have hw : p.reverse.dropWhile (fun c => decide (c ≠ '/')) ≠ [] := by
      rw [h]
      exact List.cons_ne_nil _ _
    have hd := List.head_dropWhile_not (fun c => decide (c ≠ '/')) hw
    have hc : c = '/' := by
      simp only [h, List.head_cons] at hd
      simpa using hd
    refine Or.inr ⟨r.reverse, ?_⟩
    rw [hc, List.reverse_cons]

theorem basename_head (p : Str) : basename (head p) = [] := by
  rcases head_eq_nil_or p with h | ⟨d, h⟩
  · rw [h]
    rfl
  · rw [h]
    simp [basename]

/-- A file lies in the directory its path begins with, under its own name. -/
theorem resolve_eq (cwd : Place) (p : Str) (h : Names p) :
    ∃ dir, resolve cwd p = dir ++ [basename p] := by
  have hb := components_of_not_mem _ (slash_not_mem_basename p)
  have hn : ∀ at_, enter at_ (basename p) = at_ ++ [basename p] := fun at_ => by
    rw [enter, if_neg (by rintro (h' | h'); exacts [h.1 h', h.2.1 h']), if_neg h.2.2]
  rcases head_eq_nil_or p with hh | ⟨d, hd⟩
  · have hp : p = basename p := by simpa [hh] using (head_append_basename p).symm
    refine ⟨if p.head? = some '/' then [] else cwd, ?_⟩
    have hc : components p = [basename p] := (congrArg components hp).trans hb
    rw [resolve, hc, List.foldl_cons, List.foldl_nil, hn]
  · have hp : d ++ '/' :: basename p = p := by simpa [hd] using head_append_basename p
    refine ⟨(components d).foldl enter (if p.head? = some '/' then [] else cwd), ?_⟩
    have hc : components p = components d ++ [basename p] := by
      rw [← hb, ← components_append_slash, hp]
    rw [resolve, hc, List.foldl_append, List.foldl_cons, List.foldl_nil, hn]

theorem names_of_length {p : Str} (h : 2 < (basename p).length) : Names p := by
  refine ⟨?_, ?_, ?_⟩ <;>
  · intro he
    rw [he] at h
    exact absurd h (by decide)

/-- Files with different names are different files, whatever the directories. -/
theorem resolve_ne {cwd : Place} {p q : Str} (hp : Names p) (hq : Names q)
    (h : basename p ≠ basename q) : resolve cwd p ≠ resolve cwd q := by
  intro he
  obtain ⟨d, hd⟩ := resolve_eq cwd p hp
  obtain ⟨e, he'⟩ := resolve_eq cwd q hq
  rw [hd, he'] at he
  exact h (List.singleton_inj.mp (List.append_inj_right' he rfl))

theorem basename_append (p q : Str) (h : '/' ∉ q) : basename (p ++ q) = basename p ++ q := by
  have hq : ∀ c ∈ q.reverse, decide (c ≠ '/') = true := fun c hc => by
    have : c ≠ '/' := fun he => h (he ▸ List.mem_reverse.mp hc)
    simpa using this
  rw [basename, List.reverse_append, List.takeWhile_append_of_pos hq, List.reverse_append,
    List.reverse_reverse, basename]

theorem basename_join (a b : Str) (h : '/' ∉ b) : basename (join a b) = b := by
  have hb : ∀ d, basename (d ++ '/' :: b) = b := fun d => by
    have h1 := basename_append (d ++ ['/']) b h
    have h2 : basename (d ++ ['/']) = [] := by simp [basename]
    rw [h2] at h1
    simpa using h1
  have hs : b.head? ≠ some '/' := fun he => h (List.mem_of_mem_head? he)
  rw [join, if_neg hs]
  split
  · next ha =>
    rcases ha with rfl | ha
    · have h1 := basename_append [] b h
      simpa [basename] using h1
    · obtain ⟨d, rfl⟩ := List.getLast?_eq_some_iff.mp ha
      simpa using hb d
  · exact hb a

theorem splitext_append (p : Str) : (splitext p).1 ++ (splitext p).2 = p := by
  unfold splitext
  dsimp only
  split
  · next h =>
    let name := basename p
    have hsplit : name.reverse.takeWhile (· ≠ '.') ++ name.reverse.dropWhile (· ≠ '.') =
        name.reverse := List.takeWhile_append_dropWhile
    have hpre : ((name.reverse.dropWhile (· ≠ '.')).drop 1).reverse <+: name := by
      rw [← List.reverse_suffix, List.reverse_reverse]
      exact (List.drop_suffix _ _).trans (List.dropWhile_suffix _)
    rw [List.append_assoc, List.prefix_iff_eq_append.mp hpre, head_append_basename]
  · simp

end TdxTools.Python.Path
