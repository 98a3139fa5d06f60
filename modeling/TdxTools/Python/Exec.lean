import Mathlib.Data.List.Basic
import Mathlib.Data.List.Induction
import Mathlib.Logic.Relation

namespace TdxTools.Python.Exec

inductive Exn
  | exception (msg : List Char)
  | assertionError
  | attributeError
  | fileNotFoundError
  | indexError
  | keyError
  | osError
  | overflowError
  | readError
  | sameFileError
  | structError
  | typeError
  | unicodeDecodeError
  | unicodeEncodeError
  | valueError
  | zeroDivisionError
  deriving DecidableEq, Repr

/-- What a call has come to: a value, an exception, or a loop that is still
running when the fuel it was given is used up. -/
inductive Outcome (α : Type)
  | ok (a : α)
  | raised (e : Exn)
  | running
  deriving DecidableEq, Repr

namespace Outcome

variable {α β : Type}

def bind (x : Outcome α) (f : α → Outcome β) : Outcome β :=
  match x with
  | ok a => f a
  | raised e => raised e
  | running => running

instance : Monad Outcome where
  pure := ok
  bind := bind

def ofOption (e : Exn) : Option α → Outcome α
  | some a => ok a
  | none => raised e

@[simp] theorem pure_eq (a : α) : (pure a : Outcome α) = ok a := rfl

@[simp] theorem ok_bind (a : α) (f : α → Outcome β) : (ok a >>= f) = f a := rfl

@[simp] theorem raised_bind (e : Exn) (f : α → Outcome β) :
    ((raised e : Outcome α) >>= f) = raised e := rfl

@[simp] theorem running_bind (f : α → Outcome β) :
    ((running : Outcome α) >>= f) = running := rfl

@[simp] theorem ofOption_some (e : Exn) (a : α) : ofOption e (some a) = ok a := rfl

@[simp] theorem ofOption_none (e : Exn) : ofOption e (none : Option α) = raised e := rfl

theorem bind_eq_ok {x : Outcome α} {f : α → Outcome β} {b : β} :
    (x >>= f) = ok b ↔ ∃ a, x = ok a ∧ f a = ok b := by
  cases x <;> simp

theorem ofOption_eq_ok {e : Exn} {x : Option α} {a : α} :
    ofOption e x = ok a ↔ x = some a := by
  cases x <;> simp [ofOption]

/-- A fold that succeeds took every element with success. -/
theorem exists_of_foldlM {f : β → α → Outcome β} {xs : List α} {b c : β}
    (h : xs.foldlM f b = ok c) {x : α} (hx : x ∈ xs) : ∃ b' c', f b' x = ok c' := by
  induction xs generalizing b with
  | nil => cases hx
  | cons y xs ih =>
    rw [List.foldlM_cons] at h
    obtain ⟨b', hy, h⟩ := bind_eq_ok.mp h
    rcases List.mem_cons.mp hx with rfl | hx
    · exact ⟨b, b', hy⟩
    · exact ih h hx

/-- A fold whose steps succeed or raise by a test of the element. -/
theorem foldlM_of_test {f : β → α → Outcome β} {g : β → α → β} {p : α → Prop}
    (hok : ∀ b a, p a → f b a = ok (g b a)) (hraised : ∀ b a, ¬ p a → ∃ e, f b a = raised e)
    (xs : List α) (b : β) : ((∀ a ∈ xs, p a) → xs.foldlM f b = ok (xs.foldl g b)) ∧
      ((¬ ∀ a ∈ xs, p a) → ∃ e, xs.foldlM f b = raised e) := by
  induction xs generalizing b with
  | nil => exact ⟨fun _ => rfl, fun h => absurd (by simp) h⟩
  | cons a xs ih =>
    rw [List.foldlM_cons, List.foldl_cons, List.forall_mem_cons]
    by_cases ha : p a
    · rw [hok b a ha, ok_bind, and_iff_right ha]
      exact ih (g b a)
    · obtain ⟨e, he⟩ := hraised b a ha
      rw [he]
      exact ⟨fun h => absurd h.1 ha, fun _ => ⟨e, rfl⟩⟩

theorem bind_ne_running {x : Outcome α} {f : α → Outcome β} (hx : x ≠ running)
    (hf : ∀ a, f a ≠ running) : (x >>= f) ≠ running := by
  cases x with
  | ok a => exact hf a
  | raised e => simp
  | running => exact absurd rfl hx

theorem ofOption_ne_running (e : Exn) (x : Option α) : ofOption e x ≠ running := by
  cases x <;> simp

/-- The value, if there is one. -/
def value : Outcome α → Option α
  | ok a => some a
  | _ => none

theorem value_eq_some {x : Outcome α} {a : α} : x.value = some a ↔ x = ok a := by
  cases x <;> simp [value]

end Outcome

/-- Statements over an object or a world of type `σ`. What was changed before
an exception stays changed. -/
def Py (σ α : Type) : Type := σ → Outcome α × σ

namespace Py

variable {σ τ α β : Type}

protected def pure (a : α) : Py σ α := fun s => (.ok a, s)

protected def bind (x : Py σ α) (f : α → Py σ β) : Py σ β := fun s =>
  match x s with
  | (.ok a, s') => f a s'
  | (.raised e, s') => (.raised e, s')
  | (.running, s') => (.running, s')

instance : Monad (Py σ) where
  pure := Py.pure
  bind := Py.bind

def raise (e : Exn) : Py σ α := fun s => (.raised e, s)

def lift (x : Outcome α) : Py σ α := fun s => (x, s)

def get : Py σ σ := fun s => (.ok s, s)

def modify (f : σ → σ) : Py σ Unit := fun s => (.ok (), f s)

/-- `try: x` with an `except Exception` clause. -/
def tryExcept (x : Py σ α) (handler : Exn → Py σ α) : Py σ α := fun s =>
  match x s with
  | (.ok a, s') => (.ok a, s')
  | (.raised e, s') => handler e s'
  | (.running, s') => (.running, s')

/-- Run statements over one part of a larger state. -/
def within (part : σ → τ) (put : τ → σ → σ) (x : Py τ α) : Py σ α := fun s =>
  ((x (part s)).1, put (x (part s)).2 s)

@[simp] theorem pure_apply (a : α) (s : σ) : (pure a : Py σ α) s = (.ok a, s) := rfl

@[simp] theorem raise_apply (e : Exn) (s : σ) : (raise e : Py σ α) s = (.raised e, s) := rfl

@[simp] theorem lift_apply (x : Outcome α) (s : σ) : (lift x : Py σ α) s = (x, s) := rfl

@[simp] theorem get_apply (s : σ) : (get : Py σ σ) s = (.ok s, s) := rfl

@[simp] theorem modify_apply (f : σ → σ) (s : σ) : (modify f) s = (.ok (), f s) := rfl

@[simp] theorem within_apply (part : σ → τ) (put : τ → σ → σ) (x : Py τ α) (s : σ) :
    (within part put x) s = ((x (part s)).1, put (x (part s)).2 s) := rfl

theorem bind_ok {x : Py σ α} {f : α → Py σ β} {s s' : σ} {a : α} (h : x s = (.ok a, s')) :
    (x >>= f) s = f a s' := by
  simp only [Bind.bind, Py.bind, h]

theorem bind_raised {x : Py σ α} {f : α → Py σ β} {s s' : σ} {e : Exn}
    (h : x s = (.raised e, s')) : (x >>= f) s = (.raised e, s') := by
  simp only [Bind.bind, Py.bind, h]

theorem bind_running {x : Py σ α} {f : α → Py σ β} {s s' : σ}
    (h : x s = (.running, s')) : (x >>= f) s = (.running, s') := by
  simp only [Bind.bind, Py.bind, h]

@[simp] theorem pure_bind_apply (a : α) (f : α → Py σ β) (s : σ) :
    ((pure a : Py σ α) >>= f) s = f a s := rfl

@[simp] theorem raise_bind_apply (e : Exn) (f : α → Py σ β) (s : σ) :
    ((raise e : Py σ α) >>= f) s = (.raised e, s) := rfl

@[simp] theorem get_bind_apply (f : σ → Py σ β) (s : σ) : ((get : Py σ σ) >>= f) s = f s s := rfl

@[simp] theorem modify_bind_apply (g : σ → σ) (f : Unit → Py σ β) (s : σ) :
    ((modify g) >>= f) s = f () (g s) := rfl

@[simp] theorem lift_ok_bind_apply (a : α) (f : α → Py σ β) (s : σ) :
    ((lift (.ok a) : Py σ α) >>= f) s = f a s := rfl

@[simp] theorem lift_raised_bind_apply (e : Exn) (f : α → Py σ β) (s : σ) :
    ((lift (.raised e) : Py σ α) >>= f) s = (.raised e, s) := rfl

theorem bind_of_eq {x y : Py σ α} {s s' : σ} (h : x s = y s') (f : α → Py σ β) :
    (x >>= f) s = (y >>= f) s' := by
  show Py.bind x f s = Py.bind y f s'
  rw [Py.bind, Py.bind, h]

theorem bind_assoc {γ : Type} (x : Py σ α) (f : α → Py σ β) (g : β → Py σ γ) :
    x >>= f >>= g = x >>= fun a => f a >>= g := by
  funext s
  rcases hx : x s with ⟨a | e | _, s'⟩
  · rw [bind_ok hx]
    rcases hf : f a s' with ⟨b | e | _, s''⟩
    · rw [bind_ok ((bind_ok hx).trans hf), bind_ok hf]
    · rw [bind_raised ((bind_ok hx).trans hf), bind_raised hf]
    · rw [bind_running ((bind_ok hx).trans hf), bind_running hf]
  · rw [bind_raised hx, bind_raised (bind_raised hx)]
  · rw [bind_running hx, bind_running (bind_running hx)]

/-- What is made of the value leaves the state alone. -/
theorem snd_bind_pure (x : Py σ α) (f : α → β) (s : σ) :
    ((x >>= fun a => pure (f a)) s).2 = (x s).2 := by
  rcases h : x s with ⟨a | e | _, s'⟩
  · rw [bind_ok h, pure_apply]
  · rw [bind_raised h]
  · rw [bind_running h]

/-- A sequence returns exactly when both of its parts do. -/
theorem bind_eq_ok {x : Py σ α} {f : α → Py σ β} {s s'' : σ} {b : β} :
    (x >>= f) s = (.ok b, s'') ↔ ∃ a s', x s = (.ok a, s') ∧ f a s' = (.ok b, s'') := by
  constructor
  · intro h
    rcases hx : x s with ⟨a | e | _, s'⟩
    · exact ⟨a, s', rfl, by rwa [bind_ok hx] at h⟩
    · rw [bind_raised hx] at h; cases h
    · rw [bind_running hx] at h; cases h
  · rintro ⟨a, s', hx, hf⟩
    rw [bind_ok hx, hf]

/-- A sequence goes on with the value of its first part, or ends where that did. -/
theorem bind_eq_cases {x : Py σ α} {f : α → Py σ β} {s s'' : σ} {r : Outcome β}
    (h : (x >>= f) s = (r, s'')) : (∃ a s', x s = (.ok a, s') ∧ f a s' = (r, s'')) ∨
      ∃ o, x s = (o, s'') ∧ (∀ a, o ≠ .ok a) ∧ ∀ b, r ≠ .ok b := by
  rcases hx : x s with ⟨a | e | _, s'⟩
  · rw [bind_ok hx] at h
    exact Or.inl ⟨a, s', rfl, h⟩
  · rw [bind_raised hx] at h
    cases h
    exact Or.inr ⟨.raised e, rfl, by simp, by simp⟩
  · rw [bind_running hx] at h
    cases h
    exact Or.inr ⟨.running, rfl, by simp, by simp⟩

theorem tryExcept_ok {x : Py σ α} {handler : Exn → Py σ α} {s s' : σ} {a : α}
    (h : x s = (.ok a, s')) : tryExcept x handler s = (.ok a, s') := by
  simp only [tryExcept, h]

theorem tryExcept_raised {x : Py σ α} {handler : Exn → Py σ α} {s s' : σ} {e : Exn}
    (h : x s = (.raised e, s')) : tryExcept x handler s = handler e s' := by
  simp only [tryExcept, h]

theorem within_ok {part : σ → τ} {put : τ → σ → σ} {x : Py τ α} {s : σ} {a : α} {t : τ}
    (h : x (part s) = (.ok a, t)) : within part put x s = (.ok a, put t s) := by
  rw [within_apply, h]

theorem lift_eq_ok {x : Outcome α} {s s' : σ} {a : α} :
    lift x s = (.ok a, s') ↔ x = .ok a ∧ s = s' := by
  rw [lift_apply, Prod.mk.injEq]

theorem lift_bind_eq_ok {x : Outcome α} {f : α → Py σ β} {s s' : σ} {b : β} :
    (lift x >>= f) s = (.ok b, s') ↔ ∃ a, x = .ok a ∧ f a s = (.ok b, s') := by
  cases x <;> simp [Bind.bind, Py.bind]

/-- A computed value leaves the state alone, and without one the statement ends there. -/
theorem lift_bind_cases (x : Outcome α) (f : α → Py σ β) (s : σ) :
    (∃ a, x = .ok a ∧ (lift x >>= f) s = f a s) ∨ ∃ o, (lift x >>= f) s = (o, s) := by
  cases x with
  | ok a => exact Or.inl ⟨a, rfl, rfl⟩
  | raised e => exact Or.inr ⟨.raised e, rfl⟩
  | running => exact Or.inr ⟨.running, rfl⟩

theorem within_bind_eq_ok {part : σ → τ} {put : τ → σ → σ} {x : Py τ α} {f : α → Py σ β}
    {s s' : σ} {b : β} : (within part put x >>= f) s = (.ok b, s') ↔
      ∃ a t, x (part s) = (.ok a, t) ∧ f a (put t s) = (.ok b, s') := by
  rw [bind_eq_ok]
  constructor
  · rintro ⟨a, s₁, hx, hf⟩
    rw [within_apply, Prod.mk.injEq] at hx
    exact ⟨a, (x (part s)).2, Prod.ext hx.1 rfl, by rw [hx.2]; exact hf⟩
  · rintro ⟨a, t, hx, hf⟩
    exact ⟨a, put t s, by rw [within_apply, hx], hf⟩

theorem tryExcept_eq_ok {x : Py σ α} {handler : Exn → Py σ α} {s s' : σ} {a : α} :
    tryExcept x handler s = (.ok a, s') ↔ x s = (.ok a, s') ∨
      ∃ e s₁, x s = (.raised e, s₁) ∧ handler e s₁ = (.ok a, s') := by
  unfold tryExcept
  rcases x s with ⟨b | e | _, s₁⟩ <;> simp

/-- The statements come to an end from every state. -/
def Halts (x : Py σ α) : Prop := ∀ s, (x s).1 ≠ .running

theorem Halts.pure (a : α) : Halts (Pure.pure a : Py σ α) := fun _ => by simp

theorem Halts.raise (e : Exn) : Halts (Py.raise e : Py σ α) := fun _ => by simp

theorem Halts.get : Halts (Py.get : Py σ σ) := fun _ => by simp

theorem Halts.modify (f : σ → σ) : Halts (Py.modify f) := fun _ => by simp

theorem Halts.lift {x : Outcome α} (h : x ≠ .running) : Halts (Py.lift x : Py σ α) := fun _ => h

theorem Halts.bind {x : Py σ α} {f : α → Py σ β} (hx : Halts x) (hf : ∀ a, Halts (f a)) :
    Halts (x >>= f) := by
  intro s
  rcases h : x s with ⟨a | e | _, s'⟩
  · rw [bind_ok h]
    exact hf a s'
  · rw [bind_raised h]
    simp
  · exact absurd (congrArg Prod.fst h) (hx s)

theorem Halts.within {part : σ → τ} {put : τ → σ → σ} {x : Py τ α} (h : Halts x) :
    Halts (Py.within part put x) := fun s => h (part s)

/-- However the statements end, the state they leave stands in the relation to
the state before. -/
def Keeps (R : σ → σ → Prop) (x : Py σ α) : Prop := ∀ s, R s (x s).2

section Keeps

variable {R : σ → σ → Prop}

theorem Keeps.of_same (hr : ∀ s, R s s) {x : Py σ α} (h : ∀ s, (x s).2 = s) : Keeps R x :=
  fun s => (h s).symm ▸ hr s

theorem Keeps.rel {x : Py σ α} (h : Keeps R x) {s s' : σ} {o : Outcome α} (hx : x s = (o, s')) :
    R s s' := by
  have hs := h s
  rw [hx] at hs
  exact hs

theorem Keeps.bind (ht : ∀ {s t u}, R s t → R t u → R s u) {x : Py σ α} {f : α → Py σ β}
    (hx : Keeps R x) (hf : ∀ a, Keeps R (f a)) : Keeps R (x >>= f) := by
  intro s
  obtain ⟨a, s', hok, hgo⟩ | ⟨o, hend, -⟩ := bind_eq_cases (Prod.eta ((x >>= f) s)).symm
  · exact ht (hx.rel hok) ((hf a).rel hgo)
  · exact hx.rel hend

theorem Keeps.tryExcept (ht : ∀ {s t u}, R s t → R t u → R s u) {x : Py σ α}
    {handler : Exn → Py σ α} (hx : Keeps R x) (hh : ∀ e, Keeps R (handler e)) :
    Keeps R (Py.tryExcept x handler) := by
  intro s
  have hs := hx s
  rcases h : x s with ⟨a | e | _, s'⟩ <;> rw [h] at hs
  · rw [tryExcept_ok h]
    exact hs
  · rw [tryExcept_raised h]
    exact ht hs (hh e s')
  · have hrun : Py.tryExcept x handler s = (.running, s') := by simp only [Py.tryExcept, h]
    rw [hrun]
    exact hs

theorem Keeps.within {Q : τ → τ → Prop} {part : σ → τ} {put : τ → σ → σ} {x : Py τ α}
    (hput : ∀ s t, Q (part s) t → R s (put t s)) (h : Keeps Q x) : Keeps R (Py.within part put x) :=
  fun s => hput s _ (h (part s))

end Keeps

/-- The first does what the second does, unless it raises what the condition is of. -/
def Follows (P : Exn → σ → Prop) (x y : Py σ α) : Prop :=
  ∀ s, x s = y s ∨ ∃ e s', x s = (.raised e, s') ∧ P e s'

section Follows

variable {P : Exn → σ → Prop}

theorem Follows.refl (x : Py σ α) : Follows P x x := fun _ => .inl rfl

theorem Follows.bind {x y : Py σ α} {f g : α → Py σ β} (hx : Follows P x y)
    (hf : ∀ a, Follows P (f a) (g a)) : Follows P (x >>= f) (y >>= g) := by
  intro s
  rcases hx s with heq | ⟨e, s', hraised, hp⟩
  · rcases h : y s with ⟨a | e | _, s'⟩ <;> rw [h] at heq
    · rw [bind_ok heq, bind_ok h]
      exact hf a s'
    · exact .inl ((bind_raised heq).trans (bind_raised h).symm)
    · exact .inl ((bind_running heq).trans (bind_running h).symm)
  · exact .inr ⟨e, s', bind_raised hraised, hp⟩

/-- What comes behind a common beginning. -/
theorem Follows.then (x : Py σ α) {f g : α → Py σ β} (hf : ∀ a, Follows P (f a) (g a)) :
    Follows P (x >>= f) (x >>= g) :=
  (Follows.refl x).bind hf

theorem Follows.within {Q : Exn → τ → Prop} {part : σ → τ} {put : τ → σ → σ} {x y : Py τ α}
    (hput : ∀ e s t, Q e t → P e (put t s)) (h : Follows Q x y) :
    Follows P (Py.within part put x) (Py.within part put y) := by
  intro s
  rcases h (part s) with heq | ⟨e, t, hraised, hq⟩
  · exact .inl (by rw [within_apply, within_apply, heq])
  · exact .inr ⟨e, put t s, by rw [within_apply, hraised], hput e s t hq⟩

end Follows

end Py

/-- One turn of a loop, the test of its condition included. -/
inductive Turn (σ : Type)
  | next (s : σ)
  | stop (s : σ)
  | raise (e : Exn) (s : σ)

section Loop

variable {σ : Type}

/-- Take turns until one of them leaves the loop. -/
def iterate (turn : σ → Turn σ) : Nat → Py σ Unit
  | 0, s => (.running, s)
  | n + 1, s =>
    match turn s with
    | .next s' => iterate turn n s'
    | .stop s' => (.ok (), s')
    | .raise e s' => (.raised e, s')

/-- A loop that takes a next turn in each state of a kind, and stays in that
kind of state, does not end. -/
theorem iterate_running {turn : σ → Turn σ} (P : σ → Prop)
    (hnext : ∀ s, P s → ∃ s', turn s = .next s' ∧ P s') (n : Nat) (s : σ) (hs : P s) :
    (iterate turn n s).1 = .running := by
  induction n generalizing s with
  | zero => rfl
  | succ n ih =>
    obtain ⟨s', hturn, hs'⟩ := hnext s hs
    rw [iterate, hturn]
    exact ih s' hs'

/-- A loop that ends: every turn that does not leave it lowers the variant. -/
structure Loop (σ : Type) where
  turn : σ → Turn σ
  variant : σ → Nat
  decreases : ∀ s s', turn s = .next s' → variant s' < variant s

namespace Loop

def run (L : Loop σ) : Py σ Unit := fun s => iterate L.turn (L.variant s + 1) s

theorem iterate_eq_run (L : Loop σ) (n : Nat) (s : σ) (h : L.variant s < n) :
    iterate L.turn n s = L.run s := by
  suffices hs : ∀ m n s, L.variant s < m → L.variant s < n →
      iterate L.turn m s = iterate L.turn n s from
    hs n _ s h (Nat.lt_succ_self _)
  intro m
  induction m with
  | zero => intro n s h; omega
  | succ m ih =>
    intro n s hm hn
    cases n with
    | zero => omega
    | succ n =>
      rw [iterate, iterate]
      cases ht : L.turn s with
      | next s' =>
        have hd := L.decreases s s' ht
        exact ih n s' (by omega) (by omega)
      | stop s' => rfl
      | raise e s' => rfl

theorem run_next (L : Loop σ) {s s' : σ} (h : L.turn s = .next s') : L.run s = L.run s' := by
  have hd := L.decreases s s' h
  conv_lhs => rw [run, iterate, h]
  exact L.iterate_eq_run _ s' hd

theorem run_stop (L : Loop σ) {s s' : σ} (h : L.turn s = .stop s') :
    L.run s = (.ok (), s') := by
  rw [run, iterate, h]

theorem run_raise (L : Loop σ) {s s' : σ} {e : Exn} (h : L.turn s = .raise e s') :
    L.run s = (.raised e, s') := by
  rw [run, iterate, h]

/-- A loop that takes one record of a list in each turn: `after pre` is its
state when the records `pre` have been taken. -/
theorem run_records {ρ : Type} (L : Loop σ) (after : List ρ → σ) (rs : List ρ)
    (h : ∀ pre r post, rs = pre ++ r :: post → L.turn (after pre) = .next (after (pre ++ [r]))) :
    L.run (after []) = L.run (after rs) := by
  suffices hs : ∀ post pre, rs = pre ++ post → L.run (after pre) = L.run (after rs) from
    hs rs [] rfl
  intro post
  induction post with
  | nil => intro pre he; rw [he, List.append_nil]
  | cons r post ih =>
    intro pre he
    rw [L.run_next (h pre r post he)]
    exact ih (pre ++ [r]) (by rw [he, List.append_assoc, List.singleton_append])

/-- One state comes after the other in a run, some turns later. -/
def Reaches (L : Loop σ) : σ → σ → Prop := Relation.ReflTransGen (fun s s' => L.turn s = .next s')

theorem Reaches.run_eq {L : Loop σ} {s s' : σ} (h : L.Reaches s s') : L.run s = L.run s' := by
  induction h with
  | refl => rfl
  | tail _ hturn ih => rw [ih, L.run_next hturn]

theorem Reaches.next {L : Loop σ} {s s' s'' : σ} (h : L.Reaches s s') (ht : L.turn s' = .next s'') :
    L.Reaches s s'' := Relation.ReflTransGen.tail h ht

theorem Reaches.run_stop {L : Loop σ} {s s' t : σ} (h : L.Reaches s s') (ht : L.turn s' = .stop t) :
    L.run s = (.ok (), t) := h.run_eq.trans (L.run_stop ht)

theorem Reaches.run_raise {L : Loop σ} {s s' t : σ} {e : Exn} (h : L.Reaches s s')
    (ht : L.turn s' = .raise e t) : L.run s = (.raised e, t) := h.run_eq.trans (L.run_raise ht)

/-- A run ends in a state that it reaches and in which no further turn is taken. -/
theorem run_ends (L : Loop σ) (s : σ) : ∃ s', L.Reaches s s' ∧
    ((∃ t, L.turn s' = .stop t ∧ L.run s = (.ok (), t)) ∨
      ∃ e t, L.turn s' = .raise e t ∧ L.run s = (.raised e, t)) := by
  induction hv : L.variant s using Nat.strongRecOn generalizing s with
  | ind n ih =>
    cases ht : L.turn s with
    | next s₁ =>
      obtain ⟨s', hs', hend⟩ := ih _ (hv ▸ L.decreases s s₁ ht) s₁ rfl
      rw [← L.run_next ht] at hend
      exact ⟨s', .head ht hs', hend⟩
    | stop t => exact ⟨s, .refl, Or.inl ⟨t, ht, L.run_stop ht⟩⟩
    | raise e t => exact ⟨s, .refl, Or.inr ⟨e, t, ht, L.run_raise ht⟩⟩

/-- What every turn keeps holds in every state that is reached. -/
theorem Reaches.invariant {L : Loop σ} {P : σ → Prop}
    (hnext : ∀ s s', P s → L.turn s = .next s' → P s') {s s' : σ} (h : L.Reaches s s')
    (hs : P s) : P s' := by
  induction h with
  | refl => exact hs
  | tail _ hturn ih => exact hnext _ _ ih hturn

end Loop

end Loop

/-- What holds at first holds in every state of a run just if no step is taken
that breaks it. -/
theorem foldl_invariant_iff {σ ι : Type} {step : σ → ι → σ} {P : σ → Prop} {C : σ → ι → Prop}
    (hstep : ∀ s, P s → ∀ i, P (step s i) ↔ C s i) {s : σ} (hs : P s) (steps : List ι) :
    (∀ done, done <+: steps → P (done.foldl step s)) ↔
      ∀ done i, done ++ [i] <+: steps → C (done.foldl step s) i := by
  have hsnoc : ∀ done i, (done ++ [i]).foldl step s = step (done.foldl step s) i := by
    intro done i
    rw [List.foldl_append]
    rfl
  constructor
  · intro h done i hsteps
    have hdone := h done ((List.prefix_append done [i]).trans hsteps)
    have hafter := h (done ++ [i]) hsteps
    rw [hsnoc] at hafter
    exact (hstep _ hdone i).mp hafter
  · intro h done
    induction done using List.reverseRecOn with
    | nil => exact fun _ => hs
    | append_singleton done i ih =>
      intro hsteps
      rw [hsnoc]
      exact (hstep _ (ih ((List.prefix_append done [i]).trans hsteps)) i).mpr (h done i hsteps)

/-- The same where what a step does may depend on all of the steps before it. -/
theorem prefix_invariant_iff {ι : Type} {P : List ι → Prop} {C : List ι → ι → Prop}
    {steps : List ι} (hstart : P [])
    (hstep : ∀ done i, done ++ [i] <+: steps → P done → (P (done ++ [i]) ↔ C done i)) :
    (∀ done, done <+: steps → P done) ↔ ∀ done i, done ++ [i] <+: steps → C done i := by
  constructor
  · intro h done i hsteps
    have hdone := h done ((List.prefix_append done [i]).trans hsteps)
    exact (hstep done i hsteps hdone).mp (h (done ++ [i]) hsteps)
  · intro h done
    induction done using List.reverseRecOn with
    | nil => exact fun _ => hstart
    | append_singleton done i ih =>
      intro hsteps
      have hdone := ih ((List.prefix_append done [i]).trans hsteps)
      exact (hstep done i hsteps hdone).mpr (h done i hsteps)

end TdxTools.Python.Exec
