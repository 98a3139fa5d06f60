import Mathlib.Data.List.TakeWhile
import TdxTools.Python.Text

namespace TdxTools.Python.Words

open Text

theorem isWhitespace_of_hexVal {c : Char} (h : (hexVal c).isSome) : isWhitespace c = false := by
  have hall : hexAlphabet.all (fun d => !isWhitespace d) = true := by decide +kernel
  have hdigits (d : Char) (hd : d ∈ hexAlphabet) : isWhitespace d = false := by
    simpa using List.all_eq_true.mp hall d hd
  obtain ⟨d, hd⟩ := Option.isSome_iff_exists.mp h
  obtain ⟨hlt, hdc⟩ := hexDigit_of_hexVal hd
  have hmem : lowerChar c ∈ hexAlphabet := by
    rw [← hdc, hexDigit, List.getD_eq_getElem?_getD, List.getElem?_eq_getElem hlt]
    exact List.getElem_mem hlt
  unfold lowerChar at hmem
  split_ifs at hmem with hupper hkelvin
  · have hnot : isWhitespace c = decide _ := rfl
    rw [hnot, decide_eq_false_iff_not]
    omega
  · exact absurd hmem (by decide)
  · exact hdigits c hmem

theorem words_append (a b : Str) {c : Char} (h : isWhitespace c = true) :
    words (a ++ c :: b) = words a ++ words b := by
  rw [words, List.splitOnP_append_cons a b h, List.filter_append, ← words, ← words]

theorem words_cons (b : Str) {c : Char} (h : isWhitespace c = true) :
    words (c :: b) = words b := words_append [] b h

theorem words_of_no_space {a : Str} (hne : a ≠ []) (h : ∀ c ∈ a, isWhitespace c = false) :
    words a = [a] := by
  rw [words, List.splitOnP_eq_singleton h, List.filter_cons_of_pos (by simpa using hne)]
  rfl

/-- A text has no white space, or a piece without it in front of some. -/
theorem space_induction {P : Str → Prop} (single : ∀ a, (∀ c ∈ a, isWhitespace c = false) → P a)
    (cons : ∀ a c b, (∀ d ∈ a, isWhitespace d = false) → isWhitespace c = true → P b →
      P (a ++ c :: b)) (s : Str) : P s := by
  induction hn : s.length using Nat.strongRecOn generalizing s with
  | ind n ih =>
    have hsplit : s = s.takeWhile (!isWhitespace ·) ++ s.dropWhile (!isWhitespace ·) :=
      (List.takeWhile_append_dropWhile).symm
    have hfront : ∀ d ∈ s.takeWhile (!isWhitespace ·), isWhitespace d = false :=
      fun d hd => by simpa using List.mem_takeWhile_imp hd
    cases hdrop : s.dropWhile (!isWhitespace ·) with
    | nil =>
      rw [hdrop, List.append_nil] at hsplit
      rw [hsplit]
      exact single _ hfront
    | cons c b =>
      have hspace : isWhitespace c = true := by
        have hhead := List.head?_dropWhile_not (!isWhitespace ·) s
        rw [hdrop] at hhead
        simpa using hhead
      have hlen : b.length < n := by
        have hsum := congrArg List.length hsplit
        rw [hdrop, List.length_append, List.length_cons] at hsum
        omega
      rw [hsplit, hdrop]
      exact cons _ c b hfront hspace (ih _ hlen b rfl)

theorem eq_of_mem_words {a w : Str} (ha : ∀ c ∈ a, isWhitespace c = false) (h : w ∈ words a) :
    w = a := by
  by_cases hne : a = []
  · rw [hne] at h
    cases h
  · rw [words_of_no_space hne ha] at h
    exact List.mem_singleton.mp h

theorem no_space_of_mem {s w : Str} (h : w ∈ words s) : ∀ c ∈ w, isWhitespace c = false := by
  induction s using space_induction with
  | single a ha =>
    rw [eq_of_mem_words ha h]
    exact ha
  | cons a c b ha hc ih =>
    rw [words_append a b hc] at h
    rcases List.mem_append.mp h with h | h
    · rw [eq_of_mem_words ha h]
      exact ha
    · exact ih h

theorem words_eq_nil {s : Str} (h : ∀ c ∈ s, isWhitespace c = true) : words s = [] := by
  induction s with
  | nil => rfl
  | cons c s ih =>
    rw [words_cons s (h c List.mem_cons_self)]
    exact ih fun d hd => h d (List.mem_cons_of_mem _ hd)

theorem space_of_words_eq_nil {s : Str} (h : words s = []) : ∀ c ∈ s, isWhitespace c = true := by
  induction s using space_induction with
  | single a ha =>
    by_cases hne : a = []
    · simp [hne]
    · rw [words_of_no_space hne ha] at h
      cases h
  | cons a c b ha hc ih =>
    rw [words_append a b hc, List.append_eq_nil_iff] at h
    have hnil : a = [] := by
      by_contra hne
      rw [words_of_no_space hne ha] at h
      cases h.1
    rw [hnil, List.nil_append, List.forall_mem_cons]
    exact ⟨hc, ih h.2⟩

/-- The text is this word with white space around it. -/
def OneWord (w s : Str) : Prop :=
  w ≠ [] ∧ (∀ c ∈ w, isWhitespace c = false) ∧ ∃ front back : Str, s = front ++ w ++ back ∧
    (∀ c ∈ front, isWhitespace c = true) ∧ ∀ c ∈ back, isWhitespace c = true

theorem oneWord_self {w : Str} (hne : w ≠ []) (h : ∀ c ∈ w, isWhitespace c = false) : OneWord w w :=
  ⟨hne, h, [], [], (List.append_nil w).symm, by simp, by simp⟩

theorem OneWord.cons {w s : Str} {c : Char} (h : OneWord w s) (hc : isWhitespace c = true) :
    OneWord w (c :: s) := by
  obtain ⟨hne, hw, front, back, rfl, hfront, hback⟩ := h
  exact ⟨hne, hw, c :: front, back, rfl, List.forall_mem_cons.mpr ⟨hc, hfront⟩, hback⟩

theorem words_of_oneWord {w s : Str} (h : OneWord w s) : words s = [w] := by
  obtain ⟨hne, hw, front, back, rfl, hfront, hback⟩ := h
  have hword : words (w ++ back) = [w] := by
    cases back with
    | nil => rw [List.append_nil, words_of_no_space hne hw]
    | cons c back =>
      rw [List.forall_mem_cons] at hback
      rw [words_append w back hback.1, words_of_no_space hne hw, words_eq_nil hback.2]
      rfl
  induction front with
  | nil => exact hword
  | cons c front ih =>
    rw [List.forall_mem_cons] at hfront
    rw [List.cons_append, List.cons_append, words_cons _ hfront.1]
    exact ih hfront.2

theorem words_eq_singleton_iff {w s : Str} : words s = [w] ↔ OneWord w s := by
  refine ⟨fun h => ?_, words_of_oneWord⟩
  induction s using space_induction with
  | single a ha =>
    by_cases hne : a = []
    · rw [hne] at h
      cases h
    · obtain rfl : a = w := List.singleton_inj.mp ((words_of_no_space hne ha).symm.trans h)
      exact oneWord_self hne ha
  | cons a c b ha hc ih =>
    rw [words_append a b hc] at h
    by_cases hne : a = []
    · rw [hne] at h ⊢
      exact (ih h).cons hc
    · rw [words_of_no_space hne ha] at h
      obtain ⟨rfl, hb⟩ := List.cons.inj h
      exact ⟨hne, ha, [], c :: b, rfl, by simp,
        List.forall_mem_cons.mpr ⟨hc, space_of_words_eq_nil hb⟩⟩

theorem strip_word {s w : Str} (h : w ∈ words s) : stripBy isWhitespace w = w :=
  stripBy_of_ends _ _ (fun c hc => no_space_of_mem h c (List.mem_of_mem_head? hc))
    (fun c hc => no_space_of_mem h c (List.mem_of_mem_getLast? hc))

/-- A text that is read as one line. -/
def Unbroken (s : Str) : Prop := '\n' ∉ s ∧ '\r' ∉ s

instance (s : Str) : Decidable (Unbroken s) := inferInstanceAs (Decidable (_ ∧ _))

theorem linesFrom_append {s : Str} (h : Unbroken s) (cur rest : Str) :
    linesFrom (s ++ '\n' :: rest) cur = (cur ++ s) :: linesFrom rest [] := by
  induction s generalizing cur with
  | nil => simp [linesFrom]
  | cons c s ih =>
    have hn : c ≠ '\n' := fun hc => h.1 (by simp [hc])
    have hr : c ≠ '\r' := fun hc => h.2 (by simp [hc])
    have hs : Unbroken s := ⟨fun hm => h.1 (by simp [hm]), fun hm => h.2 (by simp [hm])⟩
    have hstep : linesFrom (c :: (s ++ '\n' :: rest)) cur = linesFrom (s ++ '\n' :: rest) (cur ++ [c]) := by
      rw [linesFrom.eq_def]
      simp [hn, hr]
    rw [List.cons_append, hstep, ih hs, List.append_assoc, List.singleton_append]

/-- Lines that were each written with a line end are read back. -/
theorem readlines_flatMap {ls : List Str} (h : ∀ l ∈ ls, Unbroken l) :
    readlines (ls.flatMap (· ++ ['\n'])) = ls := by
  induction ls with
  | nil => rfl
  | cons l ls ih =>
    have hrest := ih fun m hm => h m (List.mem_cons_of_mem _ hm)
    rw [readlines] at hrest ⊢
    rw [List.flatMap_cons, List.append_assoc, List.singleton_append,
      linesFrom_append (h l List.mem_cons_self), hrest, List.nil_append]

end TdxTools.Python.Words
