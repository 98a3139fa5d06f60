import TdxTools.CloudStack.Artifacts
import TdxTools.Python.Words

namespace TdxTools.CloudStack.ChecksumFile

open Python.ByteString Python.Text Python.Words Python.Exec Artifacts

/-- One file with its checksum: 64 hex digits, a blank, the mode of the read
(a blank or `*`), and the name of the file. -/
structure Entry where
  hash : Str
  binary : Bool
  name : Str
  length_hash : hash.length = 64
  hex_hash : ∀ c ∈ hash, (hexVal c).isSome
  name_ne : name ≠ []
  unbroken : Unbroken name

/-- A line with nothing but white space. -/
structure Blank where
  text : Str
  space : ∀ c ∈ text, isWhitespace c = true
  unbroken : Unbroken text

inductive Line
  | blank (b : Blank)
  | entry (e : Entry)

namespace Entry

variable (e : Entry)

/-- The mode and the name. -/
def marked : Str := (if e.binary then '*' else ' ') :: e.name

def text : Str := e.hash ++ ' ' :: e.marked

theorem no_space_hash : ∀ c ∈ e.hash, isWhitespace c = false :=
  fun c hc => isWhitespace_of_hexVal (e.hex_hash c hc)

theorem words_text : words e.text = e.hash :: words e.marked := by
  have hne : e.hash ≠ [] := by
    intro hnil
    have hlen := e.length_hash
    rw [hnil] at hlen
    cases hlen
  rw [text, words_append _ _ (by decide), words_of_no_space hne e.no_space_hash]
  rfl

theorem unbroken_text : Unbroken e.text := by
  have hnot : ∀ u, hexVal u = none → u ≠ ' ' → u ≠ '*' → u ∉ e.name → u ∉ e.text := by
    intro u hu hblank hstar hname hmem
    rcases List.mem_append.mp hmem with hhash | hmarked
    · have hsome := e.hex_hash u hhash
      rw [hu] at hsome
      cases hsome
    · rw [marked] at hmarked
      cases hmode : e.binary <;> simp_all
  exact ⟨hnot '\n' (by decide) (by decide) (by decide) e.unbroken.1,
    hnot '\r' (by decide) (by decide) (by decide) e.unbroken.2⟩

end Entry

namespace Line

def text : Line → Str
  | blank b => b.text
  | entry e => e.text

/-- The entry of a file with this name. -/
def Named (filename : Str) : Line → Prop
  | blank _ => False
  | entry e => e.name = filename

/-- The mode and the name of the entry make one word, and not this name. -/
def Passes (filename : Str) : Line → Prop
  | blank _ => False
  | entry e => ∃ w, OneWord w e.marked ∧ w ≠ filename

end Line

/-- The hash of the first line whose file name is this. -/
def expected (filename : Str) : List Line → Option Str
  | [] => none
  | .blank _ :: ls => expected filename ls
  | .entry e :: ls => if e.name = filename then some e.hash else expected filename ls

def render (ls : List Line) : Str := ls.flatMap fun l => l.text ++ ['\n']

/-- The file with these lines gives the hash of the first line with the name. -/
def Parses (self : Artifact) (ls : List Line) (content : Bytes) : Prop :=
  self.getSha256sumFromFile (some content) = .ok (expected self.filename ls)

/-- The first entry that meets the test, behind lines that meet the other one. -/
def FirstEntry (before : Line → Prop) (test : Entry → Prop) (ls : List Line) (e : Entry) : Prop :=
  ∃ pre post, ls = pre ++ .entry e :: post ∧ (∀ l ∈ pre, before l) ∧ test e

section FirstEntry

variable {before before' : Line → Prop} {test test' : Entry → Prop} {ls : List Line} {e : Entry}

theorem firstEntry_cons_iff {l : Line} : FirstEntry before test (l :: ls) e ↔
    (l = .entry e ∧ test e) ∨ (before l ∧ FirstEntry before test ls e) := by
  constructor
  · rintro ⟨pre, post, hls, hpre, htest⟩
    cases pre with
    | nil => exact Or.inl ⟨(List.cons.inj hls).1, htest⟩
    | cons m pre =>
      obtain ⟨rfl, rfl⟩ := List.cons.inj hls
      rw [List.forall_mem_cons] at hpre
      exact Or.inr ⟨hpre.1, pre, post, rfl, hpre.2, htest⟩
  · rintro (⟨rfl, htest⟩ | ⟨hl, pre, post, rfl, hpre, htest⟩)
    · exact ⟨[], ls, rfl, by simp, htest⟩
    · exact ⟨l :: pre, post, rfl, List.forall_mem_cons.mpr ⟨hl, hpre⟩, htest⟩

theorem FirstEntry.cons {l : Line} (h : FirstEntry before test ls e) (hl : before l) :
    FirstEntry before test (l :: ls) e := firstEntry_cons_iff.mpr (Or.inr ⟨hl, h⟩)

theorem FirstEntry.met (h : FirstEntry before test ls e) : test e := by
  obtain ⟨pre, post, hls, hpre, htest⟩ := h
  exact htest

theorem FirstEntry.imp (h : FirstEntry before test ls e) (hbefore : ∀ l, before l → before' l)
    (htest : test e → test' e) : FirstEntry before' test' ls e := by
  obtain ⟨pre, post, hls, hpre, he⟩ := h
  exact ⟨pre, post, hls, fun l hl => hbefore l (hpre l hl), htest he⟩

end FirstEntry

def FirstNamed (filename : Str) : List Line → Entry → Prop :=
  FirstEntry (fun l => ¬ l.Named filename) (fun e => e.name = filename)

/-- The first entry whose mode and name are the name as a word, behind entries of
other words. -/
def FirstRead (filename : Str) : List Line → Entry → Prop :=
  FirstEntry (Line.Passes filename) (fun e => OneWord filename e.marked)

/-- No entry has the name, and every line is an entry of one other word. -/
def Absent (filename : Str) (ls : List Line) : Prop :=
  ∀ l ∈ ls, l.Passes filename ∧ ¬ l.Named filename

/-- The first entry with the name was written in text mode, the name has no white
space, and the lines before it are entries of one other word. -/
def Plainly (filename : Str) (ls : List Line) : Prop :=
  ∃ e, FirstEntry (fun l => l.Passes filename ∧ ¬ l.Named filename)
    (fun e => e.name = filename ∧ e.binary = false ∧ ∀ c ∈ e.name, isWhitespace c = false) ls e

/-- Another entry is read in place of the first one with the name, and has the
same hash. -/
def ByTwin (filename : Str) (ls : List Line) : Prop :=
  ∃ e e', e ≠ e' ∧ FirstRead filename ls e ∧ FirstNamed filename ls e' ∧ e.hash = e'.hash

def Readable (filename : Str) (ls : List Line) : Prop :=
  Absent filename ls ∨ Plainly filename ls ∨ ByTwin filename ls

section Expected

variable {filename : Str}

theorem expected_eq_none_iff (ls : List Line) :
    expected filename ls = none ↔ ∀ l ∈ ls, ¬ l.Named filename := by
  induction ls with
  | nil => simp [expected]
  | cons l ls ih =>
    rw [List.forall_mem_cons, ← ih]
    cases l with
    | blank b => simp [expected, Line.Named]
    | entry e => by_cases hname : e.name = filename <;> simp [expected, Line.Named, hname]

theorem expected_eq_some_iff (ls : List Line) (hash : Str) :
    expected filename ls = some hash ↔ ∃ e, FirstNamed filename ls e ∧ e.hash = hash := by
  induction ls with
  | nil => simp [expected, FirstNamed, FirstEntry]
  | cons l ls ih =>
    simp only [FirstNamed, firstEntry_cons_iff] at ih ⊢
    cases l with
    | blank b => simpa [expected, Line.Named] using ih
    | entry e =>
      by_cases hname : e.name = filename
      · simp [expected, Line.Named, hname]
      · have hother : ∀ e', ¬ (Line.entry e = .entry e' ∧ e'.name = filename) := by
          rintro e' ⟨he, hname'⟩
          cases he
          exact hname hname'
        have hpass : ¬ (Line.entry e).Named filename := hname
        rw [expected, if_neg hname, ih]
        simp only [hother, false_or, hpass, not_false_eq_true, true_and]

end Expected

section Search

variable {filename : Str}

theorem findHash_blank (b : Blank) (lines : List Str) :
    Artifact.findHash filename ((Line.blank b).text :: lines) = .raised .valueError := by
  rw [Artifact.findHash, Line.text, words_eq_nil b.space]

theorem findHash_oneWord (filename : Str) {e : Entry} {w : Str} (h : OneWord w e.marked)
    (lines : List Str) :
    Artifact.findHash filename ((Line.entry e).text :: lines) =
      if w = filename then .ok (some e.hash) else Artifact.findHash filename lines := by
  have hwords : words e.text = [e.hash, w] := by rw [e.words_text, words_of_oneWord h]
  have hhash : stripBy isWhitespace e.hash = e.hash := strip_word (s := e.text) (by simp [hwords])
  have hword : stripBy isWhitespace w = w := strip_word (s := e.text) (by simp [hwords])
  rw [Artifact.findHash, Line.text, hwords]
  simp only [hhash, hword]

theorem findHash_broken {e : Entry} (h : ∀ w, ¬ OneWord w e.marked) (lines : List Str) :
    Artifact.findHash filename ((Line.entry e).text :: lines) = .raised .valueError := by
  rw [Artifact.findHash, Line.text, e.words_text]
  match hwords : words e.marked with
  | [] => rfl
  | [w] => exact absurd (words_eq_singleton_iff.mp hwords) (h w)
  | _ :: _ :: _ => rfl

theorem findHash_cases (filename : Str) (l : Line) (lines : List Str) :
    (l.Passes filename ∧ Artifact.findHash filename (l.text :: lines) =
      Artifact.findHash filename lines) ∨
    (∃ e, l = .entry e ∧ OneWord filename e.marked ∧
      Artifact.findHash filename (l.text :: lines) = .ok (some e.hash)) ∨
    (¬ l.Passes filename ∧ (∀ e, l = .entry e → ¬ OneWord filename e.marked) ∧
      Artifact.findHash filename (l.text :: lines) = .raised .valueError) := by
  cases l with
  | blank b => exact Or.inr (Or.inr ⟨id, by simp, findHash_blank b lines⟩)
  | entry e =>
    by_cases hone : ∃ w, OneWord w e.marked
    · obtain ⟨w, hw⟩ := hone
      have hrun := findHash_oneWord filename hw lines
      by_cases hname : w = filename
      · rw [if_pos hname] at hrun
        exact Or.inr (Or.inl ⟨e, rfl, hname ▸ hw, hrun⟩)
      · rw [if_neg hname] at hrun
        exact Or.inl ⟨⟨w, hw, hname⟩, hrun⟩
    · rw [not_exists] at hone
      refine Or.inr (Or.inr ⟨?_, ?_, findHash_broken hone lines⟩)
      · rintro ⟨w, hw, -⟩
        exact hone w hw
      · rintro e' he
        cases he
        exact hone filename

theorem not_passes {e : Entry} (h : OneWord filename e.marked) :
    ¬ (Line.entry e).Passes filename := by
  rintro ⟨w, hw, hne⟩
  have hwords := words_of_oneWord hw
  rw [words_of_oneWord h] at hwords
  exact hne (List.singleton_inj.mp hwords).symm

theorem findHash_eq_none_iff (ls : List Line) :
    Artifact.findHash filename (ls.map Line.text) = .ok none ↔ ∀ l ∈ ls, l.Passes filename := by
  induction ls with
  | nil => simp [Artifact.findHash]
  | cons l ls ih =>
    rw [List.map_cons, List.forall_mem_cons]
    obtain ⟨hpass, hrun⟩ | ⟨e, rfl, hword, hrun⟩ | ⟨hpass, -, hrun⟩ :=
      findHash_cases filename l (ls.map Line.text)
    · rw [hrun, ih, and_iff_right hpass]
    · rw [hrun]
      exact iff_of_false (by simp) fun h => not_passes hword h.1
    · rw [hrun]
      exact iff_of_false (by simp) fun h => hpass h.1

theorem findHash_eq_some_iff (ls : List Line) (hash : Str) :
    Artifact.findHash filename (ls.map Line.text) = .ok (some hash) ↔
      ∃ e, FirstRead filename ls e ∧ e.hash = hash := by
  induction ls with
  | nil => simp [Artifact.findHash, FirstRead, FirstEntry]
  | cons l ls ih =>
    simp only [FirstRead, firstEntry_cons_iff] at ih ⊢
    rw [List.map_cons]
    obtain ⟨hpass, hrun⟩ | ⟨e, rfl, hword, hrun⟩ | ⟨hpass, hword, hrun⟩ :=
      findHash_cases filename l (ls.map Line.text)
    · have hnot : ∀ e, ¬ (l = .entry e ∧ OneWord filename e.marked) := by
        rintro e ⟨rfl, hword⟩
        exact not_passes hword hpass
      rw [hrun, ih]
      simp only [hnot, false_or, hpass, true_and]
    · have hnot := not_passes hword
      rw [hrun]
      simp [hnot, hword]
    · have hnot : ∀ e, ¬ (l = .entry e ∧ OneWord filename e.marked) :=
        fun e h => hword e h.1 h.2
      rw [hrun]
      simp [hnot, hpass]

end Search

section Reading

variable {filename : Str} {ls : List Line} {e : Entry}

/-- The search gives what is expected just if nothing is found and none is there,
or what is found has the hash of the first entry with the name. -/
theorem findHash_expected_iff :
    Artifact.findHash filename (ls.map Line.text) = .ok (expected filename ls) ↔
      Absent filename ls ∨
        ∃ e e', FirstRead filename ls e ∧ FirstNamed filename ls e' ∧ e.hash = e'.hash := by
  have habsent : Absent filename ls ↔
      (∀ l ∈ ls, l.Passes filename) ∧ ∀ l ∈ ls, ¬ l.Named filename := by
    simp only [Absent, imp_and, forall_and]
  rw [habsent, ← findHash_eq_none_iff, ← expected_eq_none_iff]
  cases hexpected : expected filename ls with
  | none =>
    have hnot : ∀ e, ¬ FirstNamed filename ls e := by
      intro e he
      have hsome := (expected_eq_some_iff ls e.hash).mpr ⟨e, he, rfl⟩
      rw [hexpected] at hsome
      cases hsome
    simp [hnot]
  | some hash =>
    obtain ⟨e', hfirst, rfl⟩ := (expected_eq_some_iff ls hash).mp hexpected
    rw [findHash_eq_some_iff]
    constructor
    · rintro ⟨e, hread, hhash⟩
      exact Or.inr ⟨e, e', hread, hfirst, hhash⟩
    · rintro (⟨-, hnone⟩ | ⟨e, e'', hread, hnamed, hhash⟩)
      · cases hnone
      · have hsame := (expected_eq_some_iff ls e''.hash).mpr ⟨e'', hnamed, rfl⟩
        rw [hexpected, Option.some.injEq] at hsame
        exact ⟨e, hread, hhash.trans hsame.symm⟩

/-- The mode and the name of an entry are the name as a word just in text mode,
when the name has no white space. -/
theorem oneWord_name_iff (e : Entry) : OneWord e.name e.marked ↔
    e.binary = false ∧ ∀ c ∈ e.name, isWhitespace c = false := by
  constructor
  · rintro ⟨-, hname, front, back, hmarked, hfront, hback⟩
    refine ⟨?_, hname⟩
    by_contra hbinary
    rw [Bool.not_eq_false] at hbinary
    rw [Entry.marked, if_pos hbinary] at hmarked
    -- No white space is in front of the mark or behind the name.
    have hnone : ∀ c ∈ front ++ e.name ++ back, isWhitespace c = false := by
      rw [← hmarked, List.forall_mem_cons]
      exact ⟨by decide, hname⟩
    have hempty : ∀ s : Str, (∀ c ∈ s, isWhitespace c = true) →
        s ⊆ front ++ e.name ++ back → s = [] := by
      intro s hs hsub
      rw [List.eq_nil_iff_forall_not_mem]
      intro c hc
      have hfalse := hnone c (hsub hc)
      rw [hs c hc] at hfalse
      cases hfalse
    have hfrontnil := hempty front hfront fun c hc =>
      List.mem_append_left back (List.mem_append_left e.name hc)
    have hbacknil := hempty back hback fun c hc => List.mem_append_right _ hc
    rw [hfrontnil, hbacknil, List.nil_append, List.append_nil] at hmarked
    exact List.cons_ne_self _ _ hmarked
  · rintro ⟨hmode, hname⟩
    rw [Entry.marked, hmode]
    exact (oneWord_self e.name_ne hname).cons (by decide)

/-- An entry that is both read and named first comes before all that could be
taken for it. -/
theorem plainly_of_read (hread : FirstRead filename ls e) (hnamed : FirstNamed filename ls e) :
    Plainly filename ls := by
  have hname : e.name = filename := FirstEntry.met hnamed
  have hword : OneWord filename e.marked := FirstEntry.met hread
  have htest : e.name = filename ∧ e.binary = false ∧ ∀ c ∈ e.name, isWhitespace c = false :=
    ⟨hname, (oneWord_name_iff e).mp (hname.symm ▸ hword)⟩
  refine ⟨e, ?_⟩
  induction ls with
  | nil => simp [FirstRead, FirstEntry] at hread
  | cons l ls ih =>
    rcases firstEntry_cons_iff.mp hread with ⟨hl, -⟩ | ⟨hpass, hread'⟩
    · exact firstEntry_cons_iff.mpr (Or.inl ⟨hl, htest⟩)
    · rcases firstEntry_cons_iff.mp hnamed with ⟨hl, -⟩ | ⟨hother, hnamed'⟩
      · rw [hl] at hpass
        exact absurd hpass (not_passes hword)
      · exact (ih hread' hnamed').cons ⟨hpass, hother⟩

theorem readable_iff : Readable filename ls ↔ Absent filename ls ∨
    ∃ e e', FirstRead filename ls e ∧ FirstNamed filename ls e' ∧ e.hash = e'.hash := by
  rw [Readable]
  constructor
  · rintro (habsent | ⟨e, he⟩ | ⟨e, e', -, hread, hnamed, hhash⟩)
    · exact Or.inl habsent
    · have hread : FirstRead filename ls e := he.imp (fun _ h => h.1)
        fun h => h.1 ▸ (oneWord_name_iff e).mpr h.2
      exact Or.inr ⟨e, e, hread, he.imp (fun _ h => h.2) fun h => h.1, rfl⟩
    · exact Or.inr ⟨e, e', hread, hnamed, hhash⟩
  · rintro (habsent | ⟨e, e', hread, hnamed, hhash⟩)
    · exact Or.inl habsent
    · by_cases he : e = e'
      · subst he
        exact Or.inr (Or.inl (plainly_of_read hread hnamed))
      · exact Or.inr (Or.inr ⟨e, e', he, hread, hnamed, hhash⟩)

end Reading

theorem readlines_render (ls : List Line) : readlines (render ls) = ls.map Line.text := by
  have hflat : render ls = (ls.map Line.text).flatMap (· ++ ['\n']) := by
    rw [List.flatMap_map]
    rfl
  rw [hflat]
  apply readlines_flatMap
  intro t ht
  obtain ⟨l, -, rfl⟩ := List.mem_map.mp ht
  cases l with
  | blank b => exact b.unbroken
  | entry e => exact e.unbroken_text

/-- A checksum file is read as it was written just if the entry with the name is
in text mode with no white space in the name and stands behind entries of other
words, if none is there and all lines are such entries, or by a twin. -/
theorem checksum_file_iff (self : Artifact) (ls : List Line) {content : Bytes}
    (h : decodeUtf8 content = some (render ls)) :
    Parses self ls content ↔ Readable self.filename ls := by
  have hread : self.getSha256sumFromFile (some content) =
      Artifact.findHash self.filename (ls.map Line.text) := by
    have hdecode : Outcome.ofOption .unicodeDecodeError (decodeUtf8 content) = .ok (render ls) := by
      rw [h, Outcome.ofOption_some]
    rw [← readlines_render, Artifact.getSha256sumFromFile]
    simp only [Outcome.ofOption_some, Outcome.ok_bind, hdecode]
  rw [Parses, hread, findHash_expected_iff, readable_iff]

section Plain

/-- A line that was written for a read in text mode of a file whose name has no
white space. -/
def Line.Plain : Line → Prop
  | blank _ => False
  | entry e => e.binary = false ∧ ∀ c ∈ e.name, isWhitespace c = false

theorem readable_plain {ls : List Line} (h : ∀ l ∈ ls, l.Plain) (filename : Str) :
    Readable filename ls := by
  induction ls with
  | nil => exact Or.inl (by simp [Absent])
  | cons l ls ih =>
    rw [List.forall_mem_cons] at h
    cases l with
    | blank b => exact absurd h.1 id
    | entry e =>
      by_cases hname : e.name = filename
      · exact Or.inr (Or.inl ⟨e, firstEntry_cons_iff.mpr (Or.inl ⟨rfl, hname, h.1⟩)⟩)
      · have hpass : (Line.entry e).Passes filename :=
          ⟨e.name, (oneWord_name_iff e).mpr h.1, hname⟩
        rcases ih h.2 with habsent | ⟨f, hf⟩ | ⟨f, g, hne, hread, hnamed, hhash⟩
        · exact Or.inl (List.forall_mem_cons.mpr ⟨⟨hpass, hname⟩, habsent⟩)
        · exact Or.inr (Or.inl ⟨f, hf.cons ⟨hpass, hname⟩⟩)
        · exact Or.inr (Or.inr ⟨f, g, hne, hread.cons hpass, hnamed.cons hname, hhash⟩)

end Plain

def sampleHash : Str := List.replicate 64 '0'

def sampleArtifact (filename : Str) : Artifact where
  source := "https://host/".toList ++ filename
  sha256sum := some "file:///sums".toList
  schema := "https".toList
  path := '/' :: filename
  filename := filename

section Samples

variable (binary : Bool) (name : Str) (hne : name ≠ []) (hname : Unbroken name)

def sampleEntry : Entry where
  hash := sampleHash
  binary := binary
  name := name
  length_hash := List.length_replicate
  hex_hash := fun c hc => by rw [List.eq_of_mem_replicate hc]; decide
  name_ne := hne
  unbroken := hname

end Samples

def textEntry : Entry := sampleEntry false "f".toList (by decide) (by decide +kernel)

def binaryEntry : Entry := sampleEntry true "f".toList (by decide) (by decide +kernel)

def spacedEntry : Entry := sampleEntry false "a b".toList (by decide) (by decide +kernel)

def emptyLine : Blank where
  text := []
  space := by simp
  unbroken := ⟨by simp, by simp⟩

theorem checksum_file_iff_plain :
    Parses (sampleArtifact "f".toList) [.entry textEntry] (encodeUtf8 (render [.entry textEntry])) := by
  refine (checksum_file_iff _ _ (by decide +kernel)).mpr (readable_plain ?_ _)
  have hplain : (Line.entry textEntry).Plain := by
    refine ⟨rfl, fun c hc => ?_⟩
    obtain rfl : c = 'f' := by simpa [textEntry, sampleEntry] using hc
    decide
  simpa using hplain

/-- A blank line and a name with a blank raise; the mark of a binary read is
taken for a part of the name. -/
theorem sha256sum_lines_misread :
    (sampleArtifact "f".toList).getSha256sumFromFile
      (some (encodeUtf8 (render [.blank emptyLine, .entry textEntry]))) = .raised .valueError ∧
    (sampleArtifact "a b".toList).getSha256sumFromFile
      (some (encodeUtf8 (render [.entry spacedEntry]))) = .raised .valueError ∧
    (sampleArtifact "f".toList).getSha256sumFromFile
      (some (encodeUtf8 (render [.entry binaryEntry]))) = .ok none ∧
    ¬ Parses (sampleArtifact "f".toList) [.entry binaryEntry]
      (encodeUtf8 (render [.entry binaryEntry])) := by
  refine ⟨by decide +kernel, by decide +kernel, by decide +kernel, ?_⟩
  rw [Parses]
  decide +kernel

end TdxTools.CloudStack.ChecksumFile
