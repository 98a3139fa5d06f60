import TdxTools.CloudStack.DownloadSteps

namespace TdxTools.CloudStack.FreshDelivery

open Python.ByteString Python.Text Python.Path Python.Exec Python.Files Python.FileTimes
open Python.Url Download Artifacts VerifiedDownload DownloadSteps

section Calls

variable (host : Host) (sha256 : HashFunction 32) (artifact : Artifact) (destDir cacheDir : Str)
  (e : Option Str) (w : World)

def archive : Str := join cacheDir artifact.filename

def extracted : Str := Artifact.cut (join cacheDir artifact.filename)

def dest : Str := Artifact.cut (join destDir artifact.filename)

/-- The content of the member that an archive extracts to. -/
def memberOf (b : Bytes) : Option Bytes :=
  (host.untar b).bind (lastAt host cacheDir [resolve host.cwd (extracted artifact cacheDir)])

/-- When a call returns with a matching archive in the cache, its destination has the member. -/
def Delivers : Prop :=
  ∀ path, (call host sha256 artifact destDir cacheDir w).1 = .ok path →
    ∀ b m, (call host sha256 artifact destDir cacheDir w).2.world.content host.env
        (archive artifact cacheDir) = some b →
      Matches sha256 e b → memberOf host artifact cacheDir b = some m →
      (call host sha256 artifact destDir cacheDir w).2.world.content host.env path = some m

/-- No other member of an archive comes in place of the member or of the archive itself. -/
def Orderly (b : Bytes) : Prop :=
  ∀ members, host.untar b = some members →
    (∀ m, memberOf host artifact cacheDir b = some m →
      lastAt host cacheDir [resolve host.cwd (extracted artifact cacheDir),
        resolve host.cwd (dest artifact destDir)] members = some m) ∧
    ∀ b', lastAt host cacheDir [resolve host.cwd (archive artifact cacheDir)] members = some b' →
      Matches sha256 e b' → memberOf host artifact cacheDir b' = memberOf host artifact cacheDir b

/-- Where the archive matches and its extracted file is there, the file that the times select has
the member. -/
def Fresh : Prop :=
  ∀ b m, w.content host.env (archive artifact cacheDir) = some b → Matches sha256 e b →
    memberOf host artifact cacheDir b = some m →
    host.exists_ w (extracted artifact cacheDir) = true →
    (newer (w.file host.env (extracted artifact cacheDir))
      (w.file host.env (dest artifact destDir))).map File.content = some m

/-- The names of the files, and the archives that a call may extract. -/
structure Suited : Prop where
  stem : artifact.filename ≠ "tar.xz".toList
  extracted_file : host.isdir (extracted artifact cacheDir) = false
  dest_file : host.isdir (dest artifact destDir) = false
  orderly : ∀ k ≤ 5, (k = 0 → host.exists_ w (extracted artifact cacheDir) = false) →
    ∀ b, served host artifact cacheDir w k = some b → Orderly host sha256 artifact destDir cacheDir e b

structure Ready : Prop extends Suited host sha256 artifact destDir cacheDir e w where
  fresh : Fresh host sha256 artifact destDir cacheDir e w

end Calls

section Step

variable {host : Host} {sha256 : HashFunction 32} {self : Artifact} {destDir cacheDir : Str}
  {e : Option Str} {w : World}

theorem extractall_leaves {c c' : Client} (ht : Timed c.world)
    (h : Artifact.extractall host (archive self cacheDir) cacheDir c = (.ok (), c')) {b : Bytes}
    (hb : c.world.content host.env (archive self cacheDir) = some b)
    (horderly : Orderly host sha256 self destDir cacheDir e b)
    (hextracted : Names (extracted self cacheDir)) (hdest : Names (dest self destDir))
    {b' m : Bytes} (hb' : c'.world.content host.env (archive self cacheDir) = some b')
    (hmatch : Matches sha256 e b') (hm : memberOf host self cacheDir b' = some m) :
    (newer (c'.world.file host.env (extracted self cacheDir))
      (c'.world.file host.env (dest self destDir))).map File.content = some m := by
  obtain ⟨b₀, members, hb₀, hmembers, hrun⟩ := extractall_ok h
  obtain rfl : b₀ = b := Option.some.inj (hb₀.symm.trans hb)
  obtain ⟨hlast, harchive⟩ := horderly members hmembers
  have htick : Timed c.world.tick := ht.later 1
  have hleft := extractMembers_newer htick hrun
  have hnames : Names (archive self cacheDir) := World.names_of_content hb
  have hsame : memberOf host self cacheDir b' = memberOf host self cacheDir b₀ := by
    have hat := hleft (resolve host.cwd (archive self cacheDir))
      (resolve host.cwd (archive self cacheDir))
    have hbefore : (c.world.tick.files (resolve host.cwd (archive self cacheDir))).map
        File.content = some b₀ := by
      rw [World.content, file_at_place hnames] at hb
      exact hb
    rw [newer_self, newer_self, ← file_at_place hnames, ← World.content, hb', lastAt_pair,
      hbefore] at hat
    cases hover : lastAt host cacheDir [resolve host.cwd (archive self cacheDir)] members with
    | none =>
      rw [hover, Option.none_or, Option.some.injEq] at hat
      rw [hat]
    | some b₁ =>
      rw [hover, Option.some_or, Option.some.injEq] at hat
      exact harchive b' (hat ▸ hover) hmatch
  rw [file_at_place hextracted, file_at_place hdest, hleft, hlast m (hsame.symm.trans hm)]
  rfl

theorem exists_of_isSome {p : Str} (h : (w.file host.env p).isSome) : host.exists_ w p = true := by
  rw [Host.exists_, World.isfile, h, Bool.true_or]

theorem call_ok (htar : Artifact.IsTarXz (join cacheDir self.filename)) {path : Str}
    (hpath : (call host sha256 self destDir cacheDir w).1 = .ok path) :
    ∃ new c₁ c₂, self.retry host sha256 (archive self cacheDir) 5 false
        { world := w, downloads := 0, checksums := 0 } = (.ok new, c₁) ∧
      (if new = true ∨ ¬ host.exists_ c₁.world (extracted self cacheDir) = true then
        Artifact.extractall host (archive self cacheDir) cacheDir c₁ = (.ok (), c₂)
        else c₂ = c₁) ∧
      Artifact.copyIfNewer host (extracted self cacheDir) (dest self destDir) c₂ =
        (.ok path, (call host sha256 self destDir cacheDir w).2) := by
  apply download_ok htar
  exact Prod.ext hpath rfl

theorem call_delivers (htar : Artifact.IsTarXz (join cacheDir self.filename))
    (hslash : '/' ∉ self.filename) (ht : Timed w)
    (hready : Ready host sha256 self destDir cacheDir e w) :
    Delivers host sha256 self destDir cacheDir e w := by
  intro path hpath b m hb hmatch hm
  obtain ⟨new, c₁, c₂, hretry, hneed, hcopy⟩ := call_ok htar hpath
  have hcopied := copyIfNewer_ok hready.extracted_file hready.dest_file hcopy
  have hextracted : Names (extracted self cacheDir) := World.names_of_file hcopied.source
  have hne : resolve host.cwd (dest self destDir) ≠ resolve host.cwd (archive self cacheDir) :=
    dest_ne_archive hslash htar hready.stem (World.names_of_content hb) hcopied.names
  have hb₂ : c₂.world.content host.env (archive self cacheDir) = some b :=
    (hcopied.frame.content (Ne.symm hne)).symm.trans hb
  rw [hcopied.path_eq]
  refine hcopied.content.trans ?_
  have ht₁ : Timed c₁.world := (later_retry _ _ _).rel hretry ht
  split at hneed
  · next hcond =>
    obtain ⟨b₁, -, hb₁, -⟩ := extractall_ok hneed
    have hserved : ∃ k ≤ 5, (k = 0 → host.exists_ w (extracted self cacheDir) = false) ∧
        served host self cacheDir w k = some b₁ := by
      cases new with
      | false =>
        have hworld : c₁.world = w := retry_false hretry
        rw [hworld] at hb₁ hcond
        have hmissing : host.exists_ w (extracted self cacheDir) = false :=
          Bool.eq_false_iff.mpr (hcond.resolve_left Bool.false_ne_true)
        exact ⟨0, Nat.zero_le 5, fun _ => hmissing, hb₁⟩
      | true =>
        have hsourced : Sourced host (archive self cacheDir)
            (w.content host.env (archive self cacheDir)) (0 + 5) c₁ :=
          retry_sourced (Nat.le_refl 0) (fun h => absurd h Bool.false_ne_true) hretry
        obtain ⟨k, hk, hk5, hstage⟩ := hsourced.content b₁ hb₁
        exact ⟨k, by omega, fun hk0 => by omega, hstage⟩
    obtain ⟨k, hk, hmissing, hk₁⟩ := hserved
    exact extractall_leaves ht₁ hneed hb₁ (hready.orderly k hk hmissing b₁ hk₁) hextracted
      hcopied.names hb₂ hmatch hm
  · next hcond =>
    obtain ⟨hold, hexists⟩ := not_or.mp hcond
    rw [Bool.not_eq_true] at hold
    subst hold
    have hworld : c₂.world = w := by rw [hneed, retry_false hretry]
    rw [hworld] at hb₂ ⊢
    exact hready.fresh b m hb₂ hmatch hm (exists_of_isSome (hworld ▸ hcopied.source))

theorem newer_after (htar : Artifact.IsTarXz (join cacheDir self.filename))
    (hslash : '/' ∉ self.filename) (ht : Timed w)
    (hready : Ready host sha256 self destDir cacheDir e w) {path : Str}
    (hpath : (call host sha256 self destDir cacheDir w).1 = .ok path) {b m : Bytes}
    (hb : (call host sha256 self destDir cacheDir w).2.world.content host.env
      (archive self cacheDir) = some b)
    (hmatch : Matches sha256 e b) (hm : memberOf host self cacheDir b = some m) :
    (newer ((call host sha256 self destDir cacheDir w).2.world.file host.env
        (extracted self cacheDir))
      ((call host sha256 self destDir cacheDir w).2.world.file host.env
        (dest self destDir))).map File.content = some m := by
  obtain ⟨new, c₁, c₂, hretry, hneed, hcopy⟩ := call_ok htar hpath
  have hcopied := copyIfNewer_ok hready.extracted_file hready.dest_file hcopy
  have ht₁ : Timed c₁.world := (later_retry _ _ _).rel hretry ht
  have ht₂ : Timed c₂.world := by
    split at hneed
    · exact (later_extractall _ _).rel hneed ht₁
    · exact hneed ▸ ht₁
  have hdelivered := call_delivers htar hslash ht hready path hpath b m hb hmatch hm
  rw [hcopied.path_eq] at hdelivered
  exact (congrArg (Option.map File.content) (hcopied.newest ht₂)).trans hdelivered

end Step

section Runs

/-- One call for an archive, held against a checksum, and the time until the next call. -/
structure Step (cacheDir : Str) where
  host : Host
  artifact : Artifact
  expected : Option Str
  wait : Nat
  made : ∃ source sha256sum, Artifact.init source sha256sum = .ok artifact
  tarXz : Artifact.IsTarXz (join cacheDir artifact.filename)

variable (sha256 : HashFunction 32) (destDir : Str) {cacheDir : Str}

/-- The files after a call, whether it returned or raised. -/
def Step.after (s : Step cacheDir) (w : World) : World :=
  let left := (call s.host sha256 s.artifact destDir cacheDir w).2.world
  { left with clock := left.clock + s.wait }

/-- Each call of a run has a property, which may depend on the files before it. -/
def Along (property : Step cacheDir → World → Prop) : World → List (Step cacheDir) → Prop
  | _, [] => True
  | w, s :: rest => property s w ∧ Along property (s.after sha256 destDir w) rest

theorem Step.timed_after (s : Step cacheDir) {w : World} (ht : Timed w) :
    Timed (s.after sha256 destDir w) := by
  have hlater : Timed (call s.host sha256 s.artifact destDir cacheDir w).2.world :=
    later_download destDir cacheDir { world := w, downloads := 0, checksums := 0 } ht
  exact hlater.later s.wait

/-- The call returns with a matching archive in the cache. -/
def Step.Completes (s : Step cacheDir) (w : World) : Prop :=
  (∃ path, (call s.host sha256 s.artifact destDir cacheDir w).1 = .ok path) ∧
    ∀ b, (s.after sha256 destDir w).content s.host.env (archive s.artifact cacheDir) = some b →
      Matches sha256 s.expected b

/-- A later call for the same archive from the same directory. -/
structure Step.Alike (s t : Step cacheDir) : Prop where
  cwd : t.host.cwd = s.host.cwd
  untar : t.host.untar = s.host.untar
  filename : t.artifact.filename = s.artifact.filename

theorem Step.fresh_after {s t : Step cacheDir} (halike : s.Alike t) {w : World} (ht : Timed w)
    (hready : Ready s.host sha256 s.artifact destDir cacheDir s.expected w)
    (hcompletes : s.Completes sha256 destDir w) :
    Fresh t.host sha256 t.artifact destDir cacheDir t.expected (s.after sha256 destDir w) := by
  intro b m hb _ hm _
  obtain ⟨⟨path, hpath⟩, hverified⟩ := hcompletes
  obtain ⟨source, sha256sum, hmade⟩ := s.made
  have hfile (p : Str) (v : World) : v.file t.host.env p = v.file s.host.env p := by
    have hcwd : t.host.env.cwd = s.host.env.cwd := halike.cwd
    rw [World.file, World.file, hcwd]
  have hlast (places : List Place) :
      lastAt t.host cacheDir places = lastAt s.host cacheDir places := by
    funext members
    simp only [lastAt, halike.cwd]
  have hmember : memberOf t.host t.artifact cacheDir b = memberOf s.host s.artifact cacheDir b := by
    simp only [memberOf, hlast, extracted, halike.cwd, halike.untar, halike.filename]
  rw [World.content, hfile, archive, halike.filename, ← archive, ← World.content] at hb
  rw [hfile, hfile, extracted, dest, halike.filename]
  exact newer_after s.tarXz (slash_not_mem_filename hmade) ht hready hpath hb (hverified b hb)
    (hmember.symm.trans hm)

/-- Every call is suited, and the files are fresh at the start of the run and behind each call that
did not complete, or was for another archive. -/
def Unspoiled (asked : Prop) : World → List (Step cacheDir) → Prop
  | _, [] => True
  | w, s :: rest =>
    Suited s.host sha256 s.artifact destDir cacheDir s.expected w ∧
      (asked → Fresh s.host sha256 s.artifact destDir cacheDir s.expected w) ∧
      Unspoiled (¬ (s.Completes sha256 destDir w ∧ ∀ t ∈ rest.head?, s.Alike t))
        (s.after sha256 destDir w) rest

theorem deliver_of_unspoiled {steps : List (Step cacheDir)} {asked : Prop} {w : World} (ht : Timed w)
    (hstart : ∀ s ∈ steps.head?,
      asked ∨ Fresh s.host sha256 s.artifact destDir cacheDir s.expected w)
    (h : Unspoiled sha256 destDir asked w steps) : Along sha256 destDir (fun s w =>
      Delivers s.host sha256 s.artifact destDir cacheDir s.expected w) w steps := by
  induction steps generalizing asked w with
  | nil => trivial
  | cons s rest ih =>
    obtain ⟨hsuited, hasked, hrest⟩ := h
    obtain ⟨source, sha256sum, hmade⟩ := s.made
    have hready : Ready s.host sha256 s.artifact destDir cacheDir s.expected w :=
      ⟨hsuited, (hstart s rfl).elim hasked id⟩
    refine ⟨call_delivers s.tarXz (slash_not_mem_filename hmade) ht hready,
      ih (s.timed_after sha256 destDir ht) ?_ hrest⟩
    intro t hmem
    by_cases hcompletes : s.Completes sha256 destDir w ∧ ∀ t ∈ rest.head?, s.Alike t
    · exact Or.inr (Step.fresh_after sha256 destDir (hcompletes.2 t hmem) ht hready hcompletes.1)
    · exact Or.inl hcompletes

/-- In an unspoiled run each call that returns delivers the member of the archive, whichever
of the calls were aborted. -/
theorem runs_deliver (steps : List (Step cacheDir)) {w : World} (ht : Timed w)
    (h : Unspoiled sha256 destDir True w steps) :
    Along sha256 destDir (fun s w =>
      Delivers s.host sha256 s.artifact destDir cacheDir s.expected w) w steps :=
  deliver_of_unspoiled sha256 destDir ht (fun _ _ => Or.inl trivial) h

end Runs

section Samples

def otherSum : Str := "ca978112ca1bbdcafac231b39a23dc4da786eff8147c4e72b9807785afee48bb".toList

def tarArtifact (sum : Str) : Artifact where
  source := "https://host/x.tar.xz".toList
  sha256sum := some sum
  schema := "https".toList
  path := "/x.tar.xz".toList
  filename := "x.tar.xz".toList

/-- Two archives, each with one member. -/
def sampleUntar (b : Bytes) : Option (List (Str × Bytes)) :=
  if b = [] then some [("x".toList, [1])] else some [("x".toList, [2])]

def firstHost : Host :=
  { sampleHost with
    downloads := fun _ => { reply := .success (.number 0) [], fault := .none }
    untar := sampleUntar }

def secondHost (fault : WriteFault) : Host :=
  { sampleHost with
    untar := sampleUntar
    extractFault := fun _ => fault }

theorem tarArtifact_init (sum : Str) :
    Artifact.init (some "https://host/x.tar.xz".toList) (some sum) = .ok (tarArtifact sum) := by
  have hparse : urlparse "https://host/x.tar.xz".toList =
      .ok { scheme := "https".toList, netloc := "host".toList, path := "/x.tar.xz".toList } := by
    decide +kernel
  rw [Artifact.init, hparse]
  rfl

def firstStep : Step "/c".toList where
  host := firstHost
  artifact := tarArtifact sampleSum
  expected := some sampleSum
  wait := 0
  made := ⟨_, _, tarArtifact_init sampleSum⟩
  tarXz := by decide +kernel

def secondStep (fault : WriteFault) : Step "/c".toList where
  host := secondHost fault
  artifact := tarArtifact otherSum
  expected := some otherSum
  wait := 0
  made := ⟨_, _, tarArtifact_init otherSum⟩
  tarXz := by decide +kernel

/-- The first call, when the member cannot be written. -/
def abortedStep : Step "/c".toList :=
  { firstStep with host := { firstHost with extractFault := fun _ => .notOpened } }

theorem filename_tarArtifact (sum : Str) : (tarArtifact sum).filename = "x.tar.xz".toList := rfl

theorem extracted_tarArtifact (sum : Str) :
    extracted (tarArtifact sum) "/c".toList = "/c/x".toList := by
  have hcut : Artifact.cut (join "/c".toList "x.tar.xz".toList) = "/c/x".toList := by decide +kernel
  exact hcut

theorem dest_tarArtifact (sum : Str) : dest (tarArtifact sum) "/d".toList = "/d/x".toList := by
  have hcut : Artifact.cut (join "/d".toList "x.tar.xz".toList) = "/d/x".toList := by decide +kernel
  exact hcut

theorem archive_tarArtifact (sum : Str) :
    archive (tarArtifact sum) "/c".toList = "/c/x.tar.xz".toList := by
  have hjoin : join "/c".toList "x.tar.xz".toList = "/c/x.tar.xz".toList := by decide +kernel
  exact hjoin

theorem sample_orderly {host : Host} (hcwd : host.cwd = []) (huntar : host.untar = sampleUntar)
    (sum : Str) (e : Option Str) (b : Bytes) :
    Orderly host sampleSha256 (tarArtifact sum) "/d".toList "/c".toList e b := by
  have hplace : resolve [] (join "/c".toList "x".toList) = ["c".toList, "x".toList] := by
    decide +kernel
  have hplaces : resolve [] (extracted (tarArtifact sum) "/c".toList) =
      ["c".toList, "x".toList] ∧ resolve [] (dest (tarArtifact sum) "/d".toList) ≠
      ["c".toList, "x".toList] ∧ resolve [] (archive (tarArtifact sum) "/c".toList) ≠
      ["c".toList, "x".toList] := by
    rw [extracted_tarArtifact, dest_tarArtifact, archive_tarArtifact]
    decide +kernel
  have hlast (places : List Place) (content : Bytes) :
      lastAt host "/c".toList places [("x".toList, content)] =
        if ["c".toList, "x".toList] ∈ places then some content else none := by
    rw [lastAt_cons, hcwd, hplace]
    rfl
  intro members hmembers
  obtain ⟨content, rfl⟩ : ∃ content, members = [("x".toList, content)] := by
    rw [huntar, sampleUntar] at hmembers
    split at hmembers
    · exact ⟨_, (Option.some.inj hmembers).symm⟩
    · exact ⟨_, (Option.some.inj hmembers).symm⟩
  constructor
  · intro m hm
    rw [memberOf, hmembers, Option.bind_some, hlast, hcwd, hplaces.1, if_pos (by simp)] at hm
    rw [hlast, hcwd, hplaces.1, if_pos (by simp), hm]
  · intro b' hb'
    rw [hlast, hcwd, if_neg (by simpa using Ne.symm hplaces.2.2)] at hb'
    cases hb'

theorem sample_suited {s : Step "/c".toList} {sum : Str} (hartifact : s.artifact = tarArtifact sum)
    (hcwd : s.host.cwd = []) (huntar : s.host.untar = sampleUntar) (hdirs : s.host.dirs = sampleHost.dirs)
    (w : World) : Suited s.host sampleSha256 s.artifact "/d".toList "/c".toList s.expected w := by
  rw [hartifact]
  have hstem : (tarArtifact sum).filename ≠ "tar.xz".toList := by
    rw [filename_tarArtifact]
    decide +kernel
  have hplain : ∀ path ∈ ["/c/x".toList, "/d/x".toList], s.host.isdir path = false := by
    simp only [Host.isdir, hdirs, hcwd]
    decide +kernel
  refine ⟨hstem, ?_, ?_, fun _ _ _ b _ => sample_orderly hcwd huntar sum _ b⟩
  · rw [extracted_tarArtifact]
    exact hplain _ List.mem_cons_self
  · rw [dest_tarArtifact]
    exact hplain _ (by simp)

def abortedWorld : World := abortedStep.after sampleSha256 "/d".toList World.empty

def firstWorld : World := firstStep.after sampleSha256 "/d".toList abortedWorld

def secondWorld : World := (secondStep .none).after sampleSha256 "/d".toList firstWorld

theorem abortedWorld_fresh : Fresh firstHost sampleSha256 firstStep.artifact "/d".toList "/c".toList
    firstStep.expected abortedWorld := by
  intro b m _ _ _ hexists
  have hmissing : firstHost.exists_ abortedWorld (extracted firstStep.artifact "/c".toList) = false := by
    decide +kernel
  exact absurd (hmissing.symm.trans hexists) Bool.false_ne_true

theorem firstStep_completes : firstStep.Completes sampleSha256 "/d".toList abortedWorld := by
  refine ⟨⟨"/d/x".toList, by decide +kernel⟩, fun b hb => ?_⟩
  have hcached : firstWorld.content firstHost.env (archive firstStep.artifact "/c".toList) = some [] := by
    decide +kernel
  obtain rfl : [] = b := Option.some.inj (hcached.symm.trans hb)
  decide +kernel

theorem secondStep_completes : (secondStep .none).Completes sampleSha256 "/d".toList firstWorld := by
  refine ⟨⟨"/d/x".toList, by decide +kernel⟩, fun b hb => ?_⟩
  have hcached : secondWorld.content (secondHost .none).env
      (archive (secondStep .none).artifact "/c".toList) = some [0x61] := by
    decide +kernel
  obtain rfl : [0x61] = b := Option.some.inj (hcached.symm.trans hb)
  decide +kernel

/-- An aborted call, the same again, and two calls for another version: the files are fresh where
that is asked, at the start and behind the aborted call. -/
theorem runs_deliver_again :
    Along sampleSha256 "/d".toList (fun s w =>
      Delivers s.host sampleSha256 s.artifact "/d".toList "/c".toList s.expected w) World.empty
      [abortedStep, firstStep, secondStep .none, secondStep .none] := by
  have hname : (tarArtifact otherSum).filename = (tarArtifact sampleSum).filename :=
    (filename_tarArtifact otherSum).trans (filename_tarArtifact sampleSum).symm
  have hfirst : ∀ t ∈ [secondStep .none, secondStep .none].head?, firstStep.Alike t := by
    intro t ht
    obtain rfl := Option.mem_some_iff.mp ht
    exact ⟨rfl, rfl, hname⟩
  have hsecond : ∀ t ∈ [secondStep .none].head?, (secondStep .none).Alike t := by
    intro t ht
    obtain rfl := Option.mem_some_iff.mp ht
    exact ⟨rfl, rfl, rfl⟩
  have hlast : Unspoiled sampleSha256 "/d".toList
      (¬ ((secondStep .none).Completes sampleSha256 "/d".toList firstWorld ∧
        ∀ t ∈ [secondStep .none].head?, (secondStep .none).Alike t)) secondWorld [secondStep .none] :=
    ⟨sample_suited rfl rfl rfl rfl _, fun h => (h ⟨secondStep_completes, hsecond⟩).elim, trivial⟩
  have hother : Unspoiled sampleSha256 "/d".toList
      (¬ (firstStep.Completes sampleSha256 "/d".toList abortedWorld ∧
        ∀ t ∈ [secondStep .none, secondStep .none].head?, firstStep.Alike t)) firstWorld
      [secondStep .none, secondStep .none] :=
    ⟨sample_suited rfl rfl rfl rfl _, fun h => (h ⟨firstStep_completes, hfirst⟩).elim, hlast⟩
  have hstart : Fresh abortedStep.host sampleSha256 abortedStep.artifact "/d".toList "/c".toList
      abortedStep.expected World.empty := by
    intro b m hb
    have hnone : World.empty.content abortedStep.host.env
        (archive abortedStep.artifact "/c".toList) = none := rfl
    exact absurd (hnone.symm.trans hb) (Option.some_ne_none b).symm
  exact runs_deliver sampleSha256 "/d".toList _ timed_empty
    ⟨sample_suited rfl rfl rfl rfl _, fun _ => hstart,
      sample_suited rfl rfl rfl rfl _, fun _ => abortedWorld_fresh, hother⟩

/-- An extraction that was aborted is not made up for: the next call returns the old content. -/
theorem stale_after_abort :
    ¬ ∀ (sha256 : HashFunction 32) (destDir cacheDir : Str) (steps : List (Step cacheDir))
        (w : World), Timed w →
        (∀ s ∈ steps, ∀ w, Provides s.host s.artifact (archive s.artifact cacheDir) s.expected w) →
        Along sha256 destDir (fun s w =>
          Delivers s.host sha256 s.artifact destDir cacheDir s.expected w) w steps := by
  intro h
  have hfirst : urlparse sampleSum = .ok { scheme := [], netloc := [], path := sampleSum } := by
    decide +kernel
  have hother : urlparse otherSum = .ok { scheme := [], netloc := [], path := otherSum } := by
    decide +kernel
  have hprovides : ∀ s ∈ [firstStep, secondStep .notOpened, secondStep .none], ∀ w,
      Provides s.host s.artifact (archive s.artifact "/c".toList) s.expected w := by
    simp only [List.forall_mem_cons]
    exact ⟨fun _ => provides_plain rfl hfirst, fun _ => provides_plain rfl hother,
      fun _ => provides_plain rfl hother, fun _ h => absurd h List.not_mem_nil⟩
  obtain ⟨-, -, hthird, -⟩ := h sampleSha256 "/d".toList "/c".toList
    [firstStep, secondStep .notOpened, secondStep .none] World.empty timed_empty hprovides
  have hstale := hthird "/d/x".toList (by decide +kernel) [0x61] [2] (by decide +kernel)
    (by decide +kernel) (by decide +kernel)
  exact absurd hstale (by decide +kernel)

end Samples

end TdxTools.CloudStack.FreshDelivery
