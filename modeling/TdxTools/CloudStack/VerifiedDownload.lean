import TdxTools.CloudStack.Artifacts

namespace TdxTools.CloudStack.VerifiedDownload

open Python.ByteString Python.Text Python.Path Python.Exec Python.Files Python.Url
open Download Artifacts

theorem receive_ne_running (fileSize : Int) (chunks : List Bytes) (content : Bytes) :
    (receive fileSize chunks content).1 ≠ .running := by
  induction chunks generalizing content with
  | nil => simp [receive]
  | cons chunk chunks ih =>
    rw [receive]
    split
    · simp
    · exact ih _

theorem stream_ne_running (contentLength : ContentLength) (chunks : List Bytes) :
    (stream contentLength chunks).1 ≠ .running := by
  cases contentLength with
  | missing => exact receive_ne_running _ _ _
  | notANumber => simp [stream]
  | number fileSize =>
    rw [stream]
    split
    · simp
    · exact receive_ne_running _ _ _

theorem outcome_ne_running (a : Attempt) : a.outcome ≠ .running := by
  obtain ⟨reply, fault⟩ := a
  cases reply with
  | failed e => simp [Attempt.outcome]
  | success contentLength chunks =>
    have hs := stream_ne_running contentLength chunks
    cases fault with
    | none => exact hs
    | notOpened => simp [Attempt.outcome]
    | cutAfter n =>
      have hcut : (Attempt.mk (.success contentLength chunks) (.cutAfter n)).outcome =
          if n < (stream contentLength chunks).2.length then .ok ()
          else (stream contentLength chunks).1 := rfl
      rw [hcut]
      split
      · simp
      · exact hs

theorem outcome_cases (a : Attempt) : a.outcome = .ok () ∨ ∃ ex, a.outcome = .raised ex := by
  cases h : a.outcome with
  | ok u => exact Or.inl rfl
  | raised ex => exact Or.inr ⟨ex, rfl⟩
  | running => exact absurd h (outcome_ne_running a)

theorem received_of_not_opened {host : Host} {p : Str} {k : Nat} {b : Bytes}
    (h : (host.attempt p k).received = some b) : Names p := by
  unfold Host.attempt at h
  split at h
  · next ho => exact ho.1
  · cases hr : (host.downloads k).reply with
    | failed ex => simp [Attempt.received, hr] at h
    | success contentLength chunks => simp [Attempt.received, hr] at h

theorem sha256sumProperty_keeps (host : Host) (self : Artifact) (c : Client) :
    (self.sha256sumProperty host c).2.world = c.world ∧
      (self.sha256sumProperty host c).2.downloads = c.downloads := by
  unfold Artifact.sha256sumProperty
  cases self.sha256sum with
  | none => exact ⟨rfl, rfl⟩
  | some s =>
    dsimp only
    cases urlparse s with
    | running => exact ⟨rfl, rfl⟩
    | raised ex => exact ⟨rfl, rfl⟩
    | ok result =>
      rw [Py.lift_ok_bind_apply]
      split
      · rw [Py.get_bind_apply]
        rw [Py.modify_bind_apply]
        cases (host.checksums c.checksums).outcome <;> exact ⟨rfl, rfl⟩
      · split
        · exact ⟨rfl, rfl⟩
        · exact ⟨rfl, rfl⟩

section Stages

variable (host : Host) (sha256 : HashFunction 32) (self : Artifact) (cacheFile : Str)
  (cached : Option Bytes) (e : Option Str)

/-- The cache file when so many downloads have ended. It is missing before
each of them. -/
def stage : Nat → Option Bytes
  | 0 => cached
  | k + 1 => (host.attempt cacheFile k).received

def Matches (b : Bytes) : Prop := some (sha256.hexdigest b) = e

instance (b : Bytes) : Decidable (Matches sha256 e b) := inferInstanceAs (Decidable (_ = _))

/-- The loop does not get past this stage: the file is not readable or
matches, or the next download raises. -/
def Settled (k : Nat) : Prop :=
  (∃ b, stage host cacheFile cached k = some b ∧ (host.readFails k = true ∨ Matches sha256 e b)) ∨
    ∃ ex, (host.attempt cacheFile k).outcome = .raised ex

variable (w : World)

structure AtStage (k : Nat) (c : Client) : Prop where
  downloads : c.downloads = k
  content : c.world.content host.env cacheFile = stage host cacheFile cached k
  frame : Frame host.env cacheFile w c.world

/-- Whenever the expected checksum is asked for, while only the cache file
changes, it is `e`. -/
def Provides : Prop :=
  ∀ c : Client, Frame host.env cacheFile w c.world → (self.sha256sumProperty host c).1 = .ok e

/-- A state in which the cache file has been checked. -/
def Checked (c : Client) : Prop :=
  ∃ k b, stage host cacheFile cached k = some b ∧ Matches sha256 e b ∧
    c.world.content host.env cacheFile = some b ∧ Frame host.env cacheFile w c.world

end Stages

theorem provides_plain {host : Host} {self : Artifact} {cacheFile : Str} {w : World} {sum : Str}
    (hsum : self.sha256sum = some sum)
    (hparse : urlparse sum = .ok { scheme := [], netloc := [], path := sum }) :
    Provides host self cacheFile (some sum) w := by
  intro c _
  rw [Artifact.sha256sumProperty, hsum]
  dsimp only
  rw [hparse]
  rfl

section Loop

variable {host : Host} {sha256 : HashFunction 32} {self : Artifact} {cacheFile : Str}
  {cached : Option Bytes} {e : Option Str} {w : World}

theorem validate_at_stage (hdir : host.isdir cacheFile = false)
    (hprov : Provides host self cacheFile e w) {k : Nat} {c : Client} {b : Bytes}
    (hs : AtStage host cacheFile cached w k c) (hb : stage host cacheFile cached k = some b) :
    ∃ c', c'.world = c.world ∧ c'.downloads = c.downloads ∧
      self.validateSha256sum host sha256 cacheFile c =
        if host.readFails k = true then (.raised .osError, c)
        else (.ok (decide (Matches sha256 e b)), c') := by
  obtain ⟨hw, hd⟩ := sha256sumProperty_keeps host self c
  refine ⟨(self.sha256sumProperty host c).2, hw, hd, ?_⟩
  have hask : self.sha256sumProperty host c = (.ok e, (self.sha256sumProperty host c).2) :=
    Prod.ext (hprov c hs.frame) rfl
  have hcontent : c.world.content host.env cacheFile = some b := hs.content.trans hb
  rw [Artifact.validateSha256sum, Py.get_bind_apply, hdir, hs.downloads]
  by_cases hr : host.readFails k = true
  · rw [if_pos hr, if_pos (Or.inr hr)]
    rfl
  · have hne : ¬ (false = true ∨ host.readFails k = true) := by simp [hr]
    rw [if_neg hr, if_neg hne, hcontent, Outcome.ofOption_some, Py.lift_ok_bind_apply, Py.bind_ok hask]
    rfl

variable (cached) in
theorem fetch_at_stage {k : Nat} {c : Client} (hdown : c.downloads = k)
    (hnone : c.world.content host.env cacheFile = none)
    (hframe : Frame host.env cacheFile w c.world) :
    ∃ c', AtStage host cacheFile cached w (k + 1) c' ∧
      Artifact.fetch host cacheFile c = ((host.attempt cacheFile k).outcome, c') := by
  subst hdown
  let a := host.attempt cacheFile c.downloads
  let w' : World := (DownloadExecutor.run host.env a cacheFile c.world).2
  refine ⟨{ c with world := w', downloads := c.downloads + 1 }, ⟨rfl, ?_, ?_⟩, rfl⟩
  · cases hr : a.received with
    | none =>
      have hw : w' = c.world := by simp only [w', DownloadExecutor.run, hr]
      rw [stage, hw, hnone, ← hr]
    | some b =>
      have hw : w' = c.world.put (resolve host.env.cwd cacheFile) b := by
        simp only [w', DownloadExecutor.run, hr]
      rw [stage, hw, World.content_put_self _ _ _ (received_of_not_opened hr), ← hr]
  · refine hframe.trans ?_
    intro at_ hat
    cases hr : a.received with
    | none => simp only [w', DownloadExecutor.run, hr]
    | some b => simp [w', DownloadExecutor.run, hr, World.put, hat]

variable (sha256 self cached) in
theorem fetch_then {k : Nat} {c : Client} (n : Nat) (hdown : c.downloads = k)
    (hnone : c.world.content host.env cacheFile = none)
    (hframe : Frame host.env cacheFile w c.world) :
    ((host.attempt cacheFile k).outcome = .ok () → ∃ c',
      AtStage host cacheFile cached w (k + 1) c' ∧
      (Artifact.fetch host cacheFile >>= fun _ => self.retry host sha256 cacheFile n true) c =
        self.retry host sha256 cacheFile n true c') ∧
    (∀ ex, (host.attempt cacheFile k).outcome = .raised ex → ∃ c',
      (Artifact.fetch host cacheFile >>= fun _ => self.retry host sha256 cacheFile n true) c =
        (.raised ex, c')) := by
  obtain ⟨c', hs, hfetch⟩ := fetch_at_stage cached hdown hnone hframe
  constructor
  · intro hok
    rw [hok] at hfetch
    exact ⟨c', hs, Py.bind_ok hfetch⟩
  · intro ex hraised
    rw [hraised] at hfetch
    exact ⟨c', Py.bind_raised hfetch⟩

theorem exists_at_stage (hdir : host.isdir cacheFile = false) {k : Nat} {c : Client}
    (hs : AtStage host cacheFile cached w k c) :
    host.exists_ c.world cacheFile = (stage host cacheFile cached k).isSome := by
  rw [Host.exists_, hdir, Bool.or_false, World.isfile, ← hs.content, World.content, Option.isSome_map]

variable (hdir : host.isdir cacheFile = false) (hprov : Provides host self cacheFile e w)
include hdir hprov

/-- A turn that finds a file which does not match goes on like one that finds
none. -/
theorem retry_goes_on {k : Nat} {c : Client} (n : Nat) (new : Bool)
    (hs : AtStage host cacheFile cached w k c)
    (hbad : ¬ ∃ b, stage host cacheFile cached k = some b ∧
      (host.readFails k = true ∨ Matches sha256 e b)) :
    ∃ c', c'.downloads = k ∧ c'.world.content host.env cacheFile = none ∧
      Frame host.env cacheFile w c'.world ∧
      self.retry host sha256 cacheFile (n + 1) new c =
        (Artifact.fetch host cacheFile >>= fun _ => self.retry host sha256 cacheFile n true) c' := by
  have hexists := exists_at_stage hdir hs
  cases hb : stage host cacheFile cached k with
  | none =>
    rw [hb] at hexists
    refine ⟨c, hs.downloads, hs.content.trans hb, hs.frame, ?_⟩
    rw [Artifact.retry, Py.get_bind_apply, hexists, if_neg (by simp)]
  | some b =>
    rw [hb] at hexists
    have hread : host.readFails k = false := Bool.eq_false_iff.mpr fun hr => hbad ⟨b, hb, Or.inl hr⟩
    have hmatch : ¬ Matches sha256 e b := fun hm => hbad ⟨b, hb, Or.inr hm⟩
    obtain ⟨c₁, hw, hd, hvalid⟩ := validate_at_stage hdir hprov hs hb
    rw [if_neg (by simp [hread]), decide_eq_false hmatch] at hvalid
    have hfile : c₁.world.isfile host.env cacheFile = true := by
      rw [hw, World.isfile, ← Option.isSome_map, ← World.content, hs.content, hb]
      rfl
    let c' : Client := { c₁ with
      world := { c₁.world with files := Function.update c₁.world.files (resolve host.env.cwd cacheFile) none } }
    have hremove : onWorld (removeFile host.env cacheFile) c₁ = (.ok (), c') := by
      rw [onWorld, Py.within_apply, removeFile, if_pos hfile]
    refine ⟨c', hd.trans hs.downloads, ?_, ?_, ?_⟩
    · simp [World.content, World.file, c']
    · refine hs.frame.trans ?_
      intro at_ hat
      rw [← hw]
      exact Function.update_of_ne hat _ _
    · rw [Artifact.retry, Py.get_bind_apply, hexists, if_pos (by simp), Py.bind_ok hvalid,
        if_neg (by simp), Py.bind_ok hremove]

theorem retry_step {k : Nat} {c : Client} (n : Nat) (new : Bool)
    (hs : AtStage host cacheFile cached w k c)
    (hu : ¬ Settled host sha256 cacheFile cached e k) :
    ∃ c', AtStage host cacheFile cached w (k + 1) c' ∧
      self.retry host sha256 cacheFile (n + 1) new c =
        self.retry host sha256 cacheFile n true c' := by
  have hok : (host.attempt cacheFile k).outcome = .ok () :=
    (outcome_cases _).resolve_right (fun hr => hu (Or.inr hr))
  obtain ⟨c₁, hd, hnone, hf, hgo⟩ := retry_goes_on hdir hprov n new hs fun h => hu (Or.inl h)
  obtain ⟨c', hs', hrun⟩ := (fetch_then sha256 self cached n hd hnone hf).1 hok
  exact ⟨c', hs', hgo.trans hrun⟩

/-- A stage that settles the loop ends it: with an exception, or with a file
that was checked. -/
theorem retry_settled {k : Nat} {c : Client} (n : Nat) (new : Bool)
    (hs : AtStage host cacheFile cached w k c)
    (h : Settled host sha256 cacheFile cached e k) :
    (∃ ex c', self.retry host sha256 cacheFile (n + 1) new c = (.raised ex, c')) ∨
      ∃ c', self.retry host sha256 cacheFile (n + 1) new c = (.ok new, c') ∧
        Checked host sha256 cacheFile cached e w c' := by
  have hexists := exists_at_stage hdir hs
  by_cases hfound : ∃ b, stage host cacheFile cached k = some b ∧
      (host.readFails k = true ∨ Matches sha256 e b)
  · obtain ⟨b, hb, hcase⟩ := hfound
    rw [hb] at hexists
    obtain ⟨c', hw, -, hvalid⟩ := validate_at_stage hdir hprov hs hb
    by_cases hr : host.readFails k = true
    · rw [if_pos hr] at hvalid
      refine Or.inl ⟨.osError, c, ?_⟩
      rw [Artifact.retry, Py.get_bind_apply, hexists, if_pos (by simp), Py.bind_raised hvalid]
    · have hm : Matches sha256 e b := hcase.resolve_left hr
      rw [if_neg hr, decide_eq_true hm] at hvalid
      refine Or.inr ⟨c', ?_, k, b, hb, hm, ?_, ?_⟩
      · rw [Artifact.retry, Py.get_bind_apply, hexists, if_pos (by simp), Py.bind_ok hvalid,
          if_pos rfl]
        rfl
      · rw [hw, hs.content, hb]
      · rw [hw]
        exact hs.frame
  · obtain ⟨ex, hex⟩ := h.resolve_left hfound
    obtain ⟨c₁, hd, hnone, hf, hgo⟩ := retry_goes_on hdir hprov n new hs hfound
    obtain ⟨c', hrun⟩ := (fetch_then sha256 self cached n hd hnone hf).2 ex hex
    exact Or.inl ⟨ex, c', hgo.trans hrun⟩

theorem retry_run {k : Nat} {c : Client} (n : Nat) (new : Bool)
    (hs : AtStage host cacheFile cached w k c) :
    ((∃ j, k ≤ j ∧ j < k + n ∧ Settled host sha256 cacheFile cached e j) →
      (∃ ex c', self.retry host sha256 cacheFile n new c = (.raised ex, c')) ∨
      ∃ new' c', self.retry host sha256 cacheFile n new c = (.ok new', c') ∧
        Checked host sha256 cacheFile cached e w c') ∧
    ((∀ j, k ≤ j → j < k + n → ¬ Settled host sha256 cacheFile cached e j) →
      ∃ new' c', self.retry host sha256 cacheFile n new c = (.ok new', c') ∧
        AtStage host cacheFile cached w (k + n) c') := by
  induction n generalizing k c new with
  | zero =>
    constructor
    · rintro ⟨j, hkj, hjk, -⟩
      omega
    · exact fun _ => ⟨new, c, rfl, hs⟩
  | succ n ih =>
    have hassoc : k + (n + 1) = k + 1 + n := by omega
    by_cases hk : Settled host sha256 cacheFile cached e k
    · constructor
      · intro _
        rcases retry_settled hdir hprov n new hs hk with hraised | ⟨c', hrun, hc⟩
        · exact Or.inl hraised
        · exact Or.inr ⟨new, c', hrun, hc⟩
      · exact fun hall => absurd hk (hall k (Nat.le_refl k) (by omega))
    · obtain ⟨c', hs', hstep⟩ := retry_step hdir hprov n new hs hk
      rw [hstep, hassoc]
      obtain ⟨hsome, hnone⟩ := ih true hs'
      constructor
      · rintro ⟨j, hkj, hjk, hj⟩
        have hne : j ≠ k := fun he => hk (he ▸ hj)
        exact hsome ⟨j, by omega, hjk, hj⟩
      · intro hall
        exact hnone (fun j hkj hjk => hall j (by omega) hjk)

end Loop

section Delivery

variable {host : Host} {cacheFile destFile : Str}

/-- Nothing keeps the cache file from being delivered: it is the destination,
or the copy succeeds. -/
def Copies (host : Host) (cacheFile destFile : Str) : Prop :=
  resolve host.cwd cacheFile = resolve host.cwd destFile ∨
    (host.copyReadFails = false ∧ host.copyFault = .none)

variable {c : Client} (hnames : Names cacheFile ↔ Names destFile)
include hnames

theorem file_of_same (hsame : resolve host.cwd cacheFile = resolve host.cwd destFile) :
    c.world.file host.env destFile = c.world.file host.env cacheFile := by
  have hcwd : host.env.cwd = host.cwd := rfl
  unfold World.file
  rw [hcwd, hsame]
  exact if_congr hnames.symm rfl rfl

variable (hdir : host.isdir cacheFile = false) (hdest : host.isdir destFile = false)
  (hnew : resolve host.cwd cacheFile = resolve host.cwd destFile ∨
    c.world.file host.env destFile = none)
include hdir hdest

omit hnames in
theorem copyIfNewer_missing (hmissing : c.world.file host.env destFile = none) :
    Artifact.copyIfNewer host cacheFile destFile c =
      (onWorld (copyfile host.env cacheFile destFile) >>= fun _ => pure destFile) c := by
  have hexists : host.exists_ c.world destFile = false := by
    rw [Host.exists_, hdest, World.isfile, hmissing]
    rfl
  rw [Artifact.copyIfNewer, Py.get_bind_apply, hexists, if_pos (by simp), Py.pure_bind_apply]
  beta_reduce
  rw [if_pos rfl, if_neg (by simp [hdir, hdest])]

include hnew

theorem copy_delivers {b : Bytes} (hb : c.world.content host.env cacheFile = some b)
    (hcopy : Copies host cacheFile destFile) :
    ∃ c', Artifact.copyIfNewer host cacheFile destFile c = (.ok destFile, c') ∧
      c'.world.content host.env destFile = some b := by
  by_cases hsame : resolve host.cwd cacheFile = resolve host.cwd destFile
  · have hfile := file_of_same (c := c) hnames hsame
    obtain ⟨f, hf, hfb⟩ := Option.map_eq_some_iff.mp hb
    rw [hf] at hfile
    have hexists : host.exists_ c.world destFile = true := by
      rw [Host.exists_, World.isfile, hfile]
      rfl
    have htime : host.getctime c.world cacheFile = .ok f.ctime := by
      rw [Host.getctime, hf]
      rfl
    have htime' : host.getctime c.world destFile = .ok f.ctime := by
      rw [Host.getctime, hfile]
      rfl
    refine ⟨c, ?_, by rw [World.content, hfile, ← hfb]; rfl⟩
    rw [Artifact.copyIfNewer, Py.get_bind_apply, hexists, if_neg (by simp), htime, htime']
    simp [Bind.bind, Py.bind, Pure.pure, Py.pure, Py.lift]
  · have hmissing := hnew.resolve_left hsame
    obtain ⟨hread, hfault⟩ := hcopy.resolve_left hsame
    have hdst : Names destFile := hnames.mp (World.names_of_content hb)
    have hrun : onWorld (copyfile host.env cacheFile destFile) c =
        (.ok (), { c with world := c.world.tick.put (resolve host.env.cwd destFile) b }) :=
      Py.within_ok (copyfile_ok hsame hdst hb hread hfault)
    refine ⟨{ c with world := c.world.tick.put (resolve host.env.cwd destFile) b }, ?_,
      World.content_put_self _ _ _ hdst b⟩
    rw [copyIfNewer_missing hdir hdest hmissing, Py.bind_ok hrun]
    rfl

theorem copy_raises (h : c.world.content host.env cacheFile = none ∨
    ¬ Copies host cacheFile destFile) :
    ∃ ex c', Artifact.copyIfNewer host cacheFile destFile c = (.raised ex, c') := by
  have hmissing : c.world.file host.env destFile = none := by
    rcases hnew with hsame | hmissing
    · rw [file_of_same hnames hsame]
      rcases h with hnone | hno
      · exact Option.map_eq_none_iff.mp hnone
      · exact absurd (Or.inl hsame) hno
    · exact hmissing
  have hfail : c.world.content host.env cacheFile = none ∨ host.copyReadFails = true ∨
      host.copyFault ≠ .none := by
    rcases h with hnone | hno
    · exact Or.inl hnone
    · right
      by_cases hr : host.copyReadFails = true
      · exact Or.inl hr
      · exact Or.inr (fun hf => hno (Or.inr ⟨Bool.eq_false_iff.mpr hr, hf⟩))
  obtain ⟨ex, w', hrun⟩ := copyfile_raised host.env cacheFile destFile c.world hfail
  rw [copyIfNewer_missing hdir hdest hmissing]
  refine ⟨ex, { c with world := w' }, Py.bind_raised ?_⟩
  rw [onWorld, Py.within_apply, hrun]

end Delivery

section Calls

variable (host : Host) (sha256 : HashFunction 32) (self : Artifact) (destDir cacheDir : Str)
  (e : Option Str) (w : World)

/-- A call on the files of `w`. -/
def call : Outcome Str × Client :=
  self.download host sha256 destDir cacheDir { world := w, downloads := 0, checksums := 0 }

/-- The content of the cache file after so many downloads. -/
def served (k : Nat) : Option Bytes :=
  stage host (join cacheDir self.filename) (w.content host.env (join cacheDir self.filename)) k

/-- Only verified content is used: a returned path names a file that matches,
and where nothing matches no path is returned. -/
def OnlyVerified : Prop :=
  (∀ path, (call host sha256 self destDir cacheDir w).1 = .ok path →
    ∃ b, (call host sha256 self destDir cacheDir w).2.world.content host.env path = some b ∧
      Matches sha256 e b) ∧
  ((∀ k b, served host self cacheDir w k = some b → ¬ Matches sha256 e b) →
    ∀ path, (call host sha256 self destDir cacheDir w).1 ≠ .ok path)

/-- The loop is left before its turns are used up, or the last download does
no harm: it matches, or nothing of it is delivered. -/
def EndsChecked : Prop :=
  host.exists_ w destDir = false ∨ host.exists_ w cacheDir = false ∨
  host.isdir (join cacheDir self.filename) = true ∨
  (∃ k < 5, Settled host sha256 (join cacheDir self.filename)
    (w.content host.env (join cacheDir self.filename)) e k) ∨
  ¬ Copies host (join cacheDir self.filename) (join destDir self.filename) ∨
  ∀ b, served host self cacheDir w 5 = some b → Matches sha256 e b

end Calls

section Ends

variable {host : Host} {sha256 : HashFunction 32} {self : Artifact} {destDir cacheDir : Str}
  {e : Option Str} {w : World}

theorem slash_not_mem_filename {source sha256sum : Option Str}
    (h : Artifact.init source sha256sum = .ok self) : '/' ∉ self.filename := by
  cases source with
  | none => cases h
  | some source =>
    obtain ⟨result, -, hr⟩ := Outcome.bind_eq_ok.mp h
    cases hr
    exact slash_not_mem_basename _

theorem call_missing (h : host.exists_ w destDir = false ∨ host.exists_ w cacheDir = false) :
    ∃ ex, (call host sha256 self destDir cacheDir w).1 = .raised ex := by
  rw [call, Artifact.download, Py.get_bind_apply]
  by_cases hd : host.exists_ w destDir = false
  · rw [if_pos (by simp [hd])]
    exact ⟨_, rfl⟩
  · rw [if_neg (by simp [hd]), if_pos (by simp [h.resolve_left hd])]
    exact ⟨_, rfl⟩

variable (hd : host.exists_ w destDir = true) (hc : host.exists_ w cacheDir = true)
include hd hc

theorem call_eq (htar : ¬ Artifact.IsTarXz (join cacheDir self.filename)) :
    call host sha256 self destDir cacheDir w =
      (self.retry host sha256 (join cacheDir self.filename) 5 false >>= fun _ =>
        Artifact.copyIfNewer host (join cacheDir self.filename) (join destDir self.filename))
        { world := w, downloads := 0, checksums := 0 } := by
  rw [call, Artifact.download, Py.get_bind_apply, if_neg (by simp [hd]), if_neg (by simp [hc])]
  simp only [if_neg htar]

theorem call_isdir (htar : ¬ Artifact.IsTarXz (join cacheDir self.filename))
    (hdir : host.isdir (join cacheDir self.filename) = true) :
    ∃ ex, (call host sha256 self destDir cacheDir w).1 = .raised ex := by
  let c : Client := { world := w, downloads := 0, checksums := 0 }
  have hvalid : self.validateSha256sum host sha256 (join cacheDir self.filename) c =
      (.raised .osError, c) := by
    rw [Artifact.validateSha256sum, Py.get_bind_apply, if_pos (Or.inl hdir)]
    rfl
  have hretry : self.retry host sha256 (join cacheDir self.filename) 5 false c =
      (.raised .osError, c) := by
    rw [Artifact.retry, Py.get_bind_apply, if_pos (by simp [Host.exists_, hdir]),
      Py.bind_raised hvalid]
  rw [call_eq hd hc htar, Py.bind_raised hretry]
  exact ⟨_, rfl⟩

end Ends

section Result

variable {host : Host} {sha256 : HashFunction 32} {self : Artifact} {destDir cacheDir : Str}
  {e : Option Str} {w : World} (hslash : '/' ∉ self.filename)
  (htar : ¬ Artifact.IsTarXz (join cacheDir self.filename))
  (hnew : host.exists_ w (join destDir self.filename) = false)
  (hprov : Provides host self (join cacheDir self.filename) e w)
include hslash hnew

/-- What is returned after the loop: the content of the cache file, when the
copy succeeds. -/
theorem delivery {c : Client} (hdir : host.isdir (join cacheDir self.filename) = false)
    (hframe : Frame host.env (join cacheDir self.filename) w c.world) :
    (∀ b, c.world.content host.env (join cacheDir self.filename) = some b →
      Copies host (join cacheDir self.filename) (join destDir self.filename) →
      ∃ c', Artifact.copyIfNewer host (join cacheDir self.filename) (join destDir self.filename) c =
        (.ok (join destDir self.filename), c') ∧
        c'.world.content host.env (join destDir self.filename) = some b) ∧
    (c.world.content host.env (join cacheDir self.filename) = none ∨
      ¬ Copies host (join cacheDir self.filename) (join destDir self.filename) →
      ∃ ex c', Artifact.copyIfNewer host (join cacheDir self.filename)
        (join destDir self.filename) c = (.raised ex, c')) := by
  have hnames : Names (join cacheDir self.filename) ↔ Names (join destDir self.filename) := by
    unfold Names
    rw [basename_join _ _ hslash, basename_join _ _ hslash]
  obtain ⟨hfile, hdest⟩ := Bool.or_eq_false_iff.mp hnew
  have hplace : resolve host.cwd (join cacheDir self.filename) =
      resolve host.cwd (join destDir self.filename) ∨
      c.world.file host.env (join destDir self.filename) = none := by
    by_cases hsame : resolve host.cwd (join cacheDir self.filename) =
        resolve host.cwd (join destDir self.filename)
    · exact Or.inl hsame
    · right
      have hw : w.file host.env (join destDir self.filename) = none := by
        simpa [World.isfile] using hfile
      have hat : c.world.files (resolve host.env.cwd (join destDir self.filename)) =
          w.files (resolve host.env.cwd (join destDir self.filename)) := hframe _ (Ne.symm hsame)
      rw [World.file, hat, ← World.file, hw]
  exact ⟨fun b hb hcopy => copy_delivers hnames hdir hdest hplace hb hcopy,
    copy_raises hnames hdir hdest hplace⟩

theorem delivery_checked {c c₁ : Client} {new : Bool}
    (hdir : host.isdir (join cacheDir self.filename) = false)
    (hrun : self.retry host sha256 (join cacheDir self.filename) 5 false c = (.ok new, c₁))
    (hframe : Frame host.env (join cacheDir self.filename) w c₁.world)
    (hgood : ¬ Copies host (join cacheDir self.filename) (join destDir self.filename) ∨
      ∀ b, c₁.world.content host.env (join cacheDir self.filename) = some b → Matches sha256 e b) :
    (∃ ex, ((self.retry host sha256 (join cacheDir self.filename) 5 false >>= fun _ =>
      Artifact.copyIfNewer host (join cacheDir self.filename) (join destDir self.filename)) c).1 =
        .raised ex) ∨
    ∃ c' b, (self.retry host sha256 (join cacheDir self.filename) 5 false >>= fun _ =>
      Artifact.copyIfNewer host (join cacheDir self.filename) (join destDir self.filename)) c =
        (.ok (join destDir self.filename), c') ∧
      c'.world.content host.env (join destDir self.filename) = some b ∧ Matches sha256 e b ∧
      c₁.world.content host.env (join cacheDir self.filename) = some b := by
  obtain ⟨hcopied, hraised⟩ := delivery hslash hnew hdir hframe
  rw [Py.bind_ok hrun]
  by_cases hcopy : Copies host (join cacheDir self.filename) (join destDir self.filename)
  · cases hb : c₁.world.content host.env (join cacheDir self.filename) with
    | none =>
      obtain ⟨ex, c', hr⟩ := hraised (Or.inl hb)
      exact Or.inl ⟨ex, by rw [hr]⟩
    | some b =>
      obtain ⟨c', hr, hdest⟩ := hcopied b hb hcopy
      exact Or.inr ⟨c', b, hr, hdest, hgood.resolve_left (not_not.mpr hcopy) b hb, rfl⟩
  · obtain ⟨ex, c', hr⟩ := hraised (Or.inr hcopy)
    exact Or.inl ⟨ex, by rw [hr]⟩

include htar hprov

theorem call_of_endsChecked (h : EndsChecked host sha256 self destDir cacheDir e w) :
    (∃ ex, (call host sha256 self destDir cacheDir w).1 = .raised ex) ∨
    ∃ c' k b, call host sha256 self destDir cacheDir w = (.ok (join destDir self.filename), c') ∧
      c'.world.content host.env (join destDir self.filename) = some b ∧ Matches sha256 e b ∧
      served host self cacheDir w k = some b := by
  rcases Bool.eq_false_or_eq_true (host.exists_ w destDir) with hd | hd
  swap
  · exact Or.inl (call_missing (Or.inl hd))
  rcases Bool.eq_false_or_eq_true (host.exists_ w cacheDir) with hc | hc
  swap
  · exact Or.inl (call_missing (Or.inr hc))
  rcases Bool.eq_false_or_eq_true (host.isdir (join cacheDir self.filename)) with hdir | hdir
  · exact Or.inl (call_isdir hd hc htar hdir)
  let c : Client := { world := w, downloads := 0, checksums := 0 }
  have hs : AtStage host (join cacheDir self.filename)
      (w.content host.env (join cacheDir self.filename)) w 0 c := ⟨rfl, rfl, Frame.refl _ _ _⟩
  obtain ⟨hsettled, hopen⟩ := retry_run hdir hprov 5 false hs
  rw [call_eq hd hc htar]
  by_cases hset : ∃ k < 5, Settled host sha256 (join cacheDir self.filename)
      (w.content host.env (join cacheDir self.filename)) e k
  · obtain ⟨k, hk, hk'⟩ := hset
    rcases hsettled ⟨k, Nat.zero_le k, by omega, hk'⟩ with ⟨ex, c', hr⟩ | ⟨new, c₁, hr, hchecked⟩
    · exact Or.inl ⟨ex, by rw [Py.bind_raised hr]⟩
    · obtain ⟨j, b, hj, hm, hb, hframe⟩ := hchecked
      have hgood : ∀ b', c₁.world.content host.env (join cacheDir self.filename) = some b' →
          Matches sha256 e b' := by
        intro b' hb'
        rw [hb, Option.some.injEq] at hb'
        exact hb' ▸ hm
      rcases delivery_checked hslash hnew hdir hr hframe (Or.inr hgood) with hraised | hok
      · exact Or.inl hraised
      · obtain ⟨c', b', hrun, hdest, hm', hb'⟩ := hok
        rw [hb, Option.some.injEq] at hb'
        exact Or.inr ⟨c', j, b', hrun, hdest, hm', hb' ▸ hj⟩
  · obtain ⟨new, c₁, hr, hlast⟩ := hopen (fun k _ hk hk' => hset ⟨k, by omega, hk'⟩)
    have hgood : ¬ Copies host (join cacheDir self.filename) (join destDir self.filename) ∨
        ∀ b, c₁.world.content host.env (join cacheDir self.filename) = some b →
          Matches sha256 e b := by
      rcases h with h | h | h | h | h | h
      · exact absurd (h.symm.trans hd) (by simp)
      · exact absurd (h.symm.trans hc) (by simp)
      · exact absurd (h.symm.trans hdir) (by simp)
      · exact absurd h hset
      · exact Or.inl h
      · exact Or.inr (fun b hb => h b (hlast.content.symm.trans hb))
    rcases delivery_checked hslash hnew hdir hr hlast.frame hgood with hraised | hok
    · exact Or.inl hraised
    · obtain ⟨c', b, hrun, hdest, hm, hb⟩ := hok
      exact Or.inr ⟨c', 5, b, hrun, hdest, hm, hlast.content.symm.trans hb⟩

theorem call_of_unchecked (h : ¬ EndsChecked host sha256 self destDir cacheDir e w) :
    ∃ c' b, call host sha256 self destDir cacheDir w = (.ok (join destDir self.filename), c') ∧
      c'.world.content host.env (join destDir self.filename) = some b ∧ ¬ Matches sha256 e b := by
  unfold EndsChecked at h
  push Not at h
  obtain ⟨hd, hc, hdir, hset, hcopy, b, hb, hm⟩ := h
  have hdir : host.isdir (join cacheDir self.filename) = false := by simpa using hdir
  let c : Client := { world := w, downloads := 0, checksums := 0 }
  have hs : AtStage host (join cacheDir self.filename)
      (w.content host.env (join cacheDir self.filename)) w 0 c := ⟨rfl, rfl, Frame.refl _ _ _⟩
  obtain ⟨new, c₁, hr, hlast⟩ :=
    (retry_run hdir hprov 5 false hs).2 (fun k _ hk => hset k (by omega))
  obtain ⟨c', hrun, hdest⟩ := (delivery hslash hnew hdir hlast.frame).1 b
    (hlast.content.trans hb) hcopy
  refine ⟨c', b, ?_, hdest, hm⟩
  rw [call_eq (by simpa using hd) (by simpa using hc) htar, Py.bind_ok hr, hrun]

end Result

/-- Unverified content is used exactly when the fifth download does not match
and no earlier turn ended the loop. -/
theorem download_verified_iff (host : Host) (sha256 : HashFunction 32) {self : Artifact}
    (destDir cacheDir : Str) (e : Option Str) (w : World) {source sha256sum : Option Str}
    (hself : Artifact.init source sha256sum = .ok self)
    (htar : ¬ Artifact.IsTarXz (join cacheDir self.filename))
    (hnew : host.exists_ w (join destDir self.filename) = false)
    (hprov : Provides host self (join cacheDir self.filename) e w) :
    OnlyVerified host sha256 self destDir cacheDir e w ↔
      EndsChecked host sha256 self destDir cacheDir e w := by
  have hslash := slash_not_mem_filename hself
  constructor
  · intro h
    by_contra hno
    obtain ⟨c', b, hcall, hdest, hm⟩ := call_of_unchecked hslash htar hnew hprov hno
    obtain ⟨b', hb', hm'⟩ := h.1 _ (by rw [hcall])
    rw [hcall, hdest, Option.some.injEq] at hb'
    exact hm (hb' ▸ hm')
  · intro h
    rcases call_of_endsChecked hslash htar hnew hprov h with hraised | hok
    · obtain ⟨ex, hex⟩ := hraised
      have hno : ∀ path, (call host sha256 self destDir cacheDir w).1 ≠ .ok path := by
        intro path hpath
        rw [hex] at hpath
        cases hpath
      exact ⟨fun path hpath => absurd hpath (hno path), fun _ => hno⟩
    · obtain ⟨c', k, b, hcall, hdest, hm, hk⟩ := hok
      constructor
      · intro path hpath
        rw [hcall] at hpath
        cases hpath
        exact ⟨b, by rw [hcall]; exact hdest, hm⟩
      · exact fun hnever => absurd hm (hnever k b hk)

/-- A server that always answers with the one byte `a`. -/
def sampleHost : Host where
  cwd := []
  dirs p := if p = ["c".toList] ∨ p = ["d".toList] then some 0 else none
  downloads _ := { reply := .success (.number 1) [[0x61]], fault := .none }
  checksums _ := { reply := .success (.number 1) [[0x61]], fault := .none }
  readFails _ := false
  copyReadFails := false
  copyFault := .none
  untar _ := none

/-- SHA-256 on nothing and on the byte `a`. -/
def sampleSha256 : HashFunction 32 where
  digest b :=
    if b = [] then beBytes 32 0xe3b0c44298fc1c149afbf4c8996fb92427ae41e4649b934ca495991b7852b855
    else beBytes 32 0xca978112ca1bbdcafac231b39a23dc4da786eff8147c4e72b9807785afee48bb
  length_digest b := by split <;> exact length_beBytes 32 _

def sampleSum : Str := "e3b0c44298fc1c149afbf4c8996fb92427ae41e4649b934ca495991b7852b855".toList

def sampleArtifact : Artifact where
  source := "https://host/f".toList
  sha256sum := some sampleSum
  schema := "https".toList
  path := "/f".toList
  filename := "f".toList

theorem sampleArtifact_init :
    Artifact.init (some "https://host/f".toList) (some sampleSum) = .ok sampleArtifact := by
  decide +kernel

theorem sample_provides (cacheFile : Str) (w : World) :
    Provides sampleHost sampleArtifact cacheFile (some sampleSum) w :=
  provides_plain rfl (by decide +kernel)

theorem download_verified_iff_sample :
    OnlyVerified sampleHost sampleSha256 sampleArtifact "/d".toList "/c".toList (some sampleSum)
        World.empty ↔
      EndsChecked sampleHost sampleSha256 sampleArtifact "/d".toList "/c".toList (some sampleSum)
        World.empty :=
  download_verified_iff sampleHost sampleSha256 "/d".toList "/c".toList (some sampleSum) World.empty
    sampleArtifact_init (by decide +kernel) (by decide +kernel) (sample_provides _ _)

/-- The fifth download is delivered although no content ever matched. -/
theorem fifth_download_unverified :
    (call sampleHost sampleSha256 sampleArtifact "/d".toList "/c".toList World.empty).1 =
      .ok "/d/f".toList ∧
    (call sampleHost sampleSha256 sampleArtifact "/d".toList "/c".toList
      World.empty).2.world.content sampleHost.env "/d/f".toList = some [0x61] ∧
    ¬ Matches sampleSha256 (some sampleSum) [0x61] := by
  decide +kernel

end TdxTools.CloudStack.VerifiedDownload
