import Mathlib.Logic.Function.Basic
import Mathlib.Logic.Relation
import TdxTools.Python.Text

namespace TdxTools.CloudStack.CmdRunner

open Python.ByteString Python.Text

inductive Stream
  | stdout
  | stderr
  deriving DecidableEq, Repr

/-- A program that writes lines to its two streams and then exits. -/
structure Child where
  writes : List (Stream × Str)
  retcode : Int

/-- The bytes of the child in the order in which it writes them. -/
def Child.bytes (child : Child) : List (Stream × UInt8) :=
  child.writes.flatMap fun line => (encodeUtf8 (line.2 ++ ['\n'])).map fun b => (line.1, b)

/-- The bytes of one stream. -/
def onStream (stream : Stream) (bytes : List (Stream × UInt8)) : Bytes :=
  (bytes.filter (·.1 = stream)).map Prod.snd

/-- How many bytes each pipe holds at most. -/
structure Pipes where
  capacity : Stream → Nat
  capacity_pos : ∀ stream, 0 < capacity stream

/-- Where `_execute` is: in one of the two inner loops, behind them, or at its end. -/
inductive Place
  | reading (stream : Stream)
  | polling
  | done
  deriving DecidableEq, Repr

/-- Where the runner goes when a stream has ended. -/
def Place.behind : Stream → Place
  | .stdout => .reading .stderr
  | .stderr => .polling

/-- The child with what it has still to write, the pipes, and the runner with
what it has taken from them. -/
structure State where
  rest : List (Stream × UInt8)
  exited : Bool := false
  pipe : Stream → Bytes := fun _ => []
  place : Place := .reading .stdout
  taken : Stream → Bytes := fun _ => []
  retcode : Option Int := none

section Runs

variable (pipes : Pipes) (child : Child)

/-- A step of the child or of the runner. A write of the child goes on as far as
the pipe has room; a loop over a stream ends when the stream is empty and the
child, which holds its other end, has exited. -/
inductive Step : State → State → Prop
  | write {s : State} {stream : Stream} {b : UInt8} {rest : List (Stream × UInt8)}
      (hrest : s.rest = (stream, b) :: rest)
      (hroom : (s.pipe stream).length < pipes.capacity stream) :
      Step s { s with rest := rest, pipe := Function.update s.pipe stream (s.pipe stream ++ [b]) }
  | exit {s : State} (hrest : s.rest = []) (halive : s.exited = false) :
      Step s { s with exited := true }
  | read {s : State} {stream : Stream} {n : Nat} (hplace : s.place = .reading stream)
      (hpos : 0 < n) (hle : n ≤ (s.pipe stream).length) :
      Step s { s with
        pipe := Function.update s.pipe stream ((s.pipe stream).drop n)
        taken := Function.update s.taken stream (s.taken stream ++ (s.pipe stream).take n) }
  | eof {s : State} {stream : Stream} (hplace : s.place = .reading stream)
      (hempty : s.pipe stream = []) (hexited : s.exited = true) :
      Step s { s with place := .behind stream }
  | poll {s : State} (hplace : s.place = .polling) :
      Step s { s with
        place := if s.exited then .done else .reading .stdout
        retcode := if s.exited then some child.retcode else none }

def start : State := { rest := child.bytes }

def Reachable : State → Prop := Relation.ReflTransGen (Step pipes child) (start child)

/-- Until the child has exited and the runner has its output, one of them can go on. -/
def NoDeadlock : Prop :=
  ∀ s, Reachable pipes child s → s.exited = false ∨ s.place ≠ .done → ∃ s', Step pipes child s s'

end Runs

section Streams

@[simp] theorem onStream_nil (stream : Stream) : onStream stream [] = [] := rfl

theorem onStream_same (stream : Stream) (b : UInt8) (rest : List (Stream × UInt8)) :
    onStream stream ((stream, b) :: rest) = b :: onStream stream rest := by
  simp [onStream]

theorem onStream_other {stream other : Stream} (h : other ≠ stream) (b : UInt8)
    (rest : List (Stream × UInt8)) :
    onStream stream ((other, b) :: rest) = onStream stream rest := by
  simp [onStream, h]

end Streams

section Invariant

variable {pipes : Pipes} {child : Child} {s s' : State}

variable (child s) in
/-- What holds in every state that is reached. -/
structure Consistent : Prop where
  whole : ∀ stream, s.taken stream ++ s.pipe stream ++ onStream stream s.rest =
    onStream stream child.bytes
  ended : s.exited = true → s.rest = []
  waiting : s.exited = false → s.place = .reading .stdout
  stdout_drained : s.place ≠ .reading .stdout → s.pipe .stdout = []
  stderr_drained : s.place = .polling ∨ s.place = .done → s.pipe .stderr = []
  collected : s.place = .done → s.retcode = some child.retcode

theorem consistent_start : Consistent child (start child) where
  whole := fun _ => rfl
  ended := fun h => absurd h Bool.false_ne_true
  waiting := fun _ => rfl
  stdout_drained := fun h => absurd rfl h
  stderr_drained := fun _ => rfl
  collected := fun h => by cases h

theorem Consistent.step (h : Consistent child s) (hstep : Step pipes child s s') :
    Consistent child s' := by
  cases hstep with
  | @write stream b rest hrest hroom =>
    have halive : s.exited = false := by
      by_contra hexited
      rw [h.ended (by simpa using hexited)] at hrest
      cases hrest
    have hplace := h.waiting halive
    refine ⟨fun t => ?_, fun hexited => ?_, h.waiting, fun hne => absurd hplace hne, fun hbehind => ?_,
      h.collected⟩
    · have hwhole := h.whole t
      rw [hrest] at hwhole
      by_cases ht : stream = t
      · subst ht
        rw [onStream_same] at hwhole
        simpa using hwhole
      · rw [onStream_other ht] at hwhole
        simpa [Function.update_of_ne (Ne.symm ht)] using hwhole
    · rw [halive] at hexited
      cases hexited
    · rw [hplace] at hbehind
      rcases hbehind with hbehind | hbehind <;> cases hbehind
  | exit hrest halive =>
    refine ⟨h.whole, fun _ => hrest, fun hfalse => absurd hfalse (by simp), h.stdout_drained,
      h.stderr_drained, h.collected⟩
  | @read stream n hplace hpos hle =>
    refine ⟨fun t => ?_, h.ended, h.waiting, fun hne => ?_, fun hbehind => ?_, h.collected⟩
    · have hwhole := h.whole t
      by_cases ht : stream = t
      · subst ht
        simpa using hwhole
      · simpa [Function.update_of_ne (Ne.symm ht)] using hwhole
    · have hempty := h.stdout_drained hne
      cases stream with
      | stdout => exact absurd hplace hne
      | stderr => simpa using hempty
    · rw [hplace] at hbehind
      rcases hbehind with hbehind | hbehind <;> cases hbehind
  | @eof stream hplace hempty hexited =>
    refine ⟨h.whole, h.ended, fun hfalse => ?_, fun _ => ?_, fun hbehind => ?_, fun hdone => ?_⟩
    · rw [hexited] at hfalse
      cases hfalse
    · cases stream with
      | stdout => exact hempty
      | stderr => exact h.stdout_drained (by simp [hplace])
    · cases stream with
      | stdout => rcases hbehind with hbehind | hbehind <;> cases hbehind
      | stderr => exact hempty
    · cases stream <;> cases hdone
  | poll hplace =>
    have hexited : s.exited = true := by
      by_contra halive
      have hreading := h.waiting (by simpa using halive)
      rw [hplace] at hreading
      cases hreading
    refine ⟨h.whole, h.ended, fun hfalse => ?_, fun _ => h.stdout_drained (by simp [hplace]),
      fun _ => h.stderr_drained (Or.inl hplace), fun _ => if_pos hexited⟩
    rw [hexited] at hfalse
    cases hfalse

theorem Reachable.consistent (h : Reachable pipes child s) : Consistent child s := by
  induction h with
  | refl => exact consistent_start
  | tail _ hstep ih => exact ih.step hstep

theorem Reachable.done (h : Reachable pipes child s) (hdone : s.place = .done) :
    (∀ stream, s.taken stream = onStream stream child.bytes) ∧
      s.retcode = some child.retcode := by
  have hc := h.consistent
  have hexited : s.exited = true := by
    by_contra halive
    have hreading := hc.waiting (by simpa using halive)
    rw [hdone] at hreading
    cases hreading
  refine ⟨fun stream => ?_, hc.collected hdone⟩
  have hwhole := hc.whole stream
  have hempty : s.pipe stream = [] := by
    cases stream with
    | stdout => exact hc.stdout_drained (by simp [hdone])
    | stderr => exact hc.stderr_drained (Or.inr hdone)
  rw [hempty, hc.ended hexited, onStream_nil, List.append_nil, List.append_nil] at hwhole
  exact hwhole

theorem step_of_exited (hexited : s.exited = true) (hplace : s.place ≠ .done) :
    ∃ s', Step pipes child s s' := by
  cases hp : s.place with
  | reading stream =>
    by_cases hempty : s.pipe stream = []
    · exact ⟨_, .eof hp hempty hexited⟩
    · exact ⟨_, .read hp (n := 1) Nat.one_pos (List.length_pos_iff.mpr hempty)⟩
  | polling => exact ⟨_, .poll hp⟩
  | done => exact absurd hp hplace

/-- While the child runs, it can write, or the runner can take what it wrote, if
the pipe of the errors has room for all of them. -/
theorem step_of_running (h : Consistent child s) (halive : s.exited = false)
    (hfits : (onStream .stderr child.bytes).length ≤ pipes.capacity .stderr) :
    ∃ s', Step pipes child s s' := by
  cases hrest : s.rest with
  | nil => exact ⟨_, .exit hrest halive⟩
  | cons item rest =>
    obtain ⟨stream, b⟩ := item
    cases stream with
    | stdout =>
      by_cases hroom : (s.pipe .stdout).length < pipes.capacity .stdout
      · exact ⟨_, .write hrest hroom⟩
      · have hpos := pipes.capacity_pos .stdout
        exact ⟨_, .read (h.waiting halive) (n := 1) Nat.one_pos (by omega)⟩
    | stderr =>
      have hwhole := congrArg List.length (h.whole .stderr)
      rw [hrest, onStream_same, List.length_append, List.length_append, List.length_cons] at hwhole
      exact ⟨_, .write hrest (by omega)⟩

end Invariant

section Blocked

variable {pipes : Pipes} {child : Child}

/-- The runner waits for the output while the child waits to write an error. -/
structure Blocked (pipes : Pipes) (s : State) : Prop where
  alive : s.exited = false
  reading : s.place = .reading .stdout
  empty : s.pipe .stdout = []
  full : pipes.capacity .stderr ≤ (s.pipe .stderr).length
  next : ∃ b rest, s.rest = (.stderr, b) :: rest

theorem Blocked.stuck {s : State} (h : Blocked pipes s) : ¬ ∃ s', Step pipes child s s' := by
  obtain ⟨b, rest, hnext⟩ := h.next
  rintro ⟨s', hstep⟩
  cases hstep with
  | write hrest hroom =>
    rw [hnext, List.cons.injEq, Prod.mk.injEq] at hrest
    obtain ⟨⟨rfl, -⟩, -⟩ := hrest
    have hfull := h.full
    omega
  | exit hrest halive =>
    rw [hnext] at hrest
    cases hrest
  | read hplace hpos hle =>
    rw [h.reading, Place.reading.injEq] at hplace
    subst hplace
    rw [h.empty, List.length_nil] at hle
    omega
  | eof hplace hempty hexited =>
    rw [h.alive] at hexited
    cases hexited
  | poll hplace =>
    rw [h.reading] at hplace
    cases hplace

theorem reaches_blocked {s : State} (h : Reachable pipes child s) (halive : s.exited = false)
    (hplace : s.place = .reading .stdout) (hempty : s.pipe .stdout = [])
    (hover : pipes.capacity .stderr < (s.pipe .stderr).length + (onStream .stderr s.rest).length)
    (hfits : (s.pipe .stderr).length ≤ pipes.capacity .stderr) :
    ∃ s', Reachable pipes child s' ∧ Blocked pipes s' := by
  induction hrest : s.rest generalizing s with
  | nil =>
    rw [hrest, onStream_nil, List.length_nil] at hover
    omega
  | cons item rest ih =>
    obtain ⟨stream, b⟩ := item
    cases stream with
    | stdout =>
      have hroom : (s.pipe .stdout).length < pipes.capacity .stdout := by
        rw [hempty]
        exact pipes.capacity_pos .stdout
      have hwritten := h.tail (.write hrest hroom)
      have hread := hwritten.tail (.read (n := 1) hplace Nat.one_pos (by simp))
      rw [hrest, onStream_other (by decide)] at hover
      exact ih hread halive hplace (by simp [hempty]) (by simpa using hover) (by simpa using hfits) rfl
    | stderr =>
      by_cases hroom : (s.pipe .stderr).length < pipes.capacity .stderr
      · have hwritten := h.tail (.write hrest hroom)
        rw [hrest, onStream_same, List.length_cons] at hover
        apply ih hwritten halive hplace (by simpa using hempty) _ (by simpa using Nat.succ_le_of_lt hroom) rfl
        simp only [Function.update_self, List.length_append, List.length_singleton]
        omega
      · exact ⟨s, h, halive, hplace, hempty, by omega, b, rest, hrest⟩

end Blocked

/-- The runner and the child do not block each other just if the pipe of the
errors has room for all of them. -/
theorem no_deadlock_iff (pipes : Pipes) (child : Child) :
    NoDeadlock pipes child ↔
      (onStream .stderr child.bytes).length ≤ pipes.capacity .stderr := by
  constructor
  · intro h
    by_contra hover
    have hstart : Reachable pipes child (start child) := .refl
    obtain ⟨s, hs, hblocked⟩ := reaches_blocked hstart rfl rfl rfl (by simpa [start] using hover)
      (Nat.zero_le _)
    exact hblocked.stuck (h s hs (Or.inl hblocked.alive))
  · intro hfits s hs hopen
    by_cases hexited : s.exited = true
    · exact step_of_exited hexited (hopen.resolve_left (by simp [hexited]))
    · exact step_of_running hs.consistent (by simpa using hexited) hfits

/-- A child that writes one line of so many characters as an error. -/
def loudChild (n : Nat) : Child where
  writes := [(.stderr, List.replicate n 'e')]
  retcode := 0

theorem loudChild_errors (n : Nat) : (onStream .stderr (loudChild n).bytes).length = n + 1 := by
  have hascii : Ascii (List.replicate n 'e' ++ ['\n']) := by
    intro c hc
    rcases List.mem_append.mp hc with hc | hc
    · rw [List.eq_of_mem_replicate hc]
      decide
    · rw [List.mem_singleton.mp hc]
      decide
  have hbytes : (loudChild n).bytes =
      (encodeUtf8 (List.replicate n 'e' ++ ['\n'])).map fun b => (Stream.stderr, b) :=
    List.append_nil _
  rw [hbytes, encodeUtf8_ascii _ hascii, onStream]
  simp

theorem loudChild_blocks {pipes : Pipes} {n : Nat} (h : pipes.capacity .stderr ≤ n) :
    ∃ s, Reachable pipes (loudChild n) s ∧ Blocked pipes s := by
  have hstart : Reachable pipes (loudChild n) (start (loudChild n)) := .refl
  apply reaches_blocked hstart rfl rfl rfl _ (Nat.zero_le _)
  rw [start, loudChild_errors, List.length_nil]
  omega

/-- Pipes of the size that Linux gives them. -/
def linuxPipes : Pipes where
  capacity := fun _ => 65536
  capacity_pos := fun _ => by decide

/-- With one line that does not fit the pipe, both wait for each other. -/
theorem loudChild_deadlocks :
    (∃ s, Reachable linuxPipes (loudChild 65536) s ∧ s.exited = false ∧
      ¬ ∃ s', Step linuxPipes (loudChild 65536) s s') ∧
    ¬ NoDeadlock linuxPipes (loudChild 65536) := by
  obtain ⟨s, hs, hblocked⟩ := loudChild_blocks (Nat.le_refl (linuxPipes.capacity .stderr))
  refine ⟨⟨s, hs, hblocked.alive, hblocked.stuck⟩, fun h => ?_⟩
  exact hblocked.stuck (h s hs (Or.inl hblocked.alive))

end TdxTools.CloudStack.CmdRunner
