import TdxTools.Attestation.Rtmr

namespace TdxTools.Attestation.ExtendIma

open Python.ByteString Python.Text Python.Exec Python.Struct Actor Rtmr

def SHA384 : Str := ['s', 'h', 'a', '3', '8', '4']

section Extending

variable (file : TdxAttestFile) (sha384 : HashFunction 48)

/-- The loop over the measurements. The outcome of an extend is only logged. -/
def extendContents (rtmrIndex : Int) : List Str → Py Calls Unit
  | [] => pure ()
  | content :: contents =>
    if ¬ SHA384 <:+: content then extendContents rtmrIndex contents
    else do
      let digest ← .lift (.ofOption .indexError (content.splitOn ':')[1]?)
      let _ ← extendRtmr file sha384 (some []) (some []) (some (ofStr digest)) rtmrIndex
      extendContents rtmrIndex contents

def extendMeasurementsToRtmr (contents : List Str) (rtmrIndex : Int) : Py Calls Unit :=
  if contents = [] then pure ()
  else if rtmrIndex < 2 then pure ()
  else extendContents file sha384 rtmrIndex contents

end Extending

/-- The digest field of an IMA measurement: a tag and a digest. -/
structure ImaDigest where
  tag : Str
  digest : Str
  tag_colon : ':' ∉ tag
  digest_colon : ':' ∉ digest
  sha384_digest : tag = SHA384 → digest.length = 96 ∧ ∀ c ∈ digest, (hexVal c).isSome

namespace ImaDigest

def text (m : ImaDigest) : Str := m.tag ++ ':' :: m.digest

def Mentions (m : ImaDigest) : Prop := SHA384 <:+: m.text

instance (m : ImaDigest) : Decidable m.Mentions := inferInstanceAs (Decidable (_ <:+: _))

def value (m : ImaDigest) : Bytes := (fromhex m.digest).getD []

theorem fromhex_digest {m : ImaDigest} (h : m.tag = SHA384) : fromhex m.digest = some m.value := by
  obtain ⟨hlen, hhex⟩ := m.sha384_digest h
  obtain ⟨b, hb, -⟩ := fromhex_digits 48 m.digest hlen hhex
  rw [value, hb, Option.getD_some]

theorem mentions_of_tag {m : ImaDigest} (h : m.tag = SHA384) : m.Mentions :=
  ⟨[], ':' :: m.digest, by rw [text, h, List.nil_append]⟩

theorem splitOn_text (m : ImaDigest) : m.text.splitOn ':' = [m.tag, m.digest] := by
  have hcolon : ∀ s : Str, ':' ∉ s → ∀ c ∈ s, (c == ':') = false := by
    intro s hs c hc
    exact beq_false_of_ne (fun he => hs (he ▸ hc))
  rw [List.splitOn_eq_splitOnP, text,
    List.splitOnP_append_cons_of_forall_mem (hcolon _ m.tag_colon) ':' (by simp),
    List.splitOnP_eq_singleton (hcolon _ m.digest_colon)]

end ImaDigest

/-- The digests tagged sha384, in order. -/
def tagged (ms : List ImaDigest) : List Bytes :=
  (ms.filter (fun m => m.tag = SHA384)).map ImaDigest.value

/-- The values of the extend requests among some calls. -/
def extensions (calls : Calls) : List Bytes :=
  calls.filterMap fun
    | .ioctl _ req => some (req.take 48)
    | _ => none

/-- The calls of one extend with a value. -/
def extendCalls (value : Bytes) (index : Nat) : Calls :=
  [.opened, .ioctl TDX_CMD_EXTEND_RTMR (value ++ leBytes 1 index), .closed]

def mentionCount (ms : List ImaDigest) : Nat := (ms.filter (fun m => m.Mentions)).length

theorem extensions_flatMap {value : Bytes} (hlen : value.length = 48) (index : Nat)
    (ms : List ImaDigest) :
    extensions (ms.flatMap (fun _ => extendCalls value index)) = List.replicate ms.length value := by
  induction ms with
  | nil => rfl
  | cons m ms ih =>
    have hcut : (value ++ leBytes 1 index).take 48 = value := List.take_left' hlen
    have hone : extensions (extendCalls value index) = [value] := by
      simp [extensions, extendCalls, hcut]
    rw [List.flatMap_cons, extensions, List.filterMap_append, ← extensions, ← extensions, ih, hone]
    rfl

section Runs

variable {file : TdxAttestFile} (hf : file.Works) (sha384 : HashFunction 48) {index : Nat}
  (hi : index < 256)
include hf hi

theorem extendRtmr_str (raw digest : Option PyStr) (s : Str) (calls : Calls) :
    extendRtmr file sha384 raw (some (ofStr s)) digest index calls =
      (.ok (some .EXTEND_SUCCESS),
        calls ++ extendCalls (sha384.digest (encodeUtf8 s)) index) := by
  have hlen := sha384.length_digest (encodeUtf8 s)
  have hpack : pack [.raw 48, .uint 1] (sha384.digest (encodeUtf8 s), index, ()) =
      some (sha384.digest (encodeUtf8 s) ++ leBytes 1 index) := by
    simp [pack, Fmt.encode, hlen, hi, List.take_of_length_le]
  have hindex : (index : Int).toNat? = some index := rfl
  rw [extendRtmr, Py.get_bind_apply, if_neg (by simp [hf calls]), if_neg (by simp [hf calls])]
  rw [call, Py.modify_bind_apply, encode_ofStr, Outcome.ofOption_some, Py.lift_ok_bind_apply, extend, hindex,
    Outcome.ofOption_some, Py.lift_ok_bind_apply, hpack, Outcome.ofOption_some,
    Py.lift_ok_bind_apply, call, Py.modify_bind_apply, Py.get_bind_apply, if_pos (hf _).2.2, call,
    Py.modify_bind_apply]
  simp [extendCalls]

/-- Whatever the measurements are, the digest of the empty text is extended
once for each of them that mentions sha384. -/
theorem extendContents_run (ms : List ImaDigest) (calls : Calls) :
    extendContents file sha384 index (ms.map ImaDigest.text) calls =
      (.ok (), calls ++ (ms.filter (fun m => m.Mentions)).flatMap
        (fun _ => extendCalls (sha384.digest []) index)) := by
  induction ms generalizing calls with
  | nil => simp [extendContents]
  | cons m ms ih =>
    rw [List.map_cons, extendContents]
    by_cases hm : m.Mentions
    · have hsplit : (m.text.splitOn ':')[1]? = some m.digest := by rw [m.splitOn_text]; rfl
      have hinfix : SHA384 <:+: m.text := hm
      have hextend : extendRtmr file sha384 (some []) (some []) (some (ofStr m.digest)) index calls =
          (.ok (some .EXTEND_SUCCESS), calls ++ extendCalls (sha384.digest []) index) :=
        extendRtmr_str hf sha384 hi _ _ [] calls
      rw [if_neg (not_not.mpr hinfix), hsplit, Outcome.ofOption_some, Py.lift_ok_bind_apply,
        Py.bind_ok hextend, ih]
      simp [hm]
    · have hinfix : ¬ SHA384 <:+: m.text := hm
      rw [if_pos hinfix, ih]
      simp [hm]

theorem extendMeasurements_run (h2 : 2 ≤ index) (ms : List ImaDigest) (hne : ms ≠ []) :
    ∃ calls, extendMeasurementsToRtmr file sha384 (ms.map ImaDigest.text) index [] = (.ok (), calls) ∧
      extensions calls = List.replicate (mentionCount ms) (sha384.digest []) := by
  have hmap : ms.map ImaDigest.text ≠ [] := by simpa using hne
  have hge : ¬ (index : Int) < 2 := by omega
  have hrun := extendContents_run hf sha384 hi ms []
  refine ⟨_, ?_, extensions_flatMap (sha384.length_digest []) index (ms.filter (fun m => m.Mentions))⟩
  rw [extendMeasurementsToRtmr, if_neg hmap, if_neg hge, hrun, List.nil_append]

end Runs

/-- The digest of the empty text repeated is the right sequence only for
measurements whose digest it is. -/
theorem replicate_eq_tagged (e : Bytes) (ms : List ImaDigest) :
    List.replicate (mentionCount ms) e = tagged ms ↔
      ∀ m ∈ ms, m.Mentions → m.tag = SHA384 ∧ fromhex m.digest = some e := by
  induction ms with
  | nil => simp [tagged, mentionCount]
  | cons m ms ih =>
    by_cases hm : m.Mentions
    · by_cases ht : m.tag = SHA384
      · have hcons : tagged (m :: ms) = m.value :: tagged ms := by simp [tagged, ht]
        have hvalue : e = m.value ↔ fromhex m.digest = some e := by
          rw [ImaDigest.fromhex_digest ht, Option.some.injEq, eq_comm]
        rw [mentionCount, List.filter_cons_of_pos (by simpa using hm), List.length_cons,
          ← mentionCount, List.replicate_succ, hcons, List.cons.injEq, ih, hvalue]
        simp [hm, ht]
      · -- More values are extended than there are tagged digests.
        have hcons : tagged (m :: ms) = tagged ms := by simp [tagged, ht]
        have hle : (tagged ms).length ≤ mentionCount ms := by
          rw [tagged, List.length_map]
          exact (List.monotone_filter_right ms
            (fun m hm => decide_eq_true (ImaDigest.mentions_of_tag (of_decide_eq_true hm)))).length_le
        rw [mentionCount, List.filter_cons_of_pos (by simpa using hm), List.length_cons,
          ← mentionCount, hcons]
        constructor
        · intro heq
          have hlen := congrArg List.length heq
          rw [List.length_replicate] at hlen
          omega
        · exact fun hall => absurd (hall m (by simp) hm).1 ht
    · have ht : ¬ m.tag = SHA384 := fun ht => hm (ImaDigest.mentions_of_tag ht)
      have hcons : tagged (m :: ms) = tagged ms := by simp [tagged, ht]
      rw [mentionCount, List.filter_cons_of_neg (by simpa using hm), ← mentionCount, hcons, ih]
      simp [hm]

/-- The measurements themselves are extended only where they are all the
digest of the empty text; two lists are told apart only by their lengths. -/
theorem ima_extends_iff {file : TdxAttestFile} (hf : file.Works) (sha384 : HashFunction 48)
    {index : Nat} (h2 : 2 ≤ index) (hi : index < 256) (ms ms' : List ImaDigest) (hne : ms ≠ [])
    (hne' : ms' ≠ []) :
    ∃ calls calls',
      extendMeasurementsToRtmr file sha384 (ms.map ImaDigest.text) index [] = (.ok (), calls) ∧
      extendMeasurementsToRtmr file sha384 (ms'.map ImaDigest.text) index [] = (.ok (), calls') ∧
      (extensions calls = tagged ms ↔
        ∀ m ∈ ms, m.Mentions → m.tag = SHA384 ∧ fromhex m.digest = some (sha384.digest [])) ∧
      ((tagged ms ≠ tagged ms' → extensions calls ≠ extensions calls') ↔
        tagged ms = tagged ms' ∨ mentionCount ms ≠ mentionCount ms') := by
  obtain ⟨calls, hrun, hext⟩ := extendMeasurements_run hf sha384 hi h2 ms hne
  obtain ⟨calls', hrun', hext'⟩ := extendMeasurements_run hf sha384 hi h2 ms' hne'
  refine ⟨calls, calls', hrun, hrun', ?_, ?_⟩
  · rw [hext]
    exact replicate_eq_tagged (sha384.digest []) ms
  · have hsame : extensions calls = extensions calls' ↔ mentionCount ms = mentionCount ms' := by
      rw [hext, hext']
      exact ⟨fun h => by simpa using congrArg List.length h, fun h => by rw [h]⟩
    rw [Ne, Ne, hsame, ← not_imp_not, not_not, not_not, imp_iff_not_or]
    exact or_comm

/-- A device file on which every call succeeds. -/
def workingFile : TdxAttestFile :=
  { isThere := fun _ => true, opens := fun _ => true, ioctlSucceeds := fun _ => true }

/-- SHA-384 on the empty text. -/
def emptySha384 : HashFunction 48 where
  digest _ := beBytes 48 0x38b060a751ac96384cd9327eb1b1e36a21fdb71114be07434c0cc7bf63f6e1da274edebfe76f65fbd51ad2f14898b95b
  length_digest _ := length_beBytes 48 _

def sampleDigest (d : Nat) (hd : d < 16) : ImaDigest where
  tag := SHA384
  digest := List.replicate 96 (hexDigit d)
  tag_colon := by decide
  digest_colon h := by
    have hc := List.eq_of_mem_replicate h
    revert d
    decide
  sha384_digest _ := ⟨List.length_replicate, fun c hc => by
    rw [List.eq_of_mem_replicate hc, hexVal_hexDigit d hd]
    rfl⟩

theorem ima_extends_iff_sample :
    ∃ calls calls',
      extendMeasurementsToRtmr workingFile emptySha384
        ([sampleDigest 0 (by decide)].map ImaDigest.text) 3 [] = (.ok (), calls) ∧
      extendMeasurementsToRtmr workingFile emptySha384
        ([sampleDigest 1 (by decide)].map ImaDigest.text) 3 [] = (.ok (), calls') ∧
      (extensions calls = tagged [sampleDigest 0 (by decide)] ↔
        ∀ m ∈ [sampleDigest 0 (by decide)], m.Mentions →
          m.tag = SHA384 ∧ fromhex m.digest = some (emptySha384.digest [])) ∧
      ((tagged [sampleDigest 0 (by decide)] ≠ tagged [sampleDigest 1 (by decide)] →
          extensions calls ≠ extensions calls') ↔
        tagged [sampleDigest 0 (by decide)] = tagged [sampleDigest 1 (by decide)] ∨
          mentionCount [sampleDigest 0 (by decide)] ≠ mentionCount [sampleDigest 1 (by decide)]) :=
  ima_extends_iff (fun _ => ⟨rfl, rfl, rfl⟩) emptySha384 (show 2 ≤ 3 by decide)
    (by decide) _ _ (by simp) (by simp)

/-- Two measurements with different digests are extended as the same value,
which is neither of them. -/
theorem ima_extends_forget :
    ∃ calls calls',
      extendMeasurementsToRtmr workingFile emptySha384
        ([sampleDigest 0 (by decide)].map ImaDigest.text) 3 [] = (.ok (), calls) ∧
      extendMeasurementsToRtmr workingFile emptySha384
        ([sampleDigest 1 (by decide)].map ImaDigest.text) 3 [] = (.ok (), calls') ∧
      tagged [sampleDigest 0 (by decide)] ≠ tagged [sampleDigest 1 (by decide)] ∧
      extensions calls ≠ tagged [sampleDigest 0 (by decide)] ∧
      extensions calls = extensions calls' := by
  refine ⟨_, _, rfl, rfl, ?_⟩
  decide +kernel

end TdxTools.Attestation.ExtendIma
