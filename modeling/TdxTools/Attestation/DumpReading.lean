import TdxTools.Attestation.LogDump

namespace TdxTools.Attestation.DumpReading

open Python.ByteString Python.Text Python.Exec Python.Dictionary Python.Decimal Python.Format Blob
open EventLog Actor EventLogDecoding LogScan LogRecords NoAction HexDump LogDump

section Reading

/-- A line that begins a section. -/
def isHeading (line : Str) : Bool := line.take 5 = "==== ".toList

/-- The headings of a dump with the lines below each of them. -/
def sections : Log → List (Str × Log)
  | [] => []
  | line :: lines =>
    if isHeading line then (line, lines.takeWhile (fun l => ¬ isHeading l)) :: sections lines
    else sections lines

/-- The lines between the two marks. -/
def rawText (text : Log) : Log :=
  ((text.dropWhile (· ≠ RAW_DATA)).drop 1).takeWhile (· ≠ RAW_DATA)

/-- The address in the brackets of a heading. -/
def headingAddress (title : Str) : Option Nat :=
  hexNat (((title.dropWhile (· ≠ '[')).drop 3).takeWhile (· ≠ ']'))

/-- What a section tells: the address in its heading, the address of its raw
data, and these data. -/
@[ext] structure Told where
  heading : Option Nat
  address : Option Nat
  data : Option Bytes
  deriving DecidableEq

def readSection (title : Str) (text : Log) : Told :=
  { heading := headingAddress title
    address := (rawText text).head?.bind (fun line => hexNat (addressColumn line))
    data := fromhex ((rawText text).flatMap hexColumn) }

def readDump (lines : Log) : List Told := (sections lines).map fun s => readSection s.1 s.2

end Reading

section Lines

/-- Neither a heading nor a mark. -/
def Plain (line : Str) : Prop := isHeading line = false ∧ line ≠ RAW_DATA

theorem plain_of_take {line : Str} (h : line.take 5 ≠ "==== ".toList)
    (hraw : line.take 5 ≠ "RAW D".toList) : Plain line := by
  refine ⟨decide_eq_false h, ?_⟩
  rintro rfl
  exact hraw rfl

/-- A line is plain by the text it begins with. -/
theorem plain_of_start (start rest : Str) (h : 5 ≤ start.length ∧ start.take 5 ≠ "==== ".toList ∧
    start.take 5 ≠ "RAW D".toList) : Plain (start ++ rest) := by
  obtain ⟨hlen, hheading, hraw⟩ := h
  have htake : (start ++ rest).take 5 = start.take 5 := List.take_append_of_le_length hlen
  exact plain_of_take (htake ▸ hheading) (htake ▸ hraw)

theorem formatX_cons (w n : Nat) : ∃ c s, formatX w n = c :: s ∧ (hexVal c).isSome := by
  cases hdigits : formatX w n with
  | nil =>
    have hlen := congrArg List.length hdigits
    rw [formatX] at hlen
    obtain ⟨k, hk⟩ : ∃ k, max w (Nat.log 16 n + 1) = k + 1 :=
      Nat.exists_eq_succ_of_ne_zero (by omega)
    rw [hk, upperDigits, List.length_append, List.length_singleton] at hlen
    cases hlen
  | cons c s =>
    exact ⟨c, s, rfl, hexVal_of_mem_formatX c (by rw [hdigits]; exact List.mem_cons_self)⟩

theorem plain_line (blob : BinaryBlob) (i : Nat) : Plain (line blob i) := by
  obtain ⟨c, s, hdigits, hc⟩ := formatX_cons 8 (blob.baseAddress + 16 * i)
  have hline : ∃ rest, line blob i = c :: rest := by
    rw [line, lineOf_eq, hdigits]
    exact ⟨_, rfl⟩
  obtain ⟨rest, hline⟩ := hline
  rw [hline]
  apply plain_of_take
  · intro h
    obtain ⟨rfl, -⟩ := List.cons.inj h
    cases hc
  · intro h
    obtain ⟨rfl, -⟩ := List.cons.inj h
    cases hc

theorem plain_hexLines (blob : BinaryBlob) : ∀ l ∈ hexLines blob, Plain l := by
  intro l hl
  obtain ⟨i, -, rfl⟩ := List.mem_map.mp hl
  exact plain_line blob i

theorem plain_headerText (header : TDEventLogSpecIdHeader) : ∀ l ∈ headerText header, Plain l := by
  intro l hl
  rcases List.mem_append.mp hl with hl | hl
  · simp only [List.mem_cons, List.not_mem_nil, or_false] at hl
    rcases hl with rfl | rfl | rfl | rfl
    · exact plain_of_start "RTMR              : ".toList _ (by decide)
    · rw [typeLine, List.append_assoc, List.append_assoc]
      exact plain_of_start "Type              : ".toList _ (by decide)
    · exact plain_of_start "Length            : ".toList _ (by decide)
    · exact plain_of_start "Algorithms Number : ".toList _ (by decide)
  · obtain ⟨a, -, rfl⟩ := List.mem_map.mp hl
    rw [List.append_assoc, List.append_assoc]
    exact plain_of_start "  Algorithms[0x".toList _ (by decide)

theorem plain_digestLines (count : Nat) (digests : List Bytes) :
    ∀ l ∈ digestLines count digests, Plain l := by
  induction digests generalizing count with
  | nil => simp [digestLines]
  | cons d digests ih =>
    intro l hl
    rcases List.mem_cons.mp hl with rfl | hl
    · rw [List.append_assoc]
      exact plain_of_start "Digest[".toList _ (by decide)
    · exact (List.mem_append.mp hl).elim (plain_hexLines _ l) (ih (count + 1) l)

theorem algorithmsIdLine_start (entry : TDEventLogEntry) :
    ∃ rest, algorithmsIdLine entry = "Algorithms ID     : ".toList ++ rest := by
  refine ⟨decimal entry.algorithmsId ++ (" (".toList ++
    (getAlgorithmString entry.algorithmsId ++ ")".toList)), ?_⟩
  unfold algorithmsIdLine
  rw [List.append_assoc, List.append_assoc, List.append_assoc]

theorem plain_entryText (entry : TDEventLogEntry) : ∀ l ∈ entryText entry, Plain l := by
  intro l hl
  rcases List.mem_append.mp hl with hl | hl
  · simp only [List.mem_cons, List.not_mem_nil, or_false] at hl
    rcases hl with rfl | rfl | rfl | rfl
    · exact plain_of_start "RTMR              : ".toList _ (by decide)
    · rw [typeLine, List.append_assoc, List.append_assoc]
      exact plain_of_start "Type              : 0x".toList _ (by decide)
    · exact plain_of_start "Length            : ".toList _ (by decide)
    · obtain ⟨rest, hline⟩ := algorithmsIdLine_start entry
      rw [hline]
      exact plain_of_start "Algorithms ID     : ".toList rest (by decide)
  · exact plain_digestLines 0 _ l hl

end Lines

section Sections

/-- A section that is read as what it is. -/
structure Readable (s : DumpSection) : Prop where
  title : isHeading s.title = true
  text : ∀ l ∈ s.text, Plain l
  data : s.data ≠ []
  rest : ∀ l ∈ s.rest, Plain l

theorem isHeading_raw : isHeading RAW_DATA = false := by decide

theorem sections_append {lines : Log} (h : ∀ l ∈ lines, isHeading l = false) (more : Log) :
    sections (lines ++ more) = sections more := by
  induction lines with
  | nil => rfl
  | cons l lines ih =>
    rw [List.cons_append, sections, if_neg (by simp [h l List.mem_cons_self])]
    exact ih fun l' hl' => h l' (List.mem_cons_of_mem _ hl')

/-- The lines below a heading are those up to the next one. -/
theorem sections_cons {title : Str} {body more : Log} (htitle : isHeading title = true)
    (hbody : ∀ l ∈ body, isHeading l = false) (hmore : ∀ l ∈ more.head?, isHeading l = true) :
    sections (title :: (body ++ more)) = (title, body) :: sections more := by
  have htake : (body ++ more).takeWhile (fun l => ¬ isHeading l) = body := by
    rw [List.takeWhile_append_of_pos (fun l hl => by simp [hbody l hl])]
    cases more with
    | nil => simp
    | cons m more =>
      rw [List.takeWhile_cons_of_neg (by simp [hmore m rfl]), List.append_nil]
  rw [sections, if_pos htitle, htake, sections_append hbody]

theorem rawText_of_marks {text raw rest : Log} (htext : ∀ l ∈ text, Plain l)
    (hraw : ∀ l ∈ raw, Plain l) :
    rawText (text ++ RAW_DATA :: (raw ++ [RAW_DATA]) ++ rest) = raw := by
  have hdrop : (text ++ RAW_DATA :: (raw ++ [RAW_DATA]) ++ rest).dropWhile (· ≠ RAW_DATA) =
      RAW_DATA :: (raw ++ [RAW_DATA] ++ rest) := by
    rw [List.append_assoc, List.dropWhile_append_of_pos
      (fun l hl => decide_eq_true (htext l hl).2), List.cons_append,
      List.dropWhile_cons_of_neg (by simp)]
  rw [rawText, hdrop, List.drop_succ_cons, List.drop_zero, List.append_assoc,
    List.takeWhile_append_of_pos (fun l hl => decide_eq_true (hraw l hl).2), List.singleton_append,
    List.takeWhile_cons_of_neg (by simp), List.append_nil]

theorem fromhex_hexLines (blob : BinaryBlob) :
    fromhex ((hexLines blob).flatMap hexColumn) = some blob.data := by
  let rows := (List.range ((blob.length + 15) / 16)).map (row blob.data)
  have hrows : rows.flatten = blob.data := by
    have hlen : blob.length = blob.data.length := rfl
    rw [flatten_rows, List.take_of_length_le (by omega)]
  have hcolumn : ∀ i, hexColumn (line blob i) = hexText (row blob.data i) ++ blanks (row blob.data i) :=
    fun i => hexColumn_lineOf _ (length_row_le blob.data i)
  have hcolumns := fromhex_columns rows
  rw [hrows, List.flatMap_map] at hcolumns
  rw [hexLines, List.flatMap_map]
  simpa only [hcolumn] using hcolumns

theorem head_hexLines {blob : BinaryBlob} (h : blob.data ≠ []) :
    (hexLines blob).head?.bind (fun l => hexNat (addressColumn l)) = some blob.baseAddress := by
  obtain ⟨k, hk⟩ : ∃ k, (blob.length + 15) / 16 = k + 1 := by
    have hpos := List.length_pos_of_ne_nil h
    have hlen : blob.length = blob.data.length := rfl
    exact Nat.exists_eq_succ_of_ne_zero (by omega)
  rw [hexLines, hk, List.range_succ_eq_map, List.map_cons, List.head?_cons, Option.bind_some, line,
    addressColumn_lineOf, hexNat_formatX]
  rfl

/-- The sections of readable lines are read one by one. -/
theorem readDump_lines {ss : List DumpSection} (h : ∀ s ∈ ss, Readable s) :
    readDump (ss.flatMap DumpSection.lines) =
      ss.map (fun s => ⟨headingAddress s.title, some s.address, some s.data⟩) := by
  induction ss with
  | nil => rfl
  | cons s ss ih =>
    obtain ⟨htitle, htext, hdata, hrest⟩ := h s List.mem_cons_self
    have hraw := plain_hexLines ⟨s.data, s.address⟩
    have hbody : ∀ l ∈ s.text ++ rawLines s.address s.data ++ s.rest, isHeading l = false := by
      intro l hl
      simp only [rawLines, List.mem_append, List.mem_cons, List.not_mem_nil, or_false] at hl
      rcases hl with (hl | rfl | hl | rfl) | hl
      · exact (htext l hl).1
      · exact isHeading_raw
      · exact (hraw l hl).1
      · exact isHeading_raw
      · exact (hrest l hl).1
    have hnext : ∀ l ∈ (ss.flatMap DumpSection.lines).head?, isHeading l = true := by
      intro l hl
      cases ss with
      | nil => cases hl
      | cons s' ss =>
        obtain rfl := Option.some.inj hl
        exact (h s' (by simp)).title
    have hsections : sections ((s :: ss).flatMap DumpSection.lines) =
        (s.title, s.text ++ rawLines s.address s.data ++ s.rest) ::
          sections (ss.flatMap DumpSection.lines) := sections_cons htitle hbody hnext
    have hread : readSection s.title (s.text ++ rawLines s.address s.data ++ s.rest) =
        ⟨headingAddress s.title, some s.address, some s.data⟩ := by
      rw [readSection, rawLines, rawText_of_marks htext hraw, head_hexLines hdata, fromhex_hexLines]
    have hrest := ih fun s' hs' => h s' (List.mem_cons_of_mem _ hs')
    rw [readDump, hsections, List.map_cons, ← readDump, hrest, List.map_cons, hread]

theorem headingAddress_heading (count address : Nat) :
    headingAddress (heading count address) = some address := by
  have hdigits : ∀ c ∈ decimal count, c ≠ '[' := by
    intro c hc
    rintro rfl
    exact absurd (Nat.isDigit_of_mem_toDigits (by decide) (by decide) hc) (by decide)
  have hdrop : (heading count address).dropWhile (· ≠ '[') =
      "[0x".toList ++ (formatX 1 address ++ "] ====".toList) := by
    have hsplit : heading count address = ("==== TDX Event Log Entry - ".toList ++ decimal count ++
        [' ']) ++ ("[0x".toList ++ (formatX 1 address ++ "] ====".toList)) := by
      have hblank : " [0x".toList = [' '] ++ "[0x".toList := rfl
      unfold heading
      rw [hblank, ← List.append_assoc, List.append_assoc, List.append_assoc]
    rw [hsplit, List.dropWhile_append_of_pos]
    · rfl
    · intro c hc
      simp only [List.mem_append, List.mem_singleton] at hc
      rw [decide_eq_true_eq]
      rcases hc with (hc | hc) | rfl
      · rintro rfl
        revert hc
        decide
      · exact hdigits c hc
      · decide
  have htake : (formatX 1 address ++ "] ====".toList).takeWhile (· ≠ ']') = formatX 1 address := by
    rw [List.takeWhile_append_of_pos]
    · exact List.append_nil _
    · intro c hc
      rw [decide_eq_true_eq]
      rintro rfl
      exact absurd (hexVal_of_mem_formatX _ hc) (by decide)
  rw [headingAddress, hdrop]
  have hthree : ("[0x".toList ++ (formatX 1 address ++ "] ====".toList)).drop 3 =
      formatX 1 address ++ "] ====".toList := rfl
  rw [hthree, htake, hexNat_formatX]

end Sections

end TdxTools.Attestation.DumpReading
