import TdxTools.Attestation.Quote

namespace TdxTools.Attestation.QuotePayload

open Python.ByteString Python.Exec Utility Quote

/-- A successful answer to a quote request, with what is left of the buffer
behind it. The size of the message, which nobody reads, is any. -/
structure QuoteResponse where
  msgSize : Nat
  selectedId : Bytes
  quote : Bytes
  trailing : Bytes
  selectedIdFits : selectedId.length < 2 ^ 32
  quoteFits : quote.length < 2 ^ 32

namespace QuoteResponse

def header (r : QuoteResponse) : Bytes :=
  leBytes 2 1 ++ (leBytes 2 0 ++ (leBytes 4 1 ++ (leBytes 4 r.msgSize ++ (leBytes 4 0 ++
    (leBytes 4 r.selectedId.length ++ leBytes 4 r.quote.length)))))

def encode (r : QuoteResponse) : Bytes :=
  r.header ++ (r.selectedId ++ (r.quote ++ r.trailing))

end QuoteResponse

/-- The sizes of a response say more than there is behind its header. -/
def Overflows (buf : Bytes) : Prop :=
  24 ≤ buf.length ∧ buf.length < 24 + (uintAt buf 16 4 + uintAt buf 20 4)

/-- No field of the header is the one of a successful response. -/
def AllWrong (buf : Bytes) : Prop :=
  uintAt buf 0 2 ≠ 1 ∧ uintAt buf 2 2 ≠ 0 ∧ uintAt buf 4 4 ≠ 1 ∧ uintAt buf 12 4 ≠ 0

instance (buf : Bytes) : Decidable (AllWrong buf) := inferInstanceAs (Decidable (_ ∧ _))

instance (buf : Bytes) : Decidable (Overflows buf) := inferInstanceAs (Decidable (_ ∧ _))

theorem qgsMsgQuoteResp_of_le {buf : Bytes} (hbuf : 24 ≤ buf.length) :
    DeviceNode.qgsMsgQuoteResp buf =
      if AllWrong buf then .ok none
      else .ok (some ((buf.drop 24).take (uintAt buf 20 4))) := by
  obtain ⟨n, hn⟩ := Nat.exists_eq_add_of_le hbuf
  exact qgsMsgQuoteResp_of_length hn

theorem uintAt_piece {w n : Nat} (hn : n < 256 ^ w) (front rest : Bytes) :
    uintAt (front ++ (leBytes w n ++ rest)) front.length w = n := by
  rw [uintAt, List.drop_left, List.take_left' (length_leBytes w n), leNat_leBytes w n hn]

namespace QuoteResponse

variable (r : QuoteResponse)

theorem length_header : r.header.length = 24 := by
  simp [header]

theorem le_length_encode : 24 ≤ r.encode.length := by
  rw [encode, List.length_append, r.length_header]
  exact Nat.le_add_right _ _

theorem not_allWrong : ¬ AllWrong r.encode := by
  have hmajor : uintAt r.encode 0 2 = 1 :=
    uintAt_piece (by decide) [] _
  exact fun h => h.1 hmajor

theorem uintAt_quoteSize : uintAt r.encode 20 4 = r.quote.length := by
  let front : Bytes := leBytes 2 1 ++ (leBytes 2 0 ++ (leBytes 4 1 ++ (leBytes 4 r.msgSize ++
    (leBytes 4 0 ++ leBytes 4 r.selectedId.length))))
  have hfront : front.length = 20 := by simp [front]
  have hencode : r.encode =
      front ++ (leBytes 4 r.quote.length ++ (r.selectedId ++ (r.quote ++ r.trailing))) := by
    simp only [encode, header, front, List.append_assoc]
  have hfits : r.quote.length < 256 ^ 4 := r.quoteFits
  have hread := uintAt_piece hfits front (r.selectedId ++ (r.quote ++ r.trailing))
  rwa [hfront, ← hencode] at hread

/-- The first bytes behind the header are taken, which are those of the
selected id. -/
theorem qgsMsgQuoteResp_encode : DeviceNode.qgsMsgQuoteResp r.encode =
    .ok (some ((r.selectedId ++ r.quote).take r.quote.length)) := by
  have hdrop : r.encode.drop 24 = (r.selectedId ++ r.quote) ++ r.trailing := by
    rw [encode, List.drop_left' r.length_header, List.append_assoc]
  have hle : r.quote.length ≤ (r.selectedId ++ r.quote).length := by
    rw [List.length_append]
    exact Nat.le_add_left _ _
  rw [qgsMsgQuoteResp_of_le r.le_length_encode, if_neg r.not_allWrong, r.uintAt_quoteSize, hdrop,
    List.take_append_of_le_length hle]

end QuoteResponse

/-- The payload is the quote when nothing is in front of it, or only what the
quote repeats; sizes that are too large are noticed only in a response that is
wrong everywhere else. -/
theorem quote_payload_iff (r : QuoteResponse) (buf : Bytes) :
    (DeviceNode.qgsMsgQuoteResp r.encode = .ok (some r.quote) ↔
      r.selectedId = [] ∨
        ∀ k < r.quote.length, r.quote[k]? = r.selectedId[k % r.selectedId.length]?) ∧
    ((Overflows buf → DeviceNode.qgsMsgQuoteResp buf = .ok none) ↔
      ¬ Overflows buf ∨ AllWrong buf) := by
  constructor
  · rw [r.qgsMsgQuoteResp_encode, ← take_append_eq_iff]
    simp
  · by_cases ho : Overflows buf
    · rw [qgsMsgQuoteResp_of_le ho.1]
      by_cases hw : AllWrong buf
      · simp [hw]
      · simp [ho, hw]
    · simp [ho]

/-- A quote of two bytes behind a selected id of one. -/
def selectedResponse : QuoteResponse where
  msgSize := 27
  selectedId := [7]
  quote := [1, 2]
  trailing := []
  selectedIdFits := by decide
  quoteFits := by decide

/-- The answer above without its last byte. -/
def shortBuffer : Bytes := selectedResponse.encode.take 26

/-- The selected id is taken for the first byte of the quote, and a buffer that
ends too early yields a shortened quote. -/
theorem selected_id_in_payload :
    DeviceNode.qgsMsgQuoteResp selectedResponse.encode ≠ .ok (some selectedResponse.quote) ∧
      Overflows shortBuffer ∧ DeviceNode.qgsMsgQuoteResp shortBuffer ≠ .ok none := by
  decide +kernel

end TdxTools.Attestation.QuotePayload
