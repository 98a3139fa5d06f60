import TdxTools.CloudStack.Download

namespace TdxTools.CloudStack.CompleteDownload

open Python.ByteString Python.Text Python.Path Python.Exec Python.Files Download

theorem receive_eq (fileSize : Int) (chunks : List Bytes) (content : Bytes) :
    receive fileSize chunks content =
      if fileSize ≠ 0 ∨ chunks = [] then (.ok (), content ++ chunks.flatten)
      else (.raised .zeroDivisionError, content ++ chunks.headD []) := by
  induction chunks generalizing content with
  | nil => simp [receive]
  | cons chunk chunks ih =>
    by_cases hsize : fileSize = 0
    · rw [receive, if_pos hsize, if_neg (by simp [hsize])]
      rfl
    · rw [receive, if_neg hsize, ih, if_pos (Or.inl hsize), if_pos (Or.inl hsize),
        List.flatten_cons, List.append_assoc]

/-- The header is a size that is not zero, and fits a float, or there is no body. -/
def Completes : ContentLength → List Bytes → Prop
  | .missing, chunks => chunks = []
  | .notANumber, _ => False
  | .number fileSize, chunks => ¬ Overflows fileSize ∧ (fileSize ≠ 0 ∨ chunks = [])

theorem stream_eq_iff (contentLength : ContentLength) (chunks : List Bytes) :
    stream contentLength chunks = (.ok (), chunks.flatten) ↔ Completes contentLength chunks := by
  have hreceive : ∀ fileSize, receive fileSize chunks [] = (.ok (), chunks.flatten) ↔
      fileSize ≠ 0 ∨ chunks = [] := by
    intro fileSize
    rw [receive_eq]
    by_cases hgood : fileSize ≠ 0 ∨ chunks = []
    · simp [hgood]
    · simp [hgood]
  cases contentLength with
  | missing => simp [stream, Completes, hreceive]
  | notANumber => simp [stream, Completes]
  | number fileSize =>
    by_cases hover : Overflows fileSize
    · simp [stream, Completes, hover]
    · simp [stream, Completes, hover, hreceive]

section Run

variable (env : Env) (contentLength : ContentLength) (chunks : List Bytes) (filepath : Str)
  (w : World)

def download : Py World Unit :=
  DownloadExecutor.run env { reply := .success contentLength chunks, fault := .none } filepath

def Complete : Prop :=
  (download env contentLength chunks filepath w).1 = .ok () ∧
    (download env contentLength chunks filepath w).2.content env filepath = some chunks.flatten

end Run

/-- A download is complete just if its progress can be computed. -/
theorem download_complete_iff (env : Env) (contentLength : ContentLength) (chunks : List Bytes)
    {filepath : Str} (w : World) (h : Names filepath) :
    Complete env contentLength chunks filepath w ↔ Completes contentLength chunks := by
  have hcontent : (download env contentLength chunks filepath w).2.content env filepath =
      some (stream contentLength chunks).2 := World.content_put_self env w filepath h _
  rw [Complete, hcontent, Option.some.injEq, ← stream_eq_iff, Prod.ext_iff]
  rfl

theorem download_complete_iff_sized :
    Complete Env.reliable (.number 2) [[0x61], [0x62]] "/f".toList World.empty ↔
      Completes (.number 2) [[0x61], [0x62]] :=
  download_complete_iff Env.reliable (.number 2) [[0x61], [0x62]] World.empty (by decide +kernel)

theorem chunked_cut :
    (download Env.reliable .missing [[0x61], [0x62]] "/f".toList World.empty).1 =
      .raised .zeroDivisionError ∧
    (download Env.reliable .missing [[0x61], [0x62]] "/f".toList World.empty).2.content
      Env.reliable "/f".toList = some [0x61] ∧
    ¬ Complete Env.reliable .missing [[0x61], [0x62]] "/f".toList World.empty := by
  have hrun : (download Env.reliable .missing [[0x61], [0x62]] "/f".toList World.empty).1 =
      .raised .zeroDivisionError := by decide +kernel
  refine ⟨hrun, by decide +kernel, fun h => ?_⟩
  have hok := h.1
  rw [hrun] at hok
  cases hok

end TdxTools.CloudStack.CompleteDownload
