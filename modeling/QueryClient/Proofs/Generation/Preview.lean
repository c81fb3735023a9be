/-
  QueryClient/Proofs/Generation/Preview.lean
  ==========================================
  **A preview shows what is written.** The files of a response leave a run in one of two
  ways: as a message, byte for byte, or in a preview, as texts. Reading bytes as a text may
  lose some of them, but not here: the contents of a generated file are the bytes of a text
  (`exists_text_of_generate`), and the preview gives this text back. So what the preview
  shows and what a reader of the message gets are the same files.
-/
import QueryClient.Preview
import QueryClient.Proofs.Generation.Refusal
import QueryClient.Proofs.Wire.RoundTrip

namespace QueryClient

/-! ### Files as texts -/

/-- The items of a preview that show the files of a message: for each file, in order, its
    name on a divider, and the text whose bytes its contents are. -/
inductive Shown : List Wire.File → List PreviewItem → Prop where
  | none : Shown [] []
  | file {f : Wire.File} {fs : List Wire.File} {items : List PreviewItem} {text : String}
      (hcontents : f.contents = Text.utf8 text) (hrest : Shown fs items) :
      Shown (f :: fs) (.divider f.name :: .preformatted text :: items)

theorem OutputFile.text_of_contents {f : OutputFile} {text : String}
    (h : f.contents = Text.utf8 text) : f.text = text := by
  rw [OutputFile.text, h, Text.lossy_utf8]

theorem shown_of_texts {files : List OutputFile}
    (h : ∀ f ∈ files, ∃ text, f.contents = Text.utf8 text) :
    Shown (files.map fun f => ⟨f.name, f.contents⟩)
      (files.flatMap fun f => [.divider f.name, .preformatted f.text]) := by
  induction files with
  | nil => exact Shown.none
  | cons f files ih =>
    obtain ⟨hfirst, hrest⟩ := List.forall_mem_cons.mp h
    obtain ⟨text, htext⟩ := hfirst
    rw [List.flatMap_cons, List.map_cons, OutputFile.text_of_contents htext]
    exact Shown.file htext (ih hrest)

/-! ### Generated files -/

theorem Driver.exists_text_of_file {d : Driver} {g : QueryGroup} {f : OutputFile}
    (h : d.file g = .ok f) : ∃ text, f.contents = Text.utf8 text := by
  obtain ⟨dss, -, rfl⟩ := Driver.file_eq_ok_iff.mp h
  exact ⟨_, rfl⟩

/-- Every generated file is a text. -/
theorem Request.exists_text_of_generate {r : Request} {out : Response}
    (h : r.generate = .ok out) : ∀ f ∈ out.files, ∃ text, f.contents = Text.utf8 text := by
  obtain ⟨d, -, hout⟩ := Request.exists_driver_of_generate h
  obtain ⟨files, hfiles, rfl⟩ := map_eq_ok_iff.mp hout
  intro f hf
  obtain ⟨g, -, hg⟩ := exists_of_mem_mapM hfiles hf
  exact Driver.exists_text_of_file hg

/-- **A preview shows what is written.** What a successful run writes is a message whose files
    are exactly those of the preview: it names each of them, in order, and shows the text
    whose bytes the file consists of. Behind them it counts them; one file is a file, and any
    other number of them are files. The message reads back from its bytes; a length in the
    format has 64 bits, so this is about messages that it has room for. -/
theorem Request.preview_shows_message {r : Request} {out : Response} (h : r.generate = .ok out) :
    ∃ message items noun,
      Wire.encodeResponse out = message.encode ∧
      (message.encode.length < 2 ^ 64 → Wire.Response.type.decode message.encode = .ok message) ∧
      Shown message.files items ∧
      out.preview = items ++ [.divider "Summary",
        .line (message.files.length.repr ++ " " ++ noun ++ " would be generated")] ∧
      (noun = "file" ↔ message.files.length = 1) ∧
      (noun = "files" ↔ message.files.length ≠ 1) := by
  have hcount : (Wire.Response.ofResponse out).files.length = out.files.length :=
    List.length_map _
  refine ⟨Wire.Response.ofResponse out, _, if out.files.length = 1 then "file" else "files",
    rfl, ?decode, shown_of_texts (exists_text_of_generate h), ?preview, ?one, ?many⟩
  case decode => exact fun hlength => (Wire.Response.builds_encode 99 _ hlength).decode_eq
  case preview =>
    rw [hcount]
    rfl
  case one =>
    rw [hcount]
    split <;> simp_all
  case many =>
    rw [hcount]
    split <;> simp_all

/-- Queries of two files, one of them with a text that itself has the replacement
    character. -/
def marred : Request where
  queries := [.plain "Touch" .exec "UPDATE t -- \uFFFD é" "a.sql",
    .plain "Get" .exec "SELECT 1" "b.sql"]
  settings := Text.utf8 "\x7b\"driver\":\"pg\"\x7d"

theorem Request.preview_shows_message_marred :
    ∃ out, marred.generate = .ok out ∧ ∃ message items noun,
      Wire.encodeResponse out = message.encode ∧
      (message.encode.length < 2 ^ 64 → Wire.Response.type.decode message.encode = .ok message) ∧
      Shown message.files items ∧
      out.preview = items ++ [.divider "Summary",
        .line (message.files.length.repr ++ " " ++ noun ++ " would be generated")] ∧
      (noun = "file" ↔ message.files.length = 1) ∧
      (noun = "files" ↔ message.files.length ≠ 1) := by
  have hdriver : Settings.selectDriver marred.settings = .ok .pg := rfl
  have hsupported : ∀ q ∈ marred.queries, Driver.pg.Supports q.command := by decide
  obtain ⟨out, hout⟩ := Driver.exists_generate hsupported
  have hrun : marred.generate = .ok out := by
    rw [generate_of_selectDriver hdriver, hout]
    rfl
  exact ⟨out, hrun, preview_shows_message hrun⟩

end QueryClient
