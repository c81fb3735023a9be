/-
  QueryClient/Proofs/Script/Lines.lean
  ====================================
  **A layout is its lines.** The lines of a layout can be listed without a page: each
  with the depth that it stands at. Writing the layout on a page appends exactly these
  lines and leaves the page at the level where it was (`put_eq`, `putAll_eq`).

  So what is written does not depend on what is written before and after it, and the
  text of a file is the texts of its declarations with a line feed between neighbours
  (`SourceFile.text_eq_intercalate`).
-/
import QueryClient.Script.SourceFile

namespace QueryClient.Script

/-! ### Lines and their depths -/

namespace Layout

mutual

/-- The lines of a layout that stands at the given depth, each with its own depth. -/
def lines (depth : Nat) : Layout → List (Nat × String)
  | .line s => [(depth, s)]
  | .blank => [(depth, "")]
  | .block header body close =>
    (depth, header) :: (linesAll (depth + 1) body ++ (close.map fun s => (depth, s)).toList)

/-- The lines of layouts that stand one after the other. -/
def linesAll (depth : Nat) : List Layout → List (Nat × String)
  | [] => []
  | l :: ls => lines depth l ++ linesAll depth ls

end

theorem linesAll_append (depth : Nat) (ls rest : List Layout) :
    linesAll depth (ls ++ rest) = linesAll depth ls ++ linesAll depth rest := by
  induction ls with
  | nil => rfl
  | cons l ls ih => simp only [List.cons_append, linesAll, ih, List.append_assoc]

theorem linesAll_line (depth : Nat) (texts : List String) :
    linesAll depth (texts.map Layout.line) = texts.map fun s => (depth, s) := by
  induction texts with
  | nil => rfl
  | cons s ss ih => simp only [List.map_cons, linesAll, lines, ih, List.singleton_append]

end Layout

/-- One line as it is written: the indentation for its depth, the text and a line feed.
    An empty line is a line feed and nothing else. -/
def Margin.write (m : Margin) (line : Nat × String) : String :=
  if line.2 = "" then "\n" else Page.indentation m line.1 ++ line.2 ++ "\n"

/-- Lines as they are written one after the other. -/
def Margin.writeAll (m : Margin) (lines : List (Nat × String)) : String :=
  String.join (lines.map m.write)

theorem Margin.writeAll_nil (m : Margin) : m.writeAll [] = "" := by
  simp [writeAll]

theorem Margin.writeAll_cons (m : Margin) (line : Nat × String) (rest : List (Nat × String)) :
    m.writeAll (line :: rest) = m.write line ++ m.writeAll rest := by
  simp [writeAll]

theorem Margin.writeAll_append (m : Margin) (ls rest : List (Nat × String)) :
    m.writeAll (ls ++ rest) = m.writeAll ls ++ m.writeAll rest := by
  simp [writeAll]

/-- At the outermost level a line is its text and a line feed, also where it is empty. -/
theorem Margin.write_zero (m : Margin) (s : String) : m.write (0, s) = s ++ "\n" := by
  by_cases h : s = ""
  · simp [write, h]
  · simp [write, h, Page.indentation]

/-! ### What a page holds after writing -/

namespace Page

theorem line_eq (p : Page) (s : String) :
    p.line s = { p with text := p.text ++ p.margin.write (p.level, s) } := by
  by_cases h : s = ""
  · simp [line, Margin.write, h]
  · simp [line, Margin.write, h, String.append_assoc]

theorem blank_eq (p : Page) :
    p.blank = { p with text := p.text ++ p.margin.write (p.level, "") } := by
  simp [blank, Margin.write]

theorem close_eq (p : Page) (c : Option String) :
    p.close c =
      { p with text := p.text ++ p.margin.writeAll (c.map fun s => (p.level, s)).toList } := by
  cases c with
  | none => simp [close, Margin.writeAll_nil]
  | some s => simp [close, line_eq, Margin.writeAll_cons, Margin.writeAll_nil]

mutual

/-- Writing a layout appends its lines, and changes neither the margin nor the level. -/
theorem put_eq (p : Page) (l : Layout) :
    p.put l = { p with text := p.text ++ p.margin.writeAll (l.lines p.level) } := by
  cases l with
  | line s => simp [put, line_eq, Layout.lines, Margin.writeAll_cons, Margin.writeAll_nil]
  | blank => simp [put, blank_eq, Layout.lines, Margin.writeAll_cons, Margin.writeAll_nil]
  | block header body close =>
    rw [put, putAll_eq]
    simp [line_eq, indent, dedent, close_eq, Layout.lines, Margin.writeAll_cons,
      Margin.writeAll_append, String.append_assoc]

theorem putAll_eq (p : Page) (ls : List Layout) :
    p.putAll ls = { p with text := p.text ++ p.margin.writeAll (Layout.linesAll p.level ls) } := by
  cases ls with
  | nil => simp [putAll, Layout.linesAll, Margin.writeAll_nil]
  | cons l ls =>
    rw [putAll, put_eq, putAll_eq]
    simp [Layout.linesAll, Margin.writeAll_append, String.append_assoc]

end

end Page

/-! ### Declarations and files -/

namespace Layout

theorem render_eq (ls : List Layout) : render ls = Margin.standard.writeAll (linesAll 0 ls) := by
  simp [render, Page.putAll_eq, Page.empty]

theorem render_append (ls rest : List Layout) :
    render (ls ++ rest) = render ls ++ render rest := by
  simp [render_eq, linesAll_append, Margin.writeAll_append]

theorem render_line (s : String) : render [.line s] = s ++ "\n" := by
  simp [render_eq, linesAll, lines, Margin.writeAll_cons, Margin.writeAll_nil, Margin.write_zero]

theorem render_blank : render [.blank] = "\n" := by
  simp [render_eq, linesAll, lines, Margin.writeAll_cons, Margin.writeAll_nil, Margin.write_zero]

theorem render_lines (texts : List String) :
    render (texts.map Layout.line) = String.join (texts.map (· ++ "\n")) := by
  simp [render_eq, linesAll_line, Margin.writeAll, Margin.write_zero, Function.comp_def]

end Layout

namespace SourceFile

theorem render_spaced (parts : List (List Layout)) :
    Layout.render (spaced parts) = "\n".intercalate (parts.map Layout.render) := by
  induction parts with
  | nil => simp [spaced, Layout.render_eq, Layout.linesAll, Margin.writeAll_nil]
  | cons part rest ih =>
    cases rest with
    | nil => simp [spaced]
    | cons next rest =>
      have hblank := Layout.render_append [.blank] (spaced (next :: rest))
      rw [List.singleton_append, Layout.render_blank] at hblank
      rw [spaced, Layout.render_append, hblank, ih]
      · simp [String.append_assoc]
      · simp

/-- The text of a file: the line of the banner and the text of each declaration, with a
    line feed between neighbours. No declaration depends on those around it. -/
theorem text_eq_intercalate (f : SourceFile) :
    f.text = "\n".intercalate
      ((f.banner?.map (· ++ "\n")).toList ++ f.declarations.map Declaration.text) := by
  rw [text, layout, render_spaced, List.map_append, List.map_map]
  congr 2
  cases f.banner? with
  | none => rfl
  | some b => simp [Layout.render_line]

end SourceFile
end QueryClient.Script
