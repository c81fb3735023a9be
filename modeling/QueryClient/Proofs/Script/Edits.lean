/-
  QueryClient/Proofs/Script/Edits.lean
  ====================================
  **A page under edits.** A page is changed by lines, by layouts and by turns of the
  indentation, in any order. Whatever the order,

  * a layout is written at the level where the page stands, each of its lines as many
    levels deeper as the layout nests it, and the page is back at its level afterwards;
  * nothing that has been written is taken back;
  * the level counts turns and nothing else, and a turn below the outermost level is lost.

  The first is `Page.put_eq` with the depths counted from the page's level instead of from
  the outermost one. The others hold for one edit (`Page.edit_appends`, `Page.level_edit`)
  and so for all.
-/
import QueryClient.Proofs.Script.Lines

namespace QueryClient.Script

/-! ### Depths from a level on -/

namespace Layout

mutual

/-- A layout that stands deeper has the same lines, each so much deeper. -/
theorem lines_add (level depth : Nat) (l : Layout) :
    l.lines (level + depth) = (l.lines depth).map fun line => (level + line.1, line.2) := by
  cases l with
  | line s => rfl
  | blank => rfl
  | block header body close =>
    have hbody := linesAll_add level (depth + 1) body
    rw [← Nat.add_assoc] at hbody
    rw [lines, lines, hbody]
    cases close with
    | none => simp
    | some s => simp

theorem linesAll_add (level depth : Nat) (ls : List Layout) :
    linesAll (level + depth) ls =
      (linesAll depth ls).map fun line => (level + line.1, line.2) := by
  cases ls with
  | nil => rfl
  | cons l ls => rw [linesAll, linesAll, lines_add, linesAll_add, List.map_append]

end

end Layout

theorem Page.indentation_eq (m : Margin) (level : Nat) :
    indentation m level = String.join (List.replicate level m.text) := by
  induction level with
  | zero => simp [indentation]
  | succ level ih => simp [indentation, ih, List.replicate_succ]

/-! ### Edits -/

/-- One change to a page. The parts of a node, such as a declaration, are written one
    after the other. -/
inductive Edit where
  | line (text : String)
  | blank
  | indent
  | dedent
  | node (parts : List Layout)
  | fragment (part : Layout)
deriving Repr

/-- How far an edit turns the indentation. -/
def Edit.turn : Edit → Int
  | .indent => 1
  | .dedent => -1
  | _ => 0

namespace Page

def edit (p : Page) : Edit → Page
  | .line s => p.line s
  | .blank => p.blank
  | .indent => p.indent
  | .dedent => p.dedent
  | .node parts => p.putAll parts
  | .fragment part => p.put part

/-- Edits one after the other. -/
def editAll (p : Page) (edits : List Edit) : Page := edits.foldl edit p

theorem edit_appends (p : Page) (e : Edit) : ∃ s, (p.edit e).text = p.text ++ s := by
  cases e with
  | line s => exact ⟨_, congrArg Page.text (line_eq p s)⟩
  | blank => exact ⟨_, rfl⟩
  | indent => exact ⟨"", String.append_empty.symm⟩
  | dedent => exact ⟨"", String.append_empty.symm⟩
  | node parts => exact ⟨_, congrArg Page.text (putAll_eq p parts)⟩
  | fragment part => exact ⟨_, congrArg Page.text (put_eq p part)⟩

theorem editAll_appends (p : Page) (edits : List Edit) :
    ∃ s, (p.editAll edits).text = p.text ++ s := by
  induction edits generalizing p with
  | nil => exact ⟨"", String.append_empty.symm⟩
  | cons e edits ih =>
    obtain ⟨s, hs⟩ := edit_appends p e
    obtain ⟨rest, hrest⟩ := ih (p.edit e)
    refine ⟨s ++ rest, ?_⟩
    rw [editAll, List.foldl_cons, ← editAll, hrest, hs, String.append_assoc]

theorem editAll_append (p : Page) (before after : List Edit) :
    p.editAll (before ++ after) = (p.editAll before).editAll after := List.foldl_append

theorem level_edit (p : Page) (e : Edit) : (p.edit e).level = (p.level + e.turn).toNat := by
  cases e with
  | line s => simp [edit, line_eq, Edit.turn]
  | blank => simp [edit, blank, Edit.turn]
  | indent => simp [edit, indent, Edit.turn]
  | dedent => simp [edit, dedent, Edit.turn]; omega
  | node parts => simp [edit, putAll_eq, Edit.turn]
  | fragment part => simp [edit, put_eq, Edit.turn]

theorem level_editAll (p : Page) (edits : List Edit) :
    (p.editAll edits).level =
      (edits.map Edit.turn).foldl (fun level turn => (level + turn).toNat) p.level := by
  induction edits generalizing p with
  | nil => rfl
  | cons e edits ih =>
    rw [List.map_cons, List.foldl_cons, ← level_edit]
    exact ih (p.edit e)

/-- Only turns count: an edit that does not turn may as well be missing. -/
theorem foldl_turns (level : Nat) (turns : List Int) :
    turns.foldl (fun level turn => (level + turn).toNat) level =
      (turns.filter (· ≠ 0)).foldl (fun level turn => (level + turn).toNat) level := by
  induction turns generalizing level with
  | nil => rfl
  | cons turn turns ih =>
    rw [List.foldl_cons, ih]
    by_cases hturn : turn = 0
    · simp [hturn]
    · simp [hturn]

/-- **A page is written line by line.** Wherever a page stands, a layout puts there its
    lines in their order: an empty one as a line feed alone, any other one with the margin
    once for each level of the page and each level of its own in front. The page stays at
    its level. Edits, whichever they are, only add to what is written, and the level that
    they lead to is that of the turns among them, never below zero. -/
theorem edits_append_lines (p : Page) :
    (∀ l : Layout, p.put l = { p with
      text := p.text ++ String.join ((l.lines 0).map fun (depth, s) =>
        if s = "" then "\n"
        else String.join (List.replicate (p.level + depth) p.margin.text) ++ s ++ "\n") }) ∧
    (∀ before after : List Edit,
      ∃ s, (p.editAll (before ++ after)).text = (p.editAll before).text ++ s) ∧
    ∀ edits : List Edit, (p.editAll edits).level =
      ((edits.map Edit.turn).filter (· ≠ 0)).foldl (fun level turn => (level + turn).toNat)
        p.level := by
  refine ⟨?layout, ?text, ?level⟩
  case layout =>
    intro l
    have hlines : l.lines p.level = (l.lines 0).map fun line => (p.level + line.1, line.2) :=
      Layout.lines_add p.level 0 l
    rw [put_eq, hlines, Margin.writeAll, List.map_map]
    simp only [Margin.write, indentation_eq, Function.comp_def]
  case text =>
    intro before after
    rw [editAll_append]
    exact editAll_appends _ after
  case level =>
    intro edits
    rw [level_editAll, foldl_turns]

example : ((Page.empty .tab).editAll [.dedent, .indent, .line "a", .line "", .fragment
    (.block "b" [.line "c"] none), .dedent, .line "d"]).text = "\ta\n\n\tb\n\t\tc\nd\n" := by
  decide

end Page
end QueryClient.Script
