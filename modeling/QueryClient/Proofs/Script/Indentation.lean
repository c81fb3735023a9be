/-
  QueryClient/Proofs/Script/Indentation.lean
  ==========================================
  **A template literal below the outermost level.** A page puts its indentation in front
  of every line that is not empty, and a constant is written line by line. The lines of a
  template literal are lines of a text as well, so on an indented page the literal stands
  for another text than the one that it was made for: the text with the indentation behind
  its line feeds (`hang`).

  The lines of the constant are put together again in `flatMap_indented`. That the
  indentation may be put into the text before or after its characters are marked is
  `escapeTemplate_hang`; it rests on the margins, which hold nothing that is marked.
-/
import Mathlib.Logic.Basic
import QueryClient.Proofs.Script.TemplateLiteral

namespace QueryClient.Script

/-! ### Texts whose lines hang -/

/-- The text with a margin in front of each line but the first. An empty line gets none,
    unless it is the last one: something stands behind the text on its last line. -/
def hang (margin : List Char) : List Char → List Char
  | [] => []
  | c :: cs =>
    if c = '\n' ∧ cs.head? ≠ some '\n' then c :: (margin ++ hang margin cs)
    else c :: hang margin cs

theorem hang_of_ne {c : Char} (h : c ≠ '\n') (margin cs : List Char) :
    hang margin (c :: cs) = c :: hang margin cs := if_neg fun hboth => h hboth.1

/-- In front of an empty line nothing is put. -/
theorem hang_empty {cs : List Char} (h : cs.head? = some '\n') (margin : List Char) :
    hang margin ('\n' :: cs) = '\n' :: hang margin cs := if_neg fun hboth => hboth.2 h

theorem hang_feed {cs : List Char} (h : cs.head? ≠ some '\n') (margin : List Char) :
    hang margin ('\n' :: cs) = '\n' :: (margin ++ hang margin cs) := if_pos ⟨rfl, h⟩

theorem head?_hang (margin s : List Char) : (hang margin s).head? = s.head? := by
  cases s with
  | nil => rfl
  | cons c cs =>
    rw [hang]
    split <;> rfl

theorem length_le_hang (margin s : List Char) : s.length ≤ (hang margin s).length := by
  induction s with
  | nil => exact Nat.le_refl _
  | cons c cs ih =>
    rw [hang]
    split
    · simp only [List.length_cons, List.length_append]
      omega
    · exact Nat.succ_le_succ ih

theorem hang_nil (s : List Char) : hang [] s = s := by
  induction s with
  | nil => rfl
  | cons c cs ih => rw [hang, List.nil_append, ih, ite_self]

theorem hang_of_notMem {s : List Char} (h : '\n' ∉ s) (margin : List Char) :
    hang margin s = s := by
  induction s with
  | nil => rfl
  | cons c cs ih =>
    rw [List.mem_cons, not_or] at h
    rw [hang_of_ne (Ne.symm h.1), ih h.2]

/-- A margin that is there shows: the last line feed of the text has it behind it. -/
theorem hang_eq_self_iff {margin s : List Char} :
    hang margin s = s ↔ margin = [] ∨ '\n' ∉ s := by
  constructor
  · intro h
    rw [or_iff_not_imp_left]
    intro hmargin
    induction s with
    | nil => exact List.not_mem_nil
    | cons c cs ih =>
      rw [hang] at h
      split at h
      · -- the margin makes the text longer, and nothing makes it shorter again
        have hlength := congrArg List.length (List.tail_eq_of_cons_eq h)
        have hrest := length_le_hang margin cs
        have hpos := List.length_pos_iff.mpr hmargin
        rw [List.length_append] at hlength
        omega
      · rename_i hfeed
        have hnext := ih (List.tail_eq_of_cons_eq h)
        rw [List.mem_cons, not_or]
        refine ⟨?_, hnext⟩
        rintro rfl
        have hhead : cs.head? = some '\n' := by simpa using hfeed
        exact hnext (List.mem_of_mem_head? hhead)
  · rintro (rfl | h)
    · exact hang_nil s
    · exact hang_of_notMem h margin

/-- Something behind the text, on its last line. -/
theorem hang_append (margin s : List Char) {r : Char} (hr : r ≠ '\n') (rs : List Char) :
    hang margin (s ++ r :: rs) = hang margin s ++ hang margin (r :: rs) := by
  induction s with
  | nil => rfl
  | cons c cs ih =>
    have hhead : (cs ++ r :: rs).head? = some '\n' ↔ cs.head? = some '\n' := by
      cases cs with
      | nil => simp [hr]
      | cons d ds => rfl
    by_cases hfeed : c = '\n'
    · subst hfeed
      by_cases hempty : cs.head? = some '\n'
      · rw [List.cons_append, hang_empty (hhead.mpr hempty), hang_empty hempty, ih,
          List.cons_append]
      · rw [List.cons_append, hang_feed (mt hhead.mp hempty), hang_feed hempty, ih,
          List.cons_append, List.append_assoc]
    · rw [List.cons_append, hang_of_ne hfeed, hang_of_ne hfeed, ih, List.cons_append]

/-- What stands around the content of a literal is all on its first and its last line. -/
theorem hang_literal (margin content : List Char) :
    hang margin ('`' :: (content ++ ['`', ';'])) = '`' :: (hang margin content ++ ['`', ';']) := by
  have hend : hang margin ['`', ';'] = ['`', ';'] := hang_of_notMem (by decide) margin
  rw [hang_of_ne (by decide), hang_append margin content (by decide), hend]

/-! ### Lines that are written -/

/-- A line as it stands behind a margin; an empty one is a line feed and nothing else. -/
def indented (margin line : List Char) : List Char :=
  if line = [] then ['\n'] else margin ++ line ++ ['\n']

theorem toList_write (m : Margin) (depth : Nat) (line : List Char) :
    (m.write (depth, String.ofList line)).toList =
      indented (Page.indentation m depth).toList line := by
  have hempty : String.ofList line = "" ↔ line = [] := by
    rw [← String.toList_inj, String.toList_ofList, String.toList_empty]
  by_cases h : line = []
  · rw [Margin.write, if_pos (hempty.mpr h), indented, if_pos h]
    rfl
  · rw [Margin.write, if_neg (mt hempty.mp h), indented, if_neg h]
    simp

theorem splitLines_head_eq_nil {s l : List Char} {ls : List (List Char)}
    (h : Constant.splitLines s = l :: ls) : l = [] ↔ s = [] ∨ s.head? = some '\n' := by
  cases s with
  | nil =>
    obtain ⟨rfl, rfl⟩ := List.cons_eq_cons.mp h.symm
    simp
  | cons c cs =>
    obtain ⟨l', ls', hlines⟩ := List.exists_cons_of_ne_nil (Constant.splitLines_ne_nil cs)
    rw [Constant.splitLines, hlines] at h
    by_cases hfeed : c = '\n'
    · rw [if_pos hfeed] at h
      obtain ⟨rfl, rfl⟩ := List.cons_eq_cons.mp h.symm
      simp [hfeed]
    · rw [if_neg hfeed] at h
      obtain ⟨rfl, rfl⟩ := List.cons_eq_cons.mp h.symm
      simp [hfeed]

/-- The lines of a text that does not end with a line feed, the first one written as it is
    and the others behind a margin, are the text with hanging lines. -/
theorem flatMap_indented (margin : List Char) {s : List Char} (hlast : s.getLast? ≠ some '\n')
    {l : List Char} {ls : List (List Char)} (h : Constant.splitLines s = l :: ls) :
    l ++ '\n' :: ls.flatMap (indented margin) = hang margin s ++ ['\n'] := by
  induction s generalizing l ls with
  | nil =>
    obtain ⟨rfl, rfl⟩ := List.cons_eq_cons.mp h.symm
    rfl
  | cons c cs ih =>
    have hrest : cs.getLast? ≠ some '\n' := by
      intro hfeed
      rw [List.getLast?_cons, hfeed] at hlast
      exact hlast rfl
    obtain ⟨l', ls', hlines⟩ := List.exists_cons_of_ne_nil (Constant.splitLines_ne_nil cs)
    have hnext := ih hrest hlines
    rw [Constant.splitLines, hlines] at h
    by_cases hfeed : c = '\n'
    · subst hfeed
      rw [if_pos rfl] at h
      obtain ⟨rfl, rfl⟩ := List.cons_eq_cons.mp h.symm
      have hmore : cs ≠ [] := fun hnil => hlast (by rw [hnil]; rfl)
      have hempty : l' = [] ↔ cs.head? = some '\n' :=
        (splitLines_head_eq_nil hlines).trans (or_iff_right hmore)
      rw [List.nil_append, List.flatMap_cons]
      by_cases hline : l' = []
      · rw [indented, if_pos hline, hang_empty (hempty.mp hline)]
        rw [hline] at hnext
        exact congrArg ('\n' :: ·) hnext
      · have hwritten : margin ++ l' ++ ['\n'] ++ ls'.flatMap (indented margin) =
            margin ++ hang margin cs ++ ['\n'] := by
          rw [List.append_assoc margin (hang margin cs), ← hnext]
          simp
        rw [indented, if_neg hline, hang_feed (mt hempty.mpr hline)]
        exact congrArg ('\n' :: ·) hwritten
    · rw [if_neg hfeed] at h
      obtain ⟨rfl, rfl⟩ := List.cons_eq_cons.mp h.symm
      rw [hang_of_ne hfeed, List.cons_append, List.cons_append, hnext]

/-! ### Margins and marked characters -/

theorem mem_indentation {m : Margin} {level : Nat} {c : Char}
    (h : c ∈ (Page.indentation m level).toList) : c = ' ' ∨ c = '\t' := by
  induction level with
  | zero => exact absurd h List.not_mem_nil
  | succ level ih =>
    rw [Page.indentation, String.toList_append, List.mem_append] at h
    rcases h with hfirst | hrest
    · cases m with
      | spaces width =>
        rw [Margin.text, String.toList_ofList] at hfirst
        exact Or.inl (List.eq_of_mem_replicate hfirst)
      | tab => exact Or.inr (List.mem_singleton.mp hfirst)
    · exact ih hrest

theorem indentation_eq_nil_iff {m : Margin} {level : Nat} :
    (Page.indentation m level).toList = [] ↔ level = 0 ∨ m = .spaces 0 := by
  induction level with
  | zero => simp [Page.indentation]
  | succ level ih =>
    have htext : m.text.toList = [] ↔ m = .spaces 0 := by
      cases m <;> simp [Margin.text]
    rw [Page.indentation, String.toList_append, List.append_eq_nil_iff, ih, htext]
    exact ⟨fun hboth => Or.inr hboth.1,
      fun h => ⟨h.resolve_left level.succ_ne_zero, Or.inr (h.resolve_left level.succ_ne_zero)⟩⟩

theorem escapeTemplate_of_blanks {margin : List Char} (h : ∀ c ∈ margin, c = ' ' ∨ c = '\t')
    (s : List Char) : escapeTemplate (margin ++ s) = margin ++ escapeTemplate s := by
  induction margin with
  | nil => rfl
  | cons c cs ih =>
    have hrest := ih fun d hd => h d (List.mem_cons_of_mem c hd)
    rw [List.cons_append, escapeTemplate, hrest]
    rcases h c List.mem_cons_self with rfl | rfl
    · rfl
    · rfl

theorem head?_escapeTemplate_eq_feed {s : List Char} :
    (escapeTemplate s).head? = some '\n' ↔ s.head? = some '\n' := by
  cases s with
  | nil => rfl
  | cons c cs =>
    rw [escapeTemplate]
    split
    · rename_i hmark
      rcases hmark with rfl | rfl
      · simp
      · simp
    · split
      · rename_i hopen
        simp [hopen.1]
      · rfl

/-- Marking the characters of a text and setting its lines behind a margin may change
    places: the margin is not marked, and no mark looks across a line feed. -/
theorem escapeTemplate_hang {margin : List Char} (h : ∀ c ∈ margin, c = ' ' ∨ c = '\t')
    (s : List Char) : escapeTemplate (hang margin s) = hang margin (escapeTemplate s) := by
  induction s with
  | nil => rfl
  | cons c cs ih =>
    by_cases hfeed : c = '\n'
    · subst hfeed
      have hplain (rest : List Char) :
          escapeTemplate ('\n' :: rest) = '\n' :: escapeTemplate rest := rfl
      by_cases hempty : cs.head? = some '\n'
      · rw [hang_empty hempty, hplain, hplain, ih,
          hang_empty (head?_escapeTemplate_eq_feed.mpr hempty)]
      · rw [hang_feed hempty, hplain, hplain, escapeTemplate_of_blanks h, ih,
          hang_feed (mt head?_escapeTemplate_eq_feed.mp hempty)]
    · have hslash : '\\' ≠ '\n' := by decide
      rw [hang_of_ne hfeed, escapeTemplate, escapeTemplate, head?_hang, ih]
      by_cases hmark : c = '\\' ∨ c = '`'
      · rw [if_pos hmark, if_pos hmark, hang_of_ne hslash, hang_of_ne hfeed]
      · rw [if_neg hmark, if_neg hmark]
        by_cases hopen : c = '$' ∧ cs.head? = some '\x7b'
        · rw [if_pos hopen, if_pos hopen, hang_of_ne hslash, hang_of_ne hfeed]
        · rw [if_neg hopen, if_neg hopen, hang_of_ne hfeed]

/-! ### Constants on a page -/

theorem Constant.head_append_ne_empty (c : Constant) (s : String) : c.head ++ s ≠ "" := by
  intro hempty
  have hlength := congrArg String.length hempty
  simp only [head, String.length_append] at hlength
  have hequals : " = ".length = 3 := rfl
  have hnone : "".length = 0 := rfl
  omega

/-- A constant is written on a page as its head and its value, with the lines of the value
    behind the indentation of the page. -/
theorem Constant.putAll_layout (p : Page) (c : Constant) :
    p.putAll c.layout = { p with
      text := p.text ++ Page.indentation p.margin p.level ++ c.head ++
        String.ofList (hang (Page.indentation p.margin p.level).toList
          (c.value.source ++ ";").toList) ++ "\n" } := by
  obtain ⟨l, ls, hlines, hlayout⟩ := exists_layout_eq c
  have hlast : (c.value.source ++ ";").toList.getLast? ≠ some '\n' := by simp
  have hjoin := flatMap_indented (Page.indentation p.margin p.level).toList hlast hlines
  have hwritten : (p.margin.writeAll
      (((c.head ++ String.ofList l) :: ls.map String.ofList).map fun s => (p.level, s))).toList =
        (Page.indentation p.margin p.level).toList ++ c.head.toList ++
          (l ++ '\n' :: ls.flatMap (indented (Page.indentation p.margin p.level).toList)) := by
    rw [List.map_cons, Margin.writeAll_cons, Margin.write, if_neg (head_append_ne_empty c _),
      Margin.writeAll, String.toList_append]
    simp [toList_write, Function.comp_def, List.flatMap_def]
  rw [Page.putAll_eq, hlayout, Layout.linesAll_line, Page.mk.injEq]
  refine ⟨rfl, rfl, ?_⟩
  rw [← String.toList_inj, String.toList_append, hwritten, hjoin]
  simp

/-- **A template literal on an indented page.** Wherever a page stands, the constant for a
    text is written as its head, an opening backtick, a content, the closing backtick and a
    semicolon. The content is never left early. Without its backslashes it is the text with
    the indentation of the page in front of each line but the first. So it is the text
    itself exactly if the page does not indent or the text is a single line. -/
theorem Constant.putAll_template (p : Page) (name text : String) (type? : Option TypeExpr)
    (exported : Bool) :
    let c : Constant := ⟨name, .template text, type?, exported⟩
    ∃ content : List Char,
      p.putAll (Declaration.layout (.constant c)) = { p with
        text := p.text ++ Page.indentation p.margin p.level ++ c.head ++ "`" ++
          String.ofList content ++ "`;\n" } ∧
      staysInside content = true ∧
      unescape content = hang (Page.indentation p.margin p.level).toList text.toList ∧
      (unescape content = text.toList ↔
        p.level = 0 ∨ p.margin = .spaces 0 ∨ '\n' ∉ text.toList) := by
  intro c
  have hblanks : ∀ c ∈ (Page.indentation p.margin p.level).toList, c = ' ' ∨ c = '\t' :=
    fun _ => mem_indentation
  have hescape := escapeTemplate_hang hblanks text.toList
  refine ⟨escapeTemplate (hang (Page.indentation p.margin p.level).toList text.toList), ?_,
    staysInside_escapeTemplate _, unescape_escapeTemplate _, ?_⟩
  · have hsource : (c.value.source ++ ";").toList =
        '`' :: (escapeTemplate text.toList ++ ['`', ';']) := by
      simp [c, ConstantValue.source, templateLiteral]
    rw [Declaration.layout, putAll_layout, hsource, hang_literal, ← hescape, Page.mk.injEq]
    refine ⟨rfl, rfl, ?_⟩
    rw [← String.toList_inj]
    simp
  · rw [unescape_escapeTemplate, hang_eq_self_iff, indentation_eq_nil_iff, or_assoc]

/-- One level deep, a query of two lines gets a constant with another text. -/
theorem Constant.template_indented_twoLines :
    let c : Constant := ⟨"q", .template "SELECT 1\nFROM t", none, true⟩
    ((Page.empty .standard).indent.putAll (Declaration.layout (.constant c))).text =
        "  export const q = `SELECT 1\n  FROM t`;\n" ∧
      ¬∃ content : List Char,
        ((Page.empty .standard).indent.putAll (Declaration.layout (.constant c))).text =
          "  export const q = `" ++ String.ofList content ++ "`;\n" ∧
        unescape content = "SELECT 1\nFROM t".toList := by
  intro c
  have htext : ((Page.empty .standard).indent.putAll (Declaration.layout (.constant c))).text =
      "  export const q = `SELECT 1\n  FROM t`;\n" := by
    cbv
  refine ⟨htext, ?_⟩
  rintro ⟨content, hcontent, hunescape⟩
  have hwritten : "  export const q = `SELECT 1\n  FROM t`;\n" =
      "  export const q = `" ++ String.ofList "SELECT 1\n  FROM t".toList ++ "`;\n" := by
    cbv
  have heq : content = "SELECT 1\n  FROM t".toList := by
    rw [htext, hwritten, String.append_left_inj, String.append_right_inj] at hcontent
    exact (String.ofList_injective hcontent).symm
  rw [heq] at hunescape
  exact absurd hunescape (by simp [unescape])

end QueryClient.Script
