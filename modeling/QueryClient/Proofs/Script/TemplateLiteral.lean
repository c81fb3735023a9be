/-
  QueryClient/Proofs/Script/TemplateLiteral.lean
  ==============================================
  **A text stays inside its template literal.** Two readings of what stands between
  the backticks are defined without the writer: `staysInside` runs over it and tells
  whether the literal is left early, and `unescape` gives back what it stands for.
  What `escapeTemplate` writes passes the first and is undone by the second.

  The writer looks one character ahead, the readers look one character back, and the
  constant cuts the literal into lines in between; `flatMap_splitLines` says that
  the cutting loses nothing.
-/
import QueryClient.Proofs.Script.Lines

namespace QueryClient.Script

/-! ### Reading what stands between the backticks -/

/-- Does the content of a literal end where it is meant to end? Read from left to right,
    a backslash takes the next character with it; no backtick may stand by itself, no
    dollar sign by itself before an opening brace, and no backslash at the very end. -/
def staysInside : List Char → Bool
  | [] => true
  | c :: cs =>
    if c = '\\' then
      match cs with
      | [] => false
      | _ :: rest => staysInside rest
    else if c = '`' then false
    else if c = '$' ∧ cs.head? = some '\x7b' then false
    else staysInside cs

/-- The content of a literal with every pair of a backslash and a character replaced by
    that character. -/
def unescape : List Char → List Char
  | [] => []
  | c :: cs =>
    if c = '\\' then
      match cs with
      | [] => [c]
      | d :: rest => d :: unescape rest
    else c :: unescape cs

theorem staysInside_pair (c : Char) (cs : List Char) :
    staysInside ('\\' :: c :: cs) = staysInside cs := by
  rw [staysInside.eq_def]
  simp

theorem unescape_pair (c : Char) (cs : List Char) :
    unescape ('\\' :: c :: cs) = c :: unescape cs := by
  rw [unescape.eq_def]
  simp

theorem staysInside_plain {c : Char} {cs : List Char} (hslash : c ≠ '\\') (htick : c ≠ '`')
    (hdollar : ¬(c = '$' ∧ cs.head? = some '\x7b')) :
    staysInside (c :: cs) = staysInside cs := by
  rw [staysInside.eq_def]
  simp only [if_neg hslash, if_neg htick, if_neg hdollar]

theorem unescape_plain {c : Char} {cs : List Char} (hslash : c ≠ '\\') :
    unescape (c :: cs) = c :: unescape cs := by
  rw [unescape.eq_def]
  simp only [if_neg hslash]

/-! ### Reading what the writer wrote -/

/-- An opening brace at the front is there already before escaping: escaping puts
    nothing but backslashes in front. -/
theorem head?_of_head?_escapeTemplate {s : List Char}
    (h : (escapeTemplate s).head? = some '\x7b') : s.head? = some '\x7b' := by
  cases s with
  | nil => simp [escapeTemplate] at h
  | cons c cs =>
    rw [escapeTemplate] at h
    split at h
    · simp at h
    · split at h
      · simp at h
      · simpa using h

theorem staysInside_escapeTemplate (s : List Char) : staysInside (escapeTemplate s) = true := by
  induction s with
  | nil => rfl
  | cons c cs ih =>
    rw [escapeTemplate]
    by_cases hmark : c = '\\' ∨ c = '`'
    · rw [if_pos hmark, staysInside_pair, ih]
    · rw [if_neg hmark]
      by_cases hopen : c = '$' ∧ cs.head? = some '\x7b'
      · rw [if_pos hopen, staysInside_pair, ih]
      · obtain ⟨hslash, htick⟩ := not_or.mp hmark
        -- the reader looks at the escaped rest, where the writer looked at the text
        have hdollar : ¬(c = '$' ∧ (escapeTemplate cs).head? = some '\x7b') :=
          fun h => hopen ⟨h.1, head?_of_head?_escapeTemplate h.2⟩
        rw [if_neg hopen, staysInside_plain hslash htick hdollar, ih]

theorem unescape_escapeTemplate (s : List Char) : unescape (escapeTemplate s) = s := by
  induction s with
  | nil => rfl
  | cons c cs ih =>
    rw [escapeTemplate]
    by_cases hmark : c = '\\' ∨ c = '`'
    · rw [if_pos hmark, unescape_pair, ih]
    · rw [if_neg hmark]
      by_cases hopen : c = '$' ∧ cs.head? = some '\x7b'
      · rw [if_pos hopen, unescape_pair, ih]
      · rw [if_neg hopen, unescape_plain (not_or.mp hmark).1, ih]

/-! ### The constant around the literal -/

namespace Constant

theorem splitLines_ne_nil (s : List Char) : splitLines s ≠ [] := by
  cases s with
  | nil => simp [splitLines]
  | cons c cs =>
    rw [splitLines]
    split
    · simp
    · split <;> simp

/-- The lines of a text, each with a line feed behind it, are the text and a line feed. -/
theorem flatMap_splitLines (s : List Char) :
    (splitLines s).flatMap (· ++ ['\n']) = s ++ ['\n'] := by
  induction s with
  | nil => rfl
  | cons c cs ih =>
    rw [splitLines]
    by_cases hfeed : c = '\n'
    · rw [if_pos hfeed, List.flatMap_cons, ih, hfeed]
      rfl
    · rw [if_neg hfeed]
      cases hlines : splitLines cs with
      | nil => exact absurd hlines (splitLines_ne_nil cs)
      | cons l ls =>
        rw [hlines, List.flatMap_cons] at ih
        simp only [List.flatMap_cons, List.cons_append, ih]

/-- The lines of a constant: its head shares a line with the first line of the value. -/
theorem exists_layout_eq (c : Constant) :
    ∃ l ls, splitLines (c.value.source ++ ";").toList = l :: ls ∧
      c.layout = ((c.head ++ String.ofList l) :: ls.map String.ofList).map Layout.line := by
  obtain ⟨l, ls, hlines⟩ :=
    List.exists_cons_of_ne_nil (splitLines_ne_nil (c.value.source ++ ";").toList)
  refine ⟨l, ls, hlines, ?_⟩
  rw [layout, hlines]
  simp [Function.comp_def]

/-- The text of a constant: its lines come back together, whatever its value. -/
theorem text_eq (c : Constant) :
    Declaration.text (.constant c) = c.head ++ c.value.source ++ ";\n" := by
  obtain ⟨l, ls, hlines, hlayout⟩ := exists_layout_eq c
  have hjoin := flatMap_splitLines (c.value.source ++ ";").toList
  rw [hlines, List.flatMap_cons] at hjoin
  have hrender : (Layout.render c.layout).toList =
      c.head.toList ++ ((l ++ ['\n']) ++ ls.flatMap (· ++ ['\n'])) := by
    rw [hlayout, Layout.render_lines]
    simp [List.flatMap_map]
  rw [Declaration.text, Declaration.layout, ← String.toList_inj, hrender, hjoin]
  simp

end Constant

/-- **A text cannot leave its template literal.** In a file, between any other
    declarations, the constant for a text is the name, an opening backtick, a content,
    the closing backtick and a semicolon. The content is never left early, and without
    its backslashes it is the text, character for character. -/
theorem SourceFile.text_templateConstant (banner? : Option String)
    (before after : List Declaration) (name text : String) :
    ∃ content : List Char,
      SourceFile.text
          ⟨banner?, before ++ .constant ⟨name, .template text, none, true⟩ :: after⟩ =
        "\n".intercalate ((banner?.map (· ++ "\n")).toList ++ before.map Declaration.text ++
          ("export const " ++ name ++ " = `" ++ String.ofList content ++ "`;\n") ::
            after.map Declaration.text) ∧
      staysInside content = true ∧
      unescape content = text.toList := by
  refine ⟨escapeTemplate text.toList, ?_, staysInside_escapeTemplate _,
    unescape_escapeTemplate _⟩
  have hconstant : Declaration.text (.constant ⟨name, .template text, none, true⟩) =
      "export const " ++ name ++ " = `" ++ String.ofList (escapeTemplate text.toList) ++
        "`;\n" := by
    rw [Constant.text_eq]
    simp [Constant.head, keyword, Constant.ascription, ConstantValue.source, templateLiteral,
      ← String.toList_inj]
  rw [text_eq_intercalate, List.map_append, List.map_cons, hconstant, List.append_assoc]

end QueryClient.Script
