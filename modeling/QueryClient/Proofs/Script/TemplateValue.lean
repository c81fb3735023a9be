/-
  QueryClient/Proofs/Script/TemplateValue.lean
  ============================================
  **What a template literal stands for when the generated code runs.** The generated
  language reads the content of a literal by rules of its own, which are written down here
  as a machine that takes one character at a time (`cookFrom`). Its strings consist of
  16-bit code units. A backslash opens an escape, of which there are many more than the
  writer uses; and before anything else a carriage return in the source, with a line feed
  behind it or alone, counts as one line feed.

  The writer marks what would leave the literal, but it does not mark carriage returns. So
  the value of the literal is the text with its carriage returns read as line feeds
  (`cook_escapeTemplate`), and it is the text itself exactly if there are none.
-/
import QueryClient.Proofs.Generation.Outcome
import QueryClient.Proofs.Script.TemplateLiteral

namespace QueryClient

namespace Script

/-! ### Code units -/

/-- A code point as code units: itself, or a pair of them past the first 65536. -/
def codeUnits (n : Nat) : List Nat :=
  if n < 0x10000 then [n]
  else [0xD800 + (n - 0x10000) / 0x400, 0xDC00 + (n - 0x10000) % 0x400]

def unitsOf (s : List Char) : List Nat := s.flatMap fun c => codeUnits c.toNat

/-! ### Reading the content of a literal -/

/-- The reader between two characters.

    - `plain`: outside of any escape;
    - `dollar`: behind a dollar sign, where a brace would open a substitution;
    - `returned`: behind a carriage return, to which a line feed still belongs;
    - `escaped`: behind a backslash;
    - `zero`: behind the escape of the null character, where no digit may stand;
    - `hex`: in an escape with so many digits to come;
    - `unicode`: in an escape that goes on with four digits or a brace;
    - `braced`: between the braces of an escape, with the value of the digits so far. -/
inductive LiteralState where
  | plain
  | dollar
  | returned
  | escaped
  | zero
  | hex (due value : Nat)
  | unicode
  | braced (value? : Option Nat)
deriving DecidableEq, Repr

/-- The letters that stand for control characters behind a backslash. -/
def controlEscapes : List (Char × Nat) :=
  [('b', 0x08), ('t', 0x09), ('n', 0x0A), ('v', 0x0B), ('f', 0x0C), ('r', 0x0D)]

def hexValue? (c : Char) : Option Nat :=
  if c.isDigit then some (c.toNat - '0'.toNat)
  else if 'a' ≤ c ∧ c ≤ 'f' then some (c.toNat - 'a'.toNat + 10)
  else if 'A' ≤ c ∧ c ≤ 'F' then some (c.toNat - 'A'.toNat + 10)
  else none

namespace LiteralState

/-- A character outside of any escape. -/
def start (c : Char) : Option (List Nat × LiteralState) :=
  if c = '`' then none
  else if c = '\\' then some ([], .escaped)
  else if c = '$' then some (codeUnits c.toNat, .dollar)
  else if c = '\r' then some ([0x0A], .returned)
  else some (codeUnits c.toNat, .plain)

/-- The character behind a backslash. At the end of a line the backslash takes the line
    end with it; a character without a meaning of its own stands for itself. -/
def escape (c : Char) : Option (List Nat × LiteralState) :=
  match controlEscapes.lookup c with
  | some n => some ([n], .plain)
  | none =>
    if c = '0' then some ([0], .zero)
    else if c.isDigit then none
    else if c = 'x' then some ([], .hex 2 0)
    else if c = 'u' then some ([], .unicode)
    else if c = '\r' then some ([], .returned)
    else if c = '\n' ∨ c = '\u2028' ∨ c = '\u2029' then some ([], .plain)
    else some (codeUnits c.toNat, .plain)

/-- A digit of an escape with a fixed number of digits. -/
def digit (due value : Nat) (c : Char) : Option (List Nat × LiteralState) :=
  match hexValue? c with
  | none => none
  | some d =>
    if due ≤ 1 then some ([value * 16 + d], .plain) else some ([], .hex (due - 1) (value * 16 + d))

/-- A character between the braces of an escape: one more digit of a code point, or the
    closing brace behind at least one digit. -/
def inBraces (value? : Option Nat) (c : Char) : Option (List Nat × LiteralState) :=
  if c = '\x7d' then value?.map fun n => (codeUnits n, .plain)
  else
    match hexValue? c with
    | none => none
    | some d =>
      let n := value?.getD 0 * 16 + d
      if n < 0x110000 then some ([], .braced (some n)) else none

/-- One character: the code units that it adds, and the next state. Nothing comes of a
    character that ends the literal or may not stand there. -/
def step : LiteralState → Char → Option (List Nat × LiteralState)
  | .plain, c => start c
  | .dollar, c => if c = '\x7b' then none else start c
  | .returned, c => if c = '\n' then some ([], .plain) else start c
  | .escaped, c => escape c
  | .zero, c => if c.isDigit then none else start c
  | .hex due value, c => digit due value c
  | .unicode, c => if c = '\x7b' then some ([], .braced none) else digit 4 0 c
  | .braced value?, c => inBraces value? c

/-- May the literal end here? Not inside an escape. -/
def mayEnd : LiteralState → Bool
  | .plain => true
  | .dollar => true
  | .returned => true
  | .zero => true
  | _ => false

end LiteralState

/-- The code units that the content of a literal stands for, read on from a state. -/
def cookFrom : LiteralState → List Char → Option (List Nat)
  | st, [] => if st.mayEnd then some [] else none
  | st, c :: cs =>
    match st.step c with
    | none => none
    | some (us, next) => (cookFrom next cs).map (us ++ ·)

/-- The value of a literal with this content, unless the literal ends before the content
    does, holds a substitution, or has an escape that there is not. -/
def cook (content : List Char) : Option (List Nat) := cookFrom .plain content

/-- Escapes of all forms, and what is no content of a literal. -/
example : cook "a\\n\\x41\\u00e9\\u\x7b1F600\x7d\\\r\n\\`$".toList =
    some [0x61, 0x0A, 0x41, 0xE9, 0xD83D, 0xDE00, 0x60, 0x24] ∧
    cook "a\r\nb\rc".toList = some [0x61, 0x0A, 0x62, 0x0A, 0x63] ∧
    cook "$\x7bx\x7d".toList = none ∧ cook "`".toList = none ∧ cook "\\1".toList = none := by
  decide +kernel

/-! ### Carriage returns -/

/-- Each carriage return, with a line feed behind it or alone, becomes one line feed;
    `returned` tells that a carriage return stands right before. -/
def readReturns : (returned : Bool) → List Char → List Char
  | _, [] => []
  | returned, c :: cs =>
    if c = '\r' then '\n' :: readReturns true cs
    else if returned ∧ c = '\n' then readReturns false cs
    else c :: readReturns false cs

theorem readReturns_of_ne {c : Char} (hreturn : c ≠ '\r') (cs : List Char) :
    readReturns false (c :: cs) = c :: readReturns false cs := by
  have hnext : ¬(false = true ∧ c = '\n') := fun hboth => Bool.false_ne_true hboth.1
  rw [readReturns, if_neg hreturn, if_neg hnext]

theorem readReturns_of_notMem {s : List Char} (h : '\r' ∉ s) : readReturns false s = s := by
  induction s with
  | nil => rfl
  | cons c cs ih =>
    rw [List.mem_cons, not_or] at h
    rw [readReturns_of_ne (Ne.symm h.1), ih h.2]

theorem notMem_readReturns (returned : Bool) (s : List Char) : '\r' ∉ readReturns returned s := by
  induction s generalizing returned with
  | nil => exact List.not_mem_nil
  | cons c cs ih =>
    rw [readReturns]
    split
    · rw [List.mem_cons, not_or]
      exact ⟨by decide, ih true⟩
    · rename_i hreturn
      split
      · exact ih false
      · rw [List.mem_cons, not_or]
        exact ⟨Ne.symm hreturn, ih false⟩

theorem mem_unitsOf_return {s : List Char} : 0x0D ∈ unitsOf s ↔ '\r' ∈ s := by
  constructor
  · intro h
    obtain ⟨c, hc, hunit⟩ := List.mem_flatMap.mp h
    have hvalue : c.toNat = 0x0D := by
      rw [codeUnits] at hunit
      split at hunit
      · exact (List.mem_singleton.mp hunit).symm
      · -- both halves of a pair lie far above
        simp only [List.mem_cons, List.not_mem_nil, or_false] at hunit
        omega
    have heq : c = '\r' := Char.toNat_inj.mp hvalue
    exact heq ▸ hc
  · intro h
    exact List.mem_flatMap.mpr ⟨'\r', h, by decide⟩

/-- The code units of a text change with its carriage returns, and only with them. -/
theorem unitsOf_readReturns_eq_iff {s : List Char} :
    unitsOf (readReturns false s) = unitsOf s ↔ '\r' ∉ s := by
  constructor
  · intro h hmem
    rw [← mem_unitsOf_return, ← h, mem_unitsOf_return] at hmem
    exact notMem_readReturns false s hmem
  · intro h
    rw [readReturns_of_notMem h]

/-! ### Reading what the writer wrote -/

theorem cookFrom_cons {st next : LiteralState} {c : Char} {us : List Nat}
    (h : st.step c = some (us, next)) (cs : List Char) :
    cookFrom st (c :: cs) = (cookFrom next cs).map (us ++ ·) := by
  rw [cookFrom, h]

theorem cookFrom_dollar {s : List Char} (h : s.head? ≠ some '\x7b') :
    cookFrom .dollar s = cookFrom .plain s := by
  cases s with
  | nil => rfl
  | cons c cs =>
    have hc : c ≠ '\x7b' := fun heq => h (by rw [heq]; rfl)
    rw [cookFrom, cookFrom, LiteralState.step, LiteralState.step, if_neg hc]

theorem cookFrom_returned {s : List Char} (h : s.head? ≠ some '\n') :
    cookFrom .returned s = cookFrom .plain s := by
  cases s with
  | nil => rfl
  | cons c cs =>
    have hc : c ≠ '\n' := fun heq => h (by rw [heq]; rfl)
    rw [cookFrom, cookFrom, LiteralState.step, LiteralState.step, if_neg hc]

/-- The three characters that the writer marks stand for themselves behind the mark. -/
theorem cookFrom_pair {c : Char} (hc : c = '\\' ∨ c = '`' ∨ c = '$') (cs : List Char) :
    cookFrom .plain ('\\' :: c :: cs) = (cookFrom .plain cs).map (codeUnits c.toNat ++ ·) := by
  have hmark : LiteralState.step .plain '\\' = some ([], .escaped) := by decide
  have hself : LiteralState.step .escaped c = some (codeUnits c.toNat, .plain) := by
    rcases hc with rfl | rfl | rfl <;> decide
  rw [cookFrom_cons hmark, cookFrom_cons hself, Option.map_map]
  rfl

theorem head?_escapeTemplate_ne_feed {c : Char} (hc : c ≠ '\n') (cs : List Char) :
    (escapeTemplate (c :: cs)).head? ≠ some '\n' := by
  rw [escapeTemplate]
  split
  · simp
  · split
    · simp
    · simpa using hc

theorem unitsOf_cons (c : Char) (cs : List Char) :
    unitsOf (c :: cs) = codeUnits c.toNat ++ unitsOf cs := by
  rw [unitsOf, List.flatMap_cons]
  rfl

/-- One character more in front of what is read right. A carriage return leaves the reader
    in a state of its own, so both states are carried through the text. -/
theorem cookFrom_plain_escapeTemplate {c : Char} {cs : List Char}
    (hplain : cookFrom .plain (escapeTemplate cs) = some (unitsOf (readReturns false cs)))
    (hreturned : cookFrom .returned (escapeTemplate cs) = some (unitsOf (readReturns true cs))) :
    cookFrom .plain (escapeTemplate (c :: cs)) = some (unitsOf (readReturns false (c :: cs))) := by
  have hpair (hc : c = '\\' ∨ c = '`' ∨ c = '$') :
      cookFrom .plain ('\\' :: c :: escapeTemplate cs) =
        some (unitsOf (readReturns false (c :: cs))) := by
    have hreturn : c ≠ '\r' := by rcases hc with rfl | rfl | rfl <;> decide
    rw [cookFrom_pair hc, hplain, readReturns_of_ne hreturn, unitsOf_cons]
    rfl
  rw [escapeTemplate]
  by_cases hmark : c = '\\' ∨ c = '`'
  · rw [if_pos hmark]
    exact hpair (hmark.imp_right Or.inl)
  rw [if_neg hmark]
  obtain ⟨hslash, htick⟩ := not_or.mp hmark
  by_cases hopen : c = '$' ∧ cs.head? = some '\x7b'
  · rw [if_pos hopen]
    exact hpair (Or.inr (Or.inr hopen.1))
  rw [if_neg hopen]
  by_cases hdollar : c = '$'
  · subst hdollar
    have hbrace : (escapeTemplate cs).head? ≠ some '\x7b' :=
      fun h => hopen ⟨rfl, head?_of_head?_escapeTemplate h⟩
    have hstep : LiteralState.step .plain '$' = some (codeUnits '$'.toNat, .dollar) := by decide
    rw [cookFrom_cons hstep, cookFrom_dollar hbrace, hplain, readReturns_of_ne (by decide),
      unitsOf_cons]
    rfl
  by_cases hreturn : c = '\r'
  · subst hreturn
    have hstep : LiteralState.step .plain '\r' = some ([0x0A], .returned) := by decide
    rw [cookFrom_cons hstep, hreturned, readReturns, if_pos rfl, unitsOf_cons]
    rfl
  · have hstep : LiteralState.step .plain c = some (codeUnits c.toNat, .plain) := by
      simp only [LiteralState.step, LiteralState.start, if_neg htick, if_neg hslash,
        if_neg hdollar, if_neg hreturn]
    rw [cookFrom_cons hstep, hplain, readReturns_of_ne hreturn, unitsOf_cons]
    rfl

theorem cookFrom_returned_escapeTemplate {c : Char} {cs : List Char}
    (hplain : cookFrom .plain (escapeTemplate cs) = some (unitsOf (readReturns false cs)))
    (hfront : cookFrom .plain (escapeTemplate (c :: cs)) =
      some (unitsOf (readReturns false (c :: cs)))) :
    cookFrom .returned (escapeTemplate (c :: cs)) = some (unitsOf (readReturns true (c :: cs))) := by
  by_cases hfeed : c = '\n'
  · -- the line feed has been counted with the carriage return
    subst hfeed
    have hwritten : escapeTemplate ('\n' :: cs) = '\n' :: escapeTemplate cs := by
      rw [escapeTemplate, if_neg (by decide), if_neg (by simp)]
    have hstep : LiteralState.step .returned '\n' = some ([], .plain) := by decide
    rw [hwritten, cookFrom_cons hstep, hplain, readReturns, if_neg (by decide),
      if_pos ⟨rfl, rfl⟩]
    rfl
  · have hsame : readReturns true (c :: cs) = readReturns false (c :: cs) := by
      simp only [readReturns, hfeed, and_false]
    rw [cookFrom_returned (head?_escapeTemplate_ne_feed hfeed cs), hfront, hsame]

/-- The value of the literal for a text is the text with its carriage returns read as line
    feeds. -/
theorem cook_escapeTemplate (s : List Char) :
    cook (escapeTemplate s) = some (unitsOf (readReturns false s)) := by
  have hboth : cookFrom .plain (escapeTemplate s) = some (unitsOf (readReturns false s)) ∧
      cookFrom .returned (escapeTemplate s) = some (unitsOf (readReturns true s)) := by
    induction s with
    | nil => exact ⟨rfl, rfl⟩
    | cons c cs ih =>
      have hfront := cookFrom_plain_escapeTemplate (c := c) ih.1 ih.2
      exact ⟨hfront, cookFrom_returned_escapeTemplate ih.1 hfront⟩
  exact hboth.1

theorem Constant.text_template (name text : String) :
    Declaration.text (.constant ⟨name, .template text, none, true⟩) =
      "export const " ++ name ++ " = `" ++ String.ofList (escapeTemplate text.toList) ++
        "`;\n" := by
  rw [Constant.text_eq]
  simp [Constant.head, keyword, Constant.ascription, ConstantValue.source, templateLiteral,
    ← String.toList_inj]

end Script

/-! ### The constant of a query -/

open Script

namespace Query

theorem mem_annotatedText_return {q : Query} :
    '\r' ∈ q.annotatedText.toList ↔ '\r' ∈ q.name.toList ∨ '\r' ∈ q.text.toList := by
  have htag : '\r' ∉ q.command.tag.toList := by cases q.command <;> decide
  simp [annotatedText, htag]

/-- **The value of a query's constant.** The constant is a template literal under the name
    for it. When the generated code runs, its value is the annotation, a line feed and the
    text of the query, but for carriage returns: each is read as a line feed, together with
    a line feed behind it. So the value is the annotated text exactly if neither the name
    nor the text of the query has a carriage return. -/
theorem constant_value {d : Driver} {q : Query} {ds : QueryDeclarations}
    (h : q.declarations d = .ok ds) :
    ∃ content : List Char,
      Declaration.text (.constant ds.constant) =
        "export const " ++ q.constantName ++ " = `" ++ String.ofList content ++ "`;\n" ∧
      cook content = some (unitsOf (readReturns false
        ("-- name: " ++ q.name ++ " " ++ q.command.tag ++ "\n" ++ q.text).toList)) ∧
      (cook content = some (unitsOf
          ("-- name: " ++ q.name ++ " " ++ q.command.tag ++ "\n" ++ q.text).toList) ↔
        '\r' ∉ q.name.toList ∧ '\r' ∉ q.text.toList) := by
  obtain ⟨f, -, rfl⟩ := declarations_eq_ok_iff.mp h
  refine ⟨escapeTemplate q.annotatedText.toList, Constant.text_template _ _,
    cook_escapeTemplate _, ?_⟩
  change cook (escapeTemplate q.annotatedText.toList) = some (unitsOf q.annotatedText.toList) ↔ _
  rw [cook_escapeTemplate, Option.some_inj, unitsOf_readReturns_eq_iff, mem_annotatedText_return,
    not_or]

/-- A text with everything that is marked, a character beyond the first 65536 and line ends
    of both kinds. -/
def marked : Query :=
  .plain "Odd\\`" .one "SELECT '\\n', `a`, '$\x7bx\x7d', '😀'\r\nFROM t\n" "query.sql"

theorem constant_value_marked :
    ∃ ds, marked.declarations .turso = .ok ds ∧ ∃ content : List Char,
      Declaration.text (.constant ds.constant) =
        "export const " ++ marked.constantName ++ " = `" ++ String.ofList content ++ "`;\n" ∧
      cook content = some (unitsOf (readReturns false ("-- name: " ++ marked.name ++ " " ++
        marked.command.tag ++ "\n" ++ marked.text).toList)) ∧
      (cook content = some (unitsOf
          ("-- name: " ++ marked.name ++ " " ++ marked.command.tag ++ "\n" ++ marked.text).toList) ↔
        '\r' ∉ marked.name.toList ∧ '\r' ∉ marked.text.toList) := by
  have hdeclarations : marked.declarations .turso = .ok _ :=
    declarations_eq_ok_iff.mpr ⟨_, rfl, rfl⟩
  exact ⟨_, hdeclarations, constant_value hdeclarations⟩

/-- A text with the line ends of another system: its constant has another value. -/
theorem constant_value_loses_return :
    let q := Query.plain "GetIds" .many "SELECT id\r\nFROM t" "query.sql"
    ∃ ds content, q.declarations .pg = .ok ds ∧
      Declaration.text (.constant ds.constant) =
        "export const getIdsQuery = `" ++ String.ofList content ++ "`;\n" ∧
      cook content = some (unitsOf "-- name: GetIds :many\nSELECT id\nFROM t".toList) ∧
      cook content ≠ some (unitsOf "-- name: GetIds :many\nSELECT id\r\nFROM t".toList) := by
  intro q
  have hdeclarations : q.declarations .pg = .ok _ := declarations_eq_ok_iff.mpr ⟨_, rfl, rfl⟩
  refine ⟨_, "-- name: GetIds :many\nSELECT id\r\nFROM t".toList, hdeclarations, ?_, ?_, ?_⟩
  · exact (Constant.text_template _ _).trans (by decide +kernel)
  · decide +kernel
  · decide +kernel

end Query
end QueryClient
