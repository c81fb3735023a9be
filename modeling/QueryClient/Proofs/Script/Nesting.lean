/-
  QueryClient/Proofs/Script/Nesting.lean
  ======================================
  **Text that keeps to itself.** Source text is contained if it is plain ASCII without
  backticks and closes exactly the brackets that it opens, in the order in which they are
  nested. Such text neither opens a literal nor leaves the brackets that it stands in.

  Brackets are read with a stack of those that are still to be closed. A piece of source
  text need not be contained by itself: the line that opens a block leaves a bracket
  open, and the line behind the block closes it. `Shifts` says how a piece changes the
  stack, pieces in a row are put together by `Shifts.append`, and what a piece does at the
  top of the stack it does above any other stack (`Shifts.above`).
-/
import Mathlib.Logic.Basic
import QueryClient.Proofs.Naming.Identifier
import QueryClient.Proofs.Script.Lines
import QueryClient.Proofs.Text.Case

namespace QueryClient.Script

open Naming (isIdentifier isIdentifierChar)

/-! ### Reading brackets -/

/-- The bracket that closes an opening one. -/
def closing? (c : Char) : Option Char :=
  if c = '(' then some ')' else if c = '[' then some ']' else if c = '\x7b' then some '\x7d'
  else none

def isClosing (c : Char) : Bool := c = ')' ∨ c = ']' ∨ c = '\x7d'

/-- Read one character, given the closing brackets that are expected, the next one first:
    an opening bracket is to be closed before all others, and a closing bracket must be the
    one expected next. -/
def readBracket (expected : List Char) (c : Char) : Option (List Char) :=
  match closing? c, isClosing c, expected with
  | some e, _, _ => some (e :: expected)
  | none, false, _ => some expected
  | none, true, e :: es => if c = e then some es else none
  | none, true, [] => none

/-- The closing brackets that are expected after a text, if none stands in a wrong
    place. -/
def readBrackets (expected : List Char) (s : List Char) : Option (List Char) :=
  s.foldlM readBracket expected

/-- A piece of plain source text, between the brackets expected before it and those
    expected after it. -/
structure Shifts (before : List Char) (s : String) (after : List Char) : Prop where
  ascii : ∀ c ∈ s.toList, c.toNat < 128
  noBacktick : '`' ∉ s.toList
  nested : readBrackets before s.toList = some after

instance (before : List Char) (s : String) (after : List Char) :
    Decidable (Shifts before s after) :=
  decidable_of_iff (s.toList.all (·.toNat < 128) = true ∧ '`' ∉ s.toList ∧
    readBrackets before s.toList = some after)
    ⟨fun h => ⟨fun c hc => of_decide_eq_true (List.all_eq_true.mp h.1 c hc), h.2.1, h.2.2⟩,
      fun h => ⟨List.all_eq_true.mpr fun c hc => decide_eq_true (h.ascii c hc), h.noBacktick,
        h.nested⟩⟩

/-- Plain source text with every bracket in its place. -/
abbrev Contained (s : String) : Prop := Shifts [] s []

/-! ### Pieces in a row -/

theorem readBracket_above {before after : List Char} {c : Char}
    (h : readBracket before c = some after) (rest : List Char) :
    readBracket (before ++ rest) c = some (after ++ rest) := by
  unfold readBracket at h ⊢
  cases hopen : closing? c with
  | some e =>
    rw [hopen] at h
    cases h
    rfl
  | none =>
    rw [hopen] at h
    cases hclose : isClosing c with
    | false =>
      rw [hclose] at h
      cases h
      rfl
    | true =>
      rw [hclose] at h
      cases before with
      | nil => cases h
      | cons e es =>
        by_cases hc : c = e
        · simp only [List.cons_append, if_pos hc] at h ⊢
          cases h
          rfl
        · simp only [if_neg hc] at h
          cases h

theorem readBrackets_above {before after s : List Char}
    (h : readBrackets before s = some after) (rest : List Char) :
    readBrackets (before ++ rest) s = some (after ++ rest) := by
  induction s generalizing before with
  | nil =>
    cases h
    rfl
  | cons c s ih =>
    obtain ⟨next, hc, hs⟩ := Option.bind_eq_some_iff.mp h
    exact Option.bind_eq_some_iff.mpr ⟨next ++ rest, readBracket_above hc rest, ih hs⟩

section

variable {before between after : List Char} {s t : String}

/-- The brackets further out do not matter. -/
theorem Shifts.above (h : Shifts before s after) (rest : List Char) :
    Shifts (before ++ rest) s (after ++ rest) :=
  ⟨h.ascii, h.noBacktick, readBrackets_above h.nested rest⟩

theorem Shifts.append (hs : Shifts before s between) (ht : Shifts between t after) :
    Shifts before (s ++ t) after where
  ascii := by
    rw [String.toList_append]
    exact List.forall_mem_append.mpr ⟨hs.ascii, ht.ascii⟩
  noBacktick := by
    rw [String.toList_append, List.mem_append]
    exact not_or_intro hs.noBacktick ht.noBacktick
  nested := by
    rw [String.toList_append, readBrackets, List.foldlM_append]
    exact Option.bind_eq_some_iff.mpr ⟨between, hs.nested, ht.nested⟩

/-- Contained text may stand inside any brackets. -/
theorem Contained.within (h : Contained s) (expected : List Char) :
    Shifts expected s expected := h.above expected

theorem Shifts.append_contained (hs : Shifts before s after) (ht : Contained t) :
    Shifts before (s ++ t) after := hs.append (ht.within after)

theorem Contained.append (hs : Contained s) (ht : Contained t) : Contained (s ++ t) :=
  Shifts.append hs ht

theorem contained_ite {p : Prop} [Decidable p] (hs : Contained s) (ht : Contained t) :
    Contained (if p then s else t) := by
  by_cases h : p
  · rw [if_pos h]
    exact hs
  · rw [if_neg h]
    exact ht

theorem contained_intercalate {ss : List String} (ht : Contained t)
    (hss : ∀ s ∈ ss, Contained s) : Contained (t.intercalate ss) := by
  induction ss with
  | nil => exact (by decide : Contained "")
  | cons s ss ih =>
    have hs := hss s List.mem_cons_self
    have hrest := ih fun s hs => hss s (List.mem_cons_of_mem _ hs)
    cases ss with
    | nil =>
      rw [String.intercalate_singleton]
      exact hs
    | cons s' ss =>
      rw [String.intercalate_cons_cons]
      exact (hs.append ht).append hrest

end

/-! ### Identifiers -/

theorem lt_of_isIdentifierChar {c : Char} (h : isIdentifierChar c = true) : c.toNat < 128 := by
  simp only [isIdentifierChar, Bool.or_eq_true, beq_iff_eq] at h
  rcases h with (halphanum | rfl) | rfl
  · exact Text.toNat_lt_of_isAlphanum halphanum
  · decide
  · decide

theorem readBracket_of_isIdentifierChar {c : Char} (h : isIdentifierChar c = true)
    (expected : List Char) : readBracket expected c = some expected := by
  have hne {d : Char} (hd : isIdentifierChar d = false) : ¬c = d := by
    rintro rfl
    rw [h] at hd
    cases hd
  have hopen : closing? c = none := by
    rw [closing?, if_neg (hne (by decide)), if_neg (hne (by decide)), if_neg (hne (by decide))]
  have hclose : isClosing c = false := by
    rw [isClosing, decide_eq_false_iff_not]
    exact not_or_intro (hne (by decide)) (not_or_intro (hne (by decide)) (hne (by decide)))
  simp only [readBracket, hopen, hclose]

theorem readBrackets_of_all {s : List Char} (h : s.all isIdentifierChar = true)
    (expected : List Char) : readBrackets expected s = some expected := by
  induction s with
  | nil => rfl
  | cons c s ih =>
    obtain ⟨hc, hs⟩ := Bool.and_eq_true_iff.mp h
    exact Option.bind_eq_some_iff.mpr ⟨expected, readBracket_of_isIdentifierChar hc expected, ih hs⟩

theorem contained_of_all {s : String} (h : s.toList.all isIdentifierChar = true) :
    Contained s where
  ascii c hc := lt_of_isIdentifierChar (List.all_eq_true.mp h c hc)
  noBacktick hmem := absurd (List.all_eq_true.mp h _ hmem) (by decide)
  nested := readBrackets_of_all h []

theorem contained_of_isIdentifier {s : String} (h : isIdentifier s.toList = true) :
    Contained s := contained_of_all (Naming.all_of_isIdentifier h)

theorem contained_repr (n : Nat) : Contained n.repr := contained_of_all (Naming.all_repr n)

/-! ### Layouts -/

theorem contained_indentation (depth : Nat) :
    Contained (Page.indentation Margin.standard depth) := by
  induction depth with
  | zero => exact (by decide : Contained "")
  | succ depth ih => exact (by decide : Contained Margin.standard.text).append ih

theorem shifts_write {before after : List Char} {s : String} (h : Shifts before s after)
    (depth : Nat) : Shifts before (Margin.standard.write (depth, s)) after := by
  have hfeed : Contained "\n" := by decide
  rw [Margin.write]
  by_cases hs : s = ""
  · subst hs
    have hsame : before = after := Option.some.inj h.nested
    rw [if_pos rfl, hsame]
    exact hfeed.within after
  · rw [if_neg hs]
    exact (((contained_indentation depth).within before).append h).append_contained hfeed

namespace Layout

/-- Layouts are contained if their lines are, put together, at any depth. -/
def Contained (ls : List Layout) : Prop :=
  ∀ depth, Script.Contained (Margin.standard.writeAll (linesAll depth ls))

theorem contained_nil : Contained [] := by
  intro depth
  rw [linesAll, Margin.writeAll_nil]
  decide

theorem contained_append {ls rest : List Layout} (hls : Contained ls) (hrest : Contained rest) :
    Contained (ls ++ rest) := by
  intro depth
  rw [linesAll_append, Margin.writeAll_append]
  exact (hls depth).append (hrest depth)

theorem contained_cons {l : Layout} {rest : List Layout} (hl : Contained [l])
    (hrest : Contained rest) : Contained (l :: rest) := contained_append hl hrest

theorem contained_line {s : String} (h : Script.Contained s) : Contained [.line s] := by
  intro depth
  rw [linesAll, lines, linesAll, List.append_nil, Margin.writeAll_cons, Margin.writeAll_nil,
    String.append_empty]
  exact shifts_write h depth

theorem contained_lines {α : Type} {text : α → String} {xs : List α}
    (h : ∀ x ∈ xs, Script.Contained (text x)) :
    Contained (xs.map fun x => .line (text x)) := by
  induction xs with
  | nil => exact contained_nil
  | cons x xs ih =>
    exact contained_cons (contained_line (h x List.mem_cons_self))
      (ih fun x hx => h x (List.mem_cons_of_mem _ hx))

/-- A block may leave brackets open in its first line if the last one closes them. -/
theorem contained_block {header close : String} {body : List Layout} {expected : List Char}
    (hheader : Shifts [] header expected) (hbody : Contained body)
    (hclose : Shifts expected close []) : Contained [.block header body (some close)] := by
  intro depth
  rw [linesAll, lines, linesAll, List.append_nil, Margin.writeAll_cons, Margin.writeAll_append]
  change Shifts [] (_ ++ (_ ++ Margin.standard.writeAll [(depth, close)])) []
  rw [Margin.writeAll_cons, Margin.writeAll_nil, String.append_empty]
  exact (shifts_write hheader depth).append
    (((hbody (depth + 1)).within expected).append (shifts_write hclose depth))

theorem contained_render {ls : List Layout} (h : Contained ls) : Script.Contained (render ls) := by
  rw [render_eq]
  exact h 0

end Layout
end QueryClient.Script
