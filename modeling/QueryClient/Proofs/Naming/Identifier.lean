/-
  QueryClient/Proofs/Naming/Identifier.lean
  =========================================
  **Generated names are identifiers.** Whatever text a name is made of, `sanitize`
  turns it into an identifier, and an identifier stays one when identifier characters,
  such as the digits of a number, are put behind it.
-/
import QueryClient.Naming.Supply

namespace QueryClient.Naming

/-! ### Identifier characters -/

theorem isIdentifierChar_of_isDigit {c : Char} (h : c.isDigit = true) :
    isIdentifierChar c = true := by
  simp [isIdentifierChar, Char.isAlphanum, h]

theorem all_repr (n : Nat) : n.repr.toList.all isIdentifierChar = true := by
  rw [List.all_eq_true]
  intro c hc
  rw [Nat.toList_repr] at hc
  exact isIdentifierChar_of_isDigit (Nat.isDigit_of_mem_toDigits (by decide) (by decide) hc)

theorem all_replaceForeign (s : List Char) :
    (replaceForeign s).all isIdentifierChar = true := by
  rw [List.all_eq_true]
  intro c hc
  obtain ⟨d, -, rfl⟩ := List.mem_map.mp hc
  by_cases hd : isIdentifierChar d = true
  · rw [if_pos hd, hd]
  · rw [if_neg hd]
    decide

/-! ### Identifiers -/

theorem all_of_isIdentifier {s : List Char} (h : isIdentifier s = true) :
    s.all isIdentifierChar = true := by
  cases s with
  | nil => rfl
  | cons c cs => exact (Bool.and_eq_true_iff.mp h).2

theorem isIdentifier_append {s t : List Char} (hs : isIdentifier s = true)
    (ht : t.all isIdentifierChar = true) : isIdentifier (s ++ t) = true := by
  cases s with
  | nil => cases hs
  | cons c cs =>
    obtain ⟨hdigit, hall⟩ := Bool.and_eq_true_iff.mp hs
    refine Bool.and_eq_true_iff.mpr ⟨hdigit, ?_⟩
    show ((c :: cs) ++ t).all isIdentifierChar = true
    rw [List.all_append, hall, ht]
    rfl

theorem isIdentifier_sanitize (s : List Char) : isIdentifier (sanitize s) = true := by
  have hall := all_replaceForeign s
  rw [sanitize]
  cases hforeign : replaceForeign s with
  | nil => rfl
  | cons c cs =>
    rw [hforeign] at hall
    show isIdentifier (if c.isDigit then '_' :: c :: cs else c :: cs) = true
    by_cases hdigit : c.isDigit = true
    · -- a leading digit gets an underscore in front
      rw [if_pos hdigit]
      exact isIdentifier_append (s := ['_']) rfl hall
    · rw [if_neg hdigit]
      simp only [isIdentifier, hdigit, hall, Bool.not_false, Bool.and_self]

theorem isIdentifier_fieldName (column : String) :
    isIdentifier (fieldName column).toList = true := by
  rw [fieldName, String.toList_ofList]
  exact isIdentifier_sanitize _

theorem isIdentifier_avoidReserved {s : String} (h : isIdentifier s.toList = true) :
    isIdentifier (avoidReserved s).toList = true := by
  rw [avoidReserved]
  by_cases hreserved : isReserved s = true
  · rw [if_pos hreserved, String.toList_append]
    exact isIdentifier_append (s := ['_']) rfl (all_of_isIdentifier h)
  · rw [if_neg hreserved]
    exact h

theorem isIdentifier_functionName (query : String) :
    isIdentifier (functionName query).toList = true := by
  apply isIdentifier_avoidReserved
  rw [String.toList_ofList]
  exact isIdentifier_sanitize _

theorem isIdentifier_typeName (query : String) :
    isIdentifier (typeName query).toList = true := by
  apply isIdentifier_avoidReserved
  rw [String.toList_ofList]
  exact isIdentifier_sanitize _

theorem isIdentifier_numbered {base : String} (h : isIdentifier base.toList = true) (n : Nat) :
    isIdentifier (Supply.numbered base n).toList = true := by
  rw [Supply.numbered]
  by_cases hn : n ≤ 1
  · rw [if_pos hn]
    exact h
  · rw [if_neg hn, String.toList_append, String.toList_append]
    exact isIdentifier_append (isIdentifier_append h (by decide)) (all_repr n)

theorem isIdentifier_of_mem_baseNames {fallback : String}
    (hfallback : isIdentifier fallback.toList = true) {i : Nat}
    {declared : List (Option String)} {name : String}
    (h : name ∈ baseNames fallback i declared) : isIdentifier name.toList = true := by
  induction declared generalizing i with
  | nil => cases h
  | cons column? rest ih =>
    cases column? with
    | some column =>
      rcases List.mem_cons.mp h with rfl | hrest
      · exact isIdentifier_fieldName column
      · exact ih hrest
    | none =>
      rcases List.mem_cons.mp h with rfl | hrest
      · rw [String.toList_append]
        exact isIdentifier_append hfallback (all_repr i)
      · exact ih hrest

end QueryClient.Naming
