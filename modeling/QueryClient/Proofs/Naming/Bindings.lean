/-
  QueryClient/Proofs/Naming/Bindings.lean
  =======================================
  **Which functions can be declared.** A module of the generated language may not bind a
  reserved word, nor `eval` or `arguments`. Reserved words are kept clear of by an underscore
  in front, and no word of either kind starts with an underscore (`unbindable_shape`); so all
  that can go wrong are the two words that are not in the list of reserved words.

  Which queries lead to one of them is read backwards through the naming: where an underscore
  is missing, nothing has been replaced (`eq_of_sanitize_eq`), and only ASCII letters have one
  of these letters for a small form (`eq_of_lower_append_eq`).
-/
import QueryClient.Proofs.Naming.FirstLetter

namespace QueryClient

/-! ### First letters, read backwards -/

namespace Text

/-- In ASCII a small letter is the small form of itself and of its capital. -/
theorem eq_or_eq_of_toLower {c : Char} (hc : c.toNat < 128) (h : c.toLower.isLower = true) :
    c = c.toLower ∨ c = c.toLower.toUpper :=
  forall_ascii (P := fun c => c.toLower.isLower = true → c = c.toLower ∨ c = c.toLower.toUpper)
    (by decide) hc h

theorem lower_of_isLower {c : Char} (h : c.isLower = true) :
    lower c = [c] ∧ lower c.toUpper = [c] := by
  have hletter : c.isLower = true → c.toLower = c ∧ c.toUpper.toNat < 128 ∧
      c.toUpper.toLower = c :=
    forall_ascii (P := fun c => c.isLower = true → c.toLower = c ∧ c.toUpper.toNat < 128 ∧
      c.toUpper.toLower = c) (by decide) (toNat_lt_of_isLower h)
  obtain ⟨hsmall, hascii, hcapital⟩ := hletter h
  rw [lower_of_ascii (toNat_lt_of_isLower h), lower_of_ascii hascii, hsmall, hcapital]
  exact ⟨rfl, rfl⟩

/-- A word in small letters other than `k` starts with the small form of an ASCII letter
    only: any other small form would bring a foreign character or a `k` along. -/
theorem eq_of_lower_append_eq {c d : Char} {cs ds : List Char} (h : lower c ++ cs = d :: ds)
    (hletters : ∀ e ∈ d :: ds, e.isLower = true ∧ e ≠ 'k') :
    (c = d ∨ c = d.toUpper) ∧ cs = ds := by
  have hascii : c.toNat < 128 := by
    apply Nat.lt_of_not_le
    intro hforeign
    obtain ⟨e, he, hsmall⟩ := exists_mem_lower hforeign
    have hmem : e ∈ d :: ds := by
      rw [← h]
      exact List.mem_append_left cs he
    obtain ⟨hletter, hk⟩ := hletters e hmem
    rcases hsmall with rfl | hle
    · exact hk rfl
    · exact Nat.not_le.mpr (toNat_lt_of_isLower hletter) hle
  rw [lower_of_ascii hascii] at h
  obtain ⟨rfl, htail⟩ := List.cons.inj h
  exact ⟨eq_or_eq_of_toLower hascii (hletters _ List.mem_cons_self).1, htail⟩

end Text

namespace Naming

/-! ### Identifiers, read backwards -/

/-- An identifier without underscores is what it was made of. -/
theorem eq_of_sanitize_eq {s t : List Char} (h : sanitize s = t) (ht : '_' ∉ t) : s = t := by
  have hreplaced : replaceForeign s = t := by
    rw [sanitize] at h
    cases hforeign : replaceForeign s with
    | nil =>
      rw [hforeign] at h
      rw [← h] at ht
      exact absurd (List.mem_singleton_self _) ht
    | cons c cs =>
      rw [hforeign] at h
      dsimp only at h
      by_cases hdigit : c.isDigit = true
      · rw [if_pos hdigit] at h
        rw [← h] at ht
        exact absurd List.mem_cons_self ht
      · rw [if_neg hdigit] at h
        exact h
  have hkeep : ∀ c ∈ s, (if isIdentifierChar c then c else '_') = c := by
    intro c hc
    by_cases hchar : isIdentifierChar c = true
    · exact if_pos hchar
    · have hmem : '_' ∈ replaceForeign s := List.mem_map.mpr ⟨c, hc, if_neg hchar⟩
      rw [hreplaced] at hmem
      exact absurd hmem ht
  rw [← hreplaced, replaceForeign, List.map_congr_left hkeep, List.map_id']

/-! ### Words that cannot be bound -/

/-- The words that no declaration in a module may bind, by the grammar of the generated
    language: the reserved words, those reserved in strict code, `await`, and the two names
    that strict code may not bind. -/
def unbindable : List String :=
  ["break", "case", "catch", "class", "const", "continue", "debugger", "default", "delete", "do",
   "else", "enum", "export", "extends", "false", "finally", "for", "function", "if", "import",
   "in", "instanceof", "new", "null", "return", "super", "switch", "this", "throw", "true", "try",
   "typeof", "var", "void", "while", "with",
   "implements", "interface", "let", "package", "private", "protected", "public", "static", "yield",
   "await", "eval", "arguments"]

/-- No such word starts with an underscore, and all but two are reserved words. -/
theorem unbindable_shape : ∀ w ∈ unbindable,
    w.toList.head? ≠ some '_' ∧ (w ∈ reservedWords ∨ w = "eval" ∨ w = "arguments") := by
  decide

/-- Keeping clear of reserved words leaves two words that cannot be bound, where they have
    been before. -/
theorem avoidReserved_mem_unbindable_iff (s : String) :
    avoidReserved s ∈ unbindable ↔ s = "eval" ∨ s = "arguments" := by
  constructor
  · intro hmem
    by_cases hreserved : isReserved s = true
    · rw [avoidReserved, if_pos hreserved] at hmem
      have hhead := (unbindable_shape _ hmem).1
      rw [String.toList_append] at hhead
      exact absurd rfl hhead
    · rw [avoidReserved, if_neg hreserved] at hmem
      rcases (unbindable_shape s hmem).2 with hword | htwo
      · exact absurd (List.contains_iff_mem.mpr hword) hreserved
      · exact htwo
  · rintro (rfl | rfl)
    · decide
    · decide

/-- The name of the function before it is kept clear of reserved words: a word in small
    letters comes from itself, and from itself with a capital in front. -/
theorem sanitize_lowerFirst_eq_iff (c : Char) (cs : List Char)
    (hletters : ∀ e ∈ c :: cs, e.isLower = true ∧ e ≠ 'k') (query : List Char) :
    sanitize (lowerFirst query) = c :: cs ↔ query = c :: cs ∨ query = c.toUpper :: cs := by
  have hc := (hletters c List.mem_cons_self).1
  have hunderscore : '_' ∉ c :: cs := fun hmem => absurd (hletters '_' hmem).1 (by decide)
  have hword : sanitize (c :: cs) = c :: cs := by
    apply sanitize_of_isIdentifier
    apply isIdentifier_letter
    · exact Text.isAlpha_of_isLower hc
    · intro d hd
      have hlower := (hletters d (List.mem_cons_of_mem c hd)).1
      exact Text.isAlphanum_of_isAlpha (Text.isAlpha_of_isLower hlower)
  obtain ⟨hsmall, hcapital⟩ := Text.lower_of_isLower hc
  constructor
  · intro h
    have hlower := eq_of_sanitize_eq h hunderscore
    cases query with
    | nil => cases hlower
    | cons d ds =>
      obtain ⟨rfl | rfl, rfl⟩ := Text.eq_of_lower_append_eq hlower hletters
      · exact Or.inl rfl
      · exact Or.inr rfl
  · rintro (rfl | rfl)
    · rw [lowerFirst, hsmall]
      exact hword
    · rw [lowerFirst, hcapital]
      exact hword

/-! ### Functions -/

/-- **Function names.** Whatever a query is called, its function is called by an identifier.
    A module can declare a function of that name, save for the queries named `eval` and
    `arguments`, with a small or a capital letter in front: these names are not reserved
    words, but cannot be bound either. -/
theorem functionName_bindable (query : String) :
    isIdentifier (functionName query).toList = true ∧
      (functionName query ∈ unbindable ↔
        query = "eval" ∨ query = "Eval" ∨ query = "arguments" ∨ query = "Arguments") := by
  refine ⟨isIdentifier_functionName query, ?_⟩
  have heval := sanitize_lowerFirst_eq_iff 'e' ['v', 'a', 'l'] (by simp) query.toList
  have harguments := sanitize_lowerFirst_eq_iff 'a' ['r', 'g', 'u', 'm', 'e', 'n', 't', 's']
    (by simp) query.toList
  have htext (s : List Char) (name : String) : String.ofList s = name ↔ s = name.toList := by
    rw [← String.toList_inj, String.toList_ofList]
  have hname (name : String) : query = name ↔ query.toList = name.toList := String.toList_inj.symm
  rw [functionName, avoidReserved_mem_unbindable_iff, htext, htext, hname "eval", hname "Eval",
    hname "arguments", hname "Arguments"]
  exact (or_congr heval harguments).trans or_assoc

/-- A query that has no legal function: `eval` is no reserved word, and is handed on. -/
theorem functionName_unbindable_eval :
    functionName "Eval" = "eval" ∧ functionName "Eval" ∈ unbindable := by
  decide +kernel

end Naming
end QueryClient
