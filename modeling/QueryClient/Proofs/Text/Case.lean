/-
  QueryClient/Proofs/Text/Case.lean
  =================================
  **Small forms of single characters.** None of them starts with a capital, or with the one
  letter that has a longer small form (`exists_lower_eq_cons`). In ASCII the full mapping is
  the plain one (`lower_of_ascii`). Outside ASCII it stays outside: every small form has a
  character outside ASCII in it, save for that of the Kelvin sign, which is `k`
  (`exists_mem_lower`).

  All of it is read off the table of runs, of which only the first one starts in ASCII
  (`lowerRuns_lead`, `lowerRuns_apart`).
-/
import Mathlib.Logic.Basic
import QueryClient.Text.Blank
import QueryClient.Text.Case

namespace QueryClient.Text

/-! ### Letters and digits of ASCII -/

theorem isUpper_iff {c : Char} : c.isUpper = true ↔ 65 ≤ c.toNat ∧ c.toNat ≤ 90 :=
  decide_eq_true_iff.trans (and_congr UInt32.le_iff_toNat_le UInt32.le_iff_toNat_le)

theorem isLower_iff {c : Char} : c.isLower = true ↔ 97 ≤ c.toNat ∧ c.toNat ≤ 122 :=
  Bool.and_eq_true_iff.trans (and_congr (decide_eq_true_iff.trans UInt32.le_iff_toNat_le)
    (decide_eq_true_iff.trans UInt32.le_iff_toNat_le))

theorem isDigit_iff {c : Char} : c.isDigit = true ↔ 48 ≤ c.toNat ∧ c.toNat ≤ 57 :=
  Bool.and_eq_true_iff.trans (and_congr (decide_eq_true_iff.trans UInt32.le_iff_toNat_le)
    (decide_eq_true_iff.trans UInt32.le_iff_toNat_le))

theorem isAlpha_of_isUpper {c : Char} (h : c.isUpper = true) : c.isAlpha = true :=
  Bool.or_eq_true_iff.mpr (.inl h)

theorem isAlpha_of_isLower {c : Char} (h : c.isLower = true) : c.isAlpha = true :=
  Bool.or_eq_true_iff.mpr (.inr h)

theorem isAlphanum_of_isAlpha {c : Char} (h : c.isAlpha = true) : c.isAlphanum = true :=
  Bool.or_eq_true_iff.mpr (.inl h)

theorem toNat_lt_of_isLower {c : Char} (h : c.isLower = true) : c.toNat < 128 :=
  Nat.lt_of_le_of_lt (isLower_iff.mp h).2 (by decide)

theorem toNat_lt_of_isAlphanum {c : Char} (h : c.isAlphanum = true) : c.toNat < 128 := by
  rcases Bool.or_eq_true_iff.mp h with hletter | hdigit
  · rcases Bool.or_eq_true_iff.mp hletter with hupper | hlower
    · exact Nat.lt_of_le_of_lt (isUpper_iff.mp hupper).2 (by decide)
    · exact toNat_lt_of_isLower hlower
  · exact Nat.lt_of_le_of_lt (isDigit_iff.mp hdigit).2 (by decide)

/-! ### Capitals -/

theorem toLower_of_not_upper {c : Char} (h : ¬c.isUpper = true) : c.toLower = c :=
  dif_neg fun hrange => h (decide_eq_true hrange)

/-- A number that is no code point is read as the first one. -/
theorem toNat_ofNat (n : Nat) : (Char.ofNat n).toNat = if n.isValidChar then n else 0 := by
  by_cases h : n.isValidChar
  · rw [Char.ofNat, dif_pos h, if_pos h]
    rfl
  · rw [Char.ofNat, dif_neg h, if_neg h]
    rfl

theorem lookup_lowerExpansions {n : Nat} (h : n ≠ 0x130) : lowerExpansions.lookup n = none := by
  rw [lowerExpansions, List.lookup_cons, beq_false_of_ne h]
  rfl

/-- No run leads to a capital, nor to the one letter with a longer small form. -/
theorem lowerRuns_lead : ∀ r ∈ lowerRuns,
    ((r.last : Int) + r.shift < 65 ∨ 90 < (r.first : Int) + r.shift) ∧
      ((r.last : Int) + r.shift < 0x130 ∨ 0x130 < (r.first : Int) + r.shift) := by
  decide +kernel

/-- No small form starts with a capital: neither a run nor an expansion leads to one, and the
    capitals themselves have small forms. Nor does one start with the letter that has a
    longer small form. -/
theorem exists_lower_eq_cons (c : Char) :
    ∃ d ds, lower c = d :: ds ∧ d.isUpper = false ∧ d.toNat ≠ 0x130 := by
  rw [lower, mapCase]
  cases hrun : lowerRuns.find? (·.covers c.toNat) with
  | some r =>
    have hlead := lowerRuns_lead r (List.mem_of_find?_eq_some hrun)
    have hcovers := List.find?_some hrun
    simp only [CaseRun.covers, Bool.and_eq_true, decide_eq_true_eq] at hcovers
    refine ⟨_, [], rfl, ?_⟩
    rw [← Bool.not_eq_true, isUpper_iff, toNat_ofNat]
    split
    · omega
    · decide
  | none =>
    by_cases hcode : c.toNat = 0x130
    · rw [hcode]
      exact ⟨_, _, rfl, by decide, by decide⟩
    · rw [lookup_lowerExpansions hcode]
      refine ⟨c, [], rfl, ?_, hcode⟩
      rw [← Bool.not_eq_true, isUpper_iff]
      intro hrange
      have hcapitals : (⟨0x41, 0x5A, 1, 32⟩ : CaseRun) ∈ lowerRuns := List.mem_cons_self
      have hmissed := List.find?_eq_none.mp hrun _ hcapitals
      simp [CaseRun.covers, hrange, Nat.mod_one] at hmissed

/-- An ASCII capital has the small letter of ASCII, from which it comes back, and is its own
    capital form. -/
theorem capital_letters : ∀ n < 91, 65 ≤ n →
    lower (Char.ofNat n) = [(Char.ofNat n).toLower] ∧ upper (Char.ofNat n) = [Char.ofNat n] ∧
      (Char.ofNat n).toLower.toUpper = Char.ofNat n ∧ (Char.ofNat n).toLower.isLower = true := by
  decide +kernel

theorem capital_of_isUpper {c : Char} (h : c.isUpper = true) :
    lower c = [c.toLower] ∧ upper c = [c] ∧ c.toLower.toUpper = c ∧
      c.toLower.isLower = true := by
  have hrange := isUpper_iff.mp h
  have hletter := capital_letters c.toNat (by omega) hrange.1
  rw [Char.ofNat_toNat] at hletter
  exact hletter

/-! ### Inside and outside ASCII -/

theorem toLower_of_not_ascii {c : Char} (h : 128 ≤ c.toNat) : c.toLower = c := by
  apply toLower_of_not_upper
  rw [isUpper_iff]
  omega

/-- The ASCII capitals are one run. Every other run leads from outside ASCII to outside
    ASCII, with one exception. -/
theorem lowerRuns_apart : ∀ r ∈ lowerRuns, 65 ≤ r.first ∧ r.last ≤ 90 ∨
    r = ⟨0x212A, 0x212A, 1, -8383⟩ ∨
    128 ≤ r.first ∧ 128 ≤ r.first + r.shift ∧
      (r.last + r.shift < 0xD800 ∨ 0xDFFF < r.first + r.shift ∧ r.last + r.shift < 0x110000) := by
  decide +kernel

theorem lower_of_ascii {c : Char} (h : c.toNat < 128) : lower c = [c.toLower] := by
  by_cases hupper : c.isUpper = true
  · exact (capital_of_isUpper hupper).1
  · have hrun : lowerRuns.find? (·.covers c.toNat) = none := by
      rw [List.find?_eq_none]
      intro r hr hcovers
      rw [isUpper_iff] at hupper
      simp only [CaseRun.covers, Bool.and_eq_true, decide_eq_true_eq] at hcovers
      rcases lowerRuns_apart r hr with hcapitals | rfl | hforeign
      · omega
      · dsimp only at hcovers
        omega
      · omega
    have hcode : c.toNat ≠ 0x130 := by omega
    rw [lower, mapCase, hrun, lookup_lowerExpansions hcode, toLower_of_not_upper hupper]

/-- What the first 128 code points have in common, every ASCII character has. -/
theorem forall_ascii {P : Char → Prop} (h : ∀ n < 128, P (Char.ofNat n)) {c : Char}
    (hc : c.toNat < 128) : P c := by
  have hcode := h c.toNat hc
  rwa [Char.ofNat_toNat] at hcode

theorem toLower_toLower (c : Char) : c.toLower.toLower = c.toLower := by
  by_cases h : c.toNat < 128
  · exact forall_ascii (P := fun c => c.toLower.toLower = c.toLower) (by decide) h
  · rw [toLower_of_not_ascii (Nat.le_of_not_lt h), toLower_of_not_ascii (Nat.le_of_not_lt h)]

theorem capital_of_isLower {c : Char} (h : c.isLower = true) :
    c.toUpper.isUpper = true ∧ c.toUpper.isLower = false :=
  forall_ascii (P := fun c => c.isLower = true → c.toUpper.isUpper = true ∧
    c.toUpper.isLower = false) (by decide) (toNat_lt_of_isLower h) h

theorem lower_toLower (c : Char) : lower c.toLower = lower c := by
  by_cases h : c.toNat < 128
  · have hascii : c.toLower.toNat < 128 :=
      forall_ascii (P := fun c => c.toLower.toNat < 128) (by decide) h
    rw [lower_of_ascii h, lower_of_ascii hascii, toLower_toLower]
  · rw [toLower_of_not_ascii (Nat.le_of_not_lt h)]

theorem isBlank_toLower (c : Char) : isBlank c.toLower = isBlank c := by
  by_cases h : c.toNat < 128
  · exact forall_ascii (P := fun c => isBlank c.toLower = isBlank c) (by decide) h
  · rw [toLower_of_not_ascii (Nat.le_of_not_lt h)]

theorem toLower_eq_dot_iff (c : Char) : c.toLower = '.' ↔ c = '.' := by
  by_cases h : c.toNat < 128
  · exact forall_ascii (P := fun c => c.toLower = '.' ↔ c = '.') (by decide) h
  · rw [toLower_of_not_ascii (Nat.le_of_not_lt h)]

/-- What becomes of a character outside ASCII is outside ASCII, save for the `k` that the
    Kelvin sign becomes. -/
theorem exists_mem_lower {c : Char} (h : 128 ≤ c.toNat) :
    ∃ d ∈ lower c, d = 'k' ∨ 128 ≤ d.toNat := by
  rw [lower, mapCase]
  cases hrun : lowerRuns.find? (·.covers c.toNat) with
  | some r =>
    have hcovers := List.find?_some hrun
    simp only [CaseRun.covers, Bool.and_eq_true, decide_eq_true_eq] at hcovers
    refine ⟨_, List.mem_singleton_self _, ?_⟩
    rcases lowerRuns_apart r (List.mem_of_find?_eq_some hrun) with
      hcapitals | rfl | ⟨-, hfirst, hvalid⟩
    · omega
    · left
      have hkelvin : c.toNat = 0x212A := by
        dsimp only at hcovers
        omega
      rw [hkelvin]
      decide
    · right
      have hchar : (c.toNat + r.shift).toNat.isValidChar := by
        rw [Nat.isValidChar]
        omega
      rw [toNat_ofNat, if_pos hchar]
      omega
  | none =>
    cases hexpansion : lowerExpansions.lookup c.toNat with
    | some ns =>
      by_cases hcode : c.toNat = 0x130
      · rw [hcode] at hexpansion
        cases hexpansion
        refine ⟨Char.ofNat 0x307, ?_, Or.inr (by decide)⟩
        exact List.mem_cons_of_mem _ (List.mem_singleton_self _)
      · rw [lookup_lowerExpansions hcode] at hexpansion
        cases hexpansion
    | none => exact ⟨c, List.mem_singleton_self c, Or.inr h⟩

/-! ### Small forms of one character -/

/-- Only the capital I with a dot above has a longer small form. -/
theorem exists_lower_eq_singleton {c : Char} (h : c.toNat ≠ 0x130) : ∃ d, lower c = [d] := by
  rw [lower, mapCase, lookup_lowerExpansions h]
  cases lowerRuns.find? (·.covers c.toNat) with
  | some r => exact ⟨_, rfl⟩
  | none => exact ⟨c, rfl⟩

/-- No small form starts with that letter, so none has a longer small form itself. -/
theorem exists_lower_of_lower_eq_cons {c d : Char} {ds : List Char} (h : lower c = d :: ds) :
    ∃ e, lower d = [e] := by
  obtain ⟨e, es, hlower, -, hcode⟩ := exists_lower_eq_cons c
  obtain ⟨rfl, -⟩ := List.cons_eq_cons.mp (h.symm.trans hlower)
  exact exists_lower_eq_singleton hcode

end QueryClient.Text
