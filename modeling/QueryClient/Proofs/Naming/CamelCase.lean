/-
  QueryClient/Proofs/Naming/CamelCase.lean
  ========================================
  **Camel case, position by position.** An underscore goes exactly if a small ASCII letter
  stands right behind it (`foldsAt`), and that letter becomes a capital; nothing else
  changes (`foldUnderscores_eq`). What comes out has no such underscore left
  (`foldsAt_foldUnderscores`), so folding it again does nothing.

  Camel case a second time can therefore change the first letter alone. That one is the start
  of a small form, or the capital of a folded pair; both have a small form of one character
  (`exists_lower_of_camelCase_eq_cons`).
-/
import QueryClient.Proofs.Naming.FirstLetter

namespace QueryClient.Naming

/-! ### Underscores that go -/

/-- Does an underscore stand at the position, with a small ASCII letter right behind? -/
def foldsAt (s : List Char) (i : Nat) : Bool := s[i]? == some '_' && s[i + 1]?.any Char.isLower

theorem foldsAt_zero (c : Char) (cs : List Char) :
    foldsAt (c :: cs) 0 = (c == '_' && cs.head?.any Char.isLower) := by
  cases cs <;> simp [foldsAt]

theorem foldsAt_succ (c : Char) (cs : List Char) (i : Nat) :
    foldsAt (c :: cs) (i + 1) = foldsAt cs i := by
  simp [foldsAt]

theorem forall_foldsAt_cons {c : Char} {cs : List Char} :
    (∀ i, foldsAt (c :: cs) i = false) ↔
      foldsAt (c :: cs) 0 = false ∧ ∀ i, foldsAt cs i = false := by
  constructor
  · intro h
    exact ⟨h 0, fun i => (foldsAt_succ c cs i).symm.trans (h (i + 1))⟩
  · rintro ⟨hfirst, hrest⟩ i
    cases i with
    | zero => exact hfirst
    | succ i => exact (foldsAt_succ c cs i).trans (hrest i)

/-! ### What becomes of each position -/

/-- What stands for the character at a position: nothing for an underscore that goes, a
    capital right behind one, and the character itself elsewhere. -/
def foldedAt (s : List Char) (i : Nat) : Option Char :=
  if foldsAt s i then none
  else if 0 < i ∧ foldsAt s (i - 1) then s[i]?.map Char.toUpper
  else s[i]?

/-- The same for what is left of a text; `after` tells whether an underscore that goes
    stands right before it. -/
def foldedAfter (after : Bool) (s : List Char) (i : Nat) : Option Char :=
  if foldsAt s i then none
  else if (if i = 0 then after else foldsAt s (i - 1)) then s[i]?.map Char.toUpper
  else s[i]?

theorem foldedAfter_false (s : List Char) : foldedAfter false s = foldedAt s := by
  funext i
  cases i <;> simp [foldedAfter, foldedAt]

theorem foldedAfter_succ (after : Bool) (c : Char) (cs : List Char) (i : Nat) :
    foldedAfter after (c :: cs) (i + 1) = foldedAfter (foldsAt (c :: cs) 0) cs i := by
  cases i <;> simp [foldedAfter, foldsAt_succ]

theorem filterMap_foldedAfter_cons (after : Bool) (c : Char) (cs : List Char) :
    (List.range (c :: cs).length).filterMap (foldedAfter after (c :: cs)) =
      (foldedAfter after (c :: cs) 0).toList ++
        (List.range cs.length).filterMap (foldedAfter (foldsAt (c :: cs) 0) cs) := by
  have hshift : foldedAfter after (c :: cs) ∘ Nat.succ =
      foldedAfter (foldsAt (c :: cs) 0) cs := funext (foldedAfter_succ after c cs)
  rw [List.length_cons, List.range_succ_eq_map, List.filterMap_cons, List.filterMap_map, hshift]
  cases foldedAfter after (c :: cs) 0 <;> rfl

/-- Position by position and from left to right come to the same. A pair that is folded
    takes two positions. -/
theorem foldUnderscores_eq (s : List Char) :
    foldUnderscores s = (List.range s.length).filterMap (foldedAt s) := by
  rw [← foldedAfter_false]
  fun_induction foldUnderscores s with
  | case1 => rfl
  | case2 c =>
    have hstays : foldsAt [c] 0 = false := by simp [foldsAt_zero]
    rw [filterMap_foldedAfter_cons, foldedAfter, hstays]
    rfl
  | case3 c d cs hpair ih =>
    have hgoes : foldsAt (c :: d :: cs) 0 = true := by simp [foldsAt_zero, hpair.1, hpair.2]
    have hletter : foldsAt (d :: cs) 0 = false := by
      rw [foldsAt_zero, Bool.and_eq_false_iff, beq_eq_false_iff_ne]
      left
      rintro rfl
      exact absurd hpair.2 (by decide)
    rw [filterMap_foldedAfter_cons, filterMap_foldedAfter_cons, hletter, ← ih, foldedAfter, hgoes,
      foldedAfter, hletter]
    rfl
  | case4 c d cs hpair ih =>
    have hstays : foldsAt (c :: d :: cs) 0 = false := by
      simpa [foldsAt_zero] using hpair
    rw [filterMap_foldedAfter_cons, hstays, ← ih, foldedAfter, hstays]
    rfl

/-! ### Folding twice -/

/-- Folding leaves the first character or puts a capital there. -/
theorem head?_foldUnderscores (c : Char) (cs : List Char) :
    (foldUnderscores (c :: cs)).head? = some c ∨
      ∃ d : Char, d.isLower = true ∧ (foldUnderscores (c :: cs)).head? = some d.toUpper := by
  cases cs with
  | nil => exact Or.inl rfl
  | cons d ds =>
    rw [foldUnderscores]
    split
    · rename_i hpair
      exact Or.inr ⟨d, hpair.2, rfl⟩
    · exact Or.inl rfl

theorem foldsAt_foldUnderscores (s : List Char) : ∀ i, foldsAt (foldUnderscores s) i = false := by
  fun_induction foldUnderscores s with
  | case1 =>
    intro i
    simp [foldsAt]
  | case2 c => exact forall_foldsAt_cons.mpr ⟨by simp [foldsAt_zero], fun i => by simp [foldsAt]⟩
  | case3 c d cs hpair ih =>
    rw [forall_foldsAt_cons, foldsAt_zero, Bool.and_eq_false_iff, beq_eq_false_iff_ne]
    refine ⟨Or.inl ?_, ih⟩
    intro hcapital
    have hupper := (Text.capital_of_isLower hpair.2).1
    rw [hcapital] at hupper
    exact absurd hupper (by decide)
  | case4 c d cs hpair ih =>
    rw [forall_foldsAt_cons, foldsAt_zero]
    refine ⟨?_, ih⟩
    rcases head?_foldUnderscores d cs with hhead | ⟨e, he, hhead⟩
    · rw [hhead]
      simpa using hpair
    · rw [hhead, Option.any_some, (Text.capital_of_isLower he).2, Bool.and_false]

theorem foldUnderscores_of_foldsAt {s : List Char} (h : ∀ i, foldsAt s i = false) :
    foldUnderscores s = s := by
  fun_induction foldUnderscores s with
  | case1 => rfl
  | case2 c => rfl
  | case3 c d cs hpair ih =>
    have hgoes := (forall_foldsAt_cons.mp h).1
    rw [foldsAt_zero] at hgoes
    simp [hpair.1, hpair.2] at hgoes
  | case4 c d cs hpair ih => rw [ih (forall_foldsAt_cons.mp h).2]

/-- The first character of a name in camel case has a small form of one character: it is the
    start of a small form itself, or an ASCII capital. -/
theorem exists_lower_of_camelCase_eq_cons {s cs : List Char} {c : Char}
    (h : camelCase s = c :: cs) : ∃ d, Text.lower c = [d] := by
  cases s with
  | nil => cases h
  | cons first rest =>
    obtain ⟨d, ds, hlower, -⟩ := Text.exists_lower_eq_cons first
    have hcamel : camelCase (first :: rest) = foldUnderscores (d :: (ds ++ rest)) := by
      rw [camelCase, lowerFirst, hlower, List.cons_append]
    have hhead : (foldUnderscores (d :: (ds ++ rest))).head? = some c := by
      rw [← hcamel, h, List.head?_cons]
    rcases head?_foldUnderscores d (ds ++ rest) with hkept | ⟨e, he, hcapital⟩
    · have heq : d = c := Option.some.inj (hkept.symm.trans hhead)
      rw [← heq]
      exact Text.exists_lower_of_lower_eq_cons hlower
    · have heq : e.toUpper = c := Option.some.inj (hcapital.symm.trans hhead)
      rw [← heq]
      exact ⟨_, (Text.capital_of_isUpper (Text.capital_of_isLower he).1).1⟩

/-- The underscore is the small form of nothing else. -/
theorem eq_underscore_of_lower {c : Char} (h : Text.lower c = ['_']) : c = '_' := by
  by_cases hascii : c.toNat < 128
  · rw [Text.lower_of_ascii hascii, List.singleton_inj] at h
    have hsmall : ¬c.isUpper = true := fun hupper => toLower_ne_underscore hupper h
    rwa [Text.toLower_of_not_upper hsmall] at h
  · obtain ⟨d, hd, hforeign⟩ := Text.exists_mem_lower (Nat.le_of_not_lt hascii)
    rw [h, List.mem_singleton] at hd
    rw [hd] at hforeign
    exact absurd hforeign (by decide)

/-- **Camel case folds underscores before small letters.** No underscore with a small ASCII
    letter behind it is left. Against the name with a small first letter, just these
    underscores are missing and the letters behind them are capitals; all else stands as it
    stood and in its order. Camel case a second time makes the first letter small, in place,
    and changes nothing behind it. -/
theorem camelCase_folds (s : List Char) :
    (∀ i, ¬((camelCase s)[i]? = some '_' ∧
        ∃ c, (camelCase s)[i + 1]? = some c ∧ c.isLower = true)) ∧
      camelCase s = (List.range (lowerFirst s).length).filterMap (foldedAt (lowerFirst s)) ∧
      camelCase (camelCase s) = lowerFirst (camelCase s) ∧
      (camelCase (camelCase s)).tail = (camelCase s).tail := by
  have hfolded : ∀ i, foldsAt (camelCase s) i = false := foldsAt_foldUnderscores (lowerFirst s)
  refine ⟨?_, foldUnderscores_eq _, ?_⟩
  · rintro i ⟨hunderscore, c, hnext, hletter⟩
    have hleft := hfolded i
    rw [foldsAt, hunderscore, hnext] at hleft
    simp [hletter] at hleft
  · cases hcamel : camelCase s with
    | nil => exact ⟨rfl, rfl⟩
    | cons c cs =>
      obtain ⟨d, hlower⟩ := exists_lower_of_camelCase_eq_cons hcamel
      rw [hcamel, forall_foldsAt_cons] at hfolded
      have hfirst : foldsAt (d :: cs) 0 = false := by
        by_cases hunderscore : d = '_'
        · rw [hunderscore] at hlower ⊢
          rw [eq_underscore_of_lower hlower] at hfolded
          exact hfolded.1
        · rw [foldsAt_zero, beq_eq_false_iff_ne.mpr hunderscore, Bool.false_and]
      have hlowered : lowerFirst (c :: cs) = d :: cs := by
        rw [lowerFirst, hlower, List.singleton_append]
      have hsame : camelCase (c :: cs) = d :: cs := by
        rw [camelCase, hlowered]
        exact foldUnderscores_of_foldsAt (forall_foldsAt_cons.mpr ⟨hfirst, hfolded.2⟩)
      rw [hsame, hlowered]
      exact ⟨rfl, rfl⟩

end QueryClient.Naming
