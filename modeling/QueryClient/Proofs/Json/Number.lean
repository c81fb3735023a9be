/-
  QueryClient/Proofs/Json/Number.lean
  ===================================
  **Passing over numbers.** Whoever passes over a number looks at its digits only; whoever
  reads it works out what it is. Both stop at the same place: a number that can be read can be
  passed over (`skipNumber_of_numberRest`).
-/
import QueryClient.Proofs.Json.Context

namespace QueryClient.Json

/-! ### Digits and what may follow them -/

/-- Behind the digits of a whole number: a fraction, an exponent, or neither. -/
def skipTail : Reader Unit := do
  let b ← peek
  if b = some 0x2E then skipFraction
  else if b = some 0x65 ∨ b = some 0x45 then skipExponent
  else pure ()

/-- Behind the digits of a fraction: an exponent, if there is one. -/
def skipMark : Reader Unit := do
  let b ← peek
  if b = some 0x65 ∨ b = some 0x45 then skipExponent
  else pure ()

theorem skipDigits_eq (bs : Bytes) :
    skipDigits bs = .ok ((bs.takeWhile isDigit).length, bs.dropWhile isDigit) := rfl

theorem length_ne_zero {ds : Bytes} (h : ds ≠ []) : ds.length ≠ 0 :=
  fun hlength => h (List.length_eq_zero_iff.mp hlength)

theorem skipNumber_eq {b : UInt8} {cs : Bytes} (hdigit : isDigit b = true)
    (hzero : b = 0x30 → cs.takeWhile isDigit = []) :
    skipNumber (b :: cs) = skipTail (cs.dropWhile isDigit) := by
  have hsingle : ¬(some b = some 0x30 ∧ ((b :: cs).takeWhile isDigit).length ≠ 1) := by
    rintro ⟨hb, hlength⟩
    rw [List.takeWhile_cons, if_pos hdigit, hzero (Option.some.inj hb)] at hlength
    exact hlength rfl
  have hnonempty : (b :: cs).takeWhile isDigit ≠ [] := by
    rw [List.takeWhile_cons, if_pos hdigit]
    exact List.cons_ne_nil _ _
  rw [skipNumber, peek_bind, bind_eq (skipDigits_eq (b :: cs)), if_neg (length_ne_zero hnonempty),
    if_neg hsingle, List.dropWhile_cons, if_pos hdigit]
  rfl

theorem skipFraction_cons {b : UInt8} {cs : Bytes} (h : cs.takeWhile isDigit ≠ []) :
    skipFraction (b :: cs) = skipMark (cs.dropWhile isDigit) := by
  rw [skipFraction, advance_bind, bind_eq (skipDigits_eq cs), if_neg (length_ne_zero h)]
  rfl

theorem skipExponent_cons {b : UInt8} {cs : Bytes} (h : (behindSign cs).takeWhile isDigit ≠ []) :
    skipExponent (b :: cs) = .ok ((), (behindSign cs).dropWhile isDigit) := by
  have hdigits : (do
      let digits ← skipDigits
      if digits = 0 then stopAtNext .badNumber else pure () : Reader Unit) (behindSign cs) =
        .ok ((), (behindSign cs).dropWhile isDigit) := by
    rw [bind_eq (skipDigits_eq _), if_neg (length_ne_zero h)]
    rfl
  rw [← hdigits, behindSign]
  change (if cs.head? = some 0x2B ∨ cs.head? = some 0x2D then _ else _ : Reader Unit) cs = _
  by_cases hsign : cs.head? = some 0x2B ∨ cs.head? = some 0x2D
  · rw [if_pos hsign, if_pos hsign]
    rfl
  · rw [if_neg hsign, if_neg hsign]

theorem takeDigits_of_not_isDigit {bs : Bytes} (h : bs.takeWhile isDigit = []) (n k : Nat) :
    takeDigits n k bs = ((n, k, false), bs) := by
  cases bs with
  | nil => rfl
  | cons b cs =>
    have hdigit : isDigit b = false := by
      by_contra htrue
      rw [Bool.not_eq_false] at htrue
      rw [List.takeWhile_cons, if_pos htrue] at h
      cases h
    rw [takeDigits, hdigit]
    rfl

/-- Digits are taken up to their end, or up to one that is too much. -/
theorem dropWhile_takeDigits (n k : Nat) (bs : Bytes) :
    (takeDigits n k bs).2.dropWhile isDigit = bs.dropWhile isDigit ∧
      ((takeDigits n k bs).1.2.2 = false → (takeDigits n k bs).2 = bs.dropWhile isDigit) := by
  induction bs generalizing n k with
  | nil => exact ⟨rfl, fun _ => rfl⟩
  | cons b bs ih =>
    rw [takeDigits]
    by_cases hdigit : isDigit b = true
    · by_cases hlarge : maxNatural < n * 10 + digitValue b
      · rw [if_pos hdigit, if_pos hlarge]
        exact ⟨rfl, fun hfull => Bool.noConfusion hfull⟩
      · rw [if_pos hdigit, if_neg hlarge, List.dropWhile_cons, if_pos hdigit]
        exact ih _ _
    · rw [if_neg hdigit, List.dropWhile_cons, if_neg hdigit]
      exact ⟨rfl, fun _ => rfl⟩

theorem dropWhile_takeExponent (e : Nat) (bs : Bytes) :
    (takeExponent e bs).2.dropWhile isDigit = bs.dropWhile isDigit ∧
      ((takeExponent e bs).1.isSome = true → (takeExponent e bs).2 = bs.dropWhile isDigit) := by
  induction bs generalizing e with
  | nil => exact ⟨rfl, fun _ => rfl⟩
  | cons b bs ih =>
    rw [takeExponent]
    by_cases hdigit : isDigit b = true
    · by_cases hlarge : maxExponent < e * 10 + digitValue b
      · rw [if_pos hdigit, if_pos hlarge, List.dropWhile_cons, if_pos hdigit]
        exact ⟨rfl, fun hsome => Bool.noConfusion hsome⟩
      · rw [if_pos hdigit, if_neg hlarge, List.dropWhile_cons, if_pos hdigit]
        exact ih _
    · rw [if_neg hdigit, List.dropWhile_cons, if_neg hdigit]
      exact ⟨rfl, fun _ => rfl⟩

theorem eq_of_double {negative : Bool} {n : Nat} {exponent : Int} {bs rest : Bytes} {x : Number}
    (h : double negative n exponent bs = .ok (x, rest)) : bs = rest := by
  rw [double] at h
  cases hmagnitude : toMagnitude? n exponent with
  | none =>
    rw [hmagnitude] at h
    cases h
  | some y =>
    rw [hmagnitude] at h
    cases h
    rfl

theorem skipExponent_of_exponentPart {negative : Bool} {n : Nat} {exponent : Int} {b : UInt8}
    {cs rest : Bytes} {x : Number}
    (h : exponentPart negative n exponent (b :: cs) = .ok (x, rest)) :
    skipExponent (b :: cs) = .ok ((), rest) := by
  rw [exponentPart_cons] at h
  cases hsign : behindSign cs with
  | nil =>
    rw [hsign] at h
    cases h
  | cons d ds =>
    rw [hsign, exponentDigits, peek_bind] at h
    dsimp only at h
    by_cases hdigit : isDigit d = true
    · have hnonempty : (behindSign cs).takeWhile isDigit ≠ [] := by
        rw [hsign, List.takeWhile_cons, if_pos hdigit]
        exact List.cons_ne_nil _ _
      have hrest : rest = (behindSign cs).dropWhile isDigit := by
        obtain ⟨hdrop, hexact⟩ := dropWhile_takeExponent 0 (d :: ds)
        rw [if_pos hdigit] at h
        rw [hsign]
        rcases htake : takeExponent 0 (d :: ds) with ⟨_ | e, mid⟩
        · rw [htake] at h hdrop
          dsimp only at h
          split at h
          · cases h
          · cases h
            exact hdrop
        · rw [htake] at h hexact
          rw [← eq_of_double h]
          exact hexact rfl
      rw [skipExponent_cons hnonempty, hrest]
    · rw [if_neg hdigit] at h
      cases h

theorem skipMark_of_afterDigits {negative : Bool} {n : Nat} {exponent : Int} {bs rest : Bytes}
    {x : Number} (h : afterDigits negative n exponent bs = .ok (x, rest)) :
    skipMark bs = .ok ((), rest) := by
  cases bs with
  | nil =>
    have hrest : ([] : Bytes) = rest := eq_of_double h
    rw [← hrest]
    rfl
  | cons b cs =>
    rw [afterDigits, peek_bind] at h
    rw [skipMark, peek_bind]
    simp only [Option.some.injEq]
    dsimp only at h
    by_cases hmark : b = 0x65 ∨ b = 0x45
    · rw [if_pos hmark] at h ⊢
      exact skipExponent_of_exponentPart h
    · rw [if_neg hmark] at h ⊢
      rw [eq_of_double h]
      rfl

theorem skipFraction_of_fractionPart {negative : Bool} {n : Nat} {exponent : Int} {b : UInt8}
    {cs rest : Bytes} {x : Number}
    (h : fractionPart negative n exponent (b :: cs) = .ok (x, rest)) :
    skipFraction (b :: cs) = .ok ((), rest) := by
  rw [fractionPart, advance_bind] at h
  obtain ⟨⟨m, taken, full⟩, mid, hdigits, h⟩ := bind_eq_ok_iff.mp h
  have htake : takeDigits n 0 cs = ((m, taken, full), mid) := Except.ok.inj hdigits
  dsimp only at h
  have hnonempty : cs.takeWhile isDigit ≠ [] := by
    intro hnone
    rw [takeDigits_of_not_isDigit hnone] at htake
    cases htake
    cases cs <;> cases h
  obtain ⟨hdrop, hexact⟩ := dropWhile_takeDigits n 0 cs
  rw [htake] at hdrop hexact
  dsimp only at hdrop hexact
  rw [skipFraction_cons hnonempty]
  cases full with
  | true =>
    have hskip : (discard skipDigits : Reader Unit) mid = .ok ((), mid.dropWhile isDigit) := rfl
    rw [if_pos rfl, bind_eq hskip, hdrop] at h
    exact skipMark_of_afterDigits h
  | false =>
    rw [← hexact rfl]
    rw [if_neg Bool.false_ne_true] at h
    by_cases htaken : taken = 0
    · rw [if_pos htaken] at h
      cases mid <;> cases h
    · rw [if_neg htaken] at h
      exact skipMark_of_afterDigits h

theorem eq_of_wholeNumber {negative : Bool} {n : Nat} {bs rest : Bytes} {x : Number}
    (h : wholeNumber negative n bs = .ok (x, rest)) : bs = rest := by
  rw [wholeNumber] at h
  split_ifs at h with hnegative hrange
  · cases h
    rfl
  · exact eq_of_double h
  · cases h
    rfl

theorem skipTail_of_afterInteger {negative : Bool} {n : Nat} {bs rest : Bytes} {x : Number}
    (h : afterInteger negative n bs = .ok (x, rest)) : skipTail bs = .ok ((), rest) := by
  cases bs with
  | nil =>
    have hrest : ([] : Bytes) = rest := eq_of_wholeNumber h
    rw [← hrest]
    rfl
  | cons b cs =>
    rw [afterInteger, peek_bind] at h
    rw [skipTail, peek_bind]
    by_cases hpoint : some b = some 0x2E
    · rw [if_pos hpoint] at h ⊢
      exact skipFraction_of_fractionPart h
    · rw [if_neg hpoint] at h ⊢
      by_cases hmark : some b = some 0x65 ∨ some b = some 0x45
      · rw [if_pos hmark] at h ⊢
        exact skipExponent_of_exponentPart h
      · rw [if_neg hmark] at h ⊢
        rw [eq_of_wholeNumber h]
        rfl

theorem skipTail_of_longInteger {negative : Bool} {n : Nat} {bs rest : Bytes} {x : Number}
    (h : longInteger negative n bs = .ok (x, rest)) :
    skipTail (bs.dropWhile isDigit) = .ok ((), rest) := by
  rw [longInteger, bind_eq (skipDigits_eq bs)] at h
  cases hcs : bs.dropWhile isDigit with
  | nil =>
    rw [hcs] at h
    have hrest : ([] : Bytes) = rest := eq_of_double h
    rw [← hrest]
    rfl
  | cons b cs =>
    rw [hcs, peek_bind] at h
    rw [skipTail, peek_bind]
    by_cases hpoint : some b = some 0x2E
    · rw [if_pos hpoint] at h ⊢
      exact skipFraction_of_fractionPart h
    · rw [if_neg hpoint] at h ⊢
      exact skipMark_of_afterDigits h

/-- A number that is read can be passed over, up to the same place. -/
theorem skipNumber_of_numberRest {negative : Bool} {bs rest : Bytes} {x : Number}
    (h : numberRest negative bs = .ok (x, rest)) : skipNumber bs = .ok ((), rest) := by
  cases bs with
  | nil => cases h
  | cons b cs =>
    rw [numberRest, peek_bind] at h
    dsimp only at h
    by_cases hzero : b = 0x30
    · subst hzero
      rw [if_pos rfl, advance_bind] at h
      have hread : cs.takeWhile isDigit = [] ∧ afterInteger negative 0 cs = .ok (x, rest) := by
        cases cs with
        | nil => exact ⟨rfl, h⟩
        | cons c ds =>
          rw [peek_bind] at h
          dsimp only at h
          by_cases hdigit : isDigit c = true
          · rw [if_pos hdigit] at h
            cases h
          · rw [if_neg hdigit] at h
            exact ⟨List.takeWhile_cons_of_neg hdigit, h⟩
      have hdrop : cs.dropWhile isDigit = cs := by
        have hsplit := List.takeWhile_append_dropWhile (p := isDigit) (l := cs)
        rw [hread.1] at hsplit
        exact hsplit
      rw [skipNumber_eq rfl fun _ => hread.1, hdrop]
      exact skipTail_of_afterInteger hread.2
    · rw [if_neg hzero] at h
      by_cases hdigit : isDigit b = true
      · rw [if_pos hdigit] at h
        obtain ⟨⟨n, taken, full⟩, mid, hdigits, h⟩ := bind_eq_ok_iff.mp h
        have htake : takeDigits 0 0 (b :: cs) = ((n, taken, full), mid) := Except.ok.inj hdigits
        dsimp only at h
        obtain ⟨hdrop, hexact⟩ := dropWhile_takeDigits 0 0 (b :: cs)
        rw [List.dropWhile_cons, if_pos hdigit] at hdrop hexact
        rw [skipNumber_eq hdigit fun heq => absurd heq hzero]
        rw [htake] at hdrop hexact
        dsimp only at hdrop hexact
        cases full with
        | true =>
          rw [← hdrop]
          exact skipTail_of_longInteger h
        | false =>
          rw [← hexact rfl]
          exact skipTail_of_afterInteger h
      · rw [if_neg hdigit] at h
        cases h

end QueryClient.Json
