/-
  QueryClient/Proofs/Json/Numeral.lean
  ====================================
  **Texts of numbers are passed over.** A number can be passed over that is too large to be
  read. So the text written for a number, in whatever notation, is shown to be passed over by
  its digits alone (`exists_text_number`): they make up a numeral, without needless zeros in
  front. Only the shortest digits of a double take an argument: none of the decimals that are
  tried for a double other than zero is zero.
-/
import QueryClient.Proofs.Json.Number

namespace QueryClient

/-! ### Digits of doubles -/

namespace Decimal.Magnitude

theorem powerOfTwo_pos (e : Int) : 0 < powerOfTwo e := Nat.pow_pos (by decide)

theorem powerOfTen_pos (e : Int) : 0 < powerOfTen e := Nat.pow_pos (by decide)

/-- Zero reads back as nothing but zero. -/
theorem readsBack_zero {x : Magnitude} (h : x.m ≠ 0) (e : Int) :
    x.readsBack ⟨0, e⟩ = false := by
  have hlow {n : Nat} (hn : 0 < n) : compareScaled n (x.q - 2) ⟨0, e⟩ = .gt := by
    rw [compareScaled, Nat.zero_mul, Nat.zero_mul, Nat.compare_eq_gt]
    exact Nat.mul_pos (Nat.mul_pos hn (powerOfTwo_pos _)) (powerOfTen_pos _)
  have hends : 0 < if x.narrowBelow then 4 * x.m - 1 else 4 * x.m - 2 := by
    split <;> omega
  rw [readsBack, hlow hends]
  simp

/-- A decimal on the grid reads back or is the upper one, so it is not zero. -/
theorem digits_of_onGrid? {x : Magnitude} (h : x.m ≠ 0) {e : Int} {d : Digits}
    (hd : x.onGrid? e = some d) : d.digits ≠ 0 := by
  rw [onGrid?] at hd
  generalize x.num * powerOfTen (-e) / (x.den * powerOfTen e) = below at hd
  have hdown : x.readsBack ⟨below, e⟩ = true → below ≠ 0 := by
    rintro hback rfl
    rw [readsBack_zero h] at hback
    cases hback
  split at hd
  · cases hd
    exact hdown ‹_›
  · cases hd
    exact Nat.succ_ne_zero below
  · cases hd
  · split at hd
    · cases hd
      exact hdown ‹_›
    · cases hd
      exact Nat.succ_ne_zero below
    · cases hd
      split
      · exact hdown ‹_›
      · exact Nat.succ_ne_zero below

theorem digits_stripZeros {room : Nat} {d : Digits} (h : d.digits ≠ 0) :
    (stripZeros room d).digits ≠ 0 := by
  induction room generalizing d with
  | zero => exact h
  | succ room ih =>
    rw [stripZeros]
    by_cases hten : d.digits % 10 = 0
    · rw [if_pos hten]
      apply ih
      dsimp only
      omega
    · rw [if_neg hten]
      exact h

theorem digits_shortest {x : Magnitude} (h : x.m ≠ 0) : x.shortest.digits ≠ 0 := by
  rw [shortest]
  cases hfound : (List.range 17).findSome? fun (n : Nat) => x.onGrid? (x.scale - (n + 1 : Nat)) with
  | none =>
    exact Nat.pos_iff_ne_zero.mp (Nat.mul_pos (Nat.pos_of_ne_zero h) (powerOfTwo_pos x.q))
  | some d =>
    obtain ⟨n, -, hd⟩ := List.exists_of_findSome?_eq_some hfound
    exact digits_stripZeros (digits_of_onGrid? h hd)

end Decimal.Magnitude

namespace Json

/-! ### Numerals -/

/-- Digits, at least one. -/
structure Digits (ds : Bytes) : Prop where
  nonempty : ds ≠ []
  all : ∀ d ∈ ds, isDigit d = true

/-- What may follow the digits of a fraction: an exponent with its sign. -/
inductive IsExponent : Bytes → Prop where
  | none : IsExponent []
  | some {sign : UInt8} {ds : Bytes} (hsign : sign = 0x2B ∨ sign = 0x2D) (hdigits : Digits ds) :
      IsExponent (0x65 :: sign :: ds)

/-- What may follow the digits of a whole number. -/
inductive IsTail : Bytes → Prop where
  | exponent {es : Bytes} (hexponent : IsExponent es) : IsTail es
  | fraction {ds es : Bytes} (hdigits : Digits ds) (hexponent : IsExponent es) :
      IsTail (0x2E :: (ds ++ es))

/-- A number without sign: digits, with a zero in front only alone, and what may follow. -/
structure IsNumeral (d : UInt8) (ds tail : Bytes) : Prop where
  head : isDigit d = true
  all : ∀ d ∈ ds, isDigit d = true
  zero : d = 0x30 → ds = []
  tail : IsTail tail

section

variable {rest : Bytes}

theorem span_digits {ds : Bytes} (h : ∀ d ∈ ds, isDigit d = true)
    (hrest : ∀ b ∈ rest.head?, isDigit b = false) :
    (ds ++ rest).takeWhile isDigit = ds ∧ (ds ++ rest).dropWhile isDigit = rest := by
  have hnone : rest.takeWhile isDigit = [] ∧ rest.dropWhile isDigit = rest := by
    cases rest with
    | nil => exact ⟨rfl, rfl⟩
    | cons b cs =>
      rw [List.takeWhile_cons, List.dropWhile_cons, hrest b rfl]
      exact ⟨rfl, rfl⟩
  rw [List.takeWhile_append_of_pos h, List.dropWhile_append_of_pos h, hnone.1, hnone.2,
    List.append_nil]
  exact ⟨rfl, rfl⟩

theorem skipExponent_digits {sign : UInt8} {ds : Bytes} (hsign : sign = 0x2B ∨ sign = 0x2D)
    (hdigits : Digits ds) (hrest : Ends rest) :
    skipExponent (0x65 :: sign :: (ds ++ rest)) = .ok ((), rest) := by
  have hbehind : behindSign (sign :: (ds ++ rest)) = ds ++ rest := by
    rw [behindSign, List.head?_cons, if_pos (by simpa using hsign)]
    rfl
  obtain ⟨htake, hdrop⟩ := span_digits hdigits.all (isDigit_head?_of_ends hrest)
  have hnonempty : (behindSign (sign :: (ds ++ rest))).takeWhile isDigit ≠ [] := by
    rw [hbehind, htake]
    exact hdigits.nonempty
  rw [skipExponent_cons hnonempty, hbehind, hdrop]

theorem skipMark_exponent {es : Bytes} (h : IsExponent es) (hrest : Ends rest) :
    skipMark (es ++ rest) = .ok ((), rest) := by
  cases h with
  | none =>
    have hmark : ¬(rest.head? = some 0x65 ∨ rest.head? = some 0x45) :=
      not_or.mpr ⟨head?_ne_of_ends hrest (by decide), head?_ne_of_ends hrest (by decide)⟩
    change (if rest.head? = some 0x65 ∨ rest.head? = some 0x45 then _ else _ : Reader Unit) rest = _
    rw [if_neg hmark]
    rfl
  | some hsign hdigits => exact skipExponent_digits hsign hdigits hrest

/-- An exponent starts with its mark, and so goes on neither with a digit nor with a
    point. -/
theorem head?_exponent {es : Bytes} (h : IsExponent es) (hrest : Ends rest) :
    ∀ b ∈ (es ++ rest).head?, isDigit b = false ∧ b ≠ 0x2E := by
  cases h with
  | none =>
    intro b hb
    refine ⟨isDigit_head?_of_ends hrest b hb, ?_⟩
    rintro rfl
    exact head?_ne_of_ends hrest (by decide) hb
  | some =>
    intro b hb
    cases hb
    exact ⟨rfl, by decide⟩

theorem skipTail_eq_skipMark {bs : Bytes} (h : bs.head? ≠ some 0x2E) :
    skipTail bs = skipMark bs := by
  change (if bs.head? = some 0x2E then skipFraction
    else if bs.head? = some 0x65 ∨ bs.head? = some 0x45 then skipExponent
    else pure () : Reader Unit) bs = _
  rw [if_neg h]
  rfl

theorem skipTail_tail {tail : Bytes} (h : IsTail tail) (hrest : Ends rest) :
    skipTail (tail ++ rest) = .ok ((), rest) := by
  cases h with
  | exponent hexponent =>
    have hpoint : (tail ++ rest).head? ≠ some 0x2E := fun hhead =>
      (head?_exponent hexponent hrest _ hhead).2 rfl
    rw [skipTail_eq_skipMark hpoint]
    exact skipMark_exponent hexponent hrest
  | @fraction ds es hdigits hexponent =>
    obtain ⟨htake, hdrop⟩ := span_digits hdigits.all
      fun b hb => (head?_exponent hexponent hrest b hb).1
    rw [List.cons_append, List.append_assoc]
    change skipFraction (0x2E :: (ds ++ (es ++ rest))) = _
    rw [skipFraction_cons (by rw [htake]; exact hdigits.nonempty), hdrop]
    exact skipMark_exponent hexponent hrest

/-- A numeral is passed over, however large the number is. -/
theorem skipNumber_numeral {d : UInt8} {ds tail : Bytes} (h : IsNumeral d ds tail)
    (hrest : Ends rest) : skipNumber (d :: (ds ++ (tail ++ rest))) = .ok ((), rest) := by
  have hnext : ∀ b ∈ (tail ++ rest).head?, isDigit b = false := by
    cases h.tail with
    | exponent hexponent => exact fun b hb => (head?_exponent hexponent hrest b hb).1
    | fraction =>
      intro b hb
      cases hb
      rfl
  obtain ⟨htake, hdrop⟩ := span_digits h.all hnext
  rw [skipNumber_eq h.head fun hd => by rw [htake]; exact h.zero hd, hdrop]
  exact skipTail_tail h.tail hrest

end

/-! ### What is written for numbers -/

/-- The text is a numeral. -/
def NumeralText (s : String) : Prop :=
  ∃ d ds tail, Text.utf8 s = d :: (ds ++ tail) ∧ IsNumeral d ds tail

theorem encode_isDigit {c : Char} (h : c.isDigit = true) :
    ∃ b, String.utf8EncodeChar c = [b] ∧ isDigit b = true ∧ (b = 0x30 → c = '0') := by
  have hrange : 48 ≤ c.toNat ∧ c.toNat ≤ 57 := by
    simpa [Char.isDigit, UInt32.le_iff_toNat_le, ← Char.toNat_val] using h
  have hvalue : (UInt8.ofNat c.toNat).toNat = c.toNat := by
    rw [UInt8.toNat_ofNat']
    omega
  refine ⟨UInt8.ofNat c.toNat, Text.utf8EncodeChar_ascii (by omega), ?_, ?_⟩
  · rw [isDigit, Bool.and_eq_true, decide_eq_true_eq, decide_eq_true_eq,
      UInt8.le_iff_toNat_le, UInt8.le_iff_toNat_le, hvalue]
    exact hrange
  · intro hzero
    rw [hzero] at hvalue
    exact Char.toNat_inj.mp hvalue.symm

theorem isDigit_encode {cs : List Char} (h : ∀ c ∈ cs, c.isDigit = true) :
    ∀ b ∈ cs.flatMap String.utf8EncodeChar, isDigit b = true := by
  intro b hb
  obtain ⟨c, hc, hmem⟩ := List.mem_flatMap.mp hb
  obtain ⟨d, hd, hdigit, -⟩ := encode_isDigit (h c hc)
  rw [hd] at hmem
  rw [List.mem_singleton.mp hmem]
  exact hdigit

theorem digits_encode {cs : List Char} (hne : cs ≠ []) (h : ∀ c ∈ cs, c.isDigit = true) :
    Digits (cs.flatMap String.utf8EncodeChar) := by
  refine ⟨?_, isDigit_encode h⟩
  obtain ⟨c, ds, rfl⟩ := List.exists_cons_of_ne_nil hne
  obtain ⟨b, hb, -⟩ := encode_isDigit (h c List.mem_cons_self)
  rw [List.flatMap_cons, hb]
  exact List.cons_ne_nil _ _

theorem numeralText_of_chars {c : Char} {cs tail : List Char} (hc : c.isDigit = true)
    (hcs : ∀ d ∈ cs, d.isDigit = true) (hzero : c = '0' → cs = [])
    (htail : IsTail (tail.flatMap String.utf8EncodeChar)) :
    NumeralText (String.ofList (c :: (cs ++ tail))) := by
  obtain ⟨b, hb, hdigit, hb0⟩ := encode_isDigit hc
  refine ⟨b, cs.flatMap String.utf8EncodeChar, tail.flatMap String.utf8EncodeChar, ?_,
    hdigit, isDigit_encode hcs, ?_, htail⟩
  · rw [Text.utf8_ofList, List.flatMap_cons, hb, List.flatMap_append]
    rfl
  · intro hb
    rw [hzero (hb0 hb)]
    rfl

theorem numeralText_digit {c : Char} {tail : List Char} (hc : c.isDigit = true)
    (htail : IsTail (tail.flatMap String.utf8EncodeChar)) :
    NumeralText (String.ofList (c :: tail)) := by
  have hnumeral := numeralText_of_chars hc (List.forall_mem_nil _) (fun _ => rfl) htail
  rw [List.nil_append] at hnumeral
  exact hnumeral

/-- A number starts with zero for zero only. -/
theorem exists_toDigits (n : Nat) :
    ∃ c cs, Nat.toDigits 10 n = c :: cs ∧ (∀ d ∈ c :: cs, d.isDigit = true) ∧
      (c = '0' → n = 0 ∧ cs = []) := by
  induction n using Nat.strongRecOn with
  | ind n ih =>
    have hdigits : ∀ d ∈ Nat.toDigits 10 n, d.isDigit = true := fun d hd =>
      Nat.isDigit_of_mem_toDigits (by decide) (by decide) hd
    by_cases hsmall : n < 10
    · refine ⟨Nat.digitChar n, [], Nat.toDigits_of_lt_base hsmall, ?_, ?_⟩
      · rw [← Nat.toDigits_of_lt_base hsmall]
        exact hdigits
      · have hzero : ∀ m < 10, Nat.digitChar m = '0' → m = 0 := by decide
        exact fun hc => ⟨hzero n hsmall hc, rfl⟩
    · obtain ⟨c, cs, hcs, -, hzero⟩ := ih (n / 10) (by omega)
      have heq : Nat.toDigits 10 n = c :: (cs ++ [Nat.digitChar (n % 10)]) := by
        rw [Nat.toDigits_of_base_le (by decide) (by omega), hcs, List.cons_append]
      refine ⟨c, cs ++ [Nat.digitChar (n % 10)], heq, heq ▸ hdigits, ?_⟩
      intro hc
      have hquotient := (hzero hc).1
      omega

theorem numeralText_repr (n : Nat) : NumeralText n.repr := by
  obtain ⟨c, cs, hcs, hdigits, hzero⟩ := exists_toDigits n
  have htext : n.repr = String.ofList (c :: (cs ++ [])) := by
    rw [← String.toList_inj, Nat.toList_repr, hcs, String.toList_ofList, List.append_nil]
  rw [htext]
  exact numeralText_of_chars (hdigits c List.mem_cons_self)
    (fun d hd => hdigits d (List.mem_cons_of_mem c hd)) (fun hc => (hzero hc).2) (.exponent .none)

theorem isTail_point {cs : List Char} (hne : cs ≠ []) (h : ∀ c ∈ cs, c.isDigit = true) :
    IsTail (('.' :: cs).flatMap String.utf8EncodeChar) := by
  have htail := IsTail.fraction (digits_encode hne h) .none
  rw [List.append_nil] at htail
  rw [List.flatMap_cons]
  exact htail

theorem isTail_pointZero : IsTail (['.', '0'].flatMap String.utf8EncodeChar) :=
  isTail_point (List.cons_ne_nil '0' []) (List.forall_mem_singleton.mpr rfl)

theorem isExponent_marked {sign : Char} {cs : List Char} (hsign : sign = '+' ∨ sign = '-')
    (hne : cs ≠ []) (h : ∀ c ∈ cs, c.isDigit = true) :
    IsExponent (('e' :: sign :: cs).flatMap String.utf8EncodeChar) := by
  have hdigits := digits_encode hne h
  rw [List.flatMap_cons, List.flatMap_cons]
  rcases hsign with rfl | rfl
  · exact .some (Or.inl rfl) hdigits
  · exact .some (Or.inr rfl) hdigits

theorem isDigit_replicate (k : Nat) : ∀ d ∈ List.replicate k '0', d.isDigit = true := by
  intro d hd
  rw [List.eq_of_mem_replicate hd]
  rfl

section

variable {c : Char} {cs : List Char} (hdigits : ∀ d ∈ c :: cs, d.isDigit = true)

include hdigits

theorem numeralText_padded (hc : c ≠ '0') (k : Nat) :
    NumeralText (String.ofList (c :: cs ++ List.replicate k '0' ++ ['.', '0'])) := by
  obtain ⟨hhead, htail⟩ := List.forall_mem_cons.mp hdigits
  rw [List.cons_append, List.cons_append]
  exact numeralText_of_chars hhead (List.forall_mem_append.mpr ⟨htail, isDigit_replicate k⟩)
    (fun hzero => absurd hzero hc) isTail_pointZero

theorem numeralText_split (hc : c ≠ '0') {k : Nat} (hk : 0 < k) (hlength : k < (c :: cs).length) :
    NumeralText (String.ofList ((c :: cs).take k ++ '.' :: (c :: cs).drop k)) := by
  obtain ⟨hhead, htail⟩ := List.forall_mem_cons.mp hdigits
  obtain ⟨k, rfl⟩ := Nat.exists_eq_add_one_of_ne_zero (Nat.pos_iff_ne_zero.mp hk)
  rw [List.take_succ_cons, List.drop_succ_cons, List.cons_append]
  have hbehind : cs.drop k ≠ [] := by
    rw [Ne, List.drop_eq_nil_iff]
    rw [List.length_cons] at hlength
    omega
  exact numeralText_of_chars hhead (fun d hd => htail d (List.mem_of_mem_take hd))
    (fun hzero => absurd hzero hc)
    (isTail_point hbehind fun d hd => htail d (List.mem_of_mem_drop hd))

theorem numeralText_small (k : Nat) :
    NumeralText (String.ofList (['0', '.'] ++ List.replicate k '0' ++ (c :: cs))) := by
  have hbehind : List.replicate k '0' ++ (c :: cs) ≠ [] :=
    List.append_ne_nil_of_right_ne_nil _ (List.cons_ne_nil c cs)
  have hall : ∀ d ∈ List.replicate k '0' ++ (c :: cs), d.isDigit = true :=
    List.forall_mem_append.mpr ⟨isDigit_replicate k, hdigits⟩
  rw [List.append_assoc]
  exact numeralText_digit (c := '0') rfl (isTail_point hbehind hall)

theorem numeralText_scientific {sign : Char} (hsign : sign = '+' ∨ sign = '-') (e : Nat) :
    NumeralText (String.ofList ((match c :: cs with
      | [] => []
      | [c] => [c]
      | c :: cs => c :: '.' :: cs) ++ 'e' :: sign :: Nat.toDigits 10 e)) := by
  obtain ⟨hhead, htail⟩ := List.forall_mem_cons.mp hdigits
  have hexponent := isExponent_marked hsign Nat.toDigits_ne_nil fun d hd =>
    Nat.isDigit_of_mem_toDigits (n := e) (b := 10) (by decide) (by decide) hd
  cases cs with
  | nil => exact numeralText_digit hhead (.exponent hexponent)
  | cons d ds =>
    have hfraction := IsTail.fraction (digits_encode (List.cons_ne_nil d ds) htail) hexponent
    rw [← List.flatMap_append] at hfraction
    exact numeralText_digit hhead hfraction

end

/-- In each notation a double is a sign and a numeral. -/
theorem exists_text_double (x : Decimal.Double) :
    ∃ body, x.text = (if x.negative then "-" else "") ++ body ∧ NumeralText body := by
  rw [Decimal.Double.text]
  by_cases hzero : x.magnitude.m = 0
  · rw [if_pos hzero]
    exact ⟨"0.0", rfl, numeralText_digit (c := '0') rfl isTail_pointZero⟩
  · rw [if_neg hzero]
    refine ⟨_, rfl, ?_⟩
    obtain ⟨c, cs, hcs, hdigits, hhead⟩ := exists_toDigits x.magnitude.shortest.digits
    have hc : c ≠ '0' := fun heq => Decimal.Magnitude.digits_shortest hzero (hhead heq).1
    simp only [hcs]
    generalize ((c :: cs).length : Int) + x.magnitude.shortest.exponent = point
    split
    · exact numeralText_padded hdigits hc _
    · split
      · exact numeralText_split hdigits hc (by omega) (by omega)
      · split
        · exact numeralText_small hdigits _
        · refine numeralText_scientific hdigits ?_ _
          split
          · exact Or.inr rfl
          · exact Or.inl rfl

/-- The text of a number is passed over, from behind its sign. -/
theorem exists_text_number (n : Number) :
    NumeralText n.text ∨ ∃ body, n.text = "-" ++ body ∧ NumeralText body := by
  cases n with
  | natural n => exact Or.inl (numeralText_repr n)
  | negative n => exact Or.inr ⟨n.repr, rfl, numeralText_repr n⟩
  | double x =>
    obtain ⟨body, hbody, hnumeral⟩ := exists_text_double x
    cases hsign : x.negative with
    | true =>
      rw [hsign] at hbody
      exact Or.inr ⟨body, hbody, hnumeral⟩
    | false =>
      rw [hsign] at hbody
      left
      rw [Number.text, hbody]
      exact (String.empty_append (s := body)).symm ▸ hnumeral

end Json
end QueryClient
