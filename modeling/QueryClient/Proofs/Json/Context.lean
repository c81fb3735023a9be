/-
  QueryClient/Proofs/Json/Context.lean
  ====================================
  **A value reads alike wherever it stands.** A text that is read as a value is read as the
  same value where something else follows it, provided that a value can end there, and with
  more room for nesting.

  Two readings are compared byte by byte: one `Follows` the other if it succeeds wherever the
  other does, with a related result, and leaves the same input with what has been added behind
  it. Only numbers look at what comes behind them; all else has a mark at its end.
-/
import QueryClient.Proofs.Json.Tree

namespace QueryClient.Json

variable {α β α' β' : Type} {more : Bytes}

/-! ### Readings compared -/

/-- Wherever the first reading succeeds, so does the second, with a related result and with
    more input left behind the same. -/
def Follows (more : Bytes) (R : α → α' → Prop) (x : Except Stop (α × Bytes))
    (y : Except Stop (α' × Bytes)) : Prop :=
  ∀ a rest, x = .ok (a, rest) → ∃ a', y = .ok (a', rest ++ more) ∧ R a a'

/-- A reader that is not disturbed by what is added behind its input. -/
def Local (more : Bytes) (r : Reader α) : Prop := ∀ bs, Follows more Eq (r bs) (r (bs ++ more))

namespace Follows

variable {R : α → α' → Prop} {S : β → β' → Prop}

theorem ok {a : α} {a' : α'} (h : R a a') (rest : Bytes) :
    Follows more R (.ok (a, rest)) (.ok (a', rest ++ more)) := by
  rintro _ _ ⟨⟩
  exact ⟨a', rfl, h⟩

theorem error {s : Stop} {y : Except Stop (α' × Bytes)} : Follows more R (.error s) y := nofun

theorem bind_of_eq {r : Reader α} {r' : Reader α'} {f : α → Reader β} {f' : α' → Reader β'}
    {bs bs' : Bytes} (h : Follows more R (r bs) (r' bs'))
    (hf : ∀ a a' mid, r bs = .ok (a, mid) → R a a' →
      Follows more S (f a mid) (f' a' (mid ++ more))) :
    Follows more S ((r >>= f) bs) ((r' >>= f') bs') := by
  intro b rest hb
  obtain ⟨a, mid, ha, hfa⟩ := bind_eq_ok_iff.mp hb
  obtain ⟨a', ha', hR⟩ := h a mid ha
  obtain ⟨b', hb', hS⟩ := hf a a' mid ha hR b rest hfa
  exact ⟨b', bind_eq_ok_iff.mpr ⟨a', mid ++ more, ha', hb'⟩, hS⟩

theorem bind {r : Reader α} {r' : Reader α'} {f : α → Reader β} {f' : α' → Reader β'}
    {bs bs' : Bytes} (h : Follows more R (r bs) (r' bs'))
    (hf : ∀ a a' mid, R a a' → Follows more S (f a mid) (f' a' (mid ++ more))) :
    Follows more S ((r >>= f) bs) ((r' >>= f') bs') :=
  h.bind_of_eq fun a a' mid _ => hf a a' mid

theorem ite {p : Prop} [Decidable p] {r s : Reader α} {r' s' : Reader α'} {bs bs' : Bytes}
    (h : p → Follows more R (r bs) (r' bs')) (h' : ¬p → Follows more R (s bs) (s' bs')) :
    Follows more R ((if p then r else s) bs) ((if p then r' else s') bs') := by
  by_cases hp : p
  · rw [if_pos hp, if_pos hp]
    exact h hp
  · rw [if_neg hp, if_neg hp]
    exact h' hp

theorem advance {f : Unit → Reader α} {f' : Unit → Reader α'} {b : UInt8} {cs cs' : Bytes}
    (h : Follows more R (f () cs) (f' () cs')) :
    Follows more R ((Json.advance >>= f) (b :: cs)) ((Json.advance >>= f') (b :: cs')) := h

/-- The next byte is looked at, and the reading goes on by it. -/
theorem peek {f : Option UInt8 → Reader α} {f' : Option UInt8 → Reader α'} {bs : Bytes}
    (hnil : Follows more R (f none []) (f' more.head? more))
    (hcons : ∀ b cs, Follows more R (f (some b) (b :: cs)) (f' (some b) (b :: (cs ++ more)))) :
    Follows more R ((Json.peek >>= f) bs) ((Json.peek >>= f') (bs ++ more)) := by
  cases bs with
  | nil => exact hnil
  | cons b cs => exact hcons b cs

/-- The next byte behind the blanks is looked at, and there must be one. -/
theorem peekSolid {f : Option UInt8 → Reader α} {f' : Option UInt8 → Reader α'} {bs : Bytes}
    (hnil : ∀ a rest, f none [] ≠ .ok (a, rest))
    (hcons : ∀ b cs, Follows more R (f (some b) (b :: cs)) (f' (some b) (b :: (cs ++ more)))) :
    Follows more R ((Json.peekSolid >>= f) bs) ((Json.peekSolid >>= f') (bs ++ more)) := by
  change Follows more R (f (bs.dropWhile isBlank).head? (bs.dropWhile isBlank))
    (f' ((bs ++ more).dropWhile isBlank).head? ((bs ++ more).dropWhile isBlank))
  cases hcs : bs.dropWhile isBlank with
  | nil =>
    intro a rest h
    exact absurd h (hnil a rest)
  | cons b cs =>
    rw [List.dropWhile_append, hcs]
    exact hcons b cs

end Follows

/-! ### Words and strings -/

theorem local_word (ws : Bytes) : Local more (word ws) := by
  induction ws with
  | nil =>
    intro bs
    exact .ok rfl bs
  | cons w ws ih =>
    intro bs
    refine .peek .error ?_
    intro b cs
    exact .ite (fun _ => ih cs) fun _ => .error

theorem local_hexFour : Local more hexFour := by
  intro bs
  match bs with
  | [] | [_] | [_, _] | [_, _, _] => exact .error
  | a :: b :: c :: d :: rest =>
    simp only [List.cons_append, hexFour]
    split
    · exact .ok rfl rest
    · exact .error

theorem local_pairByte (b : UInt8) : Local more (pairByte b) := by
  intro bs
  refine .peek .error ?_
  intro c cs
  exact .ite (fun _ => .ok rfl cs) fun _ => .error

theorem local_unicodeEscape : Local more unicodeEscape := by
  intro bs
  refine (local_hexFour bs).bind ?_
  rintro n _ mid rfl
  refine .ite (fun _ => .error) fun _ => .ite (fun _ => .ok rfl mid) fun _ => ?_
  refine (local_pairByte 0x5C mid).bind ?_
  rintro ⟨⟩ _ mid -
  refine (local_pairByte 0x75 mid).bind ?_
  rintro ⟨⟩ _ mid -
  refine (local_hexFour mid).bind ?_
  rintro m _ mid rfl
  exact .ite (fun _ => .error) fun _ => .ok rfl mid

theorem local_escape : Local more escape := by
  intro bs
  refine .peek .error ?_
  intro b cs
  refine .ite (fun _ => .advance ?_) fun _ => ?_
  · refine (local_unicodeEscape cs).bind ?_
    rintro c _ mid rfl
    exact .ok rfl mid
  · cases shortEscape? b with
    | none => exact .error
    | some v => exact .ok rfl cs

/-- More turns than needed make no difference. -/
theorem follows_stringBytes {turns turns' : Nat} (h : turns ≤ turns') (bs : Bytes) :
    Follows more Eq (stringBytes turns bs) (stringBytes turns' (bs ++ more)) := by
  induction turns generalizing turns' bs with
  | zero => exact .error
  | succ turns ih =>
    obtain ⟨turns', rfl⟩ := Nat.exists_eq_add_one_of_ne_zero (Nat.ne_of_gt (Nat.lt_of_lt_of_le (Nat.succ_pos turns) h))
    have hfewer := Nat.le_of_succ_le_succ h
    refine .peek .error ?_
    intro b cs
    refine .ite (fun _ => .ok rfl cs) fun _ => .ite (fun _ => ?_) fun _ =>
      .ite (fun _ => .error) fun _ => ?_
    · refine (local_escape cs).bind ?_
      rintro head _ mid rfl
      refine (ih hfewer mid).bind ?_
      rintro tail _ mid rfl
      exact .ok rfl mid
    · refine (ih hfewer cs).bind ?_
      rintro tail _ mid rfl
      exact .ok rfl mid

theorem local_stringRest : Local more stringRest := by
  intro bs s rest h
  rw [stringRest] at h
  have hturns : bs.length + 1 ≤ (bs ++ more).length + 1 := by simp
  cases hbytes : stringBytes (bs.length + 1) bs with
  | error e =>
    rw [hbytes] at h
    cases h
  | ok p =>
    obtain ⟨content, mid⟩ := p
    obtain ⟨_, hmore, rfl⟩ := follows_stringBytes hturns bs content mid hbytes
    rw [hbytes] at h
    rw [stringRest, hmore]
    dsimp only at h ⊢
    cases htext : Text.text? content with
    | error f =>
      rw [htext] at h
      cases h
    | ok t =>
      rw [htext] at h
      cases h
      exact ⟨_, rfl, rfl⟩

/-! ### Numbers -/

/-- A number cannot go on behind a value. -/
theorem isDigit_head?_of_ends (h : Ends more) : ∀ b ∈ more.head?, isDigit b = false := by
  intro b hb
  rcases h b hb with rfl | rfl | rfl <;> rfl

theorem span_digits_append (h : Ends more) (bs : Bytes) :
    (bs ++ more).takeWhile isDigit = bs.takeWhile isDigit ∧
      (bs ++ more).dropWhile isDigit = bs.dropWhile isDigit ++ more := by
  induction bs with
  | nil =>
    cases more with
    | nil => exact ⟨rfl, rfl⟩
    | cons b rest =>
      have hdigit := isDigit_head?_of_ends h b rfl
      rw [List.nil_append, List.takeWhile_cons, List.dropWhile_cons, hdigit]
      exact ⟨rfl, rfl⟩
  | cons b bs ih =>
    rw [List.cons_append, List.takeWhile_cons, List.dropWhile_cons, List.takeWhile_cons,
      List.dropWhile_cons]
    cases isDigit b with
    | true => exact ⟨congrArg (b :: ·) ih.1, ih.2⟩
    | false => exact ⟨rfl, rfl⟩

theorem takeDigits_append_ends (h : Ends more) (n k : Nat) (bs : Bytes) :
    takeDigits n k (bs ++ more) = ((takeDigits n k bs).1, (takeDigits n k bs).2 ++ more) := by
  induction bs generalizing n k with
  | nil => exact takeDigits_ends h n k
  | cons b bs ih =>
    rw [List.cons_append, takeDigits, takeDigits]
    by_cases hdigit : isDigit b = true
    · by_cases hlarge : maxNatural < n * 10 + digitValue b
      · rw [if_pos hdigit, if_pos hdigit, if_pos hlarge, if_pos hlarge]
        rfl
      · rw [if_pos hdigit, if_pos hdigit, if_neg hlarge, if_neg hlarge]
        exact ih _ _
    · rw [if_neg hdigit, if_neg hdigit]
      rfl

theorem takeExponent_append_ends (h : Ends more) (e : Nat) (bs : Bytes) :
    takeExponent e (bs ++ more) = ((takeExponent e bs).1, (takeExponent e bs).2 ++ more) := by
  induction bs generalizing e with
  | nil =>
    cases more with
    | nil => rfl
    | cons b rest =>
      change (if isDigit b then _ else _) = _
      rw [isDigit_head?_of_ends h b rfl]
      rfl
  | cons b bs ih =>
    rw [List.cons_append, takeExponent, takeExponent]
    by_cases hdigit : isDigit b = true
    · by_cases hlarge : maxExponent < e * 10 + digitValue b
      · rw [if_pos hdigit, if_pos hdigit, if_pos hlarge, if_pos hlarge]
      · rw [if_pos hdigit, if_pos hdigit, if_neg hlarge, if_neg hlarge]
        exact ih _
    · rw [if_neg hdigit, if_neg hdigit]
      rfl

theorem local_skipDigits (h : Ends more) : Local more skipDigits := by
  intro bs
  obtain ⟨htake, hdrop⟩ := span_digits_append h bs
  rw [skipDigits, skipDigits, htake, hdrop]
  exact .ok rfl _

theorem local_double (negative : Bool) (n : Nat) (exponent : Int) :
    Local more (double negative n exponent) := by
  intro bs
  rw [double]
  cases toMagnitude? n exponent with
  | none => exact .error
  | some x => exact .ok rfl bs

/-- The digits of an exponent, from behind its sign, given what stands in that place. -/
def exponentDigits (negative : Bool) (n : Nat) (exponent : Int) (sign : Option UInt8) :
    Reader Number := do
  match ← peek with
  | none => stop .endInValue
  | some b =>
    if isDigit b then fun bs =>
      match takeExponent 0 bs with
      | (some e, rest) =>
        double negative n (if sign = some 0x2D then exponent - e else exponent + e) rest
      | (none, rest) =>
        if n ≠ 0 ∧ ¬sign = some 0x2D then stop .numberTooLarge rest
        else .ok (.double ⟨negative, .zero⟩, rest.dropWhile isDigit)
    else stopAtNext .badNumber

/-- What is left of an exponent behind its sign, if it has one. -/
def behindSign (bs : Bytes) : Bytes :=
  if bs.head? = some 0x2B ∨ bs.head? = some 0x2D then bs.drop 1 else bs

theorem exponentPart_cons (negative : Bool) (n : Nat) (exponent : Int) (b : UInt8) (cs : Bytes) :
    exponentPart negative n exponent (b :: cs) =
      exponentDigits negative n exponent cs.head? (behindSign cs) := by
  rw [behindSign]
  change (if cs.head? = some 0x2B ∨ cs.head? = some 0x2D then _ else _ : Reader Number) cs = _
  by_cases hsign : cs.head? = some 0x2B ∨ cs.head? = some 0x2D
  · rw [if_pos hsign, if_pos hsign]
    rfl
  · rw [if_neg hsign, if_neg hsign]
    rfl

theorem local_exponentDigits (h : Ends more) (negative : Bool) (n : Nat) (exponent : Int)
    (sign : Option UInt8) : Local more (exponentDigits negative n exponent sign) := by
  intro bs
  refine .peek .error ?_
  intro b cs
  refine .ite (fun _ => ?_) fun _ => .error
  rw [← List.cons_append, takeExponent_append_ends h]
  rcases takeExponent 0 (b :: cs) with ⟨_ | e, rest⟩
  · dsimp only
    by_cases hlarge : n ≠ 0 ∧ ¬sign = some 0x2D
    · rw [if_pos hlarge]
      exact .error
    · rw [if_neg hlarge, if_neg hlarge, (span_digits_append h rest).2]
      exact .ok rfl _
  · exact local_double negative n _ rest

/-- An exponent that is only marked is none. -/
theorem follows_exponentPart (h : Ends more) (negative : Bool) (n : Nat) (exponent : Int)
    (b : UInt8) (cs : Bytes) :
    Follows more Eq (exponentPart negative n exponent (b :: cs))
      (exponentPart negative n exponent (b :: (cs ++ more))) := by
  rw [exponentPart_cons, exponentPart_cons]
  cases cs with
  | nil => exact .error
  | cons c cs =>
    have hsign : behindSign (c :: cs ++ more) = behindSign (c :: cs) ++ more := by
      rw [behindSign, behindSign, List.cons_append, List.head?_cons, List.head?_cons]
      split <;> rfl
    rw [hsign]
    exact local_exponentDigits h negative n exponent (some c) _

/-- Where a value can end, a number has no point and no exponent. -/
theorem head?_ne_of_ends {bs : Bytes} (h : Ends bs) {b : UInt8}
    (hb : b ≠ 0x2C ∧ b ≠ 0x5D ∧ b ≠ 0x7D) : bs.head? ≠ some b := by
  intro hhead
  rcases h b hhead with rfl | rfl | rfl
  · exact hb.1 rfl
  · exact hb.2.1 rfl
  · exact hb.2.2 rfl

theorem afterDigits_of_ends {bs : Bytes} (h : Ends bs) (negative : Bool) (n : Nat)
    (exponent : Int) : afterDigits negative n exponent bs = double negative n exponent bs := by
  cases bs with
  | nil => rfl
  | cons b bs =>
    have hmark : ¬(b = 0x65 ∨ b = 0x45) := by
      rcases h b rfl with rfl | rfl | rfl <;> decide
    rw [afterDigits, peek_bind]
    dsimp only
    rw [if_neg hmark]

theorem local_afterDigits (h : Ends more) (negative : Bool) (n : Nat) (exponent : Int) :
    Local more (afterDigits negative n exponent) := by
  intro bs
  cases bs with
  | nil =>
    rw [List.nil_append, afterDigits_of_ends ends_nil, afterDigits_of_ends h]
    exact local_double negative n exponent []
  | cons b cs =>
    exact .ite (fun _ => follows_exponentPart h negative n exponent b cs)
      fun _ => local_double negative n exponent (b :: cs)

theorem local_takeDigits (h : Ends more) (n k : Nat) :
    Local more fun bs => .ok (takeDigits n k bs) := by
  intro bs
  dsimp only
  rw [takeDigits_append_ends h]
  exact .ok rfl _

theorem local_discard_skipDigits (h : Ends more) : Local more (discard skipDigits) := by
  intro bs
  change Follows more Eq (.ok ((), bs.dropWhile isDigit)) (.ok ((), (bs ++ more).dropWhile isDigit))
  rw [(span_digits_append h bs).2]
  exact .ok rfl _

theorem follows_fractionPart (h : Ends more) (negative : Bool) (n : Nat) (exponent : Int)
    (b : UInt8) (cs : Bytes) :
    Follows more Eq (fractionPart negative n exponent (b :: cs))
      (fractionPart negative n exponent (b :: (cs ++ more))) := by
  refine .advance ((local_takeDigits h n 0 cs).bind ?_)
  rintro ⟨m, taken, full⟩ _ mid rfl
  refine .ite (fun _ => (local_discard_skipDigits h mid).bind ?_) fun _ =>
    .ite (fun _ => ?_) fun _ => local_afterDigits h negative m _ mid
  · rintro _ _ mid -
    exact local_afterDigits h negative m _ mid
  · intro x rest hx
    cases mid <;> cases hx

/-- A number that ends behind its digits. -/
def wholeNumber (negative : Bool) (n : Nat) : Reader Number :=
  if ¬negative then pure (.natural n)
  else if 1 ≤ n ∧ n ≤ maxNegative then pure (.negative n)
  else double true n 0

theorem local_wholeNumber (negative : Bool) (n : Nat) : Local more (wholeNumber negative n) :=
  fun bs => .ite (fun _ => .ok rfl bs) fun _ => .ite (fun _ => .ok rfl bs) fun _ =>
    local_double true n 0 bs

theorem local_afterInteger (h : Ends more) (negative : Bool) (n : Nat) :
    Local more (afterInteger negative n) := by
  intro bs
  refine .peek ?_ ?_
  · have hexponent : ¬(more.head? = some 0x65 ∨ more.head? = some 0x45) :=
      not_or.mpr ⟨head?_ne_of_ends h (by decide), head?_ne_of_ends h (by decide)⟩
    rw [if_neg (head?_ne_of_ends h (by decide)), if_neg hexponent]
    exact local_wholeNumber negative n []
  · intro b cs
    exact .ite (fun _ => follows_fractionPart h negative n 0 b cs) fun _ =>
      .ite (fun _ => follows_exponentPart h negative n 0 b cs) fun _ =>
        local_wholeNumber negative n (b :: cs)

theorem local_longInteger (h : Ends more) (negative : Bool) (n : Nat) :
    Local more (longInteger negative n) := by
  intro bs
  refine (local_skipDigits h bs).bind ?_
  rintro k _ mid rfl
  refine .peek ?_ ?_
  · rw [if_neg (head?_ne_of_ends h (by decide))]
    exact local_afterDigits h negative n k []
  · intro b cs
    exact .ite (fun _ => follows_fractionPart h negative n k b cs) fun _ =>
      local_afterDigits h negative n k (b :: cs)

theorem local_numberRest (h : Ends more) (negative : Bool) : Local more (numberRest negative) := by
  intro bs
  refine .peek .error ?_
  intro b cs
  refine .ite (fun _ => .advance (.peek ?_ ?_)) fun _ => .ite (fun _ => ?_) fun _ => .error
  · cases more with
    | nil => exact local_afterInteger h negative 0 []
    | cons c rest =>
      dsimp only [List.head?_cons]
      rw [isDigit_head?_of_ends h c rfl]
      exact local_afterInteger h negative 0 []
  · intro c cs
    exact .ite (fun _ => .error) fun _ => local_afterInteger h negative 0 (c :: cs)
  · refine (local_takeDigits h 0 0 (b :: cs)).bind ?_
    rintro ⟨n, taken, full⟩ _ mid rfl
    exact .ite (fun _ => local_longInteger h negative n mid) fun _ =>
      local_afterInteger h negative n mid

/-! ### Lists and objects -/

theorem local_moreElements (first : Bool) : Local more (moreElements first) := by
  intro bs
  refine .peekSolid nofun ?_
  intro b cs
  refine .ite (fun _ => .ok rfl (b :: cs)) fun _ => .ite (fun _ => .ok rfl (b :: cs)) fun _ =>
    .ite (fun _ => .advance (.peekSolid nofun ?_)) fun _ => .error
  intro c ds
  exact .ite (fun _ => .error) fun _ => .ok rfl (c :: ds)

theorem local_endList : Local more endList := by
  intro bs
  refine .peekSolid nofun ?_
  intro b cs
  refine .ite (fun _ => .ok rfl cs) fun _ => .ite (fun _ => .advance ?_) fun _ => .error
  intro a rest h
  obtain ⟨c, mid, -, hstop⟩ := bind_eq_ok_iff.mp h
  by_cases hc : c = some 0x5D
  · rw [if_pos hc] at hstop
    cases hstop
  · rw [if_neg hc] at hstop
    cases hstop

theorem local_moreMembers (first : Bool) : Local more (moreMembers first) := by
  intro bs
  refine .peekSolid nofun ?_
  intro b cs
  refine .ite (fun _ => .ok rfl (b :: cs)) fun _ => .ite (fun _ => ?_) fun _ =>
    .ite (fun _ => .advance (.peekSolid nofun ?_)) fun _ => .error
  · exact .ite (fun _ => .ok rfl (b :: cs)) fun _ => .error
  · intro c ds
    exact .ite (fun _ => .ok rfl (c :: ds)) fun _ => .ite (fun _ => .error) fun _ => .error

theorem local_readKey : Local more readKey := by
  intro bs
  cases bs with
  | nil => exact .error
  | cons b cs => exact .advance (local_stringRest cs)

theorem local_colon : Local more colon := by
  intro bs
  refine .peekSolid nofun ?_
  intro b cs
  exact .ite (fun _ => .ok rfl cs) fun _ => .error

section

variable {item : Reader α} {item' : Reader α'} {R : α → α' → Prop}

theorem follows_elements (hitem : ∀ bs, Follows more R (item bs) (item' (bs ++ more)))
    {turns turns' : Nat} (h : turns ≤ turns') (first : Bool) (bs : Bytes) :
    Follows more (List.Forall₂ R) (elements item turns first bs)
      (elements item' turns' first (bs ++ more)) := by
  induction turns generalizing turns' first bs with
  | zero => exact .error
  | succ turns ih =>
    obtain ⟨turns', rfl⟩ := Nat.exists_eq_add_one_of_ne_zero
      (Nat.ne_of_gt (Nat.lt_of_lt_of_le (Nat.succ_pos turns) h))
    refine (local_moreElements first bs).bind ?_
    rintro goesOn _ mid rfl
    refine .ite (fun _ => (hitem mid).bind ?_) fun _ => .ok .nil mid
    intro a a' mid ha
    refine (ih (Nat.le_of_succ_le_succ h) false mid).bind ?_
    intro as as' mid has
    exact .ok (.cons ha has) mid

theorem follows_listRest (hitem : ∀ bs, Follows more R (item bs) (item' (bs ++ more)))
    (bs : Bytes) :
    Follows more (List.Forall₂ R) (listRest item bs) (listRest item' (bs ++ more)) := by
  have hturns : bs.length + 1 ≤ (bs ++ more).length + 1 := by simp
  have helements := follows_elements hitem hturns true bs
  refine Follows.bind (r := fun bs => elements item (bs.length + 1) true bs) helements ?_
  intro as as' mid has
  refine (local_endList mid).bind ?_
  rintro ⟨⟩ _ mid -
  exact .ok has mid

theorem follows_memberList (hitem : ∀ bs, Follows more R (item bs) (item' (bs ++ more)))
    {turns turns' : Nat} (h : turns ≤ turns') (first : Bool) (bs : Bytes) :
    Follows more (List.Forall₂ fun m m' => m.1 = m'.1 ∧ R m.2 m'.2)
      (memberList item turns first bs) (memberList item' turns' first (bs ++ more)) := by
  induction turns generalizing turns' first bs with
  | zero => exact .error
  | succ turns ih =>
    obtain ⟨turns', rfl⟩ := Nat.exists_eq_add_one_of_ne_zero
      (Nat.ne_of_gt (Nat.lt_of_lt_of_le (Nat.succ_pos turns) h))
    refine (local_moreMembers first bs).bind_of_eq ?_
    rintro goesOn _ mid hmore rfl
    refine .ite (fun _ => (local_readKey mid).bind ?_) fun hend => ?_
    · rintro key _ mid rfl
      refine (local_colon mid).bind ?_
      rintro ⟨⟩ _ mid -
      refine (hitem mid).bind ?_
      intro a a' mid ha
      refine (ih (Nat.le_of_succ_le_succ h) false mid).bind ?_
      intro ms ms' mid hms
      exact .ok (.cons ⟨rfl, ha⟩ hms) mid
    · rw [Bool.not_eq_true] at hend
      subst hend
      obtain ⟨cs, rfl⟩ := exists_of_moreMembers hmore
      exact .ok .nil cs

theorem follows_memberRest (hitem : ∀ bs, Follows more R (item bs) (item' (bs ++ more)))
    (bs : Bytes) :
    Follows more (List.Forall₂ fun m m' => m.1 = m'.1 ∧ R m.2 m'.2) (memberRest item bs)
      (memberRest item' (bs ++ more)) :=
  follows_memberList hitem (by simp) true bs

end

/-! ### Values -/

namespace Forms

variable {T T' : Type} {f : Forms T} {f' : Forms T'} {R : T → T' → Prop}

/-- One reading of a value follows another if they do so for each form. -/
theorem follows_read (hnull : R f.null f'.null) (hbool : ∀ b, R (f.bool b) (f'.bool b))
    (hstring : ∀ s, R (f.string s) (f'.string s))
    (hnumber : ∀ negative bs, Follows more R (f.number negative bs) (f'.number negative (bs ++ more)))
    (hnested : ∀ list object, f.nested? = some (list, object) →
      ∃ list' object', f'.nested? = some (list', object') ∧
        (∀ bs, Follows more R (list bs) (list' (bs ++ more))) ∧
        ∀ bs, Follows more R (object bs) (object' (bs ++ more))) (bs : Bytes) :
    Follows more R (f.read bs) (f'.read (bs ++ more)) := by
  intro t rest h
  have hopens := read_eq_ok_iff.mp h
  have hdrop : (bs ++ more).dropWhile isBlank = bs.dropWhile isBlank ++ more := by
    rw [List.dropWhile_append]
    cases hcs : bs.dropWhile isBlank with
    | nil =>
      rw [hcs] at hopens
      cases hopens
    | cons b cs => rfl
  simp only [read_eq_ok_iff, hdrop]
  generalize bs.dropWhile isBlank = cs at hopens
  cases hopens with
  | null hword =>
    obtain ⟨⟨⟩, hword', -⟩ := local_word _ _ _ _ hword
    exact ⟨f'.null, .null hword', hnull⟩
  | true hword =>
    obtain ⟨⟨⟩, hword', -⟩ := local_word _ _ _ _ hword
    exact ⟨f'.bool true, .true hword', hbool true⟩
  | false hword =>
    obtain ⟨⟨⟩, hword', -⟩ := local_word _ _ _ _ hword
    exact ⟨f'.bool false, .false hword', hbool false⟩
  | string hread =>
    obtain ⟨_, hread', rfl⟩ := local_stringRest _ _ _ hread
    exact ⟨_, .string hread', hstring _⟩
  | negative hread =>
    obtain ⟨t', hread', ht⟩ := hnumber true _ _ _ hread
    exact ⟨t', .negative hread', ht⟩
  | digit hdigit hread =>
    obtain ⟨t', hread', ht⟩ := hnumber false _ _ _ hread
    exact ⟨t', .digit hdigit hread', ht⟩
  | list hreaders hread =>
    obtain ⟨list', object', hreaders', hlist, -⟩ := hnested _ _ hreaders
    obtain ⟨t', hread', ht⟩ := hlist _ _ _ hread
    exact ⟨t', .list hreaders' hread', ht⟩
  | object hreaders hread =>
    obtain ⟨list', object', hreaders', -, hobject⟩ := hnested _ _ hreaders
    obtain ⟨t', hread', ht⟩ := hobject _ _ _ hread
    exact ⟨t', .object hreaders' hread', ht⟩

end Forms

theorem follows_valueForms (h : Ends more) {inner? inner'? : Option (Reader Value)}
    (hinner : ∀ inner, inner? = some inner → ∃ inner', inner'? = some inner' ∧
      ∀ bs, Follows more Eq (inner bs) (inner' (bs ++ more))) (bs : Bytes) :
    Follows more Eq ((valueForms inner?).read bs) ((valueForms inner'?).read (bs ++ more)) := by
  refine Forms.follows_read (R := Eq) (f := valueForms inner?) ?null ?bool ?string ?number
    ?nested bs
  case null => rfl
  case bool => exact fun _ => rfl
  case string => exact fun _ => rfl
  case number =>
    intro negative bs
    refine (local_numberRest h negative bs).bind ?_
    rintro n _ mid rfl
    exact .ok rfl mid
  case nested =>
    intro list object hnested
    obtain ⟨inner, rfl, hreaders⟩ := Option.map_eq_some_iff.mp hnested
    obtain ⟨inner', rfl, hitem⟩ := hinner inner rfl
    cases hreaders
    refine ⟨_, _, rfl, ?_, ?_⟩
    · intro bs
      refine (follows_listRest hitem bs).bind ?_
      intro vs vs' mid hvs
      rw [List.forall₂_eq_eq_eq] at hvs
      exact .ok (congrArg Value.list hvs) mid
    · intro bs
      refine (follows_memberRest hitem bs).bind ?_
      intro ms ms' mid hms
      have hsame : ms = ms' := by
        rw [← List.forall₂_eq_eq_eq]
        exact hms.imp fun m m' heq => Prod.ext heq.1 heq.2
      exact .ok (by rw [hsame]) mid

/-- A value is read as the same value in front of anything that can follow it, and with more
    room for nesting. -/
theorem follows_readValue (h : Ends more) {depth depth' : Nat} (hdepth : depth ≤ depth')
    (bs : Bytes) :
    Follows more Eq (readValue depth bs) (readValue depth' (bs ++ more)) := by
  induction depth generalizing depth' bs with
  | zero =>
    rw [readValue_eq, readValue_eq]
    refine follows_valueForms h ?_ bs
    rintro inner ⟨⟩
  | succ depth ih =>
    obtain ⟨depth', rfl⟩ := Nat.exists_eq_add_one_of_ne_zero
      (Nat.ne_of_gt (Nat.lt_of_lt_of_le (Nat.succ_pos depth) hdepth))
    rw [readValue_eq, readValue_eq]
    refine follows_valueForms h ?_ bs
    rintro inner ⟨⟩
    exact ⟨_, rfl, ih (Nat.le_of_succ_le_succ hdepth)⟩

end QueryClient.Json
