/-
  QueryClient/Proofs/Json/Scalar.lean
  ===================================
  **Strings and whole numbers come back from what is written for them.**

  The bytes between two quotes are a row of segments: bytes that stand for themselves, and
  escapes. `Spells` says what such a row stands for; the reader yields exactly that, up to
  the closing quote (`Spells.stringBytes_eq`). What is written for a character is one
  segment or a few, and stands for its UTF-8 bytes (`spells_escaped`).

  A number has no closing mark. It is read up to the first byte that cannot go on with it,
  so what is said of numbers depends on what follows (`Ends`).
-/
import Mathlib.Tactic.SplitIfs
import QueryClient.Json.Value
import QueryClient.Proofs.Text.Utf8

namespace QueryClient

namespace Json

/-! ### Readers in a row -/

variable {α β : Type}

theorem bind_eq {r : Reader α} {f : α → Reader β} {bs rest : Bytes} {a : α}
    (h : r bs = .ok (a, rest)) : (r >>= f) bs = f a rest := by
  change (r bs >>= fun p => f p.1 p.2) = _
  rw [h]
  rfl

@[simp] theorem peek_bind (f : Option UInt8 → Reader α) (b : UInt8) (bs : Bytes) :
    (peek >>= f) (b :: bs) = f (some b) (b :: bs) := rfl

@[simp] theorem advance_bind (f : Unit → Reader α) (b : UInt8) (bs : Bytes) :
    (advance >>= f) (b :: bs) = f () bs := rfl

/-! ### Strings -/

/-- The bytes between two quotes, and the bytes that they stand for. -/
inductive Spells : Bytes → Bytes → Prop where
  | nil : Spells [] []
  | plain {b : UInt8} {bs out : Bytes} (hcontrol : 0x20 ≤ b) (hquote : b ≠ 0x22)
      (hbackslash : b ≠ 0x5C) (hrest : Spells bs out) : Spells (b :: bs) (b :: out)
  | backslash {e head bs out : Bytes} (hescape : ∀ rest, escape (e ++ rest) = .ok (head, rest))
      (hrest : Spells bs out) : Spells (0x5C :: (e ++ bs)) (head ++ out)

theorem Spells.append {bs cs out out' : Bytes} (hbs : Spells bs out) (hcs : Spells cs out') :
    Spells (bs ++ cs) (out ++ out') := by
  induction hbs with
  | nil => exact hcs
  | plain hcontrol hquote hbackslash _ ih => exact .plain hcontrol hquote hbackslash ih
  | backslash hescape _ ih =>
    rw [List.cons_append, List.append_assoc, List.append_assoc]
    exact .backslash hescape ih

/-- A string is read up to its closing quote. Each turn takes a segment and so at least
    one byte. -/
theorem Spells.stringBytes_eq {bs out : Bytes} (h : Spells bs out) {turns : Nat}
    (hturns : bs.length < turns) (rest : Bytes) :
    stringBytes turns (bs ++ 0x22 :: rest) = .ok (out, rest) := by
  induction h generalizing turns with
  | nil =>
    cases turns with
    | zero => cases hturns
    | succ turns => rfl
  | @plain b bs out hcontrol hquote hbackslash _ ih =>
    cases turns with
    | zero => cases hturns
    | succ turns =>
      rw [List.cons_append, stringBytes, peek_bind]
      dsimp only
      rw [advance_bind, if_neg hquote, if_neg hbackslash, if_neg (UInt8.not_lt.mpr hcontrol),
        bind_eq (ih (Nat.lt_of_succ_lt_succ hturns))]
      rfl
  | @backslash e head bs out hescape _ ih =>
    cases turns with
    | zero => cases hturns
    | succ turns =>
      have hfewer : bs.length < turns := by
        rw [List.length_cons, List.length_append] at hturns
        omega
      rw [List.cons_append, List.append_assoc, stringBytes, peek_bind]
      dsimp only
      rw [advance_bind, if_neg (by decide), if_pos rfl, bind_eq (hescape _), bind_eq (ih hfewer)]
      rfl

theorem spells_self {bs : Bytes} (h : ∀ b ∈ bs, 0x20 ≤ b ∧ b ≠ 0x22 ∧ b ≠ 0x5C) :
    Spells bs bs := by
  induction bs with
  | nil => exact .nil
  | cons b bs ih =>
    obtain ⟨hcontrol, hquote, hbackslash⟩ := h b List.mem_cons_self
    exact .plain hcontrol hquote hbackslash (ih fun c hc => h c (List.mem_cons_of_mem b hc))

theorem spells_short {b v : UInt8} (hb : b ≠ 0x75) (h : shortEscape? b = some v) :
    Spells [0x5C, b] [v] := by
  have hescape (rest : Bytes) : escape ([b] ++ rest) = .ok ([v], rest) := by
    rw [List.singleton_append, escape, peek_bind]
    dsimp only
    rw [if_neg hb, h]
    rfl
  exact Spells.backslash hescape .nil

theorem hexDigit?_digitChar : ∀ n < 16,
    String.utf8EncodeChar (Nat.digitChar n) = [UInt8.ofNat (Nat.digitChar n).toNat] ∧
      hexDigit? (UInt8.ofNat (Nat.digitChar n).toNat) = some n := by
  decide

/-- A control character is written by its number, which has two digits. -/
theorem spells_control {c : Char} (h : c.toNat < 0x20) :
    Spells
      (['\\', 'u', '0', '0', Nat.digitChar (c.toNat / 16),
        Nat.digitChar (c.toNat % 16)].flatMap String.utf8EncodeChar)
      (String.utf8EncodeChar c) := by
  obtain ⟨hhigh, hhigh'⟩ := hexDigit?_digitChar (c.toNat / 16) (by omega)
  obtain ⟨hlow, hlow'⟩ := hexDigit?_digitChar (c.toNat % 16) (by omega)
  have hvalue : ((0 * 16 + 0) * 16 + c.toNat / 16) * 16 + c.toNat % 16 = c.toNat := by omega
  have hescape (rest : Bytes) : escape ([0x75, 0x30, 0x30,
      UInt8.ofNat (Nat.digitChar (c.toNat / 16)).toNat,
      UInt8.ofNat (Nat.digitChar (c.toNat % 16)).toNat] ++ rest) =
        .ok (String.utf8EncodeChar c, rest) := by
    have hfour : hexFour (0x30 :: 0x30 :: UInt8.ofNat (Nat.digitChar (c.toNat / 16)).toNat ::
        UInt8.ofNat (Nat.digitChar (c.toNat % 16)).toNat :: rest) = .ok (c.toNat, rest) := by
      have hzero : hexDigit? 0x30 = some 0 := by decide
      rw [hexFour, hhigh', hlow', hzero]
      dsimp only
      rw [hvalue]
    have hchar : unicodeEscape (0x30 :: 0x30 ::
        UInt8.ofNat (Nat.digitChar (c.toNat / 16)).toNat ::
        UInt8.ofNat (Nat.digitChar (c.toNat % 16)).toNat :: rest) = .ok (c, rest) := by
      rw [unicodeEscape, bind_eq hfour, if_neg (by omega), if_pos (Or.inl (by omega)),
        Char.ofNat_toNat]
      rfl
    rw [List.cons_append, escape, peek_bind]
    dsimp only
    rw [if_pos rfl, advance_bind]
    exact bind_eq hchar
  have hspells := Spells.backslash hescape .nil
  rw [List.append_nil, List.append_nil] at hspells
  simp only [List.flatMap_cons, List.flatMap_nil, hhigh, hlow]
  exact hspells

theorem spells_encode {c : Char} (hcontrol : 0x20 ≤ c.toNat) (hquote : c ≠ '"')
    (hbackslash : c ≠ '\\') : Spells (String.utf8EncodeChar c) (String.utf8EncodeChar c) := by
  apply spells_self
  intro b hb
  by_cases hascii : c.toNat < 0x80
  · have hnat : b.toNat = c.toNat := by
      rw [Text.utf8EncodeChar_ascii hascii] at hb
      rw [List.mem_singleton.mp hb, UInt8.toNat_ofNat']
      omega
    refine ⟨?_, ?_, ?_⟩
    · rw [UInt8.le_iff_toNat_le, hnat]
      exact hcontrol
    · rintro rfl
      exact hquote (Char.toNat_inj.mp hnat.symm)
    · rintro rfl
      exact hbackslash (Char.toNat_inj.mp hnat.symm)
  · have hpast := Text.le_of_mem_utf8EncodeChar (Nat.not_lt.mp hascii) hb
    refine ⟨?_, ?_, ?_⟩
    · rw [UInt8.le_iff_toNat_le]
      exact Nat.le_trans (by decide) hpast
    · rintro rfl
      exact absurd hpast (by decide)
    · rintro rfl
      exact absurd hpast (by decide)

/-- What is written for a character stands for its bytes. -/
theorem spells_escaped (c : Char) :
    Spells ((escaped c).flatMap String.utf8EncodeChar) (String.utf8EncodeChar c) := by
  rw [escaped]
  split_ifs with hmark hfeed hreturn htab hback hform hcontrol
  · rcases hmark with rfl | rfl
    · exact spells_short (by decide) rfl
    · exact spells_short (by decide) rfl
  · subst hfeed
    exact spells_short (by decide) rfl
  · subst hreturn
    exact spells_short (by decide) rfl
  · subst htab
    exact spells_short (by decide) rfl
  · subst hback
    exact spells_short (by decide) rfl
  · subst hform
    exact spells_short (by decide) rfl
  · exact spells_control hcontrol
  · rw [not_or] at hmark
    rw [List.flatMap_singleton]
    exact spells_encode (Nat.not_lt.mp hcontrol) hmark.1 hmark.2

/-- What is written for a string is read back, from behind its opening quote. -/
theorem stringRest_escaped (s : String) (rest : Bytes) :
    stringRest ((s.toList.flatMap escaped).flatMap String.utf8EncodeChar ++ 0x22 :: rest) =
      .ok (s, rest) := by
  have hspells : Spells ((s.toList.flatMap escaped).flatMap String.utf8EncodeChar)
      (Text.utf8 s) := by
    rw [Text.utf8]
    induction s.toList with
    | nil => exact .nil
    | cons c cs ih =>
      rw [List.flatMap_cons, List.flatMap_append, List.flatMap_cons]
      exact (spells_escaped c).append ih
  rw [stringRest, hspells.stringBytes_eq (by rw [List.length_append, List.length_cons]; omega)]
  dsimp only
  rw [Text.text?_utf8]

theorem utf8_stringText (s : String) :
    Text.utf8 (stringText s) =
      0x22 :: ((s.toList.flatMap escaped).flatMap String.utf8EncodeChar ++ [0x22]) := by
  rw [stringText, Text.utf8_append, Text.utf8_append, Text.utf8_ofList (s.toList.flatMap escaped)]
  rfl

/-! ### Whole numbers -/

/-- What can follow a value: nothing, a comma, or the end of a list or an object. -/
def Ends (rest : Bytes) : Prop := ∀ b ∈ rest.head?, b = 0x2C ∨ b = 0x5D ∨ b = 0x7D

theorem ends_nil : Ends [] := by
  intro b hb
  cases hb

theorem ends_cons {b : UInt8} (h : b = 0x2C ∨ b = 0x5D ∨ b = 0x7D) (rest : Bytes) :
    Ends (b :: rest) := by
  intro c hc
  cases hc
  exact h

theorem digit_byte : ∀ n < 10,
    String.utf8EncodeChar (Nat.digitChar n) = [UInt8.ofNat (n + 0x30)] ∧
      isDigit (UInt8.ofNat (n + 0x30)) = true ∧ digitValue (UInt8.ofNat (n + 0x30)) = n ∧
      (UInt8.ofNat (n + 0x30) = 0x30 → n = 0) := by
  decide

theorem utf8_repr_of_lt {n : Nat} (h : n < 10) :
    Text.utf8 n.repr = [UInt8.ofNat (n + 0x30)] := by
  rw [Text.utf8, Nat.toList_repr, Nat.toDigits_of_lt_base h, List.flatMap_singleton,
    (digit_byte n h).1]

theorem utf8_repr_of_le {n : Nat} (h : 10 ≤ n) :
    Text.utf8 n.repr = Text.utf8 (n / 10).repr ++ [UInt8.ofNat (n % 10 + 0x30)] := by
  rw [Text.utf8, Nat.toList_repr, Nat.toDigits_of_base_le (by decide) h, List.flatMap_append,
    List.flatMap_singleton, (digit_byte (n % 10) (by omega)).1, Text.utf8, Nat.toList_repr]

/-- The first digit of a number is zero for zero only. -/
theorem exists_head_repr (n : Nat) :
    ∃ d < 10, ∃ bs, Text.utf8 n.repr = UInt8.ofNat (d + 0x30) :: bs ∧ (d = 0 → n = 0) := by
  induction n using Nat.strongRecOn with
  | ind n ih =>
    by_cases hsmall : n < 10
    · exact ⟨n, hsmall, [], utf8_repr_of_lt hsmall, id⟩
    · obtain ⟨d, hd, bs, hbs, hzero⟩ := ih (n / 10) (by omega)
      refine ⟨d, hd, bs ++ [UInt8.ofNat (n % 10 + 0x30)], ?_, ?_⟩
      · rw [utf8_repr_of_le (by omega), hbs, List.cons_append]
      · intro hd
        have hquotient := hzero hd
        omega

theorem takeDigits_append {n k m k' : Nat} {ds : Bytes}
    (h : takeDigits n k ds = ((m, k', false), [])) (rest : Bytes) :
    takeDigits n k (ds ++ rest) = takeDigits m k' rest := by
  induction ds generalizing n k with
  | nil =>
    cases h
    rfl
  | cons d ds ih =>
    rw [takeDigits] at h
    rw [List.cons_append, takeDigits]
    by_cases hdigit : isDigit d = true
    · rw [if_pos hdigit] at h ⊢
      by_cases hlarge : maxNatural < n * 10 + digitValue d
      · rw [if_pos hlarge] at h
        cases h
      · rw [if_neg hlarge] at h ⊢
        exact ih h
    · rw [if_neg hdigit] at h
      cases h

/-- The digits of a number lead to it, from the first to the last. -/
theorem takeDigits_repr {n : Nat} (h : n ≤ maxNatural) :
    ∃ k, takeDigits 0 0 (Text.utf8 n.repr) = ((n, k, false), []) := by
  induction n using Nat.strongRecOn with
  | ind n ih =>
    have hone {m k d : Nat} (hd : d < 10) (hm : m * 10 + d ≤ maxNatural) :
        takeDigits m k [UInt8.ofNat (d + 0x30)] = ((m * 10 + d, k + 1, false), []) := by
      obtain ⟨-, hdigit, hvalue, -⟩ := digit_byte d hd
      rw [takeDigits, if_pos hdigit, hvalue, if_neg (Nat.not_lt.mpr hm)]
      rfl
    by_cases hsmall : n < 10
    · refine ⟨1, ?_⟩
      rw [utf8_repr_of_lt hsmall, hone hsmall (by omega), Nat.zero_mul, Nat.zero_add]
    · obtain ⟨k, hk⟩ := ih (n / 10) (by omega) (by omega)
      have hvalue : n / 10 * 10 + n % 10 = n := Nat.div_add_mod' n 10
      refine ⟨k + 1, ?_⟩
      rw [utf8_repr_of_le (by omega), takeDigits_append hk, hone (by omega) (by omega), hvalue]

theorem takeDigits_ends {rest : Bytes} (h : Ends rest) (n k : Nat) :
    takeDigits n k rest = ((n, k, false), rest) := by
  cases rest with
  | nil => rfl
  | cons b rest =>
    have hdigit : isDigit b = false := by
      rcases h b rfl with rfl | rfl | rfl <;> rfl
    rw [takeDigits, hdigit]
    rfl

theorem afterInteger_ends {rest : Bytes} (h : Ends rest) (n : Nat) :
    afterInteger false n rest = .ok (.natural n, rest) := by
  cases rest with
  | nil => rfl
  | cons b rest => rcases h b rfl with rfl | rfl | rfl <;> rfl

/-- What is written for a whole number of 64 bits is read back. -/
theorem numberRest_repr {n : Nat} (h : n ≤ maxNatural) {rest : Bytes} (hrest : Ends rest) :
    numberRest false (Text.utf8 n.repr ++ rest) = .ok (.natural n, rest) := by
  by_cases hzero : n = 0
  · subst hzero
    cases rest with
    | nil => rfl
    | cons b rest => rcases hrest b rfl with rfl | rfl | rfl <;> rfl
  · obtain ⟨d, hd, bs, hbs, hhead⟩ := exists_head_repr n
    obtain ⟨-, hdigit, -, hnonzero⟩ := digit_byte d hd
    obtain ⟨k, hk⟩ := takeDigits_repr h
    have htake : takeDigits 0 0 (UInt8.ofNat (d + 0x30) :: (bs ++ rest)) =
        ((n, k, false), rest) := by
      rw [← List.cons_append, ← hbs, takeDigits_append hk, takeDigits_ends hrest]
    rw [hbs, List.cons_append, numberRest, peek_bind]
    dsimp only
    rw [if_neg fun heq => hzero (hhead (hnonzero heq)), if_pos hdigit]
    refine (bind_eq (a := (n, k, false)) (congrArg Except.ok htake)).trans ?_
    exact afterInteger_ends hrest n

end Json
end QueryClient
