/-
  QueryClient/Proofs/Text/Utf8.lean
  =================================
  **A text comes back from its bytes.** The reader takes the bytes of one character and
  is idle again, whatever comes after them (`piecesFrom_encode`). So the pieces of the
  bytes of a text are its characters, and strict reading gives the text back.

  The reader narrows the range of a second byte where a longer form, a surrogate or a
  number past the last code point would begin. What has to be shown is that no character
  has its second byte outside that range; this is the arithmetic below.
-/
import QueryClient.Text.Utf8

namespace QueryClient.Text

/-! ### Single bytes -/

theorem start_ascii : ∀ n < 0x80,
    Utf8State.start (UInt8.ofNat n) = (some (.char (Char.ofNat n)), .idle) := by
  decide

theorem start_two : ∀ n < 32, 2 ≤ n →
    Utf8State.start (UInt8.ofNat (n + 0xC0)) = (none, .inside 1 0x80 0xBF n 1) := by
  decide

theorem start_three : ∀ n < 16,
    Utf8State.start (UInt8.ofNat (n + 0xE0)) =
      (none, .inside 2 (if n = 0 then 0xA0 else 0x80) (if n = 13 then 0x9F else 0xBF) n 1) := by
  decide

theorem start_four : ∀ n < 5,
    Utf8State.start (UInt8.ofNat (n + 0xF0)) =
      (none, .inside 3 (if n = 0 then 0x90 else 0x80) (if n = 4 then 0x8F else 0xBF) n 1) := by
  decide

variable {due value seen n : Nat} {low high : UInt8}

theorem toNat_continuation (hn : n < 64) : (UInt8.ofNat (n + 0x80)).toNat = n + 0x80 := by
  rw [UInt8.toNat_ofNat']
  omega

theorem step_last (hn : n < 64) (hlow : low.toNat ≤ n + 0x80) (hhigh : n + 0x80 ≤ high.toNat) :
    Utf8State.step (.inside 1 low high value seen) (UInt8.ofNat (n + 0x80)) =
      ([.char (Char.ofNat (value * 64 + n))], .idle) := by
  have hrange : (low ≤ UInt8.ofNat (n + 0x80) && UInt8.ofNat (n + 0x80) ≤ high) = true := by
    simp only [UInt8.le_iff_toNat_le, toNat_continuation hn, hlow, hhigh, decide_true,
      Bool.and_self]
  rw [Utf8State.step, if_pos hrange, toNat_continuation hn, Nat.add_sub_cancel,
    if_pos (Nat.le_refl 1)]

theorem step_more (hn : n < 64) (hlow : low.toNat ≤ n + 0x80) (hhigh : n + 0x80 ≤ high.toNat) :
    Utf8State.step (.inside (due + 2) low high value seen) (UInt8.ofNat (n + 0x80)) =
      ([], .inside (due + 1) 0x80 0xBF (value * 64 + n) (seen + 1)) := by
  have hrange : (low ≤ UInt8.ofNat (n + 0x80) && UInt8.ofNat (n + 0x80) ≤ high) = true := by
    simp only [UInt8.le_iff_toNat_le, toNat_continuation hn, hlow, hhigh, decide_true,
      Bool.and_self]
  rw [Utf8State.step, if_pos hrange, toNat_continuation hn, Nat.add_sub_cancel,
    if_neg (by omega)]
  rfl

/-! ### Sequences -/

theorem piecesFrom_start {b : UInt8} {st : Utf8State} (h : Utf8State.start b = (none, st))
    (rest : Bytes) : piecesFrom .idle (b :: rest) = piecesFrom st rest := by
  rw [piecesFrom, Utf8State.step, h]
  rfl

theorem piecesFrom_last (hn : n < 64) (rest : Bytes) :
    piecesFrom (.inside 1 0x80 0xBF value seen) (UInt8.ofNat (n + 0x80) :: rest) =
      .char (Char.ofNat (value * 64 + n)) :: piecesFrom .idle rest := by
  have hhigh : n + 0x80 ≤ (0xBF : UInt8).toNat := Nat.add_le_add_right (Nat.le_of_lt_succ hn) 0x80
  rw [piecesFrom, step_last hn (Nat.le_add_left _ _) hhigh]
  rfl

theorem piecesFrom_more (hn : n < 64) (hlow : low.toNat ≤ n + 0x80) (hhigh : n + 0x80 ≤ high.toNat)
    (rest : Bytes) :
    piecesFrom (.inside (due + 2) low high value seen) (UInt8.ofNat (n + 0x80) :: rest) =
      piecesFrom (.inside (due + 1) 0x80 0xBF (value * 64 + n) (seen + 1)) rest := by
  rw [piecesFrom, step_more hn hlow hhigh]
  rfl

theorem piecesFrom_two {v : Nat} (hmin : 0x80 ≤ v) (hmax : v ≤ 0x7FF) (rest : Bytes) :
    piecesFrom .idle
        (UInt8.ofNat (v / 64 % 32 + 0xC0) :: UInt8.ofNat (v % 64 + 0x80) :: rest) =
      .char (Char.ofNat v) :: piecesFrom .idle rest := by
  have hvalue : v / 64 % 32 * 64 + v % 64 = v := by omega
  rw [piecesFrom_start (start_two _ (by omega) (by omega)), piecesFrom_last (by omega), hvalue]

/-- The second byte is out of its range for surrogates, and for what fits two bytes. -/
theorem piecesFrom_three {v : Nat} (hmin : 0x800 ≤ v) (hmax : v ≤ 0xFFFF)
    (hscalar : v < 0xD800 ∨ 0xDFFF < v) (rest : Bytes) :
    piecesFrom .idle (UInt8.ofNat (v / 4096 % 16 + 0xE0) :: UInt8.ofNat (v / 64 % 64 + 0x80) ::
        UInt8.ofNat (v % 64 + 0x80) :: rest) =
      .char (Char.ofNat v) :: piecesFrom .idle rest := by
  have hlow : (if v / 4096 % 16 = 0 then 0xA0 else 0x80 : UInt8).toNat ≤ v / 64 % 64 + 0x80 := by
    split
    · change 0xA0 ≤ _
      omega
    · exact Nat.le_add_left _ _
  have hhigh : v / 64 % 64 + 0x80 ≤ (if v / 4096 % 16 = 13 then 0x9F else 0xBF : UInt8).toNat := by
    split
    · change _ ≤ 0x9F
      omega
    · change _ ≤ 0xBF
      omega
  have hvalue : (v / 4096 % 16 * 64 + v / 64 % 64) * 64 + v % 64 = v := by omega
  rw [piecesFrom_start (start_three _ (by omega)), piecesFrom_more (by omega) hlow hhigh,
    piecesFrom_last (by omega), hvalue]

/-- The second byte is out of its range past the last code point, and for what fits three
    bytes. -/
theorem piecesFrom_four {v : Nat} (hmin : 0x10000 ≤ v) (hmax : v < 0x110000) (rest : Bytes) :
    piecesFrom .idle (UInt8.ofNat (v / 262144 % 8 + 0xF0) :: UInt8.ofNat (v / 4096 % 64 + 0x80) ::
        UInt8.ofNat (v / 64 % 64 + 0x80) :: UInt8.ofNat (v % 64 + 0x80) :: rest) =
      .char (Char.ofNat v) :: piecesFrom .idle rest := by
  have hlow : (if v / 262144 % 8 = 0 then 0x90 else 0x80 : UInt8).toNat ≤ v / 4096 % 64 + 0x80 := by
    split
    · change 0x90 ≤ _
      omega
    · exact Nat.le_add_left _ _
  have hhigh : v / 4096 % 64 + 0x80 ≤
      (if v / 262144 % 8 = 4 then 0x8F else 0xBF : UInt8).toNat := by
    split
    · change _ ≤ 0x8F
      omega
    · change _ ≤ 0xBF
      omega
  have hnext : v / 64 % 64 + 0x80 ≤ (0xBF : UInt8).toNat := by
    change _ ≤ 0xBF
    omega
  have hvalue : ((v / 262144 % 8 * 64 + v / 4096 % 64) * 64 + v / 64 % 64) * 64 + v % 64 = v := by
    omega
  rw [piecesFrom_start (start_four _ (by omega)), piecesFrom_more (by omega) hlow hhigh,
    piecesFrom_more (by omega) (Nat.le_add_left _ _) hnext, piecesFrom_last (by omega), hvalue]

/-- The bytes of one character are read as that character, whatever follows them. -/
theorem piecesFrom_encode (c : Char) (rest : Bytes) :
    piecesFrom .idle (String.utf8EncodeChar c ++ rest) = .char c :: piecesFrom .idle rest := by
  have hvalid : c.val.toNat < 0xD800 ∨ 0xDFFF < c.val.toNat ∧ c.val.toNat < 0x110000 := c.valid
  have hchar : Char.ofNat c.val.toNat = c := Char.ofNat_toNat c
  rw [String.utf8EncodeChar]
  split
  · rw [List.singleton_append, piecesFrom, Utf8State.step, start_ascii _ (by omega), hchar]
    rfl
  · split
    · exact (piecesFrom_two (by omega) (by omega) rest).trans (by rw [hchar])
    · split
      · exact (piecesFrom_three (by omega) (by omega) (by omega) rest).trans (by rw [hchar])
      · exact (piecesFrom_four (by omega) (by omega) rest).trans (by rw [hchar])

/-! ### Sizes of characters -/

theorem utf8EncodeChar_ascii {c : Char} (h : c.toNat < 0x80) :
    String.utf8EncodeChar c = [UInt8.ofNat c.toNat] := by
  have hone : c.val.toNat ≤ 127 := Nat.le_of_lt_succ h
  rw [String.utf8EncodeChar]
  exact if_pos hone

/-- Past ASCII every byte of a character is past ASCII. -/
theorem le_of_mem_utf8EncodeChar {c : Char} (h : 0x80 ≤ c.toNat) {b : UInt8}
    (hb : b ∈ String.utf8EncodeChar c) : 0x80 ≤ b.toNat := by
  have hlarge : ¬c.val.toNat ≤ 127 := Nat.not_le.mpr h
  have hpast {n k : Nat} (hk : 0x80 ≤ k) (hsum : n + k < 256) :
      0x80 ≤ (UInt8.ofNat (n + k)).toNat := by
    rw [UInt8.toNat_ofNat']
    omega
  rw [String.utf8EncodeChar, if_neg hlarge] at hb
  split at hb
  · simp only [List.mem_cons, List.not_mem_nil, or_false] at hb
    rcases hb with rfl | rfl <;> exact hpast (by decide) (by omega)
  · split at hb
    · simp only [List.mem_cons, List.not_mem_nil, or_false] at hb
      rcases hb with rfl | rfl | rfl <;> exact hpast (by decide) (by omega)
    · simp only [List.mem_cons, List.not_mem_nil, or_false] at hb
      rcases hb with rfl | rfl | rfl | rfl <;> exact hpast (by decide) (by omega)

/-! ### Texts -/

theorem utf8_append (s t : String) : utf8 (s ++ t) = utf8 s ++ utf8 t := by
  rw [utf8, String.toList_append, List.flatMap_append]
  rfl

theorem utf8_ofList (cs : List Char) :
    utf8 (String.ofList cs) = cs.flatMap String.utf8EncodeChar := by
  rw [utf8, String.toList_ofList]

theorem pieces_utf8 (s : String) : pieces (utf8 s) = s.toList.map .char := by
  rw [pieces, utf8]
  induction s.toList with
  | nil => rfl
  | cons c cs ih => rw [List.flatMap_cons, piecesFrom_encode, ih, List.map_cons]

theorem charactersFrom_map_char (index : Nat) (cs : List Char) :
    charactersFrom index (cs.map .char) = .ok cs := by
  induction cs generalizing index with
  | nil => rfl
  | cons c cs ih =>
    rw [List.map_cons, charactersFrom, ih]
    rfl

/-- Strict reading gives a text back from its bytes. -/
theorem text?_utf8 (s : String) : text? (utf8 s) = .ok s := by
  rw [text?, pieces_utf8, charactersFrom_map_char]
  exact congrArg Except.ok String.ofList_toList

/-- Lenient reading does so too: it finds no fragment to replace. -/
theorem lossy_utf8 (s : String) : lossy (utf8 s) = s := by
  have hshown : (s.toList.map Piece.char).map Piece.shown = s.toList := by
    rw [List.map_map]
    exact List.map_id _
  rw [lossy, pieces_utf8, hshown, String.ofList_toList]

theorem length_utf8 (s : String) : (utf8 s).length = s.utf8ByteSize := by
  rw [utf8, ← List.size_toByteArray]
  change s.toList.utf8Encode.size = s.utf8ByteSize
  rw [String.utf8Encode_toList, String.size_toByteArray]

theorem utf8_eq_nil_iff {s : String} : utf8 s = [] ↔ s = "" := by
  rw [← List.length_eq_zero_iff, length_utf8, String.utf8ByteSize_eq_zero_iff]

end QueryClient.Text
