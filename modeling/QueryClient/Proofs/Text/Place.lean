/-
  QueryClient/Proofs/Text/Place.lean
  ==================================
  **Places and offsets.** The line of an offset is one more than the line feeds in front of
  it, its column one more than the bytes since the last of them. From both the offset comes
  back (`byteOffset?_of_lineAt`), since the lines in front of the offset's line and the bytes
  on it are the bytes in front of the offset (`lineStart_add_sinceFeed`).

  A place that lies in no line of the text is moved to the end of the text. So the remark
  about settings that cannot be read stands inside of their text, for every place on line 1
  or below; a reader names no other (`Json.one_le_line_of_readAll`).
-/
import Mathlib.Data.List.Induction
import Mathlib.Data.List.TakeWhile
import QueryClient.Fault

namespace QueryClient

namespace Text.Place

/-! ### Lines and columns by counting -/

/-- How many bytes stand behind the last line feed. -/
def sinceFeed (bs : Bytes) : Nat := (bs.reverse.takeWhile (· ≠ 0x0A)).length

/-- The line of an offset, from 1 on. -/
def lineAt (bs : Bytes) (offset : Nat) : Nat := 1 + (bs.take offset).count 0x0A

/-- The column of the byte at an offset, from 1 on. -/
def columnAt (bs : Bytes) (offset : Nat) : Nat := 1 + sinceFeed (bs.take offset)

theorem takeWhile_eq_self_iff_notMem {bs : Bytes} :
    bs.reverse.takeWhile (· ≠ 0x0A) = bs.reverse ↔ 0x0A ∉ bs := by
  rw [List.takeWhile_eq_self_iff]
  constructor
  · intro hall hfeed
    exact absurd (hall 0x0A (List.mem_reverse.mpr hfeed)) (by decide)
  · intro hfeed b hb
    rw [decide_eq_true_eq]
    rintro rfl
    exact hfeed (List.mem_reverse.mp hb)

/-- Without a line feed, every byte stands behind the last one. -/
theorem sinceFeed_of_notMem {bs : Bytes} (h : 0x0A ∉ bs) : sinceFeed bs = bs.length := by
  rw [sinceFeed, takeWhile_eq_self_iff_notMem.mpr h, List.length_reverse]

/-- A byte in front makes no difference if it is a line feed or one follows. -/
theorem sinceFeed_cons {b : UInt8} {bs : Bytes} (h : b = 0x0A ∨ 0x0A ∈ bs) :
    sinceFeed (b :: bs) = sinceFeed bs := by
  rw [sinceFeed, sinceFeed, List.reverse_cons, List.takeWhile_append]
  by_cases hfeed : 0x0A ∈ bs
  · have hshort : (bs.reverse.takeWhile (· ≠ 0x0A)).length ≠ bs.reverse.length := by
      intro hlength
      have hall := (List.takeWhile_prefix _).eq_of_length hlength
      exact takeWhile_eq_self_iff_notMem.mp hall hfeed
    rw [if_neg hshort]
  · rw [takeWhile_eq_self_iff_notMem.mpr hfeed, if_pos rfl, h.resolve_right hfeed]
    simp

/-- The bytes in front of the last line of a text's front and the bytes of that line are
    the front. -/
theorem lineStart_add_sinceFeed (front back : Bytes) :
    lineStart (front.count 0x0A) (front ++ back) + sinceFeed front = front.length := by
  induction front with
  | nil =>
    rw [List.count_nil, lineStart]
    rfl
  | cons b front ih =>
    rw [List.length_cons, List.cons_append]
    by_cases hb : b = 0x0A
    · rw [hb, List.count_cons_self, lineStart, if_pos (by decide), sinceFeed_cons (Or.inl rfl)]
      omega
    · rw [List.count_cons_of_ne hb]
      by_cases hfeed : 0x0A ∈ front
      · obtain ⟨n, hn⟩ := Nat.exists_eq_succ_of_ne_zero (List.count_pos_iff.mpr hfeed).ne'
        rw [hn, Nat.succ_eq_add_one] at ih ⊢
        rw [lineStart, if_neg (by simpa using hb), sinceFeed_cons (Or.inr hfeed)]
        omega
      · -- all of the front is on the first line
        have hnone : 0x0A ∉ b :: front := by
          rw [List.mem_cons, not_or]
          exact ⟨Ne.symm hb, hfeed⟩
        rw [List.count_eq_zero.mpr hfeed, lineStart, sinceFeed_of_notMem hnone, List.length_cons,
          Nat.zero_add]

theorem sinceFeed_concat (bs : Bytes) (b : UInt8) :
    sinceFeed (bs ++ [b]) = if b = 0x0A then 0 else sinceFeed bs + 1 := by
  rw [sinceFeed, sinceFeed, List.reverse_append, List.reverse_singleton, List.singleton_append]
  by_cases hb : b = 0x0A
  · rw [if_pos hb, List.takeWhile_cons_of_neg (by simpa using hb)]
    rfl
  · rw [if_neg hb, List.takeWhile_cons_of_pos (by simpa using hb)]
    rfl

theorem foldl_next (bs : Bytes) :
    bs.foldl next start = ⟨1 + bs.count 0x0A, sinceFeed bs⟩ := by
  induction bs using List.reverseRecOn with
  | nil => rfl
  | append_singleton bs b ih =>
    rw [List.foldl_append, ih, List.foldl_cons, List.foldl_nil, next, List.count_append,
      sinceFeed_concat]
    by_cases hb : b = 0x0A
    · rw [if_pos hb, if_pos (beq_iff_eq.mpr hb), hb]
      rfl
    · have hother : ¬(b == 0x0A) = true := mt beq_iff_eq.mp hb
      rw [if_neg hb, if_neg hother, List.count_singleton, if_neg hother]
      rfl

/-- The place that a reader has counted up to an offset: its line, and its column from 0
    on. -/
theorem ofOffset_eq (bs : Bytes) (offset : Nat) :
    ofOffset bs offset = ⟨lineAt bs offset, sinceFeed (bs.take offset)⟩ := foldl_next _

/-! ### From places to offsets -/

theorem byteOffset?_of_lineAt {bs : Bytes} {offset : Nat} (h : offset ≤ bs.length) :
    byteOffset? bs ⟨lineAt bs offset, columnAt bs offset⟩ = some offset := by
  have hline : lineAt bs offset ≠ 0 := by
    rw [lineAt]
    omega
  have hsum := lineStart_add_sinceFeed (bs.take offset) (bs.drop offset)
  rw [List.take_append_drop, List.length_take, Nat.min_eq_left h] at hsum
  rw [byteOffset?, if_neg hline]
  simp only [lineAt, columnAt, Nat.add_sub_cancel_left, hsum, Nat.min_eq_left h]

/-- A place on line 1 or below names an offset, and no offset is past the end. -/
theorem exists_byteOffset? (bs : Bytes) {p : Place} (h : 1 ≤ p.line) :
    ∃ offset ≤ bs.length, byteOffset? bs p = some offset :=
  ⟨_, Nat.min_le_right _ _, if_neg (Nat.ne_of_gt h)⟩

end Text.Place

/-! ### Remarks -/

theorem Json.one_le_line_of_readAll {α : Type} {value : Json.Reader α} {bs : Bytes}
    {f : Json.Fault} (h : Json.readAll value bs = .error f) : 1 ≤ f.place.line := by
  rw [Json.readAll] at h
  split at h
  · cases h
  · cases h
    rw [Text.Place.ofOffset_eq, Text.Place.lineAt]
    exact Nat.le_add_right 1 _

theorem Settings.readAll_of_parse {bs source : Bytes} {f : Json.Fault}
    (h : Settings.parse bs = .error (.badText source f)) :
    source = bs ∧ Json.readAll Settings.record.read bs = .error f := by
  rw [Settings.parse] at h
  split at h
  · cases h
  · split at h
    · cases h
    · split at h
      · rename_i hread
        cases h
        exact ⟨rfl, hread⟩
      · cases h

/-- **Offsets, places and remarks.** In every text, the line and the column of an offset,
    both from 1 on and the column in bytes, lead back to the offset; the end of the text is
    one of them. Any line and any column lead to an offset that is not past the end.
    Settings that are a text but cannot be read get one remark, and it lies in them. -/
theorem Text.Place.byteOffset?_inverse (bs : Bytes) :
    (∀ offset ≤ bs.length,
      byteOffset? bs ⟨lineAt bs offset, columnAt bs offset⟩ = some offset) ∧
    (∀ line column, 1 ≤ line → ∃ offset ≤ bs.length, byteOffset? bs ⟨line, column⟩ = some offset) ∧
    ∀ source f, Settings.parse bs = .error (.badText source f) →
      (Fault.settings (.badText source f)).source? = some bs ∧
      ∃ offset ≤ bs.length,
        (Fault.settings (.badText source f)).labels = [⟨f.message, offset, 0⟩] := by
  refine ⟨fun offset => byteOffset?_of_lineAt,
    fun line column hline => exists_byteOffset? bs hline, ?_⟩
  intro source f hparse
  obtain ⟨rfl, hread⟩ := Settings.readAll_of_parse hparse
  obtain ⟨offset, hoffset, hplace⟩ := exists_byteOffset? source (Json.one_le_line_of_readAll hread)
  refine ⟨rfl, offset, hoffset, ?_⟩
  rw [Fault.labels, hplace]
  rfl

/-- Settings with letters of two bytes and a word that is no value. -/
def Settings.unquoted : Bytes := Text.utf8 "\x7b\n  \"größe\": 1,\n\n  \"driver\": pg\n\x7d\n"

theorem Text.Place.byteOffset?_inverse_unquoted :
    let bs := Settings.unquoted
    let f : Json.Fault := ⟨.expectedValue, ⟨4, 13⟩⟩
    (36 ≤ bs.length ∧ byteOffset? bs ⟨lineAt bs 36, columnAt bs 36⟩ = some 36) ∧
    (1 ≤ 9 ∧ ∃ offset ≤ bs.length, byteOffset? bs ⟨9, 0⟩ = some offset) ∧
    Settings.parse bs = .error (.badText bs f) ∧
      (Fault.settings (.badText bs f)).source? = some bs ∧
      ∃ offset ≤ bs.length, (Fault.settings (.badText bs f)).labels = [⟨f.message, offset, 0⟩] := by
  intro bs f
  have hlength : bs.length = 36 := by decide +kernel
  have hparse : Settings.parse bs = .error (.badText bs f) := by decide +kernel
  obtain ⟨hback, hinside, hremark⟩ := byteOffset?_inverse bs
  exact ⟨⟨hlength.ge, hback 36 hlength.ge⟩, ⟨by decide, hinside 9 0 (by decide)⟩, hparse,
    hremark bs f hparse⟩

end QueryClient
