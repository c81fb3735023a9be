/-
  QueryClient/Proofs/Json/Reading.lean
  ====================================
  **Values come back from their text**, whatever the order of members in them.

  A document that says the same as a value may have the members of each object in another
  order (`Value.Reorders`). `Reads` says of a reader that it takes the text of every such
  document, up to where a value can end, and yields one and the same result. Readers are
  put together the way the values are: a reader for the elements makes one for the list.

  A reader first looks at the first byte of a value. No value starts with a blank or with
  the end of a list, and only null with the letter n (`exists_head_text`).
-/
import Mathlib.Data.List.Forall2
import QueryClient.JsonForm
import QueryClient.Proofs.Json.Scalar

namespace QueryClient

/-! ### First characters of numbers -/

namespace Decimal

theorem exists_head_toDigits (n : Nat) :
    ∃ c cs, Nat.toDigits 10 n = c :: cs ∧ c.isDigit = true := by
  obtain ⟨c, cs, hdigits⟩ := List.exists_cons_of_ne_nil (Nat.toDigits_ne_nil (n := n) (b := 10))
  have hmem : c ∈ Nat.toDigits 10 n := hdigits ▸ List.mem_cons_self
  exact ⟨c, cs, hdigits, Nat.isDigit_of_mem_toDigits (by decide) (by decide) hmem⟩

/-- In each notation a double starts with its sign or with a digit. -/
theorem Double.exists_head_text (x : Double) :
    ∃ c cs, x.text.toList = c :: cs ∧ (c = '-' ∨ c.isDigit = true) := by
  have hsigned {body : String} (hbody : ∃ c cs, body.toList = c :: cs ∧ c.isDigit = true) :
      ∃ c cs, ((if x.negative then "-" else "") ++ body).toList = c :: cs ∧
        (c = '-' ∨ c.isDigit = true) := by
    obtain ⟨c, cs, hcs, hc⟩ := hbody
    cases x.negative with
    | true => exact ⟨'-', c :: cs, by rw [String.toList_append, hcs]; rfl, Or.inl rfl⟩
    | false => exact ⟨c, cs, by rw [String.toList_append, hcs]; rfl, Or.inr hc⟩
  rw [text]
  split
  · exact hsigned ⟨'0', ['.', '0'], rfl, rfl⟩
  · apply hsigned
    obtain ⟨c, cs, hdigits, hc⟩ := exists_head_toDigits x.magnitude.shortest.digits
    rw [String.toList_ofList, hdigits]
    generalize ((c :: cs).length : Int) + x.magnitude.shortest.exponent = point
    split
    · exact ⟨c, _, rfl, hc⟩
    · split
      · rename_i hpoint
        obtain ⟨k, hk⟩ : ∃ k, point.toNat = k + 1 :=
          Nat.exists_eq_succ_of_ne_zero (by omega)
        rw [hk]
        exact ⟨c, _, rfl, hc⟩
      · split
        · exact ⟨'0', _, rfl, rfl⟩
        · cases cs with
          | nil => exact ⟨c, _, rfl, hc⟩
          | cons d ds => exact ⟨c, _, rfl, hc⟩

end Decimal

namespace Json

/-! ### Values in another order -/

/-- The same value, up to the order of the members of each object in it. -/
inductive Value.Reorders : Value → Value → Prop where
  | refl (v : Value) : Value.Reorders v v
  | list {vs ws : List Value} (helements : List.Forall₂ Value.Reorders vs ws) :
      Value.Reorders (.list vs) (.list ws)
  | object {ms ks ns : List (String × Value)} (horder : ms.Perm ks)
      (hkeys : ks.map Prod.fst = ns.map Prod.fst)
      (hvalues : List.Forall₂ Value.Reorders (ks.map Prod.snd) (ns.map Prod.snd)) :
      Value.Reorders (.object ms) (.object ns)

theorem map_eq_map_of_forall₂ {α β γ : Type} {f : α → γ} {g : β → γ} {as : List α}
    {bs : List β} (h : List.Forall₂ (fun a b => f a = g b) as bs) : as.map f = bs.map g := by
  rw [← List.forall₂_eq_eq_eq, List.forall₂_map_left_iff, List.forall₂_map_right_iff]
  exact h

theorem forall₂_members {β γ : Type} {R : β → γ → Prop} {ks : List (String × β)}
    {ns : List (String × γ)} (hkeys : ks.map Prod.fst = ns.map Prod.fst)
    (hvalues : List.Forall₂ R (ks.map Prod.snd) (ns.map Prod.snd)) :
    List.Forall₂ (fun m n => m.1 = n.1 ∧ R m.2 n.2) ks ns := by
  induction ks generalizing ns with
  | nil =>
    rw [List.map_eq_nil_iff.mp hkeys.symm]
    exact .nil
  | cons k ks ih =>
    cases ns with
    | nil => cases hkeys
    | cons n ns =>
      obtain ⟨hkey, hkeys⟩ := List.cons.inj hkeys
      cases hvalues with
      | cons hvalue hvalues => exact .cons ⟨hkey, hvalue⟩ (ih hkeys hvalues)

namespace Value.Reorders

variable {v w : Value}

theorem exists_of_list {vs : List Value} (h : w.Reorders (.list vs)) :
    ∃ ws, w = .list ws ∧ List.Forall₂ Value.Reorders ws vs := by
  cases h with
  | refl => exact ⟨vs, rfl, List.forall₂_same.mpr fun v _ => .refl v⟩
  | list helements => exact ⟨_, rfl, helements⟩

theorem exists_of_object {ns : List (String × Value)} (h : w.Reorders (.object ns)) :
    ∃ ms ks, w = .object ms ∧ ms.Perm ks ∧
      List.Forall₂ (fun m n => m.1 = n.1 ∧ m.2.Reorders n.2) ks ns := by
  cases h with
  | refl => exact ⟨ns, ns, rfl, .refl ns, List.forall₂_same.mpr fun n _ => ⟨rfl, .refl n.2⟩⟩
  | object horder hkeys hvalues => exact ⟨_, _, rfl, horder, forall₂_members hkeys hvalues⟩

theorem eq_null_iff (h : w.Reorders v) : w = .null ↔ v = .null := by
  cases h with
  | refl => exact Iff.rfl
  | list => exact ⟨nofun, nofun⟩
  | object => exact ⟨nofun, nofun⟩

end Value.Reorders

/-! ### Texts of values -/

/-- Pieces with a comma before each but the first one. -/
def separated : (first : Bool) → List Bytes → Bytes
  | _, [] => []
  | first, bs :: bss => (if first then [] else [0x2C]) ++ (bs ++ separated false bss)

theorem utf8_intercalate (ss : List String) :
    Text.utf8 (",".intercalate ss) = separated true (ss.map Text.utf8) := by
  cases ss with
  | nil => rfl
  | cons s ss =>
    rw [List.map_cons, separated]
    induction ss generalizing s with
    | nil =>
      rw [String.intercalate_singleton]
      exact (List.append_nil _).symm
    | cons t ss ih =>
      rw [String.intercalate_cons_cons, Text.utf8_append, Text.utf8_append, ih t,
        List.map_cons, separated, List.append_assoc]
      rfl

theorem length_le_separated {bss : List Bytes} (h : ∀ bs ∈ bss, bs ≠ []) (first : Bool) :
    bss.length ≤ (separated first bss).length := by
  induction bss generalizing first with
  | nil => exact Nat.le_refl 0
  | cons bs bss ih =>
    have hrest := ih (fun cs hcs => h cs (List.mem_cons_of_mem bs hcs)) false
    have hpos := List.length_pos_iff.mpr (h bs List.mem_cons_self)
    rw [separated, List.length_append, List.length_append, List.length_cons]
    omega

/-- There are more turns than pieces where a turn is allowed for each byte and one more. -/
theorem length_lt_separated {bss : List Bytes} (h : ∀ bs ∈ bss, bs ≠ []) (rest : Bytes) :
    bss.length < (separated true bss ++ rest).length + 1 := by
  have hlength := length_le_separated h true
  rw [List.length_append]
  omega

/-- Behind an element comes a comma, or what closes the list or the object. -/
theorem ends_separated {close : UInt8} (h : close = 0x5D ∨ close = 0x7D) (bss : List Bytes)
    (rest : Bytes) : Ends (separated false bss ++ close :: rest) := by
  cases bss with
  | nil => exact ends_cons (Or.inr h) rest
  | cons bs bss => exact ends_cons (Or.inl rfl) _

theorem utf8_text_list (vs : List Value) :
    Text.utf8 (Value.list vs).text =
      0x5B :: (separated true (vs.map fun v => Text.utf8 v.text) ++ [0x5D]) := by
  have htexts : Value.texts vs = vs.map Value.text := by
    induction vs with
    | nil => rfl
    | cons v vs ih => rw [Value.texts, ih, List.map_cons]
  rw [Value.text, Text.utf8_append, Text.utf8_append, utf8_intercalate, htexts, List.map_map]
  rfl

/-- The text of a member. -/
def memberBytes (m : String × Value) : Bytes :=
  Text.utf8 (stringText m.1) ++ 0x3A :: Text.utf8 m.2.text

theorem utf8_text_object (ms : List (String × Value)) :
    Text.utf8 (Value.object ms).text =
      0x7B :: (separated true (ms.map memberBytes) ++ [0x7D]) := by
  have htexts : (Value.memberTexts ms).map Text.utf8 = ms.map memberBytes := by
    induction ms with
    | nil => rfl
    | cons m ms ih =>
      rw [Value.memberTexts, List.map_cons, ih, List.map_cons, Text.utf8_append,
        Text.utf8_append, List.append_assoc]
      rfl
  rw [Value.text, Text.utf8_append, Text.utf8_append, utf8_intercalate, htexts]
  rfl

theorem exists_head_utf8 {s : String} (h : ∃ c cs, s.toList = c :: cs ∧
    (c = '-' ∨ c.isDigit = true)) :
    ∃ b bs, Text.utf8 s = b :: bs ∧ (b = 0x2D ∨ isDigit b = true) := by
  obtain ⟨c, cs, hcs, hc⟩ := h
  rw [Text.utf8, hcs, List.flatMap_cons]
  rcases hc with rfl | hdigit
  · exact ⟨0x2D, _, rfl, Or.inl rfl⟩
  · have hrange : 48 ≤ c.toNat ∧ c.toNat ≤ 57 := by
      simpa [Char.isDigit, UInt32.le_iff_toNat_le, ← Char.toNat_val] using hdigit
    have hvalue : (UInt8.ofNat c.toNat).toNat = c.toNat := by
      rw [UInt8.toNat_ofNat']
      omega
    rw [Text.utf8EncodeChar_ascii (by omega)]
    refine ⟨UInt8.ofNat c.toNat, _, rfl, Or.inr ?_⟩
    rw [isDigit, Bool.and_eq_true, decide_eq_true_eq, decide_eq_true_eq,
      UInt8.le_iff_toNat_le, UInt8.le_iff_toNat_le, hvalue]
    exact hrange

theorem ne_of_isDigit {b c : UInt8} (hb : isDigit b = true) (hc : isDigit c = false) : b ≠ c := by
  rintro rfl
  exact Bool.false_ne_true (hc.symm.trans hb)

theorem isBlank_of_isDigit {b : UInt8} (h : isDigit b = true) : isBlank b = false := by
  have hspace : b ≠ 0x20 := ne_of_isDigit h rfl
  have htab : b ≠ 0x09 := ne_of_isDigit h rfl
  have hfeed : b ≠ 0x0A := ne_of_isDigit h rfl
  have hreturn : b ≠ 0x0D := ne_of_isDigit h rfl
  simp [isBlank, hspace, htab, hfeed, hreturn]

theorem exists_head_number (n : Number) :
    ∃ b bs, Text.utf8 n.text = b :: bs ∧ (b = 0x2D ∨ isDigit b = true) := by
  apply exists_head_utf8
  cases n with
  | natural n =>
    obtain ⟨c, cs, hcs, hc⟩ := Decimal.exists_head_toDigits n
    exact ⟨c, cs, Nat.toList_repr.trans hcs, Or.inr hc⟩
  | negative n => exact ⟨'-', _, String.toList_append, Or.inl rfl⟩
  | double x => exact x.exists_head_text

/-- The first byte of a value is no blank and not the end of a list, and the letter n is it
    for null only. -/
theorem exists_head_text (v : Value) :
    ∃ b bs, Text.utf8 v.text = b :: bs ∧ isBlank b = false ∧ b ≠ 0x5D ∧
      (b = 0x6E ↔ v = .null) := by
  cases v with
  | null => exact ⟨0x6E, _, rfl, rfl, by decide, by simp⟩
  | bool b =>
    cases b with
    | true => exact ⟨0x74, _, rfl, rfl, by decide, by simp⟩
    | false => exact ⟨0x66, _, rfl, rfl, by decide, by simp⟩
  | number n =>
    obtain ⟨b, bs, hbs, hb⟩ := exists_head_number n
    rcases hb with rfl | hdigit
    · exact ⟨0x2D, bs, hbs, rfl, by decide, by simp⟩
    · exact ⟨b, bs, hbs, isBlank_of_isDigit hdigit, ne_of_isDigit hdigit rfl,
        iff_of_false (ne_of_isDigit hdigit rfl) nofun⟩
  | string s => exact ⟨0x22, _, utf8_stringText s, rfl, by decide, by simp⟩
  | list vs => exact ⟨0x5B, _, utf8_text_list vs, rfl, by decide, by simp⟩
  | object ms => exact ⟨0x7B, _, utf8_text_object ms, rfl, by decide, by simp⟩

theorem length_lt_texts (vs : List Value) (rest : Bytes) :
    vs.length < (separated true (vs.map fun v => Text.utf8 v.text) ++ rest).length + 1 := by
  have hnonempty : ∀ bs ∈ vs.map fun v => Text.utf8 v.text, bs ≠ [] := by
    intro bs hbs
    obtain ⟨v, -, rfl⟩ := List.mem_map.mp hbs
    obtain ⟨b, cs, hcs, -⟩ := exists_head_text v
    rw [hcs]
    exact List.cons_ne_nil b cs
  have hlength := length_lt_separated hnonempty rest
  rw [List.length_map] at hlength
  exact hlength

theorem length_lt_memberBytes (ms : List (String × Value)) (rest : Bytes) :
    ms.length < (separated true (ms.map memberBytes) ++ rest).length + 1 := by
  have hnonempty : ∀ bs ∈ ms.map memberBytes, bs ≠ [] := by
    intro bs hbs
    obtain ⟨m, -, rfl⟩ := List.mem_map.mp hbs
    rw [memberBytes, utf8_stringText]
    exact List.cons_ne_nil _ _
  have hlength := length_lt_separated hnonempty rest
  rw [List.length_map] at hlength
  exact hlength

/-! ### Readers of values -/

variable {α β : Type}

/-- The reader takes the text of every document that says the same as the value, up to
    where a value can end, and yields the result. -/
def Reads (r : Reader α) (v : Value) (a : α) : Prop :=
  ∀ w : Value, w.Reorders v → ∀ rest, Ends rest → r (Text.utf8 w.text ++ rest) = .ok (a, rest)

theorem peekSolid_cons {b : UInt8} (h : isBlank b = false) (bs : Bytes) :
    peekSolid (b :: bs) = .ok (some b, b :: bs) := by
  have hkeep : (b :: bs).dropWhile isBlank = b :: bs := by
    rw [List.dropWhile_cons, h]
    rfl
  change Except.ok (((b :: bs).dropWhile isBlank).head?, (b :: bs).dropWhile isBlank) = _
  rw [hkeep]
  rfl

theorem valueStart_cons {b : UInt8} (h : isBlank b = false) (bs : Bytes) :
    valueStart (b :: bs) = .ok (b, b :: bs) := bind_eq (peekSolid_cons h bs)

/-- The result of a reader worked into something else. -/
theorem Reads.map {r : Reader α} {v : Value} {a : α} (h : Reads r v a) (f : α → β) :
    Reads (r >>= fun a => pure (f a)) v (f a) := by
  intro w hw rest hrest
  exact bind_eq (h w hw rest hrest)

theorem reads_bool (b : Bool) : Reads readBool (.bool b) b := by
  intro w hw rest hrest
  cases hw
  cases b with
  | true => rfl
  | false => rfl

theorem readTextAs_append (wanted s : String) (rest : Bytes) :
    readTextAs wanted (Text.utf8 (stringText s) ++ rest) = .ok (s, rest) := by
  rw [utf8_stringText, List.cons_append, List.append_assoc]
  exact stringRest_escaped s rest

theorem reads_text (s : String) : Reads readText (.string s) s := by
  intro w hw rest _
  cases hw
  exact readTextAs_append "a string" s rest

theorem reads_natural {n max : Nat} (h : n ≤ max) (hmax : max ≤ maxNatural) (wanted : String) :
    Reads (readNatural max wanted) (.number (.natural n)) n := by
  intro w hw rest hrest
  cases hw
  change readNatural max wanted (Text.utf8 n.repr ++ rest) = _
  have hnumber := numberRest_repr (Nat.le_trans h hmax) hrest
  obtain ⟨d, hd, bs, hbs, -⟩ := exists_head_repr n
  have hdigit := (digit_byte d hd).2.1
  have hsign : decide (UInt8.ofNat (d + 0x30) = 0x2D) = false :=
    decide_eq_false (ne_of_isDigit hdigit rfl)
  rw [hbs, List.cons_append] at hnumber ⊢
  rw [readNatural, bind_eq (valueStart_cons (isBlank_of_isDigit hdigit) _),
    if_pos (Or.inr hdigit), if_neg (ne_of_isDigit hdigit rfl), hsign]
  refine (bind_eq hnumber).trans ?_
  dsimp only
  rw [if_pos h]
  rfl

theorem reads_uint32 (n : UInt32) : Reads readUInt32 (.number (.natural n.toNat)) n := by
  have hread := (reads_natural (n := n.toNat) (Nat.le_of_lt_succ n.toNat_lt) (by decide) "u32").map
    UInt32.ofNat
  rw [UInt32.ofNat_toNat] at hread
  exact hread

theorem reads_byte (b : UInt8) : Reads readByte (.number (.natural b.toNat)) b := by
  have hread := (reads_natural (n := b.toNat) (Nat.le_of_lt_succ b.toNat_lt) (by decide) "u8").map
    UInt8.ofNat
  rw [UInt8.ofNat_toNat] at hread
  exact hread

theorem reads_null (item : Reader α) : Reads (readNullable item) .null none := by
  intro w hw rest _
  cases hw
  rfl

theorem Reads.nullable {item : Reader α} {v : Value} {a : α} (h : Reads item v a)
    (hv : v ≠ .null) : Reads (readNullable item) v (some a) := by
  intro w hw rest hrest
  obtain ⟨b, bs, hbs, hblank, -, hnull⟩ := exists_head_text w
  have hletter : some b ≠ some 0x6E := fun heq =>
    hv (hw.eq_null_iff.mp (hnull.mp (Option.some.inj heq)))
  have hread := h w hw rest hrest
  rw [hbs, List.cons_append] at hread ⊢
  rw [readNullable, bind_eq (peekSolid_cons hblank _), if_neg hletter]
  exact bind_eq hread

/-- A word of a choice is found there, and comes back. -/
theorem reads_choice {word : α → String} {choice : List α} {a : α}
    (h : choice.find? (word · == word a) = some a) :
    Reads (readChoice word choice) (.string (word a)) a := by
  intro w hw rest _
  cases hw
  have hword := readTextAs_append "variant identifier" (word a) rest
  change readChoice word choice (Text.utf8 (stringText (word a)) ++ rest) = _
  rw [utf8_stringText, List.cons_append] at hword ⊢
  rw [readChoice, bind_eq (valueStart_cons rfl _), if_neg (by decide), if_pos rfl, bind_eq hword, h]
  rfl

theorem reads_string (depth : Nat) (s : String) :
    Reads (readValue depth) (.string s) (.string s) := by
  intro w hw rest _
  cases hw
  have hvalue (inner? : Option (Reader Value)) :
      readValueWith inner? (Text.utf8 (stringText s) ++ rest) = .ok (.string s, rest) := by
    rw [utf8_stringText, List.cons_append, List.append_assoc]
    change (stringRest >>= fun s => pure (.string s) : Reader Value) (_ ++ 0x22 :: rest) = _
    exact bind_eq (stringRest_escaped s rest)
  cases depth with
  | zero => exact hvalue none
  | succ depth => exact hvalue (some (readValue depth))

/-! ### Lists -/

theorem moreElements_cons {b : UInt8} (hblank : isBlank b = false) (hclose : b ≠ 0x5D)
    (first : Bool) (bs : Bytes) :
    moreElements first ((if first then [] else [0x2C]) ++ b :: bs) = .ok (true, b :: bs) := by
  cases first with
  | true =>
    rw [if_pos rfl, List.nil_append, moreElements, bind_eq (peekSolid_cons hblank bs)]
    dsimp only
    rw [if_neg hclose]
    rfl
  | false =>
    rw [if_neg Bool.false_ne_true, List.singleton_append, moreElements,
      bind_eq (peekSolid_cons rfl (b :: bs))]
    dsimp only
    rw [if_neg (by decide), if_neg Bool.false_ne_true, if_pos rfl, advance_bind,
      bind_eq (peekSolid_cons hblank bs)]
    dsimp only
    rw [if_neg hclose]
    rfl

/-- The reader takes the text of the value itself, up to where a value can end. -/
def Takes (r : Reader α) (v : Value) (a : α) : Prop :=
  ∀ rest, Ends rest → r (Text.utf8 v.text ++ rest) = .ok (a, rest)

/-- Each turn takes one element; with more turns than elements the last one is reached. -/
theorem elements_separated {item : Reader α} {vs : List Value} {as : List α}
    (h : List.Forall₂ (Takes item) vs as) {turns : Nat} (hturns : vs.length < turns)
    (first : Bool) (rest : Bytes) :
    elements item turns first
        (separated first (vs.map fun v => Text.utf8 v.text) ++ 0x5D :: rest) =
      .ok (as, 0x5D :: rest) := by
  induction h generalizing turns first with
  | nil =>
    cases turns with
    | zero => cases hturns
    | succ turns => rfl
  | @cons v a vs as hv _ ih =>
    cases turns with
    | zero => cases hturns
    | succ turns =>
      have htail := ih (Nat.lt_of_succ_lt_succ hturns) false
      have hitem := hv _ (ends_separated (Or.inl rfl) (vs.map fun v => Text.utf8 v.text) rest)
      obtain ⟨b, bs, hbs, hblank, hclose, -⟩ := exists_head_text v
      rw [hbs, List.cons_append] at hitem
      rw [elements, List.map_cons, separated, hbs, List.append_assoc, List.append_assoc,
        List.cons_append, bind_eq (moreElements_cons hblank hclose first _), if_pos rfl,
        bind_eq hitem, bind_eq htail]
      rfl

theorem listRest_separated {item : Reader α} {vs : List Value} {as : List α}
    (h : List.Forall₂ (Takes item) vs as) (rest : Bytes) :
    listRest item (separated true (vs.map fun v => Text.utf8 v.text) ++ 0x5D :: rest) =
      .ok (as, rest) := by
  rw [listRest]
  exact bind_eq (r := fun bs => elements item (bs.length + 1) true bs)
    (elements_separated h (length_lt_texts vs _) true rest)

theorem forall₂_takes {item : Reader α} {ws vs : List Value} {as : List α}
    (hws : List.Forall₂ Value.Reorders ws vs) (has : List.Forall₂ (Reads item) vs as) :
    List.Forall₂ (Takes item) ws as := by
  induction hws generalizing as with
  | nil =>
    cases has
    exact .nil
  | cons hw _ ih =>
    cases has with
    | cons hread has => exact .cons (hread _ hw) (ih has)

theorem reads_list {item : Reader α} {vs : List Value} {as : List α}
    (h : List.Forall₂ (Reads item) vs as) : Reads (readList item) (.list vs) as := by
  intro w hw rest _
  obtain ⟨ws, rfl, hws⟩ := hw.exists_of_list
  rw [utf8_text_list, List.cons_append, List.append_assoc, readList,
    bind_eq (valueStart_cons rfl _), if_pos rfl]
  exact listRest_separated (forall₂_takes hws h) rest

theorem reads_list_map {item : Reader α} {f : α → Value} (h : ∀ a, Reads item (f a) a)
    (as : List α) : Reads (readList item) (.list (as.map f)) as :=
  reads_list (List.forall₂_map_left_iff.mpr (List.forall₂_same.mpr fun a _ => h a))

/-! ### Whole documents -/

/-- A document is read to its end. -/
theorem Reads.readAll {r : Reader α} {v w : Value} {a : α} (h : Reads r v a)
    (hw : w.Reorders v) : readAll r (Text.utf8 w.text) = .ok a := by
  have hread := h w hw [] ends_nil
  rw [List.append_nil] at hread
  rw [Json.readAll, bind_eq hread]
  rfl

end Json
end QueryClient
