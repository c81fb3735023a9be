/-
  QueryClient/Proofs/Wire/Field.lean
  ==================================
  **Fields build messages.** A message is written field by field, and reading it takes
  one record after the other. `Builds` says what the records in between amount to: bytes
  that take a message from one state to another. Each kind of field has one lemma, which
  says what its bytes build, whether it is written or, holding the default, left out.

  A message inside a message is read with the length in front of it, and stops exactly
  where its records do (`reads_nested`).

  A length has 64 bits, so everything here is about payloads of fewer than 2^64 bytes.
-/
import QueryClient.Proofs.Text.Utf8
import QueryClient.Proofs.Wire.Record
import QueryClient.Wire.Field

namespace QueryClient.Wire

/-! ### Plain values -/

theorem reads_expect (type : WireType) : Reads (expect type type) [] () := by
  intro rest
  rw [expect, if_pos rfl]
  rfl

theorem reads_delimited {bs : Bytes} (h : bs.length < 2 ^ 64) :
    Reads (readDelimited .lengthDelimited) (varint bs.length ++ bs) bs :=
  (reads_expect .lengthDelimited).bind ((reads_varint h).bind (reads_takeBytes bs))

theorem reads_text {s : String} (h : (Text.utf8 s).length < 2 ^ 64) :
    Reads (readText .lengthDelimited) (varint (Text.utf8 s).length ++ Text.utf8 s) s := by
  apply (reads_delimited h).bind_pure
  rw [Text.text?_utf8]
  exact reads_pure s

theorem reads_bool : Reads (readBool .varint) (varint 1) true :=
  (reads_expect .varint).bind ((reads_varint (by decide)).bind_pure (reads_pure true))

theorem signedBits_lt (n : Int32) : signedBits n < 2 ^ 64 := by
  rw [signedBits, wordCount]
  omega

/-- The lower half of the 64 bits is the number that was written. -/
theorem ofNat_signedBits (n : Int32) : Int32.ofNat (signedBits n) = n := by
  have hlow : -2 ^ 31 ≤ n.toInt := n.le_toInt
  have hhigh : n.toInt < 2 ^ 31 := n.toInt_lt
  rw [← Int32.ofInt_eq_ofNat, Int32.ofInt_eq_iff_bmod_eq_toInt, signedBits, wordCount,
    Int.toNat_of_nonneg (Int.emod_nonneg _ (by decide)), Int.bmod_def]
  split
  · omega
  · omega

theorem reads_int32 (n : Int32) : Reads (readInt32 .varint) (varint (signedBits n)) n := by
  have hvalue : Reads (pure (Int32.ofNat (signedBits n))) [] n := by
    rw [ofNat_signedBits]
    exact reads_pure n
  exact (reads_expect .varint).bind ((reads_varint (signedBits_lt n)).bind_pure hvalue)

/-! ### Records in a row -/

variable {M N : Type}

/-- Bytes that consist of records and take one message to another. -/
inductive MessageType.Builds (t : MessageType M) (depth : Nat) : M → Bytes → M → Prop where
  | none (m : M) : Builds t depth m [] m
  | record {m m' m'' : M} {bs rest : Bytes} (hread : Reads (t.readRecord depth m) bs m')
      (hbytes : bs ≠ []) (hrest : Builds t depth m' rest m'') : Builds t depth m (bs ++ rest) m''

namespace MessageType

variable {t : MessageType M} {depth : Nat} {m m' m'' : M} {bs cs : Bytes}

theorem Builds.append (hbs : t.Builds depth m bs m') (hcs : t.Builds depth m' cs m'') :
    t.Builds depth m (bs ++ cs) m'' := by
  induction hbs with
  | none m => exact hcs
  | record hread hbytes _ ih =>
    rw [List.append_assoc]
    exact Builds.record hread hbytes (ih hcs)

/-- Records are read up to where they end. Each turn takes a record and so at least one
    byte; with more turns than bytes the last record is reached. -/
theorem Builds.readRecords_eq (h : t.Builds depth m bs m') {turns : Nat}
    (hturns : bs.length < turns) (rest : Bytes) :
    t.readRecords depth rest.length turns m (bs ++ rest) = .ok (m', rest) := by
  induction h generalizing turns with
  | none m =>
    cases turns with
    | zero => cases hturns
    | succ turns =>
      change (if rest.length ≤ rest.length then pure m else _ : Reader M) rest = _
      rw [if_pos (Nat.le_refl _)]
      rfl
  | @record m m' m'' bs cs hread hbytes hrest ih =>
    cases turns with
    | zero => cases hturns
    | succ turns =>
      have hpos : 0 < bs.length := List.length_pos_iff.mpr hbytes
      have hmore : ¬(bs ++ cs ++ rest).length ≤ rest.length := by
        simp only [List.length_append]
        omega
      have hfewer : cs.length < turns := by
        rw [List.length_append] at hturns
        omega
      change (if (bs ++ cs ++ rest).length ≤ rest.length then pure m
        else t.readRecord depth m >>= t.readRecords depth rest.length turns : Reader M)
          (bs ++ cs ++ rest) = _
      rw [if_neg hmore, List.append_assoc]
      change (t.readRecord depth m (bs ++ (cs ++ rest)) >>= fun p =>
        t.readRecords depth rest.length turns p.1 p.2) = _
      rw [hread]
      exact ih hfewer

theorem Builds.decode_eq (h : t.Builds depthLimit t.empty bs m) : t.decode bs = .ok m := by
  have hread := h.readRecords_eq (Nat.lt_succ_self _) []
  rw [List.append_nil] at hread
  rw [decode]
  exact congrArg (Except.map (·.1)) hread

theorem reads_nested (h : t.Builds depth m bs m') {len : Bytes}
    (hlen : Reads readVarint len bs.length) :
    Reads (t.readNested (depth + 1) .lengthDelimited m) (len ++ bs) m' := by
  apply (reads_expect .lengthDelimited).bind
  apply hlen.bind
  intro rest
  have havailable : ¬(bs ++ rest).length < bs.length := by
    rw [List.length_append]
    omega
  have hleft : (bs ++ rest).length - bs.length = rest.length := by
    rw [List.length_append]
    omega
  change (if (bs ++ rest).length < bs.length then failWith .pastTheEnd
    else t.readRecords depth ((bs ++ rest).length - bs.length) (bs.length + 1) m >>= fun m =>
      remaining >>= fun left => if left = (bs ++ rest).length - bs.length then pure m
        else failWith .pastTheMessage : Reader M) (bs ++ rest) = _
  rw [if_neg havailable, hleft]
  change (t.readRecords depth rest.length (bs.length + 1) m (bs ++ rest) >>= fun p =>
    (if p.2.length = rest.length then pure p.1 else failWith .pastTheMessage : Reader M) p.2) = _
  rw [h.readRecords_eq (Nat.lt_succ_self _)]
  change (if rest.length = rest.length then pure m' else failWith .pastTheMessage : Reader M)
    rest = _
  rw [if_pos rfl]
  rfl

/-! ### Fields -/

variable {number : Nat} {name : String}

theorem builds_record (hnumber : IsFieldNumber number) {f : FieldReader M}
    (hfield : t.field? depth number = some f) {type : WireType} {payload : Bytes}
    (hread : Reads (f.read type m) payload m') :
    t.Builds depth m (Key.bytes ⟨number, type⟩ ++ payload) m' := by
  have hrecord : Reads (t.readRecord depth m) (Key.bytes ⟨number, type⟩ ++ payload) m' := by
    apply (reads_key (k := ⟨number, type⟩) hnumber).bind
    intro rest
    simp only [hfield, hread rest]
  have hbytes : Key.bytes ⟨number, type⟩ ++ payload ≠ [] :=
    List.append_ne_nil_of_left_ne_nil (Key.bytes_ne_nil _) _
  have hbuilds := Builds.record hrecord hbytes (Builds.none m')
  rw [List.append_nil] at hbuilds
  exact hbuilds

/-- A plain field that is written. -/
theorem builds_plain {α : Type} {value : WireType → Reader α} {set : M → α → M}
    (hnumber : IsFieldNumber number)
    (hfield : t.field? depth number = some (.plain name value set)) {type : WireType}
    {payload : Bytes} {a : α} (hread : Reads (value type) payload a) :
    t.Builds depth m (Key.bytes ⟨number, type⟩ ++ payload) (set m a) :=
  builds_record hnumber hfield (hread.bind_pure (reads_pure (set m a)))

theorem delimited_eq (number : Nat) (payload : Bytes) :
    delimited number payload =
      Key.bytes ⟨number, .lengthDelimited⟩ ++ (varint payload.length ++ payload) :=
  List.append_assoc _ _ _

theorem length_payload_le (number : Nat) (payload : Bytes) :
    payload.length ≤ (delimited number payload).length := by
  rw [delimited, List.length_append]
  exact Nat.le_add_left _ _

theorem builds_bytesField {set : M → Bytes → M} (hnumber : IsFieldNumber number)
    (hfield : t.field? depth number = some (.plain name readDelimited set))
    (hdefault : set m [] = m) {bs : Bytes} (hset : set m bs = m')
    (hlength : (bytesField number bs).length < 2 ^ 64) :
    t.Builds depth m (bytesField number bs) m' := by
  cases bs with
  | nil =>
    rw [← hset, hdefault]
    exact Builds.none m
  | cons b bs =>
    have hpayload := Nat.lt_of_le_of_lt (length_payload_le number (b :: bs)) hlength
    change t.Builds depth m (delimited number (b :: bs)) _
    rw [← hset, delimited_eq]
    exact builds_plain hnumber hfield (reads_delimited hpayload)

theorem builds_textField {set : M → String → M} (hnumber : IsFieldNumber number)
    (hfield : t.field? depth number = some (.plain name readText set))
    (hdefault : set m "" = m) {s : String} (hset : set m s = m')
    (hlength : (textField number s).length < 2 ^ 64) :
    t.Builds depth m (textField number s) m' := by
  rw [← hset]
  by_cases hs : s = ""
  · subst hs
    rw [hdefault]
    exact Builds.none m
  · have hbytes : ¬(Text.utf8 s).isEmpty = true := fun h =>
      hs (Text.utf8_eq_nil_iff.mp (List.isEmpty_iff.mp h))
    rw [textField, bytesField, if_neg hbytes] at hlength ⊢
    have hpayload := Nat.lt_of_le_of_lt (length_payload_le number (Text.utf8 s)) hlength
    rw [delimited_eq]
    exact builds_plain hnumber hfield (reads_text hpayload)

theorem builds_boolField {set : M → Bool → M} (hnumber : IsFieldNumber number)
    (hfield : t.field? depth number = some (.plain name readBool set))
    (hdefault : set m false = m) {b : Bool} (hset : set m b = m') :
    t.Builds depth m (boolField number b) m' := by
  rw [← hset]
  cases b with
  | false =>
    rw [hdefault]
    exact Builds.none m
  | true => exact builds_plain hnumber hfield reads_bool

theorem builds_int32Field {set : M → Int32 → M} (hnumber : IsFieldNumber number)
    (hfield : t.field? depth number = some (.plain name readInt32 set))
    (hdefault : set m 0 = m) {n : Int32} (hset : set m n = m') :
    t.Builds depth m (int32Field number n) m' := by
  rw [← hset, int32Field]
  by_cases hn : n = 0
  · rw [if_pos hn, hn, hdefault]
    exact Builds.none m
  · rw [if_neg hn]
    exact builds_plain hnumber hfield (reads_int32 n)

/-- A message inside a message, which may be missing. A message that is there is written
    even if nothing is in it. -/
theorem builds_optional {inner : MessageType N} {get : M → Option N} {set : M → N → M}
    (hnumber : IsFieldNumber number)
    (hfield : t.field? (depth + 1) number = some (.nested name inner (depth + 1) get set))
    (hmissing : get m = none) {encode : N → Bytes}
    (hinner : ∀ n, (encode n).length < 2 ^ 64 → inner.Builds depth inner.empty (encode n) n)
    {n? : Option N} (hset : n?.elim m (set m) = m')
    (hlength : (n?.elim [] fun n => delimited number (encode n)).length < 2 ^ 64) :
    t.Builds (depth + 1) m (n?.elim [] fun n => delimited number (encode n)) m' := by
  rw [← hset]
  cases n? with
  | none => exact Builds.none m
  | some n =>
    have hpayload := Nat.lt_of_le_of_lt (length_payload_le number (encode n)) hlength
    have hread : Reads
        ((FieldReader.nested name inner (depth + 1) get set).read .lengthDelimited m)
        (varint (encode n).length ++ encode n) (set m n) := by
      change Reads (inner.readNested (depth + 1) .lengthDelimited ((get m).getD inner.empty) >>=
        fun n => pure (set m n)) _ _
      rw [hmissing]
      exact (reads_nested (hinner n hpayload) (reads_varint hpayload)).bind_pure (reads_pure _)
    change t.Builds (depth + 1) m (delimited number (encode n)) (set m n)
    rw [delimited_eq]
    exact builds_record hnumber hfield hread

/-- A repeated field: every element is one more record. The message is given by the
    elements that it has so far. -/
theorem builds_repeatedField (put : List N → M) {inner : MessageType N} {add : M → N → M}
    (hnumber : IsFieldNumber number)
    (hfield : t.field? (depth + 1) number = some (.repeated name inner (depth + 1) add))
    {encode : N → Bytes}
    (hinner : ∀ n, (encode n).length < 2 ^ 64 → inner.Builds depth inner.empty (encode n) n)
    (hadd : ∀ ns n, add (put ns) n = put (ns ++ [n])) (before : List N)
    {ns : List N} (hlength : (repeatedField number (ns.map encode)).length < 2 ^ 64) :
    t.Builds (depth + 1) (put before) (repeatedField number (ns.map encode))
      (put (before ++ ns)) := by
  induction ns generalizing before with
  | nil =>
    rw [List.append_nil]
    exact Builds.none _
  | cons n ns ih =>
    rw [List.map_cons, repeatedField, List.length_append] at hlength
    have hpayload : (encode n).length < 2 ^ 64 :=
      Nat.lt_of_le_of_lt (length_payload_le number (encode n)) (by omega)
    have hread : Reads ((FieldReader.repeated name inner (depth + 1) add).read .lengthDelimited
        (put before)) (varint (encode n).length ++ encode n) (put (before ++ [n])) := by
      rw [← hadd]
      exact (reads_nested (hinner n hpayload) (reads_varint hpayload)).bind_pure (reads_pure _)
    have hrest := ih (before ++ [n]) (by omega)
    rw [List.append_assoc, List.singleton_append] at hrest
    rw [List.map_cons, repeatedField, delimited_eq]
    exact (builds_record hnumber hfield hread).append hrest

end MessageType

/-! ### Sizes -/

theorem length_delimited (number : Nat) (payload : Bytes) :
    (delimited number payload).length = delimitedSize number payload.length := by
  rw [delimited, List.length_append, List.length_append, Key.length_bytes, length_varint,
    delimitedSize]

theorem length_bytesField (number : Nat) (bs : Bytes) :
    (bytesField number bs).length = bytesFieldSize number bs := by
  cases bs with
  | nil => rfl
  | cons b bs => exact length_delimited number (b :: bs)

theorem length_textField (number : Nat) (s : String) :
    (textField number s).length = textFieldSize number s := by
  rw [textField, length_bytesField, bytesFieldSize, textFieldSize, Text.length_utf8]
  by_cases hs : s = ""
  · rw [if_pos hs, if_pos (List.isEmpty_iff.mpr (Text.utf8_eq_nil_iff.mpr hs))]
  · rw [if_neg hs, if_neg fun h => hs (Text.utf8_eq_nil_iff.mp (List.isEmpty_iff.mp h))]

theorem length_boolField (number : Nat) (b : Bool) :
    (boolField number b).length = boolFieldSize number b := by
  cases b with
  | false => rfl
  | true =>
    change (Key.bytes _ ++ varint 1).length = Key.size _ + 1
    rw [List.length_append, Key.length_bytes, length_varint]
    rfl

theorem length_int32Field (number : Nat) (n : Int32) :
    (int32Field number n).length = int32FieldSize number n := by
  rw [int32Field, int32FieldSize]
  by_cases hn : n = 0
  · rw [if_pos hn, if_pos hn]
    rfl
  · rw [if_neg hn, if_neg hn, List.length_append, Key.length_bytes, length_varint]

variable {N : Type} {encode : N → Bytes} {size : N → Nat}

theorem length_optional (h : ∀ n, (encode n).length = size n) (number : Nat) (n? : Option N) :
    (n?.elim [] fun n => delimited number (encode n)).length =
      n?.elim 0 fun n => delimitedSize number (size n) := by
  cases n? with
  | none => rfl
  | some n => exact (length_delimited number (encode n)).trans (by rw [h]; rfl)

theorem length_repeatedField (h : ∀ n, (encode n).length = size n) (number : Nat) (ns : List N) :
    (repeatedField number (ns.map encode)).length = repeatedFieldSize number (ns.map size) := by
  induction ns with
  | nil => rfl
  | cons n ns ih =>
    rw [List.map_cons, List.map_cons, repeatedField, repeatedFieldSize, List.length_append, ih,
      length_delimited, h]

end QueryClient.Wire
