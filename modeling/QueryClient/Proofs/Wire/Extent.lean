/-
  QueryClient/Proofs/Wire/Extent.lean
  ===================================
  **How far a reader goes.** A reader that succeeds has taken some bytes from the front of
  its input. What these bytes look like is said here of every reader (`Takes`), together with
  the fact that it does not look behind them: with anything else in their place, it takes the
  same bytes and yields the same value.

  The fields of a message come and go with its type, but each of them takes the payload that
  its key announces, no more and no less (`MessageType.Exact`), just as a field that is passed
  over. So reading a message takes records in a row, whatever becomes of them
  (`MessageType.builds_of_readRecords`).

  Two readers ask how many bytes are left, and do look behind: the one that passes over a
  group, to bound its turns, and the one for a message inside a message, to find its end. For
  these the bound does not matter once it is large enough, and the end moves along.
-/
import QueryClient.Proofs.Wire.Field
import QueryClient.Proofs.Wire.Grammar
import QueryClient.Proofs.Traversal

namespace QueryClient.Wire

variable {α β M N : Type}

/-- What the reader takes has the given form, depending on the value read, and the reader
    does the same whatever follows it. -/
def Takes (r : Reader α) (form : α → Bytes → Prop) : Prop :=
  ∀ input a rest, r input = .ok (a, rest) →
    ∃ taken, input = taken ++ rest ∧ form a taken ∧ Reads r taken a

/-! ### Readers in a row -/

theorem bind_eq_ok_iff {r : Reader α} {f : α → Reader β} {input rest : Bytes} {b : β} :
    (r >>= f) input = .ok (b, rest) ↔
      ∃ a mid, r input = .ok (a, mid) ∧ f a mid = .ok (b, rest) := by
  change (r input >>= fun p => f p.1 p.2) = _ ↔ _
  cases r input with
  | error e =>
    constructor
    · intro h
      cases h
    · rintro ⟨a, mid, h, -⟩
      cases h
  | ok p =>
    constructor
    · intro h
      exact ⟨p.1, p.2, rfl, h⟩
    · rintro ⟨a, mid, h, hf⟩
      cases h
      exact hf

theorem takes_pure {form : α → Bytes → Prop} {a : α} (h : form a []) : Takes (pure a) form := by
  intro input b rest hread
  cases hread
  exact ⟨[], rfl, h, reads_pure _⟩

theorem takes_failWith {form : α → Bytes → Prop} {cause : Cause} :
    Takes (failWith cause) form := by
  intro input a rest h
  cases h

/-- The form of what is taken together is shown where the second reader is known. -/
theorem Takes.bind {r : Reader α} {f : α → Reader β} {first : α → Bytes → Prop}
    {both : β → Bytes → Prop} (hr : Takes r first)
    (hf : ∀ a bs, first a bs → Takes (f a) fun b cs => both b (bs ++ cs)) :
    Takes (r >>= f) both := by
  intro input b rest h
  obtain ⟨a, mid, hfirst, hsecond⟩ := bind_eq_ok_iff.mp h
  obtain ⟨bs, rfl, hbs, hreads⟩ := hr _ _ _ hfirst
  obtain ⟨cs, rfl, hcs, hreads'⟩ := hf a bs hbs _ _ _ hsecond
  exact ⟨bs ++ cs, (List.append_assoc _ _ _).symm, hcs, hreads.bind hreads'⟩

/-- A reader behind which nothing is read any more. -/
theorem Takes.map {r : Reader α} {f : α → β} {form : α → Bytes → Prop}
    {form' : β → Bytes → Prop} (hr : Takes r form)
    (hform : ∀ a bs, form a bs → form' (f a) bs) : Takes (r >>= fun a => pure (f a)) form' := by
  refine hr.bind fun a bs hbs => takes_pure ?_
  rw [List.append_nil]
  exact hform a bs hbs

theorem Takes.mono {r : Reader α} {form form' : α → Bytes → Prop} (hr : Takes r form)
    (hform : ∀ a bs, form a bs → form' a bs) : Takes r form' := by
  intro input a rest h
  obtain ⟨taken, hinput, htaken, hreads⟩ := hr input a rest h
  exact ⟨taken, hinput, hform a taken htaken, hreads⟩

/-! ### Bytes, numbers and keys -/

theorem takes_takeBytes (n : Nat) : Takes (takeBytes n) fun a bs => a = bs ∧ bs.length = n := by
  intro input a rest h
  rw [takeBytes] at h
  split at h
  · cases h
  · rename_i henough
    cases h
    have hlength : (input.take n).length = n := List.length_take_of_le (Nat.not_lt.mp henough)
    have hreads := reads_takeBytes (input.take n)
    rw [hlength] at hreads
    exact ⟨input.take n, (List.take_append_drop n input).symm, ⟨rfl, hlength⟩, hreads⟩

theorem varintFrom_of_groups {bs : Bytes} {n room : Nat} (h : Groups bs n)
    (hlength : bs.length ≤ room + 1) (hlt : n < 2 ^ (7 * room + 1)) (rest : Bytes) :
    varintFrom (room + 1) (bs ++ rest) = .ok (n, rest) := by
  induction h generalizing room with
  | @last b hb =>
    have hroom : ¬(room = 0 ∧ 2 ≤ b) := by
      rintro ⟨rfl, hlarge⟩
      exact absurd hlt (Nat.not_lt.mpr hlarge)
    rw [List.singleton_append, varintFrom, if_pos hb, if_neg hroom]
  | @more b bs n hb hrest ih =>
    cases room with
    | zero => exact absurd (Nat.le_of_succ_le_succ hlength) (by simp [hrest.ne_nil])
    | succ room =>
      rw [two_pow_room] at hlt
      rw [List.cons_append, varintFrom, if_neg (UInt8.not_lt.mpr hb),
        ih (Nat.le_of_succ_le_succ hlength) (by omega)]

theorem groups_of_varintFrom {room n : Nat} {input rest : Bytes}
    (h : varintFrom (room + 1) input = .ok (n, rest)) :
    ∃ bs, input = bs ++ rest ∧ Groups bs n ∧ bs.length ≤ room + 1 ∧ n < 2 ^ (7 * room + 1) := by
  induction room generalizing input n with
  | zero =>
    cases input with
    | nil => cases h
    | cons b input =>
      rw [varintFrom] at h
      split at h
      · rename_i hb
        split at h
        · cases h
        · rename_i hsmall
          cases h
          have hlt : b < 2 := UInt8.not_le.mp fun hle => hsmall ⟨rfl, hle⟩
          exact ⟨[b], rfl, Groups.last hb, Nat.le_refl 1, UInt8.lt_iff_toNat_lt.mp hlt⟩
      · cases h
  | succ room ih =>
    have hpos := Nat.two_pow_pos (7 * room + 1)
    cases input with
    | nil => cases h
    | cons b input =>
      rw [varintFrom] at h
      split at h
      · rename_i hb
        rw [if_neg fun hlast => absurd hlast.1 (Nat.succ_ne_zero room)] at h
        cases h
        have hlt : b.toNat < 128 := UInt8.lt_iff_toNat_lt.mp hb
        refine ⟨[b], rfl, Groups.last hb, Nat.le_add_left 1 _, ?_⟩
        rw [two_pow_room]
        omega
      · rename_i hb
        split at h
        · rename_i hrest
          cases h
          obtain ⟨bs, rfl, hgroups, hlength, hlt⟩ := ih hrest
          have hbyte := b.toNat_lt
          refine ⟨b :: bs, rfl, Groups.more (UInt8.not_lt.mp hb) hgroups,
            Nat.succ_le_succ hlength, ?_⟩
          rw [two_pow_room]
          omega
        · cases h

theorem IsVarint.reads {bs : Bytes} {n : Nat} (h : IsVarint bs n) : Reads readVarint bs n :=
  fun rest => varintFrom_of_groups h.groups h.length_le h.lt rest

theorem takes_readVarint : Takes readVarint fun n bs => IsVarint bs n := by
  intro input n rest h
  obtain ⟨bs, hinput, hgroups, hlength, hlt⟩ := groups_of_varintFrom h
  have hvarint : IsVarint bs n := ⟨hgroups, hlength, hlt⟩
  exact ⟨bs, hinput, hvarint, hvarint.reads⟩

theorem IsKey.reads {bs : Bytes} {k : Key} (h : IsKey bs k) : Reads readKey bs k :=
  reads_key_of_varint h.number h.varint.reads

theorem WireType.code_of_ofCode? {n : Nat} {type : WireType} (h : ofCode? n = some type) :
    type.code = n := by
  simpa using List.find?_some h

theorem takes_readKey : Takes readKey fun k bs => IsKey bs k := by
  refine takes_readVarint.bind fun n bs hbs => ?_
  split
  · exact takes_failWith
  · rename_i hmax
    split
    · exact takes_failWith
    · rename_i type htype
      have hvalue : n / 8 * 8 + type.code = n := by
        rw [WireType.code_of_ofCode? htype]
        omega
      split
      · exact takes_failWith
      · rename_i hfield
        refine takes_pure ⟨?_, Nat.pos_of_ne_zero hfield, ?_⟩
        · rw [List.append_nil, Key.value, hvalue]
          exact hbs
        · change n / 8 < 2 ^ 29
          rw [maxKey] at hmax
          omega

/-! ### Passing over a record -/

section Group

variable {skip : Key → Reader Unit} {field turns : Nat} {key payload rest : Bytes} {k : Key}

theorem reads_skipGroup_end (hkey : Reads readKey key ⟨field, .groupEnd⟩) :
    Reads (skipGroup skip field (turns + 1)) key () := by
  apply hkey.bind_pure
  rw [if_pos rfl, if_pos rfl]
  exact reads_pure ()

theorem reads_skipGroup_member (hkey : Reads readKey key k) (htype : k.type ≠ .groupEnd)
    (hpayload : Reads (skip k) payload ()) (hrest : Reads (skipGroup skip field turns) rest ()) :
    Reads (skipGroup skip field (turns + 1)) (key ++ payload ++ rest) () := by
  rw [List.append_assoc]
  apply hkey.bind
  rw [if_neg htype]
  exact hpayload.bind hrest

/-- A group is passed over member by member up to its end mark. Each member takes a turn and at
    least one byte, so the same group is passed over with any number of turns above its
    length. -/
theorem takes_skipGroup (hskip : ∀ k, Takes (skip k) fun _ bs => IsPayload k bs)
    {input : Bytes} (h : skipGroup skip field turns input = .ok ((), rest)) :
    ∃ taken, input = taken ++ rest ∧ IsPayload ⟨field, .groupStart⟩ taken ∧
      ∀ turns', taken.length < turns' → Reads (skipGroup skip field turns') taken () := by
  induction turns generalizing input with
  | zero => cases h
  | succ turns ih =>
    obtain ⟨k, behindKey, hread, hmore⟩ := bind_eq_ok_iff.mp h
    obtain ⟨key, rfl, hkey, hreads⟩ := takes_readKey _ _ _ hread
    have hpos : 0 < key.length := List.length_pos_iff.mpr hkey.varint.groups.ne_nil
    split at hmore
    · rename_i hend
      split at hmore
      · rename_i hfield
        cases hmore
        obtain rfl : k = ⟨field, .groupEnd⟩ := by
          rw [← hend, ← hfield]
        refine ⟨key, rfl, .groupEnd hkey, ?_⟩
        intro turns' hturns
        cases turns' with
        | zero => cases hturns
        | succ turns' => exact reads_skipGroup_end hreads
      · cases hmore
    · rename_i hmember
      obtain ⟨_, behindPayload, hskipped, hmembers⟩ := bind_eq_ok_iff.mp hmore
      obtain ⟨payload, rfl, hpayload, hreads'⟩ := hskip k _ _ _ hskipped
      obtain ⟨members, rfl, hmembers, hreads''⟩ := ih hmembers
      refine ⟨key ++ payload ++ members, by simp only [List.append_assoc],
        .groupMember hkey hpayload hmembers, ?_⟩
      intro turns' hturns
      cases turns' with
      | zero => cases hturns
      | succ turns' =>
        refine reads_skipGroup_member hreads hmember hreads' (hreads'' turns' ?_)
        simp only [List.length_append] at hturns
        omega

end Group

theorem takes_skipPayload (depth : Nat) (k : Key) :
    Takes (skipPayload depth k) fun _ bs => IsPayload k bs := by
  induction depth generalizing k with
  | zero => exact takes_failWith
  | succ depth ih =>
    obtain ⟨field, type⟩ := k
    cases type with
    | varint => exact takes_readVarint.map fun _ _ => .varint
    | fixed64 => exact (takes_takeBytes 8).map fun _ _ h => .fixed64 h.2
    | fixed32 => exact (takes_takeBytes 4).map fun _ _ h => .fixed32 h.2
    | groupEnd => exact takes_failWith
    | lengthDelimited =>
      refine takes_readVarint.bind fun n len hlen => (takes_takeBytes n).map ?_
      rintro _ bs ⟨-, rfl⟩
      exact .delimited hlen
    | groupStart =>
      intro input a rest h
      obtain ⟨taken, rfl, hgroup, hreads⟩ := takes_skipGroup ih h
      refine ⟨taken, rfl, hgroup, ?_⟩
      intro more
      refine hreads _ ?_ more
      rw [List.length_append]
      omega

/-! ### Values -/

theorem takes_expect (found expected : WireType) :
    Takes (expect found expected) fun _ bs => found = expected ∧ bs = [] := by
  rw [expect]
  split
  · rename_i h
    exact takes_pure ⟨h, rfl⟩
  · exact takes_failWith

section Value

variable (number : Nat) (type : WireType)

theorem takes_readDelimited :
    Takes (readDelimited type) fun _ bs => IsPayload ⟨number, type⟩ bs := by
  refine (takes_expect type .lengthDelimited).bind ?_
  rintro _ _ ⟨rfl, rfl⟩
  refine takes_readVarint.bind fun n len hlen => (takes_takeBytes n).mono ?_
  rintro _ bs ⟨-, rfl⟩
  have hpayload : IsPayload ⟨number, .lengthDelimited⟩ (len ++ bs) := .delimited hlen
  exact hpayload

theorem takes_readText : Takes (readText type) fun _ bs => IsPayload ⟨number, type⟩ bs := by
  refine (takes_readDelimited number type).bind fun bs taken htaken => ?_
  split
  · refine takes_pure ?_
    rw [List.append_nil]
    exact htaken
  · exact takes_failWith

/-- Every value that is written as a number. -/
theorem takes_number (value : Nat → α) :
    Takes (do expect type .varint; let n ← readVarint; pure (value n)) fun _ bs =>
      IsPayload ⟨number, type⟩ bs := by
  refine (takes_expect type .varint).bind ?_
  rintro _ _ ⟨rfl, rfl⟩
  exact takes_readVarint.map fun _ _ => .varint

theorem takes_readBool : Takes (readBool type) fun _ bs => IsPayload ⟨number, type⟩ bs :=
  takes_number number type fun n => n != 0

theorem takes_readInt32 : Takes (readInt32 type) fun _ bs => IsPayload ⟨number, type⟩ bs :=
  takes_number number type Int32.ofNat

end Value

/-! ### Messages -/

/-- The field reader takes the payload that a key with the number announces. -/
def FieldReader.Exact (f : FieldReader M) (number : Nat) : Prop :=
  ∀ type m, Takes (f.read type m) fun _ bs => IsPayload ⟨number, type⟩ bs

/-- Every field of the message type takes the payload that its key announces. -/
def MessageType.Exact (t : MessageType M) : Prop :=
  ∀ depth number f, t.field? depth number = some f → f.Exact number

namespace MessageType

variable {t : MessageType M} {depth limit turns : Nat} {m m' : M} {input rest : Bytes}

theorem takes_readRecord (ht : t.Exact) (depth : Nat) (m : M) :
    Takes (t.readRecord depth m) fun _ bs => ∃ k, IsRecord k bs := by
  refine takes_readKey.bind fun k key hkey => ?_
  split
  · exact (takes_skipPayload depth k).map fun _ payload hpayload =>
      ⟨k, key, payload, rfl, hkey, hpayload⟩
  · rename_i f hf
    intro input m' rest h
    have hread : f.read k.type m input = .ok (m', rest) := by
      dsimp only at h
      split at h
      · rename_i hok
        rw [hok, h]
      · cases h
    obtain ⟨payload, rfl, hpayload, hreads⟩ := ht depth k.field f hf k.type m _ _ _ hread
    refine ⟨payload, rfl, ⟨k, key, payload, rfl, hkey, hpayload⟩, ?_⟩
    intro more
    simp only [hreads more]

/-- Reading records takes records in a row, up to the limit at least. Every record takes at
    least one byte, so there are turns enough if there are more of them than bytes above the
    limit. -/
theorem builds_of_readRecords (ht : t.Exact) (hturns : input.length < limit + turns)
    (h : t.readRecords depth limit turns m input = .ok (m', rest)) :
    ∃ taken, input = taken ++ rest ∧ t.Builds depth m taken m' ∧ rest.length ≤ limit := by
  induction turns generalizing m input with
  | zero =>
    cases h
    exact ⟨[], rfl, .none _, Nat.le_of_lt hturns⟩
  | succ turns ih =>
    change (if input.length ≤ limit then pure m
      else t.readRecord depth m >>= t.readRecords depth limit turns : Reader M) input = _ at h
    split at h
    · rename_i hend
      cases h
      exact ⟨[], rfl, .none _, hend⟩
    · obtain ⟨between, mid, hrecord, hrecords⟩ := bind_eq_ok_iff.mp h
      obtain ⟨bs, rfl, ⟨k, hbs⟩, hreads⟩ := takes_readRecord ht depth m _ _ _ hrecord
      have hpos : 0 < bs.length := List.length_pos_iff.mpr hbs.ne_nil
      have hfewer : mid.length < limit + turns := by
        rw [List.length_append] at hturns
        omega
      obtain ⟨taken, rfl, hbuilds, hlimit⟩ := ih hfewer hrecords
      exact ⟨bs ++ taken, (List.append_assoc _ _ _).symm, .record hreads hbs.ne_nil hbuilds, hlimit⟩

/-- A message is read from bytes exactly if they are records in a row that build it. -/
theorem decode_eq_ok_iff (ht : t.Exact) {bs : Bytes} :
    t.decode bs = .ok m ↔ t.Builds depthLimit t.empty bs m := by
  constructor
  · intro h
    obtain ⟨⟨_, rest⟩, hrecords, rfl⟩ := map_eq_ok_iff.mp h
    obtain ⟨taken, rfl, hbuilds, hlimit⟩ := builds_of_readRecords ht (by omega) hrecords
    obtain rfl : rest = [] := List.length_eq_zero_iff.mp (Nat.le_zero.mp hlimit)
    rw [List.append_nil]
    exact hbuilds
  · exact Builds.decode_eq

/-- A message inside a message takes its length and the records that fill it. -/
theorem takes_readNested (ht : t.Exact) (depth number : Nat) (type : WireType) (m : M) :
    Takes (t.readNested depth type m) fun _ bs => IsPayload ⟨number, type⟩ bs := by
  cases depth with
  | zero => exact (takes_expect type .lengthDelimited).bind fun _ _ _ => takes_failWith
  | succ depth =>
    intro input m' rest h
    obtain ⟨_, behindType, hexpect, hnested⟩ := bind_eq_ok_iff.mp h
    obtain ⟨_, rfl, ⟨rfl, rfl⟩, -⟩ := takes_expect _ _ _ _ _ hexpect
    obtain ⟨length, behindLength, hvarint, hcontents⟩ := bind_eq_ok_iff.mp hnested
    obtain ⟨len, rfl, hlen, hreads⟩ := takes_readVarint _ _ _ hvarint
    change (if behindLength.length < length then failWith .pastTheEnd
      else t.readRecords depth (behindLength.length - length) (length + 1) m >>= fun m =>
        remaining >>= fun left => if left = behindLength.length - length then pure m
          else failWith .pastTheMessage : Reader M) behindLength = _ at hcontents
    split at hcontents
    · cases hcontents
    · rename_i henough
      obtain ⟨read, behind, hrecords, hend⟩ := bind_eq_ok_iff.mp hcontents
      change (if behind.length = behindLength.length - length then pure read
        else failWith .pastTheMessage : Reader M) behind = _ at hend
      split at hend
      · rename_i hleft
        cases hend
        obtain ⟨bs, rfl, hbuilds, -⟩ := builds_of_readRecords ht (by omega) hrecords
        obtain rfl : bs.length = length := by
          rw [List.length_append] at hleft henough
          omega
        refine ⟨len ++ bs, ?_, .delimited hlen, reads_nested hbuilds hreads⟩
        rw [List.nil_append, List.append_assoc]
      · cases hend

end MessageType

/-! ### Fields -/

theorem FieldReader.exact_plain {number : Nat} {name : String} {value : WireType → Reader α}
    {set : M → α → M} (h : ∀ type, Takes (value type) fun _ bs => IsPayload ⟨number, type⟩ bs) :
    (FieldReader.plain name value set).Exact number :=
  fun type _ => (h type).map fun _ _ hpayload => hpayload

theorem FieldReader.exact_nested {inner : MessageType N} (hinner : inner.Exact)
    {number depth : Nat} {name : String} {get : M → Option N} {set : M → N → M} :
    (FieldReader.nested name inner depth get set).Exact number :=
  fun type _ => (inner.takes_readNested hinner depth number type _).map fun _ _ hpayload => hpayload

theorem FieldReader.exact_repeated {inner : MessageType N} (hinner : inner.Exact)
    {number depth : Nat} {name : String} {add : M → N → M} :
    (FieldReader.repeated name inner depth add).Exact number :=
  fun type _ => (inner.takes_readNested hinner depth number type _).map fun _ _ hpayload => hpayload

end QueryClient.Wire
