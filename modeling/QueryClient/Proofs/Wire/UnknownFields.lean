/-
  QueryClient/Proofs/Wire/UnknownFields.lean
  ==========================================
  **Fields that nobody declared are passed over.** The analyser sends more than the generator
  declares, and in any order. A record with an undeclared number may stand anywhere between
  the records of a message, and the message is read as if it were not there
  (`MessageType.decode_insert`).

  What the reader holds between two records is the message read so far. A place between
  records, told from the bytes alone, is a place where the reader holds such a message
  (`MessageType.Builds.split`), since it takes whole records; and an undeclared record leaves
  it as it is (`MessageType.Builds.passOver`).
-/
import QueryClient.Proofs.Wire.Extent
import QueryClient.Wire.Message

namespace QueryClient.Wire

/-! ### Records of one message -/

/-- The ways to write a payload, other than as a group. -/
def WireType.ungrouped : List WireType := [.varint, .fixed64, .lengthDelimited, .fixed32]

theorem IsPayload.reads_skipPayload {k : Key} {bs : Bytes} (h : IsPayload k bs)
    (htype : k.type ∈ WireType.ungrouped) (depth : Nat) :
    Reads (skipPayload (depth + 1) k) bs () := by
  cases h with
  | varint hvarint => exact hvarint.reads.discard
  | @fixed64 _ bs hlength =>
    have hreads := reads_takeBytes bs
    rw [hlength] at hreads
    exact hreads.discard
  | @fixed32 _ bs hlength =>
    have hreads := reads_takeBytes bs
    rw [hlength] at hreads
    exact hreads.discard
  | @delimited _ _ bs hlen => exact hlen.reads.bind (reads_takeBytes bs).discard
  | groupEnd _ => exact absurd htype (by simp [WireType.ungrouped])
  | groupMember _ _ _ => exact absurd htype (by simp [WireType.ungrouped])

namespace MessageType

variable {M : Type} {t : MessageType M} {depth : Nat} {m m' : M} {bs front back : Bytes}

theorem Builds.nil_or_record (h : t.Builds depth m bs m') :
    (bs = [] ∧ m = m') ∨ ∃ first rest between, bs = first ++ rest ∧ first ≠ [] ∧
      Reads (t.readRecord depth m) first between ∧ t.Builds depth between rest m' := by
  cases h with
  | none => exact .inl ⟨rfl, rfl⟩
  | record hread hbytes hrest => exact .inr ⟨_, _, _, rfl, hbytes, hread, hrest⟩

/-- The reader takes whole records, so it comes by every place between records. The
    induction is on the records in front of the place. -/
theorem Builds.split (ht : t.Exact) (hfront : Records front)
    (h : t.Builds depth m (front ++ back) m') :
    ∃ between, t.Builds depth m front between ∧ t.Builds depth between back m' := by
  induction hfront generalizing m with
  | none => exact ⟨m, .none m, h⟩
  | @record k bs rest hrecord _ ih =>
    rw [List.append_assoc] at h
    rcases h.nil_or_record with ⟨hnil, -⟩ | ⟨first, others, next, hbytes, hne, hread, hothers⟩
    · exact absurd (List.append_eq_nil_iff.mp hnil).1 hrecord.ne_nil
    · obtain ⟨taken, htaken, ⟨j, hfirst⟩, -⟩ := takes_readRecord ht depth m _ _ _ (hread others)
      obtain rfl := List.append_cancel_right htaken
      obtain rfl := hrecord.unique hfirst hbytes
      rw [← List.append_cancel_left hbytes] at hothers
      obtain ⟨between, hbefore, hbehind⟩ := ih hothers
      exact ⟨between, .record hread hne hbefore, hbehind⟩

/-- A record with an undeclared number changes nothing. -/
theorem Builds.passOver {k : Key} (hrecord : IsRecord k bs) (htype : k.type ∈ WireType.ungrouped)
    (hfield : t.field? (depth + 1) k.field = .none) (m : M) : t.Builds (depth + 1) m bs m := by
  have hread : Reads (t.readRecord (depth + 1) m) bs m := by
    obtain ⟨key, payload, rfl, hkey, hpayload⟩ := hrecord
    apply hkey.reads.bind
    rw [hfield]
    exact (hpayload.reads_skipPayload htype depth).bind_pure (reads_pure m)
  have hbuilds := Builds.record hread hrecord.ne_nil (.none m)
  rw [List.append_nil] at hbuilds
  exact hbuilds

theorem Builds.records (ht : t.Exact) (h : t.Builds depth m bs m') : Records bs := by
  induction h with
  | none => exact .none
  | @record m _ _ _ rest hread _ _ ih =>
    obtain ⟨taken, htaken, ⟨k, hrecord⟩, -⟩ := takes_readRecord ht depth m _ _ _ (hread rest)
    obtain rfl := List.append_cancel_right htaken
    exact .record hrecord ih

/-- The message is read as if the undeclared record were not there. -/
theorem decode_insert (ht : t.Exact) (h : t.decode (front ++ back) = .ok m)
    (hfront : Records front) {k : Key} {unknown : Bytes} (hrecord : IsRecord k unknown)
    (htype : k.type ∈ WireType.ungrouped) (hfield : t.field? depthLimit k.field = none) :
    t.decode (front ++ unknown ++ back) = .ok m := by
  rw [decode_eq_ok_iff ht] at h ⊢
  obtain ⟨between, hbefore, hbehind⟩ := h.split ht hfront
  exact (hbefore.append (Builds.passOver hrecord htype hfield between)).append hbehind

/-! ### Declared fields -/

/-- The message type declares fields with these numbers and no others. What it reads is a row
    of records, and between any two of them, in front of all and behind all, a record with
    another number may be put in. -/
structure PassesOverAllBut (t : MessageType M) (declared : List Nat) : Prop where
  declares : ∀ depth number, (t.field? depth number).isSome ↔ number ∈ declared
  records : ∀ bs m, t.decode bs = .ok m → Records bs
  decode_insert : ∀ front back m, t.decode (front ++ back) = .ok m → Records front →
    ∀ k unknown, IsRecord k unknown → k.type ∈ WireType.ungrouped → k.field ∉ declared →
      t.decode (front ++ unknown ++ back) = .ok m

theorem PassesOverAllBut.of_exact {declared : List Nat} (ht : t.Exact)
    (hdeclared : ∀ depth number, (t.field? depth number).isSome ↔ number ∈ declared) :
    t.PassesOverAllBut declared where
  declares := hdeclared
  records bs m h := ((decode_eq_ok_iff ht).mp h).records ht
  decode_insert front back m h hfront k unknown hrecord htype hnumber := by
    refine MessageType.decode_insert ht h hfront hrecord htype ?_
    rw [← Option.not_isSome_iff_eq_none, hdeclared]
    exact hnumber

end MessageType

/-! ### The messages -/

open FieldReader

theorem File.exact_type : File.type.Exact := by
  intro depth number f h
  simp only [type] at h
  split at h <;> cases h
  · exact exact_plain (takes_readText 1)
  · exact exact_plain (takes_readDelimited 2)

theorem Identifier.exact_type : Identifier.type.Exact := by
  intro depth number f h
  simp only [type] at h
  split at h <;> cases h
  · exact exact_plain (takes_readText 1)
  · exact exact_plain (takes_readText 2)
  · exact exact_plain (takes_readText 3)

theorem Column.exact_type : Column.type.Exact := by
  intro depth number f h
  simp only [type] at h
  split at h <;> cases h
  · exact exact_plain (takes_readText 1)
  · exact exact_plain (takes_readBool 3)
  · exact exact_plain (takes_readBool 4)
  · exact exact_nested Identifier.exact_type
  · exact exact_plain (takes_readInt32 17)

theorem Parameter.exact_type : Parameter.type.Exact := by
  intro depth number f h
  simp only [type] at h
  split at h <;> cases h
  · exact exact_plain (takes_readInt32 1)
  · exact exact_nested Column.exact_type

theorem Query.exact_type : Query.type.Exact := by
  intro depth number f h
  simp only [type] at h
  split at h <;> cases h
  · exact exact_plain (takes_readText 1)
  · exact exact_plain (takes_readText 2)
  · exact exact_plain (takes_readText 3)
  · exact exact_repeated Column.exact_type
  · exact exact_repeated Parameter.exact_type
  · exact exact_plain (takes_readText 7)

theorem Request.exact_type : Request.type.Exact := by
  intro depth number f h
  simp only [type] at h
  split at h <;> cases h
  · exact exact_repeated Query.exact_type
  · exact exact_plain (takes_readText 4)
  · exact exact_plain (takes_readDelimited 5)

theorem Response.exact_type : Response.type.Exact := by
  intro depth number f h
  simp only [type] at h
  split at h <;> cases h
  exact exact_repeated File.exact_type

/-- **Undeclared fields are passed over.** Each message is read the same with a record put in
    between any two of its records, if the message declares no field with the number of the
    record: whether the record holds a number, eight bytes, four bytes or so many bytes as
    it says, and whatever these are. -/
theorem undeclared_fields_passed_over :
    Identifier.type.PassesOverAllBut [1, 2, 3] ∧
    Column.type.PassesOverAllBut [1, 3, 4, 12, 17] ∧
    Parameter.type.PassesOverAllBut [1, 2] ∧
    Query.type.PassesOverAllBut [1, 2, 3, 4, 5, 7] ∧
    Request.type.PassesOverAllBut [3, 4, 5] ∧
    File.type.PassesOverAllBut [1, 2] ∧
    Response.type.PassesOverAllBut [1] := by
  refine ⟨.of_exact Identifier.exact_type ?_, .of_exact Column.exact_type ?_,
    .of_exact Parameter.exact_type ?_, .of_exact Query.exact_type ?_,
    .of_exact Request.exact_type ?_, .of_exact File.exact_type ?_,
    .of_exact Response.exact_type ?_⟩
  all_goals
    intro depth number
    simp only [Identifier.type, Column.type, Parameter.type, Query.type, Request.type, File.type,
      Response.type]
    split <;> simp_all

/-- Settings, which the generator does not declare, between the version and the options; the
    key has a byte more than it needs. -/
theorem undeclared_fields_passed_over_settings :
    Request.type.decode ([0x22, 0x02, 0x76, 0x31] ++ [0x2A, 0x01, 0x7B]) = .ok ⟨[], "v1", [0x7B]⟩ ∧
      IsRecord ⟨1, .lengthDelimited⟩ [0x8A, 0x00, 0x02, 0x08, 0x01] ∧
      Request.type.decode ([0x22, 0x02, 0x76, 0x31] ++ [0x8A, 0x00, 0x02, 0x08, 0x01] ++
        [0x2A, 0x01, 0x7B]) = .ok ⟨[], "v1", [0x7B]⟩ := by
  have hdecode : Request.type.decode ([0x22, 0x02, 0x76, 0x31] ++ [0x2A, 0x01, 0x7B]) =
      .ok ⟨[], "v1", [0x7B]⟩ := by rfl
  have hv1 : IsPayload ⟨4, .lengthDelimited⟩ ([0x02] ++ [0x76, 0x31]) :=
    .delimited ⟨.last (by decide), by decide, by decide⟩
  have hversion : IsRecord ⟨4, .lengthDelimited⟩ [0x22, 0x02, 0x76, 0x31] :=
    ⟨[0x22], [0x02, 0x76, 0x31], rfl, ⟨⟨.last (by decide), by decide, by decide⟩, by decide⟩, hv1⟩
  have hmessage : IsPayload ⟨1, .lengthDelimited⟩ ([0x02] ++ [0x08, 0x01]) :=
    .delimited ⟨.last (by decide), by decide, by decide⟩
  have hsettings : IsRecord ⟨1, .lengthDelimited⟩ [0x8A, 0x00, 0x02, 0x08, 0x01] :=
    ⟨[0x8A, 0x00], [0x02, 0x08, 0x01], rfl,
      ⟨⟨.more (by decide) (.last (by decide)), by decide, by decide⟩, by decide⟩, hmessage⟩
  obtain ⟨-, -, -, -, hrequest, -, -⟩ := undeclared_fields_passed_over
  exact ⟨hdecode, hsettings, hrequest.decode_insert _ _ _ hdecode (.record hversion .none) _ _
    hsettings (by decide) (by decide)⟩

end QueryClient.Wire
