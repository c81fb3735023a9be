/-
  QueryClient/Proofs/Wire/Grammar.lean
  ====================================
  **What a record is**, whoever wrote it and whatever it is for. A writer may spell a number
  with more bytes than it needs, and write fields that nobody declares, groups among them; so
  this is wider than what is written here, and it is stated without the readers.

  Records need no mark between them: no record is the beginning of another one
  (`IsRecord.unique`). So bytes that are a row of records are so in one way only, and it
  makes sense to speak of the places between them.
-/
import QueryClient.Proofs.Wire.Record

namespace QueryClient.Wire

/-! ### Numbers -/

/-- Bytes that hold a number, seven bits in each of them with the lowest first; the high bit
    is set in all of them but the last. -/
inductive Groups : Bytes → Nat → Prop where
  | last {b : UInt8} (hb : b < 128) : Groups [b] b.toNat
  | more {b : UInt8} {bs : Bytes} {n : Nat} (hb : 128 ≤ b) (hrest : Groups bs n) :
      Groups (b :: bs) (b.toNat - 128 + 128 * n)

/-- Bytes that spell a number of 64 bits, possibly with more bytes than it needs. -/
structure IsVarint (bs : Bytes) (n : Nat) : Prop where
  groups : Groups bs n
  length_le : bs.length ≤ 10
  lt : n < 2 ^ 64

theorem Groups.ne_nil {bs : Bytes} {n : Nat} (h : Groups bs n) : bs ≠ [] := by
  cases h <;> exact List.cons_ne_nil _ _

theorem Groups.unique {bs cs s t : Bytes} {m n : Nat} (hbs : Groups bs m) (hcs : Groups cs n)
    (h : bs ++ s = cs ++ t) : bs = cs ∧ m = n := by
  induction hbs generalizing cs n with
  | @last b hb =>
    cases hcs with
    | last _ =>
      obtain ⟨rfl, -⟩ := List.cons.inj h
      exact ⟨rfl, rfl⟩
    | more hc _ =>
      obtain ⟨rfl, -⟩ := List.cons.inj h
      exact absurd hb (UInt8.not_lt.mpr hc)
  | @more b bs m hb _ ih =>
    cases hcs with
    | last hc =>
      obtain ⟨rfl, -⟩ := List.cons.inj h
      exact absurd hc (UInt8.not_lt.mpr hb)
    | more _ hrest =>
      obtain ⟨rfl, htail⟩ := List.cons.inj h
      obtain ⟨rfl, rfl⟩ := ih hrest htail
      exact ⟨rfl, rfl⟩

/-! ### Keys, payloads and records -/

structure IsKey (bs : Bytes) (k : Key) : Prop where
  varint : IsVarint bs k.value
  number : IsFieldNumber k.field

/-- The payload of a record with the given key: a number; eight or four bytes; a length and so
    many bytes; or the records of a group and the end mark with the number of the group.
    The end mark itself has no payload, and no record has it for its key. -/
inductive IsPayload : Key → Bytes → Prop where
  | varint {field n : Nat} {bs : Bytes} (h : IsVarint bs n) : IsPayload ⟨field, .varint⟩ bs
  | fixed64 {field : Nat} {bs : Bytes} (h : bs.length = 8) : IsPayload ⟨field, .fixed64⟩ bs
  | fixed32 {field : Nat} {bs : Bytes} (h : bs.length = 4) : IsPayload ⟨field, .fixed32⟩ bs
  | delimited {field : Nat} {len bs : Bytes} (h : IsVarint len bs.length) :
      IsPayload ⟨field, .lengthDelimited⟩ (len ++ bs)
  | groupEnd {field : Nat} {mark : Bytes} (h : IsKey mark ⟨field, .groupEnd⟩) :
      IsPayload ⟨field, .groupStart⟩ mark
  | groupMember {field : Nat} {k : Key} {key payload rest : Bytes} (hkey : IsKey key k)
      (hpayload : IsPayload k payload) (hrest : IsPayload ⟨field, .groupStart⟩ rest) :
      IsPayload ⟨field, .groupStart⟩ (key ++ payload ++ rest)

/-- A key and a payload for it. -/
def IsRecord (k : Key) (bs : Bytes) : Prop :=
  ∃ key payload, bs = key ++ payload ∧ IsKey key k ∧ IsPayload k payload

/-- Records in a row. -/
inductive Records : Bytes → Prop where
  | none : Records []
  | record {k : Key} {bs rest : Bytes} (hrecord : IsRecord k bs) (hrest : Records rest) :
      Records (bs ++ rest)

/-! ### No record begins another one -/

theorem Key.eq_of_value_eq {j k : Key} (h : j.value = k.value) : j = k := by
  obtain ⟨field, type⟩ := j
  obtain ⟨field', type'⟩ := k
  simp only [Key.value] at h
  have hcode : type.code < 8 := by cases type <;> decide
  have hcode' : type'.code < 8 := by cases type' <;> decide
  have hfield : field = field' := by omega
  have htype : WireType.ofCode? type.code = WireType.ofCode? type'.code := by
    congr 1
    omega
  rw [WireType.ofCode?_code, WireType.ofCode?_code] at htype
  rw [hfield, Option.some.inj htype]

theorem IsKey.unique {bs cs s t : Bytes} {j k : Key} (hbs : IsKey bs j) (hcs : IsKey cs k)
    (h : bs ++ s = cs ++ t) : bs = cs ∧ j = k := by
  obtain ⟨hbytes, hvalue⟩ := hbs.varint.groups.unique hcs.varint.groups h
  exact ⟨hbytes, Key.eq_of_value_eq hvalue⟩

theorem IsPayload.type_ne_groupEnd {k : Key} {bs : Bytes} (h : IsPayload k bs) :
    k.type ≠ .groupEnd := by
  cases h <;> exact WireType.noConfusion

/-- The induction is on one of the payloads; the other one has the same key, and so the same
    form. A group is compared member by member. -/
theorem IsPayload.unique {k : Key} {bs cs s t : Bytes} (hbs : IsPayload k bs)
    (hcs : IsPayload k cs) (h : bs ++ s = cs ++ t) : bs = cs := by
  induction hbs generalizing cs s t with
  | varint hvarint =>
    cases hcs with
    | varint hvarint' => exact (hvarint.groups.unique hvarint'.groups h).1
  | fixed64 hlength =>
    cases hcs with
    | fixed64 hlength' => exact (List.append_inj h (hlength.trans hlength'.symm)).1
  | fixed32 hlength =>
    cases hcs with
    | fixed32 hlength' => exact (List.append_inj h (hlength.trans hlength'.symm)).1
  | delimited hlen =>
    cases hcs with
    | delimited hlen' =>
      rw [List.append_assoc, List.append_assoc] at h
      obtain ⟨rfl, hlength⟩ := hlen.groups.unique hlen'.groups h
      rw [(List.append_inj (List.append_cancel_left h) hlength).1]
  | groupEnd hmark =>
    cases hcs with
    | groupEnd hmark' => exact (hmark.unique hmark' h).1
    | groupMember hkey hpayload _ =>
      rw [List.append_assoc, List.append_assoc] at h
      obtain ⟨-, rfl⟩ := hmark.unique hkey h
      exact absurd rfl (hpayload.type_ne_groupEnd)
  | groupMember hkey hpayload _ ihpayload ihrest =>
    cases hcs with
    | groupEnd hmark =>
      rw [List.append_assoc, List.append_assoc] at h
      obtain ⟨-, rfl⟩ := hkey.unique hmark h
      exact absurd rfl (hpayload.type_ne_groupEnd)
    | groupMember hkey' hpayload' hrest' =>
      simp only [List.append_assoc] at h
      obtain ⟨rfl, rfl⟩ := hkey.unique hkey' h
      have hbehind := List.append_cancel_left h
      obtain rfl := ihpayload hpayload' hbehind
      rw [ihrest hrest' (List.append_cancel_left hbehind)]

theorem IsRecord.unique {j k : Key} {bs cs s t : Bytes} (hbs : IsRecord j bs)
    (hcs : IsRecord k cs) (h : bs ++ s = cs ++ t) : bs = cs := by
  obtain ⟨key, payload, rfl, hkey, hpayload⟩ := hbs
  obtain ⟨key', payload', rfl, hkey', hpayload'⟩ := hcs
  rw [List.append_assoc, List.append_assoc] at h
  obtain ⟨rfl, rfl⟩ := hkey.unique hkey' h
  rw [hpayload.unique hpayload' (List.append_cancel_left h)]

theorem IsRecord.ne_nil {k : Key} {bs : Bytes} (h : IsRecord k bs) : bs ≠ [] := by
  obtain ⟨key, payload, rfl, hkey, -⟩ := h
  exact List.append_ne_nil_of_left_ne_nil hkey.varint.groups.ne_nil _

end QueryClient.Wire
