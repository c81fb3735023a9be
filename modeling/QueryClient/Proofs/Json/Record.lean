/-
  QueryClient/Proofs/Json/Record.lean
  ===================================
  **Records come back from objects**, in whatever order the members stand.

  A member of the object for a record sets one field and leaves the others (`Member.put`).
  The members are read one after the other, so the record becomes what their settings make
  of it in turn (`readMembers_separated`). Settings of different fields commute; hence the
  order of the members does not matter, and a record is described by its members in the
  order of the fields (`RecordType.Holds`).
-/
import Mathlib.Data.List.Perm.Basic
import QueryClient.Proofs.Json.Reading

namespace QueryClient.Json

variable {R : Type}

/-- A member of the object for a record: its key, its value, and what the record becomes
    when it is read. -/
structure Member (R : Type) where
  key : String
  value : Value
  put : R → R

/-- The field reads the member. -/
structure Field.Holds (f : Field R) (m : Member R) : Prop where
  name_eq : f.name = m.key
  reads : ∀ r, Reads (f.read r) m.value (m.put r)

/-- The members, one for each field, make up the record. -/
structure RecordType.Holds (t : RecordType R) (ms : List (Member R)) (x : R) : Prop where
  nodup : (t.fields.map (·.name)).Nodup
  members : List.Forall₂ Field.Holds t.fields ms
  commute : ∀ m ∈ ms, ∀ m' ∈ ms, ∀ r, m'.put (m.put r) = m.put (m'.put r)
  result : ms.foldl (fun r m => m.put r) t.empty = x

/-- The object with the members. -/
def objectOf (ms : List (Member R)) : Value := .object (ms.map fun m => (m.key, m.value))

/-! ### Texts of members -/

theorem peekSolid_blanks {blanks : Bytes} (h : blanks.dropWhile isBlank = []) (bs : Bytes) :
    peekSolid (blanks ++ bs) = peekSolid bs := by
  rw [peekSolid, peekSolid, List.dropWhile_append, h]
  rfl

/-- The bytes of a key and of the colon behind it, with any blanks and escapes. -/
def SpellsKey (lead : Bytes) (key : String) : Prop :=
  ∃ blanks quoted, lead = blanks ++ 0x22 :: quoted ∧ blanks.dropWhile isBlank = [] ∧
    ∀ rest, ∃ behind, stringRest (quoted ++ rest) = .ok (key, behind) ∧
      colon behind = .ok ((), rest)

/-- A key as it is written. -/
theorem spellsKey_stringText (key : String) :
    SpellsKey (Text.utf8 (stringText key) ++ [0x3A]) key := by
  refine ⟨[], (key.toList.flatMap escaped).flatMap String.utf8EncodeChar ++ [0x22] ++ [0x3A], ?_,
    rfl, fun rest => ⟨0x3A :: rest, ?_, rfl⟩⟩
  · rw [utf8_stringText]
    rfl
  · rw [List.append_assoc, List.append_assoc]
    exact stringRest_escaped key (0x3A :: rest)

/-- A member of an object as text: its key with the colon, and its value. -/
structure MemberText where
  key : String
  lead : Bytes
  value : Bytes
  spells : SpellsKey lead key

namespace MemberText

/-- The bytes of a member. -/
def bytes (m : MemberText) : Bytes := m.lead ++ m.value

/-- A member with its key as it is written. -/
def plain (key : String) (value : Bytes) : MemberText :=
  ⟨key, Text.utf8 (stringText key) ++ [0x3A], value, spellsKey_stringText key⟩

/-- A member as it is printed. -/
def printed (m : String × Value) : MemberText := plain m.1 (Text.utf8 m.2.text)

theorem bytes_printed (m : String × Value) : (printed m).bytes = memberBytes m := by
  rw [bytes, printed, plain, memberBytes, List.append_assoc]
  rfl

theorem length_lt_bytes (ms : List MemberText) (rest : Bytes) :
    ms.length < (separated true (ms.map bytes) ++ rest).length + 1 := by
  have hnonempty : ∀ bs ∈ ms.map bytes, bs ≠ [] := by
    intro bs hbs
    obtain ⟨m, -, rfl⟩ := List.mem_map.mp hbs
    obtain ⟨blanks, quoted, hlead, -⟩ := m.spells
    rw [bytes, hlead]
    exact List.append_ne_nil_of_left_ne_nil (List.append_ne_nil_of_right_ne_nil _
      (List.cons_ne_nil _ _)) _
  have hlength := length_lt_separated hnonempty rest
  rw [List.length_map] at hlength
  exact hlength

/-- The key of another member is read, and its colon is passed over. -/
theorem reads_lead (m : MemberText) (first : Bool) (rest : Bytes) :
    ∃ quoted behind,
      moreMembers first ((if first then [] else [0x2C]) ++ (m.lead ++ rest)) =
        .ok (true, 0x22 :: quoted) ∧
      readKey (0x22 :: quoted) = .ok (m.key, behind) ∧ colon behind = .ok ((), rest) := by
  obtain ⟨blanks, quoted, hlead, hblanks, hkey⟩ := m.spells
  obtain ⟨behind, hstring, hcolon⟩ := hkey rest
  refine ⟨quoted ++ rest, behind, ?_, hstring, hcolon⟩
  have hpeek : peekSolid (m.lead ++ rest) = .ok (some 0x22, 0x22 :: (quoted ++ rest)) := by
    rw [hlead, List.append_assoc, peekSolid_blanks hblanks]
    rfl
  cases first with
  | true => exact bind_eq hpeek
  | false =>
    rw [if_neg Bool.false_ne_true, List.singleton_append, moreMembers,
      bind_eq (peekSolid_cons rfl (m.lead ++ rest))]
    dsimp only
    rw [if_neg (by decide), if_neg Bool.false_ne_true, if_pos rfl, advance_bind, bind_eq hpeek]
    rfl

end MemberText

namespace RecordType

variable {t : RecordType R}

/-! ### Members in any order -/

/-- No field that is needed is missing once all keys have been seen. -/
theorem find?_missing {fields : List (Field R)} {seen : List String}
    (h : ∀ f ∈ fields, f.required = true → f.name ∈ seen) :
    fields.find? (fun f => f.required && !seen.contains f.name) = none := by
  rw [List.find?_eq_none]
  intro f hf hmissing
  rw [Bool.and_eq_true, Bool.not_eq_true'] at hmissing
  have hseen := List.contains_iff_mem.mpr (h f hf hmissing.1)
  exact Bool.false_ne_true (hmissing.2.symm.trans hseen)

/-- The text of a member is taken by the reader of the record: a known key sets a field, and
    the value for any other is passed over. Blanks behind the value may be left. -/
inductive Accepts (t : RecordType R) (m : MemberText) : (R → R) → Prop where
  | known {f : Field R} {put : R → R} (hfind : t.fields.find? (·.name == m.key) = some f)
      (hread : ∀ r rest, Ends rest → ∃ blanks, blanks.dropWhile isBlank = [] ∧
        f.read r (m.value ++ rest) = .ok (put r, blanks ++ rest)) : t.Accepts m put
  | unknown (hfind : t.fields.find? (·.name == m.key) = none)
      (hskip : ∀ rest, Ends rest → ∃ blanks, blanks.dropWhile isBlank = [] ∧
        skipValue (m.value ++ rest) = .ok ((), blanks ++ rest)) : t.Accepts m id

theorem readMembers_blanks {blanks : Bytes} (h : blanks.dropWhile isBlank = []) {turns : Nat}
    (hturns : 0 < turns) (first : Bool) (seen : List String) (r : R) (bs : Bytes) :
    t.readMembers turns first seen r (blanks ++ bs) = t.readMembers turns first seen r bs := by
  cases turns with
  | zero => cases hturns
  | succ turns =>
    have hmore : moreMembers first (blanks ++ bs) = moreMembers first bs := by
      change (peekSolid (blanks ++ bs) >>= fun p => _) = (peekSolid bs >>= fun p => _)
      rw [peekSolid_blanks h]
    change (moreMembers first (blanks ++ bs) >>= fun p => _) =
      (moreMembers first bs >>= fun p => _)
    rw [hmore]

/-- Each turn takes one member; its key is new. -/
theorem readMembers_separated {ms : List MemberText} {puts : List (R → R)}
    (h : List.Forall₂ t.Accepts ms puts) {seen : List String}
    (hnew : (ms.map MemberText.key ++ seen).Nodup)
    (hall : ∀ f ∈ t.fields, f.required = true → f.name ∈ ms.map MemberText.key ++ seen)
    {turns : Nat} (hturns : ms.length < turns) (first : Bool) (r : R) (rest : Bytes) :
    t.readMembers turns first seen r
        (separated first (ms.map MemberText.bytes) ++ 0x7D :: rest) =
      .ok (puts.foldl (fun r put => put r) r, rest) := by
  induction h generalizing seen turns first r with
  | nil =>
    cases turns with
    | zero => cases hturns
    | succ turns =>
      rw [List.map_nil, List.nil_append] at hall
      have hend : moreMembers first (0x7D :: rest) = .ok (false, 0x7D :: rest) := rfl
      change t.readMembers (turns + 1) first seen r (0x7D :: rest) = _
      rw [readMembers, bind_eq hend, if_neg Bool.false_ne_true, bind_eq rfl, find?_missing hall]
      rfl
  | @cons m put ms puts hm _ ih =>
    cases turns with
    | zero => cases hturns
    | succ turns =>
      have hleft := Nat.lt_of_succ_lt_succ hturns
      have hends := ends_separated (Or.inr rfl) (ms.map MemberText.bytes) rest
      obtain ⟨quoted, behind, hmore, hkey, hcolon⟩ := m.reads_lead first
        (m.value ++ (separated false (ms.map MemberText.bytes) ++ 0x7D :: rest))
      rw [readMembers, List.map_cons, separated, MemberText.bytes]
      simp only [List.append_assoc]
      rw [bind_eq hmore, if_pos rfl, bind_eq hkey]
      rw [List.map_cons, List.cons_append] at hnew
      cases hm with
      | @known f put hfind hread =>
        have hunseen : ¬seen.contains m.key = true := fun hmem =>
          (List.nodup_cons.mp hnew).1 (List.mem_append_right _ (List.contains_iff_mem.mp hmem))
        have horder : (ms.map MemberText.key ++ m.key :: seen).Perm
            (m.key :: (ms.map MemberText.key ++ seen)) := List.perm_middle
        obtain ⟨blanks, hblanks, hvalue⟩ := hread r _ hends
        rw [hfind]
        dsimp only
        rw [if_neg hunseen, bind_eq hcolon, bind_eq hvalue,
          readMembers_blanks hblanks (Nat.zero_lt_of_lt hleft)]
        exact ih (horder.nodup_iff.mpr hnew)
          (fun f hf hrequired => horder.mem_iff.mpr (hall f hf hrequired)) hleft false (put r)
      | unknown hfind hskip =>
        have hother : ∀ f ∈ t.fields, f.required = true →
            f.name ∈ ms.map MemberText.key ++ seen := by
          intro f hf hrequired
          refine (List.mem_cons.mp (hall f hf hrequired)).resolve_left fun hname => ?_
          exact List.find?_eq_none.mp hfind f hf (beq_iff_eq.mpr hname)
        obtain ⟨blanks, hblanks, hvalue⟩ := hskip _ hends
        rw [hfind]
        dsimp only
        rw [bind_eq hcolon, bind_eq hvalue,
          readMembers_blanks hblanks (Nat.zero_lt_of_lt hleft)]
        exact ih (List.nodup_cons.mp hnew).2 hother hleft false r

/-- An object with the members, each once and none missing, is read as the record that they
    make in turn. -/
theorem read_separated {ms : List MemberText} {puts : List (R → R)}
    (h : List.Forall₂ t.Accepts ms puts) (hnew : (ms.map MemberText.key).Nodup)
    (hall : ∀ f ∈ t.fields, f.required = true → f.name ∈ ms.map MemberText.key) (rest : Bytes) :
    t.read (0x7B :: (separated true (ms.map MemberText.bytes) ++ 0x7D :: rest)) =
      .ok (puts.foldl (fun r put => put r) t.empty, rest) := by
  rw [← List.append_nil (ms.map MemberText.key)] at hnew hall
  rw [read, bind_eq (valueStart_cons rfl _), if_neg (by decide), if_pos rfl]
  exact readMembers_separated h hnew hall (MemberText.length_lt_bytes ms _) true t.empty rest

/-- Blanks before a record do not matter. -/
theorem read_blanks {blanks : Bytes} (h : blanks.dropWhile isBlank = []) (bs : Bytes) :
    t.read (blanks ++ bs) = t.read bs := by
  have hstart : valueStart (blanks ++ bs) = valueStart bs := by
    change (peekSolid (blanks ++ bs) >>= fun p => _) = (peekSolid bs >>= fun p => _)
    rw [peekSolid_blanks h]
  change (valueStart (blanks ++ bs) >>= fun p => _) = (valueStart bs >>= fun p => _)
  rw [hstart]

/-! ### Members and fields -/

theorem map_key_eq {fields : List (Field R)} {es : List (Member R)}
    (h : List.Forall₂ Field.Holds fields es) : es.map (·.key) = fields.map (·.name) := by
  induction h with
  | nil => rfl
  | cons hholds _ ih => rw [List.map_cons, List.map_cons, ih, hholds.name_eq]

/-- Among fields of distinct names the one for a member is found. -/
theorem exists_field {fields : List (Field R)} {es : List (Member R)}
    (h : List.Forall₂ Field.Holds fields es) (hnodup : (fields.map (·.name)).Nodup)
    {e : Member R} (he : e ∈ es) :
    ∃ f, fields.find? (·.name == e.key) = some f ∧ f.Holds e := by
  induction h with
  | nil => cases he
  | @cons f e' fields es hholds hrest ih =>
    obtain ⟨hapart, hnodup⟩ := List.nodup_cons.mp hnodup
    rcases List.mem_cons.mp he with rfl | he
    · refine ⟨f, ?_, hholds⟩
      rw [List.find?_cons, hholds.name_eq, beq_self_eq_true]
    · have hkey : e.key ∈ fields.map (·.name) := by
        rw [← map_key_eq hrest]
        exact List.mem_map_of_mem he
      have hname : (f.name == e.key) = false := by
        rw [beq_eq_false_iff_ne]
        intro heq
        rw [← heq] at hkey
        exact hapart hkey
      obtain ⟨g, hfind, hg⟩ := ih hnodup he
      refine ⟨g, ?_, hg⟩
      rw [List.find?_cons, hname]
      exact hfind

/-- The text of a member for a record is taken, whatever the order inside its value. -/
theorem accepts_member {m : String × Value} {e : Member R} {f : Field R}
    (hm : m.1 = e.key ∧ m.2.Reorders e.value)
    (hfind : t.fields.find? (·.name == e.key) = some f) (hholds : f.Holds e) :
    t.Accepts (.printed m) e.put := by
  rw [← hm.1] at hfind
  exact .known hfind fun r rest hrest => ⟨[], rfl, hholds.reads r m.2 hm.2 rest hrest⟩

/-- **Any order of members**: an object with the members of a record, in whatever order and
    with whatever orders inside them, is read as the record. -/
theorem Holds.reads {es : List (Member R)} {x : R} (h : t.Holds es x) :
    Reads t.read (objectOf es) x := by
  intro w hw rest _
  obtain ⟨ms, ks, rfl, horder, hmembers⟩ := hw.exists_of_object
  rw [List.forall₂_map_right_iff] at hmembers
  obtain ⟨es', hms, hes⟩ := List.perm_comp_forall₂ horder hmembers
  have htexts : List.Forall₂ t.Accepts (ms.map MemberText.printed) (es'.map Member.put) := by
    have hfields : ∀ e ∈ es', ∃ f, t.fields.find? (·.name == e.key) = some f ∧ f.Holds e :=
      fun e he => exists_field h.members h.nodup (hes.mem_iff.mp he)
    have hboth := (List.forall₂_and_left es' ms).mpr ⟨hfields, hms.flip⟩
    rw [List.forall₂_map_left_iff, List.forall₂_map_right_iff]
    refine hboth.flip.imp ?_
    rintro m e ⟨⟨f, hfind, hholds⟩, hm⟩
    exact accepts_member hm hfind hholds
  have hkeys : ((ms.map MemberText.printed).map MemberText.key).Perm
      (t.fields.map (·.name)) := by
    have hsame : ms.map Prod.fst = es'.map Member.key :=
      map_eq_map_of_forall₂ (hms.imp fun _ _ hm => hm.1)
    rw [List.map_map]
    change (ms.map Prod.fst).Perm _
    rw [hsame, ← map_key_eq h.members]
    exact hes.map Member.key
  have hresult : (es'.map Member.put).foldl (fun r put => put r) t.empty = x := by
    rw [List.foldl_map, ← h.result]
    refine hes.foldl_eq' ?_ t.empty
    intro e he e' he' r
    exact h.commute e (hes.mem_iff.mp he) e' (hes.mem_iff.mp he') r
  have hread := read_separated htexts (hkeys.nodup_iff.mpr h.nodup)
    (fun f hf _ => hkeys.mem_iff.mpr (List.mem_map_of_mem hf)) rest
  rw [hresult, List.map_map] at hread
  rw [utf8_text_object, List.cons_append, List.append_assoc,
    ← List.map_congr_left fun m _ => MemberText.bytes_printed m]
  exact hread

end RecordType
end QueryClient.Json
