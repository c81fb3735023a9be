/-
  QueryClient/Proofs/Json/Meaning.lean
  ====================================
  **What a reader makes of a text is told by its tree**, if no object in it has two members of
  one key, and the order of members plays no part (`Means`).

  A record is filled field by field. From an object each member fills the field of its name,
  and members of other names are passed over; from a list the fields are filled in their order
  (`Tree.record?`). Fields that do not get in each other's way make a record that does not
  depend on the order of the members (`RecordType.Fills.means`).
-/
import Mathlib.Data.List.Nodup
import Mathlib.Data.List.Pairwise
import QueryClient.Proofs.Json.Passing
import QueryClient.Proofs.Json.Printing

namespace QueryClient.Json

variable {α β R : Type}

/-! ### Readers that stop -/

/-- The reader stops on every input. -/
def Stops (r : Reader α) : Prop := ∀ bs a rest, r bs ≠ .ok (a, rest)

theorem Stops.bind {r : Reader α} {f : α → Reader β} (h : ∀ a, Stops (f a)) : Stops (r >>= f) := by
  intro bs b rest hb
  obtain ⟨a, mid, -, hfa⟩ := bind_eq_ok_iff.mp hb
  exact h a mid b rest hfa

theorem Stops.ite {p : Prop} [Decidable p] {r s : Reader α} (h : Stops r) (h' : Stops s) :
    Stops (if p then r else s) := by
  by_cases hp : p
  · rw [if_pos hp]
    exact h
  · rw [if_neg hp]
    exact h'

theorem stops_stop (cause : Cause) : Stops (stop cause : Reader α) := nofun

theorem stops_stopAtNext (cause : Cause) : Stops (stopAtNext cause : Reader α) := nofun

/-- A scalar of another kind is read first, but that does not help. -/
theorem stops_wrongType (wanted : String) : Stops (wrongType wanted : Reader α) := by
  refine .bind fun b? => ?_
  cases b? with
  | none => exact stops_stopAtNext _
  | some b =>
    refine .ite (.bind fun _ => .bind fun _ => stops_stop _) ?_
    refine .ite (.bind fun _ => .bind fun _ => stops_stop _) ?_
    refine .ite (.bind fun _ => .bind fun _ => stops_stop _) ?_
    refine .ite (.bind fun _ => .bind fun _ => stops_stop _) ?_
    refine .ite (.bind fun _ => .bind fun _ => stops_stop _) ?_
    refine .ite (.bind fun _ => stops_stop _) ?_
    exact .ite (stops_stop _) (.ite (stops_stop _) (stops_stopAtNext _))

/-! ### Readers and trees -/

/-- The reader takes the same text as the reader of trees, and its result is that of a function
    of the tree, or it stops where the function has none. -/
structure Means (r : Reader α) (f : Tree → Option α) : Prop where
  reads : ∀ {depth : Nat} {bs rest : Bytes} {t : Tree}, readTree depth bs = .ok (t, rest) →
    t.DistinctKeys → ∀ a behind, r bs = .ok (a, behind) ↔ f t = some a ∧ rest = behind
  reorders : ∀ {t u : Tree}, u.Reorders t → t.DistinctKeys → f u = f t

theorem reads_some {x : Except Stop (α × Bytes)} {a : α} {rest : Bytes} (h : x = .ok (a, rest))
    (b : α) (behind : Bytes) : x = .ok (b, behind) ↔ some a = some b ∧ rest = behind := by
  rw [h, Except.ok.injEq, Prod.mk.injEq, Option.some.injEq]

theorem reads_none {x : Except Stop (α × Bytes)} {rest : Bytes} (h : ∀ a rest, x ≠ .ok (a, rest))
    (b : α) (behind : Bytes) : x = .ok (b, behind) ↔ none = some b ∧ rest = behind :=
  iff_of_false (h b behind) nofun

theorem reads_bind {r : Reader α} {f : α → Reader β} {a? : Option α} {g : α → Option β}
    {bs mid rest behind : Bytes} {b : β}
    (h : ∀ a next, r bs = .ok (a, next) ↔ a? = some a ∧ mid = next)
    (hf : ∀ a, f a mid = .ok (b, behind) ↔ g a = some b ∧ rest = behind) :
    (r >>= f) bs = .ok (b, behind) ↔ a?.bind g = some b ∧ rest = behind := by
  rw [bind_eq_ok_iff, Option.bind_eq_some_iff]
  constructor
  · rintro ⟨a, next, hr, hfa⟩
    obtain ⟨hsome, rfl⟩ := (h a next).mp hr
    obtain ⟨hg, rfl⟩ := (hf a).mp hfa
    exact ⟨⟨a, hsome, hg⟩, rfl⟩
  · rintro ⟨⟨a, hsome, hg⟩, hrest⟩
    exact ⟨a, mid, (h a mid).mpr ⟨hsome, rfl⟩, (hf a).mpr ⟨hg, hrest⟩⟩

/-- A reader that goes by the first byte of a value. -/
theorem means_of_begins {f : UInt8 → Reader α} {g : Tree → Option α}
    (hreads : ∀ {depth : Nat} {b : UInt8} {cs rest : Bytes} {t : Tree},
      Begins depth b cs t rest → t.DistinctKeys →
        ∀ a behind, f b (b :: cs) = .ok (a, behind) ↔ g t = some a ∧ rest = behind)
    (hreorders : ∀ {t u : Tree}, u.Reorders t → t.DistinctKeys → g u = g t) :
    Means (valueStart >>= f) g where
  reads := by
    intro depth bs rest t hread hdistinct a behind
    obtain ⟨b, cs, hdrop, hbegins⟩ := exists_begins hread
    rw [bind_eq (valueStart_eq_ok_iff.mpr ⟨hdrop, rfl⟩)]
    exact hreads hbegins hdistinct a behind
  reorders := hreorders

theorem Means.map {r : Reader α} {f : Tree → Option α} (h : Means r f) (g : α → β) :
    Means (r >>= fun a => pure (g a)) (fun t => (f t).map g) where
  reads := by
    intro depth bs rest t hread hdistinct b behind
    rw [Option.map_eq_bind]
    exact reads_bind (h.reads hread hdistinct) fun a => reads_some rfl b behind
  reorders := fun hreorders hdistinct => congrArg (Option.map g) (h.reorders hreorders hdistinct)

/-! ### Scalars -/

namespace Tree

/-- The truth value that the tree is. -/
def bool? : Tree → Option Bool
  | .bool b => some b
  | _ => none

/-- The string that the tree is. -/
def string? : Tree → Option String
  | .string s => some s
  | _ => none

/-- Nothing where the tree is null, and else what the function makes of it. -/
def nullable (f : Tree → Option α) : Tree → Option (Option α)
  | .null => some none
  | t => (f t).map some

end Tree

theorem means_readBool : Means readBool Tree.bool? := by
  refine means_of_begins ?_ ?_
  · intro depth b cs rest t hbegins _
    have hstops : Stops (wrongType "a boolean" : Reader Bool) := stops_wrongType _
    cases hbegins with
    | true hword =>
      have hread : (word restOfTrue >>= fun _ => pure true : Reader Bool) cs = .ok (true, rest) :=
        bind_eq hword
      exact reads_some hread
    | false hword =>
      have hread : (word restOfFalse >>= fun _ => pure false : Reader Bool) cs = .ok (false, rest) :=
        bind_eq hword
      exact reads_some hread
    | digit hdigit _ =>
      rw [if_neg (ne_of_isDigit hdigit rfl), if_neg (ne_of_isDigit hdigit rfl)]
      exact reads_none (hstops _)
    | null _ | string _ | negative _ | list _ | object _ => exact reads_none (hstops _)
  · intro t u hreorders _
    cases hreorders <;> rfl

theorem means_readText : Means readText Tree.string? := by
  refine means_of_begins ?_ ?_
  · intro depth b cs rest t hbegins _
    have hstops : Stops (wrongType "a string" : Reader String) := stops_wrongType _
    cases hbegins with
    | string hstring => exact reads_some hstring
    | digit hdigit _ =>
      rw [if_neg (ne_of_isDigit hdigit rfl)]
      exact reads_none (hstops _)
    | null _ | true _ | false _ | negative _ | list _ | object _ => exact reads_none (hstops _)
  · intro t u hreorders _
    cases hreorders <;> rfl

theorem Means.nullable {r : Reader α} {f : Tree → Option α} (h : Means r f) :
    Means (readNullable r) (Tree.nullable f) where
  reads := by
    intro depth bs rest t hread hdistinct a behind
    obtain ⟨b, cs, hdrop, hbegins⟩ := exists_begins hread
    rw [readNullable, bind_eq (peekSolid_eq hdrop)]
    by_cases hnull : b = 0x6E
    · subst hnull
      cases hbegins with
      | null hword =>
        have hread : (word restOfNull >>= fun _ => pure none : Reader (Option α)) cs =
            .ok (none, rest) := bind_eq hword
        exact reads_some hread a behind
      | digit hdigit _ => cases hdigit
    · have hsame : Tree.nullable f t = (f t).map some := by
        cases t with
        | null => exact absurd (hbegins.eq_null_iff.mpr rfl) hnull
        | bool _ | number | string _ | list _ | object _ => rfl
      rw [← readTree_dropWhile, hdrop] at hread
      rw [if_neg (fun heq => hnull (Option.some.inj heq)), hsame]
      exact (h.map some).reads hread hdistinct a behind
  reorders := by
    intro t u hreorders hdistinct
    have hsame := h.reorders hreorders hdistinct
    cases hreorders with
    | refl => rfl
    | list _ | object _ _ _ => exact congrArg (Option.map some) hsame

/-! ### Records from trees -/

/-- A field as it is filled from a tree: its name, and what the record becomes. -/
structure Slot (R : Type) where
  name : String
  fill : R → Tree → Option R

/-- The field need not be there, and its reader fills it. -/
structure Field.Fills (f : Field R) (s : Slot R) : Prop where
  name_eq : f.name = s.name
  optional : f.required = false
  means : ∀ r, Means (f.read r) (s.fill r)

/-- Filling one field does not get in the way of filling the other. -/
def Slot.Apart (s s' : Slot R) : Prop :=
  ∀ r t t', (s.fill r t).bind (s'.fill · t') = (s'.fill r t').bind (s.fill · t)

instance : Std.Symm (Slot.Apart (R := R)) where
  symm _ _ h r t t' := (h r t' t).symm

/-- The fields are filled, each without regard to the others. -/
structure RecordType.Fills (t : RecordType R) (slots : List (Slot R)) : Prop where
  fields : List.Forall₂ Field.Fills t.fields slots
  commute : slots.Pairwise Slot.Apart

/-- Two fields of a record that are set one way and the other. -/
theorem Slot.apart_of_set {f : Tree → Option α} {g : Tree → Option β} {set : R → α → R}
    {set' : R → β → R} (h : ∀ r a b, set' (set r a) b = set (set' r b) a) (name name' : String) :
    Slot.Apart ⟨name, fun r t => (f t).map (set r)⟩ ⟨name', fun r t => (g t).map (set' r)⟩ := by
  intro r t t'
  dsimp only
  cases f t with
  | none => cases g t' <;> rfl
  | some a =>
    cases g t' with
    | none => rfl
    | some b => exact congrArg some (h r a b)

/-- What the record becomes by a member. -/
def fillMember (slots : List (Slot R)) (r : R) (m : String × Tree) : Option R :=
  match slots.find? (·.name == m.1) with
  | none => some r
  | some s => s.fill r m.2

/-- What the record becomes by a list of values, in the order of the fields. -/
def fillElements : List (Slot R) → R → List Tree → Option R
  | _, r, [] => some r
  | [], _, _ :: _ => none
  | s :: slots, r, t :: ts => (s.fill r t).bind (fillElements slots · ts)

/-- The record that the tree is. -/
def Tree.record? (slots : List (Slot R)) (empty : R) : Tree → Option R
  | .list ts => fillElements slots empty ts
  | .object ms => ms.foldlM (fillMember slots) empty
  | _ => none

/-- Looking for the field of a name and for the slot of that name. -/
theorem find?_fills {fields : List (Field R)} {slots : List (Slot R)}
    (h : List.Forall₂ Field.Fills fields slots) (key : String) :
    fields.find? (·.name == key) = none ∧ slots.find? (·.name == key) = none ∨
      ∃ f s, fields.find? (·.name == key) = some f ∧ slots.find? (·.name == key) = some s ∧
        f.Fills s := by
  induction h with
  | nil => exact Or.inl ⟨rfl, rfl⟩
  | @cons f s fields slots hfills _ ih =>
    rw [List.find?_cons, List.find?_cons, hfills.name_eq]
    cases s.name == key with
    | true => exact Or.inr ⟨f, s, rfl, rfl, hfills⟩
    | false => exact ih

theorem not_required_of_fills {fields : List (Field R)} {slots : List (Slot R)}
    (h : List.Forall₂ Field.Fills fields slots) : ∀ f ∈ fields, f.required = false := by
  induction h with
  | nil => exact List.forall_mem_nil _
  | cons hfills _ ih => exact List.forall_mem_cons.mpr ⟨hfills.optional, ih⟩

theorem endList_eq_ok_iff {bs rest : Bytes} :
    endList bs = .ok ((), rest) ↔ bs.dropWhile isBlank = 0x5D :: rest := by
  constructor
  · intro h
    obtain ⟨b, cs, hdrop, -, h⟩ := exists_of_peekSolid nofun h
    dsimp only at h
    split_ifs at h with hclose hcomma
    · cases h
      rw [hdrop, hclose]
      rfl
    · have hstops : Stops (advance >>= fun _ => peekSolid >>= fun c =>
          if c = some 0x5D then stopAtNext .trailingComma
          else stopAtNext .trailingCharacters : Reader Unit) :=
        .bind fun _ => .bind fun _ => .ite (stops_stopAtNext _) (stops_stopAtNext _)
      exact absurd h (hstops _ _ _)
    · cases h
  · intro h
    rw [endList, bind_eq (peekSolid_eq h)]
    rfl

namespace RecordType

variable {t : RecordType R} {slots : List (Slot R)}

/-- The fields are filled in their order, and no value may be left over. -/
theorem readElements_iff {fields : List (Field R)} (h : List.Forall₂ Field.Fills fields slots)
    {depth turns i : Nat} {first : Bool} (hfirst : decide (i = 0) = first)
    {bs last rest : Bytes} {ts : List Tree}
    (hread : elements (readTree depth) turns first bs = .ok (ts, last))
    (hend : endList last = .ok ((), rest)) (hdistinct : ∀ t ∈ ts, t.DistinctKeys) (r a : R)
    (behind : Bytes) :
    (t.readElements i fields r >>= fun a => endList >>= fun _ => pure a) bs = .ok (a, behind) ↔
      fillElements slots r ts = some a ∧ rest = behind := by
  induction h generalizing turns i first bs ts r with
  | nil =>
    change (endList >>= fun _ => pure r : Reader R) bs = _ ↔ _
    cases turns with
    | zero => cases hread
    | succ turns =>
      obtain ⟨more, mid, hmore, hread⟩ := bind_eq_ok_iff.mp hread
      have hstops {b : UInt8} {cs : Bytes} (hdrop : bs.dropWhile isBlank = b :: cs)
          (hb : b ≠ 0x5D) : ∀ a rest, (endList >>= fun _ => pure r : Reader R) bs ≠ .ok (a, rest) := by
        intro a rest h
        obtain ⟨⟨⟩, next, hclose, -⟩ := bind_eq_ok_iff.mp h
        rw [endList_eq_ok_iff, hdrop] at hclose
        exact hb (List.cons.inj hclose).1
      cases goesOn_of_moreElements hmore with
      | last hclose =>
        cases hread
        cases hend
        exact reads_some (bind_eq (endList_eq_ok_iff.mpr hclose)) a behind
      | first hitem hopen =>
        obtain ⟨v, next, -, hread⟩ := bind_eq_ok_iff.mp hread
        obtain ⟨vs, behind', -, ⟨⟩⟩ := bind_eq_ok_iff.mp hread
        exact reads_none (hstops hitem hopen) a behind
      | next hcomma hitem hopen =>
        obtain ⟨v, next, -, hread⟩ := bind_eq_ok_iff.mp hread
        obtain ⟨vs, behind', -, ⟨⟩⟩ := bind_eq_ok_iff.mp hread
        exact reads_none (hstops hcomma (by decide)) a behind
  | @cons f s fields slots hfills hrest ih =>
    cases turns with
    | zero => cases hread
    | succ turns =>
      obtain ⟨more, mid, hmore, hread⟩ := bind_eq_ok_iff.mp hread
      rw [readElements, hfirst, bind_assoc, bind_eq hmore]
      cases more with
      | false =>
        cases hread
        have hnone : firstRequired (f :: fields) = none :=
          List.findIdx?_eq_none_iff.mpr (not_required_of_fills (.cons hfills hrest))
        rw [if_neg Bool.false_ne_true, hnone]
        change (endList >>= fun _ => pure r : Reader R) last = _ ↔ _
        exact reads_some (bind_eq hend) a behind
      | true =>
        obtain ⟨v, next, hvalue, hread⟩ := bind_eq_ok_iff.mp hread
        obtain ⟨vs, behind', hread, ⟨⟩⟩ := bind_eq_ok_iff.mp hread
        rw [List.forall_mem_cons] at hdistinct
        have hfill := (hfills.means r).reads hvalue hdistinct.1
        rw [if_pos rfl, bind_assoc]
        exact reads_bind hfill fun r => ih (decide_eq_false (Nat.succ_ne_zero i)) hread hdistinct.2 r

/-- Members of known names fill their fields, and the others are passed over. -/
theorem readMembers_iff (h : t.Fills slots) {depth turns : Nat} {first : Bool}
    {seen : List String} {bs rest : Bytes} {ms : List (String × Tree)}
    (hread : memberList (readTree depth) turns first bs = .ok (ms, rest))
    (hdistinct : ∀ m ∈ ms, m.2.DistinctKeys) (hnew : (ms.map Prod.fst ++ seen).Nodup) (r a : R)
    (behind : Bytes) :
    t.readMembers turns first seen r bs = .ok (a, behind) ↔
      ms.foldlM (fillMember slots) r = some a ∧ rest = behind := by
  induction turns generalizing first seen bs ms r with
  | zero => cases hread
  | succ turns ih =>
    obtain ⟨more, mid, hmore, hread⟩ := bind_eq_ok_iff.mp hread
    rw [readMembers, bind_eq hmore]
    cases more with
    | false =>
      cases hread
      have hnone : t.fields.find? (fun f => f.required && !seen.contains f.name) = none := by
        rw [List.find?_eq_none]
        intro f hf
        rw [not_required_of_fills h.fields f hf]
        exact Bool.false_ne_true
      rw [if_neg Bool.false_ne_true, bind_eq rfl, hnone]
      exact reads_some rfl a behind
    | true =>
      obtain ⟨key, colonAt, hkey, hread⟩ := bind_eq_ok_iff.mp hread
      obtain ⟨⟨⟩, valueAt, hcolon, hread⟩ := bind_eq_ok_iff.mp hread
      obtain ⟨v, next, hvalue, hread⟩ := bind_eq_ok_iff.mp hread
      obtain ⟨ms, last, hread, ⟨⟩⟩ := bind_eq_ok_iff.mp hread
      rw [List.forall_mem_cons] at hdistinct
      rw [List.map_cons, List.cons_append, List.nodup_cons] at hnew
      rw [if_pos rfl, bind_eq hkey, List.foldlM_cons, fillMember]
      rcases find?_fills h.fields key with ⟨hfield, hslot⟩ | ⟨f, s, hfield, hslot, hfills⟩
      · rw [hfield, hslot]
        dsimp only
        rw [bind_eq hcolon, bind_eq (skipValue_of_readTree hvalue)]
        exact ih hread hdistinct.2 hnew.2 r
      · have hunseen : ¬seen.contains key = true := fun hmem =>
          hnew.1 (List.mem_append_right _ (List.contains_iff_mem.mp hmem))
        have hnew' : (ms.map Prod.fst ++ key :: seen).Nodup := by
          rw [List.perm_middle.nodup_iff, List.nodup_cons]
          exact hnew
        have hfill := (hfills.means r).reads hvalue hdistinct.1
        rw [hfield, hslot]
        dsimp only
        rw [if_neg hunseen, bind_eq hcolon]
        exact reads_bind hfill fun r => ih hread hdistinct.2 hnew' r

theorem fillElements_reorders {fields : List (Field R)} (h : List.Forall₂ Field.Fills fields slots)
    {ts us : List Tree} (hus : List.Forall₂ Tree.Reorders us ts)
    (hdistinct : ∀ t ∈ ts, t.DistinctKeys) (r : R) :
    fillElements slots r us = fillElements slots r ts := by
  induction h generalizing us ts r with
  | nil => cases hus <;> rfl
  | cons hfills _ ih =>
    cases hus with
    | nil => rfl
    | cons hu hus =>
      rw [List.forall_mem_cons] at hdistinct
      rw [fillElements, fillElements, (hfills.means r).reorders hu hdistinct.1]
      congr 1
      funext r
      exact ih hus hdistinct.2 r

theorem fillMember_reorders (h : t.Fills slots) {m n : String × Tree} (hkey : m.1 = n.1)
    (hvalue : m.2.Reorders n.2) (hdistinct : n.2.DistinctKeys) (r : R) :
    fillMember slots r m = fillMember slots r n := by
  rw [fillMember, fillMember, hkey]
  rcases find?_fills h.fields n.1 with ⟨-, hslot⟩ | ⟨f, s, -, hslot, hfills⟩
  · rw [hslot]
  · rw [hslot]
    exact (hfills.means r).reorders hvalue hdistinct

/-- Steps that may be swapped may be made in any order. -/
theorem foldlM_perm {f : R → α → Option R} {l l' : List α} (hperm : l.Perm l')
    (hcomm : ∀ x ∈ l, ∀ y ∈ l, ∀ r, (f r x).bind (f · y) = (f r y).bind (f · x)) (r : R) :
    l.foldlM f r = l'.foldlM f r := by
  induction hperm generalizing r with
  | nil => rfl
  | cons x _ ih =>
    have hrest := ih fun y hy z hz =>
      hcomm y (List.mem_cons_of_mem x hy) z (List.mem_cons_of_mem x hz)
    rw [List.foldlM_cons, List.foldlM_cons]
    congr 1
    funext r
    exact hrest r
  | swap x y l =>
    have hswap := hcomm y List.mem_cons_self x (List.mem_cons_of_mem y List.mem_cons_self) r
    simp only [List.foldlM_cons, Option.bind_eq_bind, ← Option.bind_assoc]
    rw [hswap]
  | trans hperm _ ih ih' =>
    refine (ih hcomm r).trans (ih' (fun x hx y hy => ?_) r)
    exact hcomm x (hperm.mem_iff.mpr hx) y (hperm.mem_iff.mpr hy)

theorem mem_of_find? {slots : List (Slot R)} {key : String} {s : Slot R}
    (h : slots.find? (·.name == key) = some s) : s ∈ slots ∧ s.name = key := by
  have hname := List.find?_some h
  exact ⟨List.mem_of_find?_eq_some h, eq_of_beq hname⟩

/-- Members of different keys may be swapped. -/
theorem fillMember_comm (h : t.Fills slots) {m n : String × Tree} (hkey : m.1 ≠ n.1) (r : R) :
    (fillMember slots r m).bind (fillMember slots · n) =
      (fillMember slots r n).bind (fillMember slots · m) := by
  unfold fillMember
  cases hm : slots.find? (·.name == m.1) with
  | none => exact (Option.bind_fun_some _).symm
  | some s =>
    cases hn : slots.find? (·.name == n.1) with
    | none => exact Option.bind_fun_some _
    | some s' =>
      obtain ⟨hs, hname⟩ := mem_of_find? hm
      obtain ⟨hs', hname'⟩ := mem_of_find? hn
      have hne : s ≠ s' := by
        rintro rfl
        exact hkey (hname.symm.trans hname')
      exact h.commute.forall hs hs' hne r m.2 n.2

theorem foldlM_fillMember_reorders (h : t.Fills slots) {ms ks ns : List (String × Tree)}
    (horder : ms.Perm ks)
    (hmembers : List.Forall₂ (fun m n => m.1 = n.1 ∧ m.2.Reorders n.2) ks ns)
    (hnodup : (ns.map Prod.fst).Nodup) (hdistinct : ∀ n ∈ ns, n.2.DistinctKeys) (r : R) :
    ms.foldlM (fillMember slots) r = ns.foldlM (fillMember slots) r := by
  have hkeys : ks.map Prod.fst = ns.map Prod.fst :=
    map_eq_map_of_forall₂ (hmembers.imp fun _ _ hm => hm.1)
  have hapart : (ms.map Prod.fst).Nodup := by
    rw [(horder.map Prod.fst).nodup_iff, hkeys]
    exact hnodup
  have hsorted : ms.foldlM (fillMember slots) r = ks.foldlM (fillMember slots) r := by
    refine foldlM_perm horder ?_ r
    intro m hm n hn r
    by_cases hkey : m.1 = n.1
    · rw [List.inj_on_of_nodup_map hapart hm hn hkey]
    · exact fillMember_comm h hkey r
  rw [hsorted]
  clear hsorted horder hapart hkeys hnodup
  induction hmembers generalizing r with
  | nil => rfl
  | cons hm _ ih =>
    rw [List.forall_mem_cons] at hdistinct
    rw [List.foldlM_cons, List.foldlM_cons, fillMember_reorders h hm.1 hm.2 hdistinct.1]
    congr 1
    funext r
    exact ih hdistinct.2 r

/-- **A record told by its tree**: the record that a text is read as depends on the tree of the
    text alone, and not on the order of members in it. -/
theorem Fills.means (h : t.Fills slots) : Means t.read (Tree.record? slots t.empty) := by
  refine means_of_begins ?_ ?_
  · intro depth b cs rest tree hbegins hdistinct
    have hstops : Stops (wrongType ("struct " ++ t.name) : Reader R) := stops_wrongType _
    cases hbegins with
    | list hlist =>
      cases hdistinct with
      | list hitems =>
        obtain ⟨ts, last, hread, hrest⟩ := bind_eq_ok_iff.mp hlist
        obtain ⟨⟨⟩, behind, hend, hpure⟩ := bind_eq_ok_iff.mp hrest
        obtain ⟨rfl, rfl⟩ := pure_eq_ok_iff.mp hpure
        exact readElements_iff h.fields rfl hread hend hitems t.empty
    | object hobject =>
      cases hdistinct with
      | object hnodup hvalues =>
        rw [← List.append_nil (List.map _ _)] at hnodup
        exact readMembers_iff h hobject hvalues hnodup t.empty
    | digit hdigit _ =>
      rw [if_neg (ne_of_isDigit hdigit rfl), if_neg (ne_of_isDigit hdigit rfl)]
      exact reads_none (hstops _)
    | null _ | true _ | false _ | string _ | negative _ => exact reads_none (hstops _)
  · intro tree other hreorders hdistinct
    cases hreorders with
    | refl => rfl
    | list helements =>
      cases hdistinct with
      | list hitems => exact fillElements_reorders h.fields helements hitems t.empty
    | object horder hkeys hvalues =>
      cases hdistinct with
      | object hnodup hitems =>
        exact foldlM_fillMember_reorders h horder (forall₂_members hkeys hvalues) hnodup hitems t.empty

end RecordType
end QueryClient.Json
