/-
  QueryClient/Proofs/Json/Tree.lean
  =================================
  **The tree of a document**: what a JSON text says before anything is made of it. A tree has
  all members of an object in the order of the text, and of a number only that it is one.

  Every reader of whole values looks at the first byte and goes on by what it finds there.
  `Forms` are the continuations; the readers for trees and for values are both of this kind
  (`readTree_eq`, `readValue_eq`), and a successful reading is told apart by its first byte
  (`Forms.read_eq_ok_iff`).
-/
import Mathlib.Data.List.DropRight
import QueryClient.Proofs.Json.Reading

namespace QueryClient.Json

variable {α β T : Type}

/-! ### Readers in a row, taken apart -/

theorem bind_eq_ok_iff {r : Reader α} {f : α → Reader β} {bs rest : Bytes} {b : β} :
    (r >>= f) bs = .ok (b, rest) ↔ ∃ a mid, r bs = .ok (a, mid) ∧ f a mid = .ok (b, rest) := by
  change (r bs >>= fun p => f p.1 p.2) = _ ↔ _
  cases r bs with
  | error e => exact ⟨nofun, nofun⟩
  | ok p => exact ⟨fun h => ⟨p.1, p.2, rfl, h⟩, by rintro ⟨a, mid, ⟨⟩, h⟩; exact h⟩

theorem bind_eq_error {r : Reader α} {f : α → Reader β} {bs : Bytes} {s : Stop}
    (h : r bs = .error s) : (r >>= f) bs = .error s := by
  change (r bs >>= fun p => f p.1 p.2) = _
  rw [h]
  rfl

theorem bind_congr_input {r : Reader α} {f : α → Reader β} {bs cs : Bytes} (h : r bs = r cs) :
    (r >>= f) bs = (r >>= f) cs := by
  change (r bs >>= fun p => f p.1 p.2) = (r cs >>= fun p => f p.1 p.2)
  rw [h]

theorem pure_eq_ok_iff {a b : α} {bs rest : Bytes} :
    (pure a : Reader α) bs = .ok (b, rest) ↔ a = b ∧ bs = rest := by
  change Except.ok (a, bs) = _ ↔ _
  rw [Except.ok.injEq, Prod.mk.injEq]

theorem dropWhile_isBlank_eq_cons {b : UInt8} {bs cs : Bytes}
    (h : bs.dropWhile isBlank = b :: cs) : isBlank b = false := by
  have hhead := List.head?_dropWhile_not isBlank bs
  rw [h] at hhead
  exact hhead

theorem valueStart_eq_ok_iff {b : UInt8} {bs rest : Bytes} :
    valueStart bs = .ok (b, rest) ↔ bs.dropWhile isBlank = rest ∧ rest.head? = some b := by
  have hpeek : peekSolid bs = .ok ((bs.dropWhile isBlank).head?, bs.dropWhile isBlank) := rfl
  rw [valueStart, bind_eq hpeek]
  cases hrest : bs.dropWhile isBlank with
  | nil => exact ⟨nofun, by rintro ⟨rfl, ⟨⟩⟩⟩
  | cons c cs =>
    dsimp only [List.head?_cons]
    rw [pure_eq_ok_iff]
    constructor
    · rintro ⟨rfl, rfl⟩
      exact ⟨rfl, rfl⟩
    · rintro ⟨rfl, hhead⟩
      exact ⟨Option.some.inj hhead, rfl⟩

/-- A reading that looks at the next byte behind the blanks, and does without none. -/
theorem exists_of_peekSolid {f : Option UInt8 → Reader α} {bs rest : Bytes} {a : α}
    (hnil : ∀ a rest, f none [] ≠ .ok (a, rest)) (h : (peekSolid >>= f) bs = .ok (a, rest)) :
    ∃ b cs, bs.dropWhile isBlank = b :: cs ∧ isBlank b = false ∧
      f (some b) (b :: cs) = .ok (a, rest) := by
  change f (bs.dropWhile isBlank).head? (bs.dropWhile isBlank) = _ at h
  cases hcs : bs.dropWhile isBlank with
  | nil =>
    rw [hcs] at h
    exact absurd h (hnil a rest)
  | cons b cs =>
    rw [hcs] at h
    exact ⟨b, cs, rfl, dropWhile_isBlank_eq_cons hcs, h⟩

/-- How a list or an object goes on: it is closed, or another item follows, behind a comma
    unless it is the first one. -/
inductive GoesOn (close : UInt8) : (first : Bool) → Bytes → Bool → Bytes → Prop where
  | last {first : Bool} {bs cs : Bytes} (hclose : bs.dropWhile isBlank = close :: cs) :
      GoesOn close first bs false (close :: cs)
  | first {b : UInt8} {bs cs : Bytes} (hitem : bs.dropWhile isBlank = b :: cs)
      (hopen : b ≠ close) : GoesOn close true bs true (b :: cs)
  | next {b : UInt8} {bs ds cs : Bytes} (hcomma : bs.dropWhile isBlank = 0x2C :: ds)
      (hitem : ds.dropWhile isBlank = b :: cs) (hopen : b ≠ close) :
      GoesOn close false bs true (b :: cs)

theorem goesOn_of_moreElements {first more : Bool} {bs mid : Bytes}
    (h : moreElements first bs = .ok (more, mid)) : GoesOn 0x5D first bs more mid := by
  obtain ⟨b, cs, hdrop, -, h⟩ := exists_of_peekSolid nofun h
  dsimp only at h
  split_ifs at h with hclose hfirst hcomma
  · cases h
    subst hclose
    exact .last hdrop
  · cases h
    subst hfirst
    exact .first hdrop hclose
  · subst hcomma
    rw [advance_bind] at h
    obtain ⟨c, ds, hitem, -, h⟩ := exists_of_peekSolid nofun h
    dsimp only at h
    split_ifs at h with hopen
    · cases h
    · cases h
      rw [Bool.not_eq_true] at hfirst
      subst hfirst
      exact .next hdrop hitem hopen
  · cases h

/-- Another member starts with the quote of its key. -/
theorem goesOn_of_moreMembers {first more : Bool} {bs mid : Bytes}
    (h : moreMembers first bs = .ok (more, mid)) :
    GoesOn 0x7D first bs more mid ∧ mid.head? = some (if more then 0x22 else 0x7D) := by
  obtain ⟨b, cs, hdrop, -, h⟩ := exists_of_peekSolid nofun h
  dsimp only at h
  split_ifs at h with hclose hfirst hquote hcomma
  · cases h
    subst hclose
    exact ⟨.last hdrop, rfl⟩
  · cases h
    subst hfirst hquote
    exact ⟨.first hdrop (by decide), rfl⟩
  · cases h
  · subst hcomma
    rw [advance_bind] at h
    obtain ⟨c, ds, hitem, -, h⟩ := exists_of_peekSolid nofun h
    dsimp only at h
    split_ifs at h with hquote
    · cases h
      rw [Bool.not_eq_true] at hfirst
      subst hfirst hquote
      exact ⟨.next hdrop hitem (by decide), rfl⟩
    · cases h
    · cases h
  · cases h

theorem exists_of_moreMembers {first more : Bool} {bs mid : Bytes}
    (h : moreMembers first bs = .ok (more, mid)) :
    ∃ cs, mid = (if more then 0x22 else 0x7D) :: cs := by
  obtain ⟨cs, hcs⟩ := List.head?_eq_some_iff.mp (goesOn_of_moreMembers h).2
  exact ⟨cs, hcs⟩

/-! ### First bytes -/

/-- What is made of a value of each form: a constant, or what a reader yields from behind
    the byte that opens the value. A number is read from behind its sign, and lists and
    objects may be ruled out. -/
structure Forms (T : Type) where
  null : T
  bool : Bool → T
  string : String → T
  number : (negative : Bool) → Reader T
  nested? : Option (Reader T × Reader T)

namespace Forms

/-- Read a value, given its first byte. -/
def readFrom (f : Forms T) (b : UInt8) : Reader T :=
  if b = 0x6E then do
    advance
    word restOfNull
    pure f.null
  else if b = 0x74 then do
    advance
    word restOfTrue
    pure (f.bool true)
  else if b = 0x66 then do
    advance
    word restOfFalse
    pure (f.bool false)
  else if b = 0x22 then do
    advance
    let s ← stringRest
    pure (f.string s)
  else if b = 0x2D then do
    advance
    f.number true
  else if isDigit b then f.number false
  else if b = 0x5B ∨ b = 0x7B then
    match f.nested? with
    | none => stopAtNext .nestedTooDeeply
    | some (list, object) => do
      advance
      if b = 0x5B then list else object
  else stopAtNext .expectedValue

/-- Read a value by its first byte. -/
def read (f : Forms T) : Reader T := do
  let b ← valueStart
  f.readFrom b

/-- A successful reading from the first byte on: what stands there, what comes of it, and
    what is left. -/
inductive Opens (f : Forms T) : Bytes → T → Bytes → Prop where
  | null {bs rest : Bytes} (hword : word restOfNull bs = .ok ((), rest)) :
      f.Opens (0x6E :: bs) f.null rest
  | true {bs rest : Bytes} (hword : word restOfTrue bs = .ok ((), rest)) :
      f.Opens (0x74 :: bs) (f.bool true) rest
  | false {bs rest : Bytes} (hword : word restOfFalse bs = .ok ((), rest)) :
      f.Opens (0x66 :: bs) (f.bool false) rest
  | string {bs rest : Bytes} {s : String} (hstring : stringRest bs = .ok (s, rest)) :
      f.Opens (0x22 :: bs) (f.string s) rest
  | negative {bs rest : Bytes} {t : T} (hnumber : f.number true bs = .ok (t, rest)) :
      f.Opens (0x2D :: bs) t rest
  | digit {b : UInt8} {bs rest : Bytes} {t : T} (hdigit : isDigit b = true)
      (hnumber : f.number false (b :: bs) = .ok (t, rest)) : f.Opens (b :: bs) t rest
  | list {bs rest : Bytes} {t : T} {list object : Reader T}
      (hnested : f.nested? = some (list, object)) (hlist : list bs = .ok (t, rest)) :
      f.Opens (0x5B :: bs) t rest
  | object {bs rest : Bytes} {t : T} {list object : Reader T}
      (hnested : f.nested? = some (list, object)) (hobject : object bs = .ok (t, rest)) :
      f.Opens (0x7B :: bs) t rest

theorem readFrom_null (f : Forms T) (cs : Bytes) :
    f.readFrom 0x6E (0x6E :: cs) = (word restOfNull >>= fun _ => pure f.null : Reader T) cs := rfl

theorem readFrom_true (f : Forms T) (cs : Bytes) :
    f.readFrom 0x74 (0x74 :: cs) =
      (word restOfTrue >>= fun _ => pure (f.bool true) : Reader T) cs := rfl

theorem readFrom_false (f : Forms T) (cs : Bytes) :
    f.readFrom 0x66 (0x66 :: cs) =
      (word restOfFalse >>= fun _ => pure (f.bool false) : Reader T) cs := rfl

theorem readFrom_string (f : Forms T) (cs : Bytes) :
    f.readFrom 0x22 (0x22 :: cs) =
      (stringRest >>= fun s => pure (f.string s) : Reader T) cs := rfl

theorem readFrom_digit (f : Forms T) {b : UInt8} (h : isDigit b = true) :
    f.readFrom b = f.number false := by
  rw [readFrom, if_neg (ne_of_isDigit h rfl), if_neg (ne_of_isDigit h rfl),
    if_neg (ne_of_isDigit h rfl), if_neg (ne_of_isDigit h rfl), if_neg (ne_of_isDigit h rfl),
    if_pos h]

theorem readFrom_list {f : Forms T} {list object : Reader T}
    (h : f.nested? = some (list, object)) (cs : Bytes) :
    f.readFrom 0x5B (0x5B :: cs) = list cs := by
  change (match f.nested? with
    | none => stopAtNext .nestedTooDeeply
    | some (list, _) => (do advance; list : Reader T)) (0x5B :: cs) = _
  rw [h]
  rfl

theorem readFrom_object {f : Forms T} {list object : Reader T}
    (h : f.nested? = some (list, object)) (cs : Bytes) :
    f.readFrom 0x7B (0x7B :: cs) = object cs := by
  change (match f.nested? with
    | none => stopAtNext .nestedTooDeeply
    | some (_, object) => (do advance; object : Reader T)) (0x7B :: cs) = _
  rw [h]
  rfl

theorem readFrom_of_opens {f : Forms T} {b : UInt8} {cs rest : Bytes} {t : T}
    (h : f.Opens (b :: cs) t rest) : f.readFrom b (b :: cs) = .ok (t, rest) := by
  cases h with
  | null hword =>
    rw [readFrom_null, bind_eq hword]
    rfl
  | true hword =>
    rw [readFrom_true, bind_eq hword]
    rfl
  | false hword =>
    rw [readFrom_false, bind_eq hword]
    rfl
  | string hstring =>
    rw [readFrom_string, bind_eq hstring]
    rfl
  | negative hnumber => exact hnumber
  | digit hdigit hnumber =>
    rw [readFrom_digit f hdigit]
    exact hnumber
  | list hnested hlist =>
    rw [readFrom_list hnested]
    exact hlist
  | object hnested hobject =>
    rw [readFrom_object hnested]
    exact hobject

theorem opens_of_readFrom {f : Forms T} {b : UInt8} {cs rest : Bytes} {t : T}
    (h : f.readFrom b (b :: cs) = .ok (t, rest)) : f.Opens (b :: cs) t rest := by
  by_cases hnull : b = 0x6E
  · rw [hnull, readFrom_null, bind_eq_ok_iff] at h
    obtain ⟨⟨⟩, mid, hword, hpure⟩ := h
    obtain ⟨rfl, rfl⟩ := pure_eq_ok_iff.mp hpure
    rw [hnull]
    exact .null hword
  by_cases htrue : b = 0x74
  · rw [htrue, readFrom_true, bind_eq_ok_iff] at h
    obtain ⟨⟨⟩, mid, hword, hpure⟩ := h
    obtain ⟨rfl, rfl⟩ := pure_eq_ok_iff.mp hpure
    rw [htrue]
    exact .true hword
  by_cases hfalse : b = 0x66
  · rw [hfalse, readFrom_false, bind_eq_ok_iff] at h
    obtain ⟨⟨⟩, mid, hword, hpure⟩ := h
    obtain ⟨rfl, rfl⟩ := pure_eq_ok_iff.mp hpure
    rw [hfalse]
    exact .false hword
  by_cases hquote : b = 0x22
  · rw [hquote, readFrom_string, bind_eq_ok_iff] at h
    obtain ⟨s, mid, hstring, hpure⟩ := h
    obtain ⟨rfl, rfl⟩ := pure_eq_ok_iff.mp hpure
    rw [hquote]
    exact .string hstring
  by_cases hminus : b = 0x2D
  · rw [hminus] at h ⊢
    exact .negative h
  by_cases hdigit : isDigit b = true
  · rw [readFrom_digit f hdigit] at h
    exact .digit hdigit h
  rw [readFrom, if_neg hnull, if_neg htrue, if_neg hfalse, if_neg hquote, if_neg hminus,
    if_neg hdigit] at h
  by_cases hopen : b = 0x5B ∨ b = 0x7B
  · rw [if_pos hopen] at h
    cases hnested : f.nested? with
    | none =>
      rw [hnested] at h
      cases h
    | some readers =>
      rw [hnested] at h
      rcases hopen with rfl | rfl
      · exact .list hnested h
      · exact .object hnested h
  · rw [if_neg hopen] at h
    cases h

theorem read_dropWhile (f : Forms T) (bs : Bytes) :
    f.read (bs.dropWhile isBlank) = f.read bs := by
  have hpeek : peekSolid (bs.dropWhile isBlank) = peekSolid bs := by
    rw [peekSolid, peekSolid, List.dropWhile_idempotent]
  exact bind_congr_input (bind_congr_input hpeek)

/-- A value is read by its first byte behind the blanks. -/
theorem read_eq_ok_iff {f : Forms T} {bs rest : Bytes} {t : T} :
    f.read bs = .ok (t, rest) ↔ f.Opens (bs.dropWhile isBlank) t rest := by
  rw [read, bind_eq_ok_iff]
  constructor
  · rintro ⟨b, mid, hstart, h⟩
    obtain ⟨hmid, hhead⟩ := valueStart_eq_ok_iff.mp hstart
    obtain ⟨cs, hcs⟩ := List.head?_eq_some_iff.mp hhead
    rw [hmid, hcs]
    rw [hcs] at h
    exact opens_of_readFrom h
  · intro h
    cases hcs : bs.dropWhile isBlank with
    | nil =>
      rw [hcs] at h
      cases h
    | cons b cs =>
      rw [hcs] at h
      exact ⟨b, b :: cs, valueStart_eq_ok_iff.mpr ⟨hcs, rfl⟩, readFrom_of_opens h⟩

end Forms

/-! ### Members in their order -/

/-- The members of an object, in the order of the text. Every turn but the last takes at
    least one byte. -/
def memberList (item : Reader α) : (turns : Nat) → (first : Bool) → Reader (List (String × α))
  | 0, _ => stop .endInObject
  | turns + 1, first => do
    if ← moreMembers first then do
      let key ← readKey
      colon
      let a ← item
      let more ← memberList item turns false
      pure ((key, a) :: more)
    else do
      advance
      pure []

/-- The members of an object and the brace after them, from behind the brace before them. -/
def memberRest (item : Reader α) : Reader (List (String × α)) := fun bs =>
  memberList item (bs.length + 1) true bs

/-- Put members in their places, one after the other. -/
def insertMembers (ms : List (String × Value)) (more : List (String × Value)) :
    List (String × Value) :=
  more.foldl (fun ms m => insertMember m.1 m.2 ms) ms

/-- Members are sorted while they are read; they may as well be sorted afterwards. -/
theorem members_eq (item : Reader Value) (turns : Nat) (first : Bool)
    (ms : List (String × Value)) :
    members item turns first ms =
      (memberList item turns first >>= fun more => pure (insertMembers ms more)) := by
  induction turns generalizing first ms with
  | zero => rfl
  | succ turns ih =>
    rw [members, memberList, bind_assoc]
    congr 1
    funext more
    cases more with
    | false => rfl
    | true =>
      simp only [if_true, bind_assoc, pure_bind]
      congr 1
      funext key
      congr 1
      funext _
      congr 1
      funext v
      rw [ih]
      rfl

/-! ### Trees -/

/-- What a JSON text says: of a number only that there is one, and of an object all members
    in their order. -/
inductive Tree where
  | null
  | bool (b : Bool)
  | number
  | string (s : String)
  | list (items : List Tree)
  | object (members : List (String × Tree))
deriving Repr, Inhabited

namespace Tree

/-- No object in the tree has two members of one key. -/
inductive DistinctKeys : Tree → Prop where
  | null : DistinctKeys .null
  | bool (b : Bool) : DistinctKeys (.bool b)
  | number : DistinctKeys .number
  | string (s : String) : DistinctKeys (.string s)
  | list {ts : List Tree} (hitems : ∀ t ∈ ts, DistinctKeys t) : DistinctKeys (.list ts)
  | object {ms : List (String × Tree)} (hkeys : (ms.map Prod.fst).Nodup)
      (hvalues : ∀ m ∈ ms, DistinctKeys m.2) : DistinctKeys (.object ms)

mutual

/-- Look for two members of one key. -/
def hasDistinctKeys : Tree → Bool
  | .list ts => allHaveDistinctKeys ts
  | .object ms => decide (ms.map Prod.fst).Nodup && valuesHaveDistinctKeys ms
  | .null | .bool _ | .number | .string _ => true

def allHaveDistinctKeys : List Tree → Bool
  | [] => true
  | t :: ts => t.hasDistinctKeys && allHaveDistinctKeys ts

def valuesHaveDistinctKeys : List (String × Tree) → Bool
  | [] => true
  | (_, t) :: ms => t.hasDistinctKeys && valuesHaveDistinctKeys ms

end

mutual

theorem distinctKeys_of_check : (t : Tree) → t.hasDistinctKeys = true → t.DistinctKeys
  | .null, _ => .null
  | .bool b, _ => .bool b
  | .number, _ => .number
  | .string s, _ => .string s
  | .list ts, h => .list (distinctKeys_of_checkAll ts h)
  | .object ms, h => by
    rw [hasDistinctKeys, Bool.and_eq_true, decide_eq_true_eq] at h
    exact .object h.1 (distinctKeys_of_checkValues ms h.2)

theorem distinctKeys_of_checkAll :
    (ts : List Tree) → allHaveDistinctKeys ts = true → ∀ t ∈ ts, t.DistinctKeys
  | [], _ => List.forall_mem_nil _
  | t :: ts, h => by
    rw [allHaveDistinctKeys, Bool.and_eq_true] at h
    exact List.forall_mem_cons.mpr ⟨distinctKeys_of_check t h.1, distinctKeys_of_checkAll ts h.2⟩

theorem distinctKeys_of_checkValues :
    (ms : List (String × Tree)) → valuesHaveDistinctKeys ms = true → ∀ m ∈ ms, m.2.DistinctKeys
  | [], _ => List.forall_mem_nil _
  | (k, t) :: ms, h => by
    rw [valuesHaveDistinctKeys, Bool.and_eq_true] at h
    exact List.forall_mem_cons.mpr
      ⟨distinctKeys_of_check t h.1, distinctKeys_of_checkValues ms h.2⟩

end

end Tree

/-- How a tree is read, given how the trees inside a list or an object are read. -/
def treeForms (inner? : Option (Reader Tree)) : Forms Tree where
  null := .null
  bool := .bool
  string := .string
  number _ := do
    skipNumber
    pure .number
  nested? := inner?.map fun inner =>
    (do
      let ts ← listRest inner
      pure (.list ts),
     do
      let ms ← memberRest inner
      pure (.object ms))

/-- What may stand inside a list or an object, at a depth. -/
def innerReader (read : Nat → Reader T) : (depth : Nat) → Option (Reader T)
  | 0 => none
  | depth + 1 => some (read depth)

/-- The tree of a text in which lists and objects are nested at most `depth` deep. -/
def readTree : (depth : Nat) → Reader Tree
  | 0 => (treeForms none).read
  | depth + 1 => (treeForms (some (readTree depth))).read

theorem readTree_eq (depth : Nat) :
    readTree depth = (treeForms (innerReader readTree depth)).read := by
  cases depth <;> rfl

/-- Blanks before a tree do not matter. -/
theorem readTree_dropWhile (depth : Nat) (bs : Bytes) :
    readTree depth (bs.dropWhile isBlank) = readTree depth bs := by
  rw [readTree_eq]
  exact Forms.read_dropWhile _ bs

/-- A tree that was read, told by the first byte of its text. -/
inductive Begins : (depth : Nat) → UInt8 → Bytes → Tree → Bytes → Prop where
  | null {depth : Nat} {cs rest : Bytes} (hword : word restOfNull cs = .ok ((), rest)) :
      Begins depth 0x6E cs .null rest
  | true {depth : Nat} {cs rest : Bytes} (hword : word restOfTrue cs = .ok ((), rest)) :
      Begins depth 0x74 cs (.bool true) rest
  | false {depth : Nat} {cs rest : Bytes} (hword : word restOfFalse cs = .ok ((), rest)) :
      Begins depth 0x66 cs (.bool false) rest
  | string {depth : Nat} {cs rest : Bytes} {s : String}
      (hstring : stringRest cs = .ok (s, rest)) : Begins depth 0x22 cs (.string s) rest
  | negative {depth : Nat} {cs rest : Bytes} (hskip : skipNumber cs = .ok ((), rest)) :
      Begins depth 0x2D cs .number rest
  | digit {depth : Nat} {b : UInt8} {cs rest : Bytes} (hdigit : isDigit b = true)
      (hskip : skipNumber (b :: cs) = .ok ((), rest)) : Begins depth b cs .number rest
  | list {depth : Nat} {cs rest : Bytes} {ts : List Tree}
      (hlist : listRest (readTree depth) cs = .ok (ts, rest)) :
      Begins (depth + 1) 0x5B cs (.list ts) rest
  | object {depth : Nat} {cs rest : Bytes} {ms : List (String × Tree)}
      (hobject : memberRest (readTree depth) cs = .ok (ms, rest)) :
      Begins (depth + 1) 0x7B cs (.object ms) rest

theorem exists_begins {depth : Nat} {bs rest : Bytes} {t : Tree}
    (h : readTree depth bs = .ok (t, rest)) :
    ∃ b cs, bs.dropWhile isBlank = b :: cs ∧ Begins depth b cs t rest := by
  have hinner {inner : Reader Tree} (hinner : innerReader readTree depth = some inner) :
      ∃ below, depth = below + 1 ∧ inner = readTree below := by
    cases depth with
    | zero => cases hinner
    | succ below => exact ⟨below, rfl, (Option.some.inj hinner).symm⟩
  rw [readTree_eq, Forms.read_eq_ok_iff] at h
  generalize bs.dropWhile isBlank = cs at h
  cases h with
  | null hword => exact ⟨_, _, rfl, .null hword⟩
  | true hword => exact ⟨_, _, rfl, .true hword⟩
  | false hword => exact ⟨_, _, rfl, .false hword⟩
  | string hstring => exact ⟨_, _, rfl, .string hstring⟩
  | negative hnumber =>
    obtain ⟨⟨⟩, mid, hskip, ⟨⟩⟩ := bind_eq_ok_iff.mp hnumber
    exact ⟨_, _, rfl, .negative hskip⟩
  | digit hdigit hnumber =>
    obtain ⟨⟨⟩, mid, hskip, ⟨⟩⟩ := bind_eq_ok_iff.mp hnumber
    exact ⟨_, _, rfl, .digit hdigit hskip⟩
  | list hnested hlist =>
    obtain ⟨inner, hsome, ⟨⟩⟩ := Option.map_eq_some_iff.mp hnested
    obtain ⟨below, rfl, rfl⟩ := hinner hsome
    obtain ⟨ts, mid, hlist, ⟨⟩⟩ := bind_eq_ok_iff.mp hlist
    exact ⟨_, _, rfl, .list hlist⟩
  | object hnested hobject =>
    obtain ⟨inner, hsome, ⟨⟩⟩ := Option.map_eq_some_iff.mp hnested
    obtain ⟨below, rfl, rfl⟩ := hinner hsome
    obtain ⟨ms, mid, hobject, ⟨⟩⟩ := bind_eq_ok_iff.mp hobject
    exact ⟨_, _, rfl, .object hobject⟩

/-- Only null starts with the letter n. -/
theorem Begins.eq_null_iff {depth : Nat} {b : UInt8} {cs rest : Bytes} {t : Tree}
    (h : Begins depth b cs t rest) : b = 0x6E ↔ t = .null := by
  cases h with
  | null _ => exact iff_of_true rfl rfl
  | digit hdigit _ => exact iff_of_false (ne_of_isDigit hdigit rfl) nofun
  | true _ | false _ | string _ | negative _ | list _ | object _ =>
    exact iff_of_false (by decide) nofun

/-! ### Values -/

/-- How a value is read, given how the values inside a list or an object are read. -/
def valueForms (inner? : Option (Reader Value)) : Forms Value where
  null := .null
  bool := .bool
  string := .string
  number negative := do
    let n ← numberRest negative
    pure (.number n)
  nested? := inner?.map fun inner =>
    (do
      let vs ← listRest inner
      pure (.list vs),
     do
      let ms ← memberRest inner
      pure (.object (insertMembers [] ms)))

theorem readValueWith_eq (inner? : Option (Reader Value)) :
    readValueWith inner? = (valueForms inner?).read := by
  cases inner? with
  | none => rfl
  | some inner =>
    have hmembers : (fun bs => members inner (bs.length + 1) true [] bs) =
        (memberRest inner >>= fun ms => pure (insertMembers [] ms)) := by
      funext bs
      rw [members_eq]
      rfl
    rw [readValueWith]
    dsimp only
    rw [hmembers]
    simp only [bind_assoc, pure_bind]
    rfl

theorem readValue_eq (depth : Nat) :
    readValue depth = (valueForms (innerReader readValue depth)).read := by
  cases depth with
  | zero => exact readValueWith_eq none
  | succ depth => exact readValueWith_eq (some (readValue depth))

end QueryClient.Json
