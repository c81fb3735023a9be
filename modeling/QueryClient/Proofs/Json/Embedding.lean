/-
  QueryClient/Proofs/Json/Embedding.lean
  ======================================
  **Settings inside a request, as an object or as text.** A request may hold its settings as
  a JSON object, which is read as a value and printed again, or as a string with the text of
  the object in it. The bytes that come out differ: members are sorted, and strings and numbers
  are written anew. The settings read from them do not (`embedded_settings`), since they depend
  on the tree of the text alone.
-/
import QueryClient.Proofs.Json.Meaning
import QueryClient.JsonForm
import QueryClient.Settings

namespace QueryClient

open Json

/-! ### Whole texts -/

namespace Json

variable {α : Type}

/-- A whole text is taken if nothing but blanks is left of it. -/
theorem readAll_eq_ok_iff {r : Reader α} {bs : Bytes} {a : α} :
    readAll r bs = .ok a ↔ ∃ blanks, r bs = .ok (a, blanks) ∧ blanks.dropWhile isBlank = [] := by
  cases hr : r bs with
  | error s =>
    refine iff_of_false ?_ nofun
    rw [readAll, bind_eq_error hr]
    intro h
    cases h
  | ok p =>
    obtain ⟨b, blanks⟩ := p
    rw [readAll, bind_eq hr]
    cases hblanks : blanks.dropWhile isBlank with
    | nil =>
      have hpeek : peekSolid blanks = .ok (none, []) := by
        rw [peekSolid, hblanks]
        rfl
      rw [bind_eq hpeek]
      constructor
      · intro h
        cases h
        exact ⟨blanks, rfl, hblanks⟩
      · rintro ⟨_, heq, -⟩
        cases heq
        rfl
    | cons c cs =>
      rw [bind_eq (peekSolid_eq hblanks)]
      constructor
      · intro h
        cases h
      · rintro ⟨_, heq, hnone⟩
        cases heq
        rw [hblanks] at hnone
        cases hnone

/-- What a whole text is read as is told by its tree. -/
theorem Means.readAll {r : Reader α} {f : Tree → Option α} (h : Means r f) {depth : Nat}
    {bs : Bytes} {t : Tree} (hread : Json.readAll (readTree depth) bs = .ok t)
    (hdistinct : t.DistinctKeys) : (Json.readAll r bs).toOption = f t := by
  obtain ⟨blanks, hread, hblanks⟩ := readAll_eq_ok_iff.mp hread
  have hreads := h.reads hread hdistinct
  have hall (a : α) : Json.readAll r bs = .ok a ↔ f t = some a := by
    rw [readAll_eq_ok_iff]
    constructor
    · rintro ⟨behind, hr, -⟩
      exact ((hreads a behind).mp hr).1
    · intro hf
      exact ⟨blanks, (hreads a blanks).mpr ⟨hf, rfl⟩, hblanks⟩
  cases hr : Json.readAll r bs with
  | ok a => exact ((hall a).mp hr).symm
  | error e =>
    cases hf : f t with
    | none => rfl
    | some a =>
      rw [(hall a).mpr hf] at hr
      cases hr

end Json

/-! ### Settings -/

/-- The options of the MySQL driver, field by field. -/
def BigNumbers.slots : List (Slot BigNumbers) :=
  [⟨"supportBigNumbers", fun o t => t.bool?.map fun b => { o with supported := b }⟩,
   ⟨"bigNumberStrings", fun o t => t.bool?.map fun b => { o with asStrings := b }⟩]

theorem BigNumbers.fills_slots : BigNumbers.record.Fills BigNumbers.slots where
  fields :=
    .cons ⟨rfl, rfl, fun _ => means_readBool.map _⟩ <|
    .cons ⟨rfl, rfl, fun _ => means_readBool.map _⟩ .nil
  commute := by
    simp only [slots, List.pairwise_cons, List.forall_mem_cons]
    exact ⟨⟨Slot.apart_of_set (fun _ _ _ => rfl) _ _, nofun⟩, nofun, .nil⟩

namespace Settings

/-- The option of the better-sqlite3 driver. -/
def safeIntegersSlots : List (Slot Bool) := [⟨"safeIntegers", fun _ t => t.bool?⟩]

theorem fills_safeIntegersSlots : safeIntegersRecord.Fills safeIntegersSlots where
  fields := .cons ⟨rfl, rfl, fun _ => means_readBool⟩ .nil
  commute := List.pairwise_singleton _ _

/-- The settings, field by field. -/
def slots : List (Slot Settings) :=
  [⟨"driver", fun s t => (t.nullable Tree.string?).map fun d => { s with driver? := d }⟩,
   ⟨"runtime", fun s t => (t.nullable Tree.string?).map fun r => { s with runtime? := r }⟩,
   ⟨"mysql2", fun s t => (t.record? BigNumbers.slots BigNumbers.record.empty).map
      fun o => { s with bigNumbers := o }⟩,
   ⟨"better-sqlite3", fun s t => (t.record? safeIntegersSlots safeIntegersRecord.empty).map
      fun b => { s with safeIntegers := b }⟩]

theorem fills_slots : record.Fills slots where
  fields :=
    .cons ⟨rfl, rfl, fun _ => means_readText.nullable.map _⟩ <|
    .cons ⟨rfl, rfl, fun _ => means_readText.nullable.map _⟩ <|
    .cons ⟨rfl, rfl, fun _ => BigNumbers.fills_slots.means.map _⟩ <|
    .cons ⟨rfl, rfl, fun _ => fills_safeIntegersSlots.means.map _⟩ .nil
  commute := by
    simp only [slots, List.pairwise_cons, List.forall_mem_cons]
    refine ⟨⟨?_, ?_, ?_, nofun⟩, ⟨?_, ?_, nofun⟩, ⟨?_, nofun⟩, nofun, .nil⟩
    all_goals exact Slot.apart_of_set (fun _ _ _ => rfl) _ _

/-- Settings are told by the tree of their text. -/
theorem toOption_parse {depth : Nat} {text : String} {t : Tree}
    (hread : readAll (readTree depth) (Text.utf8 text) = .ok t) (hdistinct : t.DistinctKeys) :
    (parse (Text.utf8 text)).toOption = t.record? slots none := by
  have hnonempty : (Text.utf8 text).isEmpty = false := by
    obtain ⟨blanks, htree, -⟩ := readAll_eq_ok_iff.mp hread
    obtain ⟨b, cs, hdrop, -⟩ := exists_begins htree
    cases hbytes : Text.utf8 text with
    | nil =>
      rw [hbytes] at hdrop
      cases hdrop
    | cons c ds => rfl
  have hrecord := fills_slots.means.readAll hread hdistinct
  rw [parse, hnonempty, if_neg Bool.false_ne_true, Text.text?_utf8]
  cases hparsed : readAll record.read (Text.utf8 text) with
  | error f =>
    rw [hparsed] at hrecord
    exact hrecord
  | ok s =>
    rw [hparsed] at hrecord
    exact hrecord

end Settings

/-! ### Requests -/

namespace Request

/-- The text of a request around its settings: blanks, the other members, and the key of the
    settings. Members of any key may stand there, each key once. -/
structure Surroundings where
  front : Bytes
  before : List MemberText
  lead : Bytes
  after : List MemberText
  back : Bytes
  front_blank : front.dropWhile isBlank = []
  back_blank : back.dropWhile isBlank = []
  spells : SpellsKey lead "pluginOptions"
  accepted : ∀ m ∈ before ++ after, ∃ put, record.Accepts m put
  distinct : ("pluginOptions" :: (before ++ after).map MemberText.key).Nodup

namespace Surroundings

/-- The member with the settings. -/
def member (s : Surroundings) (settings : Bytes) : MemberText :=
  ⟨"pluginOptions", s.lead, settings, s.spells⟩

/-- All members, with settings put in. -/
def members (s : Surroundings) (settings : Bytes) : List MemberText :=
  s.before ++ s.member settings :: s.after

/-- The request with settings put in. -/
def fill (s : Surroundings) (settings : Bytes) : Bytes :=
  s.front ++ 0x7B :: (separated true ((s.members settings).map MemberText.bytes) ++
    0x7D :: s.back)

theorem map_key_members (s : Surroundings) (settings : Bytes) :
    ((s.members settings).map MemberText.key).Perm
      ("pluginOptions" :: (s.before ++ s.after).map MemberText.key) :=
  List.perm_middle.map MemberText.key

end Surroundings

/-- Any value but null is taken, with blanks around it. -/
theorem readNullable_of_readValue {depth : Nat} {bs rest : Bytes} {v : Value}
    (h : readValue depth bs = .ok (v, rest)) (hv : v ≠ .null) :
    readNullable (readValue depth) bs = .ok (some v, rest) := by
  have hopens := h
  rw [readValue_eq, Forms.read_eq_ok_iff] at hopens
  cases hdrop : bs.dropWhile isBlank with
  | nil =>
    rw [hdrop] at hopens
    cases hopens
  | cons b cs =>
    rw [hdrop] at hopens
    have hletter : some b ≠ some 0x6E := by
      rintro ⟨⟩
      cases hopens with
      | null _ => exact hv rfl
      | digit hdigit _ => cases hdigit
    have hblanks : readValue depth (bs.dropWhile isBlank) = readValue depth bs := by
      rw [readValue_eq]
      exact Forms.read_dropWhile _ bs
    rw [readNullable, bind_eq (peekSolid_eq hdrop), if_neg hletter]
    refine bind_eq (r := readValue depth) (a := v) ?_
    rw [← hdrop, hblanks]
    exact h

/-- Settings that are read for themselves are read inside a request. -/
theorem accepts_settings {depth : Nat} (hdepth : depth ≤ settingsDepth) {settings : Bytes}
    {v : Value} (hread : readAll (readValue depth) settings = .ok v) (hv : v ≠ .null)
    (s : Surroundings) :
    record.Accepts (s.member settings) (fun r => { r with settings := settingsBytes (some v) }) := by
  obtain ⟨blanks, hvalue, hblanks⟩ := readAll_eq_ok_iff.mp hread
  refine .known rfl fun r rest hrest => ⟨blanks, hblanks, ?_⟩
  obtain ⟨_, hinside, rfl⟩ := follows_readValue hrest hdepth settings v blanks hvalue
  exact bind_eq (readNullable_of_readValue hinside hv)

/-- A member beside the settings holds the queries, or nothing that is asked for. -/
theorem exists_of_accepts {m : MemberText} {put : Request → Request}
    (h : record.Accepts m put) (hkey : m.key ≠ "pluginOptions") :
    put = id ∨ ∃ queries, put = fun r => { r with queries := queries } := by
  cases h with
  | unknown => exact Or.inl rfl
  | @known f put hfind hread =>
    have hname := List.find?_some hfind
    rw [beq_iff_eq] at hname
    have hfield := List.mem_of_find?_eq_some hfind
    rw [record, List.mem_cons, List.mem_singleton] at hfield
    rcases hfield with rfl | rfl
    · right
      -- The queries do not depend on the record that they are put in.
      have hqueries (r : Request) : ∃ queries mid,
          readList Query.record.read (m.value ++ []) = .ok (queries, mid) ∧
            put r = { r with queries := queries } := by
        obtain ⟨blanks, -, hread⟩ := hread r [] ends_nil
        obtain ⟨queries, mid, hlist, hput⟩ := bind_eq_ok_iff.mp hread
        exact ⟨queries, mid, hlist, (pure_eq_ok_iff.mp hput).1.symm⟩
      obtain ⟨queries, mid, hlist, -⟩ := hqueries record.empty
      refine ⟨queries, funext fun r => ?_⟩
      obtain ⟨queries', mid', hlist', hput⟩ := hqueries r
      cases hlist.symm.trans hlist'
      exact hput
    · exact absurd hname.symm hkey

/-- The settings are put beside whatever the other members hold. -/
theorem foldl_puts {puts : List (Request → Request)}
    (h : ∀ put ∈ puts, put = id ∨ ∃ queries, put = fun r => { r with queries := queries })
    (r : Request) (settings : Bytes) :
    puts.foldl (fun r put => put r) { r with settings := settings } =
      { puts.foldl (fun r put => put r) r with settings := settings } := by
  induction puts generalizing r with
  | nil => rfl
  | cons put puts ih =>
    rw [List.forall_mem_cons] at h
    rw [List.foldl_cons, List.foldl_cons, ← ih h.2]
    rcases h.1 with rfl | ⟨queries, rfl⟩
    · rfl
    · rfl

/-- Whatever settings are put in, the queries stay. -/
theorem ofJson_fill (s : Surroundings) :
    ∃ queries, ∀ settings bs,
      record.Accepts (s.member settings) (fun r => { r with settings := bs }) →
      ofJson (s.fill settings) = .ok ⟨queries, bs⟩ := by
  have : Nonempty (Request → Request) := ⟨id⟩
  have haccepted := s.accepted
  choose! put hput using haccepted
  rw [List.forall_mem_append] at hput
  have haccepts {ms : List MemberText} (h : ∀ m ∈ ms, record.Accepts m (put m)) :
      List.Forall₂ record.Accepts ms (ms.map put) :=
    List.forall₂_map_right_iff.mpr (List.forall₂_same.mpr h)
  have hbeside : ∀ p ∈ s.after.map put, p = id ∨
      ∃ queries, p = fun r : Request => { r with queries := queries } := by
    intro p hp
    obtain ⟨m, hm, rfl⟩ := List.mem_map.mp hp
    refine exists_of_accepts (hput.2 m hm) ?_
    intro hkey
    refine (List.nodup_cons.mp s.distinct).1 ?_
    rw [← hkey]
    exact List.mem_map_of_mem (List.mem_append_right s.before hm)
  refine ⟨((s.after.map put).foldl (fun r put => put r)
    ((s.before.map put).foldl (fun r put => put r) record.empty)).queries, ?_⟩
  intro settings bs hsettings
  have hmembers := List.rel_append (haccepts hput.1) (.cons hsettings (haccepts hput.2))
  have hnodup := (s.map_key_members settings).nodup_iff.mpr s.distinct
  have hoptional : ∀ f ∈ record.fields, f.required = true →
      f.name ∈ (s.members settings).map MemberText.key := by
    intro f hf hrequired
    rw [record, List.mem_cons, List.mem_singleton] at hf
    rcases hf with rfl | rfl <;> cases hrequired
  have hread := RecordType.read_separated hmembers hnodup hoptional s.back
  rw [List.foldl_append, List.foldl_cons, foldl_puts hbeside] at hread
  refine readAll_eq_ok_iff.mpr ⟨s.back, ?_, s.back_blank⟩
  rw [Surroundings.fill, RecordType.read_blanks s.front_blank]
  exact hread

/-- **Settings as an object and as text are read alike.** A text is given that is read as an
    object, without two members of one key in any object of it. Inside a request it may stand as
    it is, and is printed anew then, or as a string. In both cases the request has the same
    queries, and its settings are read as the same ones, or in both cases as none. -/
theorem embedded_settings {depth : Nat} (hdepth : depth ≤ settingsDepth) {text : String}
    {ms : List (String × Value)}
    (hobject : readAll (readValue depth) (Text.utf8 text) = .ok (.object ms))
    (hdistinct : ∀ t, readAll (readTree depth) (Text.utf8 text) = .ok t → t.DistinctKeys)
    {literal : Bytes} (hliteral : readAll (readValue depth) literal = .ok (.string text))
    (s : Surroundings) :
    ∃ queries,
      ofJson (s.fill (Text.utf8 text)) = .ok ⟨queries, Text.utf8 (Value.object ms).text⟩ ∧
      ofJson (s.fill literal) = .ok ⟨queries, Text.utf8 text⟩ ∧
      (Settings.parse (Text.utf8 (Value.object ms).text)).toOption =
        (Settings.parse (Text.utf8 text)).toOption := by
  obtain ⟨queries, hfill⟩ := ofJson_fill s
  obtain ⟨blanks, hvalue, hblanks⟩ := readAll_eq_ok_iff.mp hobject
  obtain ⟨t, htree, hprinted⟩ := exists_tree_of_readValue hvalue
  have hall := readAll_eq_ok_iff.mpr ⟨blanks, htree, hblanks⟩
  have hkeysT := hdistinct t hall
  obtain ⟨u, htakes, hreorders⟩ := hprinted hkeysT
  have hallPrinted : readAll (readTree depth) (Text.utf8 (Value.object ms).text) = .ok u := by
    have hread := htakes [] ends_nil
    rw [List.append_nil] at hread
    exact readAll_eq_ok_iff.mpr ⟨[], hread, rfl⟩
  refine ⟨queries, hfill _ _ (accepts_settings hdepth hobject nofun s),
    hfill _ _ (accepts_settings hdepth hliteral nofun s), ?_⟩
  rw [Settings.toOption_parse hallPrinted (hkeysT.of_reorders hreorders),
    Settings.toOption_parse hall hkeysT]
  exact Settings.fills_slots.means.reorders hreorders hkeysT

/-- Settings with blanks, an escape in a key and a member that nobody asks for. -/
def mixedSettings : String :=
  " \x7b\"runtime\": null, \"mysql2\" : \x7b\"x\":[1.50,\x7b\x7d],\"bigNumberStrings\":true\x7d," ++
    " \"dri\\u0076er\":\"mysql2\"\x7d\n"

/-- The settings sorted, as they are printed. -/
def sortedSettings : String :=
  "\x7b\"driver\":\"mysql2\",\"mysql2\":\x7b\"bigNumberStrings\":true,\"x\":[1.5,\x7b\x7d]\x7d," ++
    "\"runtime\":null\x7d"

/-- A request with blanks, no queries and a member that nobody asks for. -/
def spacedRequest : Surroundings where
  front := [0x0A]
  before := [.plain "queries" (Text.utf8 " [ ]")]
  lead := Text.utf8 (stringText "pluginOptions") ++ [0x3A]
  after := [.plain "version" (Text.utf8 "\"v1\" ")]
  back := [0x0A]
  front_blank := rfl
  back_blank := rfl
  spells := spellsKey_stringText "pluginOptions"
  accepted := by
    simp only [List.cons_append, List.nil_append, List.forall_mem_cons]
    exact ⟨⟨_, .known rfl fun r rest _ => ⟨[], rfl, rfl⟩⟩,
      ⟨_, .unknown rfl fun rest _ => ⟨[0x20], rfl, rfl⟩⟩, nofun⟩
  distinct := by decide

theorem embedded_settings_mixed :
    ∃ ms queries,
      readAll (readValue 4) (Text.utf8 mixedSettings) = .ok (.object ms) ∧
      ofJson (spacedRequest.fill (Text.utf8 mixedSettings)) =
        .ok ⟨queries, Text.utf8 sortedSettings⟩ ∧
      ofJson (spacedRequest.fill (Text.utf8 (stringText mixedSettings))) =
        .ok ⟨queries, Text.utf8 mixedSettings⟩ ∧
      (Settings.parse (Text.utf8 sortedSettings)).toOption =
        (Settings.parse (Text.utf8 mixedSettings)).toOption := by
  have hprinted : (match readAll (readValue 4) (Text.utf8 mixedSettings) with
      | .ok (.object ms) => some (Value.object ms).text
      | _ => none) = some sortedSettings := by decide +kernel
  obtain ⟨ms, hobject, htext⟩ : ∃ ms, readAll (readValue 4) (Text.utf8 mixedSettings) =
      .ok (.object ms) ∧ (Value.object ms).text = sortedSettings := by
    split at hprinted
    · rename_i ms hread
      exact ⟨ms, hread, Option.some.inj hprinted⟩
    · cases hprinted
  have hdistinct (t : Tree) (ht : readAll (readTree 4) (Text.utf8 mixedSettings) = .ok t) :
      t.DistinctKeys := by
    have hcheck : (readAll (readTree 4) (Text.utf8 mixedSettings)).toOption.all
        Tree.hasDistinctKeys = true := by decide +kernel
    rw [ht] at hcheck
    exact Tree.distinctKeys_of_check t hcheck
  obtain ⟨queries, hembedded, hstring, hsame⟩ := embedded_settings (by decide) hobject hdistinct
    ((reads_string 4 mixedSettings).readAll (.refl _)) spacedRequest
  rw [htext] at hembedded hsame
  exact ⟨ms, queries, hobject, hembedded, hstring, hsame⟩

end Request
end QueryClient
