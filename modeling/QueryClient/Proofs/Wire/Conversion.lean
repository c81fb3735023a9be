/-
  QueryClient/Proofs/Wire/Conversion.lean
  =======================================
  **A message says one thing, and it is read so.** A message has no way to leave a text or
  a number out; it has empty texts and zeros instead. What a column, a placeholder, a query
  and a request should hold, given the message for it, is written down here as one
  `Describes` for each, without the functions that convert them; the conversion of each
  meets its own.

  Only a command can be wrong. Queries are converted in order, so the first one with a tag
  that is no command spoils the request, and the fault names it
  (`Request.toRequest_eq_error_iff`).
-/
import QueryClient.Proofs.Traversal
import QueryClient.Proofs.Wire.RoundTrip

namespace QueryClient

/-! ### Commands -/

namespace Command

/-- The tags of all commands. -/
abbrev tags : List String := [":exec", ":execlastid", ":one", ":many"]

theorem ofTag_tag (c : Command) : ofTag c.tag = .ok c := by
  cases c <;> rfl

theorem ofTag_eq_ok_iff {s : String} {c : Command} : ofTag s = .ok c ↔ c.tag = s := by
  constructor
  · intro h
    unfold ofTag at h
    split at h
    · rename_i found hfind
      cases h
      simpa using List.find?_some hfind
    · cases h
  · rintro rfl
    exact ofTag_tag c

theorem exists_ofTag_iff {s : String} : (∃ c, ofTag s = .ok c) ↔ s ∈ tags := by
  simp only [ofTag_eq_ok_iff]
  constructor
  · rintro ⟨c, rfl⟩
    cases c <;> simp [tag, tags]
  · intro h
    simp only [tags, List.mem_cons, List.not_mem_nil, or_false] at h
    rcases h with rfl | rfl | rfl | rfl
    · exact ⟨.exec, rfl⟩
    · exact ⟨.execLastId, rfl⟩
    · exact ⟨.one, rfl⟩
    · exact ⟨.many, rfl⟩

/-- A tag that is no command is named by the fault. -/
theorem ofTag_eq_error_iff {s : String} {u : UnknownCommand} :
    ofTag s = .error u ↔ s ∉ tags ∧ u = ⟨s⟩ := by
  rw [← exists_ofTag_iff]
  unfold ofTag
  split
  · simp
  · simp [eq_comm]

end Command

namespace Wire

/-! ### What a message describes -/

/-- A number that is kept, unless it is negative. -/
structure Keeps (n : Int32) (m : UInt32) : Prop where
  negative : n.toInt < 0 → m = 0
  kept : 0 ≤ n.toInt → (m.toNat : Int) = n.toInt

/-- The name of a type, with the schema in front if there is one. -/
def Identifier.Names (i : Identifier) (type : String) : Prop :=
  (i.schema = "" → type = i.name) ∧ (i.schema ≠ "" → type = i.schema ++ "." ++ i.name)

structure Column.Describes (c : Column) (out : QueryClient.Column) : Prop where
  nameless_iff : out.name? = none ↔ c.name = ""
  name : ∀ n, out.name? = some n → n = c.name
  typeless_iff : out.type? = none ↔ c.type? = none ∨ ∃ i, c.type? = some i ∧ i.name = ""
  type : ∀ t, out.type? = some t → ∃ i, c.type? = some i ∧ i.Names t
  notNull : out.notNull = c.notNull
  isArray : out.isArray = c.isArray
  arrayDims : Keeps c.arrayDims out.arrayDims

structure Parameter.Describes (p : Parameter) (out : QueryClient.Parameter) : Prop where
  number : Keeps p.number out.number
  columnless_iff : out.column? = none ↔ p.column? = none
  column : ∀ c', out.column? = some c' → ∃ c, p.column? = some c ∧ c.Describes c'

structure Query.Describes (q : Query) (out : QueryClient.Query) : Prop where
  name : out.name = q.name
  command : out.command.tag = q.command
  text : out.text = q.text
  filename : out.filename = q.filename
  params : List.Forall₂ Parameter.Describes q.params out.params
  columns : List.Forall₂ Column.Describes q.columns out.columns

structure Request.Describes (r : Request) (out : QueryClient.Request) : Prop where
  settings : out.settings = r.settings
  queries : List.Forall₂ Query.Describes r.queries out.queries

/-! ### Conversions -/

theorem keeps_unsigned (n : Int32) : Keeps n (unsigned n) := by
  constructor
  · intro hneg
    rw [unsigned, Int.toNat_of_nonpos (by omega)]
    rfl
  · intro hpos
    have hlt : n.toInt.toNat < 2 ^ 32 := by
      have := n.toInt_lt
      omega
    rw [unsigned, UInt32.toNat_ofNat_of_lt' hlt]
    omega

theorem nonEmpty?_eq_none_iff {s : String} : nonEmpty? s = none ↔ s = "" := by
  unfold nonEmpty?
  split <;> simp_all

theorem nonEmpty?_eq_some_iff {s t : String} : nonEmpty? s = some t ↔ s ≠ "" ∧ t = s := by
  unfold nonEmpty?
  split <;> simp_all [eq_comm]

namespace Identifier

theorem qualified?_eq_none_iff {i : Identifier} : i.qualified? = none ↔ i.name = "" := by
  unfold qualified?
  split
  · simp_all
  · split <;> simp_all

theorem names_of_qualified? {i : Identifier} {t : String} (h : i.qualified? = some t) :
    i.Names t := by
  unfold qualified? at h
  split at h
  · cases h
  · split at h
    · rename_i hschema
      cases h
      exact ⟨fun _ => rfl, fun hne => absurd hschema hne⟩
    · rename_i hschema
      cases h
      exact ⟨fun heq => absurd heq hschema, fun _ => rfl⟩

end Identifier

theorem Column.describes_toColumn (c : Column) : c.Describes c.toColumn where
  nameless_iff := nonEmpty?_eq_none_iff
  name n hn := (nonEmpty?_eq_some_iff.mp hn).2
  typeless_iff := by
    simp only [toColumn]
    cases c.type? with
    | none => simp
    | some i => simp [Identifier.qualified?_eq_none_iff]
  type t ht := by
    obtain ⟨i, hi, hname⟩ := Option.bind_eq_some_iff.mp ht
    exact ⟨i, hi, Identifier.names_of_qualified? hname⟩
  notNull := rfl
  isArray := rfl
  arrayDims := keeps_unsigned c.arrayDims

theorem Parameter.describes_toParameter (p : Parameter) : p.Describes p.toParameter where
  number := keeps_unsigned p.number
  columnless_iff := Option.map_eq_none_iff
  column c' hc' := by
    obtain ⟨c, hc, rfl⟩ := Option.map_eq_some_iff.mp hc'
    exact ⟨c, hc, c.describes_toColumn⟩

namespace Query

theorem toQuery_eq_ok_iff {q : Query} {out : QueryClient.Query} :
    q.toQuery = .ok out ↔ ∃ c, Command.ofTag q.command = .ok c ∧
      out = ⟨q.name, c, q.text, q.filename, q.params.map Parameter.toParameter,
        q.columns.map Column.toColumn⟩ := by
  unfold toQuery
  cases Command.ofTag q.command with
  | error u => simp
  | ok c => simp [eq_comm]

theorem exists_toQuery_iff {q : Query} :
    (∃ out, q.toQuery = .ok out) ↔ q.command ∈ Command.tags := by
  simp only [toQuery_eq_ok_iff, ← Command.exists_ofTag_iff]
  constructor
  · rintro ⟨out, c, hc, -⟩
    exact ⟨c, hc⟩
  · rintro ⟨c, hc⟩
    exact ⟨_, c, hc, rfl⟩

theorem toQuery_eq_error_iff {q : Query} {f : RequestFault} :
    q.toQuery = .error f ↔ q.command ∉ Command.tags ∧ f = .command q.name ⟨q.command⟩ := by
  unfold toQuery
  cases h : Command.ofTag q.command with
  | error u =>
    obtain ⟨hunknown, rfl⟩ := Command.ofTag_eq_error_iff.mp h
    simp only [hunknown, not_false_eq_true, true_and, Except.error.injEq, eq_comm]
  | ok c =>
    have hknown := Command.exists_ofTag_iff.mp ⟨c, h⟩
    simp only [hknown, not_true_eq_false, false_and, reduceCtorEq]

theorem describes_of_toQuery {q : Query} {out : QueryClient.Query} (h : q.toQuery = .ok out) :
    q.Describes out := by
  obtain ⟨c, hc, rfl⟩ := toQuery_eq_ok_iff.mp h
  refine ⟨rfl, Command.ofTag_eq_ok_iff.mp hc, rfl, rfl, ?params, ?columns⟩
  case params =>
    rw [List.forall₂_map_right_iff, List.forall₂_same]
    exact fun p _ => p.describes_toParameter
  case columns =>
    rw [List.forall₂_map_right_iff, List.forall₂_same]
    exact fun c _ => c.describes_toColumn

end Query

namespace Request

theorem describes_of_toRequest {r : Request} {out : QueryClient.Request}
    (h : r.toRequest = .ok out) : r.Describes out := by
  obtain ⟨qs, hqs, rfl⟩ := map_eq_ok_iff.mp h
  exact ⟨rfl, (mapM_eq_ok_iff.mp hqs).imp fun _ _ => Query.describes_of_toQuery⟩

theorem exists_toRequest_iff {r : Request} :
    (∃ out, r.toRequest = .ok out) ↔ ∀ q ∈ r.queries, q.command ∈ Command.tags := by
  have hqueries : (∃ qs, r.queries.mapM Query.toQuery = .ok qs) ↔
      ∀ q ∈ r.queries, q.command ∈ Command.tags := by
    simp only [exists_mapM_iff, Query.exists_toQuery_iff]
  rw [← hqueries]
  constructor
  · rintro ⟨out, h⟩
    obtain ⟨qs, hqs, -⟩ := map_eq_ok_iff.mp h
    exact ⟨qs, hqs⟩
  · rintro ⟨qs, hqs⟩
    exact ⟨_, map_eq_ok_iff.mpr ⟨qs, hqs, rfl⟩⟩

/-- The first query with an unknown tag spoils the request, and nothing else does. -/
theorem toRequest_eq_error_iff {r : Request} {f : RequestFault} :
    r.toRequest = .error f ↔ ∃ before q after, r.queries = before ++ q :: after ∧
      (∀ p ∈ before, p.command ∈ Command.tags) ∧
      q.command ∉ Command.tags ∧ f = .command q.name ⟨q.command⟩ := by
  rw [toRequest, map_eq_error_iff, mapM_eq_error_iff]
  simp only [Query.exists_toQuery_iff, Query.toQuery_eq_error_iff]

end Request

/-! ### Requests in bytes -/

theorem decodeRequest_encode {r : Request} (h : r.encode.length < 2 ^ 64) :
    decodeRequest r.encode = r.toRequest := by
  have hread : Request.type.decode r.encode = .ok r := (Request.builds_encode 96 r h).decode_eq
  rw [decodeRequest, hread]

theorem RequestFault.message_command (query tag : String) :
    RequestFault.message (.command query ⟨tag⟩) =
      "query '" ++ query ++ "' has an unknown command '" ++ tag ++ "'" := by
  have hjoined : "' has an " ++ "unknown command '" = "' has an unknown command '" := by decide
  calc RequestFault.message (.command query ⟨tag⟩)
      = "query '" ++ query ++ "' has an " ++ ("unknown command '" ++ tag ++ "'") := rfl
    _ = "query '" ++ query ++ ("' has an " ++ "unknown command '") ++ tag ++ "'" := by
        simp only [String.append_assoc]
    _ = "query '" ++ query ++ "' has an unknown command '" ++ tag ++ "'" := by rw [hjoined]

/-- **A request says what its message describes.** The bytes of a message are a request
    exactly if the command of each query is one of the four tags. Then the request has the
    same settings and the same queries in the same order, each with the same placeholders and
    columns in the same order; only what a message cannot leave out is absent or 0 where it
    is empty or negative. Otherwise the fault names the first query with another tag, and
    that tag. (A length in the format has 64 bits, which is what the hypothesis is about.) -/
theorem decodeRequest_exact {r : Request} (h : r.encode.length < 2 ^ 64) :
    ((∃ out, decodeRequest r.encode = .ok out) ↔
      ∀ q ∈ r.queries, q.command ∈ Command.tags) ∧
    (∀ out, decodeRequest r.encode = .ok out → r.Describes out) ∧
    ∀ f, decodeRequest r.encode = .error f → ∃ before q after,
      r.queries = before ++ q :: after ∧
      (∀ p ∈ before, p.command ∈ Command.tags) ∧
      q.command ∉ Command.tags ∧
      f = .command q.name ⟨q.command⟩ ∧
      f.message = "query '" ++ q.name ++ "' has an unknown command '" ++ q.command ++ "'" := by
  rw [decodeRequest_encode h]
  refine ⟨Request.exists_toRequest_iff, fun out => Request.describes_of_toRequest, ?_⟩
  intro f hf
  obtain ⟨before, q, after, hqueries, hbefore, hunknown, rfl⟩ :=
    Request.toRequest_eq_error_iff.mp hf
  exact ⟨before, q, after, hqueries, hbefore, hunknown, rfl,
    RequestFault.message_command q.name q.command⟩

/-- A request with everything that a message cannot leave out, in a result column and in the
    column of a placeholder: no name, a type without a name, numbers below 0. -/
def sparse : Request where
  queries := [⟨"SELECT $1", "Get", ":one", [⟨"", true, true, some ⟨"", "public", ""⟩, -1⟩],
    [⟨-2, some ⟨"id", false, false, some ⟨"", "pg_catalog", "int8"⟩, 2⟩⟩, ⟨1, none⟩], "q.sql"⟩]
  version := "v1.27.0"
  settings := [0x7B, 0x7D]

theorem decodeRequest_exact_sparse :
    sparse.encode.length < 2 ^ 64 ∧
      ∃ out, decodeRequest sparse.encode = .ok out ∧ sparse.Describes out := by
  have hlength : sparse.encode.length < 2 ^ 64 := by
    rw [Request.length_encode]
    decide +kernel
  obtain ⟨hsucceeds, hdescribes, -⟩ := decodeRequest_exact hlength
  obtain ⟨out, hout⟩ := hsucceeds.mpr (by decide)
  exact ⟨hlength, out, hout, hdescribes out hout⟩

end Wire
end QueryClient
