/-
  QueryClient/Proofs/Driver/Placeholders.lean
  ===========================================
  **Every driver binds the arguments, in order, and nothing else.** The calls of the
  client libraries have three shapes, and each is read back here on its own: values as
  a property of the settings (`boundLists_settings`), values behind the query text
  (`boundIn?_unsafe`), and values as the arguments of a prepared statement
  (`boundIn?_prepared`). No other line of a function body binds anything, so that the
  list of arguments is all that is read off the body of a function, whatever the driver
  and the command (`Driver.boundLists_queryFunction`).
-/
import QueryClient.Driver.Emission
import QueryClient.Proofs.Script.Reading

namespace QueryClient

open Script
open Naming (isIdentifier)

/-! ### Plans with proper names -/

/-- The names of a plan are identifiers, and rows that have a type have columns. -/
structure FunctionPlan.Named (p : FunctionPlan) : Prop where
  queryConstant : isIdentifier p.queryConstant.toList = true
  argNames : ∀ name ∈ p.argNames, isIdentifier name.toList = true
  columnNames : ∀ name ∈ p.columnNames, isIdentifier name.toList = true
  columns : p.rowType?.isSome = true → p.columnNames ≠ []

theorem FunctionPlan.Named.isPath_bound {p : FunctionPlan} (hp : p.Named) :
    ∀ e ∈ p.bound, IsPath e.toList := by
  intro e he
  obtain ⟨name, hname, rfl⟩ := List.mem_map.mp he
  have hargs : IsPath "args".toList := isPath_of_isIdentifier rfl
  have hdot : IsPath ['.'] := ⟨List.cons_ne_nil _ _, fun c hc => Or.inr (List.mem_singleton.mp hc)⟩
  have haccess : IsPath "args.".toList := hargs.append hdot
  rw [String.toList_append]
  exact haccess.append (isPath_of_isIdentifier (hp.argNames name hname))

/-! ### Lists of expressions -/

theorem map_text_code (bound : List String) : (bound.map Item.code).map Item.text = bound := by
  rw [List.map_map]
  exact List.map_id bound

theorem toList_commaList (bound : List String) :
    (commaList (bound.map .code)).toList = [',', ' '].intercalate (bound.map String.toList) := by
  rw [commaList, map_text_code, String.toList_intercalate]
  rfl

theorem isPath_of_mem_map {bound : List String} (hbound : ∀ e ∈ bound, IsPath e.toList) :
    ∀ s ∈ bound.map String.toList, IsPath s := by
  intro s hs
  obtain ⟨e, he, rfl⟩ := List.mem_map.mp hs
  exact hbound e he

theorem map_ofList_toList (bound : List String) :
    (bound.map String.toList).map String.ofList = bound := by
  rw [List.map_map]
  calc bound.map (String.ofList ∘ String.toList)
      = bound.map id := List.map_congr_left fun s _ => String.ofList_toList
    _ = bound := List.map_id bound

/-! ### Properties -/

theorem boundIn?_array {key : String} (hkey : ':' ∉ key.toList) {bound : List String}
    (hbound : ∀ e ∈ bound, IsPath e.toList) :
    boundIn? (Property.text ⟨key, .array (bound.map .code)⟩) = some (key, bound) := by
  have hvalue : (arrayLiteral (bound.map .code)).toList =
      '[' :: ([',', ' '].intercalate (bound.map String.toList) ++ [']']) := by
    rw [arrayLiteral, String.toList_append, String.toList_append, toList_commaList]
    rfl
  have hitems : arrayItems? (arrayLiteral (bound.map .code)).toList =
      some (bound.map String.toList) := by
    rw [hvalue, arrayItems?, List.getLast?_concat, if_pos rfl, List.dropLast_concat,
      listItems_intercalate (isPath_of_mem_map hbound)]
  rw [Property.text]
  change boundIn? (key ++ ": " ++ arrayLiteral (bound.map .code) ++ ",") = some (key, bound)
  rw [boundIn?_property hkey, hitems, Option.map_some, map_ofList_toList]

/-- An expression under a key binds nothing, unless it is an array. -/
theorem boundIn?_code {key : String} (hkey : ':' ∉ key.toList) {e : String}
    (he : e.toList.head? ≠ some '[') : boundIn? (Property.text ⟨key, .code e⟩) = none := by
  have hitems : arrayItems? e.toList = none := by
    cases hlist : e.toList with
    | nil => rfl
    | cons c cs =>
      rw [hlist] at he
      unfold arrayItems?
      split
      · rename_i heq
        cases heq
        exact absurd rfl he
      · rfl
  rw [Property.text]
  change boundIn? (key ++ ": " ++ e ++ ",") = none
  rw [boundIn?_property hkey, hitems, Option.map_none]

theorem head?_ne_of_isIdentifier {s : List Char} (h : isIdentifier s = true) :
    s.head? ≠ some '[' := by
  intro hhead
  have hmem : '[' ∈ s := List.mem_of_mem_head? hhead
  exact (isPath_of_isIdentifier h).not_mem (by decide) (by decide) hmem

theorem not_mem_of_isIdentifier {s : List Char} (h : isIdentifier s = true) {c : Char}
    (hc : Naming.isIdentifierChar c = false) (hdot : c ≠ '.') : c ∉ s :=
  (isPath_of_isIdentifier h).not_mem hc hdot

theorem boundLists_properties (object : ObjectLiteral) :
    boundLists (object.map fun p => .line p.text) = object.filterMap fun p => boundIn? p.text := by
  induction object with
  | nil => rfl
  | cons p rest ih =>
    rw [List.map_cons, boundLists_cons, boundLists_line, ih]
    cases h : boundIn? p.text with
    | none => simp [h]
    | some bound => simp [h]

/-- Besides its properties, an object literal has the line that opens it and the line
    that closes it. -/
theorem boundLists_object {object : ObjectLiteral} (hne : object ≠ []) (before after : String) :
    boundLists [object.layout before after] =
      (boundIn? (before ++ "\x7b")).toList ++ object.filterMap (fun p => boundIn? p.text) ++
        (boundIn? ("\x7d" ++ after)).toList := by
  have hempty : ¬object.isEmpty = true := fun h => hne (List.isEmpty_iff.mp h)
  rw [ObjectLiteral.layout, if_neg hempty, boundLists_block, boundLists_properties]

/-! ### Calls -/

theorem boundLists_settings {opening queryKey query valuesKey before after : String}
    {bound : List String} {more : ObjectLiteral}
    (hopen : boundIn? (before ++ opening ++ "\x7b") = none)
    (hclose : boundIn? ("\x7d" ++ (")" ++ after)) = none)
    (hqueryKey : ':' ∉ queryKey.toList) (hquery : isIdentifier query.toList = true)
    (hvaluesKey : ':' ∉ valuesKey.toList) (hbound : ∀ e ∈ bound, IsPath e.toList)
    (hmore : ∀ p ∈ more, boundIn? p.text = none) :
    boundLists [(Expression.around opening
      (⟨queryKey, .code query⟩ :: ⟨valuesKey, .array (bound.map .code)⟩ :: more) ")").layout
        before after] = [(valuesKey, bound)] := by
  have hrest : more.filterMap (fun p => boundIn? p.text) = [] :=
    List.filterMap_eq_nil_iff.mpr hmore
  have hcode := boundIn?_code hqueryKey (head?_ne_of_isIdentifier hquery)
  have harray := boundIn?_array hvaluesKey hbound
  rw [Expression.layout, boundLists_object (List.cons_ne_nil _ _), hopen, hclose]
  simp only [List.filterMap_cons, hcode, harray, hrest, Option.toList_none, List.nil_append,
    List.append_nil]

theorem boundIn?_unsafe {before : String} (hbefore : '.' ∉ before.toList)
    (hcolon : ':' ∉ before.toList) {query : String} (hquery : isIdentifier query.toList = true)
    {bound : List String} (hbound : ∀ e ∈ bound, IsPath e.toList) {after : String}
    (hafter : ':' ∉ after.toList) :
    boundIn? (before ++ ".unsafe(" ++ query ++ ", " ++ arrayLiteral (bound.map .code) ++ after) =
      some ("unsafe", bound) := by
  have hpaths := isPath_of_mem_map hbound
  have hline : (before ++ ".unsafe(" ++ query ++ ", " ++ arrayLiteral (bound.map .code) ++
      after).toList = before.toList ++ (".unsafe(".toList ++ (query.toList ++ (", [".toList ++
        ([',', ' '].intercalate (bound.map String.toList) ++ ']' :: after.toList)))) := by
    simp [arrayLiteral, toList_commaList]
  have hnocolon : ':' ∉ (before ++ ".unsafe(" ++ query ++ ", " ++
      arrayLiteral (bound.map .code) ++ after).toList := by
    have hqueryColon : ':' ∉ query.toList :=
      not_mem_of_isIdentifier hquery (by decide) (by decide)
    have hitems : ':' ∉ [',', ' '].intercalate (bound.map String.toList) :=
      not_mem_intercalate hpaths (by decide) (by decide) (by decide) (by decide)
    rw [hline]
    simp [hcolon, hqueryColon, hitems, hafter]
  have hcomma : ',' ∉ query.toList := not_mem_of_isIdentifier hquery (by decide) (by decide)
  rw [boundIn?_statement hnocolon, hline, callItems?_append hbefore,
    callItems?_unsafe hcomma hpaths]
  simp only [Option.map_some, map_ofList_toList, String.ofList_toList]

/-- A line with a call of `run` or `all` binds the arguments of the call. -/
theorem boundIn?_prepared {before method : String} (hbefore : '.' ∉ before.toList)
    (hcolon : ':' ∉ before.toList) (hmethod : method = "run" ∨ method = "all")
    {bound : List String} (hbound : ∀ e ∈ bound, IsPath e.toList) {after : String}
    (hafter : ':' ∉ after.toList) (hparen : '(' ∉ after.toList) :
    boundIn? (before ++ ("." ++ method ++ "(") ++ commaList (bound.map .code) ++ ")" ++ after) =
      some (method, bound) := by
  have hpaths := isPath_of_mem_map hbound
  have hline : (before ++ ("." ++ method ++ "(") ++ commaList (bound.map .code) ++ ")" ++
      after).toList = before.toList ++ (("." ++ method ++ "(").toList ++
        ([',', ' '].intercalate (bound.map String.toList) ++ ')' :: after.toList)) := by
    simp [toList_commaList]
  have hnocolon : ':' ∉ (before ++ ("." ++ method ++ "(") ++ commaList (bound.map .code) ++ ")" ++
      after).toList := by
    have hmethodColon : ':' ∉ method.toList := by
      rcases hmethod with rfl | rfl
      · decide
      · decide
    have hitems : ':' ∉ [',', ' '].intercalate (bound.map String.toList) :=
      not_mem_intercalate hpaths (by decide) (by decide) (by decide) (by decide)
    rw [hline]
    simp [hcolon, hmethodColon, hitems, hafter]
  rw [boundIn?_statement hnocolon, hline, callItems?_append hbefore,
    callItems?_prepared hmethod hpaths hparen]
  simp only [Option.map_some, map_ofList_toList, String.ofList_toList]

/-! ### Statements that bind nothing -/

/-- What stands behind the query constant where a statement is prepared. -/
def preparedModes (safeIntegers asArrays : Bool) : String :=
  ")" ++ ((if safeIntegers then ".safeIntegers(true)" else "") ++
    ((if asArrays then ".raw(true)" else "") ++ ";"))

theorem toList_prepare (safeIntegers : Bool) (p : FunctionPlan) (asArrays : Bool) :
    (Driver.prepare safeIntegers p asArrays).toList = "const stmt = database.prepare(".toList ++
      (p.queryConstant.toList ++ (preparedModes safeIntegers asArrays).toList) := by
  unfold Driver.prepare preparedModes
  rw [String.append_assoc, String.append_assoc, String.append_assoc, String.append_assoc,
    String.toList_append, String.toList_append]

theorem preparedModes_silent (safeIntegers asArrays : Bool) :
    ':' ∉ (preparedModes safeIntegers asArrays).toList ∧
      callItems? (preparedModes safeIntegers asArrays).toList = none := by
  cases safeIntegers with
  | false => cases asArrays <;> decide
  | true => cases asArrays <;> decide

theorem boundIn?_prepare {p : FunctionPlan} (hp : p.Named) (safeIntegers asArrays : Bool) :
    boundIn? (Driver.prepare safeIntegers p asArrays) = none := by
  obtain ⟨hmodes, hsilent⟩ := preparedModes_silent safeIntegers asArrays
  have hcolon : ':' ∉ (Driver.prepare safeIntegers p asArrays).toList := by
    have hquery : ':' ∉ p.queryConstant.toList :=
      not_mem_of_isIdentifier hp.queryConstant (by decide) (by decide)
    rw [toList_prepare, List.mem_append, List.mem_append]
    rintro (hhead | hname | hend)
    · revert hhead
      decide
    · exact hquery hname
    · exact hmodes hend
  have hnodot : '.' ∉ p.queryConstant.toList := by
    intro hmem
    have hall := List.all_eq_true.mp (Naming.all_of_isIdentifier hp.queryConstant) '.' hmem
    exact absurd hall (by decide)
  have hprepare (s : List Char) :
      callItems? ("const stmt = database.prepare(".toList ++ s) = callItems? s := rfl
  rw [boundIn?_statement hcolon, toList_prepare, hprepare, callItems?_append hnodot, hsilent]
  rfl

/-- A row with the given shape has fields, and they are identifiers. -/
def RowShape.Named : RowShape → Prop
  | .object fields => fields ≠ [] ∧ ∀ f ∈ fields, isIdentifier f.toList = true
  | .nothing => True

theorem FunctionPlan.Named.rowShape {p : FunctionPlan} (hp : p.Named) : p.rowShape.Named := by
  rw [FunctionPlan.rowShape]
  cases hrow : p.rowType? with
  | none => exact trivial
  | some row => exact ⟨hp.columns (by rw [hrow]; rfl), hp.columnNames⟩

theorem positionsFrom_ne_nil {i : Nat} {fields : List String} (hne : fields ≠ []) :
    positionsFrom i fields ≠ [] := by
  cases fields with
  | nil => exact absurd rfl hne
  | cons f fs => exact List.cons_ne_nil _ _

theorem filterMap_boundIn?_positionsFrom {i : Nat} {fields : List String}
    (hfields : ∀ f ∈ fields, isIdentifier f.toList = true) :
    (positionsFrom i fields).filterMap (fun p => boundIn? p.text) = [] := by
  induction fields generalizing i with
  | nil => rfl
  | cons f fs ih =>
    have hcolon : ':' ∉ f.toList :=
      not_mem_of_isIdentifier (hfields f List.mem_cons_self) (by decide) (by decide)
    have hvalue : ("row[" ++ i.repr ++ "]").toList.head? ≠ some '[' := by simp
    have hrest := ih (i := i + 1) fun g hg => hfields g (List.mem_cons_of_mem _ hg)
    have hcode := boundIn?_code hcolon hvalue
    simp only [positionsFrom, List.filterMap_cons, hcode, hrest]

theorem boundLists_positionalRow {fields : List String} (hrow : (RowShape.object fields).Named)
    (before after : String) :
    boundLists [(positionalRow fields).layout before after] =
      (boundIn? (before ++ "\x7b")).toList ++ (boundIn? ("\x7d" ++ after)).toList := by
  rw [positionalRow, boundLists_object (positionsFrom_ne_nil hrow.1),
    filterMap_boundIn?_positionsFrom hrow.2, List.append_nil]

/-! ### Bodies -/

/-- What is bound to the name of the reply when the rows of a reply are read. -/
def IsReply (rows : String) : Prop := rows = "rows" ∨ rows = "result.rows"

theorem boundLists_first (call : ClientCall) (binding : String) {rows : String}
    (hrows : IsReply rows) {row : RowShape} (hrow : row.Named) :
    boundLists (QueryBody.first call binding rows row).layout =
      boundLists [QueryBody.bind binding call] := by
  have hguard : boundLists [QueryBody.guard rows] = [] := by
    rcases hrows with rfl | rfl
    · rfl
    · rfl
  cases row with
  | nothing =>
    have hreturn : boundLists [Layout.line "return;"] = [] := rfl
    rw [QueryBody.layout, boundLists_cons, boundLists_cons (QueryBody.guard rows), hguard, hreturn,
      List.append_nil, List.append_nil]
  | object fields =>
    have hpick : boundLists [Layout.line ("const row = " ++ rows ++ "[0];")] = [] := by
      rcases hrows with rfl | rfl
      · rfl
      · rfl
    have hobject : boundLists [(positionalRow fields).layout "return " ";"] = [] := by
      rw [boundLists_positionalRow hrow]
      rfl
    rw [QueryBody.layout, boundLists_cons, boundLists_cons (QueryBody.guard rows),
      boundLists_cons (.line ("const row = " ++ rows ++ "[0];")), hguard, hpick, hobject]
    exact List.append_nil _

theorem boundLists_every (call : ClientCall) (binding : String) {rows : String}
    (hrows : IsReply rows) {row : RowShape} (hrow : row.Named) :
    boundLists (QueryBody.every call binding rows row).layout =
      boundLists [QueryBody.bind binding call] := by
  cases row with
  | nothing =>
    have hmap : boundLists [QueryBody.mapToNothing rows] = [] := by
      rcases hrows with rfl | rfl
      · rfl
      · rfl
    rw [QueryBody.layout, boundLists_cons, hmap, List.append_nil]
  | object fields =>
    have hobject : boundLists [(positionalRow fields).layout "return " ";"] = [] := by
      rw [boundLists_positionalRow hrow]
      rfl
    have hmap : boundLists [Layout.block ("return " ++ rows ++ ".map(row => \x7b")
        [(positionalRow fields).layout "return " ";"] (some "\x7d);")] = [] := by
      rw [boundLists_block, hobject]
      rcases hrows with rfl | rfl
      · rfl
      · rfl
    rw [QueryBody.layout, boundLists_cons, hmap, List.append_nil]

/-! ### Functions -/

namespace Driver

variable {p : FunctionPlan}

/-- Where the client library takes the values for the placeholders: under a key of its
    settings, or in the call of a method. -/
def bindingSite (d : Driver) (c : Command) : String :=
  match d with
  | .pg => "values"
  | .postgres => "unsafe"
  | .mysql2 _ => "values"
  | .betterSqlite3 _ => if c = .one ∨ c = .many then "all" else "run"
  | .turso => "args"

theorem boundLists_wrap (d : Driver) (returns : TypeExpr) (body : QueryBody) :
    boundLists (d.wrap p returns none body).function.body = boundLists body.layout := rfl

theorem boundLists_wrap_prepare (hp : p.Named) (d : Driver) (returns : TypeExpr)
    (safeIntegers asArrays : Bool) (body : QueryBody) :
    boundLists (d.wrap p returns (some (prepare safeIntegers p asArrays)) body).function.body =
      boundLists body.layout := by
  change boundLists (.line (prepare safeIntegers p asArrays) :: body.layout) = _
  rw [boundLists_cons, boundLists_line, boundIn?_prepare hp]
  rfl

theorem boundLists_pgCall (hp : p.Named) {before : String}
    (hbefore : before = "await " ∨ before = "const result = await ") :
    boundLists [(pgCall p).expression.layout before ";"] = [("values", p.bound)] := by
  have hmore : ∀ r ∈ ([⟨"rowMode", .quoted "array"⟩] : ObjectLiteral), boundIn? r.text = none := by
    decide
  refine boundLists_settings ?_ rfl (by decide) hp.queryConstant (by decide) hp.isPath_bound hmore
  rcases hbefore with rfl | rfl
  · rfl
  · rfl

theorem boundLists_tursoCall (hp : p.Named) {before : String}
    (hbefore : before = "await " ∨ before = "const result = await ") :
    boundLists [(tursoCall p).expression.layout before ";"] = [("args", p.bound)] := by
  have hmore : ∀ r ∈ ([] : ObjectLiteral), boundIn? r.text = none := List.forall_mem_nil _
  refine boundLists_settings ?_ rfl (by decide) hp.queryConstant (by decide) hp.isPath_bound hmore
  rcases hbefore with rfl | rfl
  · rfl
  · rfl

theorem boundLists_mysqlCall (hp : p.Named) {yields : Option TypeExpr} {more : ObjectLiteral}
    {before : String}
    (hcall : yields = none ∧ more = [] ∧ before = "await " ∨
      yields = some resultHeader ∧ more = [] ∧ before = "const [result] = await " ∨
      yields = some rowPackets ∧ more = [⟨"rowsAsArray", .code "true"⟩] ∧
        before = "const [rows] = await ") :
    boundLists [(mysqlCall p yields more).expression.layout before ";"] =
      [("values", p.bound)] := by
  refine boundLists_settings ?_ rfl (by decide) hp.queryConstant (by decide) hp.isPath_bound ?_
  · rcases hcall with ⟨rfl, rfl, rfl⟩ | ⟨rfl, rfl, rfl⟩ | ⟨rfl, rfl, rfl⟩
    · rfl
    · rfl
    · rfl
  · rcases hcall with ⟨rfl, rfl, rfl⟩ | ⟨rfl, rfl, rfl⟩ | ⟨rfl, rfl, rfl⟩
    · exact List.forall_mem_nil _
    · exact List.forall_mem_nil _
    · decide

theorem boundIn?_postgresCall (hp : p.Named) {before accessor after : String}
    (hdot : '.' ∉ (before ++ "sql").toList) (hcolon : ':' ∉ (before ++ "sql").toList)
    (hafter : ':' ∉ (")" ++ accessor ++ after).toList) :
    boundIn? (before ++ (postgresCall p accessor).text ++ after) = some ("unsafe", p.bound) := by
  have hline : before ++ (postgresCall p accessor).text ++ after =
      (before ++ "sql") ++ ".unsafe(" ++ p.queryConstant ++ ", " ++
        arrayLiteral (p.bound.map .code) ++ (")" ++ accessor ++ after) := by
    simp only [postgresCall, TextCall.text, ← String.toList_inj, String.toList_append,
      List.append_assoc]
    rfl
  rw [hline]
  exact boundIn?_unsafe hdot hcolon hp.queryConstant hp.isPath_bound hafter

theorem boundIn?_preparedCall (hp : p.Named) {before method cast : String}
    (hcall : before = "await " ∧ method = "run" ∧ cast = "" ∨
      before = "const rows = await " ∧ method = "all" ∧ (cast = "" ∨ cast = " as any[][]")) :
    boundIn? (before ++ ("stmt." ++ method ++ "(" ++ commaList (p.bound.map .code) ++ ")" ++ cast) ++
      ";") = some (method, p.bound) := by
  have hline : before ++ ("stmt." ++ method ++ "(" ++ commaList (p.bound.map .code) ++ ")" ++
      cast) ++ ";" = (before ++ "stmt") ++ ("." ++ method ++ "(") ++
        commaList (p.bound.map .code) ++ ")" ++ (cast ++ ";") := by
    simp only [← String.toList_inj, String.toList_append, List.append_assoc]
    rfl
  rw [hline]
  rcases hcall with ⟨rfl, rfl, rfl⟩ | ⟨rfl, rfl, rfl | rfl⟩
  · exact boundIn?_prepared (by decide) (by decide) (Or.inl rfl) hp.isPath_bound (by decide)
      (by decide)
  · exact boundIn?_prepared (by decide) (by decide) (Or.inr rfl) hp.isPath_bound (by decide)
      (by decide)
  · exact boundIn?_prepared (by decide) (by decide) (Or.inr rfl) hp.isPath_bound (by decide)
      (by decide)

theorem boundLists_run_postgres (hp : p.Named) :
    boundLists (QueryBody.run (.text (postgresCall p ""))).layout =
      [("unsafe", p.bound)] := by
  change boundLists [.line ("await " ++ (postgresCall p "").text ++ ";")] = _
  rw [boundLists_line, boundIn?_postgresCall hp (by decide) (by decide) (by decide)]
  rfl

theorem boundLists_bind_postgres (hp : p.Named) :
    boundLists [QueryBody.bind "rows" (.text (postgresCall p ".values()"))] =
      [("unsafe", p.bound)] := by
  change boundLists [.line ("const rows = await " ++ (postgresCall p ".values()").text ++ ";")] = _
  rw [boundLists_line, boundIn?_postgresCall hp (by decide) (by decide) (by decide)]
  rfl

/-- A reply that is mapped at once: the call stands in the line that opens the row. -/
theorem boundLists_mapped_postgres (hp : p.Named) :
    boundLists (QueryBody.mapped (postgresCall p ".values()") p.rowShape).layout =
      [("unsafe", p.bound)] := by
  let call := (postgresCall p ".values()").text
  have hrow := hp.rowShape
  cases hshape : p.rowShape with
  | nothing =>
    have hline : "return " ++ ("(await " ++ call ++ ")") ++ ".map(() => undefined);" =
        "return (await " ++ call ++ ").map(() => undefined);" := by
      simp only [← String.toList_inj, String.toList_append, List.append_assoc]
      rfl
    change boundLists [.line ("return " ++ ("(await " ++ call ++ ")") ++
      ".map(() => undefined);")] = _
    rw [hline, boundLists_line, boundIn?_postgresCall hp (by decide) (by decide) (by decide)]
    rfl
  | object fields =>
    rw [hshape] at hrow
    have hline : "return " ++ ("(await " ++ call ++ ")") ++ ".map(row => (" ++ "\x7b" =
        "return (await " ++ call ++ ").map(row => (\x7b" := by
      simp only [← String.toList_inj, String.toList_append, List.append_assoc]
      rfl
    change boundLists [(positionalRow fields).layout
      ("return " ++ ("(await " ++ call ++ ")") ++ ".map(row => (") "));"] = _
    rw [boundLists_positionalRow hrow, hline,
      boundIn?_postgresCall hp (by decide) (by decide) (by decide)]
    rfl

theorem boundLists_bind_sqlite (hp : p.Named) :
    boundLists [QueryBody.bind "rows" (preparedRows p)] = [("all", p.bound)] := by
  cases hrow : p.rowType? with
  | none =>
    have hcall : QueryBody.bind "rows" (preparedRows p) = .line ("const rows = await " ++
        ("stmt." ++ "all" ++ "(" ++ commaList (p.bound.map .code) ++ ")" ++ "") ++ ";") := by
      rw [preparedRows, hrow]
      rfl
    rw [hcall, boundLists_line, boundIn?_preparedCall hp (Or.inr ⟨rfl, rfl, Or.inl rfl⟩)]
    rfl
  | some row =>
    have hcall : QueryBody.bind "rows" (preparedRows p) = .line ("const rows = await " ++
        ("stmt." ++ "all" ++ "(" ++ commaList (p.bound.map .code) ++ ")" ++ " as any[][]") ++
          ";") := by
      rw [preparedRows, hrow]
      rfl
    rw [hcall, boundLists_line, boundIn?_preparedCall hp (Or.inr ⟨rfl, rfl, Or.inr rfl⟩)]
    rfl

theorem boundLists_execFunction (hp : p.Named) (d : Driver) :
    boundLists (d.execFunction p).function.body = [(d.bindingSite .exec, p.bound)] := by
  cases d with
  | pg => exact boundLists_pgCall hp (Or.inl rfl)
  | postgres => exact boundLists_run_postgres hp
  | mysql2 o => exact boundLists_mysqlCall hp (Or.inl ⟨rfl, rfl, rfl⟩)
  | betterSqlite3 safe =>
    rw [execFunction, boundLists_wrap_prepare hp]
    change boundLists [.line ("await " ++
      ("stmt." ++ "run" ++ "(" ++ commaList (p.bound.map .code) ++ ")" ++ "") ++ ";")] = _
    rw [boundLists_line, boundIn?_preparedCall hp (Or.inl ⟨rfl, rfl, rfl⟩)]
    rfl
  | turso => exact boundLists_tursoCall hp (Or.inl rfl)

theorem boundLists_lastIdFunction (hp : p.Named) {d : Driver} {f : QueryFunction}
    (h : d.lastIdFunction p = .ok f) :
    boundLists f.function.body = [(d.bindingSite .execLastId, p.bound)] := by
  cases d with
  | mysql2 o =>
    cases h
    have hcall := boundLists_mysqlCall hp (Or.inr (Or.inl ⟨rfl, rfl, rfl⟩))
    rw [boundLists_wrap, QueryBody.layout, boundLists_cons, QueryBody.bind]
    exact congrArg (· ++ []) hcall
  | turso =>
    cases h
    have hcall := boundLists_tursoCall hp (Or.inr rfl)
    rw [boundLists_wrap, QueryBody.layout, boundLists_cons, QueryBody.bind]
    exact congrArg (· ++ []) hcall
  | pg => cases h
  | postgres => cases h
  | betterSqlite3 safe => cases h

theorem boundLists_oneFunction (hp : p.Named) (d : Driver) :
    boundLists (d.oneFunction p).function.body = [(d.bindingSite .one, p.bound)] := by
  have hrow := hp.rowShape
  cases d with
  | pg =>
    exact (boundLists_first _ _ (Or.inr rfl) hrow).trans (boundLists_pgCall hp (Or.inr rfl))
  | postgres =>
    exact (boundLists_first _ _ (Or.inl rfl) hrow).trans (boundLists_bind_postgres hp)
  | mysql2 o =>
    exact (boundLists_first _ _ (Or.inl rfl) hrow).trans
      (boundLists_mysqlCall hp (Or.inr (Or.inr ⟨rfl, rfl, rfl⟩)))
  | betterSqlite3 safe =>
    rw [oneFunction, boundLists_wrap_prepare hp, boundLists_first _ _ (Or.inl rfl) hrow]
    exact boundLists_bind_sqlite hp
  | turso =>
    exact (boundLists_first _ _ (Or.inr rfl) hrow).trans (boundLists_tursoCall hp (Or.inr rfl))

theorem boundLists_manyFunction (hp : p.Named) (d : Driver) :
    boundLists (d.manyFunction p).function.body = [(d.bindingSite .many, p.bound)] := by
  have hrow := hp.rowShape
  cases d with
  | pg =>
    exact (boundLists_every _ _ (Or.inr rfl) hrow).trans (boundLists_pgCall hp (Or.inr rfl))
  | postgres => exact boundLists_mapped_postgres hp
  | mysql2 o =>
    exact (boundLists_every _ _ (Or.inl rfl) hrow).trans
      (boundLists_mysqlCall hp (Or.inr (Or.inr ⟨rfl, rfl, rfl⟩)))
  | betterSqlite3 safe =>
    rw [manyFunction, boundLists_wrap_prepare hp, boundLists_every _ _ (Or.inl rfl) hrow]
    exact boundLists_bind_sqlite hp
  | turso =>
    exact (boundLists_every _ _ (Or.inr rfl) hrow).trans (boundLists_tursoCall hp (Or.inr rfl))

/-- **The arguments, in order, and nothing else.** Whatever the driver and the command,
    one list of expressions is bound in the body of the function: that of the plan. -/
theorem boundLists_queryFunction (hp : p.Named) {d : Driver} {c : Command} {f : QueryFunction}
    (h : d.queryFunction c p = .ok f) :
    boundLists f.function.body = [(d.bindingSite c, p.bound)] := by
  cases c with
  | exec =>
    cases h
    exact boundLists_execFunction hp d
  | execLastId => exact boundLists_lastIdFunction hp h
  | one =>
    cases h
    exact boundLists_oneFunction hp d
  | many =>
    cases h
    exact boundLists_manyFunction hp d

end Driver
end QueryClient
