/-
  QueryClient/Proofs/Driver/Containment.lean
  ==========================================
  **The functions of every driver are contained.** What stands in the function of a query
  comes from two sources (`Driver.makes_queryFunction`): the driver's own words, which are
  contained, and the names in the plan, which are identifiers. A body is contained if the
  texts are that it is made of (`QueryBody.contained_layout`), and a function if its names
  and its body are (`QueryFunction.Sealed`).
-/
import QueryClient.Proofs.Driver.Placeholders
import QueryClient.Proofs.Driver.Vocabulary

namespace QueryClient

open Script
open Naming (isIdentifier)

/-! ### Calls -/

theorem TextCall.contained_text {c : TextCall}
    (h : ∀ s ∈ (ClientCall.text c).slots, Contained s) : Contained c.text := by
  simp only [ClientCall.slots, List.forall_mem_cons] at h
  obtain ⟨hcallee, hquery, haccessor, hbound⟩ := h
  have hopen : Shifts [] (c.callee ++ "(" ++ c.query ++ ", " ++
      arrayLiteral (c.bound.map .code)) [')'] :=
    (((Shifts.append hcallee (by decide)).append_contained hquery).append_contained
      (by decide)).append_contained (contained_arrayLiteral hbound)
  exact (hopen.append (by decide)).append_contained haccessor

theorem ClientCall.contained_layout {c : ClientCall} (h : ∀ s ∈ c.slots, Contained s)
    {before after : String} (hbefore : Contained before) (hafter : Contained after) :
    Layout.Contained [c.expression.layout before after] := by
  cases c with
  | settings callee yields queryKey query valuesKey bound more =>
    simp only [slots, List.cons_append, List.forall_mem_cons, List.forall_mem_append,
      List.forall_mem_map] at h
    obtain ⟨hcallee, hqueryKey, hquery, hvaluesKey, ⟨hbound, hyields⟩, hmore⟩ := h
    obtain ⟨opening, hopening, hexpression⟩ : ∃ opening, Contained opening ∧
        (settings callee yields queryKey query valuesKey bound more).expression =
          .around (opening ++ "(")
            (⟨queryKey, .code query⟩ :: ⟨valuesKey, .array (bound.map .code)⟩ :: more) ")" := by
      cases yields with
      | none => exact ⟨callee ++ "", hcallee.append (by decide), rfl⟩
      | some t =>
        have ht : Contained t.text := hyields _ (List.mem_singleton_self _)
        exact ⟨callee ++ ("<" ++ t.text ++ ">"),
          hcallee.append ((Contained.append (by decide) ht).append (by decide)), rfl⟩
    have hobject : ∀ p ∈ (⟨queryKey, .code query⟩ :: ⟨valuesKey, .array (bound.map .code)⟩ ::
        more : ObjectLiteral), Contained p.text :=
      List.forall_mem_cons.mpr ⟨Property.contained_text hqueryKey hquery,
        List.forall_mem_cons.mpr
          ⟨Property.contained_text hvaluesKey (contained_arrayLiteral hbound), hmore⟩⟩
    have hbefore : Shifts [] (before ++ (opening ++ "(")) [')'] :=
      Shifts.append hbefore (Shifts.append hopening (by decide))
    rw [hexpression]
    exact ObjectLiteral.contained_layout hobject hbefore
      (Shifts.append_contained (by decide) hafter)
  | text c =>
    exact Layout.contained_line ((hbefore.append (TextCall.contained_text h)).append hafter)
  | prepared callee bound yields =>
    simp only [slots, List.cons_append, List.forall_mem_cons, List.forall_mem_append] at h
    obtain ⟨hcallee, hbound, hyields⟩ := h
    obtain ⟨cast, hcast, hexpression⟩ : ∃ cast, Contained cast ∧
        (prepared callee bound yields).expression =
          .inline (callee ++ "(" ++ commaList (bound.map .code) ++ ")" ++ cast) := by
      cases yields with
      | none => exact ⟨"", by decide, rfl⟩
      | some t =>
        have ht : Contained t.text := hyields _ (List.mem_singleton_self _)
        exact ⟨" as " ++ t.text, Contained.append (by decide) ht, rfl⟩
    have hopen : Shifts [] (callee ++ "(" ++ commaList (bound.map .code)) [')'] :=
      (Shifts.append hcallee (by decide)).append_contained (contained_commaList hbound)
    have hcall : Contained (callee ++ "(" ++ commaList (bound.map .code) ++ ")") :=
      hopen.append (by decide)
    rw [hexpression]
    exact Layout.contained_line ((hbefore.append (hcall.append hcast)).append hafter)

/-! ### Bodies -/

theorem contained_positionsFrom {fields : List String} (h : ∀ f ∈ fields, Contained f) (i : Nat) :
    ∀ p ∈ positionsFrom i fields, Contained p.text := by
  induction fields generalizing i with
  | nil => exact List.forall_mem_nil _
  | cons f fs ih =>
    obtain ⟨hf, hfs⟩ := List.forall_mem_cons.mp h
    have hopen : Shifts [] ("row[" ++ i.repr) [']'] :=
      Shifts.append_contained (by decide) (contained_repr i)
    have hread : Contained ("row[" ++ i.repr ++ "]") := hopen.append (by decide)
    exact List.forall_mem_cons.mpr ⟨Property.contained_text hf hread, ih hfs (i + 1)⟩

theorem contained_positionalRow {fields : List String} (h : ∀ f ∈ fields, Contained f)
    {before after : String} {expected : List Char} (hbefore : Shifts [] before expected)
    (hafter : Shifts expected after []) :
    Layout.Contained [(positionalRow fields).layout before after] :=
  ObjectLiteral.contained_layout (contained_positionsFrom h 0) hbefore hafter

namespace QueryBody

theorem contained_bind {binding : String} {c : ClientCall} (hbinding : Contained binding)
    (hcall : ∀ s ∈ c.slots, Contained s) : Layout.Contained [bind binding c] :=
  ClientCall.contained_layout hcall
    ((Contained.append (by decide) hbinding).append (by decide)) (by decide)

theorem contained_guard {rows : String} (h : Contained rows) : Layout.Contained [guard rows] := by
  have hopen : Shifts [] ("if (" ++ rows) [')'] := Shifts.append_contained (by decide) h
  exact Layout.contained_block (hopen.append (by decide : Shifts [')'] _ ['\x7d']))
    (Layout.contained_line (by decide)) (by decide)

theorem contained_mapToNothing {rows : String} (h : Contained rows) :
    Layout.Contained [mapToNothing rows] :=
  Layout.contained_line ((Contained.append (by decide) h).append (by decide))

theorem contained_layout {b : QueryBody} (h : ∀ s ∈ b.slots, Contained s) :
    Layout.Contained b.layout := by
  cases b with
  | run c => exact ClientCall.contained_layout h (by decide) (by decide)
  | lastId c binding result =>
    obtain ⟨hbinding, h⟩ := List.forall_mem_cons.mp h
    obtain ⟨hresult, hcall⟩ := List.forall_mem_cons.mp h
    exact Layout.contained_cons (contained_bind hbinding hcall)
      (Layout.contained_line ((Contained.append (by decide) hresult).append (by decide)))
  | first c binding rows row =>
    obtain ⟨hbinding, h⟩ := List.forall_mem_cons.mp h
    obtain ⟨hrows, h⟩ := List.forall_mem_cons.mp h
    obtain ⟨hcall, hfields⟩ := List.forall_mem_append.mp h
    refine Layout.contained_cons (contained_bind hbinding hcall)
      (Layout.contained_cons (contained_guard hrows) ?_)
    cases row with
    | nothing => exact Layout.contained_line (by decide)
    | object fields =>
      exact Layout.contained_cons
        (Layout.contained_line ((Contained.append (by decide) hrows).append (by decide)))
        (contained_positionalRow hfields (by decide : Shifts [] "return " []) (by decide))
  | every c binding rows row =>
    obtain ⟨hbinding, h⟩ := List.forall_mem_cons.mp h
    obtain ⟨hrows, h⟩ := List.forall_mem_cons.mp h
    obtain ⟨hcall, hfields⟩ := List.forall_mem_append.mp h
    refine Layout.contained_cons (contained_bind hbinding hcall) ?_
    cases row with
    | nothing => exact contained_mapToNothing hrows
    | object fields =>
      have hreturn : Contained ("return " ++ rows) := Contained.append (by decide) hrows
      exact Layout.contained_block
        (Shifts.append hreturn (by decide : Shifts [] ".map(row => \x7b" ['\x7d', ')']))
        (contained_positionalRow hfields (by decide : Shifts [] "return " []) (by decide))
        (by decide)
  | mapped c row =>
    obtain ⟨hcall, hfields⟩ := List.forall_mem_append.mp h
    -- the call is in parentheses, and the object in two more that close behind it
    have hopen : Shifts [] ("(await " ++ c.text) [')'] :=
      Shifts.append_contained (by decide) (TextCall.contained_text hcall)
    have hrows : Contained ("(await " ++ c.text ++ ")") := hopen.append (by decide)
    cases row with
    | nothing => exact contained_mapToNothing hrows
    | object fields =>
      have hreturn : Contained ("return " ++ ("(await " ++ c.text ++ ")")) :=
        Contained.append (by decide) hrows
      exact contained_positionalRow hfields
        (Shifts.append hreturn (by decide : Shifts [] ".map(row => (" [')', ')'])) (by decide)

end QueryBody

/-! ### Types of columns -/

theorem Driver.contained_names_columnType (d : Driver) (column? : Option Column) :
    ∀ name ∈ (d.columnType column?).names, Contained name := by
  have hlisted : ∀ name ∈ typeNames, Contained name := by decide
  intro name hname
  exact hlisted name (names_columnType_subset d column? hname)

/-! ### Plans -/

/-- All names of a plan that its function shows are identifiers. -/
structure FunctionPlan.Proper (p : FunctionPlan) : Prop extends p.Named where
  name : isIdentifier p.name.toList = true
  argsType : ∀ t ∈ p.argsType?, isIdentifier t.toList = true
  rowType : ∀ t ∈ p.rowType?, isIdentifier t.toList = true

namespace FunctionPlan.Proper

variable {p : FunctionPlan}

theorem contained_of_shows (hp : p.Proper) {s : String} (h : p.Shows s) : Contained s := by
  cases h with
  | word listed =>
    have hlisted : ∀ w ∈ vocabulary, Contained w := by decide
    exact hlisted s listed
  | query => exact contained_of_isIdentifier hp.queryConstant
  | bound isBound =>
    obtain ⟨name, hname, rfl⟩ := List.mem_map.mp isBound
    exact Contained.append (by decide) (contained_of_isIdentifier (hp.argNames name hname))
  | column isColumn => exact contained_of_isIdentifier (hp.columnNames s isColumn)

theorem contained_names_rowType (hp : p.Proper) : ∀ name ∈ p.rowType.names, Contained name := by
  rw [FunctionPlan.rowType]
  cases hrow : p.rowType? with
  | none => exact List.forall_mem_nil _
  | some t => exact List.forall_mem_singleton.mpr (contained_of_isIdentifier (hp.rowType t hrow))

end FunctionPlan.Proper

/-! ### Functions -/

/-- The texts of a query function are contained, and its names are identifiers. -/
structure QueryFunction.Sealed (f : QueryFunction) : Prop where
  name : isIdentifier f.name.toList = true
  paramNames : ∀ q ∈ f.params, isIdentifier q.name.toList = true
  params : ∀ q ∈ f.params, Contained q.text
  returns : ∀ name ∈ f.returns.names, Contained name
  setup : ∀ s ∈ f.setup?, Contained s
  body : ∀ s ∈ f.body.slots, Contained s

theorem QueryFunction.Sealed.contained_layout {f : QueryFunction} (h : f.Sealed) :
    Layout.Contained [f.function.layout] := by
  have hreturns : ∀ t ∈ f.function.returns?, Contained t.text := by
    rintro t ⟨⟩
    apply TypeExpr.contained_text
    change ∀ name ∈ "Promise" :: (f.returns.names ++ []), Contained name
    rw [List.append_nil]
    exact List.forall_mem_cons.mpr ⟨by decide, h.returns⟩
  have hsetup : Layout.Contained (f.setup?.map Layout.line).toList := by
    cases hsome : f.setup? with
    | none => exact Layout.contained_nil
    | some s => exact Layout.contained_line (h.setup s hsome)
  exact Function.contained_layout (contained_of_isIdentifier h.name) h.params hreturns
    (Layout.contained_append hsetup (QueryBody.contained_layout h.body))

namespace Driver

variable {p : FunctionPlan}

theorem contained_connection (d : Driver) :
    isIdentifier d.connection.name.toList = true ∧ Contained d.connection.text := by
  cases d with
  | pg => decide
  | postgres => decide
  | mysql2 o => exact (by decide : isIdentifier "client".toList = true ∧ Contained "client: Client")
  | betterSqlite3 safe =>
    exact (by decide : isIdentifier "database".toList = true ∧ Contained "database: Database")
  | turso => decide

theorem contained_prepare (hp : p.Proper) (safeIntegers asArrays : Bool) :
    Contained (prepare safeIntegers p asArrays) := by
  have hopen : Shifts [] ("const stmt = database.prepare(" ++ p.queryConstant) [')'] :=
    Shifts.append_contained (by decide) (contained_of_isIdentifier hp.queryConstant)
  have hcall : Contained ("const stmt = database.prepare(" ++ p.queryConstant ++ ")") :=
    hopen.append (by decide)
  exact ((hcall.append (contained_ite (by decide) (by decide))).append
    (contained_ite (by decide) (by decide))).append (by decide)

/-- A function that is made for a plan with proper names is sealed. -/
theorem sealed_of_makes (hp : p.Proper) {d : Driver} {f : QueryFunction} (h : p.Makes d f) :
    f.Sealed := by
  obtain ⟨hname, htext⟩ := contained_connection d
  rw [← h.connection] at hname htext
  have hargs : ∀ q ∈ (f.argsType?.map fun t => Field.required "args" (.named t)).toList,
      isIdentifier q.name.toList = true ∧ Contained q.text := by
    rw [h.argsType]
    cases ht : p.argsType? with
    | none => exact List.forall_mem_nil _
    | some t =>
      have hcontained : ∀ name ∈ [t], Contained name :=
        List.forall_mem_singleton.mpr (contained_of_isIdentifier (hp.argsType t ht))
      exact List.forall_mem_singleton.mpr
        ⟨(by decide : isIdentifier "args".toList = true),
          Field.contained_text (by decide : Contained "args") hcontained⟩
  refine ⟨?_, List.forall_mem_cons.mpr ⟨hname, fun q hq => (hargs q hq).1⟩,
    List.forall_mem_cons.mpr ⟨htext, fun q hq => (hargs q hq).2⟩, ?_, ?_, ?_⟩
  · rw [h.name]
    exact hp.name
  · intro name hreturned
    exact hp.contained_names_rowType name (h.returns name hreturned)
  · intro s hs
    obtain ⟨safeIntegers, asArrays, rfl⟩ := h.setup s hs
    exact contained_prepare hp safeIntegers asArrays
  · intro s hs
    exact hp.contained_of_shows (h.body s hs)

/-- Whatever the driver and the command, the function for a plan with proper names shows
    nothing but these names and words of the driver. -/
theorem sealed_queryFunction (hp : p.Proper) {d : Driver} {c : Command} {f : QueryFunction}
    (h : d.queryFunction c p = .ok f) : f.Sealed := sealed_of_makes hp (makes_queryFunction h)

end Driver
end QueryClient
