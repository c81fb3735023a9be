/-
  QueryClient/Proofs/Driver/Lines.lean
  ====================================
  **The functions of every driver are written without empty lines.** The texts that a body
  is made of are words of the driver and names of the plan, and none of them has a line
  feed; every line also has words around them, so that none is empty.
-/
import QueryClient.Proofs.Driver.Containment
import QueryClient.Proofs.Script.BlankLines

namespace QueryClient

open Script

/-! ### Calls -/

theorem unbroken_commaList {bound : List String} (h : ∀ e ∈ bound, Unbroken e) :
    Unbroken (commaList (bound.map .code)) := by
  rw [commaList, map_text_code]
  exact unbroken_intercalate (by decide) h

theorem unbroken_arrayLiteral {bound : List String} (h : ∀ e ∈ bound, Unbroken e) :
    Unbroken (arrayLiteral (bound.map .code)) := by
  simp +decide [arrayLiteral, unbroken_commaList h]

theorem TextCall.unbroken_text {c : TextCall}
    (h : ∀ s ∈ (ClientCall.text c).slots, Unbroken s) : Unbroken c.text := by
  simp only [ClientCall.slots, List.forall_mem_cons] at h
  obtain ⟨hcallee, hquery, haccessor, hbound⟩ := h
  simp +decide [text, hcallee, hquery, haccessor, unbroken_arrayLiteral hbound]

theorem ClientCall.solid_layout {c : ClientCall} (h : ∀ s ∈ c.slots, Unbroken s)
    {before after : String} (hbefore : Unbroken before) (hafter : Unbroken after) :
    Layout.Solid [c.expression.layout before after] := by
  cases c with
  | settings callee yields queryKey query valuesKey bound more =>
    simp only [slots, List.cons_append, List.forall_mem_cons, List.forall_mem_append,
      List.forall_mem_map] at h
    obtain ⟨hcallee, hqueryKey, hquery, hvaluesKey, ⟨hbound, hyields⟩, hmore⟩ := h
    have hobject : ∀ p ∈ (⟨queryKey, .code query⟩ :: ⟨valuesKey, .array (bound.map .code)⟩ ::
        more : ObjectLiteral), Unbroken p.text := by
      refine List.forall_mem_cons.mpr ⟨?_, List.forall_mem_cons.mpr ⟨?_, hmore⟩⟩
      · simp +decide [Property.text, PropertyValue.text, hqueryKey, hquery]
      · simp +decide [Property.text, PropertyValue.text, hvaluesKey, unbroken_arrayLiteral hbound]
    refine ObjectLiteral.solid_layout hobject ?_ (by simp +decide [hafter])
    cases yields with
    | none => simp +decide [hbefore, hcallee]
    | some t =>
      have ht : Unbroken t.text := hyields _ (List.mem_singleton_self _)
      simp +decide [hbefore, hcallee, ht]
  | text c =>
    have htext := TextCall.unbroken_text h
    exact Layout.solid_line ⟨by simp [TextCall.text], by simp [hbefore, hafter, htext]⟩
  | prepared callee bound yields =>
    simp only [slots, List.cons_append, List.forall_mem_cons, List.forall_mem_append] at h
    obtain ⟨hcallee, hbound, hyields⟩ := h
    refine Layout.solid_line ⟨by simp, ?_⟩
    cases yields with
    | none => simp +decide [hbefore, hafter, hcallee, unbroken_commaList hbound]
    | some t =>
      have ht : Unbroken t.text := hyields _ (List.mem_singleton_self _)
      simp +decide [hbefore, hafter, hcallee, unbroken_commaList hbound, ht]

/-! ### Bodies -/

theorem unbroken_positionsFrom {fields : List String} (h : ∀ f ∈ fields, Unbroken f) (i : Nat) :
    ∀ p ∈ positionsFrom i fields, Unbroken p.text := by
  induction fields generalizing i with
  | nil => exact List.forall_mem_nil _
  | cons f fs ih =>
    obtain ⟨hf, hfs⟩ := List.forall_mem_cons.mp h
    refine List.forall_mem_cons.mpr ⟨?_, ih hfs (i + 1)⟩
    simp +decide [Property.text, PropertyValue.text, hf, unbroken_repr]

theorem solid_positionalRow {fields : List String} (h : ∀ f ∈ fields, Unbroken f)
    {before after : String} (hbefore : Unbroken before) (hafter : Unbroken after) :
    Layout.Solid [(positionalRow fields).layout before after] :=
  ObjectLiteral.solid_layout (unbroken_positionsFrom h 0) hbefore hafter

namespace QueryBody

theorem solid_bind {binding : String} {c : ClientCall} (hbinding : Unbroken binding)
    (hcall : ∀ s ∈ c.slots, Unbroken s) : Layout.Solid [bind binding c] :=
  ClientCall.solid_layout hcall (by simp +decide [hbinding]) (by decide)

theorem solid_guard {rows : String} (h : Unbroken rows) : Layout.Solid [guard rows] :=
  Layout.solid_block ⟨by simp, by simp +decide [h]⟩ (Layout.solid_line ⟨by simp, by decide⟩)
    ⟨by simp, by decide⟩

theorem solid_mapToNothing {rows : String} (h : Unbroken rows) :
    Layout.Solid [mapToNothing rows] :=
  Layout.solid_line ⟨by simp, by simp +decide [h]⟩

theorem solid_layout {b : QueryBody} (h : ∀ s ∈ b.slots, Unbroken s) : Layout.Solid b.layout := by
  cases b with
  | run c => exact ClientCall.solid_layout h (by decide) (by decide)
  | lastId c binding result =>
    simp only [slots, List.forall_mem_cons] at h
    obtain ⟨hbinding, hresult, hcall⟩ := h
    exact Layout.solid_cons (solid_bind hbinding hcall)
      (Layout.solid_line ⟨by simp, by simp +decide [hresult]⟩)
  | first c binding rows row =>
    simp only [slots, List.cons_append, List.forall_mem_cons, List.forall_mem_append] at h
    obtain ⟨hbinding, hrows, hcall, hfields⟩ := h
    refine Layout.solid_cons (solid_bind hbinding hcall) (Layout.solid_cons (solid_guard hrows) ?_)
    cases row with
    | nothing => exact Layout.solid_line ⟨by simp, by decide⟩
    | object fields =>
      exact Layout.solid_cons (Layout.solid_line ⟨by simp, by simp +decide [hrows]⟩)
        (solid_positionalRow hfields (by decide) (by decide))
  | every c binding rows row =>
    simp only [slots, List.cons_append, List.forall_mem_cons, List.forall_mem_append] at h
    obtain ⟨hbinding, hrows, hcall, hfields⟩ := h
    refine Layout.solid_cons (solid_bind hbinding hcall) ?_
    cases row with
    | nothing => exact solid_mapToNothing hrows
    | object fields =>
      exact Layout.solid_block ⟨by simp, by simp +decide [hrows]⟩
        (solid_positionalRow hfields (by decide) (by decide)) ⟨by simp, by decide⟩
  | mapped c row =>
    obtain ⟨hcall, hfields⟩ := List.forall_mem_append.mp h
    have htext := TextCall.unbroken_text hcall
    cases row with
    | nothing => exact solid_mapToNothing (by simp +decide [htext])
    | object fields => exact solid_positionalRow hfields (by simp +decide [htext]) (by decide)

end QueryBody

/-! ### Functions -/

namespace FunctionPlan.Proper

variable {p : FunctionPlan}

theorem unbroken_of_shows (hp : p.Proper) {s : String} (h : p.Shows s) : Unbroken s := by
  cases h with
  | word listed =>
    have hlisted : ∀ w ∈ vocabulary, Unbroken w := by decide
    exact hlisted s listed
  | query => exact unbroken_of_isIdentifier hp.queryConstant
  | bound isBound =>
    obtain ⟨name, hname, rfl⟩ := List.mem_map.mp isBound
    have hname := unbroken_of_isIdentifier (hp.argNames name hname)
    simp +decide [hname]
  | column isColumn => exact unbroken_of_isIdentifier (hp.columnNames s isColumn)

theorem unbroken_names_rowType (hp : p.Proper) : ∀ name ∈ p.rowType.names, Unbroken name := by
  unfold FunctionPlan.rowType
  cases hrow : p.rowType? with
  | none => exact List.forall_mem_nil _
  | some t => exact List.forall_mem_singleton.mpr (unbroken_of_isIdentifier (hp.rowType t hrow))

end FunctionPlan.Proper

namespace Driver

variable {p : FunctionPlan}

theorem unbroken_prepare (hp : p.Proper) (safeIntegers asArrays : Bool) :
    Unbroken (prepare safeIntegers p asArrays) := by
  have hmodes : Unbroken (preparedModes safeIntegers asArrays) := by
    cases safeIntegers <;> cases asArrays <;> decide
  have hquery := unbroken_of_isIdentifier hp.queryConstant
  unfold Unbroken at hmodes hquery ⊢
  rw [toList_prepare]
  simp [hmodes, hquery]

theorem solid_function (hp : p.Proper) {d : Driver} {f : QueryFunction} (h : p.Makes d f) :
    Layout.Solid [f.function.layout] := by
  refine Function.solid_layout (Function.unbroken_signature ?name ?params ?returns)
    (Layout.solid_append ?setup ?body)
  case name =>
    change Unbroken f.name
    rw [h.name]
    exact unbroken_of_isIdentifier hp.name
  case params =>
    change ∀ q ∈ f.connection :: (f.argsType?.map fun t => Field.required "args" (.named t)).toList,
      Unbroken q.text
    rw [h.connection, h.argsType]
    have hconnection : Unbroken d.connection.text := by
      cases d with
      | mysql2 o => exact (by decide : Unbroken "client: Client")
      | betterSqlite3 safe => exact (by decide : Unbroken "database: Database")
      | _ => decide
    refine List.forall_mem_cons.mpr ⟨hconnection, ?_⟩
    cases ht : p.argsType? with
    | none => exact List.forall_mem_nil _
    | some t =>
      have htype := unbroken_of_isIdentifier (hp.argsType t ht)
      exact List.forall_mem_singleton.mpr
        (Field.unbroken_text (by decide : Unbroken "args") (List.forall_mem_singleton.mpr htype))
  case returns =>
    rintro t ⟨⟩
    change ∀ name ∈ "Promise" :: (f.returns.names ++ []), Unbroken name
    rw [List.append_nil]
    refine List.forall_mem_cons.mpr ⟨by decide, ?_⟩
    intro name hname
    exact hp.unbroken_names_rowType name (h.returns name hname)
  case setup =>
    cases hs : f.setup? with
    | none => exact Layout.solid_nil
    | some s =>
      obtain ⟨safeIntegers, asArrays, rfl⟩ := h.setup s hs
      refine Layout.solid_line ⟨?_, unbroken_prepare hp safeIntegers asArrays⟩
      intro hempty
      have hchars := congrArg String.toList hempty
      rw [toList_prepare] at hchars
      simp at hchars
  case body =>
    apply QueryBody.solid_layout
    intro s hs
    exact hp.unbroken_of_shows (h.body s hs)

end Driver
end QueryClient
