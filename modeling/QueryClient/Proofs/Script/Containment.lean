/-
  QueryClient/Proofs/Script/Containment.lean
  ==========================================
  **Declarations are contained if what is put into them is.** A type expression, an
  interface, a literal and a function each write brackets of their own, always in pairs,
  around texts that they are given. So it is enough to look at these texts: the names in a
  type expression (`TypeExpr.contained_text`), the properties of an object literal
  (`ObjectLiteral.contained_layout`), the fields of an interface and the body of a function.
-/
import QueryClient.Proofs.Script.Nesting

namespace QueryClient.Script

/-! ### Type expressions -/

namespace TypeExpr

mutual

/-- The names in a type expression, those of fields included. -/
def names : TypeExpr → List String
  | .primitive _ => []
  | .nullable t => t.names
  | .array t => t.names
  | .named name => [name]
  | .generic base args => base :: namesAll args
  | .object fields => namesFields fields
  | .union ts => namesAll ts
  | .unit => []

def namesAll : List TypeExpr → List String
  | [] => []
  | t :: ts => t.names ++ namesAll ts

def namesFields : List (String × TypeExpr) → List String
  | [] => []
  | (name, t) :: fs => name :: t.names ++ namesFields fs

end

theorem names_orNull (t : TypeExpr) : t.orNull.names = t.names := by
  cases t <;> rfl

theorem names_arrays (n : Nat) (t : TypeExpr) : (arrays n t).names = t.names := by
  induction n with
  | zero => rfl
  | succ n ih => exact ih

theorem contained_primitive (p : Primitive) : Contained p.text := by
  cases p <;> decide

mutual

/-- The text of a type expression is contained if the names in it are. -/
theorem contained_text (t : TypeExpr) (h : ∀ name ∈ t.names, Contained name) :
    Contained t.text := by
  cases t with
  | primitive p => exact contained_primitive p
  | nullable t =>
    rw [text]
    exact (contained_text t h).append (by decide)
  | array t =>
    have ht := contained_text t h
    rw [text]
    apply contained_ite
    · have hopen : Shifts [] ("(" ++ t.text) [')'] :=
        Shifts.append_contained (by decide) ht
      exact hopen.append (by decide)
    · exact ht.append (by decide)
  | named name =>
    rw [text]
    exact h name (List.mem_singleton_self name)
  | generic base args =>
    have hbase := h base List.mem_cons_self
    have hargs := contained_texts args fun name hname => h name (List.mem_cons_of_mem _ hname)
    cases args with
    | nil =>
      rw [text]
      exact hbase
    | cons a as =>
      rw [text]
      exact ((hbase.append (by decide)).append (contained_intercalate (by decide) hargs)).append
        (by decide)
  | object fields =>
    have hfields := contained_fieldTexts fields h
    cases fields with
    | nil =>
      rw [text]
      decide
    | cons f fs =>
      have hopen : Shifts [] ("\x7b " ++ "; ".intercalate (fieldTexts (f :: fs))) ['\x7d'] :=
        Shifts.append_contained (by decide) (contained_intercalate (by decide) hfields)
      rw [text]
      exact hopen.append (by decide)
  | union ts =>
    rw [text]
    exact contained_intercalate (by decide) (contained_texts ts h)
  | unit =>
    rw [text]
    decide

theorem contained_texts (ts : List TypeExpr) (h : ∀ name ∈ namesAll ts, Contained name) :
    ∀ s ∈ texts ts, Contained s := by
  cases ts with
  | nil => exact List.forall_mem_nil _
  | cons t ts =>
    obtain ⟨ht, hts⟩ := List.forall_mem_append.mp h
    exact List.forall_mem_cons.mpr ⟨contained_text t ht, contained_texts ts hts⟩

theorem contained_fieldTexts (fs : List (String × TypeExpr))
    (h : ∀ name ∈ namesFields fs, Contained name) : ∀ s ∈ fieldTexts fs, Contained s := by
  cases fs with
  | nil => exact List.forall_mem_nil _
  | cons f fs =>
    obtain ⟨name, t⟩ := f
    obtain ⟨hhead, hfs⟩ := List.forall_mem_append.mp h
    obtain ⟨hname, ht⟩ := List.forall_mem_cons.mp hhead
    exact List.forall_mem_cons.mpr
      ⟨(hname.append (by decide)).append (contained_text t ht), contained_fieldTexts fs hfs⟩

end

end TypeExpr

/-! ### Literals -/

theorem contained_commaList {bound : List String} (h : ∀ e ∈ bound, Contained e) :
    Contained (commaList (bound.map .code)) := by
  apply contained_intercalate (by decide)
  intro s hs
  rw [List.map_map, List.mem_map] at hs
  obtain ⟨e, he, rfl⟩ := hs
  exact h e he

theorem contained_arrayLiteral {bound : List String} (h : ∀ e ∈ bound, Contained e) :
    Contained (arrayLiteral (bound.map .code)) := by
  have hopen : Shifts [] ("[" ++ commaList (bound.map .code)) [']'] :=
    Shifts.append_contained (by decide) (contained_commaList h)
  exact hopen.append (by decide)

theorem Property.contained_text {p : Property} (hkey : Contained p.key)
    (hvalue : Contained p.value.text) : Contained p.text :=
  ((hkey.append (by decide)).append hvalue).append (by decide)

/-- An object literal may stand inside brackets that are opened before it and closed
    behind it. -/
theorem ObjectLiteral.contained_layout {object : ObjectLiteral} {before after : String}
    {expected : List Char} (hobject : ∀ p ∈ object, Contained p.text)
    (hbefore : Shifts [] before expected) (hafter : Shifts expected after []) :
    Layout.Contained [object.layout before after] := by
  have hopen : Shifts [] "\x7b" ['\x7d'] := by decide
  have hclose : Shifts ['\x7d'] "\x7d" [] := by decide
  rw [layout]
  by_cases hempty : object.isEmpty = true
  · rw [if_pos hempty]
    exact Layout.contained_line ((hbefore.append_contained (by decide)).append hafter)
  · rw [if_neg hempty]
    exact Layout.contained_block (hbefore.append (hopen.above expected))
      (Layout.contained_lines hobject) ((hclose.above expected).append hafter)

/-! ### Declarations -/

theorem contained_keyword (applies : Bool) {word : String} (h : Contained word) :
    Contained (keyword applies word) := by
  cases applies with
  | false => exact (by decide : Contained "")
  | true => exact h.append (by decide)

theorem Import.contained_nameList {names : List String} (h : ∀ name ∈ names, Contained name) :
    Contained (nameList names) := by
  have hopen : Shifts [] ("\x7b " ++ ", ".intercalate names) ['\x7d'] :=
    Shifts.append_contained (by decide) (contained_intercalate (by decide) h)
  exact hopen.append (by decide)

theorem Import.contained_text {i : Import} (hlibrary : Contained i.library)
    (hdefault : ∀ name ∈ i.default?, Contained name) (hnames : ∀ name ∈ i.names, Contained name) :
    Contained i.text := by
  obtain ⟨library, default?, names, typesOnly⟩ := i
  have hsource : Contained ("\"" ++ library ++ "\";") :=
    (Contained.append (by decide) hlibrary).append (by decide)
  have hhead : Contained ("import " ++ keyword typesOnly "type") :=
    Contained.append (by decide) (contained_keyword typesOnly (by decide))
  have hlist := contained_nameList hnames
  cases default? with
  | none =>
    cases names with
    | nil => exact Contained.append (by decide) hsource
    | cons n ns => exact ((hhead.append hlist).append (by decide)).append hsource
  | some d =>
    have hd := hhead.append (hdefault d rfl)
    cases names with
    | nil => exact (hd.append (by decide)).append hsource
    | cons n ns => exact (((hd.append (by decide)).append hlist).append (by decide)).append hsource

theorem TypeAlias.contained_text {a : TypeAlias} (hname : Contained a.name)
    (htype : ∀ name ∈ a.type.names, Contained name) : Contained a.text :=
  ((((contained_keyword _ (by decide)).append (by decide)).append hname).append
    (by decide)).append (a.type.contained_text htype) |>.append (by decide)

theorem Field.contained_text {f : Field} (hname : Contained f.name)
    (htype : ∀ name ∈ f.type.names, Contained name) : Contained f.text :=
  ((hname.append (contained_ite (by decide) (by decide))).append (by decide)).append
    (f.type.contained_text htype)

theorem Interface.contained_layout {i : Interface} (hname : Contained i.name)
    (hfields : ∀ f ∈ i.fields, Contained f.text) : Layout.Contained [i.layout] := by
  have hhead : Shifts [] (keyword i.exported "export" ++ "interface " ++ i.name ++ " \x7b")
      ['\x7d'] :=
    Shifts.append (((contained_keyword _ (by decide)).append (by decide)).append hname) (by decide)
  have hlines : ∀ f ∈ i.fields, Contained (f.text ++ ";") := fun f hf =>
    (hfields f hf).append (by decide)
  rw [layout]
  by_cases hempty : i.fields.isEmpty = true
  · rw [if_pos hempty]
    exact Layout.contained_line (hhead.append (by decide))
  · rw [if_neg hempty]
    exact Layout.contained_block hhead (Layout.contained_lines hlines) (by decide)

theorem Constant.contained_typed {type? : Option TypeExpr}
    (h : ∀ t ∈ type?, Contained t.text) : Contained (ascription type?) := by
  cases type? with
  | none => exact (by decide : Contained "")
  | some t => exact Contained.append (by decide) (h t rfl)

theorem Function.contained_layout {f : Function} (hname : Contained f.name)
    (hparams : ∀ p ∈ f.params, Contained p.text) (hreturns : ∀ t ∈ f.returns?, Contained t.text)
    (hbody : Layout.Contained f.body) : Layout.Contained [f.layout] := by
  have hwords : Contained (keyword f.exported "export" ++ keyword f.isAsync "async" ++
      "function " ++ f.name) :=
    (((contained_keyword _ (by decide)).append (contained_keyword _ (by decide))).append
      (by decide)).append hname
  have hparamList : Contained (", ".intercalate (f.params.map Field.text)) :=
    contained_intercalate (by decide) (List.forall_mem_map.mpr hparams)
  have hopen : Shifts [] (keyword f.exported "export" ++ keyword f.isAsync "async" ++
      "function " ++ f.name ++ "(" ++ ", ".intercalate (f.params.map Field.text)) [')'] :=
    (Shifts.append hwords (by decide)).append_contained hparamList
  have hsignature : Shifts [] f.signature ['\x7d'] :=
    ((hopen.append (by decide)).append (Constant.contained_typed hreturns)).append (by decide)
  exact Layout.contained_block hsignature hbody (by decide)

end QueryClient.Script
