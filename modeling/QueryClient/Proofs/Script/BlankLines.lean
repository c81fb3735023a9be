/-
  QueryClient/Proofs/Script/BlankLines.lean
  =========================================
  **Where empty lines can stand.** A declaration that is no constant is written without
  empty lines: no text that goes into one of its lines has a line feed, and no line is
  empty (`Layout.Solid`). A constant shows the text that it is bound to, empty lines
  included, but neither its first nor its last line is empty.

  So every declaration is `Framed`: it begins with something else than a line feed and ends
  with one and no more. Joined by a line feed, framed texts stand apart by exactly one
  empty line, and two empty lines in a row are inside one of them
  (`exists_part_of_blanks`).
-/
import Mathlib.Data.List.Chain
import QueryClient.Proofs.Script.Containment
import QueryClient.Proofs.Script.TemplateLiteral

namespace QueryClient.Script

/-! ### Texts in one line -/

/-- A text without a line feed. -/
def Unbroken (s : String) : Prop := '\n' ∉ s.toList

instance (s : String) : Decidable (Unbroken s) := inferInstanceAs (Decidable ('\n' ∉ s.toList))

@[simp] theorem unbroken_append {s t : String} : Unbroken (s ++ t) ↔ Unbroken s ∧ Unbroken t := by
  simp [Unbroken]

theorem unbroken_intercalate {t : String} {ss : List String} (ht : Unbroken t)
    (hss : ∀ s ∈ ss, Unbroken s) : Unbroken (t.intercalate ss) := by
  induction ss with
  | nil => exact (by decide : Unbroken "")
  | cons s ss ih =>
    obtain ⟨hs, hrest⟩ := List.forall_mem_cons.mp hss
    cases ss with
    | nil => simpa using hs
    | cons s' ss =>
      rw [String.intercalate_cons_cons]
      simp [hs, ht, ih hrest]

theorem unbroken_of_isIdentifier {s : String} (h : Naming.isIdentifier s.toList = true) :
    Unbroken s := by
  intro hmem
  have hfeed := List.all_eq_true.mp (Naming.all_of_isIdentifier h) '\n' hmem
  cases hfeed

theorem unbroken_repr (n : Nat) : Unbroken n.repr := by
  intro hmem
  have hfeed := List.all_eq_true.mp (Naming.all_repr n) '\n' hmem
  cases hfeed

theorem unbroken_keyword (applies : Bool) {word : String} (h : Unbroken word) :
    Unbroken (keyword applies word) := by
  cases applies <;> simp +decide [keyword, h]

/-! ### Type expressions -/

namespace TypeExpr

theorem unbroken_primitive (p : Primitive) : Unbroken p.text := by
  cases p <;> decide

mutual

/-- The text of a type expression stands in one line if the names in it do. -/
theorem unbroken_text (t : TypeExpr) (h : ∀ name ∈ t.names, Unbroken name) :
    Unbroken t.text := by
  cases t with
  | primitive p => exact unbroken_primitive p
  | nullable t =>
    have ht := unbroken_text t h
    simp +decide [text, ht]
  | array t =>
    have ht := unbroken_text t h
    rw [text]
    split <;> simp +decide [ht]
  | named name =>
    rw [text]
    exact h name (List.mem_singleton_self name)
  | generic base args =>
    obtain ⟨hbase, hargs⟩ := List.forall_mem_cons.mp h
    have htexts := unbroken_intercalate (by decide : Unbroken ", ") (unbroken_texts args hargs)
    cases args with
    | nil => simpa [text] using hbase
    | cons a as => simp +decide [text, hbase, htexts]
  | object fields =>
    have htexts := unbroken_intercalate (by decide : Unbroken "; ") (unbroken_fieldTexts fields h)
    cases fields with
    | nil => exact (by decide : Unbroken "\x7b\x7d")
    | cons f fs => simp +decide [text, htexts]
  | union ts =>
    rw [text]
    exact unbroken_intercalate (by decide) (unbroken_texts ts h)
  | unit => exact (by decide : Unbroken "void")

theorem unbroken_texts (ts : List TypeExpr) (h : ∀ name ∈ namesAll ts, Unbroken name) :
    ∀ s ∈ texts ts, Unbroken s := by
  cases ts with
  | nil => exact List.forall_mem_nil _
  | cons t ts =>
    obtain ⟨ht, hts⟩ := List.forall_mem_append.mp h
    exact List.forall_mem_cons.mpr ⟨unbroken_text t ht, unbroken_texts ts hts⟩

theorem unbroken_fieldTexts (fs : List (String × TypeExpr))
    (h : ∀ name ∈ namesFields fs, Unbroken name) : ∀ s ∈ fieldTexts fs, Unbroken s := by
  cases fs with
  | nil => exact List.forall_mem_nil _
  | cons f fs =>
    obtain ⟨name, t⟩ := f
    obtain ⟨hhead, hfs⟩ := List.forall_mem_append.mp h
    obtain ⟨hname, ht⟩ := List.forall_mem_cons.mp hhead
    have htext := unbroken_text t ht
    exact List.forall_mem_cons.mpr ⟨by simp +decide [hname, htext], unbroken_fieldTexts fs hfs⟩

end

end TypeExpr

theorem Field.unbroken_text {f : Field} (hname : Unbroken f.name)
    (htype : ∀ name ∈ f.type.names, Unbroken name) : Unbroken f.text := by
  have ht := f.type.unbroken_text htype
  unfold text
  split <;> simp +decide [hname, ht]

theorem Constant.unbroken_typed {type? : Option TypeExpr}
    (h : ∀ t ∈ type?, ∀ name ∈ t.names, Unbroken name) : Unbroken (ascription type?) := by
  cases type? with
  | none => exact (by decide : Unbroken "")
  | some t =>
    have ht := t.unbroken_text (h t rfl)
    simp +decide [ascription, ht]

/-! ### Layouts without empty lines -/

/-- A line that is there to be seen. -/
structure IsLine (s : String) : Prop where
  nonempty : s ≠ ""
  unbroken : Unbroken s

namespace Layout

/-- No line of the layouts is empty, and none is broken in two. -/
def Solid (ls : List Layout) : Prop := ∀ depth, ∀ line ∈ linesAll depth ls, IsLine line.2

theorem solid_nil : Solid [] := by
  intro depth line hline
  cases hline

theorem solid_append {ls rest : List Layout} (hls : Solid ls) (hrest : Solid rest) :
    Solid (ls ++ rest) := by
  intro depth
  rw [linesAll_append]
  exact List.forall_mem_append.mpr ⟨hls depth, hrest depth⟩

theorem solid_cons {l : Layout} {rest : List Layout} (hl : Solid [l]) (hrest : Solid rest) :
    Solid (l :: rest) := solid_append hl hrest

theorem solid_line {s : String} (h : IsLine s) : Solid [.line s] := by
  intro depth line hline
  simp only [linesAll, lines, List.append_nil, List.mem_singleton] at hline
  rw [hline]
  exact h

theorem solid_lines {α : Type} {text : α → String} {xs : List α} (h : ∀ x ∈ xs, IsLine (text x)) :
    Solid (xs.map fun x => .line (text x)) := by
  induction xs with
  | nil => exact solid_nil
  | cons x xs ih =>
    obtain ⟨hx, hxs⟩ := List.forall_mem_cons.mp h
    exact solid_cons (solid_line hx) (ih hxs)

theorem solid_block {header close : String} {body : List Layout} (hheader : IsLine header)
    (hbody : Solid body) (hclose : IsLine close) : Solid [.block header body (some close)] := by
  intro depth line hline
  simp only [linesAll, lines, List.append_nil, List.mem_cons, List.mem_append, Option.map_some,
    Option.toList_some, List.not_mem_nil, or_false] at hline
  rcases hline with rfl | hline | rfl
  · exact hheader
  · exact hbody (depth + 1) line hline
  · exact hclose

end Layout

/-! ### Declarations without empty lines -/

theorem ObjectLiteral.solid_layout {object : ObjectLiteral} {before after : String}
    (hobject : ∀ p ∈ object, Unbroken p.text) (hbefore : Unbroken before)
    (hafter : Unbroken after) : Layout.Solid [object.layout before after] := by
  unfold layout
  split
  · exact Layout.solid_line ⟨by simp, by simp +decide [hbefore, hafter]⟩
  · refine Layout.solid_block ⟨by simp, by simp +decide [hbefore]⟩ (Layout.solid_lines ?_)
      ⟨by simp, by simp +decide [hafter]⟩
    intro p hp
    exact ⟨by simp [Property.text], hobject p hp⟩

theorem Import.isLine_text {i : Import} (hlibrary : Unbroken i.library)
    (hdefault : ∀ name ∈ i.default?, Unbroken name) (hnames : ∀ name ∈ i.names, Unbroken name) :
    IsLine i.text := by
  obtain ⟨library, default?, names, typesOnly⟩ := i
  have hlist := unbroken_intercalate (by decide : Unbroken ", ") hnames
  have hword := unbroken_keyword typesOnly (by decide : Unbroken "type")
  dsimp only at hlibrary hdefault hlist
  cases default? with
  | none =>
    cases names with
    | nil => exact ⟨by simp [text], by simp +decide [text, hlibrary]⟩
    | cons n ns => exact ⟨by simp [text], by simp +decide [text, nameList, hlibrary, hlist, hword]⟩
  | some d =>
    have hd : Unbroken d := hdefault d rfl
    cases names with
    | nil => exact ⟨by simp [text], by simp +decide [text, hlibrary, hword, hd]⟩
    | cons n ns => exact ⟨by simp [text], by simp +decide [text, nameList, hlibrary, hlist, hword, hd]⟩

theorem TypeAlias.isLine_text {a : TypeAlias} (hname : Unbroken a.name)
    (htype : ∀ name ∈ a.type.names, Unbroken name) : IsLine a.text := by
  have hword := unbroken_keyword a.exported (by decide : Unbroken "export")
  have ht := a.type.unbroken_text htype
  exact ⟨by simp [text], by simp +decide [text, hword, hname, ht]⟩

theorem Interface.solid_layout {i : Interface} (hname : Unbroken i.name)
    (hfields : ∀ f ∈ i.fields, Unbroken f.text) : Layout.Solid [i.layout] := by
  have hword := unbroken_keyword i.exported (by decide : Unbroken "export")
  unfold layout
  dsimp only
  split
  · exact Layout.solid_line ⟨by simp, by simp +decide [hword, hname]⟩
  · refine Layout.solid_block ⟨by simp, by simp +decide [hword, hname]⟩ (Layout.solid_lines ?_)
      ⟨by simp, by decide⟩
    intro f hf
    exact ⟨by simp, by simp +decide [hfields f hf]⟩

theorem Function.unbroken_signature {f : Function} (hname : Unbroken f.name)
    (hparams : ∀ p ∈ f.params, Unbroken p.text)
    (hreturns : ∀ t ∈ f.returns?, ∀ name ∈ t.names, Unbroken name) : Unbroken f.signature := by
  have hexport := unbroken_keyword f.exported (by decide : Unbroken "export")
  have hasync := unbroken_keyword f.isAsync (by decide : Unbroken "async")
  have hlist := unbroken_intercalate (by decide : Unbroken ", ") (List.forall_mem_map.mpr hparams)
  have htyped := Constant.unbroken_typed hreturns
  simp +decide [signature, hexport, hasync, hname, hlist, htyped]

theorem Function.solid_layout {f : Function} (hsignature : Unbroken f.signature)
    (hbody : Layout.Solid f.body) : Layout.Solid [f.layout] :=
  Layout.solid_block ⟨by simp [signature], hsignature⟩ hbody ⟨by simp, by decide⟩

/-! ### Lines in a row -/

/-- Rows as they stand in a text. -/
def joinRows (rows : List String) : String := String.join (rows.map (· ++ "\n"))

theorem joinRows_cons (row : String) (rows : List String) :
    joinRows (row :: rows) = row ++ "\n" ++ joinRows rows := by
  simp [joinRows]

theorem joinRows_append (rows rest : List String) :
    joinRows (rows ++ rest) = joinRows rows ++ joinRows rest := by
  simp [joinRows]

theorem IsLine.toList_ne_nil {s : String} (h : IsLine s) : s.toList ≠ [] := by
  simpa using h.nonempty

theorem IsLine.head?_ne {s : String} (h : IsLine s) : s.toList.head? ≠ some '\n' := by
  intro hhead
  exact h.unbroken (List.mem_of_mem_head? hhead)

theorem IsLine.getLast?_ne {s : String} (h : IsLine s) : s.toList.getLast? ≠ some '\n' := by
  intro hlast
  exact h.unbroken (List.mem_of_mem_getLast? hlast)

theorem head?_joinRows_ne {rows : List String} (h : ∀ row ∈ rows, IsLine row) :
    (joinRows rows).toList.head? ≠ some '\n' := by
  cases rows with
  | nil => simp [joinRows]
  | cons row rows =>
    have hrow := h row List.mem_cons_self
    simpa [joinRows_cons, List.head?_append_of_ne_nil _ hrow.toList_ne_nil] using hrow.head?_ne

theorem Layout.exists_rows {ls : List Layout} (h : Solid ls) (hne : ls ≠ []) :
    ∃ rows, rows ≠ [] ∧ (∀ row ∈ rows, IsLine row) ∧ render ls = joinRows rows := by
  refine ⟨(linesAll 0 ls).map fun l => Page.indentation .standard l.1 ++ l.2, ?_, ?_, ?_⟩
  · cases ls with
    | nil => exact absurd rfl hne
    | cons l ls => cases l <;> simp [linesAll, lines]
  · intro row hrow
    obtain ⟨line, hline, rfl⟩ := List.mem_map.mp hrow
    have hisLine := h 0 line hline
    have hindentation (depth : Nat) : Unbroken (Page.indentation .standard depth) := by
      induction depth with
      | zero => exact (by decide : Unbroken "")
      | succ depth ih => exact unbroken_append.mpr ⟨by decide, ih⟩
    exact ⟨by simp [hisLine.nonempty], by simp [hisLine.unbroken, hindentation]⟩
  · rw [render_eq, Margin.writeAll, joinRows, List.map_map]
    congr 1
    apply List.map_congr_left
    intro line hline
    exact if_neg (h 0 line hline).nonempty

/-! ### Framed texts -/

/-- A text that begins with something else than a line feed and ends with exactly one. -/
structure Framed (s : String) : Prop where
  nonempty : s ≠ ""
  front : s.toList.head? ≠ some '\n'
  back : ∃ body, s = body ++ "\n" ∧ body.toList.getLast? ≠ some '\n'

/-- A text in which no two line feeds follow each other. -/
def Seamless (s : String) : Prop := ∀ before after : String, s ≠ before ++ "\n\n" ++ after

theorem framed_joinRows {rows : List String} (hne : rows ≠ []) (h : ∀ row ∈ rows, IsLine row) :
    Framed (joinRows rows) := by
  rcases List.eq_nil_or_concat' rows with rfl | ⟨init, last, rfl⟩
  · exact absurd rfl hne
  · have hlast : IsLine last := h last (by simp)
    have htext : joinRows (init ++ [last]) = (joinRows init ++ last) ++ "\n" := by
      rw [joinRows_append, joinRows_cons, ← String.append_assoc, ← String.append_assoc]
      simp [joinRows]
    refine ⟨by simp [htext], head?_joinRows_ne h, joinRows init ++ last, htext, ?_⟩
    rw [String.toList_append, List.getLast?_append_of_ne_nil _ hlast.toList_ne_nil]
    exact hlast.getLast?_ne

theorem seamless_joinRows {rows : List String} (h : ∀ row ∈ rows, IsLine row) :
    Seamless (joinRows rows) := by
  -- of two neighbours, at most one is a line feed
  have hchain : (joinRows rows).toList.IsChain fun c d => c = '\n' → d ≠ '\n' := by
    induction rows with
    | nil => simp [joinRows]
    | cons row rows ih =>
      obtain ⟨hrow, hrows⟩ := List.forall_mem_cons.mp h
      have hinside : row.toList.IsChain fun c d => c = '\n' → d ≠ '\n' := by
        apply List.Pairwise.isChain
        apply List.pairwise_of_forall_mem_list
        rintro c hc d hd rfl
        exact absurd hc hrow.unbroken
      have hfeed : ('\n' :: (joinRows rows).toList).IsChain fun c d => c = '\n' → d ≠ '\n' := by
        rw [List.isChain_cons]
        refine ⟨?_, ih hrows⟩
        rintro d hd - rfl
        exact head?_joinRows_ne hrows hd
      have htext : (joinRows (row :: rows)).toList =
          row.toList ++ '\n' :: (joinRows rows).toList := by
        simp [joinRows_cons]
      rw [htext, List.isChain_append]
      refine ⟨hinside, hfeed, ?_⟩
      rintro c hc d hd rfl
      exact absurd hc hrow.getLast?_ne
  intro before after heq
  rw [heq, String.toList_append, String.toList_append, List.append_assoc,
    List.isChain_append] at hchain
  have hfeeds := (List.isChain_cons_cons.mp hchain.2.1).1
  exact hfeeds rfl rfl

namespace Declaration

theorem layout_ne_nil (decl : Declaration) : decl.layout ≠ [] := by
  cases decl with
  | constant c =>
    simp only [layout, Constant.layout]
    split
    · rename_i hnil
      exact absurd hnil (Constant.splitLines_ne_nil _)
    · simp
  | _ => simp [layout]

theorem framed_of_solid {decl : Declaration} (h : Layout.Solid decl.layout) :
    Framed decl.text := by
  obtain ⟨rows, hrows, hlines, htext⟩ := Layout.exists_rows h decl.layout_ne_nil
  rw [text, htext]
  exact framed_joinRows hrows hlines

theorem seamless_of_solid {decl : Declaration} (h : Layout.Solid decl.layout) :
    Seamless decl.text := by
  obtain ⟨rows, -, hlines, htext⟩ := Layout.exists_rows h decl.layout_ne_nil
  rw [text, htext]
  exact seamless_joinRows hlines

/-- A constant is framed, whatever its value. -/
theorem framed_constant (c : Constant) : Framed (constant c).text := by
  have hbody : (constant c).text = (c.head ++ c.value.source ++ ";") ++ "\n" := by
    simp [Constant.text_eq, ← String.toList_inj]
  refine ⟨by simp [hbody], ?_, _, hbody, by simp⟩
  rw [hbody, Constant.head]
  cases c.exported <;> simp [keyword]

theorem exists_text_function (f : Function) : ∃ body, (function f).text = body ++ "\x7d\n" := by
  have hlines : Layout.linesAll 0 (function f).layout =
      ((0, f.signature) :: Layout.linesAll 1 f.body) ++ [(0, "\x7d")] := by
    simp [layout, Function.layout, Layout.linesAll, Layout.lines]
  have hclose : Margin.standard.writeAll [(0, "\x7d")] = "\x7d\n" := by decide
  exact ⟨_, by rw [text, Layout.render_eq, hlines, Margin.writeAll_append, hclose]⟩

end Declaration

/-! ### Parts and what stands between them -/

theorem intercalate_cons (t p : String) (ps : List String) :
    t.intercalate (p :: ps) = p ++ String.join (ps.map (t ++ ·)) := by
  induction ps generalizing p with
  | nil => simp
  | cons p' ps ih => simp [String.intercalate_cons_cons, ih, String.append_assoc]

theorem intercalate_split (front : List String) (p : String) (back : List String) :
    "\n".intercalate (front ++ p :: back) =
      joinRows front ++ p ++ String.join (back.map ("\n" ++ ·)) := by
  induction front with
  | nil => simp [intercalate_cons, joinRows]
  | cons q front ih =>
    have hne : front ++ p :: back ≠ [] := by simp
    rw [List.cons_append, String.intercalate_cons_of_ne_nil hne, ih, joinRows_cons]
    simp [String.append_assoc]

theorem head?_intercalate_ne {t p : String} {ps : List String} (h : Framed p) :
    (t.intercalate (p :: ps)).toList.head? ≠ some '\n' := by
  have hne : p.toList ≠ [] := by simpa using h.nonempty
  rw [intercalate_cons, String.toList_append, List.head?_append_of_ne_nil _ hne]
  exact h.front

/-- Three line feeds in a row do not stretch across the end of a framed text. -/
theorem blanks_beside {p rest before after : String} (hp : Framed p)
    (hrest : rest.toList.head? ≠ some '\n')
    (h : p ++ "\n" ++ rest = before ++ "\n\n\n" ++ after) :
    (∃ inBack, p = before ++ "\n\n\n" ++ inBack ∧ after = inBack ++ "\n" ++ rest) ∨
      ∃ inRest, before = p ++ "\n" ++ inRest ∧ rest = inRest ++ "\n\n\n" ++ after := by
  have hchars : p.toList ++ '\n' :: rest.toList =
      before.toList ++ '\n' :: '\n' :: '\n' :: after.toList := by
    simpa [← String.toList_inj] using h
  have hfeed (l : List Char) : rest.toList ≠ '\n' :: l := by
    intro hl
    simp [hl] at hrest
  rcases List.append_eq_append_iff.mp hchars with ⟨as, hbefore, hin⟩ | ⟨bs, hpart, hin⟩
  · right
    cases as with
    | nil => exact absurd (List.cons.inj hin).2 (hfeed _)
    | cons c as =>
      simp only [List.cons_append, List.cons.injEq] at hin
      obtain ⟨rfl, hin⟩ := hin
      exact ⟨String.ofList as, by simp [← String.toList_inj, hbefore],
        by simp [← String.toList_inj, hin]⟩
  · left
    -- how many of the line feeds are in the first text
    match bs with
    | [] => exact absurd (List.cons.inj hin).2.symm (hfeed _)
    | [c] => exact absurd (List.cons.inj (List.cons.inj hin).2).2.symm (hfeed _)
    | [c, d] =>
      obtain ⟨body, rfl, hlast⟩ := hp.back
      obtain ⟨rfl, hin⟩ := List.cons.inj hin
      have hbody : body.toList = before.toList ++ ['\n'] := by
        simpa using congrArg List.dropLast hpart
      simp [hbody] at hlast
    | c :: d :: e :: inBack =>
      simp only [List.cons_append, List.cons.injEq] at hin
      obtain ⟨rfl, rfl, rfl, hin⟩ := hin
      exact ⟨String.ofList inBack, by simp [← String.toList_inj, hpart],
        by simp [← String.toList_inj, hin]⟩

/-- **Two empty lines in a row are inside a part.** Where framed texts are joined by a line
    feed, three line feeds in a row stand in one of them, and in the same place there. -/
theorem exists_part_of_blanks {parts : List String} (hne : parts ≠ []) (h : ∀ p ∈ parts, Framed p)
    {before after : String} (heq : "\n".intercalate parts = before ++ "\n\n\n" ++ after) :
    ∃ front p back inFront inBack, parts = front ++ p :: back ∧
      p = inFront ++ "\n\n\n" ++ inBack ∧ before = joinRows front ++ inFront ∧
      after = inBack ++ String.join (back.map ("\n" ++ ·)) := by
  induction parts generalizing before with
  | nil => exact absurd rfl hne
  | cons p parts ih =>
    obtain ⟨hp, hparts⟩ := List.forall_mem_cons.mp h
    cases parts with
    | nil =>
      rw [String.intercalate_singleton] at heq
      exact ⟨[], p, [], before, after, rfl, heq, by simp [joinRows], by simp⟩
    | cons p' parts =>
      rw [String.intercalate_cons_cons] at heq
      rcases blanks_beside hp (head?_intercalate_ne (hparts p' List.mem_cons_self)) heq with
        ⟨inBack, hin, rfl⟩ | ⟨inRest, rfl, hin⟩
      · refine ⟨[], p, p' :: parts, before, inBack, rfl, hin, by simp [joinRows], ?_⟩
        simp [intercalate_cons, String.append_assoc]
      · obtain ⟨front, q, back, inFront, inBack, hsplit, hq, rfl, hback⟩ :=
          ih (List.cons_ne_nil p' parts) hparts hin
        refine ⟨p :: front, q, back, inFront, inBack, by rw [hsplit, List.cons_append], hq, ?_,
          hback⟩
        simp [joinRows_cons, String.append_assoc]

end QueryClient.Script
