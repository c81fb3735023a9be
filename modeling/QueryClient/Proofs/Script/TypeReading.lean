/-
  QueryClient/Proofs/Script/TypeReading.lean
  ==========================================
  **The text of a type says which type it is.** In the text a union has no brackets of
  its own, and null is one more alternative behind a bar; so the text cannot tell how
  unions and nulls were nested, nor a union of one from what it is a union of, nor a
  generic type without arguments from a name. It tells everything else, and this is what
  `TypeExpr.alternatives` keeps: the alternatives in order, and in each of them the
  element of an array, the arguments of a generic type and the fields of an object, each
  as alternatives again.

  The text is read back token by token, with a frame for every open bracket
  (`TypeExpr.read`). Brackets of an array take what stands right before them, a bar
  separates alternatives only. That the reader finds the alternatives of a type
  (`TypeExpr.shows_text`) is where every missing pair of parentheses is accounted for: an
  element written without them is not compound, and so leaves nothing before the last bar
  that the brackets could miss.
-/
import Mathlib.Data.List.Forall2
import QueryClient.Naming.Supply
import QueryClient.Script.TypeExpr

namespace QueryClient.Script

/-! ### Types up to the nesting of unions -/

/-- One alternative of a type. -/
inductive Alternative where
  | null
  | void
  | primitive (p : Primitive)
  | named (name : String) (args : List (List Alternative))
  | array (element : List Alternative)
  | object (fields : List (String × List Alternative))
deriving Inhabited

namespace TypeExpr

mutual

/-- The alternatives of a type in order, null being one of them. -/
def alternatives : TypeExpr → List Alternative
  | .primitive p => [.primitive p]
  | .nullable t => t.alternatives ++ [.null]
  | .array t => [.array t.alternatives]
  | .named name => [.named name []]
  | .generic base args => [.named base (alternativesEach args)]
  | .object fields => [.object (alternativesFields fields)]
  | .union ts => (alternativesEach ts).flatten
  | .unit => [.void]

def alternativesEach : List TypeExpr → List (List Alternative)
  | [] => []
  | t :: ts => t.alternatives :: alternativesEach ts

def alternativesFields : List (String × TypeExpr) → List (String × List Alternative)
  | [] => []
  | (name, t) :: fs => (name, t.alternatives) :: alternativesFields fs

end

end TypeExpr

/-! ### Tokens -/

/-- The characters that types are put together with. -/
def isMark (c : Char) : Bool :=
  [' ', '|', '(', ')', '[', ']', '<', '>', '\x7b', '\x7d', ',', ';', ':'].contains c

inductive Token where
  | word (text : String)
  | mark (c : Char)
deriving DecidableEq, Repr

def wordToken (word : List Char) : List Token :=
  if word = [] then [] else [.word (String.ofList word)]

/-- A space ends a word and is no token itself. -/
def markToken (c : Char) : List Token := if c = ' ' then [] else [.mark c]

/-- The tokens of a text that goes on with a word. -/
def tokensFrom (word : List Char) : List Char → List Token
  | [] => wordToken word
  | c :: cs =>
    if isMark c then wordToken word ++ (markToken c ++ tokensFrom [] cs)
    else tokensFrom (word ++ [c]) cs

def tokens (s : String) : List Token := tokensFrom [] s.toList

/-- A word that a type, or a field, can be called by: none of its characters is a mark. -/
def isWord (s : String) : Bool := !s.toList.isEmpty && s.toList.all fun c => !isMark c

/-- Every identifier is a word. -/
theorem isWord_of_isIdentifier {s : String} (h : Naming.isIdentifier s.toList = true) :
    isWord s = true := by
  have hmarks : ∀ c, Naming.isIdentifierChar c = true → isMark c = false := by
    intro c hc
    rw [isMark, ← Bool.not_eq_true, List.contains_iff_mem]
    intro hmem
    simp only [List.mem_cons, List.not_mem_nil, or_false] at hmem
    rcases hmem with rfl | rfl | rfl | rfl | rfl | rfl | rfl | rfl | rfl | rfl | rfl | rfl | rfl
    all_goals cases hc
  rw [isWord]
  cases hs : s.toList with
  | nil =>
    rw [hs] at h
    cases h
  | cons c cs =>
    rw [hs] at h
    have hall := (Bool.and_eq_true_iff.mp h).2
    rw [List.all_eq_true] at hall
    simp only [List.isEmpty_cons, Bool.not_false, Bool.true_and, List.all_eq_true]
    intro d hd
    rw [hmarks d (hall d hd)]
    rfl

theorem tokensFrom_append (word a : List Char) {c : Char} (hc : isMark c = true)
    (b : List Char) :
    tokensFrom word (a ++ c :: b) = tokensFrom word a ++ (markToken c ++ tokensFrom [] b) := by
  induction a generalizing word with
  | nil => simp [tokensFrom, hc]
  | cons d a ih =>
    rw [List.cons_append, tokensFrom, tokensFrom]
    by_cases hd : isMark d = true
    · rw [if_pos hd, if_pos hd, ih, List.append_assoc, List.append_assoc]
    · rw [if_neg hd, if_neg hd, ih]

theorem tokensFrom_of_all (word a : List Char) (h : ∀ c ∈ a, isMark c = false) :
    tokensFrom word a = wordToken (word ++ a) := by
  induction a generalizing word with
  | nil => rw [List.append_nil, tokensFrom]
  | cons c a ih =>
    obtain ⟨hc, ha⟩ := List.forall_mem_cons.mp h
    rw [tokensFrom, hc, if_neg Bool.false_ne_true, ih _ ha, List.append_assoc]
    rfl

theorem tokens_of_isWord {s : String} (h : isWord s = true) : tokens s = [.word s] := by
  obtain ⟨hne, hall⟩ := Bool.and_eq_true_iff.mp h
  have hmarks : ∀ c ∈ s.toList, isMark c = false := by
    intro c hc
    simpa using List.all_eq_true.mp hall c hc
  have hnil : s.toList ≠ [] := by simpa using hne
  rw [tokens, tokensFrom_of_all [] _ hmarks, List.nil_append, wordToken, if_neg hnil,
    String.ofList_toList]

/-- Texts have their tokens one after the other where the second starts with a mark. -/
theorem tokens_append {s t : String} {c : Char} {cs : List Char} (ht : t.toList = c :: cs)
    (hc : isMark c = true) : tokens (s ++ t) = tokens s ++ tokens t := by
  have hmark := tokensFrom_append [] [] hc cs
  rw [List.nil_append] at hmark
  rw [tokens, tokens, tokens, String.toList_append, ht, tokensFrom_append _ _ hc, hmark]
  rfl

/-- And where the first ends with one. -/
theorem append_tokens {s t : String} {c : Char} {cs : List Char} (hs : s.toList = cs ++ [c])
    (hc : isMark c = true) : tokens (s ++ t) = tokens s ++ tokens t := by
  rw [tokens, tokens, tokens, String.toList_append, hs, List.append_assoc,
    List.singleton_append, tokensFrom_append _ _ hc, tokensFrom_append _ _ hc, tokensFrom,
    wordToken, if_pos rfl, List.append_nil, List.append_assoc]

/-! ### The reader -/

/-- The words that stand for a type of the language itself. -/
def builtIn : List (String × Alternative) :=
  [("null", .null), ("void", .void), ("string", .primitive .string),
   ("number", .primitive .number), ("bigint", .primitive .bigint),
   ("boolean", .primitive .boolean), ("any", .primitive .any)]

def Alternative.ofWord (word : String) : Alternative :=
  match builtIn.lookup word with
  | some a => a
  | none => .named word []

/-- What has been read since a bracket was opened: the items before the last comma or
    semicolon, each with the name before its colon; and of the item after it, the name, the
    alternatives before the last bar, the operand after it, and the last word. -/
structure Frame where
  items : List (String × List Alternative) := []
  name : String := ""
  before : List Alternative := []
  operand : List Alternative := []
  word : String := ""

namespace Frame

/-- The alternatives of the item that is being read. -/
def content (f : Frame) : List Alternative := f.before ++ f.operand

/-- All items, the one being read included. -/
def all (f : Frame) : List (String × List Alternative) := f.items ++ [(f.name, f.content)]

end Frame

/-- Read one token. Brackets that open put a frame on top, brackets that close make an
    operand of it for the frame below. -/
def step : List Frame → Token → List Frame
  | f :: fs, .word w => { f with operand := [.ofWord w], word := w } :: fs
  | f :: fs, .mark '|' => { f with before := f.content, operand := [] } :: fs
  | f :: fs, .mark ']' => { f with operand := [.array f.operand] } :: fs
  | f :: fs, .mark ':' => { f with name := f.word, before := [], operand := [] } :: fs
  | f :: fs, .mark ',' => { items := f.all } :: fs
  | f :: fs, .mark ';' => { items := f.all } :: fs
  | fs, .mark '(' => {} :: fs
  | fs, .mark '<' => {} :: fs
  | fs, .mark '\x7b' => {} :: fs
  | f :: g :: fs, .mark ')' => { g with operand := f.content } :: fs
  | f :: g :: fs, .mark '>' => { g with operand := [.named g.word (f.all.map (·.2))] } :: fs
  | f :: g :: fs, .mark '\x7d' =>
    { g with operand := [.object (if f.operand.isEmpty then [] else f.all)] } :: fs
  | fs, _ => fs

/-- Read tokens one after the other. -/
def run (fs : List Frame) (ts : List Token) : List Frame := ts.foldl step fs

theorem run_append (fs : List Frame) (ts us : List Token) :
    run fs (ts ++ us) = run (run fs ts) us := List.foldl_append

theorem run_cons (fs : List Frame) (t : Token) (ts : List Token) :
    run fs (t :: ts) = run (step fs t) ts := rfl

theorem run_nil (fs : List Frame) : run fs [] = fs := rfl

/-- The alternatives that a text shows. -/
def readAlternatives (s : String) : List Alternative :=
  match run [{}] (tokens s) with
  | f :: _ => f.content
  | [] => []

/-! ### Types with proper names -/

/-- A word that names a type which the language does not have built in. -/
def isTypeName (s : String) : Bool := isWord s && (builtIn.lookup s).isNone

theorem ofWord_of_isTypeName {s : String} (h : isTypeName s = true) :
    Alternative.ofWord s = .named s [] := by
  obtain ⟨-, hnone⟩ := Bool.and_eq_true_iff.mp h
  rw [Alternative.ofWord, Option.isNone_iff_eq_none.mp hnone]

theorem tokens_of_isTypeName {s : String} (h : isTypeName s = true) : tokens s = [.word s] :=
  tokens_of_isWord (Bool.and_eq_true_iff.mp h).1

/-! ### What texts do to the reader -/

/-- The text shows alternatives: read behind others, it puts these behind them, with the last
    one as the operand. Without a bar of its own it is all operand. -/
def Shows (s : String) (as : List Alternative) (hasBar : Bool) : Prop :=
  ∀ (f : Frame) (below : List Frame), ∃ before operand word,
    before ++ operand = as ∧ operand ≠ [] ∧ (hasBar = false → before = []) ∧
      run (f :: below) (tokens s) =
        { f with before := f.before ++ before, operand := operand, word := word } :: below

/-- The text shows an item: an argument, which has no name, or a field. -/
def ShowsItem (s : String) (item : String × List Alternative) : Prop :=
  ∀ (items : List (String × List Alternative)) (below : List Frame), ∃ g : Frame,
    g.items = items ∧ (g.name, g.content) = item ∧ g.operand ≠ [] ∧
      run ({ items := items } :: below) (tokens s) = g :: below

theorem shows_word {s : String} {a : Alternative} (hs : tokens s = [.word s])
    (ha : Alternative.ofWord s = a) (hasBar : Bool) : Shows s [a] hasBar := by
  intro f below
  refine ⟨[], [a], s, rfl, List.cons_ne_nil _ _, fun _ => rfl, ?_⟩
  rw [hs, run_cons, run_nil, step, ha, List.append_nil]

section

variable {s : String} {as : List Alternative} {hasBar : Bool}

theorem Shows.orNull (h : Shows s as hasBar) : Shows (s ++ " | null") (as ++ [.null]) true := by
  intro f below
  obtain ⟨before, operand, word, rfl, -, -, hrun⟩ := h f below
  refine ⟨before ++ operand, [.null], "null", rfl, List.cons_ne_nil _ _, nofun, ?_⟩
  have htokens : tokens (s ++ " | null") = tokens s ++ [.mark '|', .word "null"] :=
    tokens_append rfl rfl
  rw [htokens, run_append, hrun]
  simp only [run_cons, run_nil, step, Frame.content, List.append_assoc]
  rfl

/-- Brackets take the whole of a text that has no bar. -/
theorem Shows.brackets (h : Shows s as false) : Shows (s ++ "[]") [.array as] false := by
  intro f below
  obtain ⟨before, operand, word, rfl, -, hbefore, hrun⟩ := h f below
  refine ⟨[], [.array operand], word, by rw [hbefore rfl]; rfl, List.cons_ne_nil _ _,
    fun _ => rfl, ?_⟩
  have htokens : tokens (s ++ "[]") = tokens s ++ [.mark '[', .mark ']'] := tokens_append rfl rfl
  rw [htokens, run_append, hrun, hbefore rfl]
  rfl

theorem Shows.grouped (h : Shows s as hasBar) : Shows ("(" ++ s ++ ")[]") [.array as] false := by
  intro f below
  obtain ⟨before, operand, word, rfl, -, -, hrun⟩ := h {} (f :: below)
  refine ⟨[], [.array (before ++ operand)], f.word, rfl, List.cons_ne_nil _ _, fun _ => rfl, ?_⟩
  have htokens : tokens ("(" ++ s ++ ")[]") =
      .mark '(' :: (tokens s ++ [.mark ')', .mark '[', .mark ']']) := by
    have hopen : "(".toList = [] ++ ['('] := rfl
    rw [tokens_append rfl rfl, append_tokens hopen rfl]
    rfl
  rw [htokens, run_cons, run_append, step, hrun, List.append_nil]
  rfl

theorem Shows.item (h : Shows s as hasBar) : ShowsItem s ("", as) := by
  intro items below
  obtain ⟨before, operand, word, rfl, hne, -, hrun⟩ := h { items := items } below
  exact ⟨{ items, before := [] ++ before, operand, word }, rfl, rfl, hne, hrun⟩

theorem Shows.field (h : Shows s as hasBar) {name : String} (hname : isWord name = true) :
    ShowsItem (name ++ ": " ++ s) (name, as) := by
  intro items below
  obtain ⟨before, operand, word, rfl, hne, -, hrun⟩ :=
    h { items := items, name := name, word := name } below
  refine ⟨{ items, name, before := [] ++ before, operand, word }, rfl, rfl, hne, ?_⟩
  have htokens : tokens (name ++ ": " ++ s) = .word name :: .mark ':' :: tokens s := by
    have hcolon : (name ++ ": ").toList = (name.toList ++ [':']) ++ [' '] := by simp
    rw [append_tokens hcolon rfl, tokens_append rfl rfl, tokens_of_isWord hname]
    rfl
  rw [htokens, run_cons, run_cons]
  exact hrun

end

/-- What a comma or a semicolon between items does to the reader. -/
structure Separates (separator : String) : Prop where
  front : ∃ c cs, separator.toList = c :: cs ∧ isMark c = true
  back : ∃ c cs, separator.toList = cs ++ [c] ∧ isMark c = true
  run : ∀ f below, run (f :: below) (tokens separator) = { items := f.all } :: below

theorem separates_comma : Separates ", " where
  front := ⟨',', [' '], rfl, rfl⟩
  back := ⟨' ', [','], rfl, rfl⟩
  run := fun _ _ => rfl

theorem separates_semicolon : Separates "; " where
  front := ⟨';', [' '], rfl, rfl⟩
  back := ⟨' ', [';'], rfl, rfl⟩
  run := fun _ _ => rfl

theorem tokens_intercalate {separator : String}
    (hfront : ∃ c cs, separator.toList = c :: cs ∧ isMark c = true)
    (hback : ∃ c cs, separator.toList = cs ++ [c] ∧ isMark c = true) (s t : String)
    (rest : List String) :
    tokens (separator.intercalate (s :: t :: rest)) =
      tokens s ++ (tokens separator ++ tokens (separator.intercalate (t :: rest))) := by
  obtain ⟨c, cs, hfirst, hc⟩ := hfront
  obtain ⟨d, ds, hlast, hd⟩ := hback
  have hrest : (separator ++ separator.intercalate (t :: rest)).toList =
      c :: (cs ++ (separator.intercalate (t :: rest)).toList) := by
    rw [String.toList_append, hfirst]
    rfl
  rw [String.intercalate_cons_cons, String.append_assoc, tokens_append hrest hc,
    append_tokens hlast hd]

theorem Separates.run_items {separator : String} (hseparator : Separates separator)
    {texts : List String} {items : List (String × List Alternative)}
    (h : List.Forall₂ ShowsItem texts items) (hne : texts ≠ [])
    (done : List (String × List Alternative)) (below : List Frame) :
    ∃ g : Frame, g.all = done ++ items ∧ g.operand ≠ [] ∧
      Script.run ({ items := done } :: below) (tokens (separator.intercalate texts)) =
        g :: below := by
  -- on the items still to come; `done` are those behind a separator
  induction h generalizing done with
  | nil => exact absurd rfl hne
  | @cons s item rest items hs hrest ih =>
    obtain ⟨g, hitems, hitem, hoperand, hrun⟩ := hs done below
    have hall : g.all = done ++ [item] := by rw [Frame.all, hitems, hitem]
    cases hrest with
    | nil =>
      refine ⟨g, hall, hoperand, ?_⟩
      rw [String.intercalate_singleton]
      exact hrun
    | @cons t _ rest items _ _ =>
      obtain ⟨k, hk, hkoperand, hkrun⟩ := ih (List.cons_ne_nil _ _) (done ++ [item])
      refine ⟨k, ?_, hkoperand, ?_⟩
      · rw [hk, List.append_assoc, List.singleton_append]
      · rw [tokens_intercalate hseparator.front hseparator.back, run_append, run_append, hrun,
          hseparator.run, hall]
        exact hkrun

/-- A bar puts the alternatives read so far behind it. -/
theorem run_bar (f : Frame) (below : List Frame) :
    run (f :: below) (tokens " | ") = { f with before := f.content, operand := [] } :: below := rfl

/-- Texts with bars between them show the alternatives of all of them. The operand is what the
    last one leaves; everything in front of it has gone behind a bar. -/
theorem shows_union {texts : List String} {each : List (List Alternative)}
    (h : List.Forall₂ (fun s as => ∃ hasBar, Shows s as hasBar) texts each) (hne : texts ≠ []) :
    Shows (" | ".intercalate texts) each.flatten true := by
  induction h with
  | nil => exact absurd rfl hne
  | @cons s as rest each hs hrest ih =>
    obtain ⟨hasBar, hs⟩ := hs
    intro f below
    obtain ⟨before, operand, word, rfl, hoperand, -, hrun⟩ := hs f below
    cases hrest with
    | nil =>
      refine ⟨before, operand, word, by simp, hoperand, nofun, ?_⟩
      rw [String.intercalate_singleton]
      exact hrun
    | @cons t _ rest each _ _ =>
      obtain ⟨before', operand', word', heach, hoperand', -, hrun'⟩ :=
        ih (List.cons_ne_nil _ _)
          { f with before := f.before ++ before ++ operand, operand := [], word := word } below
      refine ⟨before ++ operand ++ before', operand', word', ?_, hoperand', nofun, ?_⟩
      · rw [List.append_assoc, heach, ← List.flatten_cons]
      · rw [tokens_intercalate ⟨' ', ['|', ' '], rfl, rfl⟩ ⟨' ', [' ', '|'], rfl, rfl⟩, run_append,
          run_append, hrun, run_bar, Frame.content, hrun']
        simp only [List.append_assoc]

theorem shows_generic {base : String} (hbase : isTypeName base = true) {texts : List String}
    {each : List (List Alternative)}
    (h : List.Forall₂ (fun s as => ∃ hasBar, Shows s as hasBar) texts each) (hne : texts ≠ []) :
    Shows (base ++ "<" ++ ", ".intercalate texts ++ ">") [.named base each] false := by
  intro f below
  have hitems : List.Forall₂ ShowsItem texts (each.map fun as => ("", as)) := by
    rw [List.forall₂_map_right_iff]
    apply h.imp
    rintro s as ⟨hasBar, hs⟩
    exact hs.item
  obtain ⟨g, hall, -, hrun⟩ := separates_comma.run_items hitems hne []
    ({ f with operand := [.named base []], word := base } :: below)
  refine ⟨[], [.named base each], base, rfl, List.cons_ne_nil _ _, fun _ => rfl, ?_⟩
  have htokens : tokens (base ++ "<" ++ ", ".intercalate texts ++ ">") =
      .word base :: .mark '<' :: (tokens (", ".intercalate texts) ++ [.mark '>']) := by
    have hopen : (base ++ "<").toList = base.toList ++ ['<'] := by simp
    rw [tokens_append rfl rfl, append_tokens hopen rfl, tokens_append rfl rfl,
      tokens_of_isTypeName hbase]
    rfl
  have hargs : g.all.map (·.2) = each := by
    rw [hall, List.nil_append, List.map_map]
    exact List.map_id _
  rw [htokens, run_cons, run_cons, run_append, step, ofWord_of_isTypeName hbase, step, hrun,
    run_cons, run_nil, step, hargs, List.append_nil]

theorem shows_object {texts : List String} {fields : List (String × List Alternative)}
    (h : List.Forall₂ ShowsItem texts fields) (hne : texts ≠ []) :
    Shows ("\x7b " ++ "; ".intercalate texts ++ " \x7d") [.object fields] false := by
  intro f below
  obtain ⟨g, hall, hoperand, hrun⟩ := separates_semicolon.run_items h hne [] (f :: below)
  refine ⟨[], [.object fields], f.word, rfl, List.cons_ne_nil _ _, fun _ => rfl, ?_⟩
  have htokens : tokens ("\x7b " ++ "; ".intercalate texts ++ " \x7d") =
      .mark '\x7b' :: (tokens ("; ".intercalate texts) ++ [.mark '\x7d']) := by
    have hopen : "\x7b ".toList = ['\x7b'] ++ [' '] := rfl
    rw [tokens_append rfl rfl, append_tokens hopen rfl]
    rfl
  have hempty : g.operand.isEmpty = false := by simpa using hoperand
  rw [htokens, run_cons, run_append, step, hrun, run_cons, run_nil, step, hempty, hall,
    List.nil_append, List.append_nil]
  rfl

/-! ### Types -/

namespace TypeExpr

mutual

/-- Names of types and fields are words, no type is named like a built-in one, and no union
    is empty. -/
def isProper : TypeExpr → Bool
  | .primitive _ => true
  | .nullable t => t.isProper
  | .array t => t.isProper
  | .named name => isTypeName name
  | .generic base args => isTypeName base && areProper args
  | .object fields => areProperFields fields
  | .union ts => !ts.isEmpty && areProper ts
  | .unit => true

def areProper : List TypeExpr → Bool
  | [] => true
  | t :: ts => t.isProper && areProper ts

def areProperFields : List (String × TypeExpr) → Bool
  | [] => true
  | (name, t) :: fs => isWord name && t.isProper && areProperFields fs

end

theorem shows_primitive (p : Primitive) : Shows p.text [.primitive p] false := by
  cases p <;> exact shows_word rfl rfl false

mutual

/-- The text of a type shows its alternatives, and has a bar only if the type is compound. -/
theorem shows_text (t : TypeExpr) (h : t.isProper = true) :
    Shows t.text t.alternatives t.isCompound := by
  cases t with
  | primitive p =>
    rw [text, alternatives]
    exact shows_primitive p
  | nullable t =>
    rw [text, alternatives]
    exact (shows_text t h).orNull
  | array t =>
    have ht := shows_text t h
    rw [text, alternatives]
    by_cases hcompound : t.isCompound = true
    · rw [if_pos hcompound]
      exact ht.grouped
    · -- no parentheses, so no bar either: the brackets reach all of the element
      rw [Bool.not_eq_true] at hcompound
      rw [hcompound] at ht
      rw [hcompound, if_neg Bool.false_ne_true]
      exact ht.brackets
  | named name =>
    rw [text, alternatives]
    exact shows_word (tokens_of_isTypeName h) (ofWord_of_isTypeName h) _
  | generic base args =>
    obtain ⟨hbase, hargs⟩ := Bool.and_eq_true_iff.mp h
    have heach := shows_texts args hargs
    rw [alternatives]
    cases args with
    | nil =>
      rw [text, alternativesEach]
      exact shows_word (tokens_of_isTypeName hbase) (ofWord_of_isTypeName hbase) _
    | cons a as =>
      rw [text]
      exact shows_generic hbase heach (List.cons_ne_nil _ _)
  | object fields =>
    have hfields := shows_fieldTexts fields h
    rw [alternatives]
    cases fields with
    | nil =>
      rw [text]
      intro f below
      exact ⟨[], [.object []], f.word, rfl, List.cons_ne_nil _ _, fun _ => rfl, by
        rw [List.append_nil]; rfl⟩
    | cons f fs =>
      rw [text]
      exact shows_object hfields (List.cons_ne_nil _ _)
  | union ts =>
    obtain ⟨hne, hts⟩ := Bool.and_eq_true_iff.mp h
    have heach := shows_texts ts hts
    rw [text, alternatives]
    cases ts with
    | nil => cases hne
    | cons t ts => exact shows_union heach (List.cons_ne_nil _ _)
  | unit =>
    rw [text, alternatives]
    exact shows_word rfl rfl _

theorem shows_texts (ts : List TypeExpr) (h : areProper ts = true) :
    List.Forall₂ (fun s as => ∃ hasBar, Shows s as hasBar) (texts ts) (alternativesEach ts) := by
  cases ts with
  | nil => exact .nil
  | cons t ts =>
    obtain ⟨ht, hts⟩ := Bool.and_eq_true_iff.mp h
    exact .cons ⟨_, shows_text t ht⟩ (shows_texts ts hts)

theorem shows_fieldTexts (fs : List (String × TypeExpr)) (h : areProperFields fs = true) :
    List.Forall₂ ShowsItem (fieldTexts fs) (alternativesFields fs) := by
  cases fs with
  | nil => exact .nil
  | cons f fs =>
    obtain ⟨name, t⟩ := f
    obtain ⟨hhead, hfs⟩ := Bool.and_eq_true_iff.mp h
    obtain ⟨hname, ht⟩ := Bool.and_eq_true_iff.mp hhead
    exact .cons ((shows_text t ht).field hname) (shows_fieldTexts fs hfs)

end

/-- The reader finds the alternatives of a type in its text. -/
theorem readAlternatives_text {t : TypeExpr} (h : t.isProper = true) :
    readAlternatives t.text = t.alternatives := by
  obtain ⟨before, operand, word, hsplit, -, -, hrun⟩ := shows_text t h {} []
  rw [readAlternatives, hrun, ← hsplit]
  rfl

/-- **The text of a type is unambiguous.** Types of one text have the same alternatives: they
    are the same save for how unions and nulls are nested, for unions of one, and for generic
    types without arguments. -/
theorem alternatives_eq_of_text_eq {t u : TypeExpr} (ht : t.isProper = true)
    (hu : u.isProper = true) (h : t.text = u.text) : t.alternatives = u.alternatives := by
  rw [← readAlternatives_text ht, ← readAlternatives_text hu, h]

/-- A union that may be null, nested in two ways. -/
def nestedLeft : TypeExpr :=
  .union [.nullable (.array (.union [.named "Row", string])), .generic "Map" [.generic "Key" []]]

def nestedRight : TypeExpr :=
  .union [.union [.nullable (.union [.array (.union [.generic "Row" [], .union [string]])]),
    .generic "Map" [.named "Key"]]]

theorem alternatives_eq_of_text_eq_nested :
    nestedLeft.isProper = true ∧ nestedRight.isProper = true ∧
      nestedLeft.text = nestedRight.text ∧ nestedLeft.alternatives = nestedRight.alternatives := by
  have hleft : nestedLeft.isProper = true := by decide +kernel
  have hright : nestedRight.isProper = true := by decide +kernel
  have htext : nestedLeft.text = nestedRight.text := by decide +kernel
  exact ⟨hleft, hright, htext, alternatives_eq_of_text_eq hleft hright htext⟩

end TypeExpr
end QueryClient.Script
