/-
  QueryClient/Proofs/Script/Reading.lean
  ======================================
  **Reading source text back.** A function is written as lines; here the lines are read
  again, knowing nothing of the driver that they were written for: which expressions a
  call of a client library binds to the placeholders (`boundLists`), and which
  properties the objects have that a function returns (`returnedObjects`).

  The readers look for fixed words and for punctuation. They are not misled by what
  stands between, because every name in it is an identifier, and an expression bound to
  a placeholder is a path of identifiers (`IsPath`).
-/
import Mathlib.Data.List.TakeWhile
import QueryClient.Driver.QueryFunction
import QueryClient.Proofs.Naming.Identifier
import QueryClient.Proofs.Script.Lines

namespace QueryClient.Script

open Naming (isIdentifier isIdentifierChar)

/-! ### Readers of one line -/

/-- What follows the first place where a word stands in a text. -/
def after? (word : List Char) : List Char → Option (List Char)
  | [] => none
  | c :: cs =>
    if word.isPrefixOf (c :: cs) then some ((c :: cs).drop word.length) else after? word cs

/-- The items of a list, with a comma and perhaps blanks between neighbours. -/
def listItems (s : List Char) : List (List Char) :=
  if s = [] then [] else (s.splitOn ',').map fun item => item.dropWhile (· = ' ')

/-- The key and the value of a line that is one property of an object literal. -/
def property? (line : List Char) : Option (List Char × List Char) :=
  match line.dropWhile (· ≠ ':') with
  | ':' :: ' ' :: rest =>
    if rest.getLast? = some ',' then some (line.takeWhile (· ≠ ':'), rest.dropLast) else none
  | _ => none

/-- The items of an array literal. -/
def arrayItems? : List Char → Option (List (List Char))
  | '[' :: rest => if rest.getLast? = some ']' then some (listItems rest.dropLast) else none
  | _ => none

/-- The method that a statement calls with expressions for placeholders, and these: the
    array behind the query text where the method is `unsafe`, all arguments where it is
    `run` or `all`. -/
def callItems? (line : List Char) : Option (List Char × List (List Char)) :=
  match after? ".unsafe(".toList line with
  | some rest =>
    (after? ", [".toList rest).map fun s => ("unsafe".toList, listItems (s.takeWhile (· ≠ ']')))
  | none =>
    match after? ".run(".toList line with
    | some rest => some ("run".toList, listItems (rest.takeWhile (· ≠ ')')))
    | none =>
      (after? ".all(".toList line).map fun s => ("all".toList, listItems (s.takeWhile (· ≠ ')')))

/-- The expressions that a line binds to placeholders, and where it does so: under a key
    with an array as its value, or in the call of a method. -/
def boundIn? (line : String) : Option (String × List String) :=
  let found? := match property? line.toList with
    | some (key, value) => (arrayItems? value).map fun items => (key, items)
    | none => callItems? line.toList
  found?.map fun (site, items) => (String.ofList site, items.map String.ofList)

/-! ### Readers of a function body -/

/-- Every list of expressions that a body binds to placeholders, line by line. -/
def boundLists (body : List Layout) : List (String × List String) :=
  ((Layout.linesAll 0 body).map (·.2)).filterMap boundIn?

/-- The properties of an object literal, if every piece of its layout is one. -/
def properties? : List Layout → Option (List (String × String))
  | [] => some []
  | .line s :: rest =>
    match property? s.toList, properties? rest with
    | some (key, value), some ps => some ((String.ofList key, String.ofList value) :: ps)
    | _, _ => none
  | _ :: _ => none

namespace Layout

mutual

/-- The object literals that stand behind a `return`, each as its properties. -/
def returned : Layout → List (List (String × String))
  | .line _ => []
  | .blank => []
  | .block header body _ =>
    match "return ".toList.isPrefixOf header.toList, properties? body with
    | true, some ps => [ps]
    | _, _ => returnedAll body

def returnedAll : List Layout → List (List (String × String))
  | [] => []
  | l :: ls => returned l ++ returnedAll ls

end

end Layout

/-- Every object literal that a body returns, with its properties in order. -/
def returnedObjects (body : List Layout) : List (List (String × String)) :=
  Layout.returnedAll body

/-! ### Paths -/

/-- A member expression: identifier characters and dots. -/
def IsPath (s : List Char) : Prop := s ≠ [] ∧ ∀ c ∈ s, isIdentifierChar c = true ∨ c = '.'

theorem isPath_of_isIdentifier {s : List Char} (h : isIdentifier s = true) : IsPath s := by
  refine ⟨?_, fun c hc => Or.inl ?_⟩
  · rintro rfl
    cases h
  · exact List.all_eq_true.mp (Naming.all_of_isIdentifier h) c hc

theorem IsPath.append {s t : List Char} (hs : IsPath s) (ht : IsPath t) : IsPath (s ++ t) := by
  refine ⟨by simp [hs.1], ?_⟩
  intro c hc
  rcases List.mem_append.mp hc with h | h
  · exact hs.2 c h
  · exact ht.2 c h

theorem IsPath.not_mem {s : List Char} (h : IsPath s) {c : Char}
    (hc : isIdentifierChar c = false) (hdot : c ≠ '.') : c ∉ s := by
  intro hmem
  rcases h.2 c hmem with hid | rfl
  · rw [hc] at hid
    cases hid
  · exact hdot rfl

theorem not_mem_intercalate {paths : List (List Char)} (hpaths : ∀ s ∈ paths, IsPath s)
    {c : Char} (hc : isIdentifierChar c = false) (hdot : c ≠ '.') (hcomma : c ≠ ',')
    (hblank : c ≠ ' ') : c ∉ [',', ' '].intercalate paths := by
  induction paths with
  | nil => simp
  | cons s rest ih =>
    have hs : c ∉ s := (hpaths s List.mem_cons_self).not_mem hc hdot
    have hrest := ih fun t ht => hpaths t (List.mem_cons_of_mem _ ht)
    cases rest with
    | nil => simpa using hs
    | cons t rest =>
      rw [List.intercalate_cons_cons]
      simp [hs, hcomma, hblank, hrest]

theorem splitOn_intercalate {s : List Char} {rest : List (List Char)}
    (hpaths : ∀ t ∈ s :: rest, IsPath t) :
    ([',', ' '].intercalate (s :: rest)).splitOn ',' = s :: rest.map (' ' :: ·) := by
  induction rest generalizing s with
  | nil =>
    have hs : ',' ∉ s := (hpaths s List.mem_cons_self).not_mem (by decide) (by decide)
    simpa using List.splitOn_eq_singleton hs
  | cons t rest ih =>
    have hs : ',' ∉ s := (hpaths s List.mem_cons_self).not_mem (by decide) (by decide)
    have hrest := ih fun u hu => hpaths u (List.mem_cons_of_mem _ hu)
    have hcut : [',', ' '].intercalate (s :: t :: rest) =
        s ++ ',' :: (' ' :: [',', ' '].intercalate (t :: rest)) := by
      simp [List.intercalate_cons_cons]
    rw [hcut, List.splitOn_append_cons_self_of_not_mem hs, List.splitOn_cons_eq_if_modifyHead,
      hrest]
    rfl

theorem listItems_intercalate {paths : List (List Char)} (hpaths : ∀ s ∈ paths, IsPath s) :
    listItems ([',', ' '].intercalate paths) = paths := by
  have htrim {s : List Char} (hs : IsPath s) : s.dropWhile (· = ' ') = s := by
    have hblank : ' ' ∉ s := hs.not_mem (by decide) (by decide)
    cases s with
    | nil => rfl
    | cons c cs =>
      have hc : ¬c = ' ' := fun h => hblank (by simp [h])
      simp [hc]
  cases paths with
  | nil => rfl
  | cons s rest =>
    have hs := hpaths s List.mem_cons_self
    have hne : [',', ' '].intercalate (s :: rest) ≠ [] := by
      cases rest with
      | nil => simpa using hs.1
      | cons t rest => simp [List.intercalate_cons_cons]
    rw [listItems, if_neg hne, splitOn_intercalate hpaths, List.map_cons, htrim hs, List.map_map]
    congr 1
    calc rest.map ((fun item => item.dropWhile (· = ' ')) ∘ (' ' :: ·))
        = rest.map id := by
          apply List.map_congr_left
          intro t ht
          simpa using htrim (hpaths t (List.mem_cons_of_mem _ ht))
      _ = rest := List.map_id rest

/-! ### What the readers see of a line -/

theorem after?_append_of_not_mem {p : Char} {word s t : List Char} (h : p ∉ s) :
    after? (p :: word) (s ++ t) = after? (p :: word) t := by
  induction s with
  | nil => rfl
  | cons c s ih =>
    have hc : ¬p = c := fun heq => h (by simp [heq])
    rw [List.cons_append, after?, ih fun hmem => h (List.mem_cons_of_mem _ hmem)]
    simp [List.isPrefixOf, hc]

/-- What stands before the first place of a character. -/
theorem takeWhile_ne_append {c : Char} {s : List Char} (h : c ∉ s) (t : List Char) :
    (s ++ c :: t).takeWhile (· ≠ c) = s := by
  have hall : ∀ d ∈ s, decide (d ≠ c) = true := by
    intro d hd
    exact decide_eq_true fun heq => h (heq ▸ hd)
  rw [List.takeWhile_append_of_pos hall]
  simp

/-- Every word that a call is recognised by begins with a dot. -/
theorem callItems?_append {s : List Char} (h : '.' ∉ s) (t : List Char) :
    callItems? (s ++ t) = callItems? t := by
  have hskip (word : List Char) : after? ('.' :: word) (s ++ t) = after? ('.' :: word) t :=
    after?_append_of_not_mem h
  have hunsafe : after? ".unsafe(".toList (s ++ t) = after? ".unsafe(".toList t := hskip _
  have hrun : after? ".run(".toList (s ++ t) = after? ".run(".toList t := hskip _
  have hall : after? ".all(".toList (s ++ t) = after? ".all(".toList t := hskip _
  rw [callItems?, callItems?, hunsafe, hrun, hall]

theorem after?_eq_none_of_not_mem {c : Char} {word s : List Char} (hword : c ∈ word)
    (hs : c ∉ s) : after? word s = none := by
  induction s with
  | nil => rfl
  | cons d s ih =>
    have hprefix : ¬word.isPrefixOf (d :: s) = true := by
      intro h
      exact hs ((List.isPrefixOf_iff_prefix.mp h).subset hword)
    rw [after?, if_neg hprefix, ih fun hmem => hs (List.mem_cons_of_mem _ hmem)]

theorem callItems?_unsafe {query : List Char} (hquery : ',' ∉ query)
    {paths : List (List Char)} (hpaths : ∀ s ∈ paths, IsPath s) (rest : List Char) :
    callItems? (".unsafe(".toList ++ (query ++ (", [".toList ++
      ([',', ' '].intercalate paths ++ ']' :: rest)))) = some ("unsafe".toList, paths) := by
  have hclose : ']' ∉ [',', ' '].intercalate paths :=
    not_mem_intercalate hpaths (by decide) (by decide) (by decide) (by decide)
  have hfound : after? ".unsafe(".toList (".unsafe(".toList ++ (query ++ (", [".toList ++
      ([',', ' '].intercalate paths ++ ']' :: rest)))) =
        some (query ++ (", [".toList ++ ([',', ' '].intercalate paths ++ ']' :: rest))) := rfl
  have harray : after? ", [".toList (query ++ (", [".toList ++
      ([',', ' '].intercalate paths ++ ']' :: rest))) =
        some ([',', ' '].intercalate paths ++ ']' :: rest) := after?_append_of_not_mem hquery
  unfold callItems?
  rw [hfound]
  simp only [harray, Option.map_some, takeWhile_ne_append hclose, listItems_intercalate hpaths]

/-- The arguments of a prepared statement. The word for another method is not found,
    because no other parenthesis opens on the line. -/
theorem callItems?_prepared {method : String} (hmethod : method = "run" ∨ method = "all")
    {paths : List (List Char)} (hpaths : ∀ s ∈ paths, IsPath s) {rest : List Char}
    (hrest : '(' ∉ rest) :
    callItems? (("." ++ method ++ "(").toList ++ ([',', ' '].intercalate paths ++ ')' :: rest)) =
      some (method.toList, paths) := by
  have hclose : ')' ∉ [',', ' '].intercalate paths :=
    not_mem_intercalate hpaths (by decide) (by decide) (by decide) (by decide)
  have hopen : '(' ∉ [',', ' '].intercalate paths :=
    not_mem_intercalate hpaths (by decide) (by decide) (by decide) (by decide)
  have hnone {word : List Char} (hword : '(' ∈ word) :
      after? word ([',', ' '].intercalate paths ++ ')' :: rest) = none := by
    apply after?_eq_none_of_not_mem hword
    simp [hopen, hrest]
  have hitems : listItems (([',', ' '].intercalate paths ++ ')' :: rest).takeWhile (· ≠ ')')) =
      paths := by
    rw [takeWhile_ne_append hclose, listItems_intercalate hpaths]
  rcases hmethod with rfl | rfl
  · have hunsafe : after? ".unsafe(".toList (".run(".toList ++
        ([',', ' '].intercalate paths ++ ')' :: rest)) = none := hnone (by decide)
    change callItems? (".run(".toList ++ ([',', ' '].intercalate paths ++ ')' :: rest)) = _
    rw [callItems?, hunsafe]
    exact congrArg (fun items => some ("run".toList, items)) hitems
  · have hunsafe : after? ".unsafe(".toList (".all(".toList ++
        ([',', ' '].intercalate paths ++ ')' :: rest)) = none := hnone (by decide)
    have hrun : after? ".run(".toList (".all(".toList ++
        ([',', ' '].intercalate paths ++ ')' :: rest)) = none := hnone (by decide)
    change callItems? (".all(".toList ++ ([',', ' '].intercalate paths ++ ')' :: rest)) = _
    rw [callItems?, hunsafe, hrun]
    exact congrArg (fun items => some ("all".toList, items)) hitems

theorem property?_line {key : List Char} (hkey : ':' ∉ key) (value : List Char) :
    property? (key ++ ':' :: ' ' :: (value ++ [','])) = some (key, value) := by
  have hall : ∀ c ∈ key, decide (c ≠ ':') = true := by
    intro c hc
    exact decide_eq_true fun heq => hkey (heq ▸ hc)
  rw [property?, List.dropWhile_append_of_pos hall, takeWhile_ne_append hkey]
  simp

theorem property?_eq_none {line : List Char} (h : ':' ∉ line) : property? line = none := by
  have hall : ∀ c ∈ line, decide (c ≠ ':') = true := by
    intro c hc
    exact decide_eq_true fun heq => h (heq ▸ hc)
  have hdrop : line.dropWhile (· ≠ ':') = [] := List.dropWhile_eq_nil_iff.mpr hall
  rw [property?, hdrop]

theorem boundIn?_property {key : String} (hkey : ':' ∉ key.toList) (value : String) :
    boundIn? (key ++ ": " ++ value ++ ",") =
      (arrayItems? value.toList).map fun items => (key, items.map String.ofList) := by
  have hline : (key ++ ": " ++ value ++ ",").toList =
      key.toList ++ ':' :: ' ' :: (value.toList ++ [',']) := by simp
  rw [boundIn?, hline, property?_line hkey]
  change ((arrayItems? value.toList).map fun items => (key.toList, items)).map _ = _
  cases arrayItems? value.toList with
  | none => rfl
  | some items => simp only [Option.map_some, String.ofList_toList]

theorem boundIn?_statement {line : String} (h : ':' ∉ line.toList) :
    boundIn? line = (callItems? line.toList).map fun (site, items) =>
      (String.ofList site, items.map String.ofList) := by
  rw [boundIn?, property?_eq_none h]

/-! ### What the readers see of a body -/

namespace Layout

mutual

theorem map_snd_lines (depth : Nat) (l : Layout) :
    (l.lines depth).map (·.2) = (l.lines 0).map (·.2) := by
  cases l with
  | line s => rfl
  | blank => rfl
  | block header body close =>
    have hdeep := map_snd_linesAll (depth + 1) body
    have hflat := map_snd_linesAll 1 body
    cases close with
    | none => simp [lines, hdeep, hflat]
    | some s => simp [lines, hdeep, hflat]

theorem map_snd_linesAll (depth : Nat) (ls : List Layout) :
    (linesAll depth ls).map (·.2) = (linesAll 0 ls).map (·.2) := by
  cases ls with
  | nil => rfl
  | cons l ls =>
    have hhead := map_snd_lines depth l
    have htail := map_snd_linesAll depth ls
    simp only [linesAll, List.map_append, hhead, htail]

end

end Layout

theorem boundLists_append (ls rest : List Layout) :
    boundLists (ls ++ rest) = boundLists ls ++ boundLists rest := by
  simp [boundLists, Layout.linesAll_append]

theorem boundLists_cons (l : Layout) (ls : List Layout) :
    boundLists (l :: ls) = boundLists [l] ++ boundLists ls := boundLists_append [l] ls

theorem boundLists_line (s : String) : boundLists [.line s] = (boundIn? s).toList := by
  cases h : boundIn? s with
  | none => simp [boundLists, Layout.linesAll, Layout.lines, h]
  | some items => simp [boundLists, Layout.linesAll, Layout.lines, h]

theorem boundLists_block (header : String) (body : List Layout) (close : String) :
    boundLists [.block header body (some close)] =
      (boundIn? header).toList ++ boundLists body ++ (boundIn? close).toList := by
  have hbody := Layout.map_snd_linesAll 1 body
  have hlines : (Layout.linesAll 0 [.block header body (some close)]).map (·.2) =
      [header] ++ (Layout.linesAll 0 body).map (·.2) ++ [close] := by
    simp [Layout.linesAll, Layout.lines, hbody]
  have hline (s : String) : [s].filterMap boundIn? = (boundIn? s).toList := by
    cases h : boundIn? s <;> simp [h]
  rw [boundLists, hlines, List.filterMap_append, List.filterMap_append, hline, hline, boundLists]

end QueryClient.Script
