/-
  QueryClient/Proofs/Json/Printing.lean
  =====================================
  **A document read and printed says the same.** Reading a value sorts the members of its
  objects, and printing writes numbers and strings in one way each. The tree of what is printed
  is that of the document, up to the order of the members (`exists_tree_of_readValue`), unless
  an object has two members of one key: of those only the last is kept.

  The value and the tree are read from one text, so one reading follows the other. What is
  shown on the way of a value and a tree is that the text of the value has such a tree
  (`Resembles`).
-/
import QueryClient.Proofs.Json.Numeral
import QueryClient.Proofs.Json.Record

namespace QueryClient.Json

variable {α : Type}

/-! ### Trees in another order -/

/-- The same tree, up to the order of the members of each object in it. -/
inductive Tree.Reorders : Tree → Tree → Prop where
  | refl (t : Tree) : Tree.Reorders t t
  | list {ts us : List Tree} (helements : List.Forall₂ Tree.Reorders ts us) :
      Tree.Reorders (.list ts) (.list us)
  | object {ms ks ns : List (String × Tree)} (horder : ms.Perm ks)
      (hkeys : ks.map Prod.fst = ns.map Prod.fst)
      (hvalues : List.Forall₂ Tree.Reorders (ks.map Prod.snd) (ns.map Prod.snd)) :
      Tree.Reorders (.object ms) (.object ns)

theorem forall_of_forall₂ {β : Type} {S : α → β → Prop} {P : α → Prop} {as : List α}
    {bs : List β} (h : List.Forall₂ S as bs) (hP : ∀ b ∈ bs, ∀ a, S a b → P a) :
    ∀ a ∈ as, P a := by
  induction h with
  | nil => exact List.forall_mem_nil _
  | cons hS _ ih =>
    rw [List.forall_mem_cons] at hP
    exact List.forall_mem_cons.mpr ⟨hP.1 _ hS, ih hP.2⟩

/-- Keys stay distinct in another order. -/
theorem Tree.DistinctKeys.of_reorders {t u : Tree} (h : t.DistinctKeys) (hreorders : u.Reorders t) :
    u.DistinctKeys := by
  induction h generalizing u with
  | null =>
    cases hreorders
    exact .null
  | bool b =>
    cases hreorders
    exact .bool b
  | number =>
    cases hreorders
    exact .number
  | string s =>
    cases hreorders
    exact .string s
  | list hitems ih =>
    cases hreorders with
    | refl => exact .list hitems
    | list helements => exact .list (forall_of_forall₂ helements fun t ht u hu => ih t ht hu)
  | object hnodup hmembers ih =>
    cases hreorders with
    | refl => exact .object hnodup hmembers
    | object horder hkeys hvalues =>
      have hpairs := forall₂_members hkeys hvalues
      have hks := forall_of_forall₂ (P := fun m => m.2.DistinctKeys) hpairs
        fun n hn m hm => ih n hn hm.2
      refine .object ?_ fun m hm => hks m (horder.mem_iff.mp hm)
      rw [(horder.map Prod.fst).nodup_iff, hkeys]
      exact hnodup

/-! ### Members in their places -/

theorem perm_insertMember {key : String} {ms : List (String × Value)}
    (h : key ∉ ms.map Prod.fst) (v : Value) :
    (insertMember key v ms).Perm ((key, v) :: ms) := by
  induction ms with
  | nil => exact .refl _
  | cons m ms ih =>
    rw [List.map_cons, List.mem_cons, not_or] at h
    rw [insertMember, if_neg h.1]
    split_ifs with hbefore
    · exact .refl _
    · exact ((ih h.2).cons m).trans (.swap _ _ ms)

/-- Among members of distinct keys none gets lost when they are sorted. -/
theorem perm_insertMembers {ms more : List (String × Value)}
    (h : ((more ++ ms).map Prod.fst).Nodup) : (insertMembers ms more).Perm (more ++ ms) := by
  induction more generalizing ms with
  | nil => exact .refl ms
  | cons m more ih =>
    rw [List.cons_append, List.map_cons, List.nodup_cons, List.map_append, List.mem_append,
      not_or] at h
    have hinsert := perm_insertMember h.1.2 m.2
    have hmiddle : (more ++ insertMember m.1 m.2 ms).Perm (m :: (more ++ ms)) :=
      (hinsert.append_left more).trans List.perm_middle
    have hnodup : ((more ++ insertMember m.1 m.2 ms).map Prod.fst).Nodup := by
      rw [(hmiddle.map Prod.fst).nodup_iff, List.map_cons, List.nodup_cons, List.map_append,
        List.mem_append, not_or]
      exact h
    exact (ih hnodup).trans hmiddle

/-! ### Trees of printed values -/

theorem dropWhile_text (v : Value) (rest : Bytes) :
    (Text.utf8 v.text ++ rest).dropWhile isBlank = Text.utf8 v.text ++ rest := by
  obtain ⟨b, bs, hbs, hblank, -⟩ := exists_head_text v
  rw [hbs, List.cons_append, List.dropWhile_cons, hblank]
  rfl

theorem takes_of_opens {f : Forms α} {v : Value} {a : α}
    (h : ∀ rest, Ends rest → f.Opens (Text.utf8 v.text ++ rest) a rest) : Takes f.read v a := by
  intro rest hrest
  rw [Forms.read_eq_ok_iff, dropWhile_text]
  exact h rest hrest

variable {inner? : Option (Reader Tree)}

theorem word_append (ws rest : Bytes) : word ws (ws ++ rest) = .ok ((), rest) := by
  induction ws with
  | nil => rfl
  | cons w ws ih =>
    change (if w = w then (do advance; word ws) else stopAtNext .badWord : Reader Unit)
      (w :: (ws ++ rest)) = _
    rw [if_pos rfl, advance_bind]
    exact ih

theorem takes_null : Takes (treeForms inner?).read .null .null :=
  takes_of_opens fun rest _ => .null (f := treeForms inner?) (word_append restOfNull rest)

theorem takes_bool (b : Bool) : Takes (treeForms inner?).read (.bool b) (.bool b) := by
  refine takes_of_opens fun rest _ => ?_
  cases b with
  | true => exact .true (f := treeForms inner?) (word_append restOfTrue rest)
  | false => exact .false (f := treeForms inner?) (word_append restOfFalse rest)

theorem takes_number (n : Number) : Takes (treeForms inner?).read (.number n) .number := by
  refine takes_of_opens fun rest hrest => ?_
  have hskip {s : String} (h : NumeralText s) : ∃ d ds, Text.utf8 s = d :: ds ∧
      isDigit d = true ∧ skipNumber (d :: (ds ++ rest)) = .ok ((), rest) := by
    obtain ⟨d, ds, tail, hs, hnumeral⟩ := h
    refine ⟨d, ds ++ tail, hs, hnumeral.head, ?_⟩
    rw [List.append_assoc]
    exact skipNumber_numeral hnumeral hrest
  rw [Value.text]
  rcases exists_text_number n with hplain | ⟨body, hbody, hnumeral⟩
  · obtain ⟨d, ds, hds, hdigit, hnumber⟩ := hskip hplain
    rw [hds]
    exact .digit hdigit (bind_eq hnumber)
  · obtain ⟨d, ds, hds, -, hnumber⟩ := hskip hnumeral
    rw [hbody, Text.utf8_append, hds]
    exact .negative (f := treeForms inner?) (bind_eq hnumber)

theorem takes_string (s : String) :
    Takes (treeForms inner?).read (.string s) (.string s) := by
  refine takes_of_opens fun rest _ => ?_
  rw [Value.text, utf8_stringText, List.cons_append, List.append_assoc]
  exact .string (stringRest_escaped s rest)

theorem takes_list {inner : Reader Tree} {vs : List Value} {ts : List Tree}
    (h : List.Forall₂ (Takes inner) vs ts) :
    Takes (treeForms (some inner)).read (.list vs) (.list ts) := by
  refine takes_of_opens fun rest _ => ?_
  rw [utf8_text_list, List.cons_append, List.append_assoc]
  exact .list rfl (bind_eq (listRest_separated h rest))

/-- Each turn takes one member; with more turns than members the last one is reached. -/
theorem memberList_separated {item : Reader α} {ms : List (String × Value)}
    {as : List (String × α)} (h : List.Forall₂ (fun m a => m.1 = a.1 ∧ Takes item m.2 a.2) ms as)
    {turns : Nat} (hturns : ms.length < turns) (first : Bool) (rest : Bytes) :
    memberList item turns first (separated first (ms.map memberBytes) ++ 0x7D :: rest) =
      .ok (as, rest) := by
  induction h generalizing turns first with
  | nil =>
    cases turns with
    | zero => cases hturns
    | succ turns => rfl
  | @cons m a ms as hm _ ih =>
    cases turns with
    | zero => cases hturns
    | succ turns =>
      obtain ⟨hkey, hvalue⟩ := hm
      have htail := ih (Nat.lt_of_succ_lt_succ hturns) false
      have hitem := hvalue _ (ends_separated (Or.inr rfl) (ms.map memberBytes) rest)
      obtain ⟨quoted, behind, hmore, hread, hcolon⟩ := (MemberText.printed m).reads_lead first
        ((MemberText.printed m).value ++ (separated false (ms.map memberBytes) ++ 0x7D :: rest))
      rw [memberList, List.map_cons, separated, ← MemberText.bytes_printed, MemberText.bytes]
      simp only [List.append_assoc]
      rw [bind_eq hmore, if_pos rfl, bind_eq hread, bind_eq hcolon]
      dsimp only [MemberText.printed, MemberText.plain]
      rw [bind_eq hitem, bind_eq htail, hkey]
      rfl

theorem takes_object {inner : Reader Tree} {ms : List (String × Value)}
    {ts : List (String × Tree)} (h : List.Forall₂ (fun m t => m.1 = t.1 ∧ Takes inner m.2 t.2) ms ts) :
    Takes (treeForms (some inner)).read (.object ms) (.object ts) := by
  refine takes_of_opens fun rest _ => ?_
  rw [utf8_text_object, List.cons_append, List.append_assoc]
  exact .object rfl (bind_eq (r := memberRest inner)
    (memberList_separated h (length_lt_memberBytes ms _) true rest))

/-! ### Values and trees -/

/-- The text of the value has the tree, up to the order of members. -/
def Resembles (inner : Reader Tree) (v : Value) (t : Tree) : Prop :=
  t.DistinctKeys → ∃ t', Takes inner v t' ∧ t'.Reorders t

namespace Resembles

variable {inner : Reader Tree}

theorem exists_trees {vs : List Value} {ts : List Tree}
    (h : List.Forall₂ (Resembles inner) vs ts) (hdistinct : ∀ t ∈ ts, t.DistinctKeys) :
    ∃ us, List.Forall₂ (Takes inner) vs us ∧ List.Forall₂ Tree.Reorders us ts := by
  induction h with
  | nil => exact ⟨[], .nil, .nil⟩
  | cons hv _ ih =>
    rw [List.forall_mem_cons] at hdistinct
    obtain ⟨u, htakes, hreorders⟩ := hv hdistinct.1
    obtain ⟨us, hall, hrest⟩ := ih hdistinct.2
    exact ⟨u :: us, .cons htakes hall, .cons hreorders hrest⟩

theorem exists_members {ms : List (String × Value)} {ts : List (String × Tree)}
    (h : List.Forall₂ (fun m t => m.1 = t.1 ∧ Resembles inner m.2 t.2) ms ts)
    (hdistinct : ∀ t ∈ ts, t.2.DistinctKeys) :
    ∃ us : List (String × Tree),
      List.Forall₂ (fun m u => m.1 = u.1 ∧ Takes inner m.2 u.2) ms us ∧
      us.map Prod.fst = ts.map Prod.fst ∧
      List.Forall₂ Tree.Reorders (us.map Prod.snd) (ts.map Prod.snd) := by
  induction h with
  | nil => exact ⟨[], .nil, rfl, .nil⟩
  | @cons m t ms ts hm _ ih =>
    rw [List.forall_mem_cons] at hdistinct
    obtain ⟨u, htakes, hreorders⟩ := hm.2 hdistinct.1
    obtain ⟨us, hall, hkeys, hvalues⟩ := ih hdistinct.2
    refine ⟨(t.1, u) :: us, .cons ⟨hm.1, htakes⟩ hall, ?_, .cons hreorders hvalues⟩
    rw [List.map_cons, List.map_cons, hkeys]

theorem list {vs : List Value} {ts : List Tree} (h : List.Forall₂ (Resembles inner) vs ts) :
    Resembles (treeForms (some inner)).read (.list vs) (.list ts) := by
  rintro ⟨⟩
  rename_i hitems
  obtain ⟨us, htakes, hreorders⟩ := exists_trees h hitems
  exact ⟨.list us, takes_list htakes, .list hreorders⟩

theorem object {ms : List (String × Value)} {ts : List (String × Tree)}
    (h : List.Forall₂ (fun m t => m.1 = t.1 ∧ Resembles inner m.2 t.2) ms ts) :
    Resembles (treeForms (some inner)).read (.object (insertMembers [] ms)) (.object ts) := by
  intro hdistinct
  cases hdistinct with
  | object hnodup hmembers =>
    obtain ⟨us, htakes, hkeys, hvalues⟩ := exists_members h hmembers
    have hsame : ms.map Prod.fst = ts.map Prod.fst :=
      map_eq_map_of_forall₂ (h.imp fun _ _ hm => hm.1)
    have hsorted : (insertMembers [] ms).Perm ms := by
      have hkeys : ((ms ++ []).map Prod.fst).Nodup := by
        rw [List.append_nil, hsame]
        exact hnodup
      have hperm := perm_insertMembers hkeys
      rw [List.append_nil] at hperm
      exact hperm
    obtain ⟨ws, hsortedTakes, horder⟩ := List.perm_comp_forall₂ hsorted htakes
    exact ⟨.object ws, takes_object hsortedTakes, .object horder hkeys hvalues⟩

end Resembles

/-- One level of a value beside one level of its tree. -/
theorem follows_treeForms {value? : Option (Reader Value)} {tree? : Option (Reader Tree)}
    (hinner : ∀ value, value? = some value → ∃ tree, tree? = some tree ∧
      ∀ bs, Follows [] (Resembles tree) (value bs) (tree (bs ++ []))) (bs : Bytes) :
    Follows [] (Resembles (treeForms tree?).read) ((valueForms value?).read bs)
      ((treeForms tree?).read (bs ++ [])) := by
  refine Forms.follows_read (f := valueForms value?) (R := Resembles _) ?null ?bool ?string ?number
    ?nested bs
  case null => exact fun _ => ⟨.null, takes_null, .refl _⟩
  case bool => exact fun b _ => ⟨.bool b, takes_bool b, .refl _⟩
  case string => exact fun s _ => ⟨.string s, takes_string s, .refl _⟩
  case number =>
    intro negative bs
    rw [List.append_nil]
    intro v rest h
    obtain ⟨n, mid, hnumber, ⟨⟩⟩ := bind_eq_ok_iff.mp h
    refine ⟨.number, ?_, fun _ => ⟨.number, takes_number n, .refl _⟩⟩
    rw [List.append_nil]
    exact bind_eq (skipNumber_of_numberRest hnumber)
  case nested =>
    intro list object hnested
    obtain ⟨value, rfl, hreaders⟩ := Option.map_eq_some_iff.mp hnested
    obtain ⟨tree, rfl, hitem⟩ := hinner value rfl
    cases hreaders
    refine ⟨_, _, rfl, ?_, ?_⟩
    · intro bs
      refine (follows_listRest hitem bs).bind ?_
      intro vs ts mid hts
      exact .ok (.list hts) mid
    · intro bs
      refine (follows_memberRest hitem bs).bind ?_
      intro ms ts mid hts
      exact .ok (.object hts) mid

theorem follows_readTree (depth : Nat) (bs : Bytes) :
    Follows [] (Resembles (readTree depth)) (readValue depth bs) (readTree depth (bs ++ [])) := by
  induction depth generalizing bs with
  | zero =>
    rw [readValue_eq]
    refine follows_treeForms ?_ bs
    rintro value ⟨⟩
  | succ depth ih =>
    rw [readValue_eq]
    refine follows_treeForms ?_ bs
    rintro value ⟨⟩
    exact ⟨readTree depth, rfl, ih⟩

/-- **Reading and printing**: a text that is read as a value has a tree. If no object in it has
    two members of one key, the printed value has the same tree, up to the order of members. -/
theorem exists_tree_of_readValue {depth : Nat} {bs rest : Bytes} {v : Value}
    (h : readValue depth bs = .ok (v, rest)) :
    ∃ t, readTree depth bs = .ok (t, rest) ∧
      (t.DistinctKeys → ∃ u, Takes (readTree depth) v u ∧ u.Reorders t) := by
  have hfollows := follows_readTree depth bs v rest h
  rw [List.append_nil, List.append_nil] at hfollows
  exact hfollows

end QueryClient.Json
